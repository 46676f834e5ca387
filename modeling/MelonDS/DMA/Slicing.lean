import Mathlib.Tactic.SplitIfs
import MelonDS.DMA.Channel
import MelonDS.Library.Slicing

/-!
# Slices of a DMA transfer

`next` moves a channel by one unit, or starts its next part, with no clock and
no stalls: iterating it is the uninterrupted run. Every run in slices is seen
to be such an iterate once the marks of the current slice are put aside.
-/

namespace MelonDS.DMA.Channel

inductive Event
  | trigger
  | run (e : Slice)

def apply (d : Channel) : Event → Channel
  | .trigger => d.trigger
  | .run e => d.run e

def runAll (d : Channel) (es : List Event) : Channel := es.foldl apply d

def calm (d : Channel) : Channel := { d with executing := false, stall := false }

/-- The channel without the marks of a slice: whether the burst has begun, and the stall. -/
def view (d : Channel) : Channel :=
  { d.calm with running := if d.running = 0 then 0 else 1 }

def next (d : Channel) : Channel := (if d.running = 0 then d.trigger else d.unit.settle).view

/-- What holds of a channel between the calls made to it. -/
structure Sound (d : Channel) : Prop where
  calm : d.executing = false ∧ d.stall = false
  le : d.iterCount ≤ d.remCount
  count : d.transferred + d.remCount.toNat = d.programmed
  part : d.inProgress = true ↔ d.remCount ≠ 0
  enabled : d.inProgress = true → d.cnt.getLsbD 31 = true
  stopped : d.running = 0 → d.iterCount = 0
  moving : d.running ≠ 0 → d.iterCount ≠ 0

/-- What holds inside the unit loop. -/
structure Moving (d : Channel) : Prop where
  running : d.running = 1
  inProgress : d.inProgress = true
  enabled : d.cnt.getLsbD 31 = true
  le : d.iterCount ≤ d.remCount
  count : d.transferred + d.remCount.toNat = d.programmed

theorem Sound.view_eq {d : Channel} (h : d.Sound) (hr : d.running = 0) : d.view = d := by
  obtain ⟨he, hs⟩ := h.calm
  cases d
  simp_all [view, Channel.calm]

theorem view_running {d : Channel} : d.view.running = 0 ↔ d.running = 0 := by
  change (if d.running = 0 then (0 : U32) else 1) = 0 ↔ d.running = 0
  split_ifs with h
  · exact iff_of_true rfl h
  · exact iff_of_false (by decide) h

theorem view_view (d : Channel) : d.view.view = d.view := by
  have hr : (if d.view.running = 0 then (0 : U32) else 1) = d.view.running := by
    simp only [view_running]
    rfl
  rw [view, hr]
  rfl

theorem view_settle (d : Channel) : d.view.settle.view = d.settle.view := by
  change (if d.remCount ≠ 0 then if d.iterCount = 0 then { d.view with running := 0 } else d.view
      else d.view.complete).view = _
  rw [settle]
  split_ifs
  · rfl
  · exact view_view d
  · rfl

theorem next_view {d : Channel} (h : d.running ≠ 0) : d.view.next = d.unit.settle.view := by
  rw [next, if_neg (mt view_running.mp h)]
  exact view_settle d.unit

/-! ## One call keeps a channel sound -/

theorem programmedCount_ne_zero (d : Channel) : d.programmedCount ≠ 0 := by
  have hmask : countMask d.cpu d.num + 1 ≠ 0 := by
    unfold countMask
    split_ifs <;> decide
  unfold programmedCount
  dsimp only
  split_ifs with h
  · exact hmask
  · exact h

theorem Sound.start {d : Channel} (h : d.Sound) (hen : d.cnt.getLsbD 31 = true) :
    d.start.Sound := by
  unfold Channel.start
  split_ifs with hr
  · exact h
  · have hload : d.loadCount.remCount ≠ 0 ∧
        d.loadCount.transferred + d.loadCount.remCount.toNat = d.loadCount.programmed ∧
        d.loadCount.cnt = d.cnt ∧ d.loadCount.executing = false ∧ d.loadCount.stall = false := by
      unfold loadCount
      split_ifs with hp
      · exact ⟨h.part.mp hp, h.count, rfl, h.calm⟩
      · exact ⟨d.programmedCount_ne_zero, Nat.zero_add _, rfl, h.calm⟩
    obtain ⟨hrem, hcount, hcnt, hcalm⟩ := hload
    have hiter : d.loadCount.launch.iterCount ≠ 0 ∧
        d.loadCount.launch.iterCount ≤ d.loadCount.remCount := by
      simp only [launch]
      split_ifs with hc
      · refine ⟨by decide, ?_⟩
        simp only [Bool.and_eq_true, BitVec.ult_iff_lt] at hc
        exact BitVec.le_of_lt hc.2
      · exact ⟨hrem, BitVec.le_refl _⟩
    refine ⟨hcalm, hiter.2, hcount, ⟨fun _ => hrem, fun _ => rfl⟩, fun _ => ?_, fun hrun => ?_,
      fun _ => hiter.1⟩
    · change d.loadCount.cnt.getLsbD 31 = true
      rw [hcnt, hen]
    · exact absurd hrun (show (2 : U32) ≠ 0 by decide)

theorem Sound.trigger {d : Channel} (h : d.Sound) : d.trigger.Sound := by
  unfold Channel.trigger
  split_ifs with hen
  · exact h.start hen
  · exact h

theorem Moving.unit {d : Channel} (h : d.Moving) (hi : d.iterCount ≠ 0) (stalls : Bool) :
    (d.unit.stallIf stalls).Moving := by
  have hle := h.le
  have hcount := h.count
  refine ⟨h.running, h.inProgress, h.enabled, ?_, ?_⟩
  · change d.iterCount - 1 ≤ d.remCount - 1
    bv_omega
  · change d.transferred + 1 + (d.remCount - 1).toNat = d.programmed
    bv_omega

theorem Moving.settle {d : Channel} (h : d.Moving) : d.calm.settle.Sound := by
  have hle := h.le
  have hrun := h.running
  unfold Channel.settle
  split_ifs with hr hi
  · exact ⟨⟨rfl, rfl⟩, h.le, h.count, ⟨fun _ => hr, fun _ => h.inProgress⟩,
      fun _ => h.enabled, fun _ => hi, fun hne => absurd rfl hne⟩
  · refine ⟨⟨rfl, rfl⟩, h.le, h.count, ⟨fun _ => hr, fun _ => h.inProgress⟩,
      fun _ => h.enabled, fun h0 => ?_, fun _ => hi⟩
    change d.running = 0 at h0
    rw [hrun] at h0
    exact absurd h0 (by decide)
  · have hr' : d.remCount = 0 := not_not.mp hr
    have hi : d.iterCount = 0 := by
      rw [hr'] at hle
      bv_omega
    exact ⟨⟨rfl, rfl⟩, h.le, h.count, ⟨fun hp => absurd hp Bool.false_ne_true,
      fun hne => absurd hr' hne⟩, fun hp => absurd hp Bool.false_ne_true, fun _ => hi,
      fun hne => absurd rfl hne⟩

theorem settle_eq_of_iterCount_ne {d : Channel} (h : d.Moving) (hi : d.iterCount ≠ 0) :
    d.settle = d := by
  have hle := h.le
  have hr : d.remCount ≠ 0 := by
    intro h0
    rw [h0] at hle
    exact hi (by bv_omega)
  rw [settle, if_pos hr, if_neg hi]

theorem Moving.step {d : Channel} (h : d.Moving) (stalls : Bool) :
    (d.unit.stallIf stalls).settle.view = d.view.next := by
  have hrun : d.running ≠ 0 := by
    rw [h.running]
    decide
  rw [next_view hrun, ← view_settle d.unit, ← view_settle]
  rfl

/-- A pass through the unit loop is some number of single steps. -/
theorem Moving.unitLoop (e : Slice) (n k : ℕ) (timestamp : U64) {d : Channel}
    (h : d.Moving) (hs : d.stall = false) (hn : d.iterCount.toNat = n + 1) :
    (unitLoop e (n + 1) k timestamp d).Moving ∧
      ∃ m, (unitLoop e (n + 1) k timestamp d).settle.view = next^[m] d.view := by
  have hi {d : Channel} {n : ℕ} (hn : d.iterCount.toNat = n + 1) : d.iterCount ≠ 0 := by
    intro h0
    rw [h0] at hn
    exact absurd hn (by simp)
  induction n generalizing k timestamp d with
  | zero =>
    rw [Channel.unitLoop, if_pos ⟨hi hn, hs⟩]
    simp only [Channel.unitLoop, ite_self]
    exact ⟨h.unit (hi hn) _, 1, h.step _⟩
  | succ n ih =>
    have hd' := h.unit (hi hn) (e.stalls k)
    have hn' : (d.unit.stallIf (e.stalls k)).iterCount.toNat = n + 1 := by
      change (d.iterCount - 1).toNat = n + 1
      bv_omega
    rw [Channel.unitLoop, if_pos ⟨hi hn, hs⟩]
    dsimp only
    split_ifs with hend
    · exact ⟨hd', 1, h.step _⟩
    · by_cases hs' : (d.unit.stallIf (e.stalls k)).stall = false
      · obtain ⟨hm, m, he⟩ := ih (k + 1) (timestamp + e.cost k) hd' hs' hn'
        refine ⟨hm, m + 1, ?_⟩
        rw [he, Function.iterate_succ_apply, ← h.step (e.stalls k),
          settle_eq_of_iterCount_ne hd' (hi hn')]
      · rw [Channel.unitLoop, if_neg fun hc => hs' hc.2]
        exact ⟨hd', 1, h.step _⟩

theorem Sound.trigger_view {d : Channel} (h : d.Sound) :
    ∃ n, d.trigger.view = next^[n] d.view := by
  by_cases hr : d.running = 0
  · refine ⟨1, ?_⟩
    rw [Function.iterate_one, h.view_eq hr, next, if_pos hr]
  · refine ⟨0, ?_⟩
    have ht : d.trigger = d := by
      rw [Channel.trigger, Channel.start, if_pos hr, ite_self]
    rw [ht]
    rfl

theorem Sound.recheck {d : Channel} (h : d.Sound) (partMode doneMode : Option U32)
    (restarts : Bool) :
    (d.recheck partMode doneMode restarts).Sound ∧
      ∃ n, (d.recheck partMode doneMode restarts).view = next^[n] d.view := by
  simp only [Channel.recheck]
  generalize (if d.inProgress then partMode else doneMode) = checked
  split_ifs
  · exact ⟨h.trigger, h.trigger_view⟩
  · exact ⟨h, 0, rfl⟩

theorem Sound.moves {d : Channel} (h : d.Sound) (hr : d.running ≠ 0) (executing : Bool) :
    Moving { d with executing := executing, running := 1 } := by
  have hin : d.inProgress = true := by
    refine h.part.mpr fun h0 => h.moving hr ?_
    have hle := h.le
    rw [h0] at hle
    bv_omega
  exact ⟨rfl, hin, h.enabled hin, h.le, h.count⟩

theorem Sound.runSlice {d : Channel} (h : d.Sound) (hr : d.running ≠ 0)
    (partMode doneMode : Option U32) (e : Slice) :
    (d.runSlice partMode doneMode e).Sound ∧
      ∃ n, (d.runSlice partMode doneMode e).view = next^[n] d.view := by
  rw [Channel.runSlice]
  split_ifs
  · exact ⟨h, 0, rfl⟩
  · have hmoving := h.moves hr true
    obtain ⟨n, hn⟩ : ∃ n, d.iterCount.toNat = n + 1 := by
      refine Nat.exists_eq_succ_of_ne_zero fun h0 => h.moving hr ?_
      exact BitVec.eq_of_toNat_eq h0
    have hview : view { d with executing := true, running := 1 } = d.view := by
      simp only [view, if_neg hr]
      rfl
    obtain ⟨hm, m, he⟩ := hmoving.unitLoop e n 0 e.timestamp h.calm.2 hn
    rw [hview] at he
    obtain ⟨hs, k, hk⟩ := hm.settle.recheck partMode doneMode e.restarts
    have hcalm : (Channel.unitLoop e (n + 1) 0 e.timestamp
        { d with executing := true, running := 1 }).calm.settle.view = next^[m] d.view := by
      rw [← he, ← view_settle, ← view_settle (Channel.unitLoop _ _ _ _ _)]
      rfl
    rw [hcalm, ← Function.iterate_add_apply] at hk
    simp only [hn]
    exact ⟨hs, k + m, hk⟩

theorem Sound.apply {d : Channel} (h : d.Sound) (e : Event) :
    (d.apply e).Sound ∧ ∃ n, (d.apply e).view = next^[n] d.view := by
  cases e with
  | trigger => exact ⟨h.trigger, h.trigger_view⟩
  | run e =>
    change (d.run e).Sound ∧ ∃ n, (d.run e).view = next^[n] d.view
    rw [Channel.run]
    split_ifs with hr
    · exact ⟨h, 0, rfl⟩
    · exact h.runSlice hr _ _ e
    · exact h.runSlice hr _ _ e

/-! ## Whole runs -/

theorem sound_program (cpu : Fin 2) (num : Fin 4) (src dst val : U32) :
    ((reset cpu num).program src dst val).Sound := by
  have hquiet {d : Channel} (he : d.executing = false) (hs : d.stall = false)
      (hr : d.running = 0) (hp : d.inProgress = false) (hrem : d.remCount = 0)
      (hi : d.iterCount = 0) (hc : d.transferred + d.remCount.toNat = d.programmed) :
      d.Sound := by
    refine ⟨⟨he, hs⟩, ?_, hc, ?_, fun hp' => ?_, fun _ => hi, fun hne => absurd hr hne⟩
    · rw [hi, hrem]
      exact BitVec.le_refl _
    · rw [hp]
      exact iff_of_false Bool.false_ne_true fun hne => hne hrem
    · rw [hp] at hp'
      exact absurd hp' Bool.false_ne_true
  simp only [program, writeCnt]
  split_ifs with hen
  · exact (hquiet rfl rfl rfl rfl rfl rfl rfl).start (Bool.and_eq_true_iff.mp hen).2
  · exact hquiet rfl rfl rfl rfl rfl rfl rfl
  · exact (hquiet rfl rfl rfl rfl rfl rfl rfl).start (Bool.and_eq_true_iff.mp hen).2
  · exact hquiet rfl rfl rfl rfl rfl rfl rfl
  · exact hquiet rfl rfl rfl rfl rfl rfl rfl

theorem Sound.runAll {d : Channel} (h : d.Sound) (es : List Event) :
    (d.runAll es).Sound ∧ ∃ n, (d.runAll es).view = next^[n] d.view :=
  Slicing.exists_iterate_foldl (fun _ e hd => hd.apply e) es h

/-- Transfers completed, and whether one is under way. -/
def rank (d : Channel) : ℕ := 2 * d.completed + if d.inProgress then 1 else 0

def Rests (d : Channel) : Prop := d.inProgress = false ∧ d.running = 0 ∧ d.view = d

theorem rank_view (d : Channel) : d.view.rank = d.rank := rfl

theorem trigger_rests (d : Channel) :
    d.trigger = d ∨ (d.trigger.inProgress = true ∧ d.trigger.completed = d.completed) := by
  rw [trigger, start]
  split_ifs
  · exact Or.inl rfl
  · refine Or.inr ⟨rfl, ?_⟩
    rw [launch, loadCount]
    split_ifs <;> rfl
  · exact Or.inl rfl

theorem rank_le_next (d : Channel) : d.rank ≤ d.next.rank := by
  rw [next, rank_view]
  split_ifs with hr
  · rcases d.trigger_rests with ht | ⟨hp, hc⟩
    · rw [ht]
    · rw [rank, rank, hp, hc, if_pos rfl]
      split_ifs <;> omega
  · have hu : d.unit.rank = d.rank := rfl
    rw [← hu, settle]
    split_ifs
    · exact le_rfl
    · exact le_rfl
    · have hc : d.unit.complete.rank = 2 * (d.unit.completed + 1) := rfl
      rw [hc, rank]
      split_ifs <;> omega

theorem next_eq_of_rests (d : Channel) (h : d.Rests) (hrank : d.next.rank = d.rank) :
    d.next = d := by
  obtain ⟨hp, hr, hv⟩ := h
  rw [next, if_pos hr] at hrank ⊢
  rcases d.trigger_rests with ht | ⟨hp', hc⟩
  · rw [ht, hv]
  · rw [rank_view, rank, rank, hp, hp', hc] at hrank
    simp at hrank

theorem Sound.view {d : Channel} (h : d.Sound) : d.view.Sound :=
  ⟨⟨rfl, rfl⟩, h.le, h.count, h.part, h.enabled, fun hr => h.stopped (view_running.mp hr),
    fun hr => h.moving (mt view_running.mpr hr)⟩

/-- What is still to be done: units, and a start if the channel waits for one. -/
def toDo (d : Channel) : ℕ := 2 * d.remCount.toNat + if d.running = 0 then 1 else 0

theorem Sound.next_toDo {d : Channel} (h : d.Sound) (hp : d.inProgress = true) :
    d.next.Sound ∧
      ((d.next.inProgress = true ∧ d.next.completed = d.completed ∧ d.next.toDo < d.toDo) ∨
        (d.next.inProgress = false ∧ d.next.completed = d.completed + 1)) := by
  by_cases hr : d.running = 0
  · have hn : d.next = d.launch.view := by
      rw [next, if_pos hr, Channel.trigger, if_pos (h.enabled hp), Channel.start,
        if_neg (not_not.mpr hr), loadCount, if_pos hp]
    have hs : d.next.Sound := by
      rw [next, if_pos hr]
      exact h.trigger.view
    refine ⟨hs, Or.inl ?_⟩
    rw [hn]
    refine ⟨rfl, rfl, ?_⟩
    have htoDo : d.launch.view.toDo = 2 * d.remCount.toNat := rfl
    rw [htoDo, toDo, if_pos hr]
    omega
  · have hm := (h.moves hr false).unit (h.moving hr) false
    have hv : d.unit.view = (unit { d with executing := false, running := 1 }).calm.view := by
      have hr' : d.unit.running ≠ 0 := hr
      rw [Channel.view, if_neg hr']
      rfl
    have hn : d.next = (unit { d with executing := false, running := 1 }).calm.settle.view := by
      rw [next, if_neg hr, ← view_settle, hv, view_settle]
    have hs : d.next.Sound := by
      rw [hn]
      exact hm.settle.view
    have hrem := h.part.mp hp
    refine ⟨hs, ?_⟩
    rw [hn, settle]
    have hunit : (unit { d with executing := false, running := 1 }).calm.remCount.toNat =
        d.remCount.toNat - 1 := by
      change (d.remCount - 1).toNat = _
      bv_omega
    have hpos : 0 < d.remCount.toNat := by bv_omega
    split_ifs with h0 hi
    · refine Or.inl ⟨hp, rfl, ?_⟩
      change 2 * (unit { d with executing := false, running := 1 }).calm.remCount.toNat + 1 <
        2 * d.remCount.toNat + _
      omega
    · refine Or.inl ⟨hp, rfl, ?_⟩
      change 2 * (unit { d with executing := false, running := 1 }).calm.remCount.toNat + 0 <
        2 * d.remCount.toNat + _
      omega
    · exact Or.inr ⟨rfl, rfl⟩

/-- A transfer under way is completed by the uninterrupted run. -/
theorem Sound.exists_completed {d : Channel} (h : d.Sound) (hp : d.inProgress = true) :
    ∃ n, (next^[n] d).inProgress = false ∧ (next^[n] d).completed = d.completed + 1 := by
  obtain ⟨m, hm⟩ : ∃ m, d.toDo = m := ⟨_, rfl⟩
  induction m using Nat.strong_induction_on generalizing d with
  | _ m ih =>
    obtain ⟨hs, ⟨hp', hc, hlt⟩ | ⟨hp', hc⟩⟩ := h.next_toDo hp
    · obtain ⟨n, hn, hnc⟩ := ih _ (hm ▸ hlt) hs hp' rfl
      exact ⟨n + 1, hn, hnc.trans (by rw [hc])⟩
    · exact ⟨1, hp', hc⟩

end MelonDS.DMA.Channel

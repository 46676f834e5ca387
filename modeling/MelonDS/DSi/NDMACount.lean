import Mathlib.Algebra.BigOperators.Group.List.Basic
import Mathlib.Tactic.SplitIfs
import MelonDS.DSi.NDMA

/-!
# The total count

In total-count mode a channel is triggered until it has moved as many units as its length says.
However triggers and the time of the CPU cut the transfer, the units moved and those that remain
add up to the length, and each burst is as long as the block and the transfer allow. The bursts
for the geometry engine are cut to 112 units as well.
-/

namespace MelonDS.DSi.NDMA

/-- The units that a burst is to move. -/
def Burst.size (mode : U32) (b : Burst) : ℕ :=
  if mode = 0x0A then min 112 (min b.left.toNat b.remaining.toNat)
  else min b.left.toNat b.remaining.toNat

/-- The burst in progress lacks `rest` units, and those before it are done. -/
def Settled (mode : U32) (rest : ℕ) : List Burst → Prop
  | [] => rest = 0
  | b :: bs => b.moved + rest = b.size mode ∧ ∀ p ∈ bs, p.moved = p.size mode

theorem Settled.done {mode : U32} {bs : List Burst} (h : Settled mode 0 bs) :
    ∀ b ∈ bs, b.moved = b.size mode := by
  cases bs with
  | nil => exact fun _ hb => absurd hb List.not_mem_nil
  | cons b bs =>
    intro p hp
    rcases List.mem_cons.mp hp with rfl | hp
    · exact h.1
    · exact h.2 p hp

theorem Settled.cons {mode : U32} {bs : List Burst} (h : Settled mode 0 bs) (left remaining : U32) :
    Settled mode (Burst.size mode ⟨left, remaining, 0⟩) (⟨left, remaining, 0⟩ :: bs) :=
  ⟨Nat.zero_add _, h.done⟩

theorem Settled.countMoved {mode : U32} {rest : ℕ} {bs : List Burst}
    (h : Settled mode (rest + 1) bs) : Settled mode rest (Channel.countMoved bs) := by
  cases bs with
  | nil => exact absurd h (Nat.succ_ne_zero rest)
  | cons b bs =>
    refine ⟨?_, h.2⟩
    have hsize := h.1
    change b.moved + 1 + rest = b.size mode
    omega

theorem sum_countMoved {mode : U32} {rest : ℕ} {bs : List Burst} (h : Settled mode (rest + 1) bs) :
    ((Channel.countMoved bs).map Burst.moved).sum = (bs.map Burst.moved).sum + 1 := by
  cases bs with
  | nil => exact absurd h (Nat.succ_ne_zero rest)
  | cons b bs =>
    simp only [Channel.countMoved, List.map_cons, List.sum_cons]
    omega

theorem forall_left_countMoved {n : U32} {bs : List Burst} (h : ∀ b ∈ bs, b.left = n) :
    ∀ b ∈ Channel.countMoved bs, b.left = n := by
  cases bs with
  | nil => exact h
  | cons b bs =>
    intro p hp
    rcases List.mem_cons.mp hp with rfl | hp
    · exact h b List.mem_cons_self
    · exact h p (List.mem_cons_of_mem b hp)

namespace Channel

variable {s d : Channel}

/-- What holds inside the unit loop of a transfer that began in the state `s`. -/
structure Moving (s d : Channel) : Prop where
  startMode : d.startMode = s.startMode
  blockLength : d.blockLength = s.blockLength
  notImmediate : s.immediate = false
  notRepeats : d.repeats = false
  asks : d.cnt.getLsbD 30 = s.cnt.getLsbD 30
  counted : d.units.length + d.totalRemCount.toNat = s.totalLength.toNat
  le : d.iterCount.toNat ≤ d.remCount.toNat
  leTotal : d.iterCount.toNat ≤ d.totalRemCount.toNat
  settled : Settled s.startMode d.iterCount.toNat d.bursts
  sum : (d.bursts.map Burst.moved).sum = d.units.length
  enabled : d.cnt.getLsbD 31 = true
  noIRQ : d.irqs = 0
  whole : s.inProgress = false → s.startMode ≠ 0x0A → d.remCount = d.iterCount
  lefts : s.inProgress = false → s.startMode ≠ 0x0A → ∀ b ∈ d.bursts, b.left = s.blockUnits

/-- What holds between the calls. -/
structure Sound (s d : Channel) : Prop where
  startMode : d.startMode = s.startMode
  blockLength : d.blockLength = s.blockLength
  notImmediate : s.immediate = false
  notRepeats : d.repeats = false
  asks : d.cnt.getLsbD 30 = s.cnt.getLsbD 30
  counted : d.units.length + d.totalRemCount.toNat = s.totalLength.toNat
  le : d.iterCount.toNat ≤ d.remCount.toNat
  leTotal : d.iterCount.toNat ≤ d.totalRemCount.toNat
  settled : Settled s.startMode d.iterCount.toNat d.bursts
  sum : (d.bursts.map Burst.moved).sum = d.units.length
  calm : d.executing = false ∧ d.stall = false
  stopped : d.running = 0 → d.iterCount = 0
  state : d.cnt.getLsbD 31 = true ∧ d.irqs = 0 ∨
    d.cnt.getLsbD 31 = false ∧ d.running = 0 ∧ d.totalRemCount = 0 ∧
      d.irqs = if s.cnt.getLsbD 30 then 1 else 0
  whole : s.inProgress = false → s.startMode ≠ 0x0A →
    (d.running = 0 → d.inProgress = false) ∧ (d.running ≠ 0 → d.remCount = d.iterCount)
  lefts : s.inProgress = false → s.startMode ≠ 0x0A → ∀ b ∈ d.bursts, b.left = s.blockUnits

/-! ## Starting a burst -/

theorem toNat_burstCount (d : Channel) :
    d.burstCount.toNat = if d.startMode = 0x0A then min 112 d.remCount.toNat
      else d.remCount.toNat := by
  rw [burstCount]
  by_cases hmode : d.startMode = 0x0A
  · rw [if_pos hmode]
    by_cases hlong : (112 : U32).ult d.remCount = true
    · have hlt : 112 < d.remCount.toNat := by simpa [BitVec.ult] using hlong
      simp only [hmode, hlong, decide_true, Bool.true_and, if_true]
      change 112 = min 112 _
      omega
    · have hge : ¬112 < d.remCount.toNat := by simpa [BitVec.ult] using hlong
      simp only [hmode, hlong, decide_true, Bool.true_and, Bool.false_eq_true, if_false]
      omega
  · have hno : ¬(decide (d.startMode = 0x0A) && (112 : U32).ult d.remCount) = true := by
      rw [Bool.and_eq_true, decide_eq_true_eq]
      exact fun h => hmode h.1
    rw [if_neg hno, if_neg hmode]

/-- A burst of a transfer in total-count mode. -/
theorem toNat_launch (others : Bool) (hnow : d.immediate = false) (hrep : d.repeats = false) :
    (d.launch others).iterCount.toNat =
        Burst.size d.startMode ⟨d.remCount, d.totalRemCount, 0⟩ ∧
      (d.launch others).iterCount.toNat ≤ (d.launch others).remCount.toNat ∧
      (d.launch others).iterCount.toNat ≤ d.totalRemCount.toNat ∧
      (d.startMode ≠ 0x0A → (d.launch others).remCount = (d.launch others).iterCount) := by
  have hcount := toNat_burstCount d
  have hcut : d.cutsShort = d.totalRemCount.ult d.burstCount := by simp [cutsShort, hnow, hrep]
  have hfields : (d.launch others).iterCount =
      (if d.cutsShort then d.totalRemCount else d.burstCount) ∧
      (d.launch others).remCount = if d.cutsShort then d.totalRemCount else d.remCount :=
    ⟨rfl, rfl⟩
  rw [hfields.1, hfields.2, Burst.size]
  dsimp only
  by_cases hmode : d.startMode = 0x0A
  · rw [if_pos hmode] at hcount ⊢
    by_cases hshort : d.cutsShort = true
    · have hlt : d.totalRemCount.toNat < d.burstCount.toNat := by
        simpa [hcut, BitVec.ult] using hshort
      rw [if_pos hshort, if_pos hshort]
      exact ⟨by omega, le_refl _, le_refl _, fun hne => absurd hmode hne⟩
    · have hge : ¬d.totalRemCount.toNat < d.burstCount.toNat := by
        simpa [hcut, BitVec.ult] using hshort
      rw [if_neg hshort, if_neg hshort]
      exact ⟨by omega, by omega, by omega, fun hne => absurd hmode hne⟩
  · rw [if_neg hmode] at hcount ⊢
    by_cases hshort : d.cutsShort = true
    · have hlt : d.totalRemCount.toNat < d.burstCount.toNat := by
        simpa [hcut, BitVec.ult] using hshort
      rw [if_pos hshort, if_pos hshort]
      exact ⟨by omega, le_refl _, le_refl _, fun _ => rfl⟩
    · have hge : ¬d.totalRemCount.toNat < d.burstCount.toNat := by
        simpa [hcut, BitVec.ult] using hshort
      rw [if_neg hshort, if_neg hshort]
      exact ⟨by omega, by omega, by omega, fun _ => BitVec.eq_of_toNat_eq hcount.symm⟩

theorem Sound.start (h : Sound s d) (others : Bool) (hon : d.cnt.getLsbD 31 = true) :
    Sound s (d.start others) := by
  rw [Channel.start]
  by_cases hrun : d.running ≠ 0
  · rw [if_pos hrun]
    exact h
  rw [if_neg hrun]
  have hstop := not_not.mp hrun
  have hidle : d.iterCount = 0 := h.stopped hstop
  have hload : d.loadBlock = { d with remCount := d.loadBlock.remCount } := by
    rw [loadBlock]
    split_ifs <;> rfl
  have hnow : d.immediate = false := by
    have hsame : d.immediate = s.immediate := by rw [immediate, immediate, h.startMode]
    exact hsame.trans h.notImmediate
  have hnow' : d.loadBlock.immediate = false := by rw [hload]; exact hnow
  have hrep' : d.loadBlock.repeats = false := by rw [hload]; exact h.notRepeats
  obtain ⟨hsize, hle, htotal, hwhole⟩ := toNat_launch others hnow' hrep'
  have hmode' : d.loadBlock.startMode = s.startMode := by rw [hload]; exact h.startMode
  have htotal' : d.loadBlock.totalRemCount = d.totalRemCount := by rw [hload]
  have hbursts' : d.loadBlock.bursts = d.bursts := by rw [hload]
  have hleft : s.inProgress = false → s.startMode ≠ 0x0A → d.loadBlock.remCount = s.blockUnits := by
    intro hfirst hother
    rw [loadBlock, (h.whole hfirst hother).1 hstop]
    change d.blockUnits = s.blockUnits
    rw [blockUnits, blockUnits, h.blockLength]
  have hne : (if others then (1 : U32) else 2) ≠ 0 := by
    cases others <;> decide
  have hsettled : Settled s.startMode 0 d.bursts := by
    have hold := h.settled
    rw [hidle] at hold
    exact hold
  refine ⟨hmode', by rw [hload]; exact h.blockLength, h.notImmediate, hrep',
    by rw [hload]; exact h.asks, by rw [hload]; exact h.counted, hle, ?_, ?_, ?_,
    by rw [hload]; exact h.calm, fun hzero => absurd hzero hne, ?_, fun hfirst hother => ?_, ?_⟩
  · exact htotal
  · rw [hsize, hmode']
    have hcons := hsettled.cons d.loadBlock.remCount d.loadBlock.totalRemCount
    rw [← hbursts'] at hcons
    exact hcons
  · change 0 + (d.loadBlock.bursts.map Burst.moved).sum = d.loadBlock.units.length
    rw [hbursts', hload, Nat.zero_add]
    exact h.sum
  · rcases h.state with ⟨-, hirqs⟩ | ⟨hoff, -⟩
    · left
      rw [hload]
      exact ⟨hon, hirqs⟩
    · rw [hon] at hoff
      exact absurd hoff (by decide)
  · refine ⟨fun hzero => absurd hzero hne, fun _ => hwhole ?_⟩
    rw [hmode']
    exact hother
  · intro hfirst hother b hb
    change b ∈ ⟨d.loadBlock.remCount, _, 0⟩ :: d.loadBlock.bursts at hb
    rcases List.mem_cons.mp hb with rfl | hb
    · exact hleft hfirst hother
    · rw [hbursts'] at hb
      exact h.lefts hfirst hother b hb

theorem Sound.trigger (h : Sound s d) (others : Bool) : Sound s (d.trigger others) := by
  rw [Channel.trigger]
  split_ifs with hon
  · exact h.start others hon
  · exact h

/-! ## Moving units -/

theorem toNat_sub_one {x : U32} (h : 0 < x.toNat) : (x - 1).toNat + 1 = x.toNat := by
  bv_omega

/-- A unit, whether or not it stalls the channel. -/
theorem Moving.unit (h : Moving s d) (hmore : d.iterCount ≠ 0) (stalls : Bool) :
    Moving s (d.unit.stallIf stalls) := by
  have hle := h.le
  have htotal := h.leTotal
  have hcounted := h.counted
  have hpos : 0 < d.iterCount.toNat := by
    apply Nat.pos_of_ne_zero
    exact fun hzero => hmore (BitVec.eq_of_toNat_eq hzero)
  have hiter := toNat_sub_one hpos
  have hrem := toNat_sub_one (hpos.trans_le hle)
  have htot := toNat_sub_one (hpos.trans_le htotal)
  have hsettled : Settled s.startMode ((d.iterCount - 1).toNat + 1) d.bursts := by
    rw [hiter]
    exact h.settled
  refine ⟨h.startMode, h.blockLength, h.notImmediate, h.notRepeats, h.asks, ?_, ?_, ?_,
    hsettled.countMoved, ?_, h.enabled, h.noIRQ, fun hfirst hother => ?_, fun hfirst hother => ?_⟩
  · change (d.units ++ [_]).length + (d.totalRemCount - 1).toNat = _
    rw [List.length_append, List.length_singleton]
    omega
  · change (d.iterCount - 1).toNat ≤ (d.remCount - 1).toNat
    omega
  · change (d.iterCount - 1).toNat ≤ (d.totalRemCount - 1).toNat
    omega
  · change ((countMoved d.bursts).map Burst.moved).sum = (d.units ++ [_]).length
    rw [sum_countMoved hsettled, h.sum, List.length_append, List.length_singleton]
  · change d.remCount - 1 = d.iterCount - 1
    rw [h.whole hfirst hother]
  · exact forall_left_countMoved (h.lefts hfirst hother)

theorem Moving.unitLoop (h : Moving s d) (e : Slice) (n k : ℕ) (timestamp : U64) :
    Moving s (unitLoop e n k timestamp d) := by
  induction n generalizing k timestamp d with
  | zero => exact h
  | succ n ih =>
    rw [Channel.unitLoop]
    by_cases hgo : d.iterCount ≠ 0 ∧ d.stall = false
    · rw [if_pos hgo]
      have hunit := h.unit hgo.1 (e.stalls k)
      dsimp only
      split_ifs
      · exact hunit
      · exact ih hunit (k + 1) _
    · rw [if_neg hgo]
      exact h

theorem running_unitLoop (e : Slice) (n k : ℕ) (timestamp : U64) (d : Channel) :
    (unitLoop e n k timestamp d).running = d.running := by
  induction n generalizing k timestamp d with
  | zero => rfl
  | succ n ih =>
    rw [unitLoop]
    dsimp only
    split_ifs
    · rfl
    · exact ih _ _ _
    · rfl

/-- Units are never taken back. -/
theorem length_le_unitLoop (e : Slice) (n k : ℕ) (timestamp : U64) (d : Channel) :
    d.units.length ≤ (unitLoop e n k timestamp d).units.length := by
  induction n generalizing k timestamp d with
  | zero => exact le_refl _
  | succ n ih =>
    have hunit : d.units.length ≤ (d.unit.stallIf (e.stalls k)).units.length := by
      change _ ≤ (d.units ++ [_]).length
      rw [List.length_append]
      exact Nat.le_add_right _ _
    rw [unitLoop]
    dsimp only
    split_ifs
    · exact hunit
    · exact hunit.trans (ih _ _ _)
    · exact le_refl _

/-- A pass through the loop moves a unit if there is one. -/
theorem length_lt_unitLoop (e : Slice) (k : ℕ) (timestamp : U64) (hmore : d.iterCount ≠ 0)
    (hcalm : d.stall = false) :
    d.units.length < (unitLoop e d.iterCount.toNat k timestamp d).units.length := by
  obtain ⟨n, hn⟩ : ∃ n, d.iterCount.toNat = n + 1 :=
    Nat.exists_eq_succ_of_ne_zero fun hzero => hmore (BitVec.eq_of_toNat_eq hzero)
  have hunit : d.units.length < (d.unit.stallIf (e.stalls k)).units.length := by
    change _ < (d.units ++ [_]).length
    rw [List.length_append]
    exact Nat.lt_succ_self _
  rw [hn, unitLoop, if_pos ⟨hmore, hcalm⟩]
  dsimp only
  split_ifs
  · exact hunit
  · exact hunit.trans_le (length_le_unitLoop e _ _ _ _)

/-! ## The end of a slice -/

theorem getLsbD_disable (d : Channel) :
    d.disable.cnt.getLsbD 29 = d.cnt.getLsbD 29 ∧ d.disable.cnt.getLsbD 30 = d.cnt.getLsbD 30 ∧
      d.disable.cnt.getLsbD 31 = false := by
  simp [disable]

theorem Moving.complete (h : Moving s d) (hrem : d.remCount = 0)
    (hcalm : d.executing = false ∧ d.stall = false) : Sound s d.complete := by
  have hle := h.le
  have hiter : d.iterCount = 0 := by
    rw [hrem] at hle
    exact BitVec.eq_of_toNat_eq (Nat.le_zero.mp hle)
  have hnow : d.immediate = false := by
    have hsame : d.immediate = s.immediate := by rw [immediate, immediate, h.startMode]
    exact hsame.trans h.notImmediate
  obtain ⟨h29, h30, h31⟩ := d.getLsbD_disable
  rw [Channel.complete, hnow, h.notRepeats]
  simp only [Bool.false_eq_true, if_false]
  by_cases htotal : d.totalRemCount = 0
  · rw [if_pos htotal]
    refine ⟨h.startMode, h.blockLength, h.notImmediate, h29.trans h.notRepeats, h30.trans h.asks,
      h.counted, h.le, h.leTotal, h.settled, h.sum, hcalm, fun _ => hiter,
      .inr ⟨h31, rfl, htotal, ?_⟩, fun _ _ => ⟨fun _ => rfl, fun hne => absurd rfl hne⟩, h.lefts⟩
    change (if d.disable.cnt.getLsbD 30 = true then d.irqs + 1 else d.irqs) = _
    rw [h30, h.asks, h.noIRQ]
  · rw [if_neg htotal]
    exact ⟨h.startMode, h.blockLength, h.notImmediate, h.notRepeats, h.asks, h.counted, h.le,
      h.leTotal, h.settled, h.sum, hcalm, fun _ => hiter, .inl ⟨h.enabled, h.noIRQ⟩,
      fun _ _ => ⟨fun _ => rfl, fun hne => absurd rfl hne⟩, h.lefts⟩

theorem Moving.settle (h : Moving s d) (hrun : d.running ≠ 0)
    (hcalm : d.executing = false ∧ d.stall = false) : Sound s d.settle := by
  rw [Channel.settle]
  by_cases hrem : d.remCount ≠ 0
  · rw [if_pos hrem]
    by_cases hiter : d.iterCount = 0
    · rw [if_pos hiter]
      refine ⟨h.startMode, h.blockLength, h.notImmediate, h.notRepeats, h.asks, h.counted, h.le,
        h.leTotal, h.settled, h.sum, hcalm, fun _ => hiter, .inl ⟨h.enabled, h.noIRQ⟩,
        fun hfirst hother => ?_, h.lefts⟩
      exact absurd ((h.whole hfirst hother).trans hiter) hrem
    · rw [if_neg hiter]
      exact ⟨h.startMode, h.blockLength, h.notImmediate, h.notRepeats, h.asks, h.counted, h.le,
        h.leTotal, h.settled, h.sum, hcalm, fun hzero => absurd hzero hrun,
        .inl ⟨h.enabled, h.noIRQ⟩,
        fun hfirst hother => ⟨fun hzero => absurd hzero hrun, fun _ => h.whole hfirst hother⟩,
        h.lefts⟩
  · rw [if_neg hrem]
    exact h.complete (not_not.mp hrem) hcalm

theorem Sound.recheck (h : Sound s d) (burstModes blockModes : List U32) (e : Slice) :
    Sound s (d.recheck burstModes blockModes e) := by
  rw [Channel.recheck]
  generalize (if d.inProgress then burstModes else blockModes) = checked
  split_ifs
  · exact h.trigger e.others
  · exact h

theorem Sound.moving (h : Sound s d) (hrun : d.running ≠ 0) :
    Moving s { d with executing := true, running := 1 } := by
  obtain ⟨hon, hirqs⟩ | ⟨-, hstop, -⟩ := h.state
  · exact ⟨h.startMode, h.blockLength, h.notImmediate, h.notRepeats, h.asks, h.counted, h.le,
      h.leTotal, h.settled, h.sum, hon, hirqs,
      fun hfirst hother => (h.whole hfirst hother).2 hrun, h.lefts⟩
  · exact absurd hstop hrun

theorem Moving.calmed (h : Moving s d) : Moving s { d with executing := false, stall := false } :=
  ⟨h.startMode, h.blockLength, h.notImmediate, h.notRepeats, h.asks, h.counted, h.le, h.leTotal,
    h.settled, h.sum, h.enabled, h.noIRQ, h.whole, h.lefts⟩

theorem Sound.runSlice (h : Sound s d) (hrun : d.running ≠ 0) (burstModes blockModes : List U32)
    (e : Slice) : Sound s (d.runSlice burstModes blockModes e) := by
  rw [Channel.runSlice]
  split_ifs
  · exact h
  · have hloop := (h.moving hrun).unitLoop e d.iterCount.toNat 0 e.timestamp
    have hone : (Channel.unitLoop e d.iterCount.toNat 0 e.timestamp
        { d with executing := true, running := 1 }).running ≠ 0 := by
      rw [running_unitLoop]
      exact (by decide : (1 : U32) ≠ 0)
    exact (hloop.calmed.settle hone ⟨rfl, rfl⟩).recheck burstModes blockModes e

theorem Sound.run (h : Sound s d) (e : Slice) : Sound s (d.run e) := by
  rw [Channel.run]
  split_ifs with hrun
  · exact h
  · exact h.runSlice hrun _ _ e
  · exact h.runSlice hrun _ _ e

theorem Sound.apply (h : Sound s d) (e : Event) : Sound s (d.apply e) := by
  cases e with
  | trigger others => exact h.trigger others
  | run e => exact h.run e

theorem Sound.runAll (h : Sound s d) (es : List Event) : Sound s (d.runAll es) := by
  induction es generalizing d with
  | nil => exact h
  | cons e es ih => exact ih (h.apply e)

/-! ## A transfer -/

/-- The channel is stopped; a block may wait for its next burst. -/
structure Resting (d : Channel) : Prop where
  stopped : d.running = 0
  iterCount : d.iterCount = 0
  calm : d.executing = false ∧ d.stall = false

theorem resting_reset (cpu : Fin 2) (num : Fin 4) : (reset cpu num).Resting := ⟨rfl, rfl, rfl, rfl⟩

/-- A channel that has done its transfer rests. -/
theorem Sound.resting (h : Sound s d) (hstop : d.running = 0) : d.Resting :=
  ⟨hstop, h.stopped hstop, h.calm⟩

/-- The control word enables a channel in total-count mode. -/
structure TotalCount (val : U32) : Prop where
  enables : val.getLsbD 31 = true
  once : val.getLsbD 29 = false
  triggered : (val >>> 24 &&& (0x1F : U32)).toNat < 0x10

/-- The state that `WriteCnt` leaves in total-count mode. -/
def enabled (val : U32) (d : Channel) : Channel :=
  { d with
    cnt := val
    curSrcAddr := d.srcAddr
    curDstAddr := d.dstAddr
    totalRemCount := d.totalLength
    dstAddrInc := dstInc (val >>> 10 &&& 3)
    srcAddrInc := srcInc (val >>> 13 &&& 3)
    startMode := modeOf d.cpu val
    units := []
    bursts := []
    irqs := 0 }

theorem modes_triggered : ∀ mode < 0x10, BitVec.ofNat 32 mode &&& (0x1F : U32) ≠ 0x10 ∧
    (BitVec.ofNat 32 mode ||| (0x20 : U32)) &&& (0x1F : U32) ≠ 0x10 := by
  decide

theorem modeOf_triggered {val : U32} (h : (val >>> 24 &&& (0x1F : U32)).toNat < 0x10)
    (cpu : Fin 2) : modeOf cpu val &&& (0x1F : U32) ≠ 0x10 := by
  have hshort : ¬(0x10 : U32).ult (val >>> 24 &&& 0x1F) = true := by
    have hge : ¬0x10 < (val >>> 24 &&& (0x1F : U32)).toNat := by omega
    simpa [BitVec.ult] using hge
  have hmodes := modes_triggered _ h
  rw [BitVec.ofNat_toNat, BitVec.setWidth_eq] at hmodes
  rw [modeOf, if_neg hshort]
  split_ifs
  · exact hmodes.2
  · exact hmodes.1

theorem immediate_enabled {val : U32} (hval : TotalCount val) (d : Channel) :
    (d.enabled val).immediate = false :=
  decide_eq_false (modeOf_triggered hval.triggered d.cpu)

theorem writeCnt_eq_enabled {val : U32} (hval : TotalCount val) (hoff : d.cnt.getLsbD 31 = false)
    (others : Bool) : d.writeCnt val others = d.enabled val := by
  have hrises : (!d.cnt.getLsbD 31 && val.getLsbD 31) = true := by rw [hoff, hval.enables]; rfl
  rw [writeCnt]
  dsimp only
  rw [if_pos hrises, if_neg]
  · rfl
  · exact Bool.not_eq_true _ ▸ immediate_enabled hval d

theorem Resting.enabled (h : d.Resting) {val : U32} (hval : TotalCount val) :
    Sound (d.enabled val) (d.enabled val) := by
  have hiter : (d.enabled val).iterCount.toNat = 0 := congrArg BitVec.toNat h.iterCount
  refine ⟨rfl, rfl, immediate_enabled hval d, hval.once, rfl, Nat.zero_add _, ?_, ?_, ?_, rfl,
    h.calm, fun _ => h.iterCount, .inl ⟨hval.enables, rfl⟩, fun hfirst _ => ⟨fun _ => hfirst, ?_⟩,
    fun _ _ _ hb => absurd hb List.not_mem_nil⟩
  · rw [hiter]
    exact Nat.zero_le _
  · rw [hiter]
    exact Nat.zero_le _
  · exact hiter
  · exact fun hne => absurd h.stopped hne

/-! ## Progress -/

/-- An enabled channel that is triggered runs. -/
theorem running_trigger (hon : d.cnt.getLsbD 31 = true) (others : Bool) :
    (d.trigger others).running ≠ 0 := by
  rw [trigger, if_pos hon, start]
  split_ifs with hrun
  · exact hrun
  · change (if others then (1 : U32) else 2) ≠ 0
    cases others <;> decide

theorem units_trigger (d : Channel) (others : Bool) : (d.trigger others).units = d.units := by
  rw [trigger, start, loadBlock]
  split_ifs <;> rfl

theorem units_recheck (burstModes blockModes : List U32) (e : Slice) (d : Channel) :
    (d.recheck burstModes blockModes e).units = d.units := by
  rw [recheck]
  generalize (if d.inProgress then burstModes else blockModes) = checked
  split_ifs
  · exact units_trigger d e.others
  · rfl

theorem units_settle (d : Channel) : d.settle.units = d.units := by
  rw [settle, complete, raiseIRQ, disable]
  dsimp only
  split_ifs <;> rfl

/-- A slice with time left moves a unit if the burst has one. -/
theorem Sound.length_lt_run (h : Sound s d) (hmore : d.iterCount ≠ 0) {e : Slice}
    (htime : ¬e.target ≤ e.timestamp) : d.units.length < (d.run e).units.length := by
  have hrun : d.running ≠ 0 := fun hstop => hmore (h.stopped hstop)
  have hslice (burstModes blockModes : List U32) :
      d.units.length < (d.runSlice burstModes blockModes e).units.length := by
    rw [Channel.runSlice, if_neg htime]
    rw [units_recheck, units_settle]
    exact length_lt_unitLoop (d := { d with executing := true, running := 1 }) e 0 e.timestamp
      hmore h.calm.2
  rw [Channel.run, if_neg hrun]
  split_ifs
  · exact hslice _ _
  · exact hslice _ _

theorem recheck_of_disabled (hoff : d.cnt.getLsbD 31 = false) (burstModes blockModes : List U32)
    (e : Slice) : d.recheck burstModes blockModes e = d := by
  have htrigger : d.trigger e.others = d := by
    rw [Channel.trigger, hoff]
    rfl
  rw [Channel.recheck, htrigger]
  exact ite_self d

/-- With nothing left to move a trigger and a slice end the transfer. -/
theorem Sound.ends (h : Sound s d) (hon : d.cnt.getLsbD 31 = true) (hstop : d.running = 0)
    (hdone : d.totalRemCount = 0) (others : Bool) {e : Slice} (htime : ¬e.target ≤ e.timestamp) :
    ((d.trigger others).run e).cnt.getLsbD 31 = false := by
  have hrun := running_trigger hon others
  have htrigger : d.trigger others = d.loadBlock.launch others := by
    rw [Channel.trigger, if_pos hon, Channel.start, if_neg (not_not.mpr hstop)]
  have hload : d.loadBlock.totalRemCount = 0 := by
    rw [loadBlock]
    split_ifs <;> exact hdone
  have hempty : (d.trigger others).iterCount = 0 ∧ (d.trigger others).remCount = 0 ∧
      (d.trigger others).totalRemCount = 0 := by
    have hsound := h.trigger others
    have htotal : (d.trigger others).totalRemCount = 0 := by
      rw [htrigger]
      exact hload
    have hiter : (d.trigger others).iterCount = 0 := by
      have hle := hsound.leTotal
      rw [htotal] at hle
      exact BitVec.eq_of_toNat_eq (Nat.le_zero.mp hle)
    refine ⟨hiter, ?_, htotal⟩
    rw [htrigger] at hiter ⊢
    change (if d.loadBlock.cutsShort then d.loadBlock.totalRemCount else d.loadBlock.burstCount) = 0
      at hiter
    change (if d.loadBlock.cutsShort then d.loadBlock.totalRemCount else d.loadBlock.remCount) = 0
    split_ifs with hcut
    · exact hload
    · rw [if_neg hcut] at hiter
      have hcount := toNat_burstCount d.loadBlock
      rw [hiter] at hcount
      apply BitVec.eq_of_toNat_eq
      change d.loadBlock.remCount.toNat = 0
      change 0 = _ at hcount
      split_ifs at hcount <;> omega
  obtain ⟨hiter, hrem, htotal⟩ := hempty
  have hmode := (h.trigger others).startMode
  have hnow : (d.trigger others).immediate = false := by
    rw [immediate, hmode]
    exact h.notImmediate
  have hrep : (d.trigger others).repeats = false := (h.trigger others).notRepeats
  generalize d.trigger others = d' at hrun hiter hrem htotal hnow hrep
  have hslice (burstModes blockModes : List U32) :
      (d'.runSlice burstModes blockModes e).cnt.getLsbD 31 = false := by
    have hoff : ({ d' with running := 1, executing := false, stall := false } :
        Channel).settle.cnt.getLsbD 31 = false := by
      have hsame : ({ d' with running := 1, executing := false, stall := false } :
          Channel).settle.cnt = d'.disable.cnt := by
        have hnow' : ({ d' with running := 1, executing := false, stall := false } :
          Channel).immediate = false := hnow
        have hrep' : ({ d' with running := 1, executing := false, stall := false } :
          Channel).repeats = false := hrep
        rw [Channel.settle, if_neg (not_not.mpr hrem), Channel.complete, hnow', hrep', if_pos htotal]
        rfl
      rw [hsame]
      exact d'.getLsbD_disable.2.2
    have hloop : Channel.unitLoop e d'.iterCount.toNat 0 e.timestamp
        { d' with executing := true, running := 1 } =
          { d' with executing := true, running := 1 } := by
      rw [hiter]
      rfl
    rw [Channel.runSlice, if_neg htime, hloop]
    dsimp only
    rw [recheck_of_disabled hoff]
    exact hoff
  rw [Channel.run, if_neg hrun]
  split_ifs
  · exact hslice _ _
  · exact hslice _ _

end Channel

/-! ## The result -/

open Channel

/-- However triggers and slices cut a transfer in total-count mode: the units moved and those that
remain add up to its length, a trigger moves what is left of the block or of the transfer, for
the geometry engine at most 112 units, and the interrupt comes once, when all units are moved. -/
theorem ndma_total_count (d : Channel) (hrest : d.Resting) (hoff : d.cnt.getLsbD 31 = false)
    (val : U32) (hval : TotalCount val) (others : Bool) (es : List Event) (e : Channel)
    (he : e = (d.writeCnt val others).runAll es) :
    e.units.length + e.totalRemCount.toNat = d.totalLength.toNat ∧
      e.iterCount.toNat ≤ e.remCount.toNat ∧
      (e.running = 0 → ∀ b ∈ e.bursts, b.moved = b.size e.startMode) ∧
      (e.bursts.map Burst.moved).sum = e.units.length ∧
      (d.inProgress = false → e.startMode ≠ 0x0A → ∀ b ∈ e.bursts, b.left = d.blockUnits) ∧
      (e.cnt.getLsbD 31 = true → e.irqs = 0) ∧
      (e.cnt.getLsbD 31 = false → e.units.length = d.totalLength.toNat ∧ e.running = 0 ∧
        e.irqs = if val.getLsbD 30 then 1 else 0) ∧
      (∀ slice : Slice, ¬slice.target ≤ slice.timestamp →
        (e.iterCount ≠ 0 → e.units.length < (e.run slice).units.length) ∧
        (e.cnt.getLsbD 31 = true → e.running = 0 → ∀ others,
          (e.trigger others).running ≠ 0 ∧
            (e.totalRemCount = 0 → ((e.trigger others).run slice).cnt.getLsbD 31 = false))) := by
  have hsound : Sound (d.enabled val) e := by
    rw [he, writeCnt_eq_enabled hval hoff]
    exact (hrest.enabled hval).runAll es
  have hmode : e.startMode = (d.enabled val).startMode := hsound.startMode
  refine ⟨hsound.counted, hsound.le, fun hstop => ?_, hsound.sum, fun hfirst hother => ?_,
    fun hon => ?_, fun hend => ?_, fun slice htime => ⟨fun hmore => ?_, fun hon hstop others => ?_⟩⟩
  · have hsettled := hsound.settled
    rw [hsound.stopped hstop] at hsettled
    rw [hmode]
    exact Settled.done hsettled
  · rw [hmode] at hother
    exact hsound.lefts hfirst hother
  · rcases hsound.state with ⟨-, hirqs⟩ | ⟨hend, -⟩
    · exact hirqs
    · rw [hon] at hend
      exact absurd hend (by decide)
  · rcases hsound.state with ⟨hon, -⟩ | ⟨-, hstop, htotal, hirqs⟩
    · rw [hend] at hon
      exact absurd hon (by decide)
    · have hcounted := hsound.counted
      rw [htotal] at hcounted
      exact ⟨hcounted, hstop, hirqs⟩
  · exact hsound.length_lt_run hmore htime
  · exact ⟨running_trigger hon others, fun hdone => hsound.ends hon hstop hdone others htime⟩

/-- 200 units in one block, for the geometry engine or for a cart slot. -/
def blockOf200 : Channel := { reset 0 0 with totalLength := 200, blockLength := 200 }

/-- A slice that is long enough for any burst, with a cycle a unit. -/
def longSlice : Slice := ⟨0, 0x10000, fun _ => 1, fun _ => false, false, false⟩

theorem ndma_total_count_cart :
    ((blockOf200.writeCnt 0xC4000000 false).runAll [.trigger false, .run longSlice]).cnt.getLsbD 31
        = false ∧
      ((blockOf200.writeCnt 0xC4000000 false).runAll [.trigger false, .run longSlice]).irqs = 1 := by
  have hend : ((blockOf200.writeCnt 0xC4000000 false).runAll
      [.trigger false, .run longSlice]).cnt.getLsbD 31 = false := by
    decide +kernel
  have hresult := ndma_total_count blockOf200 ⟨rfl, rfl, rfl, rfl⟩ rfl 0xC4000000
    ⟨by decide, by decide, by decide⟩ false [.trigger false, .run longSlice] _ rfl
  exact ⟨hend, (hresult.2.2.2.2.2.2.1 hend).2.2⟩

/-- The first burst for the geometry engine stops after 112 units of its block. -/
theorem burst_of_geometry_engine :
    ¬∀ (d : Channel) (val : U32) (es : List Event), d.Resting → d.inProgress = false →
      d.cnt.getLsbD 31 = false → TotalCount val →
      ((d.writeCnt val false).runAll es).running = 0 →
      ∀ b ∈ ((d.writeCnt val false).runAll es).bursts,
        b.moved = min d.blockUnits.toNat b.remaining.toNat := by
  intro h
  have hbursts : ((blockOf200.writeCnt 0xCA000000 false).runAll
      [.trigger false, .run longSlice]).bursts = [⟨200, 200, 112⟩] := by
    decide +kernel
  have hmoved := h blockOf200 0xCA000000 [.trigger false, .run longSlice] ⟨rfl, rfl, rfl, rfl⟩ rfl
    rfl ⟨by decide, by decide, by decide⟩ (by decide +kernel) ⟨200, 200, 112⟩
    (by rw [hbursts]; exact List.mem_singleton_self _)
  exact absurd hmoved (by decide)

end MelonDS.DSi.NDMA

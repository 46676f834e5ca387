import MelonDS.NDS.Scheduler

/-!
# The run loop in sleep mode

While the console sleeps, `RunFrame` runs no CPU. It goes from deadline to deadline of the few
events that keep running, dispatches them, and puts off every other event it passes by as much
as it advanced. The loop makes progress because every deadline is ahead of the clock before and
after a call. Timestamps count cycles in 64 bits, and this holds while the sums stay below 2^64.
-/

namespace MelonDS.NDS

def eventSPU : Slot := ⟨1, by decide⟩

/-- The slots `NextTargetSleep` looks at. -/
def sleepSlots : List Slot := [eventSPU, eventRTC, eventCartSave, eventDSiCart2Save]

/-- The slots `RunSystemSleep` dispatches. -/
def runsInSleep (i : Slot) : Prop := i = eventRTC ∨ i = eventCartSave ∨ i = eventDSiCart2Save

instance : DecidablePred runsInSleep := fun i =>
  inferInstanceAs (Decidable (i = eventRTC ∨ i = eventCartSave ∨ i = eventDSiCart2Save))

/-- What the callbacks of these slots and the loop use: `TimerError` of the RTC, which is kept
below `0x8000`, and the rest of the machine. -/
structure SleepWorld (R : Type) where
  timerError : BitVec 15
  rest : R

/-- The parts of the machine behind the callbacks: counting a tick and raising its interrupt,
finishing a save, and the two flags the loop reads. -/
structure SleepDevices (R : Type) where
  countTick : R → R
  completeSave : Slot → R → R
  asleep : R → Bool
  running : R → Bool

variable {R : Type}

namespace SleepDevices

/-- `33513982 + TimerError` -/
def sysclock (e : BitVec 15) : U32 := 33513982 + e.setWidth 32

/-- `ClockTimer`, which ends with `ScheduleTimer(false)`. -/
def clockTimer (d : SleepDevices R) (s : Scheduler (SleepWorld R)) : Callback (SleepWorld R) :=
  let w : SleepWorld R :=
    { timerError := (sysclock s.world.timerError).setWidth 15
      rest := d.countTick s.world.rest }
  .scheduleEvent eventRTC true ((sysclock s.world.timerError).sshiftRight 15) 0 0 fun _ => .done w

/-- The callbacks registered for the slots dispatched in sleep mode; the others are not called. -/
def eventFuncs (d : SleepDevices R) : EventFuncs (SleepWorld R) := fun s i _ _ =>
  if i = eventRTC then d.clockTimer s
  else .done { s.world with rest := d.completeSave i s.world.rest }

end SleepDevices

namespace Scheduler

def nextTargetSleep (s : Scheduler (SleepWorld R)) : U64 :=
  s.earliestOf (sleepSlots.filter s.pending)

/-- `target = NextTargetSleep(); if (target > frametarget) target = frametarget` -/
def sleepTarget (s : Scheduler (SleepWorld R)) (frametarget : U64) : U64 :=
  if frametarget < s.nextTargetSleep then frametarget else s.nextTargetSleep

/-- The clocks are moved to the target before the events are. -/
def moveClocks (target : U64) (s : Scheduler (SleepWorld R)) : Scheduler (SleepWorld R) :=
  { s with
    clocks :=
      { s.clocks with
        arm9Timestamp := target <<< s.clocks.arm9ClockShift
        arm7Timestamp := target } }

/-- One round of the loop of `RunFrame` in sleep mode. -/
def sleepRound (d : SleepDevices R) (frametarget : U64) (s : Scheduler (SleepWorld R)) :
    Scheduler (SleepWorld R) :=
  runSystemSleep d.eventFuncs (s.moveClocks (s.sleepTarget frametarget)) (s.sleepTarget frametarget)

/-- The loop; `none` when it is still going after the given number of rounds. -/
def sleepLoop (d : SleepDevices R) (frametarget : U64) :
    ℕ → Scheduler (SleepWorld R) → Option (Scheduler (SleepWorld R))
  | rounds, s =>
    if d.running s.world.rest && decide (s.sysTimestamp < frametarget) then
      match rounds with
      | 0 => none
      | rounds + 1 =>
        if d.asleep (s.sleepRound d frametarget).world.rest then
          sleepLoop d frametarget rounds (s.sleepRound d frametarget)
        else some (s.sleepRound d frametarget)
    else some s

/-! ## The callbacks -/

/-- Every event that is scheduled lies ahead of the clock. -/
def Ahead (s : Scheduler (SleepWorld R)) : Prop :=
  ∀ i, s.pending i = true → s.sysTimestamp < s.timestamp i

/-- The delay of the RTC, 1022 or 1023 cycles. -/
theorem rtcDelay (e : BitVec 15) :
    (((SleepDevices.sysclock e).sshiftRight 15).signExtend 64).toNat =
      (33513982 + e.toNat) / 32768 := by
  have he := e.isLt
  have hsum : (SleepDevices.sysclock e).toNat = 33513982 + e.toNat := by
    rw [SleepDevices.sysclock, BitVec.toNat_add, BitVec.toNat_setWidth]
    change (33513982 + e.toNat % 2 ^ 32) % 2 ^ 32 = _
    omega
  have hclock : (SleepDevices.sysclock e).msb = false := by
    rw [BitVec.msb_eq_false_iff_two_mul_lt, hsum]
    omega
  have hshift : ((SleepDevices.sysclock e).sshiftRight 15).toNat =
      (33513982 + e.toNat) / 32768 := by
    rw [BitVec.sshiftRight_eq_of_msb_false hclock, BitVec.toNat_ushiftRight, hsum,
      Nat.shiftRight_eq_div_pow]
  have hmsb : ((SleepDevices.sysclock e).sshiftRight 15).msb = false := by
    rw [BitVec.msb_eq_false_iff_two_mul_lt, hshift]
    omega
  rw [BitVec.signExtend_eq_setWidth_of_msb_false hmsb, BitVec.toNat_setWidth, hshift]
  omega

/-- What running the callback of a slot changes of the schedule. -/
structure Ran (i : Slot) (s t : Scheduler (SleepWorld R)) : Prop where
  sysTimestamp : t.sysTimestamp = s.sysTimestamp
  dispatched : t.dispatched =
    s.dispatched ++ [⟨i, (s.schedList i).funcID, (s.schedList i).param, s.sysTimestamp⟩]
  others : ∀ j ≠ i, t.pending j = s.pending j ∧ t.schedList j = s.schedList j
  again : t.pending i = true → ∃ e : BitVec 15,
    t.timestamp i = s.timestamp i + ((SleepDevices.sysclock e).sshiftRight 15).signExtend 64

theorem ran_dispatch (d : SleepDevices R) (s : Scheduler (SleepWorld R)) (i : Slot) :
    Ran i s (s.dispatch d.eventFuncs i) := by
  have hclear (j : Slot) (hj : j ≠ i) : (s.clearSlot i).pending j = s.pending j := by
    rw [pending_clearSlot, decide_eq_true hj, Bool.and_true]
  have hself : (s.clearSlot i).pending i = false := by
    rw [pending_clearSlot, decide_eq_false (not_not_intro rfl), Bool.and_false]
  by_cases hi : i = eventRTC
  · subst hi
    -- the RTC schedules itself again, at its old deadline and the delay
    let delay := (SleepDevices.sysclock s.world.timerError).sshiftRight 15
    let t : Scheduler (SleepWorld R) :=
      { s.clearSlot eventRTC with
        dispatched := s.dispatched ++ [⟨eventRTC, (s.schedList eventRTC).funcID,
          (s.schedList eventRTC).param, s.sysTimestamp⟩] }
    let evt : SchedEvent := ⟨s.timestamp eventRTC + delay.signExtend 64, 0, 0⟩
    obtain ⟨clocks, hclocks⟩ := reschedule_eq (t.fillSlot eventRTC evt) evt.timestamp
    have hsched : t.scheduleEvent eventRTC true delay 0 0 =
        { t.fillSlot eventRTC evt with clocks := clocks } := by
      have hfree : t.pending eventRTC = false := hself
      rw [← hclocks, scheduleEvent, scheduleEventAt, hfree]
      rfl
    have hrun : s.dispatch d.eventFuncs eventRTC =
        { t.scheduleEvent eventRTC true delay 0 0 with
          world :=
            { timerError := (SleepDevices.sysclock s.world.timerError).setWidth 15
              rest := d.countTick s.world.rest } } := rfl
    rw [hrun, hsched]
    refine ⟨rfl, rfl, fun j hj => ⟨?_, ?_⟩, fun _ => ⟨s.world.timerError, ?_⟩⟩
    · have hp := pending_fillSlot t eventRTC j evt
      rw [decide_eq_false hj, Bool.or_false] at hp
      exact hp.trans (hclear j hj)
    · exact Function.update_of_ne hj _ _
    · have ht := timestamp_fillSlot t eventRTC eventRTC evt
      rw [if_pos rfl] at ht
      exact ht
  · have hrun : s.dispatch d.eventFuncs i =
        { s.clearSlot i with
          dispatched := s.dispatched ++
            [⟨i, (s.schedList i).funcID, (s.schedList i).param, s.sysTimestamp⟩]
          world := { s.world with rest := d.completeSave i s.world.rest } } := by
      rw [dispatch, SleepDevices.eventFuncs, if_neg hi]
      rfl
    rw [hrun]
    exact ⟨rfl, rfl, fun j hj => ⟨hclear j hj, rfl⟩,
      fun hp => absurd (hself.symm.trans hp) (by decide)⟩

/-! ## One call -/

/-- The dispatches due among some slots. -/
def dueAmong (s : Scheduler (SleepWorld R)) (slots : List Slot) : List Dispatch :=
  (slots.filter fun i =>
    decide (runsInSleep i) && s.pending i && decide (s.timestamp i ≤ s.sysTimestamp)).map fun i =>
      ⟨i, (s.schedList i).funcID, (s.schedList i).param, s.sysTimestamp⟩

/-- The walk of `RunSystemSleep` from `s`, with the slots of `todo` still to come. -/
structure SleepWalk (s t : Scheduler (SleepWorld R)) (todo : List Slot) : Prop where
  sysTimestamp : t.sysTimestamp = s.sysTimestamp
  ahead : ∀ i ∉ todo, t.pending i = true → s.sysTimestamp < t.timestamp i
  untouched : ∀ i ∈ todo, t.pending i = s.pending i ∧ t.schedList i = s.schedList i
  dispatched : t.dispatched ++ s.dueAmong todo = s.dispatched ++ s.dueAmong (List.finRange eventMax)

/-- What a call needs of its deadlines, its target `s.sysTimestamp` being reached. -/
structure Reached (s : Scheduler (SleepWorld R)) (offset : U64) : Prop where
  due : ∀ i, runsInSleep i → s.pending i = true → s.sysTimestamp ≤ s.timestamp i
  passed : ∀ i, s.pending i = true → s.sysTimestamp.toNat < (s.timestamp i).toNat + offset.toNat
  room : s.sysTimestamp.toNat + offset.toNat < 2 ^ 64
  tick : s.sysTimestamp.toNat + 1023 < 2 ^ 64

theorem dueAmong_of_due {s : Scheduler (SleepWorld R)} {i : Slot} (hr : runsInSleep i)
    (hp : s.pending i = true) (ht : s.timestamp i ≤ s.sysTimestamp) (todo : List Slot) :
    s.dueAmong (i :: todo) =
      ⟨i, (s.schedList i).funcID, (s.schedList i).param, s.sysTimestamp⟩ :: s.dueAmong todo := by
  simp only [dueAmong, List.filter_cons, hr, hp, ht, decide_true, Bool.and_self, if_true,
    List.map_cons]

theorem dueAmong_of_not_due {s : Scheduler (SleepWorld R)} {i : Slot}
    (h : ¬ (runsInSleep i ∧ s.pending i = true ∧ s.timestamp i ≤ s.sysTimestamp))
    (todo : List Slot) : s.dueAmong (i :: todo) = s.dueAmong todo := by
  have hf : (decide (runsInSleep i) && s.pending i &&
      decide (s.timestamp i ≤ s.sysTimestamp)) = false := by
    rw [← Bool.not_eq_true, Bool.and_eq_true, Bool.and_eq_true, decide_eq_true_iff,
      decide_eq_true_iff, and_assoc]
    exact h
  simp only [dueAmong, List.filter_cons, hf, Bool.false_eq_true, if_false]

/-- A slot the walk leaves as it is has to lie ahead already. -/
theorem SleepWalk.skip {s t : Scheduler (SleepWorld R)} {i : Slot} {todo : List Slot}
    (h : SleepWalk s t (i :: todo))
    (hdue : ¬ (runsInSleep i ∧ s.pending i = true ∧ s.timestamp i ≤ s.sysTimestamp))
    (hahead : s.pending i = true → s.sysTimestamp < s.timestamp i) : SleepWalk s t todo := by
  refine ⟨h.sysTimestamp, fun j hj hp => ?_, fun j hj => h.untouched j (List.mem_cons_of_mem _ hj),
    ?_⟩
  · by_cases hji : j = i
    · subst hji
      have hself := h.untouched j List.mem_cons_self
      rw [timestamp, hself.2]
      exact hahead (hself.1 ▸ hp)
    · exact h.ahead j (fun hmem => (List.mem_cons.mp hmem).elim hji hj) hp
  · rw [← dueAmong_of_not_due hdue]
    exact h.dispatched

theorem SleepWalk.dispatch {s t : Scheduler (SleepWorld R)} {i : Slot} {todo : List Slot}
    (h : SleepWalk s t (i :: todo)) (hi : i ∉ todo) {offset : U64} (hs : Reached s offset)
    (d : SleepDevices R) (hr : runsInSleep i) (hp : s.pending i = true)
    (ht : s.timestamp i ≤ s.sysTimestamp) : SleepWalk s (t.dispatch d.eventFuncs i) todo := by
  have hran := ran_dispatch d t i
  have hself := h.untouched i List.mem_cons_self
  refine ⟨hran.sysTimestamp.trans h.sysTimestamp, fun j hj hpj => ?_, fun j hj => ?_, ?_⟩
  · by_cases hji : j = i
    · subst hji
      obtain ⟨e, he⟩ := hran.again hpj
      -- due and not before the clock: the deadline is the clock itself
      have hnow : t.timestamp j = s.sysTimestamp := by
        rw [timestamp, hself.2]
        exact BitVec.le_antisymm ht (hs.due j hr hp)
      have hdelay := rtcDelay e
      have hlt := e.isLt
      have htick := hs.tick
      rw [he, hnow, BitVec.lt_def, BitVec.toNat_add, hdelay]
      omega
    · rw [timestamp, (hran.others j hji).2]
      refine h.ahead j (fun hmem => (List.mem_cons.mp hmem).elim hji hj) ?_
      rw [← (hran.others j hji).1]
      exact hpj
  · have hji : j ≠ i := by
      rintro rfl
      exact hi hj
    have hj' := h.untouched j (List.mem_cons_of_mem _ hj)
    have hother := hran.others j hji
    exact ⟨hother.1.trans hj'.1, hother.2.trans hj'.2⟩
  · have hd := h.dispatched
    rw [dueAmong_of_due hr hp ht, ← hself.2, ← h.sysTimestamp] at hd
    rw [hran.dispatched, List.append_assoc]
    exact hd

/-- A deadline the clock passes is put off by as much as the clock advanced. -/
theorem SleepWalk.putOff {s t : Scheduler (SleepWorld R)} {i : Slot} {todo : List Slot}
    (h : SleepWalk s t (i :: todo)) (hi : i ∉ todo) {offset : U64} (hs : Reached s offset)
    (hr : ¬ runsInSleep i) (hp : s.pending i = true) (ht : s.timestamp i ≤ s.sysTimestamp) :
    SleepWalk s { t with
      schedList := Function.update t.schedList i
        { t.schedList i with timestamp := t.timestamp i + offset } } todo := by
  have hself := h.untouched i List.mem_cons_self
  refine ⟨h.sysTimestamp, fun j hj hpj => ?_, fun j hj => ?_, ?_⟩
  · by_cases hji : j = i
    · subst hji
      have hnew : timestamp { t with
          schedList := Function.update t.schedList j
            { t.schedList j with timestamp := t.timestamp j + offset } } j =
          s.timestamp j + offset := by
        change (Function.update t.schedList j _ j).timestamp = _
        rw [Function.update_self, timestamp, hself.2]
        rfl
      have hpassed := hs.passed j hp
      have hroom := hs.room
      rw [BitVec.le_def] at ht
      rw [hnew, BitVec.lt_def, BitVec.toNat_add]
      omega
    · have hother : timestamp { t with
          schedList := Function.update t.schedList i
            { t.schedList i with timestamp := t.timestamp i + offset } } j = t.timestamp j := by
        change (Function.update t.schedList i _ j).timestamp = _
        rw [Function.update_of_ne hji]
        rfl
      rw [hother]
      exact h.ahead j (fun hmem => (List.mem_cons.mp hmem).elim hji hj) hpj
  · have hji : j ≠ i := by
      rintro rfl
      exact hi hj
    have hj' := h.untouched j (List.mem_cons_of_mem _ hj)
    refine ⟨hj'.1, ?_⟩
    change Function.update t.schedList i _ j = _
    rw [Function.update_of_ne hji]
    exact hj'.2
  · have hd := h.dispatched
    rw [dueAmong_of_not_due fun hdue => hr hdue.1] at hd
    exact hd

/-- What one slot of the walk preserves. -/
theorem SleepWalk.step {s t : Scheduler (SleepWorld R)} {i : Slot} {todo : List Slot}
    (h : SleepWalk s t (i :: todo)) (hi : i ∉ todo) {offset : U64} (hs : Reached s offset)
    (d : SleepDevices R) :
    SleepWalk s (sleepSlot d.eventFuncs s.schedListMask offset t i) todo := by
  have hself := h.untouched i List.mem_cons_self
  have htime : t.timestamp i = s.timestamp i := by
    rw [timestamp, hself.2, timestamp]
  have hle : t.timestamp i ≤ t.sysTimestamp ↔ s.timestamp i ≤ s.sysTimestamp := by
    rw [htime, h.sysTimestamp]
  rw [sleepSlot]
  by_cases hp : s.pending i = true
  · have hmask : s.schedListMask.getLsbD i = true := hp
    by_cases ht : s.timestamp i ≤ s.sysTimestamp
    · rw [if_pos hmask, if_pos hmask, if_pos (hle.mpr ht), if_pos (hle.mpr ht)]
      by_cases hr : i = eventRTC ∨ i = eventCartSave ∨ i = eventDSiCart2Save
      · rw [if_pos hr]
        exact h.dispatch hi hs d hr hp ht
      · rw [if_neg hr]
        exact h.putOff hi hs hr hp ht
    · rw [if_neg (mt hle.mp ht), if_neg (mt hle.mp ht), ite_self, ite_self]
      exact h.skip (fun hdue => ht hdue.2.2) fun _ => BitVec.not_le.mp ht
  · have hmask : ¬ s.schedListMask.getLsbD i = true := hp
    rw [if_neg hmask, if_neg hmask, ite_self]
    exact h.skip (fun hdue => hp hdue.2.1) fun hpend => absurd hpend hp

theorem SleepWalk.run {s : Scheduler (SleepWorld R)} {offset : U64} (hs : Reached s offset)
    (d : SleepDevices R) (todo : List Slot) :
    ∀ t, todo.Nodup → SleepWalk s t todo →
      SleepWalk s (todo.foldl (sleepSlot d.eventFuncs s.schedListMask offset) t) [] := by
  induction todo with
  | nil => exact fun t _ h => h
  | cons i todo ih =>
    intro t hnodup h
    rw [List.nodup_cons] at hnodup
    exact ih _ hnodup.2 (h.step hnodup.1 hs d)

theorem SleepWalk.start (s : Scheduler (SleepWorld R)) :
    SleepWalk s s (List.finRange eventMax) :=
  ⟨rfl, fun i hi => absurd (List.mem_finRange i) hi, fun _ _ => ⟨rfl, rfl⟩, rfl⟩

/-! ## One round -/

theorem sleepTarget_spec (s : Scheduler (SleepWorld R)) (frametarget : U64) :
    s.sleepTarget frametarget ≤ frametarget ∧
      (∀ i ∈ sleepSlots, s.pending i = true → s.sleepTarget frametarget ≤ s.timestamp i) ∧
      (s.sleepTarget frametarget = frametarget ∨
        ∃ i ∈ sleepSlots, s.pending i = true ∧ s.timestamp i = s.sleepTarget frametarget) := by
  obtain ⟨-, hall, hattained⟩ :=
    foldl_earliest_spec s.timestamp (sleepSlots.filter s.pending) (BitVec.allOnes 64)
  have hnext (i : Slot) (hi : i ∈ sleepSlots) (hp : s.pending i = true) :
      s.nextTargetSleep ≤ s.timestamp i :=
    hall i (List.mem_filter.mpr ⟨hi, hp⟩)
  rw [sleepTarget]
  split_ifs with hlt
  · refine ⟨BitVec.le_refl _, fun i hi hp => ?_, Or.inl rfl⟩
    have := hnext i hi hp
    bv_omega
  · refine ⟨BitVec.not_lt.mp hlt, hnext, ?_⟩
    rcases hattained with htop | ⟨i, hi, ht⟩
    · -- nothing is scheduled, and the frame target is the largest timestamp itself
      have htop' : s.nextTargetSleep = BitVec.allOnes 64 := htop
      have hle := le_allOnes frametarget
      rw [← htop'] at hle
      exact Or.inl (BitVec.le_antisymm (BitVec.not_lt.mp hlt) hle)
    · have hmem := List.mem_filter.mp hi
      exact Or.inr ⟨i, hmem.1, hmem.2, ht⟩

theorem Ahead.lt_sleepTarget {s : Scheduler (SleepWorld R)} (h : s.Ahead) {frametarget : U64}
    (hlt : s.sysTimestamp < frametarget) : s.sysTimestamp < s.sleepTarget frametarget := by
  rcases (s.sleepTarget_spec frametarget).2.2 with heq | ⟨i, -, hp, ht⟩
  · rw [heq]
    exact hlt
  · rw [← ht]
    exact h i hp

theorem mem_sleepSlots_of_runs {i : Slot} (h : runsInSleep i) : i ∈ sleepSlots := by
  rcases h with rfl | rfl | rfl <;> decide

/-- The dispatches whose deadline is `now`. -/
def dueAt (s : Scheduler (SleepWorld R)) (now : U64) : List Dispatch :=
  ((List.finRange eventMax).filter fun i =>
    decide (runsInSleep i) && s.pending i && decide (s.timestamp i = now)).map fun i =>
      ⟨i, (s.schedList i).funcID, (s.schedList i).param, s.timestamp i⟩

/-- What one round of the loop does from `s`, up to `frametarget`. -/
structure SleepStep (s t : Scheduler (SleepWorld R)) (frametarget : U64) : Prop where
  advanced : s.sysTimestamp < t.sysTimestamp
  bounded : t.sysTimestamp ≤ frametarget
  reachedNone : ∀ i, runsInSleep i → s.pending i = true → t.sysTimestamp ≤ s.timestamp i
  dispatched : t.dispatched = s.dispatched ++ s.dueAt t.sysTimestamp
  ahead : t.Ahead

/-- The sums of a frame stay below `2^64`: an event put off by a frame at its end, and the next
tick of the RTC. -/
structure Room (s : Scheduler (SleepWorld R)) (frametarget : U64) : Prop where
  putOff : frametarget.toNat + (frametarget.toNat - s.sysTimestamp.toNat) < 2 ^ 64
  tick : frametarget.toNat + 1023 < 2 ^ 64

theorem dueAmong_eq_dueAt {s t : Scheduler (SleepWorld R)} (hlist : t.schedList = s.schedList)
    (hpending : t.pending = s.pending)
    (hdue : ∀ i, runsInSleep i → t.pending i = true → t.sysTimestamp ≤ t.timestamp i) :
    t.dueAmong (List.finRange eventMax) = s.dueAt t.sysTimestamp := by
  have htime (i : Slot) : t.timestamp i = s.timestamp i := by
    rw [timestamp, hlist, timestamp]
  have hiff (i : Slot) : (decide (runsInSleep i) && t.pending i &&
        decide (t.timestamp i ≤ t.sysTimestamp)) =
      (decide (runsInSleep i) && s.pending i && decide (s.timestamp i = t.sysTimestamp)) := by
    rw [← hpending, ← htime, Bool.eq_iff_iff]
    simp only [Bool.and_eq_true, decide_eq_true_eq]
    refine and_congr_right fun hi => ⟨fun hle => ?_, fun heq => ?_⟩
    · exact BitVec.le_antisymm hle (hdue i hi.1 hi.2)
    · exact heq ▸ BitVec.le_refl _
  rw [dueAmong, dueAt, List.filter_congr fun i _ => hiff i]
  refine List.map_congr_left fun i hi => ?_
  have hnow := (List.mem_filter.mp hi).2
  simp only [Bool.and_eq_true, decide_eq_true_eq] at hnow
  rw [hlist, hnow.2]

theorem sleepStep (d : SleepDevices R) {s : Scheduler (SleepWorld R)} {frametarget : U64}
    (h : s.Ahead) (hlt : s.sysTimestamp < frametarget) (hroom : Room s frametarget) :
    SleepStep s (s.sleepRound d frametarget) frametarget := by
  obtain ⟨hle, hnext, -⟩ := s.sleepTarget_spec frametarget
  have hgt := h.lt_sleepTarget hlt
  let target := s.sleepTarget frametarget
  let start : Scheduler (SleepWorld R) :=
    { s.moveClocks target with sysTimestamp := target }
  have hdue (i : Slot) (hr : runsInSleep i) (hp : s.pending i = true) : target ≤ s.timestamp i :=
    hnext i (mem_sleepSlots_of_runs hr) hp
  have hgt' : s.sysTimestamp.toNat < target.toNat := hgt
  have hle' : target.toNat ≤ frametarget.toNat := hle
  have hoffset : (target - s.sysTimestamp).toNat = target.toNat - s.sysTimestamp.toNat :=
    BitVec.toNat_sub_of_le (BitVec.le_of_lt hgt)
  have hputOff := hroom.putOff
  have htick := hroom.tick
  have hreached : Reached start (target - s.sysTimestamp) := by
    refine ⟨hdue, fun i hp => ?_, ?_, ?_⟩
    · have hahead : s.sysTimestamp.toNat < (s.timestamp i).toNat := h i hp
      change target.toNat < (s.timestamp i).toNat + _
      omega
    · change target.toNat + _ < _
      omega
    · change target.toNat + _ < _
      omega
  have hwalk := SleepWalk.run hreached d (List.finRange eventMax) start
    (List.nodup_finRange eventMax) (SleepWalk.start start)
  have hnow : (s.sleepRound d frametarget).sysTimestamp = target := hwalk.sysTimestamp
  refine ⟨hnow ▸ hgt, hnow ▸ hle, hnow ▸ hdue, ?_, fun i hp => ?_⟩
  · have hd := hwalk.dispatched
    rw [dueAmong_eq_dueAt (s := s) (t := start) rfl rfl hdue] at hd
    rw [hnow]
    exact (List.append_nil _).symm.trans hd
  · have hahead := hwalk.ahead i List.not_mem_nil hp
    rw [hnow]
    exact hahead

/-! ## The loop -/

theorem Room.mono {s t : Scheduler (SleepWorld R)} {frametarget : U64} (h : Room s frametarget)
    (hle : s.sysTimestamp ≤ t.sysTimestamp) : Room t frametarget := by
  have hle' : s.sysTimestamp.toNat ≤ t.sysTimestamp.toNat := hle
  have hputOff := h.putOff
  exact ⟨by omega, h.tick⟩

/-- The state the loop is left in: it is over, or the console stopped or woke up. -/
structure SleepEnd (d : SleepDevices R) (frametarget : U64) (s t : Scheduler (SleepWorld R)) :
    Prop where
  since : s.sysTimestamp ≤ t.sysTimestamp
  ended : frametarget ≤ t.sysTimestamp ∨ d.running t.world.rest = false ∨
    d.asleep t.world.rest = false
  ahead : t.Ahead

/-- Every round advances the clock, so as many rounds as there are cycles left are enough. -/
theorem sleepLoop_ends (d : SleepDevices R) (frametarget : U64) (rounds : ℕ) :
    ∀ s : Scheduler (SleepWorld R), s.Ahead → Room s frametarget →
      frametarget.toNat - s.sysTimestamp.toNat ≤ rounds →
      ∃ t, sleepLoop d frametarget rounds s = some t ∧ SleepEnd d frametarget s t := by
  induction rounds with
  | zero =>
    intro s h _ hrounds
    have hle : frametarget ≤ s.sysTimestamp := by
      rw [BitVec.le_def]
      omega
    have hstop : (d.running s.world.rest && decide (s.sysTimestamp < frametarget)) = false := by
      rw [decide_eq_false (BitVec.not_lt.mpr hle), Bool.and_false]
    rw [sleepLoop, hstop]
    exact ⟨s, rfl, BitVec.le_refl _, Or.inl hle, h⟩
  | succ rounds ih =>
    intro s h hroom hrounds
    rw [sleepLoop]
    by_cases hgo : (d.running s.world.rest && decide (s.sysTimestamp < frametarget)) = true
    · rw [if_pos hgo]
      rw [Bool.and_eq_true, decide_eq_true_iff] at hgo
      have hstep := sleepStep d h hgo.2 hroom
      have hadvanced : s.sysTimestamp.toNat < (s.sleepRound d frametarget).sysTimestamp.toNat :=
        hstep.advanced
      have hsince := BitVec.le_of_lt hstep.advanced
      by_cases hasleep : d.asleep (s.sleepRound d frametarget).world.rest = true
      · simp only [hasleep, if_true]
        obtain ⟨t, hrun, hend⟩ := ih _ hstep.ahead (hroom.mono hsince) (by omega)
        exact ⟨t, hrun, BitVec.le_trans hsince hend.since, hend.ended, hend.ahead⟩
      · simp only [hasleep, if_false, Bool.false_eq_true]
        exact ⟨_, rfl, hsince, Or.inr (Or.inr (Bool.not_eq_true _ ▸ hasleep)), hstep.ahead⟩
    · rw [if_neg hgo]
      rw [Bool.and_eq_true, not_and_or, decide_eq_true_iff, Bool.not_eq_true] at hgo
      refine ⟨s, rfl, BitVec.le_refl _, ?_, h⟩
      rcases hgo with hstopped | hpast
      · exact Or.inr (Or.inl hstopped)
      · exact Or.inl (BitVec.not_lt.mp hpast)

/-- From every schedule ahead of the clock, a round advances the clock to the target, dispatches
the events that run in sleep mode at their own deadlines and leaves every deadline ahead, and
the loop ends before it has taken one round for every cycle of the frame. -/
theorem sleep_progress (d : SleepDevices R) (s : Scheduler (SleepWorld R)) (frametarget : U64)
    (h : s.Ahead) (hlt : s.sysTimestamp < frametarget) (hroom : Room s frametarget) :
    SleepStep s (s.sleepRound d frametarget) frametarget ∧
      ∃ t, sleepLoop d frametarget (frametarget.toNat - s.sysTimestamp.toNat) s = some t ∧
        SleepEnd d frametarget s t :=
  ⟨sleepStep d h hlt hroom, sleepLoop_ends d frametarget _ s h hroom le_rfl⟩

/-- With the frame target of `RunFrame`, the condition is one on the clock alone. -/
theorem room_frame {s : Scheduler (SleepWorld R)}
    (h : s.sysTimestamp.toNat + 1120380 < 2 ^ 64) :
    s.sysTimestamp < s.sysTimestamp + 560190 ∧ Room s (s.sysTimestamp + 560190) := by
  have hsum : (s.sysTimestamp + 560190).toNat = s.sysTimestamp.toNat + 560190 := by
    rw [BitVec.toNat_add]
    change (s.sysTimestamp.toNat + 560190) % 2 ^ 64 = _
    omega
  refine ⟨?_, ?_, ?_⟩
  · rw [BitVec.lt_def]
    omega
  · omega
  · omega

/-- A console that stays asleep, with the given clock and events. -/
def asleepAt (sysTimestamp : U64) (timestamp : Slot → U64) (schedListMask : U32) :
    Scheduler (SleepWorld Unit) :=
  { schedList := fun i => ⟨timestamp i, 0, 0⟩
    schedListMask
    earliestEventTimestamp := 0
    sysTimestamp
    clocks := ⟨0, 1, 0, 0, 0, 0⟩
    world := ⟨0, ()⟩
    dispatched := [] }

def staysAsleep : SleepDevices Unit := ⟨id, fun _ => id, fun _ => true, fun _ => true⟩

/-- The RTC and the SPU both due at cycle 1024 of a frame. -/
theorem sleep_progress_first :
    let s := asleepAt 0 (fun _ => 1024) 0b1010
    SleepStep s (s.sleepRound staysAsleep 560190) 560190 ∧
      ∃ t, sleepLoop staysAsleep 560190 ((560190 : U64).toNat - s.sysTimestamp.toNat) s = some t ∧
        SleepEnd staysAsleep 560190 s t :=
  sleep_progress staysAsleep (asleepAt 0 (fun _ => 1024) 0b1010) 560190 (by
    intro i _
    change (0 : U64) < 1024
    decide) (by decide) (room_frame (s := asleepAt 0 (fun _ => 1024) 0b1010) (by decide)).2

/-- In the last frame before the clock wraps, a display event put off to `2^64` comes to lie at
timestamp zero. -/
theorem sleep_progress_wraps :
    let s := asleepAt 18446744073708991425 (fun _ => 18446744073708991426) 0b1
    s.Ahead ∧ s.sysTimestamp < s.sysTimestamp + 560190 ∧
      ¬ (s.sleepRound staysAsleep (s.sysTimestamp + 560190)).Ahead := by
  intro s
  refine ⟨fun i _ => ?_, by decide, fun h => ?_⟩
  · change (18446744073708991425 : U64) < 18446744073708991426
    decide
  · have hfirst := h 0 (by decide)
    revert hfirst
    decide

end Scheduler

end MelonDS.NDS

import Mathlib.Order.Basic
import Mathlib.Data.List.FinRange
import MelonDS.Types

/-!
# The event scheduler of `NDS.cpp`

`EarliestEventTimestamp` caches the least timestamp of the scheduled slots, and
`RunSystem` returns before its walk when the target is below it. Callbacks are
trees of scheduler calls whose continuations see the whole state, so a callback
may schedule or cancel any slot, the one being dispatched and those already
walked included. The last theorem compares the scheduler with one that walks
every slot at every call.
-/

namespace MelonDS.NDS

/-- `Event_MAX`. -/
abbrev eventMax : ℕ := 27

abbrev Slot := Fin eventMax

def eventRTC : Slot := 3
def eventCartSave : Slot := 25
def eventDSiCart2Save : Slot := 26

def kMaxIterationCycles : U64 := 64
def kIterationCycleMargin : U64 := 8

structure SchedEvent where
  timestamp : U64
  funcID : U32
  param : U32

/-- What `ScheduleEvent` and `Reschedule` read and write of the two CPUs. -/
structure Clocks where
  curCPU : U32
  arm9ClockShift : ℕ
  arm9Timestamp : U64
  arm9Target : U64
  arm7Timestamp : U64
  arm7Target : U64

/-- One callback run, with the target it was run for. -/
structure Dispatch where
  slot : Slot
  funcID : U32
  param : U32
  sysTimestamp : U64

/-- `world` stands for everything else the callbacks read or write, and
`dispatched` is the history of callbacks run. -/
structure Scheduler (W : Type) where
  schedList : Slot → SchedEvent
  schedListMask : U32
  earliestEventTimestamp : U64
  sysTimestamp : U64
  clocks : Clocks
  world : W
  dispatched : List Dispatch

variable {W : Type}

/-- A callback: the scheduler calls it makes, each seeing the state the last left. -/
inductive Callback (W : Type)
  | done (world : W)
  | setClocks (clocks : Clocks) (next : Scheduler W → Callback W)
  | scheduleEvent (id : Slot) (periodic : Bool) (delay : U32) (funcid param : U32)
      (next : Scheduler W → Callback W)
  | scheduleEventAt (id : Slot) (timestamp : U64) (funcid param : U32)
      (next : Scheduler W → Callback W)
  | cancelEvent (id : Slot) (next : Scheduler W → Callback W)

/-- The registered `Funcs[FuncID]` of a slot, applied to its parameter. -/
abbrev EventFuncs (W : Type) := Scheduler W → Slot → U32 → U32 → Callback W

namespace Scheduler

def pending (s : Scheduler W) (i : Slot) : Bool := s.schedListMask.getLsbD i

def timestamp (s : Scheduler W) (i : Slot) : U64 := (s.schedList i).timestamp

/-- The set bits below `Event_MAX`, in the order `countr_zero` finds them. -/
def scheduledSlots (s : Scheduler W) : List Slot := (List.finRange eventMax).filter s.pending

def earliestOf (s : Scheduler W) (slots : List Slot) : U64 :=
  slots.foldl (fun earliest slot =>
    if s.timestamp slot < earliest then s.timestamp slot else earliest) (BitVec.allOnes 64)

def refreshEarliestEvent (s : Scheduler W) : Scheduler W :=
  { s with earliestEventTimestamp := s.earliestOf s.scheduledSlots }

/-- The target of an iteration, given the earliest deadline. -/
def targetBefore (s : Scheduler W) (earliest : U64) : U64 :=
  let max := s.sysTimestamp + kMaxIterationCycles
  if earliest < max + kIterationCycleMargin then earliest else max

def nextTarget (s : Scheduler W) : U64 := s.targetBefore s.earliestEventTimestamp

def reschedule (s : Scheduler W) (target : U64) : Scheduler W :=
  if s.clocks.curCPU = 0 then
    if target < s.clocks.arm9Target >>> s.clocks.arm9ClockShift then
      { s with clocks := { s.clocks with arm9Target := target <<< s.clocks.arm9ClockShift } }
    else s
  else if target < s.clocks.arm7Target then
    { s with clocks := { s.clocks with arm7Target := target } }
  else s

/-- The stores `ScheduleEventAt` makes for a slot that is free. -/
def fillSlot (s : Scheduler W) (id : Slot) (evt : SchedEvent) : Scheduler W :=
  { s with
    schedList := Function.update s.schedList id evt
    schedListMask := s.schedListMask ||| bit 32 id
    earliestEventTimestamp :=
      if evt.timestamp < s.earliestEventTimestamp then evt.timestamp
      else s.earliestEventTimestamp }

def scheduleEventAt (s : Scheduler W) (id : Slot) (timestamp : U64) (funcid param : U32) :
    Scheduler W :=
  if s.pending id then s
  else (s.fillSlot id ⟨timestamp, funcid, param⟩).reschedule timestamp

/-- The `s32` delay is sign-extended before the addition. -/
def scheduleEvent (s : Scheduler W) (id : Slot) (periodic : Bool) (delay : U32)
    (funcid param : U32) : Scheduler W :=
  let start :=
    if periodic then s.timestamp id
    else if s.clocks.curCPU = 0 then s.clocks.arm9Timestamp >>> s.clocks.arm9ClockShift
    else s.clocks.arm7Timestamp
  s.scheduleEventAt id (start + delay.signExtend 64) funcid param

def clearSlot (s : Scheduler W) (id : Slot) : Scheduler W :=
  { s with schedListMask := s.schedListMask &&& ~~~(bit 32 id) }

def cancelEvent (s : Scheduler W) (id : Slot) : Scheduler W :=
  if s.pending id then
    if s.timestamp id = s.earliestEventTimestamp then (s.clearSlot id).refreshEarliestEvent
    else s.clearSlot id
  else s

/-- The scheduler calls of a callback, in order. -/
def runCallback : Callback W → Scheduler W → Scheduler W
  | .done world, s => { s with world := world }
  | .setClocks clocks next, s =>
    runCallback (next { s with clocks := clocks }) { s with clocks := clocks }
  | .scheduleEvent id periodic delay funcid param next, s =>
    runCallback (next (s.scheduleEvent id periodic delay funcid param))
      (s.scheduleEvent id periodic delay funcid param)
  | .scheduleEventAt id timestamp funcid param next, s =>
    runCallback (next (s.scheduleEventAt id timestamp funcid param))
      (s.scheduleEventAt id timestamp funcid param)
  | .cancelEvent id next, s => runCallback (next (s.cancelEvent id)) (s.cancelEvent id)

/-- The slot's bit is cleared before its callback is run. -/
def dispatch (funcs : EventFuncs W) (s : Scheduler W) (i : Slot) : Scheduler W :=
  let evt := s.schedList i
  runCallback (funcs (s.clearSlot i) i evt.funcID evt.param)
    { s.clearSlot i with
      dispatched := s.dispatched ++ [⟨i, evt.funcID, evt.param, s.sysTimestamp⟩] }

/-- One slot of the walk of `RunSystem`: `mask` is the snapshot, and the live
mask is tested again since earlier callbacks may have cancelled the event. -/
def walkSlot (funcs : EventFuncs W) (mask : U32) (s : Scheduler W) (i : Slot) : Scheduler W :=
  if mask.getLsbD i && s.pending i then
    if s.timestamp i ≤ s.sysTimestamp then s.dispatch funcs i else s
  else s

/-- The walk stops early only when no bit of the snapshot is left. -/
def walk (funcs : EventFuncs W) (s : Scheduler W) : Scheduler W :=
  (List.finRange eventMax).foldl (walkSlot funcs s.schedListMask) s

/-- `RunSystem` without its early return. -/
def runSystemWalking (funcs : EventFuncs W) (s : Scheduler W) (timestamp : U64) : Scheduler W :=
  (walk funcs { s with sysTimestamp := timestamp }).refreshEarliestEvent

def runSystem (funcs : EventFuncs W) (s : Scheduler W) (timestamp : U64) : Scheduler W :=
  if timestamp < s.earliestEventTimestamp then { s with sysTimestamp := timestamp }
  else s.runSystemWalking funcs timestamp

/-- One slot of the walk of `RunSystemSleep`, which tests the snapshot only. -/
def sleepSlot (funcs : EventFuncs W) (mask : U32) (offset : U64) (s : Scheduler W) (i : Slot) :
    Scheduler W :=
  if i = eventRTC ∨ i = eventCartSave ∨ i = eventDSiCart2Save then
    if mask.getLsbD i then
      if s.timestamp i ≤ s.sysTimestamp then s.dispatch funcs i else s
    else s
  else if mask.getLsbD i then
    if s.timestamp i ≤ s.sysTimestamp then
      { s with
        schedList := Function.update s.schedList i
          { s.schedList i with timestamp := s.timestamp i + offset } }
    else s
  else s

def runSystemSleep (funcs : EventFuncs W) (s : Scheduler W) (timestamp : U64) : Scheduler W :=
  let offset := timestamp - s.sysTimestamp
  let s := { s with sysTimestamp := timestamp }
  ((List.finRange eventMax).foldl (sleepSlot funcs s.schedListMask offset) s).refreshEarliestEvent

/-- After `Reset`, which leaves the current CPU and the clock ratio to its caller. -/
def reset (curCPU : U32) (arm9ClockShift : ℕ) (world : W) : Scheduler W :=
  refreshEarliestEvent
    { schedList := fun _ => ⟨0, 0, 0⟩
      schedListMask := 0
      earliestEventTimestamp := 0
      sysTimestamp := 0
      clocks := ⟨curCPU, arm9ClockShift, 0, 0, 0, 0⟩
      world := world
      dispatched := [] }

end Scheduler

/-- The calls made from outside the walk. Between two of them the CPUs run,
which moves their clocks and the rest of the machine. -/
inductive SchedOp (W : Type)
  | advance (clocks : Clocks) (world : W)
  | scheduleEvent (id : Slot) (periodic : Bool) (delay : U32) (funcid param : U32)
  | scheduleEventAt (id : Slot) (timestamp : U64) (funcid param : U32)
  | cancelEvent (id : Slot)
  | runSystem (timestamp : U64)
  | runSystemSleep (timestamp : U64)

namespace Scheduler

/-- One call, with `RunSystem` as given. -/
def stepWith (runSystem : Scheduler W → U64 → Scheduler W) (funcs : EventFuncs W)
    (s : Scheduler W) : SchedOp W → Scheduler W
  | .advance clocks world => { s with clocks := clocks, world := world }
  | .scheduleEvent id periodic delay funcid param => s.scheduleEvent id periodic delay funcid param
  | .scheduleEventAt id timestamp funcid param => s.scheduleEventAt id timestamp funcid param
  | .cancelEvent id => s.cancelEvent id
  | .runSystem timestamp => runSystem s timestamp
  | .runSystemSleep timestamp => s.runSystemSleep funcs timestamp

def run (funcs : EventFuncs W) (s : Scheduler W) (ops : List (SchedOp W)) : Scheduler W :=
  ops.foldl (stepWith (runSystem funcs) funcs) s

/-- The scheduler that walks every slot at every `RunSystem`. -/
def runWalking (funcs : EventFuncs W) (s : Scheduler W) (ops : List (SchedOp W)) : Scheduler W :=
  ops.foldl (stepWith (runSystemWalking funcs) funcs) s

/-! ## The earliest deadline -/

/-- `t` is the least timestamp of the scheduled slots, `UINT64_MAX` if there are none. -/
structure IsDeadline (s : Scheduler W) (t : U64) : Prop where
  le : ∀ i, s.pending i = true → t ≤ s.timestamp i
  attained : t = BitVec.allOnes 64 ∨ ∃ i, s.pending i = true ∧ s.timestamp i = t

theorem le_allOnes (t : U64) : t ≤ BitVec.allOnes 64 := by
  rw [BitVec.le_def, BitVec.toNat_allOnes]
  omega

theorem IsDeadline.unique {s : Scheduler W} {t u : U64} (ht : s.IsDeadline t)
    (hu : s.IsDeadline u) : t = u := by
  have key {t u : U64} (ht : s.IsDeadline t) (hu : s.IsDeadline u) : t ≤ u := by
    rcases hu.attained with rfl | ⟨i, hi, rfl⟩
    · exact le_allOnes t
    · exact ht.le i hi
  exact BitVec.le_antisymm (key ht hu) (key hu ht)

theorem IsDeadline.congr {s s' : Scheduler W} {t : U64} (hl : s'.schedList = s.schedList)
    (hm : s'.schedListMask = s.schedListMask) (h : s.IsDeadline t) : s'.IsDeadline t := by
  have hp : s'.pending = s.pending := by
    funext i
    rw [pending, hm, pending]
  have ht : s'.timestamp = s.timestamp := by
    funext i
    rw [timestamp, hl, timestamp]
  exact ⟨by rw [hp, ht]; exact h.le, by rw [hp, ht]; exact h.attained⟩

/-- The minimum fold of `RefreshEarliestEvent`, from any starting value. -/
theorem foldl_earliest_spec (key : Slot → U64) (slots : List Slot) (start : U64) :
    let e := slots.foldl (fun earliest slot =>
      if key slot < earliest then key slot else earliest) start
    e ≤ start ∧ (∀ i ∈ slots, e ≤ key i) ∧ (e = start ∨ ∃ i ∈ slots, key i = e) := by
  induction slots generalizing start with
  | nil => simp
  | cons slot slots ih =>
    obtain ⟨hstart, hall, hattained⟩ := ih (if key slot < start then key slot else start)
    have hle : (if key slot < start then key slot else start) ≤ start ∧
        (if key slot < start then key slot else start) ≤ key slot := by
      split_ifs <;> bv_omega
    refine ⟨BitVec.le_trans hstart hle.1, ?_, ?_⟩
    · intro i hi
      rcases List.mem_cons.mp hi with rfl | hi
      · exact BitVec.le_trans hstart hle.2
      · exact hall i hi
    · rcases hattained with h | ⟨i, hi, h⟩
      · simp only [List.foldl_cons, List.mem_cons, exists_eq_or_imp]
        split_ifs at h ⊢ with hlt
        · exact Or.inr (Or.inl h.symm)
        · exact Or.inl h
      · exact Or.inr ⟨i, List.mem_cons_of_mem _ hi, h⟩

theorem isDeadline_earliestOf (s : Scheduler W) : s.IsDeadline (s.earliestOf s.scheduledSlots) := by
  obtain ⟨-, hall, hattained⟩ :=
    foldl_earliest_spec s.timestamp s.scheduledSlots (BitVec.allOnes 64)
  refine ⟨fun i hi => hall i ?_, hattained.imp_right ?_⟩
  · exact List.mem_filter.mpr ⟨List.mem_finRange i, hi⟩
  · rintro ⟨i, hi, h⟩
    exact ⟨i, (List.mem_filter.mp hi).2, h⟩

/-- The cache holds the earliest deadline. -/
def Cached (s : Scheduler W) : Prop := s.IsDeadline s.earliestEventTimestamp

theorem cached_refresh (s : Scheduler W) : s.refreshEarliestEvent.Cached := by
  have h := isDeadline_earliestOf s
  exact ⟨h.le, h.attained⟩

/-- Refreshing an exact cache changes nothing. -/
theorem Cached.refresh_eq {s : Scheduler W} (h : s.Cached) : s.refreshEarliestEvent = s := by
  have he := (isDeadline_earliestOf s).unique h
  rw [refreshEarliestEvent, he]

theorem Cached.of_eq {s s' : Scheduler W} (h : s.Cached) (hl : s'.schedList = s.schedList)
    (hm : s'.schedListMask = s.schedListMask)
    (he : s'.earliestEventTimestamp = s.earliestEventTimestamp) : s'.Cached := by
  rw [Cached, he]
  exact h.congr hl hm

theorem reschedule_eq (s : Scheduler W) (target : U64) :
    ∃ clocks, s.reschedule target = { s with clocks := clocks } := by
  unfold reschedule
  split_ifs
  · exact ⟨_, rfl⟩
  · exact ⟨s.clocks, rfl⟩
  · exact ⟨_, rfl⟩
  · exact ⟨s.clocks, rfl⟩

theorem pending_fillSlot (s : Scheduler W) (id i : Slot) (evt : SchedEvent) :
    (s.fillSlot id evt).pending i = (s.pending i || decide (i = id)) := by
  have hlt : (i : ℕ) < 32 := i.isLt.trans (by decide)
  by_cases h : i = id
  · subst h
    simp [fillSlot, pending, hlt]
  · have : ¬ (id : ℕ) = i := fun he => h (Fin.ext he.symm)
    simp [fillSlot, pending, h, this]

theorem timestamp_fillSlot (s : Scheduler W) (id i : Slot) (evt : SchedEvent) :
    (s.fillSlot id evt).timestamp i = if i = id then evt.timestamp else s.timestamp i := by
  by_cases h : i = id
  · subst h
    simp [fillSlot, timestamp]
  · simp [fillSlot, timestamp, h]

/-- A slot just scheduled can only lower the deadline, and to its own timestamp. -/
theorem Cached.fillSlot {s : Scheduler W} (h : s.Cached) {id : Slot} (hid : s.pending id = false)
    (evt : SchedEvent) : (s.fillSlot id evt).Cached := by
  have hearliest : (s.fillSlot id evt).earliestEventTimestamp ≤ evt.timestamp ∧
      (s.fillSlot id evt).earliestEventTimestamp ≤ s.earliestEventTimestamp := by
    simp only [Scheduler.fillSlot]
    split_ifs <;> bv_omega
  constructor
  · intro i hi
    rw [pending_fillSlot] at hi
    rw [timestamp_fillSlot]
    split_ifs with hne
    · exact hearliest.1
    · simp only [hne, decide_false, Bool.or_false] at hi
      exact BitVec.le_trans hearliest.2 (h.le i hi)
  · by_cases hlt : evt.timestamp < s.earliestEventTimestamp
    · refine Or.inr ⟨id, by simp [pending_fillSlot], ?_⟩
      rw [timestamp_fillSlot, if_pos rfl]
      simp [Scheduler.fillSlot, hlt]
    · have he : (s.fillSlot id evt).earliestEventTimestamp = s.earliestEventTimestamp := by
        simp [Scheduler.fillSlot, hlt]
      rw [he]
      refine h.attained.imp_right ?_
      rintro ⟨i, hi, ht⟩
      have hne : i ≠ id := by
        rintro rfl
        rw [hid] at hi
        exact Bool.false_ne_true hi
      exact ⟨i, by simp [pending_fillSlot, hi], by rw [timestamp_fillSlot, if_neg hne, ht]⟩

theorem Cached.scheduleEventAt {s : Scheduler W} (h : s.Cached) (id : Slot) (timestamp : U64)
    (funcid param : U32) : (s.scheduleEventAt id timestamp funcid param).Cached := by
  unfold Scheduler.scheduleEventAt
  split_ifs with hid
  · exact h
  · rw [Bool.not_eq_true] at hid
    obtain ⟨clocks, hc⟩ := reschedule_eq (s.fillSlot id ⟨timestamp, funcid, param⟩) timestamp
    rw [hc]
    exact (h.fillSlot hid _).of_eq rfl rfl rfl

theorem pending_clearSlot (s : Scheduler W) (id i : Slot) :
    (s.clearSlot id).pending i = (s.pending i && decide (i ≠ id)) := by
  have hlt : (i : ℕ) < 32 := i.isLt.trans (by decide)
  by_cases h : i = id
  · subst h
    simp [clearSlot, pending, hlt]
  · have : ¬ (id : ℕ) = i := fun he => h (Fin.ext he.symm)
    simp [clearSlot, pending, h, this, hlt]

/-- Only the deadline itself can disappear when a slot is cancelled. -/
theorem Cached.cancelEvent {s : Scheduler W} (h : s.Cached) (id : Slot) :
    (s.cancelEvent id).Cached := by
  unfold Scheduler.cancelEvent
  split_ifs with hid ht
  · exact cached_refresh _
  · constructor
    · intro i hi
      rw [pending_clearSlot, Bool.and_eq_true] at hi
      exact h.le i hi.1
    · refine h.attained.imp_right ?_
      rintro ⟨i, hi, hti⟩
      have hne : i ≠ id := by
        rintro rfl
        exact ht hti
      exact ⟨i, by simp [pending_clearSlot, hi, hne], hti⟩
  · exact h

/-! ## The walk and its early return -/

/-- A walk finds nothing to dispatch while every scheduled slot is still ahead. -/
theorem walk_eq_self (funcs : EventFuncs W) (s : Scheduler W)
    (h : ∀ i, s.pending i = true → s.sysTimestamp < s.timestamp i) : s.walk funcs = s := by
  have hslot (i : Slot) : walkSlot funcs s.schedListMask s i = s := by
    unfold walkSlot
    split_ifs with hi ht
    · have := h i (Bool.and_eq_true _ _ ▸ hi).2
      exact absurd ht (by bv_omega)
    · rfl
    · rfl
  rw [walk]
  induction List.finRange eventMax with
  | nil => rfl
  | cons i slots ih => rw [List.foldl_cons, hslot i, ih]

theorem cached_runSystemWalking (funcs : EventFuncs W) (s : Scheduler W) (timestamp : U64) :
    (s.runSystemWalking funcs timestamp).Cached :=
  cached_refresh _

/-- With an exact cache the early return skips a walk that would do nothing. -/
theorem Cached.runSystem_eq {s : Scheduler W} (h : s.Cached) (funcs : EventFuncs W)
    (timestamp : U64) : s.runSystem funcs timestamp = s.runSystemWalking funcs timestamp := by
  unfold runSystem
  split_ifs with ht
  · have hw : walk funcs { s with sysTimestamp := timestamp } =
        { s with sysTimestamp := timestamp } := by
      refine walk_eq_self funcs _ fun i hi => ?_
      have := h.le i hi
      change timestamp < s.timestamp i
      bv_omega
    have hc : Cached { s with sysTimestamp := timestamp } := h.of_eq rfl rfl rfl
    rw [runSystemWalking, hw, hc.refresh_eq]
  · rfl

theorem Cached.step {s : Scheduler W} (h : s.Cached) (funcs : EventFuncs W) (op : SchedOp W) :
    (stepWith (runSystem funcs) funcs s op).Cached ∧
      stepWith (runSystem funcs) funcs s op = stepWith (runSystemWalking funcs) funcs s op := by
  cases op with
  | advance clocks world => exact ⟨h.of_eq rfl rfl rfl, rfl⟩
  | scheduleEvent id periodic delay funcid param => exact ⟨h.scheduleEventAt _ _ _ _, rfl⟩
  | scheduleEventAt id timestamp funcid param => exact ⟨h.scheduleEventAt _ _ _ _, rfl⟩
  | cancelEvent id => exact ⟨h.cancelEvent id, rfl⟩
  | runSystem timestamp =>
    have he := h.runSystem_eq funcs timestamp
    refine ⟨?_, he⟩
    change (s.runSystem funcs timestamp).Cached
    rw [he]
    exact cached_runSystemWalking funcs s timestamp
  | runSystemSleep timestamp => exact ⟨cached_refresh _, rfl⟩

theorem Cached.run {s : Scheduler W} (h : s.Cached) (funcs : EventFuncs W)
    (ops : List (SchedOp W)) :
    (s.run funcs ops).Cached ∧ s.run funcs ops = s.runWalking funcs ops := by
  induction ops generalizing s with
  | nil => exact ⟨h, rfl⟩
  | cons op ops ih =>
    obtain ⟨hc, he⟩ := h.step funcs op
    obtain ⟨hcs, hes⟩ := ih hc
    refine ⟨hcs, hes.trans ?_⟩
    rw [runWalking, runWalking, List.foldl_cons, ← he]

/-- In every run from `Reset`, whatever the callbacks schedule and cancel, the
cache is the earliest deadline after each call, and the run (state, targets and
the callbacks dispatched) is that of the scheduler that walks at every call. -/
theorem run_eq_runWalking (funcs : EventFuncs W) (curCPU : U32) (arm9ClockShift : ℕ) (world : W)
    (ops : List (SchedOp W)) :
    let s := (reset curCPU arm9ClockShift world).run funcs ops
    s.IsDeadline s.earliestEventTimestamp ∧
      s.nextTarget = s.targetBefore (s.earliestOf s.scheduledSlots) ∧
      s = (reset curCPU arm9ClockShift world).runWalking funcs ops := by
  intro s
  have hreset : (reset curCPU arm9ClockShift world).Cached := cached_refresh _
  obtain ⟨hc, he⟩ := hreset.run funcs ops
  have hs : s.IsDeadline s.earliestEventTimestamp := hc
  refine ⟨hs, ?_, he⟩
  rw [nextTarget, (isDeadline_earliestOf s).unique hs]

end Scheduler
end MelonDS.NDS

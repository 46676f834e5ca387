import MelonDS.Library.Queues
import MelonDS.NDS.IPC

/-!
# Runs of the FIFOs between the CPUs

In any interleaving of the two CPUs' accesses each FIFO delivers the accepted words in
order, and the error bits tell of refused accesses. The interrupts are requested when
their condition becomes true, with one exception: a control write that clears a FIFO
whose send-empty interrupt is already enabled requests none.
-/

namespace MelonDS.NDS

/-- What an access does to the FIFOs. -/
inductive IPCOp.Kind
  | send (val : U32)
  | control (val : U16)
  | receive
  | other
deriving DecidableEq

def IPCOp.kind (op : IPCOp) : IPCOp.Kind :=
  match op.access with
  | .write8 addr val => if addr = 0x04000188 then .send (val ++ val ++ val ++ val) else .other
  | .write16 addr val =>
    if addr = 0x04000184 then .control val
    else if addr = 0x04000188 then .send (val ++ val) else .other
  | .write32 addr val =>
    if addr = 0x04000184 then .control (val.setWidth 16)
    else if addr = 0x04000188 then .send val else .other
  | .read16 _ => .other
  | .read32 addr => if addr = 0x04100000 then .receive else .other

namespace IPC

/-- The FIFOs and their control words are as before and none of their interrupts is requested. -/
structure Outcome.Idle (o : Outcome) (s : IPC) : Prop where
  fifo : o.state.fifo = s.fifo
  fifoCnt : o.state.fifoCnt = s.fifoCnt
  irqs : ∀ r ∈ o.irqs, r.2 = .sync

theorem Outcome.Idle.stay (s : IPC) : (Outcome.stay s).Idle s :=
  ⟨rfl, rfl, fun _ h => absurd h List.not_mem_nil⟩

theorem idle_writeSync (cpu : ARM.Num) (s : IPC) (val : U8) : (writeSync cpu s val).Idle s := by
  refine ⟨rfl, rfl, fun r hr => ?_⟩
  rw [writeSync] at hr
  split_ifs at hr
  · rw [List.mem_singleton.mp hr]
  · exact absurd hr List.not_mem_nil

theorem idle_ioRead16 (cpu : ARM.Num) (s : IPC) (addr : U32) : (ioRead16 cpu s addr).Idle s := by
  rw [ioRead16]
  split_ifs <;> exact ⟨rfl, rfl, fun _ h => absurd h List.not_mem_nil⟩

/-- Everything an operation can do to the FIFOs. -/
def Acts (cpu : ARM.Num) (s : IPC) (o : Outcome) : IPCOp.Kind → Prop
  | .send val => o = sendFIFO cpu s val
  | .control val => o = writeFIFOCnt cpu s val
  | .receive => o = recvFIFO cpu s
  | .other => o.Idle s

theorem acts_ioWrite32FIFO (cpu : ARM.Num) (s : IPC) (addr val : U32) :
    Acts cpu s (ioWrite32FIFO cpu s addr val)
      (if addr = 0x04000188 then .send val else .other) := by
  rw [ioWrite32FIFO]
  split_ifs
  · rfl
  · exact Outcome.Idle.stay s

theorem acts_ioWrite16 (cpu : ARM.Num) (s : IPC) (addr : U32) (val : U16) :
    Acts cpu s (ioWrite16 cpu s addr val)
      (if addr = 0x04000184 then .control val
        else if addr = 0x04000188 then .send (val ++ val) else .other) := by
  rw [ioWrite16]
  by_cases hsync : addr = 0x04000180
  · rw [if_pos hsync, hsync]
    exact idle_writeSync cpu s _
  · rw [if_neg hsync]
    by_cases hcnt : addr = 0x04000184
    · rw [if_pos hcnt, if_pos hcnt]
      rfl
    · rw [if_neg hcnt, if_neg hcnt]
      exact acts_ioWrite32FIFO cpu s addr _

theorem step_acts (s : IPC) (op : IPCOp) : Acts op.cpu s (s.step op) op.kind := by
  obtain ⟨cpu, access⟩ := op
  cases access with
  | write8 addr val =>
    change Acts cpu s (ioWrite8 cpu s addr val) _
    rw [ioWrite8]
    by_cases hsync : addr = 0x04000181
    · rw [if_pos hsync, hsync]
      exact idle_writeSync cpu s _
    · rw [if_neg hsync]
      exact acts_ioWrite32FIFO cpu s addr _
  | write16 addr val => exact acts_ioWrite16 cpu s addr val
  | write32 addr val =>
    change Acts cpu s (ioWrite32 cpu s addr val) (if addr = 0x04000184 then _ else _)
    rw [ioWrite32]
    by_cases hsync : addr = 0x04000180
    · rw [if_pos (Or.inl hsync), hsync]
      exact idle_writeSync cpu s _
    · by_cases hcnt : addr = 0x04000184
      · rw [if_pos (Or.inr hcnt), if_pos hcnt, hcnt]
        rfl
      · rw [if_neg (not_or.mpr ⟨hsync, hcnt⟩), if_neg hcnt]
        exact acts_ioWrite32FIFO cpu s addr val
  | read16 addr => exact idle_ioRead16 cpu s addr
  | read32 addr =>
    change Acts cpu s (ioRead32 cpu s addr) (if addr = 0x04100000 then _ else _)
    rw [ioRead32]
    split_ifs
    · rfl
    · exact idle_ioRead16 cpu s addr

/-! The words that pass through the FIFO that `cpu` writes -/

def queued (s : IPC) (cpu : ARM.Num) : List U32 := (s.fifo cpu).contents

/-- Told by how the number of queued words changed. -/
def traffic (cpu : ARM.Num) (s : IPC) (op : IPCOp) : Option (Traffic U32) :=
  let before := (queued s cpu).length
  let after := (queued (s.step op).state cpu).length
  match op.kind with
  | .send val => if op.cpu = cpu ∧ before < after then some (.accept val) else none
  | .control val => if op.cpu = cpu ∧ val &&& 0x0008 ≠ 0 then some (.discard before) else none
  | .receive =>
    if op.cpu = otherCPU cpu ∧ after < before then (s.step op).value.map .deliver else none
  | .other => none

def Enabled (s : IPC) (cpu : ARM.Num) : Prop := s.fifoCnt cpu &&& 0x8000 ≠ 0

def raiseError (s : IPC) (cpu : ARM.Num) : IPC :=
  { s with fifoCnt := Function.update s.fifoCnt cpu (s.fifoCnt cpu ||| 0x4000) }

def pushed (s : IPC) (cpu : ARM.Num) (val : U32) : IPC :=
  { s with fifo := Function.update s.fifo cpu ((s.fifo cpu).write val) }

def popped (s : IPC) (cpu : ARM.Num) : IPC :=
  { s with fifo := Function.update s.fifo cpu (s.fifo cpu).read.2 }

theorem queued_length_le (s : IPC) (cpu : ARM.Num) : (queued s cpu).length ≤ 16 :=
  (s.fifo cpu).contents_length_le

theorem isEmpty_iff_queued (s : IPC) (cpu : ARM.Num) :
    (s.fifo cpu).isEmpty = true ↔ queued s cpu = [] := (s.fifo cpu).isEmpty_iff

theorem queued_popped (s : IPC) (cpu : ARM.Num) :
    queued (popped s cpu) cpu = (s.fifo cpu).read.2.contents := by
  simp only [queued, popped, Function.update_self]

theorem queued_popped_of_ne (s : IPC) {cpu c : ARM.Num} (h : c ≠ cpu) :
    queued (popped s cpu) c = queued s c := by
  simp only [queued, popped, Function.update_of_ne h]

theorem queued_pushed (s : IPC) {cpu : ARM.Num} (h : (queued s cpu).length < 16) (val : U32) :
    queued (pushed s cpu val) cpu = queued s cpu ++ [val] := by
  simp only [queued, pushed, Function.update_self]
  exact FIFO.write_contents_of_lt _ _ h

theorem queued_pushed_of_ne (s : IPC) {cpu c : ARM.Num} (h : c ≠ cpu) (val : U32) :
    queued (pushed s cpu val) c = queued s c := by
  simp only [queued, pushed, Function.update_of_ne h]

theorem sendFIFO_cases (cpu : ARM.Num) (s : IPC) (val : U32) :
    (¬ s.Enabled cpu ∧ sendFIFO cpu s val = .stay s) ∨
    (s.Enabled cpu ∧ (queued s cpu).length = 16 ∧
      sendFIFO cpu s val = .stay (raiseError s cpu)) ∨
    (s.Enabled cpu ∧ (queued s cpu).length < 16 ∧ sendFIFO cpu s val =
      ⟨pushed s cpu val,
        if s.fifoCnt (otherCPU cpu) &&& 0x0400 ≠ 0 ∧ queued s cpu = [] then
          [(otherCPU cpu, .recv)] else [], none⟩) := by
  have hlen := queued_length_le s cpu
  by_cases hen : s.fifoCnt cpu &&& 0x8000 = 0
  · exact Or.inl ⟨not_not.mpr hen, by rw [sendFIFO, if_pos hen]⟩
  · by_cases hfull : (s.fifo cpu).isFull = true
    · refine Or.inr (Or.inl ⟨hen, (FIFO.isFull_iff _).mp hfull, ?_⟩)
      rw [sendFIFO, if_neg hen, if_pos hfull]
      rfl
    · have hne : (queued s cpu).length ≠ 16 := fun h => hfull ((FIFO.isFull_iff _).mpr h)
      refine Or.inr (Or.inr ⟨hen, by omega, ?_⟩)
      simp only [sendFIFO, if_neg hen, if_neg hfull, isEmpty_iff_queued]
      rfl

theorem recvFIFO_cases (cpu : ARM.Num) (s : IPC) :
    (¬ s.Enabled cpu ∧ ∃ v, recvFIFO cpu s = ⟨s, [], v⟩) ∨
    (s.Enabled cpu ∧ queued s (otherCPU cpu) = [] ∧
      ∃ v, recvFIFO cpu s = ⟨raiseError s cpu, [], v⟩) ∨
    (s.Enabled cpu ∧ ∃ v, queued s (otherCPU cpu) = v :: queued (popped s (otherCPU cpu)) (otherCPU cpu) ∧
      recvFIFO cpu s = ⟨popped s (otherCPU cpu),
        if queued (popped s (otherCPU cpu)) (otherCPU cpu) = [] ∧
            s.fifoCnt (otherCPU cpu) &&& 0x0004 ≠ 0 then
          [(otherCPU cpu, .sendDone)] else [], some v⟩) := by
  by_cases hen : s.fifoCnt cpu &&& 0x8000 = 0
  · refine Or.inl ⟨not_not.mpr hen, some (s.fifo (otherCPU cpu)).peek, ?_⟩
    rw [recvFIFO, if_pos hen]
    rfl
  · cases hq : queued s (otherCPU cpu) with
    | nil =>
      refine Or.inr (Or.inl ⟨hen, rfl, some (s.fifo (otherCPU cpu)).peek, ?_⟩)
      rw [recvFIFO, if_neg hen, if_pos ((isEmpty_iff_queued s _).mpr hq)]
      rfl
    | cons v vs =>
      have hempty : ¬ (s.fifo (otherCPU cpu)).isEmpty = true := by
        rw [isEmpty_iff_queued, hq]
        exact List.cons_ne_nil v vs
      obtain ⟨hval, hrest⟩ := FIFO.read_of_contents_cons _ hq
      have hpop : queued (popped s (otherCPU cpu)) (otherCPU cpu) = vs := by
        rw [queued_popped, hrest]
      refine Or.inr (Or.inr ⟨hen, v, by rw [hpop], ?_⟩)
      simp only [recvFIFO, if_neg hen, if_neg hempty, hpop, ← hrest, ← FIFO.isEmpty_iff]
      rw [hval]
      rfl

theorem queued_eq_of_fifo {s s' : IPC} (h : s'.fifo = s.fifo) (cpu : ARM.Num) :
    queued s' cpu = queued s cpu := by
  rw [queued, h, queued]

theorem queued_writeFIFOCnt (cpu : ARM.Num) (s : IPC) (val : U16) (c : ARM.Num) :
    queued (writeFIFOCnt cpu s val).state c =
      if c = cpu ∧ val &&& 0x0008 ≠ 0 then [] else queued s c := by
  by_cases hc : c = cpu
  · subst hc
    simp only [queued, writeFIFOCnt, Function.update_self, true_and]
    split_ifs
    · exact FIFO.clear_contents _ _
    · rfl
  · rw [if_neg fun h => hc h.1]
    simp only [queued, writeFIFOCnt, Function.update_of_ne hc]

theorem otherCPU_ne (cpu : ARM.Num) : otherCPU cpu ≠ cpu := by
  cases cpu <;> exact ARM.Num.noConfusion

theorem moves_traffic (cpu : ARM.Num) (s : IPC) (op : IPCOp) :
    Traffic.Moves (queued s cpu) (traffic cpu s op) (queued (s.step op).state cpu) := by
  have hacts := step_acts s op
  cases hk : op.kind with
  | send val =>
    rw [hk] at hacts
    simp only [traffic, hk, show s.step op = sendFIFO op.cpu s val from hacts]
    rcases sendFIFO_cases op.cpu s val with ⟨-, h⟩ | ⟨-, -, h⟩ | ⟨-, hroom, h⟩
    · rw [h, if_neg fun hlt => Nat.lt_irrefl _ hlt.2]
      rfl
    · rw [h, if_neg fun hlt => Nat.lt_irrefl _ hlt.2]
      rfl
    · rw [h]
      by_cases hcpu : op.cpu = cpu
      · subst hcpu
        rw [queued_pushed s hroom, if_pos ⟨rfl, by simp⟩]
        rfl
      · rw [if_neg fun hlt => hcpu hlt.1]
        exact queued_pushed_of_ne s (Ne.symm hcpu) val
  | control val =>
    rw [hk] at hacts
    simp only [traffic, hk, show s.step op = writeFIFOCnt op.cpu s val from hacts,
      queued_writeFIFOCnt, eq_comm (a := cpu)]
    split_ifs
    · exact ⟨rfl, rfl⟩
    · rfl
  | receive =>
    rw [hk] at hacts
    simp only [traffic, hk, show s.step op = recvFIFO op.cpu s from hacts]
    rcases recvFIFO_cases op.cpu s with ⟨-, v, h⟩ | ⟨-, -, v, h⟩ | ⟨-, v, hq, h⟩
    · rw [h, if_neg fun hlt => Nat.lt_irrefl _ hlt.2]
      rfl
    · rw [h, if_neg fun hlt => Nat.lt_irrefl _ hlt.2]
      rfl
    · rw [h]
      by_cases hcpu : cpu = otherCPU op.cpu
      · subst hcpu
        rw [if_pos ⟨by cases op.cpu <;> rfl, by rw [hq]; exact Nat.lt_succ_self _⟩]
        exact hq
      · rw [if_neg fun hlt => hcpu (by rw [hlt.1]; cases cpu <;> rfl)]
        exact queued_popped_of_ne s hcpu
  | other =>
    rw [hk] at hacts
    simp only [traffic, hk]
    exact queued_eq_of_fifo hacts.fifo cpu

theorem traffic_run (cpu : ARM.Num) (s : IPC) (ops : List IPCOp) :
    Traffic.Run (queued s cpu) ((s.trace ops).map fun e => traffic cpu e.1 e.2)
      (queued (s.run ops) cpu) := by
  induction ops generalizing s with
  | nil => exact .nil _
  | cons op ops ih => exact .cons (moves_traffic cpu s op) (ih (s.step op).state)

/-! Refused accesses and the error bit -/

theorem sendFIFO_refused_iff (cpu : ARM.Num) (s : IPC) (val : U32) :
    queued (sendFIFO cpu s val).state cpu = queued s cpu ↔
      ¬ s.Enabled cpu ∨ (queued s cpu).length = 16 := by
  rcases sendFIFO_cases cpu s val with ⟨hen, h⟩ | ⟨hen, hfull, h⟩ | ⟨hen, hroom, h⟩
  · rw [h]
    exact iff_of_true rfl (Or.inl hen)
  · rw [h]
    exact iff_of_true rfl (Or.inr hfull)
  · rw [h, queued_pushed s hroom]
    refine iff_of_false (fun heq => ?_) (not_or.mpr ⟨not_not.mpr hen, Nat.ne_of_lt hroom⟩)
    have hlen := congrArg List.length heq
    rw [List.length_append] at hlen
    exact Nat.succ_ne_self _ hlen

/-- A send refused for want of room or an enabled receive from an empty FIFO. -/
def Faults (cpu : ARM.Num) (s : IPC) (op : IPCOp) : Prop :=
  op.cpu = cpu ∧ s.Enabled cpu ∧
    ((∃ val, op.kind = .send val) ∧ (queued s cpu).length = 16 ∨
      op.kind = .receive ∧ queued s (otherCPU cpu) = [])

def Acknowledges (cpu : ARM.Num) (op : IPCOp) : Prop :=
  op.cpu = cpu ∧ ∃ val, op.kind = .control val ∧ val &&& 0x4000 ≠ 0

def HasError (s : IPC) (cpu : ARM.Num) : Prop := s.fifoCnt cpu &&& 0x4000 ≠ 0

def Faulted (cpu : ARM.Num) (es : List (IPC × IPCOp)) : Prop :=
  ∃ before e after, es = before ++ e :: after ∧ Faults cpu e.1 e.2 ∧
    ∀ e' ∈ after, ¬ Acknowledges cpu e'.2

theorem control_and (val acked m : U16) :
    ((val &&& 0x8404) ||| (acked &&& 0x4000)) &&& m =
      (val &&& (0x8404 &&& m)) ||| (acked &&& (0x4000 &&& m)) := by
  rw [BitVec.and_or_distrib_right, BitVec.and_assoc, BitVec.and_assoc]

theorem control_and_error (val acked : U16) :
    ((val &&& 0x8404) ||| (acked &&& 0x4000)) &&& 0x4000 = acked &&& 0x4000 := by
  rw [control_and]
  exact (congrArg (· ||| _) BitVec.and_zero).trans BitVec.zero_or

theorem hasError_raiseError (s : IPC) (cpu : ARM.Num) : (raiseError s cpu).HasError cpu := by
  rw [HasError, raiseError]
  dsimp only
  rw [Function.update_self, BitVec.and_or_distrib_right]
  intro h
  exact absurd (BitVec.or_eq_zero_iff.mp h).2 (by decide)

theorem hasError_raiseError_of_ne (s : IPC) {cpu c : ARM.Num} (h : c ≠ cpu) :
    (raiseError s cpu).HasError c ↔ s.HasError c := by
  rw [HasError, raiseError]
  dsimp only
  rw [Function.update_of_ne h, HasError]

theorem hasError_writeFIFOCnt (cpu : ARM.Num) (s : IPC) (val : U16) (c : ARM.Num) :
    (writeFIFOCnt cpu s val).state.HasError c ↔
      s.HasError c ∧ ¬ (cpu = c ∧ val &&& 0x4000 ≠ 0) := by
  by_cases hc : c = cpu
  · subst hc
    simp only [HasError, writeFIFOCnt, Function.update_self, control_and_error, true_and]
    by_cases hack : val &&& 0x4000 = 0
    · rw [if_neg (not_not.mpr hack)]
      simp only [hack, ne_eq, not_true_eq_false, not_false_eq_true, and_true]
    · rw [if_pos hack, BitVec.and_assoc]
      refine iff_of_false (fun h => h (BitVec.and_zero)) fun h => h.2 hack
  · simp only [HasError, writeFIFOCnt, Function.update_of_ne hc]
    exact (and_iff_left fun h => hc h.1.symm).symm

theorem hasError_step (cpu : ARM.Num) (s : IPC) (op : IPCOp) :
    (s.step op).state.HasError cpu ↔
      Faults cpu s op ∨ (s.HasError cpu ∧ ¬ Acknowledges cpu op) := by
  have hacts := step_acts s op
  rw [Faults, Acknowledges]
  cases hk : op.kind with
  | send val =>
    rw [hk] at hacts
    have hack : ¬ (op.cpu = cpu ∧ ∃ v, IPCOp.Kind.send val = .control v ∧ v &&& 0x4000 ≠ 0) := by
      rintro ⟨-, v, h, -⟩
      cases h
    rw [show s.step op = sendFIFO op.cpu s val from hacts, and_iff_left hack]
    rcases sendFIFO_cases op.cpu s val with ⟨hen, h⟩ | ⟨hen, hfull, h⟩ | ⟨hen, hroom, h⟩
    · rw [h]
      refine (or_iff_right ?_).symm
      rintro ⟨rfl, hen', -⟩
      exact hen hen'
    · rw [h]
      by_cases hcpu : op.cpu = cpu
      · subst hcpu
        exact iff_of_true (hasError_raiseError s _) (Or.inl ⟨rfl, hen, Or.inl ⟨⟨val, rfl⟩, hfull⟩⟩)
      · exact (hasError_raiseError_of_ne s (Ne.symm hcpu)).trans
          (or_iff_right fun hf => hcpu hf.1).symm
    · rw [h]
      refine (or_iff_right ?_).symm
      rintro ⟨rfl, -, ⟨-, hfull⟩ | ⟨h, -⟩⟩
      · exact Nat.ne_of_lt hroom hfull
      · cases h
  | control val =>
    rw [hk] at hacts
    have hfault : ¬ (op.cpu = cpu ∧ s.Enabled cpu ∧
        ((∃ v, IPCOp.Kind.control val = .send v) ∧ (queued s cpu).length = 16 ∨
          IPCOp.Kind.control val = .receive ∧ queued s (otherCPU cpu) = [])) := by
      rintro ⟨-, -, ⟨⟨v, h⟩, -⟩ | ⟨h, -⟩⟩ <;> cases h
    rw [show s.step op = writeFIFOCnt op.cpu s val from hacts, hasError_writeFIFOCnt,
      or_iff_right hfault]
    have hval : (∃ v, IPCOp.Kind.control val = .control v ∧ v &&& 0x4000 ≠ 0) ↔
        val &&& 0x4000 ≠ 0 := by
      constructor
      · rintro ⟨v, h, hv⟩
        cases h
        exact hv
      · exact fun h => ⟨val, rfl, h⟩
    rw [hval]
  | receive =>
    rw [hk] at hacts
    have hack : ¬ (op.cpu = cpu ∧ ∃ v, IPCOp.Kind.receive = .control v ∧ v &&& 0x4000 ≠ 0) := by
      rintro ⟨-, v, h, -⟩
      cases h
    rw [show s.step op = recvFIFO op.cpu s from hacts, and_iff_left hack]
    rcases recvFIFO_cases op.cpu s with ⟨hen, v, h⟩ | ⟨hen, hempty, v, h⟩ | ⟨hen, v, hq, h⟩
    · rw [h]
      refine (or_iff_right ?_).symm
      rintro ⟨rfl, hen', -⟩
      exact hen hen'
    · rw [h]
      by_cases hcpu : op.cpu = cpu
      · subst hcpu
        exact iff_of_true (hasError_raiseError s _) (Or.inl ⟨rfl, hen, Or.inr ⟨rfl, hempty⟩⟩)
      · exact (hasError_raiseError_of_ne s (Ne.symm hcpu)).trans
          (or_iff_right fun hf => hcpu hf.1).symm
    · rw [h]
      refine (or_iff_right ?_).symm
      rintro ⟨rfl, -, ⟨⟨_, h⟩, -⟩ | ⟨-, hempty⟩⟩
      · cases h
      · rw [hempty] at hq
        cases hq
  | other =>
    rw [hk] at hacts
    have hfault : ¬ (op.cpu = cpu ∧ s.Enabled cpu ∧
        ((∃ v, IPCOp.Kind.other = .send v) ∧ (queued s cpu).length = 16 ∨
          IPCOp.Kind.other = .receive ∧ queued s (otherCPU cpu) = [])) := by
      rintro ⟨-, -, ⟨⟨v, h⟩, -⟩ | ⟨h, -⟩⟩ <;> cases h
    have hack : ¬ (op.cpu = cpu ∧ ∃ v, IPCOp.Kind.other = .control v ∧ v &&& 0x4000 ≠ 0) := by
      rintro ⟨-, v, h, -⟩
      cases h
    rw [or_iff_right hfault, and_iff_left hack, HasError, hacts.fifoCnt, HasError]

theorem trace_append (s : IPC) (ops : List IPCOp) (op : IPCOp) :
    s.trace (ops ++ [op]) = s.trace ops ++ [(s.run ops, op)] := by
  induction ops generalizing s with
  | nil => rfl
  | cons o ops ih => exact congrArg ((s, o) :: ·) (ih (s.step o).state)

theorem run_append (s : IPC) (ops : List IPCOp) (op : IPCOp) :
    s.run (ops ++ [op]) = ((s.run ops).step op).state := by
  induction ops generalizing s with
  | nil => rfl
  | cons o ops ih => exact ih (s.step o).state

theorem faulted_append (cpu : ARM.Num) (es : List (IPC × IPCOp)) (e : IPC × IPCOp) :
    Faulted cpu (es ++ [e]) ↔
      Faults cpu e.1 e.2 ∨ (Faulted cpu es ∧ ¬ Acknowledges cpu e.2) := by
  constructor
  · rintro ⟨before, f, after, heq, hf, hack⟩
    rcases List.eq_nil_or_concat after with rfl | ⟨after, g, rfl⟩
    · obtain ⟨-, hlast⟩ := List.append_inj' heq rfl
      cases hlast
      exact Or.inl hf
    · rw [List.concat_eq_append] at heq hack
      rw [← List.cons_append, ← List.append_assoc] at heq
      obtain ⟨rfl, hlast⟩ := List.append_inj' heq rfl
      cases hlast
      refine Or.inr ⟨⟨before, f, after, rfl, hf, fun e' he' => ?_⟩, ?_⟩
      · exact hack e' (List.mem_append_left _ he')
      · exact hack e (List.mem_append_right _ (List.mem_singleton_self e))
  · rintro (hf | ⟨⟨before, f, after, rfl, hf, hack⟩, hlast⟩)
    · exact ⟨es, e, [], rfl, hf, fun _ h => absurd h List.not_mem_nil⟩
    · refine ⟨before, f, after ++ [e], ?_, hf, fun e' he' => ?_⟩
      · rw [List.append_assoc, List.cons_append]
      · rcases List.mem_append.mp he' with h | h
        · exact hack e' h
        · rw [List.mem_singleton.mp h]
          exact hlast

theorem hasError_run (cpu : ARM.Num) (ops : List IPCOp) :
    (reset.run ops).HasError cpu ↔ Faulted cpu (reset.trace ops) := by
  induction ops using List.reverseRecOn with
  | nil =>
    refine iff_of_false (fun h => h (BitVec.zero_and)) ?_
    rintro ⟨before, e, after, heq, -⟩
    exact absurd heq.symm (List.append_ne_nil_of_right_ne_nil _ (List.cons_ne_nil _ _))
  | append_singleton ops op ih =>
    rw [run_append, trace_append, hasError_step, faulted_append, ih]

/-! Interrupt requests -/

/-- The condition of an interrupt of `cpu`. -/
def Line (s : IPC) (cpu : ARM.Num) : IPCIrq → Prop
  | .sendDone => s.fifoCnt cpu &&& 0x0004 ≠ 0 ∧ queued s cpu = []
  | .recv => s.fifoCnt cpu &&& 0x0400 ≠ 0 ∧ queued s (otherCPU cpu) ≠ []
  | .sync => False

def Rises (s : IPC) (o : Outcome) (r : Request) : Prop :=
  ¬ s.Line r.1 r.2 ∧ o.state.Line r.1 r.2

/-- The interrupts of the FIFOs are requested exactly when their condition becomes true. -/
def EdgeExact (s : IPC) (op : IPCOp) : Prop :=
  ∀ r : Request, r.2 ≠ .sync → (r ∈ (s.step op).irqs ↔ Rises s (s.step op) r)

/-- A control write that empties the FIFO while its send-empty interrupt stays enabled. -/
def SilentClear (s : IPC) (op : IPCOp) : Prop :=
  ∃ val, op.kind = .control val ∧ val &&& 0x0008 ≠ 0 ∧ val &&& 0x0004 ≠ 0 ∧
    s.fifoCnt op.cpu &&& 0x0004 ≠ 0 ∧ queued s op.cpu ≠ []

theorem line_congr {s s' : IPC} {r : Request}
    (hdone : s'.fifoCnt r.1 &&& 0x0004 = s.fifoCnt r.1 &&& 0x0004)
    (hrecv : s'.fifoCnt r.1 &&& 0x0400 = s.fifoCnt r.1 &&& 0x0400)
    (hq : ∀ cpu, queued s' cpu = queued s cpu) : s'.Line r.1 r.2 ↔ s.Line r.1 r.2 := by
  obtain ⟨cpu, irq⟩ := r
  cases irq with
  | sync => exact Iff.rfl
  | sendDone =>
    change _ ∧ _ ↔ _ ∧ _
    rw [hdone, hq]
  | recv =>
    change _ ∧ _ ↔ _ ∧ _
    rw [hrecv, hq]

theorem line_raiseError (s : IPC) (cpu : ARM.Num) (r : Request) :
    (raiseError s cpu).Line r.1 r.2 ↔ s.Line r.1 r.2 := by
  have hbits : ∀ m : U16, 0x4000 &&& m = 0 →
      (raiseError s cpu).fifoCnt r.1 &&& m = s.fifoCnt r.1 &&& m := by
    intro m hm
    rw [raiseError]
    dsimp only
    by_cases hc : r.1 = cpu
    · rw [hc, Function.update_self, BitVec.and_or_distrib_right, hm]
      exact BitVec.or_zero
    · rw [Function.update_of_ne hc]
  exact line_congr (hbits _ (by decide)) (hbits _ (by decide)) fun _ => rfl

/-- Nothing is requested where no condition changes. -/
theorem not_rises {s : IPC} {o : Outcome} (h : ∀ r : Request, o.state.Line r.1 r.2 ↔ s.Line r.1 r.2)
    (r : Request) : ¬ Rises s o r := fun hr => hr.1 ((h r).mp hr.2)

theorem rises_pushed {s : IPC} {cpu : ARM.Num} (hroom : (queued s cpu).length < 16) (val : U32)
    (irqs : List Request) (v : Option U32) (r : Request) :
    Rises s ⟨pushed s cpu val, irqs, v⟩ r ↔
      (s.fifoCnt (otherCPU cpu) &&& 0x0400 ≠ 0 ∧ queued s cpu = []) ∧ r = (otherCPU cpu, .recv) := by
  have hself := queued_pushed s hroom val
  have hother := queued_pushed_of_ne s (otherCPU_ne cpu) val
  obtain ⟨c, irq⟩ := r
  cases irq with
  | sync => simp [Rises, Line]
  | sendDone =>
    refine iff_of_false (fun h => ?_) fun h => by cases h.2
    by_cases hc : c = cpu
    · subst hc
      exact absurd (hself ▸ h.2.2) (List.append_ne_nil_of_right_ne_nil _ (List.cons_ne_nil _ _))
    · exact h.1 ⟨h.2.1, (queued_pushed_of_ne s hc val).symm.trans h.2.2⟩
  | recv =>
    by_cases hc : c = otherCPU cpu
    · have hback : otherCPU c = cpu := by
        rw [hc]
        cases cpu <;> rfl
      subst hc
      simp only [Rises, Line, hback, hself, and_true]
      constructor
      · rintro ⟨hbefore, hen, -⟩
        exact ⟨hen, not_not.mp fun hne => hbefore ⟨hen, hne⟩⟩
      · rintro ⟨hen, hempty⟩
        exact ⟨fun h => h.2 hempty, hen,
          List.append_ne_nil_of_right_ne_nil _ (List.cons_ne_nil _ _)⟩
    · have hback : otherCPU c ≠ cpu := fun h => hc (by rw [← h]; cases c <;> rfl)
      refine iff_of_false (fun h => h.1 ⟨h.2.1, ?_⟩) fun h => hc (congrArg Prod.fst h.2)
      exact (queued_pushed_of_ne s hback val).symm ▸ h.2.2

theorem rises_popped {s : IPC} {cpu : ARM.Num} {v : U32}
    (hq : queued s cpu = v :: queued (popped s cpu) cpu)
    (irqs : List Request) (w : Option U32) (r : Request) :
    Rises s ⟨popped s cpu, irqs, w⟩ r ↔
      (queued (popped s cpu) cpu = [] ∧ s.fifoCnt cpu &&& 0x0004 ≠ 0) ∧ r = (cpu, .sendDone) := by
  obtain ⟨c, irq⟩ := r
  cases irq with
  | sync => simp [Rises, Line]
  | sendDone =>
    by_cases hc : c = cpu
    · subst hc
      simp only [Rises, Line, and_true]
      constructor
      · rintro ⟨-, hen, hempty⟩
        exact ⟨hempty, hen⟩
      · rintro ⟨hempty, hen⟩
        exact ⟨fun h => absurd (hq ▸ h.2) (List.cons_ne_nil _ _), hen, hempty⟩
    · refine iff_of_false (fun h => h.1 ⟨h.2.1, ?_⟩) fun h => hc (congrArg Prod.fst h.2)
      exact (queued_popped_of_ne s hc).symm.trans h.2.2
  | recv =>
    refine iff_of_false (fun h => h.1 ⟨h.2.1, ?_⟩) fun h => by cases h.2
    by_cases hc : otherCPU c = cpu
    · change queued s (otherCPU c) ≠ []
      rw [hc, hq]
      exact List.cons_ne_nil _ _
    · exact (queued_popped_of_ne s hc) ▸ h.2.2

section Control

variable (cpu : ARM.Num) (s : IPC) (val : U16)

theorem fifoCnt_writeFIFOCnt (m : U16) (hm : 0x4000 &&& m = 0) (hkeep : 0x8404 &&& m = m) :
    (writeFIFOCnt cpu s val).state.fifoCnt cpu &&& m = val &&& m := by
  simp only [writeFIFOCnt, Function.update_self, control_and, hm, hkeep]
  exact (congrArg (_ ||| ·) BitVec.and_zero).trans BitVec.or_zero

theorem mem_writeFIFOCnt_irqs (r : Request) :
    r ∈ (writeFIFOCnt cpu s val).irqs ↔
      (r = (cpu, .sendDone) ∧ val &&& 0x0004 ≠ 0 ∧ s.fifoCnt cpu &&& 0x0004 = 0 ∧
        queued (writeFIFOCnt cpu s val).state cpu = []) ∨
      (r = (cpu, .recv) ∧ val &&& 0x0400 ≠ 0 ∧ s.fifoCnt cpu &&& 0x0400 = 0 ∧
        queued s (otherCPU cpu) ≠ []) := by
  have hown : queued (writeFIFOCnt cpu s val).state cpu =
      (if val &&& 0x0008 ≠ 0 then (s.fifo cpu).clear 0 else s.fifo cpu).contents := by
    simp only [queued, writeFIFOCnt, Function.update_self]
  have hempty : ∀ c, (!(s.fifo c).isEmpty) = true ↔ queued s c ≠ [] := by
    intro c
    rw [Bool.not_eq_true', ← Bool.not_eq_true, isEmpty_iff_queued]
  rw [hown, ← FIFO.isEmpty_iff, ← hempty]
  simp only [writeFIFOCnt, List.mem_append, List.mem_ite_nil_right, List.mem_singleton]
  rw [and_comm, and_comm (a := _ ∧ _ ∧ _) (b := r = (cpu, .recv))]

theorem edge_writeFIFOCnt (r : Request) (hr : r.2 ≠ .sync)
    (hloud : ¬ (val &&& 0x0008 ≠ 0 ∧ val &&& 0x0004 ≠ 0 ∧ s.fifoCnt cpu &&& 0x0004 ≠ 0 ∧
      queued s cpu ≠ [])) :
    r ∈ (writeFIFOCnt cpu s val).irqs ↔ Rises s (writeFIFOCnt cpu s val) r := by
  have hdone := fifoCnt_writeFIFOCnt cpu s val 0x0004 (by decide) (by decide)
  have hrecv := fifoCnt_writeFIFOCnt cpu s val 0x0400 (by decide) (by decide)
  have hcnt : ∀ c, c ≠ cpu → (writeFIFOCnt cpu s val).state.fifoCnt c = s.fifoCnt c := by
    intro c hc
    simp only [writeFIFOCnt, Function.update_of_ne hc]
  have hq := queued_writeFIFOCnt cpu s val
  have hother := hq (otherCPU cpu)
  rw [if_neg fun h => otherCPU_ne cpu h.1] at hother
  rw [mem_writeFIFOCnt_irqs]
  obtain ⟨c, irq⟩ := r
  by_cases hc : c = cpu
  · subst hc
    cases irq with
    | sync => exact absurd rfl hr
    | sendDone =>
      change _ ↔ ¬ (_ ∧ _) ∧ _ ∧ _
      rw [hdone]
      constructor
      · rintro (⟨-, hval, hcnt4, hempty⟩ | ⟨h, -⟩)
        · exact ⟨fun h => h.1 hcnt4, hval, hempty⟩
        · cases h
      · rintro ⟨hbefore, hval, hempty⟩
        refine Or.inl ⟨rfl, hval, ?_, hempty⟩
        by_contra hcnt4
        have hne : queued s c ≠ [] := fun h => hbefore ⟨hcnt4, h⟩
        rw [hq, if_neg fun h => hloud ⟨h.2, hval, hcnt4, hne⟩] at hempty
        exact hne hempty
    | recv =>
      change _ ↔ ¬ (_ ∧ _) ∧ _ ∧ _
      rw [hrecv, hother]
      constructor
      · rintro (⟨h, -⟩ | ⟨-, hval, hcnt4, hne⟩)
        · cases h
        · exact ⟨fun h => h.1 hcnt4, hval, hne⟩
      · rintro ⟨hbefore, hval, hne⟩
        exact Or.inr ⟨rfl, hval, not_not.mp fun h => hbefore ⟨h, hne⟩, hne⟩
  · refine iff_of_false (by rintro (⟨h, -⟩ | ⟨h, -⟩) <;> exact hc (congrArg Prod.fst h)) ?_
    cases irq with
    | sync => exact absurd rfl hr
    | sendDone =>
      rintro ⟨hbefore, hen, hempty⟩
      rw [hcnt c hc] at hen
      rw [hq, if_neg fun h => hc h.1] at hempty
      exact hbefore ⟨hen, hempty⟩
    | recv =>
      rintro ⟨hbefore, hen, hne⟩
      rw [hcnt c hc] at hen
      refine hbefore ⟨hen, fun hempty => hne ?_⟩
      rw [hq]
      split_ifs
      · rfl
      · exact hempty

theorem silent_writeFIFOCnt (hclear : val &&& 0x0008 ≠ 0) (hval : val &&& 0x0004 ≠ 0)
    (hcnt : s.fifoCnt cpu &&& 0x0004 ≠ 0) (hq : queued s cpu ≠ []) :
    (cpu, IPCIrq.sendDone) ∉ (writeFIFOCnt cpu s val).irqs ∧
      Rises s (writeFIFOCnt cpu s val) (cpu, .sendDone) := by
  constructor
  · rw [mem_writeFIFOCnt_irqs]
    rintro (⟨-, -, h, -⟩ | ⟨h, -⟩)
    · exact hcnt h
    · cases h
  · refine ⟨fun h => hq h.2, ?_, ?_⟩
    · dsimp only
      rwa [fifoCnt_writeFIFOCnt cpu s val 0x0004 (by decide) (by decide)]
    · dsimp only
      rw [queued_writeFIFOCnt, if_pos ⟨rfl, hclear⟩]

end Control

theorem edgeExact_of_stay {s : IPC} {op : IPCOp}
    (hirqs : ∀ r ∈ (s.step op).irqs, r.2 = IPCIrq.sync)
    (hline : ∀ r : Request, (s.step op).state.Line r.1 r.2 ↔ s.Line r.1 r.2) : EdgeExact s op :=
  fun r hr => iff_of_false (fun h => hr (hirqs r h)) (not_rises hline r)

theorem mem_ite_singleton {p : Prop} [Decidable p] {r r' : Request} :
    r ∈ (if p then [r'] else []) ↔ p ∧ r = r' := by
  rw [List.mem_ite_nil_right, List.mem_singleton]

theorem edgeExact_iff (s : IPC) (op : IPCOp) : EdgeExact s op ↔ ¬ SilentClear s op := by
  have hacts := step_acts s op
  have hnil : ∀ r ∈ ([] : List Request), r.2 = IPCIrq.sync := fun _ h => absurd h List.not_mem_nil
  cases hk : op.kind with
  | send val =>
    refine iff_of_true ?_ fun ⟨_, h, _⟩ => by rw [hk] at h; cases h
    rw [hk] at hacts
    have hstep : s.step op = sendFIFO op.cpu s val := hacts
    rcases sendFIFO_cases op.cpu s val with ⟨-, h⟩ | ⟨-, -, h⟩ | ⟨-, hroom, h⟩
    · exact edgeExact_of_stay (by rwa [hstep, h]) (by rw [hstep, h]; exact fun _ => Iff.rfl)
    · exact edgeExact_of_stay (by rwa [hstep, h]) (by rw [hstep, h]; exact line_raiseError s _)
    · intro r _
      rw [hstep, h, rises_pushed hroom]
      exact mem_ite_singleton
  | control val =>
    rw [hk] at hacts
    have hstep : s.step op = writeFIFOCnt op.cpu s val := hacts
    constructor
    · rintro hedge ⟨v, hv, hclear, hval, hcnt, hq⟩
      rw [hk] at hv
      cases hv
      obtain ⟨hnot, hrises⟩ := silent_writeFIFOCnt op.cpu s val hclear hval hcnt hq
      rw [← hstep] at hnot hrises
      exact hnot ((hedge (op.cpu, .sendDone) IPCIrq.noConfusion).mpr hrises)
    · intro hloud r hr
      rw [hstep]
      exact edge_writeFIFOCnt op.cpu s val r hr fun h => hloud ⟨val, hk, h⟩
  | receive =>
    refine iff_of_true ?_ fun ⟨_, h, _⟩ => by rw [hk] at h; cases h
    rw [hk] at hacts
    have hstep : s.step op = recvFIFO op.cpu s := hacts
    rcases recvFIFO_cases op.cpu s with ⟨-, v, h⟩ | ⟨-, -, v, h⟩ | ⟨-, v, hq, h⟩
    · exact edgeExact_of_stay (by rwa [hstep, h]) (by rw [hstep, h]; exact fun _ => Iff.rfl)
    · exact edgeExact_of_stay (by rwa [hstep, h]) (by rw [hstep, h]; exact line_raiseError s _)
    · intro r _
      rw [hstep, h, rises_popped hq]
      exact mem_ite_singleton
  | other =>
    refine iff_of_true ?_ fun ⟨_, h, _⟩ => by rw [hk] at h; cases h
    rw [hk] at hacts
    have hidle : (s.step op).Idle s := hacts
    refine edgeExact_of_stay hidle.irqs fun r => line_congr ?_ ?_ (queued_eq_of_fifo hidle.fifo)
    · rw [hidle.fifoCnt]
    · rw [hidle.fifoCnt]

/-- What is expected of a run from reset. -/
structure FIFOSpec (ops : List IPCOp) : Prop where
  kept : ∀ cpu,
    let ts := (reset.trace ops).map fun e => traffic cpu e.1 e.2
    Traffic.kept ts = Traffic.delivered ts ++ queued (reset.run ops) cpu
  refused : ∀ e ∈ reset.trace ops, ∀ val, e.2.kind = .send val →
    (queued (e.1.step e.2).state e.2.cpu = queued e.1 e.2.cpu ↔
      ¬ e.1.Enabled e.2.cpu ∨ (queued e.1 e.2.cpu).length = 16)
  error : ∀ cpu, (reset.run ops).HasError cpu ↔ Faulted cpu (reset.trace ops)
  edges : ∀ e ∈ reset.trace ops, EdgeExact e.1 e.2

theorem fifo_run (ops : List IPCOp) :
    FIFOSpec ops ↔ ∀ e ∈ reset.trace ops, ¬ SilentClear e.1 e.2 := by
  constructor
  · exact fun h e he => (edgeExact_iff e.1 e.2).mp (h.edges e he)
  · intro h
    refine ⟨fun cpu => (traffic_run cpu reset ops).kept_eq, fun e _ val hval => ?_,
      fun cpu => hasError_run cpu ops, fun e he => (edgeExact_iff e.1 e.2).mpr (h e he)⟩
    have hacts := step_acts e.1 e.2
    rw [hval] at hacts
    rw [show e.1.step e.2 = sendFIFO e.2.cpu e.1 val from hacts]
    exact sendFIFO_refused_iff e.2.cpu e.1 val

/-- The ARM9 enables its FIFO and the send-empty interrupt, sends a word and clears the FIFO. -/
def clearOps : List IPCOp :=
  [⟨.arm9, .write16 0x04000184 0x8004⟩, ⟨.arm9, .write32 0x04000188 1⟩,
    ⟨.arm9, .write16 0x04000184 0x800C⟩]

theorem fifo_run_clear : ¬ FIFOSpec clearOps := by
  intro h
  have hedge := h.edges (reset.run (clearOps.take 2), ⟨.arm9, .write16 0x04000184 0x800C⟩)
    (List.mem_cons_of_mem _ (List.mem_cons_of_mem _ (List.mem_cons_self ..)))
  exact (edgeExact_iff _ _).mp hedge ⟨0x800C, by decide, by decide, by decide, by decide, by decide⟩

end IPC
end MelonDS.NDS

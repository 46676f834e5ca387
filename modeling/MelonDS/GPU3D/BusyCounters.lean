import MelonDS.GPU3D.Charges
import MelonDS.GPU3D.SavestateRun

/-!
# The busy counters and the queues

An entry is counted when it enters the pipe or the command FIFO, from the program or from the
stall queue, and taken off when its command runs. A test is counted by its entries. `Owes`
says that the counters stand for what the pipe and the FIFO hold and for what has been read
without its command having run.
-/

namespace MelonDS.GPU3D

def isPushPop (e : CmdFIFOEntry) : Bool := e.command = 0x11 ∨ e.command = 0x12
def isTest (e : CmdFIFOEntry) : Bool :=
  e.command = 0x70 ∨ e.command = 0x71 ∨ e.command = 0x72

namespace CommandEngine

/-- What the pipe and the command FIFO hold; the stall queue is not part of them. -/
def accepted (q : CommandEngine) : List CmdFIFOEntry := q.cmdPIPE.contents ++ q.cmdFIFO.contents

theorem contents_eq (q : CommandEngine) :
    q.contents = q.accepted ++ q.cmdStallQueue.contents := rfl

theorem length_accepted_le (q : CommandEngine) : q.accepted.length ≤ 260 := by
  have hpipe := q.cmdPIPE.contents_length_le
  have hfifo := q.cmdFIFO.contents_length_le
  rw [accepted, List.length_append]
  omega

theorem Layered.accepted_nil {q : CommandEngine} (h : q.Layered)
    (hpipe : q.cmdPIPE.contents = []) : q.accepted = [] := by
  have hfifo : q.cmdFIFO.contents = [] := by
    by_contra hne
    have hlevel := h.fifo hne
    rw [FIFO.level_eq_length, hpipe] at hlevel
    exact absurd hlevel (by decide)
  rw [accepted, hpipe, hfifo]
  rfl

/-- `p` pushes and pops and `t` entries of tests have been read and have not run; `r` says
that an entry is being executed. -/
structure Owes (q : CommandEngine) (r : Prop) (p t : ℕ) : Prop where
  pushPops : q.numPushPopCommands.toNat = q.accepted.countP isPushPop + p
  tests : q.numTestCommands.toNat = q.accepted.countP isTest + t
  few : p ≤ 1 ∧ t ≤ 3
  pushBit : q.numPushPopCommands ≠ 0 → q.gxStat.getLsbD 14 = true
  testBit : q.numTestCommands ≠ 0 → q.gxStat.getLsbD 0 = true
  busy : r ∨ q.accepted ≠ [] → q.gxStat.getLsbD 27 = true

variable {q q' : CommandEngine} {r : Prop} {p t : ℕ}

/-- `Owes` is about the pipe, the FIFO, the counters and the status register. -/
theorem Owes.congr (h : q.Owes r p t) (haccepted : q'.accepted = q.accepted)
    (hpush : q'.numPushPopCommands = q.numPushPopCommands)
    (htest : q'.numTestCommands = q.numTestCommands)
    (hstat : ∀ i ∈ [0, 14, 27], q'.gxStat.getLsbD i = q.gxStat.getLsbD i) :
    q'.Owes r p t where
  pushPops := by rw [hpush, haccepted, h.pushPops]
  tests := by rw [htest, haccepted, h.tests]
  few := h.few
  pushBit := by
    rw [hpush, hstat 14 (by decide)]
    exact h.pushBit
  testBit := by
    rw [htest, hstat 0 (by decide)]
    exact h.testBit
  busy := by
    rw [haccepted, hstat 27 (by decide)]
    exact h.busy

/-! ## Writing -/

theorem toNat_succ {x : U32} {n : ℕ} (hx : x.toNat = n) (hn : n < 1000) :
    (x + 1).toNat = n + 1 := by
  rw [BitVec.toNat_add, hx]
  exact Nat.mod_eq_of_lt (by change n + 1 < 2 ^ 32; omega)

theorem getLsbD_or_self (x : U32) {n : ℕ} (hn : n < 32) : (x ||| bit 32 n).getLsbD n = true := by
  rw [BitVec.getLsbD_or, getLsbD_bit n n hn, decide_eq_true rfl, Bool.or_true]

/-- What `noteCommand` does to the counters and the busy bits. -/
theorem noteCommand_counters (q : CommandEngine) (e : CmdFIFOEntry) :
    (q.noteCommand e).numPushPopCommands =
        (if isPushPop e then q.numPushPopCommands + 1 else q.numPushPopCommands) ∧
      (q.noteCommand e).numTestCommands =
        (if isTest e then q.numTestCommands + 1 else q.numTestCommands) ∧
      (q.noteCommand e).gxStat.getLsbD 27 = true ∧
      (q.noteCommand e).gxStat.getLsbD 14 = (q.gxStat.getLsbD 14 || isPushPop e) ∧
      (q.noteCommand e).gxStat.getLsbD 0 = (q.gxStat.getLsbD 0 || isTest e) := by
  have h27 := getLsbD_or_self q.gxStat (n := 27) (by decide)
  have h14 := getLsbD_or_bit q.gxStat (n := 27) (i := 14) (by decide)
  have h0 := getLsbD_or_bit q.gxStat (n := 27) (i := 0) (by decide)
  by_cases hpush : e.command = 0x11 ∨ e.command = 0x12
  · have hp : isPushPop e = true := decide_eq_true hpush
    have ht : isTest e = false := by
      rcases hpush with h | h <;> rw [isTest, h] <;> rfl
    have hnote : q.noteCommand e =
        { q with
          gxStat := q.gxStat ||| bit 32 27 ||| bit 32 14
          numPushPopCommands := q.numPushPopCommands + 1 } := if_pos hpush
    rw [hnote, hp, ht]
    refine ⟨rfl, rfl, ?_, ?_, ?_⟩
    · exact (getLsbD_or_bit _ (by decide)).trans h27
    · exact (getLsbD_or_self _ (by decide)).trans (Bool.or_true _).symm
    · exact ((getLsbD_or_bit _ (by decide)).trans h0).trans (Bool.or_false _).symm
  · have hp : isPushPop e = false := decide_eq_false hpush
    by_cases htest : e.command = 0x70 ∨ e.command = 0x71 ∨ e.command = 0x72
    · have ht : isTest e = true := decide_eq_true htest
      have hnote : q.noteCommand e =
          { q with
            gxStat := q.gxStat ||| bit 32 27 ||| bit 32 0
            numTestCommands := q.numTestCommands + 1 } := (if_neg hpush).trans (if_pos htest)
      rw [hnote, hp, ht]
      refine ⟨rfl, rfl, ?_, ?_, ?_⟩
      · exact (getLsbD_or_bit _ (by decide)).trans h27
      · exact ((getLsbD_or_bit _ (by decide)).trans h14).trans (Bool.or_false _).symm
      · exact (getLsbD_or_self _ (by decide)).trans (Bool.or_true _).symm
    · have ht : isTest e = false := decide_eq_false htest
      have hnote : q.noteCommand e = { q with gxStat := q.gxStat ||| bit 32 27 } :=
        (if_neg hpush).trans (if_neg htest)
      rw [hnote, hp, ht]
      exact ⟨rfl, rfl, h27, h14.trans (Bool.or_false _).symm, h0.trans (Bool.or_false _).symm⟩

/-- A counter whose entries are the ones with `p` goes up with the entry that arrives. -/
theorem count_noted {x : U32} {es : List CmdFIFOEntry} {p : CmdFIFOEntry → Bool} {owed : ℕ}
    (hx : x.toNat = es.countP p + owed) (hlen : es.length ≤ 260) (howed : owed ≤ 3)
    (e : CmdFIFOEntry) :
    (if p e then x + 1 else x).toNat = (es ++ [e]).countP p + owed := by
  have hcount := List.countP_le_length (p := p) (l := es)
  rw [List.countP_append, List.countP_singleton]
  split_ifs with he
  · rw [toNat_succ hx (by omega)]
    omega
  · rw [hx]
    omega

theorem Owes.note (h : q.Owes r p t) {e : CmdFIFOEntry}
    (haccepted : q'.accepted = q.accepted ++ [e])
    (hpush : q'.numPushPopCommands = q.numPushPopCommands)
    (htest : q'.numTestCommands = q.numTestCommands) (hstat : q'.gxStat = q.gxStat) :
    (q'.noteCommand e).Owes r p t := by
  obtain ⟨hp, ht, h27, h14, h0⟩ := noteCommand_counters q' e
  have hnoted : (q'.noteCommand e).accepted = q.accepted ++ [e] := by
    rw [accepted, noteCommand_cmdPIPE, noteCommand_cmdFIFO]
    exact haccepted
  have hlen := q.length_accepted_le
  have hcountPush := count_noted h.pushPops hlen (by have := h.few.1; omega) e
  have hcountTest := count_noted h.tests hlen h.few.2 e
  refine ⟨?_, ?_, h.few, ?_, ?_, fun _ => h27⟩
  · rw [hp, hpush, hnoted]
    exact hcountPush
  · rw [ht, htest, hnoted]
    exact hcountTest
  · rw [hp, hpush, h14, hstat]
    split_ifs with he
    · exact fun _ => by rw [he, Bool.or_true]
    · exact fun hne => by rw [h.pushBit hne, Bool.true_or]
  · rw [ht, htest, h0, hstat]
    split_ifs with he
    · exact fun _ => by rw [he, Bool.or_true]
    · exact fun hne => by rw [h.testBit hne, Bool.true_or]

/-- An entry that stalls is counted when it leaves the stall queue. -/
theorem Owes.cmdFIFOWrite (h : q.Owes r p t) (e : CmdFIFOEntry) :
    (q.cmdFIFOWrite e).Owes r p t := by
  unfold CommandEngine.cmdFIFOWrite
  split_ifs with hpipe hfull
  · simp only [Bool.and_eq_true, Bool.not_eq_true', FIFO.isEmpty_iff] at hpipe
    have hlt : q.cmdPIPE.contents.length < 4 := by
      have hle := q.cmdPIPE.contents_length_le
      have hne : q.cmdPIPE.contents.length ≠ 4 := by
        rw [Ne, ← FIFO.isFull_iff, hpipe.2]
        decide
      omega
    refine h.note ?_ rfl rfl rfl
    rw [accepted, accepted, FIFO.write_contents_of_lt _ e hlt, hpipe.1, List.append_nil,
      List.append_nil]
  · exact h.congr rfl rfl rfl fun _ _ => rfl
  · have hlt : q.cmdFIFO.contents.length < 256 := by
      have hle := q.cmdFIFO.contents_length_le
      have hne : q.cmdFIFO.contents.length ≠ 256 := fun heq => hfull ((FIFO.isFull_iff _).mpr heq)
      omega
    refine h.note ?_ rfl rfl rfl
    rw [accepted, accepted, FIFO.write_contents_of_lt _ e hlt, List.append_assoc]

theorem Owes.foldl_cmdFIFOWrite (h : q.Owes r p t) (es : List CmdFIFOEntry) :
    (es.foldl CommandEngine.cmdFIFOWrite q).Owes r p t := by
  induction es generalizing q with
  | nil => exact h
  | cons e es ih => exact ih (h.cmdFIFOWrite e)

/-! ## Reading -/

theorem Owes.drainStallQueue (h : q.Owes r p t) (rounds : ℕ) :
    (CommandEngine.drainStallQueue rounds q).Owes r p t := by
  induction rounds generalizing q with
  | zero => exact h
  | succ rounds ih =>
    rw [CommandEngine.drainStallQueue]
    split_ifs
    · exact h
    · exact h
    · refine ih (Owes.cmdFIFOWrite ?_ _)
      exact h.congr rfl rfl rfl fun _ _ => rfl

theorem Owes.emptyStallQueue (h : q.Owes r p t) :
    q.emptyStallQueue.Owes r p t := by
  unfold CommandEngine.emptyStallQueue
  dsimp only
  split_ifs
  · exact h
  · exact (h.drainStallQueue _).congr rfl rfl rfl fun _ _ => rfl
  · exact h.drainStallQueue _

theorem Owes.refillPIPE (h : q.Owes r p t) (hroom : q.cmdPIPE.contents.length < 4) :
    q.refillPIPE.Owes r p t := by
  obtain ⟨-, hpipe, hfifo, -⟩ := refillPIPE_spec hroom
  have haccepted : q.refillPIPE.accepted = q.accepted := by
    rw [accepted, accepted, hpipe, hfifo, List.append_assoc, ← List.drop_one, List.take_append_drop]
  have hrest : q.refillPIPE.numPushPopCommands = q.numPushPopCommands ∧
      q.refillPIPE.numTestCommands = q.numTestCommands ∧ q.refillPIPE.gxStat = q.gxStat := by
    unfold CommandEngine.refillPIPE
    split_ifs <;> exact ⟨rfl, rfl, rfl⟩
  exact h.congr haccepted hrest.1 hrest.2.1 fun _ _ => by rw [hrest.2.2]

theorem Owes.checkFIFODMA (h : q.Owes r p t) : q.checkFIFODMA.Owes r p t := by
  unfold CommandEngine.checkFIFODMA
  split_ifs
  · exact h.congr rfl rfl rfl fun _ _ => rfl
  · exact h

/-- The entry read is still counted. -/
theorem Owes.cmdFIFORead (h : q.Owes r 0 t) (ht : t ≤ 2) {e : CmdFIFOEntry}
    {rest : List CmdFIFOEntry} (hcons : q.cmdPIPE.contents = e :: rest) :
    q.cmdFIFORead.1 = e ∧
      q.cmdFIFORead.2.Owes True (if isPushPop e then 1 else 0) (t + if isTest e then 1 else 0) := by
  obtain ⟨he, hrest⟩ := FIFO.read_of_contents_cons _ hcons
  have hlen : rest.length < 4 := by
    have hle := q.cmdPIPE.contents_length_le
    rw [hcons] at hle
    exact hle
  have haccepted : q.accepted =
      e :: ({ q with cmdPIPE := q.cmdPIPE.read.2 } : CommandEngine).accepted := by
    rw [accepted, accepted, hcons, hrest, List.cons_append]
  have hread : ({ q with cmdPIPE := q.cmdPIPE.read.2 } : CommandEngine).Owes
      True (if isPushPop e then 1 else 0) (t + if isTest e then 1 else 0) := by
    refine ⟨?_, ?_, ⟨by split_ifs <;> omega, by split_ifs <;> omega⟩, h.pushBit, h.testBit, ?_⟩
    · have hcount := h.pushPops
      rw [haccepted, List.countP_cons] at hcount
      exact hcount
    · have hcount := h.tests
      rw [haccepted, List.countP_cons] at hcount
      change q.numTestCommands.toNat = _
      omega
    · exact fun _ => h.busy (.inr (by rw [haccepted]; exact List.cons_ne_nil _ _))
  refine ⟨by unfold CommandEngine.cmdFIFORead; dsimp only; split_ifs <;> exact he, ?_⟩
  generalize (if isPushPop e then 1 else 0) = p, t + (if isTest e then 1 else 0) = t' at hread ⊢
  unfold CommandEngine.cmdFIFORead
  dsimp only
  split_ifs
  · -- two refills, then the stall queue
    have hroom : q.cmdPIPE.read.2.contents.length < 4 := by
      rw [hrest]
      exact hlen
    have hpipe := (refillPIPE_spec (g := { q with cmdPIPE := q.cmdPIPE.read.2 }) hroom).2.1
    have hroom' : (CommandEngine.refillPIPE
        { q with cmdPIPE := q.cmdPIPE.read.2 }).cmdPIPE.contents.length < 4 := by
      rename_i hlow
      rw [FIFO.level_eq_length, hrest] at hlow
      rw [hpipe, hrest, List.length_append, List.length_take]
      omega
    have hfilled := ((hread.refillPIPE hroom).refillPIPE hroom').emptyStallQueue
    exact hfilled.checkFIFODMA.congr rfl rfl rfl fun _ _ => rfl
  · exact hread

end CommandEngine
end MelonDS.GPU3D

import MelonDS.GPU3D.BusyRun

/-!
# The busy counters in every run

A run interleaves the register accesses of the program, `Run`, VBlanks and single calls of
`ExecuteCommand`. The record next to the engine keeps the entries its queues have taken, so
that the counters can be compared with what is left of them.
-/

namespace MelonDS.GPU3D

/-! ## What the queues take -/

namespace CommandEngine

/-- The entries that find room; the others are lost at the full stall queue. -/
def admitted : CommandEngine → List CmdFIFOEntry → List CmdFIFOEntry
  | _, [] => []
  | q, e :: es =>
    (if q.cmdStallQueue.isFull then [] else [e]) ++ admitted (q.cmdFIFOWrite e) es

/-- What a store to the command area adds to the queues. -/
def stored (q : CommandEngine) (addr val : U32) : List CmdFIFOEntry :=
  let e := q.enqueued addr val
  CommandEngine.admitted { q with unpacker := e.2 } e.1

/-- A full stall queue comes with a full FIFO, so the entry goes nowhere. -/
theorem cmdFIFOWrite_of_full {q : CommandEngine} (h : q.Layered)
    (hfull : q.cmdStallQueue.isFull = true) (e : CmdFIFOEntry) :
    q.cmdFIFOWrite e = { q with gxStall := true } := by
  have hlength := (FIFO.isFull_iff _).mp hfull
  have hstall : q.cmdStallQueue.contents ≠ [] := by
    intro hnil
    rw [hnil] at hlength
    exact absurd hlength (by decide)
  have hfifo := h.stall hstall
  have hempty : q.cmdFIFO.isEmpty = false := by
    rw [Bool.eq_false_iff, Ne, FIFO.isEmpty_iff]
    intro hnil
    have hlen := (FIFO.isFull_iff _).mp hfifo
    rw [hnil] at hlen
    exact absurd hlen (by decide)
  rw [CommandEngine.cmdFIFOWrite, hempty, Bool.false_and, if_neg Bool.false_ne_true,
    if_pos hfifo, FIFO.write_of_full _ e hlength]

theorem foldl_admitted {q : CommandEngine} (h : q.Layered) (es : List CmdFIFOEntry) :
    (es.foldl CommandEngine.cmdFIFOWrite q).contents = q.contents ++ q.admitted es ∧
      (es.foldl CommandEngine.cmdFIFOWrite q).Layered := by
  induction es generalizing q with
  | nil => exact ⟨(List.append_nil _).symm, h⟩
  | cons e es ih =>
    rw [admitted, List.foldl_cons]
    split_ifs with hfull
    · have hwrite := cmdFIFOWrite_of_full h hfull e
      have hlayered : (q.cmdFIFOWrite e).Layered := by
        rw [hwrite]
        exact ⟨h.stall, h.fifo⟩
      have hcontents : (q.cmdFIFOWrite e).contents = q.contents := by
        rw [hwrite]
        rfl
      rw [List.nil_append, ← hcontents]
      exact ih hlayered
    · have hroom : q.cmdStallQueue.level < 64 := by
        have hle := q.cmdStallQueue.contents_length_le
        rw [FIFO.level_eq_length]
        exact lt_of_le_of_ne hle fun heq => hfull ((FIFO.isFull_iff _).mpr heq)
      obtain ⟨hcontents, hlayered⟩ := cmdFIFOWrite_spec e h hroom
      rw [← List.append_assoc, ← hcontents]
      exact ih hlayered

end CommandEngine

/-- An entry that is noted makes the engine busy, one that stalls changes no bit. -/
theorem Idle.cmdFIFOWrite {g : GPU3D} {q : CommandEngine} (h : Idle { g with queue := q })
    (e : CmdFIFOEntry) : Idle { g with queue := q.cmdFIFOWrite e } := by
  rw [CommandEngine.cmdFIFOWrite]
  split_ifs
  · exact fun hidle => absurd ((CommandEngine.noteCommand_counters _ e).2.2.1.symm.trans hidle)
      (by decide)
  · exact h
  · exact fun hidle => absurd ((CommandEngine.noteCommand_counters _ e).2.2.1.symm.trans hidle)
      (by decide)

theorem Idle.foldl_cmdFIFOWrite {g : GPU3D} {q : CommandEngine} (h : Idle { g with queue := q })
    (es : List CmdFIFOEntry) :
    Idle { g with queue := es.foldl CommandEngine.cmdFIFOWrite q } := by
  induction es generalizing q with
  | nil => exact h
  | cons e es ih => exact ih (h.cmdFIFOWrite e)

/-! ## Runs -/

inductive BusyOp
  | engine (op : EngineOp)
  | execute

/-- What a store hands to the queues that has room there. -/
def EngineOp.taken (g : GPU3D) : EngineOp → List CmdFIFOEntry
  | .write32 addr val =>
    if AtPort addr g then g.queue.stored addr val else []
  | _ => []

/-- The engine and the entries its queues have taken. -/
structure Recorded where
  gpu : GPU3D
  taken : List CmdFIFOEntry

namespace Recorded

def reset : Recorded := ⟨initial, []⟩

/-- `Run` calls `ExecuteCommand` only while the pipe is in use. -/
def step (r : Recorded) : BusyOp → Recorded
  | .engine op => ⟨(op.apply r.gpu).2, r.taken ++ op.taken r.gpu⟩
  | .execute => if r.gpu.queue.cmdPIPE.isEmpty then r else { r with gpu := r.gpu.executeCommand }

def run (r : Recorded) (ops : List BusyOp) : Recorded := ops.foldl step r

/-- The entries that have left the queues. -/
def executed (r : Recorded) : List CmdFIFOEntry :=
  r.taken.take (r.taken.length - r.gpu.queue.contents.length)

/-- The counters fit what has been taken, executed and left. -/
structure Counting (r : Recorded) : Prop where
  taken : r.taken = r.executed ++ r.gpu.queue.contents
  counted : Counted r.gpu (openAfter r.executed)
  idle : Idle r.gpu

theorem executed_of_append {r : Recorded} {es : List CmdFIFOEntry}
    (h : r.taken = es ++ r.gpu.queue.contents) : r.executed = es := by
  rw [executed, h, List.length_append, Nat.add_sub_cancel, List.take_left]

theorem counting_of_append {r : Recorded} (es : List CmdFIFOEntry)
    (h : r.taken = es ++ r.gpu.queue.contents) (hcounted : Counted r.gpu (openAfter es))
    (hidle : Idle r.gpu) : r.Counting := by
  have hexecuted := executed_of_append h
  exact ⟨by rw [hexecuted]; exact h, by rw [hexecuted]; exact hcounted, hidle⟩

theorem counting_reset : reset.Counting := by
  refine counting_of_append [] rfl
    ⟨⟨fun h => absurd rfl h, fun h => absurd rfl h⟩, ?_, rfl, trivial, trivial⟩ ?_
  · exact ⟨rfl, rfl, ⟨Nat.zero_le _, Nat.zero_le _⟩, fun h => absurd rfl h, fun h => absurd rfl h,
      fun h => h.elim False.elim fun h => absurd rfl h⟩
  · exact fun _ => ⟨fun h => absurd h (by decide), fun h => absurd h (by decide)⟩

theorem Counting.progress {r : Recorded} (h : r.Counting) {g : GPU3D} (hprogress : Progress r.gpu g) :
    Counting { r with gpu := g } := by
  obtain ⟨es, hcontents, hcounted, hidle⟩ := hprogress _ h.counted h.idle
  refine counting_of_append (r.executed ++ es) ?_ ?_ hidle
  · rw [List.append_assoc, ← hcontents]
    exact h.taken
  · rw [openAfter, List.foldl_append]
    exact hcounted

/-- A store to a command port appends what the queues take. -/
theorem Counting.port {r : Recorded} (h : r.Counting) {addr val : U32} (hport : AtPort addr r.gpu)
    (hgrouped : Grouped none (r.taken ++ r.gpu.queue.stored addr val)) :
    Counting ⟨r.gpu.write32 addr val, r.taken ++ r.gpu.queue.stored addr val⟩ := by
  rw [write32_port hport]
  have hlayered : CommandEngine.Layered
      { r.gpu.queue with unpacker := (r.gpu.queue.enqueued addr val).2 } :=
    ⟨h.counted.layered.stall, h.counted.layered.fifo⟩
  obtain ⟨hcontents, hlayered'⟩ :=
    CommandEngine.foldl_admitted hlayered (r.gpu.queue.enqueued addr val).1
  change (r.gpu.queue.write32 addr val).contents =
    r.gpu.queue.contents ++ r.gpu.queue.stored addr val at hcontents
  have howes : (r.gpu.queue.write32 addr val).Owes False 0 (testsRead (openAfter r.executed)) := by
    refine CommandEngine.Owes.foldl_cmdFIFOWrite ?_ _
    exact h.counted.owes.congr rfl rfl rfl fun _ _ => rfl
  have hrest : Grouped (openAfter r.executed) (r.gpu.queue.write32 addr val).contents := by
    rw [hcontents]
    rw [h.taken, List.append_assoc] at hgrouped
    exact (grouped_append.mp hgrouped).2
  refine counting_of_append r.executed ?_ ?_ ?_
  · change r.taken ++ _ = _
    rw [hcontents, ← List.append_assoc, ← h.taken]
  · exact ⟨hlayered', howes, h.counted.params, h.counted.partialCommand, hrest⟩
  · have hidle : Idle
        { r.gpu with
          queue := { r.gpu.queue with unpacker := (r.gpu.queue.enqueued addr val).2 } } := h.idle
    exact hidle.foldl_cmdFIFOWrite (r.gpu.queue.enqueued addr val).1

theorem Counting.apply {r : Recorded} (h : r.Counting) (op : EngineOp)
    (hgrouped : Grouped none (r.step (.engine op)).taken) : (r.step (.engine op)).Counting := by
  have hsame {g : GPU3D} (hprogress : Progress r.gpu g) : Counting ⟨g, r.taken ++ []⟩ := by
    rw [List.append_nil]
    exact h.progress hprogress
  cases op with
  | write8 addr val => exact hsame (steady_write8 addr val r.gpu).progress
  | write16 addr val => exact hsame (steady_write16 addr val r.gpu).progress
  | write32 addr val =>
    by_cases hport : AtPort addr r.gpu
    · have htaken : (r.step (.engine (.write32 addr val))).taken =
          r.taken ++ r.gpu.queue.stored addr val := congrArg (r.taken ++ ·) (if_pos hport)
      have hstep : r.step (.engine (.write32 addr val)) =
          ⟨r.gpu.write32 addr val, r.taken ++ r.gpu.queue.stored addr val⟩ :=
        congrArg (Recorded.mk (r.gpu.write32 addr val)) htaken
      rw [htaken] at hgrouped
      rw [hstep]
      exact h.port hport hgrouped
    · have hstep : r.step (.engine (.write32 addr val)) =
          ⟨r.gpu.write32 addr val, r.taken ++ []⟩ :=
        congrArg (fun es => Recorded.mk (r.gpu.write32 addr val) (r.taken ++ es)) (if_neg hport)
      rw [hstep]
      exact hsame (steady_write32 hport val).progress
  | read8 now addr => exact hsame (progress_read8 now addr r.gpu)
  | read16 now addr => exact hsame (progress_read16 now addr r.gpu)
  | read32 now addr => exact hsame (progress_read32 now addr r.gpu)
  | run now => exact hsame (progress_run now r.gpu)
  | vblank => exact hsame (steady_vblank r.gpu).progress
  | setEnabled geometry rendering =>
    exact hsame (steady_setEnabled geometry rendering r.gpu).progress
  | setRenderXPos xpos mask => exact hsame (steady_setRenderXPos xpos mask r.gpu).progress

theorem Counting.step {r : Recorded} (h : r.Counting) (op : BusyOp)
    (hgrouped : Grouped none (r.step op).taken) : (r.step op).Counting := by
  cases op with
  | engine op => exact h.apply op hgrouped
  | execute =>
    rw [Recorded.step]
    split_ifs with hpipe
    · exact h
    · exact h.progress (progress_executeCommand fun hnil => hpipe ((FIFO.isEmpty_iff _).mpr hnil))

theorem taken_step (r : Recorded) (op : BusyOp) : ∃ more, (r.step op).taken = r.taken ++ more := by
  cases op with
  | engine op => exact ⟨op.taken r.gpu, rfl⟩
  | execute =>
    refine ⟨[], ?_⟩
    rw [step, List.append_nil]
    split_ifs <;> rfl

theorem taken_run (r : Recorded) (ops : List BusyOp) :
    ∃ more, (r.run ops).taken = r.taken ++ more := by
  induction ops generalizing r with
  | nil => exact ⟨[], (List.append_nil _).symm⟩
  | cons op ops ih =>
    obtain ⟨first, hfirst⟩ := taken_step r op
    obtain ⟨more, hmore⟩ := ih (r.step op)
    refine ⟨first ++ more, ?_⟩
    rw [← List.append_assoc, ← hfirst]
    exact hmore

theorem Counting.run {r : Recorded} (h : r.Counting) {ops : List BusyOp}
    (hgrouped : Grouped none (r.run ops).taken) : (r.run ops).Counting := by
  induction ops generalizing r with
  | nil => exact h
  | cons op ops ih =>
    obtain ⟨more, hmore⟩ := taken_run (r.step op) ops
    have hfirst : Grouped none (r.step op).taken := by
      have hrun : Grouped none ((r.step op).run ops).taken := hgrouped
      rw [hmore] at hrun
      exact (grouped_append.mp hrun).1
    exact ih (h.step op hfirst) hgrouped

/-! ## The counters and the busy bits -/

/-- Everything taken has run, and no command waits for a parameter. -/
def Drained (r : Recorded) : Prop := r.gpu.queue.contents = [] ∧ openAfter r.taken = none

/-- `Run` executes, and the cycles of the last command are used up. -/
def Finishes (now : U64) (g : GPU3D) : Prop :=
  g.geometryEnabled = true ∧ g.scene.flushRequest = false ∧
    (g.startRun now).timing.cycleCount ≤ 0

theorem Counting.drained {r : Recorded} (h : r.Counting) (hdrained : r.Drained) :
    Counted r.gpu none := by
  have htaken := h.taken
  rw [hdrained.1, List.append_nil] at htaken
  have hcounted := h.counted
  rw [← htaken, hdrained.2] at hcounted
  exact hcounted

/-- In every run that completes its commands, `NumPushPopCommands` is the number of pushes and
pops in the pipe and the FIFO, and `NumTestCommands` the number of entries of tests in them
or collected. Once everything has run, both are zero, and the busy bits fall as soon as the
engine is no longer busy. -/
theorem busy_counters (ops : List BusyOp) (hgrouped : Grouped none (reset.run ops).taken) :
    let r := reset.run ops
    let q := r.gpu.queue
    (q.numPushPopCommands.toNat = q.accepted.countP isPushPop ∧
      q.numTestCommands.toNat = q.accepted.countP isTest + testsRead (openAfter r.executed)) ∧
    (q.numPushPopCommands.toNat ≤ 260 ∧ q.numTestCommands.toNat ≤ 262) ∧
    (r.Drained →
      (q.numPushPopCommands = 0 ∧ q.numTestCommands = 0) ∧
      (q.gxStat.getLsbD 27 = false → q.gxStat.getLsbD 14 = false ∧ q.gxStat.getLsbD 0 = false) ∧
      ∀ now, Finishes now r.gpu → (r.gpu.run now).queue.gxStat.getLsbD 14 = false ∧
        (r.gpu.run now).queue.gxStat.getLsbD 0 = false) := by
  have h : (reset.run ops).Counting := counting_reset.run hgrouped
  generalize reset.run ops = r at h ⊢
  have hpush := h.counted.owes.pushPops
  have htest := h.counted.owes.tests
  have hlen := r.gpu.queue.length_accepted_le
  refine ⟨⟨hpush, htest⟩, ⟨?_, ?_⟩, fun hdrained => ?_⟩
  · have hcount := List.countP_le_length (p := isPushPop) (l := r.gpu.queue.accepted)
    omega
  · have hcount := List.countP_le_length (p := isTest) (l := r.gpu.queue.accepted)
    have hread := testsRead_le h.counted.partialCommand
    omega
  · have hcounted := h.drained hdrained
    refine ⟨hcounted.counters_zero hdrained.1, fun hidle => ?_, fun now hfinishes => ?_⟩
    · exact hcounted.clear hdrained.1 (h.idle hidle)
    · exact run_drained hcounted h.idle hdrained.1 hfinishes.1 hfinishes.2.1 hfinishes.2.2

/-- A push and the three entries of a box test, executed one by one. -/
def pushAndTest : List BusyOp :=
  [.engine (.setEnabled true true), .engine (.write32 0x04000444 0),
    .engine (.write32 0x040005C0 0), .engine (.write32 0x040005C0 0),
    .engine (.write32 0x040005C0 0), .execute, .execute, .execute, .execute]

theorem busy_counters_pushAndTest :
    ((reset.run pushAndTest).gpu.run 1000).queue.gxStat.getLsbD 14 = false ∧
      ((reset.run pushAndTest).gpu.run 1000).queue.gxStat.getLsbD 0 = false :=
  (busy_counters pushAndTest (by decide +kernel)).2.2 ⟨by decide +kernel, by decide +kernel⟩ |>.2.2
    1000 ⟨by decide +kernel, by decide +kernel, by decide +kernel⟩

/-! ## Tests are counted by their entries -/

/-- The tests that begin among these entries. -/
def testsBegun : Option (U8 × ℕ) → List CmdFIFOEntry → ℕ
  | _, [] => 0
  | o, e :: es => (if isTest e ∧ paramsRead o = 0 then 1 else 0) + testsBegun (collect o e) es

/-- The test commands that have been written and have not run. -/
def pendingTests (r : Recorded) : ℕ :=
  (if testsRead (openAfter r.executed) = 0 then 0 else 1) +
    testsBegun (openAfter r.executed) r.gpu.queue.accepted

theorem tests_counted_by_entries :
    ¬ ∀ ops, Grouped none (reset.run ops).taken →
      (reset.run ops).gpu.queue.numTestCommands.toNat = (reset.run ops).pendingTests := by
  intro h
  have hone := h (pushAndTest.take 5) (by decide +kernel)
  exact absurd hone (by decide +kernel)

end Recorded
end MelonDS.GPU3D

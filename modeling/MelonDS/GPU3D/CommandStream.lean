import MelonDS.GPU3D.CommandFIFO

/-!
# Runs of the geometry command queues

A run interleaves 32-bit stores to the command area with the reads the engine
makes. A store to a command port enqueues one entry; a store to the packed FIFO
port unpacks up to four commands of a word and may enqueue several or none. The
trace keeps what was written and what was returned, and the run theorem says the
queues between them lose, repeat and reorder nothing.
-/

namespace MelonDS.GPU3D

/-- What one round hands to `CmdFIFOWrite`: a zero command is skipped, except as
the first of an all-zero word. -/
def Unpacker.entries (u : Unpacker) (val : U32) : List CmdFIFOEntry :=
  if u.curCommand &&& 0xFF ≠ 0 ∨ (u.numCommands = 4 ∧ u.curCommand = 0) then
    [⟨u.curCommand.setWidth 8, val⟩]
  else []

/-- `CurCommand >>= 8; NumCommands--` -/
def Unpacker.shift (u : Unpacker) : Unpacker :=
  { u with curCommand := u.curCommand >>> 8, numCommands := u.numCommands - 1 }

/-- `ParamCount = 0; TotalParams = CmdNumParams[CurCommand & 0xFF]` -/
def Unpacker.begin (u : Unpacker) : Unpacker :=
  { u with paramCount := 0, totalParams := cmdNumParams (u.curCommand.setWidth 8) }

/-- The loop of `WriteToGXFIFO`: one round per command of the packed word until a
command still needs parameters. It gathers the entries handed to `CmdFIFOWrite`,
which neither reads nor changes the unpacking state. -/
def Unpacker.loop (val : U32) : ℕ → Unpacker → List CmdFIFOEntry × Unpacker
  | 0, u => ([], u)
  | rounds + 1, u =>
    if u.paramCount ≥ u.totalParams then
      if u.shift.numCommands = 0 then (u.entries val, u.shift)
      else if u.shift.begin.paramCount < u.shift.begin.totalParams then
        (u.entries val, u.shift.begin)
      else
        let rest := Unpacker.loop val rounds u.shift.begin
        (u.entries val ++ rest.1, rest.2)
    else (u.entries val, u)

/-- `WriteToGXFIFO` up to its calls of `CmdFIFOWrite`. -/
def Unpacker.accept (u : Unpacker) (val : U32) : List CmdFIFOEntry × Unpacker :=
  if u.numCommands = 0 then
    let u := Unpacker.begin { u with numCommands := 4, curCommand := val }
    if u.totalParams > 0 then ([], u) else u.loop val u.numCommands
  else { u with paramCount := u.paramCount + 1 }.loop val u.numCommands

/-- The loop runs at most one round per command left in the word. -/
theorem Unpacker.loop_succ (val : U32) {rounds : ℕ} (u : Unpacker) (h0 : 0 < u.numCommands)
    (h : u.numCommands ≤ rounds) : u.loop val (rounds + 1) = u.loop val rounds := by
  induction rounds generalizing u with
  | zero => omega
  | succ rounds ih =>
    by_cases hn : u.shift.numCommands = 0
    · simp only [Unpacker.loop, hn, if_true]
    · have hb : u.shift.begin.numCommands = u.numCommands - 1 := rfl
      have hs : u.shift.numCommands = u.numCommands - 1 := rfl
      have hi := ih u.shift.begin (by omega) (by omega)
      rw [Unpacker.loop, hi]
      rfl

namespace CommandEngine

/-- What a 32-bit store hands to `CmdFIFOWrite`, with the unpacking state after it.
Stores outside the command area do not reach the queues. -/
def enqueued (g : CommandEngine) (addr val : U32) : List CmdFIFOEntry × Unpacker :=
  if 0x04000400 ≤ addr ∧ addr < 0x04000440 then g.unpacker.accept val
  else if 0x04000440 ≤ addr ∧ addr < 0x040005CC then
    ([⟨((addr &&& 0x1FC) >>> 2).setWidth 8, val⟩], g.unpacker)
  else ([], g.unpacker)

/-- `Write32` on the command area. -/
def write32 (g : CommandEngine) (addr val : U32) : CommandEngine :=
  let e := g.enqueued addr val
  e.1.foldl cmdFIFOWrite { g with unpacker := e.2 }

/-- No entry of the list is written while the stall queue holds 64 entries. -/
def Fits : CommandEngine → List CmdFIFOEntry → Prop
  | _, [] => True
  | g, e :: es => g.cmdStallQueue.level < 64 ∧ Fits (g.cmdFIFOWrite e) es

instance decidableFits (g : CommandEngine) (es : List CmdFIFOEntry) : Decidable (g.Fits es) :=
  match es with
  | [] => .isTrue trivial
  | e :: es =>
    haveI := decidableFits (g.cmdFIFOWrite e) es
    inferInstanceAs (Decidable (_ ∧ _))

theorem foldl_cmdFIFOWrite_spec {g : CommandEngine} (es : List CmdFIFOEntry) (h : g.Layered)
    (hfit : g.Fits es) :
    (es.foldl cmdFIFOWrite g).contents = g.contents ++ es ∧
      (es.foldl cmdFIFOWrite g).Layered := by
  induction es generalizing g with
  | nil => exact ⟨by simp, h⟩
  | cons e es ih =>
    obtain ⟨hc, hl⟩ := cmdFIFOWrite_spec e h hfit.1
    obtain ⟨hc', hl'⟩ := ih hl hfit.2
    exact ⟨by rw [List.foldl_cons, hc', hc, List.append_assoc, List.singleton_append], hl'⟩

end CommandEngine

inductive CommandOp
  | write32 (addr val : U32)
  | execute

/-- The engine with the history of its two ends. -/
structure CommandTrace where
  engine : CommandEngine
  written : List CmdFIFOEntry
  returned : List CmdFIFOEntry

namespace CommandTrace

def reset : CommandTrace := ⟨.reset, [], []⟩

/-- `Run` calls `ExecuteCommand`, hence `CmdFIFORead`, only while the pipe is in use. -/
def step (t : CommandTrace) : CommandOp → CommandTrace
  | .write32 addr val =>
    { t with
      engine := t.engine.write32 addr val
      written := t.written ++ (t.engine.enqueued addr val).1 }
  | .execute =>
    if t.engine.cmdPIPE.isEmpty then t
    else
      { t with
        engine := t.engine.cmdFIFORead.2
        returned := t.returned ++ [t.engine.cmdFIFORead.1] }

def run (t : CommandTrace) (ops : List CommandOp) : CommandTrace := ops.foldl step t

/-- No `CmdFIFOWrite` of the run is made while the stall queue holds 64 entries. -/
def Fits : CommandTrace → List CommandOp → Prop
  | _, [] => True
  | t, op :: ops =>
    (match op with
      | .write32 addr val =>
        CommandEngine.Fits { t.engine with unpacker := (t.engine.enqueued addr val).2 }
          (t.engine.enqueued addr val).1
      | .execute => True) ∧ Fits (t.step op) ops

/-- The queues hold exactly what was written and not yet returned. -/
structure Conserved (t : CommandTrace) : Prop where
  layered : t.engine.Layered
  history : t.returned ++ t.engine.contents = t.written

theorem conserved_reset : reset.Conserved := ⟨CommandEngine.layered_reset, rfl⟩

theorem Conserved.write32 {t : CommandTrace} (h : t.Conserved) {addr val : U32}
    (hfit : CommandEngine.Fits { t.engine with unpacker := (t.engine.enqueued addr val).2 }
      (t.engine.enqueued addr val).1) : (t.step (.write32 addr val)).Conserved := by
  have hl : CommandEngine.Layered { t.engine with unpacker := (t.engine.enqueued addr val).2 } :=
    ⟨h.layered.stall, h.layered.fifo⟩
  obtain ⟨hc, hl'⟩ := CommandEngine.foldl_cmdFIFOWrite_spec _ hl hfit
  refine ⟨hl', ?_⟩
  change t.returned ++ (t.engine.write32 addr val).contents = t.written ++ _
  rw [CommandEngine.write32, hc, ← List.append_assoc]
  exact congrArg (· ++ _) h.history

theorem Conserved.execute {t : CommandTrace} (h : t.Conserved) : (t.step .execute).Conserved := by
  unfold step
  split_ifs with hp
  · exact h
  · rw [FIFO.isEmpty_iff] at hp
    obtain ⟨hc, hl⟩ := CommandEngine.cmdFIFORead_spec h.layered hp
    refine ⟨hl, ?_⟩
    rw [List.append_assoc, List.singleton_append, ← hc]
    exact h.history

theorem Conserved.run {t : CommandTrace} (h : t.Conserved) {ops : List CommandOp}
    (hfit : t.Fits ops) : (t.run ops).Conserved := by
  induction ops generalizing t with
  | nil => exact h
  | cons op ops ih =>
    obtain ⟨hop, hrest⟩ := hfit
    cases op with
    | write32 addr val => exact ih (h.write32 hop) hrest
    | execute => exact ih h.execute hrest

/-- In every run from reset, what the engine has read, followed by the pipe, the
FIFO and the stall queue, is what was written; the stall queue is in use only
behind a full FIFO, and the FIFO only behind a pipe of more than two entries. -/
theorem commands_conserved (ops : List CommandOp) (hfit : reset.Fits ops) :
    let t := reset.run ops
    t.returned ++ (t.engine.cmdPIPE.contents ++ t.engine.cmdFIFO.contents ++
        t.engine.cmdStallQueue.contents) = t.written ∧
      (t.engine.cmdStallQueue.isEmpty = false → t.engine.cmdFIFO.isFull = true) ∧
      (t.engine.cmdFIFO.isEmpty = false → 2 < t.engine.cmdPIPE.level) := by
  have h := conserved_reset.run hfit
  have hne {n : ℕ} [NeZero n] (f : FIFO CmdFIFOEntry n) (he : f.isEmpty = false) :
      f.contents ≠ [] := by
    rw [Ne, ← FIFO.isEmpty_iff, he]
    decide
  exact ⟨h.history, fun hs => h.layered.stall (hne _ hs), fun hf => h.layered.fifo (hne _ hf)⟩

/-- A packed word whose two commands take no parameters, a port write, two reads. -/
theorem commands_conserved_packed :
    let t := reset.run [.write32 0x04000400 0x00001511, .write32 0x04000444 7, .execute, .execute]
    t.returned ++ (t.engine.cmdPIPE.contents ++ t.engine.cmdFIFO.contents ++
        t.engine.cmdStallQueue.contents) = t.written ∧
      (t.engine.cmdStallQueue.isEmpty = false → t.engine.cmdFIFO.isFull = true) ∧
      (t.engine.cmdFIFO.isEmpty = false → 2 < t.engine.cmdPIPE.level) :=
  commands_conserved _ ⟨by decide, by decide, trivial, trivial, trivial⟩

end CommandTrace
end MelonDS.GPU3D

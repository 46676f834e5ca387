import MelonDS.FIFO
import MelonDS.Types

/-!
# The geometry command queues

Commands reach the geometry engine through three queues: the pipe the engine
reads from, the command FIFO behind it, and the stall queue that catches what a
burst of stores still writes once the FIFO is full. `CmdFIFOWrite` picks a queue
from the fill levels, `CmdFIFORead` refills the earlier queues from the later
ones, and each is called from inside the other's bookkeeping.

Read in the order pipe, FIFO, stall queue the three are one queue. `Layered` is
the fill-level invariant that makes it so: a later queue holds something only
while the earlier one has no room the writer would use.
-/

namespace MelonDS.GPU3D

structure CmdFIFOEntry where
  command : U8
  param : U32
deriving DecidableEq

/-- The rows of `CmdNumParams` from command `0x00`; the rows from `0x80` are zero. -/
def cmdNumParamsTable : List ℕ :=
  [0, 0, 0, 0, 0, 0, 0, 0, 0, 0, 0, 0, 0, 0, 0, 0,
    1, 0, 1, 1, 1, 0, 16, 12, 16, 12, 9, 3, 3, 0, 0, 0,
    1, 1, 1, 2, 1, 1, 1, 1, 1, 1, 1, 1, 0, 0, 0, 0,
    1, 1, 1, 1, 32, 0, 0, 0, 0, 0, 0, 0, 0, 0, 0, 0,
    1, 0, 0, 0, 0, 0, 0, 0, 0, 0, 0, 0, 0, 0, 0, 0,
    1, 0, 0, 0, 0, 0, 0, 0, 0, 0, 0, 0, 0, 0, 0, 0,
    1, 0, 0, 0, 0, 0, 0, 0, 0, 0, 0, 0, 0, 0, 0, 0,
    3, 2, 1, 0, 0, 0, 0, 0, 0, 0, 0, 0, 0, 0, 0, 0]

def cmdNumParams (command : U8) : ℕ := cmdNumParamsTable.getD command.toNat 0

/-- Where `WriteToGXFIFO` stands inside a packed command word. -/
structure Unpacker where
  numCommands : ℕ
  curCommand : U32
  paramCount : ℕ
  totalParams : ℕ

/-- The command side of `GPU3D`, with what it drives in `NDS`: the GXFIFO stall
bit of `CPUStop`, the GXFIFO line of `IF[0]`, and the calls `CheckDMAs(0, 7)`. -/
structure CommandEngine where
  cmdFIFO : FIFO CmdFIFOEntry 256
  cmdPIPE : FIFO CmdFIFOEntry 4
  cmdStallQueue : FIFO CmdFIFOEntry 64
  gxStat : U32
  numPushPopCommands : U32
  numTestCommands : U32
  unpacker : Unpacker
  gxStall : Bool
  gxfifoIRQ : Bool
  dmaChecks : ℕ

namespace CommandEngine

def zeroEntry : CmdFIFOEntry := ⟨0, 0⟩

def reset : CommandEngine where
  cmdFIFO := .empty zeroEntry
  cmdPIPE := .empty zeroEntry
  cmdStallQueue := .empty zeroEntry
  gxStat := 0
  numPushPopCommands := 0
  numTestCommands := 0
  unpacker := ⟨0, 0, 0, 0⟩
  gxStall := false
  gxfifoIRQ := false
  dmaChecks := 0

/-- The status bits and busy counters an accepted entry sets. -/
def noteCommand (g : CommandEngine) (entry : CmdFIFOEntry) : CommandEngine :=
  let g := { g with gxStat := g.gxStat ||| bit 32 27 }
  if entry.command = 0x11 ∨ entry.command = 0x12 then
    { g with
      gxStat := g.gxStat ||| bit 32 14
      numPushPopCommands := g.numPushPopCommands + 1 }
  else if entry.command = 0x70 ∨ entry.command = 0x71 ∨ entry.command = 0x72 then
    { g with
      gxStat := g.gxStat ||| bit 32 0
      numTestCommands := g.numTestCommands + 1 }
  else g

def cmdFIFOWrite (g : CommandEngine) (entry : CmdFIFOEntry) : CommandEngine :=
  if g.cmdFIFO.isEmpty && !g.cmdPIPE.isFull then
    noteCommand { g with cmdPIPE := g.cmdPIPE.write entry } entry
  else if g.cmdFIFO.isFull then
    -- the early return: status bits are set when the entry leaves the stall queue
    { g with cmdStallQueue := g.cmdStallQueue.write entry, gxStall := true }
  else
    noteCommand { g with cmdFIFO := g.cmdFIFO.write entry } entry

def checkFIFODMA (g : CommandEngine) : CommandEngine :=
  if g.cmdFIFO.level < 128 then { g with dmaChecks := g.dmaChecks + 1 } else g

def checkFIFOIRQ (g : CommandEngine) : CommandEngine :=
  { g with
    gxfifoIRQ :=
      match (g.gxStat >>> 30).toNat with
      | 1 => decide (g.cmdFIFO.level < 128)
      | 2 => g.cmdFIFO.isEmpty
      | _ => false }

/-- `if (!CmdFIFO.IsEmpty()) CmdPIPE.Write(CmdFIFO.Read())` -/
def refillPIPE (g : CommandEngine) : CommandEngine :=
  if g.cmdFIFO.isEmpty then g
  else { g with cmdPIPE := g.cmdPIPE.write g.cmdFIFO.read.1, cmdFIFO := g.cmdFIFO.read.2 }

/-- The loop that empties the stall queue into the FIFO, one entry per round. -/
def drainStallQueue : ℕ → CommandEngine → CommandEngine
  | 0, g => g
  | rounds + 1, g =>
    if g.cmdStallQueue.isEmpty then g
    else if g.cmdFIFO.isFull then g
    else
      drainStallQueue rounds
        (cmdFIFOWrite { g with cmdStallQueue := g.cmdStallQueue.read.2 } g.cmdStallQueue.read.1)

def emptyStallQueue (g : CommandEngine) : CommandEngine :=
  if g.cmdStallQueue.isEmpty then g
  else
    let g := drainStallQueue g.cmdStallQueue.level g
    if g.cmdStallQueue.isEmpty then { g with gxStall := false } else g

def cmdFIFORead (g : CommandEngine) : CmdFIFOEntry × CommandEngine :=
  let ret := g.cmdPIPE.read.1
  let g := { g with cmdPIPE := g.cmdPIPE.read.2 }
  if g.cmdPIPE.level ≤ 2 then
    (ret, checkFIFOIRQ (checkFIFODMA (emptyStallQueue (refillPIPE (refillPIPE g)))))
  else (ret, g)

/-! ## The three queues as one -/

/-- Everything queued, in the order it will be executed. -/
def contents (g : CommandEngine) : List CmdFIFOEntry :=
  g.cmdPIPE.contents ++ g.cmdFIFO.contents ++ g.cmdStallQueue.contents

/-- A later queue is in use only while the one before it is: the stall queue
behind a full FIFO, the FIFO behind a pipe of more than two entries. -/
structure Layered (g : CommandEngine) : Prop where
  stall : g.cmdStallQueue.contents ≠ [] → g.cmdFIFO.isFull = true
  fifo : g.cmdFIFO.contents ≠ [] → 2 < g.cmdPIPE.level

@[simp] theorem noteCommand_cmdFIFO (g : CommandEngine) (e : CmdFIFOEntry) :
    (g.noteCommand e).cmdFIFO = g.cmdFIFO := by
  unfold noteCommand
  dsimp only
  split_ifs <;> rfl

@[simp] theorem noteCommand_cmdPIPE (g : CommandEngine) (e : CmdFIFOEntry) :
    (g.noteCommand e).cmdPIPE = g.cmdPIPE := by
  unfold noteCommand
  dsimp only
  split_ifs <;> rfl

@[simp] theorem noteCommand_cmdStallQueue (g : CommandEngine) (e : CmdFIFOEntry) :
    (g.noteCommand e).cmdStallQueue = g.cmdStallQueue := by
  unfold noteCommand
  dsimp only
  split_ifs <;> rfl

@[simp] theorem checkFIFOIRQ_contents (g : CommandEngine) :
    g.checkFIFOIRQ.contents = g.contents := rfl

@[simp] theorem checkFIFODMA_contents (g : CommandEngine) :
    g.checkFIFODMA.contents = g.contents := by
  unfold checkFIFODMA
  split_ifs <;> rfl

theorem Layered.checkFIFOIRQ {g : CommandEngine} (h : g.Layered) : g.checkFIFOIRQ.Layered :=
  ⟨h.stall, h.fifo⟩

theorem Layered.checkFIFODMA {g : CommandEngine} (h : g.Layered) : g.checkFIFODMA.Layered := by
  unfold CommandEngine.checkFIFODMA
  split_ifs
  · exact ⟨h.stall, h.fifo⟩
  · exact h

theorem layered_reset : reset.Layered :=
  ⟨fun h => absurd rfl h, fun h => absurd rfl h⟩

/-- An entry written while the FIFO is in use and has room goes to the FIFO. -/
theorem cmdFIFOWrite_to_fifo {g : CommandEngine} (e : CmdFIFOEntry)
    (hne : g.cmdFIFO.contents ≠ []) (hroom : g.cmdFIFO.isFull = false) :
    g.cmdFIFOWrite e = noteCommand { g with cmdFIFO := g.cmdFIFO.write e } e := by
  have he : g.cmdFIFO.isEmpty = false := by
    rw [Bool.eq_false_iff, Ne, FIFO.isEmpty_iff]
    exact hne
  simp [cmdFIFOWrite, he, hroom]

/-- The writer puts an entry behind everything already queued. -/
theorem cmdFIFOWrite_spec {g : CommandEngine} (e : CmdFIFOEntry) (h : g.Layered)
    (hroom : g.cmdStallQueue.level < 64) :
    (g.cmdFIFOWrite e).contents = g.contents ++ [e] ∧ (g.cmdFIFOWrite e).Layered := by
  unfold cmdFIFOWrite
  split_ifs with hpipe hfull
  · -- straight to the pipe: the FIFO is empty, hence so is the stall queue
    simp only [Bool.and_eq_true, Bool.not_eq_true', FIFO.isEmpty_iff] at hpipe
    obtain ⟨hempty, hpipe⟩ := hpipe
    have hstall : g.cmdStallQueue.contents = [] := by
      by_contra hne
      have hf := (FIFO.isFull_iff _).mp (h.stall hne)
      simp [hempty] at hf
    have hlt : g.cmdPIPE.contents.length < 4 := by
      have hle := g.cmdPIPE.contents_length_le
      have hne : g.cmdPIPE.contents.length ≠ 4 := by
        rw [Ne, ← FIFO.isFull_iff, hpipe]
        decide
      omega
    constructor
    · simp [contents, hempty, hstall, FIFO.write_contents_of_lt _ e hlt]
    · exact ⟨by simp [hstall], by simp [hempty]⟩
  · -- FIFO full: the stall queue takes the entry
    rw [FIFO.level_eq_length] at hroom
    constructor
    · simp [contents, FIFO.write_contents_of_lt _ e hroom]
    · exact ⟨fun _ => hfull, h.fifo⟩
  · -- FIFO in use or pipe full, with room in the FIFO: the stall queue is empty
    rw [Bool.not_eq_true] at hfull
    have hstall : g.cmdStallQueue.contents = [] := by
      by_contra hne
      simp [h.stall hne] at hfull
    have hlt : g.cmdFIFO.contents.length < 256 := by
      have hle := g.cmdFIFO.contents_length_le
      have hne : g.cmdFIFO.contents.length ≠ 256 := by
        rw [Ne, ← FIFO.isFull_iff, hfull]
        decide
      omega
    have hpipe' : 2 < g.cmdPIPE.level := by
      by_cases hempty : g.cmdFIFO.contents = []
      · have hp : g.cmdPIPE.isFull = true := by
          by_contra hp
          exact hpipe (by simp [(FIFO.isEmpty_iff _).mpr hempty, hp])
        rw [FIFO.level_eq_length, (FIFO.isFull_iff _).mp hp]
        decide
      · exact h.fifo hempty
    constructor
    · simp [contents, hstall, FIFO.write_contents_of_lt _ e hlt]
    · exact ⟨by simp [hstall], fun _ => by simpa using hpipe'⟩

/-- Draining moves entries across one queue boundary, so the order of everything
queued stays; enough rounds end with the stall queue empty or the FIFO full. -/
theorem drainStallQueue_spec (rounds : ℕ) {g : CommandEngine}
    (hrounds : g.cmdStallQueue.level ≤ rounds) (hne : g.cmdFIFO.contents ≠ []) :
    let g' := drainStallQueue rounds g
    g'.contents = g.contents ∧ g'.cmdPIPE = g.cmdPIPE ∧
      (g'.cmdStallQueue.contents ≠ [] → g'.cmdFIFO.isFull = true) := by
  induction rounds generalizing g with
  | zero =>
    have hs : g.cmdStallQueue.contents = [] := by
      rw [FIFO.level_eq_length] at hrounds
      exact List.eq_nil_of_length_eq_zero (Nat.le_zero.mp hrounds)
    exact ⟨rfl, rfl, fun hn => absurd hs hn⟩
  | succ rounds ih =>
    simp only [drainStallQueue]
    split_ifs with hs hf
    · exact ⟨rfl, rfl, fun hn => absurd ((FIFO.isEmpty_iff _).mp hs) hn⟩
    · exact ⟨rfl, rfl, fun _ => hf⟩
    · rw [FIFO.isEmpty_iff] at hs
      rw [Bool.not_eq_true] at hf
      obtain ⟨e, rest, hcons⟩ := List.exists_cons_of_ne_nil hs
      obtain ⟨he, hrest⟩ := FIFO.read_of_contents_cons _ hcons
      have hlt : g.cmdFIFO.contents.length < 256 := by
        have hle := g.cmdFIFO.contents_length_le
        have hn : g.cmdFIFO.contents.length ≠ 256 := by
          rw [Ne, ← FIFO.isFull_iff, hf]
          decide
        omega
      have hw := FIFO.write_contents_of_lt _ e hlt
      rw [cmdFIFOWrite_to_fifo (g := { g with cmdStallQueue := g.cmdStallQueue.read.2 }) _ hne hf, he]
      obtain ⟨hc, hp, hd⟩ := ih
        (g := noteCommand
          { g with cmdStallQueue := g.cmdStallQueue.read.2, cmdFIFO := g.cmdFIFO.write e } e)
        (by
          rw [FIFO.level_eq_length, hcons] at hrounds
          simp only [noteCommand_cmdStallQueue, FIFO.level_eq_length, hrest]
          simpa using hrounds)
        (by simp [hw])
      refine ⟨?_, ?_, hd⟩
      · rw [hc]
        simp [contents, hw, hrest, hcons]
      · rw [hp]
        simp

theorem emptyStallQueue_spec {g : CommandEngine}
    (hne : g.cmdStallQueue.contents ≠ [] → g.cmdFIFO.contents ≠ []) :
    g.emptyStallQueue.contents = g.contents ∧ g.emptyStallQueue.cmdPIPE = g.cmdPIPE ∧
      (g.emptyStallQueue.cmdStallQueue.contents ≠ [] →
        g.emptyStallQueue.cmdFIFO.isFull = true) := by
  unfold emptyStallQueue
  split_ifs with hs
  · exact ⟨rfl, rfl, fun hn => absurd ((FIFO.isEmpty_iff _).mp hs) hn⟩
  · rw [FIFO.isEmpty_iff] at hs
    have hd := drainStallQueue_spec g.cmdStallQueue.level le_rfl (hne hs)
    dsimp only at hd ⊢
    split_ifs <;> exact hd

/-- One refill moves the oldest FIFO entry to the end of the pipe. -/
theorem refillPIPE_spec {g : CommandEngine} (hroom : g.cmdPIPE.contents.length < 4) :
    g.refillPIPE.contents = g.contents ∧
      g.refillPIPE.cmdPIPE.contents = g.cmdPIPE.contents ++ g.cmdFIFO.contents.take 1 ∧
      g.refillPIPE.cmdFIFO.contents = g.cmdFIFO.contents.tail ∧
      g.refillPIPE.cmdStallQueue = g.cmdStallQueue := by
  unfold refillPIPE
  split_ifs with hs
  · rw [FIFO.isEmpty_iff] at hs
    simp [hs]
  · rw [FIFO.isEmpty_iff] at hs
    obtain ⟨e, rest, hcons⟩ := List.exists_cons_of_ne_nil hs
    obtain ⟨he, hrest⟩ := FIFO.read_of_contents_cons _ hcons
    have hw := FIFO.write_contents_of_lt _ e hroom
    simp [contents, he, hw, hrest, hcons]

/-- The reader takes the oldest queued entry and restores the layering. -/
theorem cmdFIFORead_spec {g : CommandEngine} (h : g.Layered) (hne : g.cmdPIPE.contents ≠ []) :
    g.contents = g.cmdFIFORead.1 :: g.cmdFIFORead.2.contents ∧ g.cmdFIFORead.2.Layered := by
  obtain ⟨e, rest, hcons⟩ := List.exists_cons_of_ne_nil hne
  obtain ⟨he, hrest⟩ := FIFO.read_of_contents_cons _ hcons
  have hlen : rest.length < 4 := by
    have hle := g.cmdPIPE.contents_length_le
    rw [hcons] at hle
    exact hle
  have hg : g.contents = e :: ({ g with cmdPIPE := g.cmdPIPE.read.2 } : CommandEngine).contents := by
    simp [contents, hcons, hrest]
  unfold cmdFIFORead
  dsimp only
  rw [FIFO.level_eq_length, hrest]
  split_ifs with hlow
  · -- at most two entries left: two refills, then the stall queue follows the FIFO
    have h1 := refillPIPE_spec (g := { g with cmdPIPE := g.cmdPIPE.read.2 })
      (by rw [hrest]; exact hlen)
    dsimp only at h1
    obtain ⟨hc1, hp1, hf1, hs1⟩ := h1
    have hl1 : (refillPIPE { g with cmdPIPE := g.cmdPIPE.read.2 }).cmdPIPE.contents.length < 4 := by
      rw [hp1, hrest]
      simp only [List.length_append, List.length_take]
      omega
    obtain ⟨hc2, hp2, hf2, hs2⟩ := refillPIPE_spec hl1
    rw [hf1] at hf2 hp2
    rw [hs1] at hs2
    rw [hp1, hrest] at hp2
    have hstall : ∀ hn : g.cmdStallQueue.contents ≠ [], g.cmdFIFO.contents.length = 256 :=
      fun hn => (FIFO.isFull_iff _).mp (h.stall hn)
    obtain ⟨hc3, hp3, hs3⟩ := emptyStallQueue_spec
      (g := refillPIPE (refillPIPE { g with cmdPIPE := g.cmdPIPE.read.2 })) (by
        rw [hs2, hf2]
        intro hn hnil
        have := congrArg List.length hnil
        simp only [List.length_tail, hstall hn, List.length_nil] at this
        omega)
    refine ⟨?_, Layered.checkFIFOIRQ (Layered.checkFIFODMA ⟨hs3, ?_⟩)⟩
    · rw [checkFIFOIRQ_contents, checkFIFODMA_contents, hc3, hc2, hc1, he, hg]
    · intro hn
      -- the pipe ends above two entries unless the FIFO ran dry on the way
      have hfifo : g.cmdFIFO.contents.tail.tail ≠ [] := by
        intro hnil
        have hst : g.cmdStallQueue.contents = [] := by
          by_contra hs
          have := congrArg List.length hnil
          simp only [List.length_tail, hstall hs, List.length_nil] at this
          omega
        apply hn
        have hcc := hc3
        rw [contents, contents, hp3, hs2, hf2, hnil, hst] at hcc
        simp only [List.append_nil, List.append_assoc, List.append_right_eq_self,
          List.append_eq_nil_iff] at hcc
        exact hcc.1
      have hlen2 : 0 < g.cmdFIFO.contents.tail.tail.length := List.length_pos_of_ne_nil hfifo
      simp only [List.length_tail] at hlen2
      have hpipe : 2 < g.cmdPIPE.level := h.fifo (by intro hnil; simp [hnil] at hlen2)
      rw [FIFO.level_eq_length, hcons] at hpipe
      simp only [List.length_cons] at hpipe
      rw [hp3, FIFO.level_eq_length, hp2]
      simp only [List.length_append, List.length_take, List.length_tail]
      omega
  · -- three entries remain, nothing moves
    refine ⟨by rw [he, hg], h.stall, fun _ => ?_⟩
    change 2 < g.cmdPIPE.read.2.level
    rw [FIFO.level_eq_length, hrest]
    omega

end CommandEngine
end MelonDS.GPU3D

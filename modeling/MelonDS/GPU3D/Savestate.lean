import MelonDS.GPU3D.FrameSkip

/-!
# Savestates of the 3D engine

`DoSavestate` stores every member but the clip matrix, the flag of degenerate polygons and
`CurVertexRAM` and `CurPolygonRAM`, which loading computes again, `RenderFrameIdentical`,
which it clears, and the reciprocals of the lights. What is stored of the queues is what they
hold: an empty command FIFO is stored as a new one. The members of `NDS` that the queues drive
are stored there.
-/

namespace MelonDS
namespace GPU3D

/-- The members `DoSavestate` stores. -/
structure Saved where
  queue : CommandEngine
  execParams : Fin 32 → U32
  execParamCount : ℕ
  timing : Timing
  timestamp : U64
  matrices : Matrices
  attributes : Attributes
  lighting : Lighting
  tests : TestResults
  assembly : Assembly
  scene : Scene
  zeroDotWLimit : U32
  registers : Registers
  render : RenderRegisters
  renderXPos : U16
  abortFrame : Bool
  geometryEnabled : Bool
  renderingEnabled : Bool

/-- The empty FIFO has one representation in a savestate. -/
def savedFIFO (f : FIFO CmdFIFOEntry 256) : FIFO CmdFIFOEntry 256 :=
  if f.isEmpty then .empty CommandEngine.zeroEntry else f

def save (g : GPU3D) : Saved where
  queue := { g.queue with cmdFIFO := savedFIFO g.queue.cmdFIFO }
  execParams := g.execParams
  execParamCount := g.execParamCount
  timing := g.timing
  timestamp := g.timestamp
  matrices := g.matrices
  attributes := g.attributes
  lighting := g.lighting
  tests := g.tests
  assembly := g.assembly
  scene := g.scene
  zeroDotWLimit := g.zeroDotWLimit
  registers := g.registers
  render := g.render
  renderXPos := g.renderXPos
  abortFrame := g.abortFrame
  geometryEnabled := g.geometryEnabled
  renderingEnabled := g.renderingEnabled

/-- The `Degenerate` flag loading gives to a polygon. -/
def Scene.degenerate (s : Scene) (p : Polygon) : Bool :=
  (List.range p.numVertices).any (fun j => decide ((s.deref (p.vertices j)).position 3 = 0)) ||
    (192 : S32).slt p.yBottom

def Scene.loaded (s : Scene) : Scene :=
  { s with
    polygonRAM := fun k => { s.polygonRAM k with degenerate := s.degenerate (s.polygonRAM k) } }

def clipMatrixOf (m : Matrices) : Matrix := matrixMult4x4 m.projMatrix (elem m.posMatrix)

/-- The engine `f` after it loads a savestate. -/
def load (s : Saved) (f : GPU3D) : GPU3D where
  queue := s.queue
  execParams := s.execParams
  execParamCount := s.execParamCount
  timing := s.timing
  timestamp := s.timestamp
  matrices := s.matrices
  derived :=
    { clipMatrix := clipMatrixOf s.matrices
      clipMatrixDirty := false
      specRecip := f.derived.specRecip }
  attributes := s.attributes
  lighting := s.lighting
  tests := s.tests
  assembly := s.assembly
  scene := s.scene.loaded
  zeroDotWLimit := s.zeroDotWLimit
  registers := s.registers
  render := s.render
  renderFrameIdentical := false
  renderXPos := s.renderXPos
  abortFrame := s.abortFrame
  geometryEnabled := s.geometryEnabled
  renderingEnabled := s.renderingEnabled

end GPU3D

/-! ## FIFOs that hold the same -/

namespace FIFO
variable {α : Type*} {n : ℕ} [NeZero n] {f f' : FIFO α n} (h : f'.contents = f.contents)
include h

theorem level_congr : f'.level = f.level := by
  rw [level_eq_length, level_eq_length, h]

theorem isEmpty_congr : f'.isEmpty = f.isEmpty := by
  rw [Bool.eq_iff_iff, isEmpty_iff, isEmpty_iff, h]

theorem isFull_congr : f'.isFull = f.isFull := by
  rw [Bool.eq_iff_iff, isFull_iff, isFull_iff, h]

theorem write_congr (val : α) : (f'.write val).contents = (f.write val).contents := by
  rcases f.contents_length_le.lt_or_eq with hlt | hfull
  · rw [write_contents_of_lt f val hlt, write_contents_of_lt f' val (by rwa [h]), h]
  · rw [write_of_full f val hfull, write_of_full f' val (by rwa [h]), h]

theorem read_congr (hne : f.isEmpty = false) :
    f'.read.1 = f.read.1 ∧ f'.read.2.contents = f.read.2.contents := by
  rw [Bool.eq_false_iff, Ne, isEmpty_iff] at hne
  obtain ⟨a, rest, hcons⟩ := List.exists_cons_of_ne_nil hne
  obtain ⟨ha, hrest⟩ := read_of_contents_cons f hcons
  obtain ⟨ha', hrest'⟩ := read_of_contents_cons f' (h.trans hcons)
  exact ⟨ha'.trans ha.symm, hrest'.trans hrest.symm⟩

end FIFO

namespace GPU3D
namespace CommandEngine

/-- Two queues that differ in how the command FIFO keeps what it holds. -/
def Alike (q q' : CommandEngine) : Prop :=
  ∃ f : FIFO CmdFIFOEntry 256, f.contents = q.cmdFIFO.contents ∧ q' = { q with cmdFIFO := f }

namespace Alike
variable {q q' : CommandEngine}

theorem refl (q : CommandEngine) : q.Alike q := ⟨q.cmdFIFO, rfl, rfl⟩

theorem level (h : q.Alike q') : q'.cmdFIFO.level = q.cmdFIFO.level := by
  obtain ⟨f, hf, rfl⟩ := h
  exact FIFO.level_congr hf

theorem noteCommand (h : q.Alike q') (e : CmdFIFOEntry) :
    (q.noteCommand e).Alike (q'.noteCommand e) := by
  obtain ⟨f, hf, rfl⟩ := h
  refine ⟨f, hf.trans (congrArg FIFO.contents (noteCommand_cmdFIFO q e).symm), ?_⟩
  rw [CommandEngine.noteCommand, CommandEngine.noteCommand]
  dsimp only
  split_ifs <;> rfl

theorem cmdFIFOWrite (h : q.Alike q') (e : CmdFIFOEntry) :
    (q.cmdFIFOWrite e).Alike (q'.cmdFIFOWrite e) := by
  obtain ⟨f, hf, rfl⟩ := h
  rw [CommandEngine.cmdFIFOWrite, CommandEngine.cmdFIFOWrite]
  dsimp only
  rw [FIFO.isEmpty_congr hf, FIFO.isFull_congr hf]
  split_ifs
  · exact noteCommand (q := { q with cmdPIPE := q.cmdPIPE.write e }) ⟨f, hf, rfl⟩ e
  · exact ⟨f, hf, rfl⟩
  · exact noteCommand (q := { q with cmdFIFO := q.cmdFIFO.write e })
      ⟨f.write e, FIFO.write_congr hf e, rfl⟩ e

theorem checkFIFODMA (h : q.Alike q') : q.checkFIFODMA.Alike q'.checkFIFODMA := by
  have hlevel := h.level
  obtain ⟨f, hf, rfl⟩ := h
  rw [CommandEngine.checkFIFODMA, CommandEngine.checkFIFODMA, hlevel]
  split_ifs <;> exact ⟨f, hf, rfl⟩

theorem checkFIFOIRQ (h : q.Alike q') : q.checkFIFOIRQ.Alike q'.checkFIFOIRQ := by
  have hlevel := h.level
  obtain ⟨f, hf, rfl⟩ := h
  rw [CommandEngine.checkFIFOIRQ, CommandEngine.checkFIFOIRQ, hlevel, FIFO.isEmpty_congr hf]
  exact ⟨f, hf, rfl⟩

theorem refillPIPE (h : q.Alike q') : q.refillPIPE.Alike q'.refillPIPE := by
  obtain ⟨f, hf, rfl⟩ := h
  rw [CommandEngine.refillPIPE, CommandEngine.refillPIPE]
  dsimp only
  rw [FIFO.isEmpty_congr hf]
  split_ifs with hempty
  · exact ⟨f, hf, rfl⟩
  · obtain ⟨hread, hrest⟩ := FIFO.read_congr hf (Bool.eq_false_iff.mpr hempty)
    rw [hread]
    exact ⟨f.read.2, hrest, rfl⟩

theorem drainStallQueue (rounds : ℕ) (h : q.Alike q') :
    (CommandEngine.drainStallQueue rounds q).Alike (CommandEngine.drainStallQueue rounds q') := by
  induction rounds generalizing q q' with
  | zero => exact h
  | succ rounds ih =>
    obtain ⟨f, hf, rfl⟩ := h
    rw [CommandEngine.drainStallQueue, CommandEngine.drainStallQueue]
    dsimp only
    rw [FIFO.isFull_congr hf]
    split_ifs
    · exact ⟨f, hf, rfl⟩
    · exact ⟨f, hf, rfl⟩
    · exact ih (cmdFIFOWrite (q := { q with cmdStallQueue := q.cmdStallQueue.read.2 })
        ⟨f, hf, rfl⟩ _)

theorem emptyStallQueue (h : q.Alike q') : q.emptyStallQueue.Alike q'.emptyStallQueue := by
  have hdrain := h.drainStallQueue q.cmdStallQueue.level
  obtain ⟨f, hf, rfl⟩ := h
  rw [CommandEngine.emptyStallQueue, CommandEngine.emptyStallQueue]
  dsimp only at hdrain ⊢
  obtain ⟨d, hd, heq⟩ := hdrain
  rw [heq]
  split_ifs
  · exact ⟨f, hf, rfl⟩
  · exact ⟨d, hd, rfl⟩
  · exact ⟨d, hd, rfl⟩

theorem cmdFIFORead (h : q.Alike q') :
    q'.cmdFIFORead.1 = q.cmdFIFORead.1 ∧ q.cmdFIFORead.2.Alike q'.cmdFIFORead.2 := by
  obtain ⟨f, hf, rfl⟩ := h
  rw [CommandEngine.cmdFIFORead, CommandEngine.cmdFIFORead]
  dsimp only
  have hpiped : Alike { q with cmdPIPE := q.cmdPIPE.read.2 }
      { q with cmdPIPE := q.cmdPIPE.read.2, cmdFIFO := f } := ⟨f, hf, rfl⟩
  split_ifs
  · exact ⟨rfl, hpiped.refillPIPE.refillPIPE.emptyStallQueue.checkFIFODMA.checkFIFOIRQ⟩
  · exact ⟨rfl, hpiped⟩

theorem foldl_cmdFIFOWrite (es : List CmdFIFOEntry) (h : q.Alike q') :
    (es.foldl CommandEngine.cmdFIFOWrite q).Alike (es.foldl CommandEngine.cmdFIFOWrite q') := by
  induction es generalizing q q' with
  | nil => exact h
  | cons e es ih => exact ih (h.cmdFIFOWrite e)

theorem write32 (h : q.Alike q') (addr val : U32) :
    (q.write32 addr val).Alike (q'.write32 addr val) := by
  obtain ⟨f, hf, rfl⟩ := h
  exact foldl_cmdFIFOWrite _ ⟨f, hf, rfl⟩

theorem setStat (h : q.Alike q') (f : U32 → U32) :
    Alike { q with gxStat := f q.gxStat } { q' with gxStat := f q'.gxStat } := by
  obtain ⟨r, hr, rfl⟩ := h
  exact ⟨r, hr, rfl⟩

end Alike

theorem alike_savedFIFO (q : CommandEngine) : q.Alike { q with cmdFIFO := savedFIFO q.cmdFIFO } := by
  refine ⟨_, ?_, rfl⟩
  rw [savedFIFO]
  split_ifs with hempty
  · rw [(FIFO.isEmpty_iff _).mp hempty]
    rfl
  · rfl

end CommandEngine
end GPU3D
end MelonDS

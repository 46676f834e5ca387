import MelonDS.GPU3D.AlikeCommands

/-!
# What a savestate leaves out

An engine and the one that loaded its savestate go through the same commands, reads and
VBlanks side by side. They stay alike, and show the same, as long as lighting finds the same
reciprocals in both.
-/

namespace MelonDS
namespace GPU3D
namespace Alike
variable {g g' : GPU3D}

/-! ## Run -/

theorem settleBusyBits (h : g.Alike g') : g.settleBusyBits.Alike g'.settleBusyBits := by
  have hcounts {x x' : GPU3D} (hx : x.Alike x') :
      x'.queue.numPushPopCommands = x.queue.numPushPopCommands ∧
        x'.queue.numTestCommands = x.queue.numTestCommands := by
    obtain ⟨f, -, heq⟩ := hx.queue
    rw [heq]
    exact ⟨rfl, rfl⟩
  have hfirst : Alike (if g.queue.numPushPopCommands = 0 then g.setStat (· &&& ~~~bit 32 14) else g)
      (if g'.queue.numPushPopCommands = 0 then g'.setStat (· &&& ~~~bit 32 14) else g') := by
    rw [(hcounts h).1]
    exact ite (h.setStat _) h
  rw [GPU3D.settleBusyBits, GPU3D.settleBusyBits]
  rw [(hcounts hfirst).2]
  exact ite (hfirst.setStat _) hfirst

theorem finishWork (h : g.Alike g') (cycles : ℤ) :
    (g.finishWork cycles).Alike (g'.finishWork cycles) := by
  have hdone := h.timed fun t =>
    let t := t.addCycles cycles
    { t with
      normalPipeline :=
        if t.normalPipeline ≠ 0 then t.normalPipeline - min t.normalPipeline cycles
        else t.normalPipeline
      cycleCount := 0 }
  rw [GPU3D.finishWork, GPU3D.finishWork]
  dsimp only at hdone ⊢
  rw [hdone.timing]
  exact ite hdone (hdone.setStat _)

theorem cmdPIPE (h : g.Alike g') :
    g'.queue.cmdPIPE = g.queue.cmdPIPE ∧ g'.queue.gxStat = g.queue.gxStat ∧
      g'.queue.cmdStallQueue = g.queue.cmdStallQueue := by
  obtain ⟨f, -, heq⟩ := h.queue
  rw [heq]
  exact ⟨rfl, rfl, rfl⟩

theorem finishRun (h : g.Alike g') : g.finishRun.Alike g'.finishRun := by
  rw [GPU3D.finishRun, GPU3D.finishRun, h.timing, h.cmdPIPE.1, h.cmdPIPE.2.1]
  exact ite (ite (h.finishWork _) (h.timed _)).settleBusyBits h

end Alike

/-- The commands of the loop of `Run` start no lighting with reciprocals that differ. -/
def CommandsLit : ℕ → GPU3D → GPU3D → Prop
  | 0, _, _ => True
  | rounds + 1, g, g' =>
    g.timing.cycleCount ≤ 0 ∧ g.queue.cmdPIPE.isEmpty = false →
      EntryLit g.settleBusyBits.queue.cmdFIFORead.1 g.settleBusyBits g'.settleBusyBits ∧
        CommandsLit rounds g.settleBusyBits.executeCommand g'.settleBusyBits.executeCommand

def RunLit (now : U64) (g g' : GPU3D) : Prop :=
  g.idle = false → CommandsLit g.queued (g.startRun now) (g'.startRun now)

namespace Alike
variable {g g' : GPU3D}

theorem runCommands (h : g.Alike g') {rounds : ℕ} (hlit : CommandsLit rounds g g') :
    (GPU3D.runCommands rounds g).Alike (GPU3D.runCommands rounds g') := by
  induction rounds generalizing g g' with
  | zero => exact h
  | succ rounds ih =>
    rw [GPU3D.runCommands, GPU3D.runCommands, h.timing, h.cmdPIPE.1]
    split_ifs with hready
    · obtain ⟨hentry, hrest⟩ := hlit hready
      exact ih (h.settleBusyBits.executeCommand hentry) hrest
    · exact h

theorem queued (h : g.Alike g') : g'.queued = g.queued := by
  rw [GPU3D.queued, GPU3D.queued, h.cmdPIPE.1, h.cmdPIPE.2.2, h.queue.level]

theorem power (h : g.Alike g') :
    g'.geometryEnabled = g.geometryEnabled ∧ g'.renderingEnabled = g.renderingEnabled := by
  obtain ⟨p, -, rfl⟩ := h
  exact ⟨rfl, rfl⟩

theorem idle (h : g.Alike g') : g'.idle = g.idle := by
  rw [GPU3D.idle, GPU3D.idle, h.power.1, h.scene, h.cmdPIPE.1, h.cmdPIPE.2.1]

theorem startRun (h : g.Alike g') (now : U64) : (g.startRun now).Alike (g'.startRun now) := by
  obtain ⟨p, hp, rfl⟩ := h
  exact ⟨p, ⟨hp.queue, hp.clip, hp.clip'⟩, Eq.refl _⟩

theorem run (h : g.Alike g') {now : U64} (hlit : RunLit now g g') :
    (g.run now).Alike (g'.run now) := by
  rw [run_eq, run_eq, h.idle, h.queued]
  by_cases hidle : g.idle = true
  · rw [if_pos hidle, if_pos hidle]
    exact h.setTimestamp now
  · rw [if_neg hidle, if_neg hidle]
    exact ((h.startRun now).runCommands (hlit (Bool.eq_false_iff.mpr hidle))).finishRun

/-! ## Registers -/

theorem ignores (h : g.Alike g') (addr : U32) : g'.ignores addr = g.ignores addr := by
  rw [GPU3D.ignores, GPU3D.ignores, h.power.1, h.power.2]

theorem ackStackError (h : g.Alike g') : g.ackStackError.Alike g'.ackStackError := by
  rw [GPU3D.ackStackError, GPU3D.ackStackError]
  refine (h.setStat _).setMatrices ?_
  exact fun _ => ⟨rfl, rfl⟩

theorem writeFIFOMode (h : g.Alike g') (bits : U32) :
    (g.writeFIFOMode bits).Alike (g'.writeFIFOMode bits) :=
  have hset := h.setStat fun stat => (stat &&& 0x3FFFFFFF) ||| bits
  hset.setQueue hset.queue.checkFIFOIRQ

theorem write8 (h : g.Alike g') (addr : U32) (val : U8) :
    (g.write8 addr val).Alike (g'.write8 addr val) := by
  rw [GPU3D.write8, GPU3D.write8, h.ignores]
  refine ite h ?_
  refine ite (h.setRegisters _) ?_
  refine ite (ite h.ackStackError h) ?_
  refine ite (h.writeFIFOMode _) ?_
  refine ite (h.setRegisters _) ?_
  refine ite (h.setRegisters _) ?_
  exact ite (h.setRegisters _) h

theorem write16 (h : g.Alike g') (addr : U32) (val : U16) :
    (g.write16 addr val).Alike (g'.write16 addr val) := by
  rw [GPU3D.write16, GPU3D.write16, h.ignores]
  refine ite h ?_
  iterate 9 refine ite (h.setRegisters _) ?_
  refine ite (ite h.ackStackError h) ?_
  refine ite (h.writeFIFOMode _) ?_
  refine ite (h.setZeroDotWLimit _) ?_
  refine ite (h.setRegisters _) ?_
  refine ite (h.setRegisters _) ?_
  exact ite (h.setRegisters _) h

theorem write32 (h : g.Alike g') (addr val : U32) :
    (g.write32 addr val).Alike (g'.write32 addr val) := by
  rw [GPU3D.write32, GPU3D.write32, h.ignores]
  refine ite h ?_
  iterate 6 refine ite (h.setRegisters _) ?_
  refine ite ((ite h.ackStackError h).writeFIFOMode _) ?_
  refine ite (h.setZeroDotWLimit _) ?_
  refine ite (h.setQueue (h.queue.write32 addr val)) ?_
  refine ite (h.setRegisters _) ?_
  refine ite (h.setRegisters _) ?_
  exact ite (h.setRegisters _) h

/-- A read gives the same value and leaves engines alike. -/
def SameRead {α : Type} (r r' : α × GPU3D) : Prop := r'.1 = r.1 ∧ r.2.Alike r'.2

theorem SameRead.ite {α : Type} {c : Prop} [Decidable c] {x x' y y' : α × GPU3D}
    (hx : c → SameRead x x') (hy : SameRead y y') :
    SameRead (if c then x else y) (if c then x' else y') := by
  split_ifs with hc
  · exact hx hc
  · exact hy

theorem fifoLevel (h : g.Alike g') : g'.fifoLevel = g.fifoLevel := by
  rw [GPU3D.fifoLevel, GPU3D.fifoLevel, h.queue.level]

theorem fifoFlags (h : g.Alike g') (shift : ℕ) : g'.fifoFlags shift = g.fifoFlags shift := by
  rw [GPU3D.fifoFlags, GPU3D.fifoFlags, h.fifoLevel]

theorem stackLevels (h : g.Alike g') : g'.posLevel = g.posLevel ∧ g'.projLevel = g.projLevel := by
  rw [posLevel, posLevel, projLevel, projLevel, h.matrices]
  exact ⟨rfl, rfl⟩

/-- A value read from the status register or the FIFO level. -/
theorem status {α : Type} (h : g.Alike g') (f : U32 → U32 → U32 → U32 → U32 → α) (shift : ℕ) :
    SameRead
      (f g.queue.gxStat g.posLevel g.projLevel g.fifoLevel (g.fifoFlags shift), g)
      (f g'.queue.gxStat g'.posLevel g'.projLevel g'.fifoLevel (g'.fifoFlags shift), g') := by
  rw [h.cmdPIPE.2.1, h.stackLevels.1, h.stackLevels.2, h.fifoLevel, h.fifoFlags]
  exact ⟨rfl, h⟩

end Alike

/-- A read of the status register runs the engine first. -/
def ReadLit (now : U64) (addr : U32) (g g' : GPU3D) : Prop :=
  0x04000600 ≤ addr ∧ addr < 0x04000604 → RunLit now g g'

namespace Alike
variable {g g' : GPU3D}

theorem read8 (h : g.Alike g') {now : U64} {addr : U32} (hlit : ReadLit now addr g g') :
    SameRead (g.read8 now addr) (g'.read8 now addr) := by
  rw [GPU3D.read8, GPU3D.read8]
  refine .ite (fun hc => ?_) (.ite (fun hc => ?_) (.ite (fun hc => ?_)
    (.ite (fun hc => ?_) ⟨rfl, h⟩)))
  · exact (h.run (hlit (by rw [hc]; decide))).status (fun stat _ _ _ _ => stat.setWidth 8) 0
  · exact (h.run (hlit (by rw [hc]; decide))).status (fun stat pos proj _ _ =>
      (((stat >>> 8) &&& 0xFF) ||| pos ||| (proj <<< 5)).setWidth 8) 0
  · exact (h.run (hlit (by rw [hc]; decide))).status (fun _ _ _ level _ => level.setWidth 8) 0
  · exact (h.run (hlit (by rw [hc]; decide))).status (fun stat _ _ level flags =>
      (((stat >>> 24) &&& 0xFF) ||| (level >>> 8) ||| flags).setWidth 8) 1

theorem sameValue {α : Type} (h : g.Alike g') {v v' : α} (hv : v' = v) :
    SameRead (v, g) (v', g') := ⟨hv, h⟩

theorem registers (h : g.Alike g') : g'.registers = g.registers := by
  obtain ⟨p, -, rfl⟩ := h
  rfl

theorem tests (h : g.Alike g') : g'.tests = g.tests := by
  obtain ⟨p, -, rfl⟩ := h
  rfl

theorem read16 (h : g.Alike g') {now : U64} {addr : U32} (hlit : ReadLit now addr g g') :
    SameRead (g.read16 now addr) (g'.read16 now addr) := by
  rw [GPU3D.read16, GPU3D.read16, h.registers, h.scene, h.tests]
  iterate 2 refine .ite (fun _ => ⟨rfl, h⟩) ?_
  refine .ite (fun hc => ?_) (.ite (fun hc => ?_) ?_)
  · exact (h.run (hlit (by rw [hc]; decide))).status (fun stat pos proj _ _ =>
      ((stat &&& 0xFFFF) ||| (pos <<< 8) ||| (proj <<< 13)).setWidth 16) 0
  · exact (h.run (hlit (by rw [hc]; decide))).status (fun stat _ _ level flags =>
      ((stat >>> 16) ||| level ||| flags).setWidth 16) 9
  · iterate 5 refine .ite (fun _ => ⟨rfl, h⟩) ?_
    exact ⟨rfl, h⟩

theorem read32 (h : g.Alike g') {now : U64} {addr : U32} (hlit : ReadLit now addr g g') :
    SameRead (g.read32 now addr) (g'.read32 now addr) := by
  obtain ⟨hupdated, hclip⟩ := h.updateClipMatrix
  rw [GPU3D.read32, GPU3D.read32, h.registers, h.scene, h.tests, h.matrices]
  iterate 2 refine .ite (fun _ => ⟨rfl, h⟩) ?_
  refine .ite (fun hc => ?_) ?_
  · exact (h.run (hlit (by rw [hc]; decide))).status (fun stat pos proj level flags =>
      stat ||| (pos <<< 8) ||| (proj <<< 13) ||| (level <<< 16) ||| flags) 25
  · iterate 14 refine .ite (fun _ => ⟨rfl, h⟩) ?_
    refine .ite (fun _ => ?_) ⟨rfl, h⟩
    exact hupdated.sameValue (congrArg (elem · _) hclip)

end Alike

/-! ## VBlank and power -/

/-- The swap and the latched registers do not depend on what may differ. -/
theorem patch_vblank (g : GPU3D) (p : Patch) :
    ∃ identical, (g.patch p).vblank = g.vblank.patch ⟨p.queue, p.derived, identical⟩ := by
  obtain ⟨queue, execParams, execParamCount, timing, timestamp, matrices, derived, attributes,
    lighting, tests, assembly, scene, zeroDotWLimit, registers, render, renderFrameIdentical,
    renderXPos, abortFrame, geometryEnabled, renderingEnabled⟩ := g
  cases geometryEnabled <;> cases renderingEnabled <;> cases hflush : scene.flushRequest
  all_goals
    rw [vblank, vblank]
    simp only [patch, hflush]
    exact ⟨_, Eq.refl _⟩

theorem sameMatrices_vblank (g : GPU3D) : SameMatrices g g.vblank := by
  rw [vblank]
  cases g.geometryEnabled <;> cases g.renderingEnabled <;> cases g.scene.flushRequest
  all_goals exact ⟨rfl, rfl, rfl⟩

namespace Alike
variable {g g' : GPU3D}

theorem vblank (h : g.Alike g') : g.vblank.Alike g'.vblank := by
  obtain ⟨p, hp, rfl⟩ := h
  obtain ⟨identical, heq⟩ := patch_vblank g p
  obtain ⟨hqueue, hderived, hmatrices⟩ := sameMatrices_vblank g
  refine ⟨⟨p.queue, p.derived, identical⟩, ⟨?_, ?_, ?_⟩, heq⟩
  · rw [hqueue]
    exact hp.queue
  · rw [hderived, hmatrices]
    exact hp.clip
  · rw [hmatrices]
    exact hp.clip'

theorem setEnabled (h : g.Alike g') (geometry rendering : Bool) :
    (g.setEnabled geometry rendering).Alike (g'.setEnabled geometry rendering) := by
  obtain ⟨p, hp, rfl⟩ := h
  cases rendering with
  | true => exact ⟨p, ⟨hp.queue, hp.clip, hp.clip'⟩, Eq.refl _⟩
  | false => exact ⟨p, ⟨hp.queue, hp.clip, hp.clip'⟩, Eq.refl _⟩

theorem setRenderXPos (h : g.Alike g') (xpos mask : U16) :
    (g.setRenderXPos xpos mask).Alike (g'.setRenderXPos xpos mask) := by
  obtain ⟨p, hp, rfl⟩ := h
  have hset := commute ⟨p, hp, rfl⟩
    (F := fun g => { g with renderXPos := (g.renderXPos &&& ~~~mask) ||| (xpos &&& mask &&& 0x01FF) })
    (fun _ => Eq.refl _) (Eq.refl _) (Eq.refl _) (Eq.refl _)
  rw [GPU3D.setRenderXPos, GPU3D.setRenderXPos]
  exact ite (c := (!g.renderingEnabled) = true) ⟨p, hp, rfl⟩ hset

end Alike

/-! ## Runs -/

inductive EngineOp
  | write8 (addr : U32) (val : U8)
  | write16 (addr : U32) (val : U16)
  | write32 (addr val : U32)
  | read8 (now : U64) (addr : U32)
  | read16 (now : U64) (addr : U32)
  | read32 (now : U64) (addr : U32)
  | run (now : U64)
  | vblank
  | setEnabled (geometry rendering : Bool)
  | setRenderXPos (xpos mask : U16)

/-- The value read, if one is, and the state after the operation. -/
def EngineOp.apply (g : GPU3D) : EngineOp → U32 × GPU3D
  | .write8 addr val => (0, g.write8 addr val)
  | .write16 addr val => (0, g.write16 addr val)
  | .write32 addr val => (0, g.write32 addr val)
  | .read8 now addr => ((g.read8 now addr).1.setWidth 32, (g.read8 now addr).2)
  | .read16 now addr => ((g.read16 now addr).1.setWidth 32, (g.read16 now addr).2)
  | .read32 now addr => g.read32 now addr
  | .run now => (0, g.run now)
  | .vblank => (0, g.vblank)
  | .setEnabled geometry rendering => (0, g.setEnabled geometry rendering)
  | .setRenderXPos xpos mask => (0, g.setRenderXPos xpos mask)

/-- The operation starts no lighting with reciprocals that differ. -/
def EngineOp.Lit (g g' : GPU3D) : EngineOp → Prop
  | .read8 now addr => ReadLit now addr g g'
  | .read16 now addr => ReadLit now addr g g'
  | .read32 now addr => ReadLit now addr g g'
  | .run now => RunLit now g g'
  | _ => True

/-- What is seen of the engine from outside: its RAM, the render list with what is drawn of
it, and what it drives in `NDS`. -/
structure Outcome where
  value : U32
  vertexRAM : ℕ → StoredVertex
  polygonRAM : ℕ → Polygon
  renderPolygonRAM : ℕ → Option ℕ
  renderNumPolygons : ℕ
  gxfifoIRQ : Bool
  gxStall : Bool
  dmaChecks : ℕ

def EngineOp.outcome (op : EngineOp) (g : GPU3D) : Outcome :=
  let (value, g) := op.apply g
  { value := value
    vertexRAM := g.scene.vertexRAM
    polygonRAM := g.scene.polygonRAM
    renderPolygonRAM := g.scene.renderPolygonRAM
    renderNumPolygons := g.scene.renderNumPolygons
    gxfifoIRQ := g.queue.gxfifoIRQ
    gxStall := g.queue.gxStall
    dmaChecks := g.queue.dmaChecks }

/-- One operation on two engines side by side. -/
def EngineOp.both (p : GPU3D × GPU3D) (op : EngineOp) : GPU3D × GPU3D :=
  ((op.apply p.1).2, (op.apply p.2).2)

theorem Alike.apply {g g' : GPU3D} (h : g.Alike g') {op : EngineOp} (hop : op.Lit g g') :
    SameRead (op.apply g) (op.apply g') := by
  cases op with
  | write8 addr val => exact ⟨rfl, h.write8 addr val⟩
  | write16 addr val => exact ⟨rfl, h.write16 addr val⟩
  | write32 addr val => exact ⟨rfl, h.write32 addr val⟩
  | read8 now addr =>
    obtain ⟨hvalue, hafter⟩ := h.read8 hop
    exact ⟨congrArg (BitVec.setWidth 32) hvalue, hafter⟩
  | read16 now addr =>
    obtain ⟨hvalue, hafter⟩ := h.read16 hop
    exact ⟨congrArg (BitVec.setWidth 32) hvalue, hafter⟩
  | read32 now addr => exact h.read32 hop
  | run now => exact ⟨rfl, h.run hop⟩
  | vblank => exact ⟨rfl, h.vblank⟩
  | setEnabled geometry rendering => exact ⟨rfl, h.setEnabled geometry rendering⟩
  | setRenderXPos xpos mask => exact ⟨rfl, h.setRenderXPos xpos mask⟩

theorem Alike.outcome {g g' : GPU3D} (h : g.Alike g') {op : EngineOp} (hop : op.Lit g g') :
    op.outcome g' = op.outcome g := by
  obtain ⟨hvalue, hafter⟩ := h.apply hop
  obtain ⟨f, -, hqueue⟩ := hafter.queue
  rw [EngineOp.outcome, EngineOp.outcome]
  dsimp only
  rw [hvalue, hafter.scene, hqueue]

/-- An engine next to itself. -/
theorem lit_self (g : GPU3D) (op : EngineOp) : op.Lit g g := by
  have hcommands (rounds : ℕ) (g : GPU3D) : CommandsLit rounds g g := by
    induction rounds generalizing g with
    | zero => exact trivial
    | succ rounds ih => exact fun _ => ⟨fun _ _ _ _ => rfl, ih _⟩
  have hrun (now : U64) : RunLit now g g := fun _ => hcommands _ _
  cases op with
  | read8 now addr => exact fun _ => hrun now
  | read16 now addr => exact fun _ => hrun now
  | read32 now addr => exact fun _ => hrun now
  | run now => exact hrun now
  | _ => trivial

theorem alike_initial : initial.Alike initial :=
  ⟨⟨initial.queue, initial.derived, initial.renderFrameIdentical⟩,
    ⟨.refl _, fun _ => rfl, fun _ => rfl⟩, Eq.refl _⟩

/-- Every state reached has its clip matrix right or due to be computed. -/
theorem alike_reached (ops : List EngineOp) :
    let g := ops.foldl (fun g op => (op.apply g).2) initial
    g.Alike g := by
  have hrun (g : GPU3D) (h : g.Alike g) :
      Alike (ops.foldl (fun g op => (op.apply g).2) g) (ops.foldl (fun g op => (op.apply g).2) g) := by
    induction ops generalizing g with
    | nil => exact h
    | cons op ops ih => exact ih _ (h.apply (lit_self g op)).2
  exact hrun initial alike_initial

/-! ## Loading -/

/-- Every polygon has the flag loading would give it. -/
def Scene.DegenerateCurrent (s : Scene) : Prop :=
  ∀ k, (s.polygonRAM k).degenerate = s.degenerate (s.polygonRAM k)

theorem Scene.loaded_of_current {s : Scene} (h : s.DegenerateCurrent) : s.loaded = s := by
  have hpolygons : (fun k => { s.polygonRAM k with degenerate := s.degenerate (s.polygonRAM k) }) =
      s.polygonRAM := by
    funext k
    rw [← h k]
  rw [Scene.loaded, hpolygons]

theorem Alike.load {g : GPU3D} (h : g.Alike g) (hscene : g.scene.DegenerateCurrent) (f : GPU3D) :
    g.Alike (GPU3D.load g.save f) := by
  have hclip : g.derived.Valid g.matrices := by
    obtain ⟨p, hp, -⟩ := h
    exact hp.clip
  refine ⟨⟨g.save.queue, (GPU3D.load g.save f).derived, false⟩,
    ⟨CommandEngine.alike_savedFIFO _, hclip, fun _ => rfl⟩, ?_⟩
  have hloaded : g.save.scene.loaded = g.scene := Scene.loaded_of_current hscene
  rw [GPU3D.load, hloaded]
  exact Eq.refl _

/-- The engine reached by `ops`, and a freshly reset one that loaded its savestate. -/
def resumed (ops : List EngineOp) (f : GPU3D) : GPU3D × GPU3D :=
  let g := ops.foldl (fun g op => (op.apply g).2) initial
  (g, load g.save f.reset)

theorem savestate_complete (ops : List EngineOp) (f : GPU3D) (later : List EngineOp)
    (hscene : (resumed ops f).1.scene.DegenerateCurrent)
    (hlit : ∀ p ∈ trace EngineOp.both (resumed ops f) later, p.2.Lit p.1.1 p.1.2) :
    ∀ p ∈ trace EngineOp.both (resumed ops f) later,
      p.2.outcome p.1.2 = p.2.outcome p.1.1 := by
  intro p hp
  have hstart : (resumed ops f).1.Alike (resumed ops f).2 :=
    (alike_reached ops).load hscene f.reset
  obtain ⟨halike, hop⟩ := trace_invariant (P := fun p : GPU3D × GPU3D => p.1.Alike p.2)
    (C := fun p op => op.Lit p.1 p.2) (fun _ _ h hop => (h.apply hop).2) hstart hlit p hp
  exact halike.outcome hop

instance (normal : Fin 3 → S16) (g g' : GPU3D) : Decidable (LightsAgree normal g g') :=
  inferInstanceAs (Decidable (∀ l ∈ enabledLights _, _ = true → _ = _))

instance (e : CmdFIFOEntry) (g g' : GPU3D) : Decidable (EntryLit e g g') :=
  inferInstanceAs (Decidable (_ = _ → LightsAgree _ g g'))

instance decidableCommandsLit : (rounds : ℕ) → (g g' : GPU3D) →
    Decidable (CommandsLit rounds g g')
  | 0, _, _ => isTrue trivial
  | rounds + 1, g, g' =>
    have := decidableCommandsLit rounds g.settleBusyBits.executeCommand
      g'.settleBusyBits.executeCommand
    inferInstanceAs (Decidable (_ ∧ _ → EntryLit _ _ _ ∧ CommandsLit rounds _ _))

instance (now : U64) (g g' : GPU3D) : Decidable (RunLit now g g') :=
  inferInstanceAs (Decidable (_ = _ → CommandsLit _ _ _))

instance (now : U64) (addr : U32) (g g' : GPU3D) : Decidable (ReadLit now addr g g') :=
  inferInstanceAs (Decidable (_ ∧ _ → RunLit now g g'))

instance (op : EngineOp) (g g' : GPU3D) : Decidable (op.Lit g g') := by
  cases op <;> unfold EngineOp.Lit <;> infer_instance

/-- A command sent to its port. -/
def send (command : U8) (param : U32) : EngineOp :=
  .write32 (0x04000400 + (command.setWidth 32 <<< 2)) param

/-- A white light and a material that reflects it. -/
def whiteLight : List EngineOp :=
  [.setEnabled true true, send 0x33 0x7FFF, send 0x31 0x7FFF, send 0x32 0x20000000, .run 0x1000]

/-- A triangle lit by it, up to the run that draws it. -/
def litTriangle : List EngineOp :=
  [send 0x29 0xC1, send 0x40 0, send 0x21 0x1FF00000, send 0x24 0, send 0x24 0x20,
    send 0x24 0x8000]

theorem savestate_complete_whiteLight :
    (resumed [] initial).1.scene.DegenerateCurrent ∧
      ∀ p ∈ trace EngineOp.both (resumed [] initial)
          (whiteLight ++ (litTriangle ++ [.run 0x200000])),
        p.2.outcome p.1.2 = p.2.outcome p.1.1 :=
  ⟨fun _ => rfl, savestate_complete [] initial _ (fun _ => rfl) (by decide +kernel)⟩

/-- The light is set before the savestate: the triangle is lit with another reciprocal. -/
theorem savestate_incomplete :
    ¬ ∀ ops f later, ∀ p ∈ trace EngineOp.both (resumed ops f) later,
      p.2.outcome p.1.2 = p.2.outcome p.1.1 := by
  intro h
  have hlast := h whiteLight initial _ _ (MelonDS.last_mem_trace _ litTriangle (.run 0x200000))
  have hcolor := congrArg (fun o : Outcome => (o.vertexRAM 0).color 0) hlast
  exact absurd hcolor (by decide +kernel)
end GPU3D
end MelonDS

import Mathlib.Data.List.Sort
import MelonDS.GPU3D.Commands

/-!
# The swap at VBlank

`VBlank` latches the registers, sorts the polygons of the bank just filled into the render
list and turns to the other bank; `SetEnabled` and `ResetRenderingState` follow the power
control register.
-/

namespace MelonDS
namespace GPU3D

/-! ## The render list -/

/-- The places the next opaque and the next translucent polygon go to. -/
structure Separation where
  list : ℕ → Option ℕ
  opaques : ℕ
  translucents : ℕ

def Separation.place (s : Scene) (p : Separation) (slot : ℕ) : Separation :=
  if (s.polygonRAM slot).translucent then
    { p with
      list := Function.update p.list p.translucents (some slot)
      translucents := p.translucents + 1 }
  else
    { p with
      list := Function.update p.list p.opaques (some slot)
      opaques := p.opaques + 1 }

def Scene.slots (s : Scene) : List ℕ := (List.range s.numPolygons).map (s.curPolygonRAM + ·)

/-- The opaque polygons first, then the translucent ones. -/
def Scene.separated (s : Scene) : ℕ → Option ℕ :=
  (s.slots.foldl (Separation.place s) ⟨s.renderPolygonRAM, 0, s.numOpaquePolygons⟩).list

/-- `YSort`, as a weak order. -/
def Scene.sortsBefore (s : Scene) (a b : Option ℕ) : Prop :=
  (s.derefPolygon a).sortKey ≤ (s.derefPolygon b).sortKey

instance (s : Scene) : DecidableRel s.sortsBefore :=
  fun a b => inferInstanceAs (Decidable ((s.derefPolygon a).sortKey ≤ (s.derefPolygon b).sortKey))

/-- `std::stable_sort` of the first `n` entries. -/
def Scene.sortedList (s : Scene) (list : ℕ → Option ℕ) (n : ℕ) : ℕ → Option ℕ :=
  storeFrom list 0 (((List.range n).map list).insertionSort s.sortsBefore)

def Scene.renderList (s : Scene) : ℕ → Option ℕ :=
  if s.numPolygons = 0 then s.renderPolygonRAM
  else
    s.sortedList s.separated
      (if s.flushAttributes &&& 1 ≠ 0 then s.numOpaquePolygons else s.numPolygons)

/-- The scene just finished is the one to render. -/
def Scene.submit (s : Scene) : Scene :=
  { s with renderPolygonRAM := s.renderList, renderNumPolygons := s.numPolygons }

def Scene.swap (s : Scene) : Scene :=
  { s with
    curRAMBank := !s.curRAMBank
    numVertices := 0
    numPolygons := 0
    numOpaquePolygons := 0
    flushRequest := false }

/-! ## The latched registers -/

def Registers.latched (r : Registers) : RenderRegisters where
  renderDispCnt := r.dispCnt
  renderAlphaRef := r.alphaRef
  renderToonTable := r.toonTable
  renderEdgeTable := r.edgeTable
  renderFogColor := r.fogColor
  renderFogOffset := r.fogOffset * 0x200
  renderFogShift := (r.dispCnt >>> 8) &&& 0xF
  renderFogDensityTable := fun i =>
    if i.val = 0 then r.fogDensityTable 0
    else if i.val = 33 then r.fogDensityTable 31
    else r.fogDensityTable (Fin.ofNat 32 (i.val - 1))
  renderClearAttr1 := r.clearAttr1
  renderClearAttr2 := r.clearAttr2

/-- The comparison made when no new scene is taken. -/
def Registers.unchanged (r : Registers) (old : RenderRegisters) : Bool :=
  decide (old.renderDispCnt = r.dispCnt) && decide (old.renderAlphaRef = r.alphaRef) &&
    decide (old.renderClearAttr1 = r.clearAttr1) && decide (old.renderClearAttr2 = r.clearAttr2) &&
    decide (old.renderFogColor = r.fogColor) &&
    decide (old.renderFogOffset = r.fogOffset * 0x200) &&
    decide (old.renderEdgeTable = r.edgeTable) &&
    decide (∀ i : Fin 32, old.renderFogDensityTable i.succ.castSucc = r.fogDensityTable i) &&
    decide (old.renderToonTable = r.toonTable)

def vblank (g : GPU3D) : GPU3D :=
  if g.geometryEnabled then
    let flush := g.scene.flushRequest
    let g :=
      if g.renderingEnabled then
        { g with
          scene := if flush then g.scene.submit else g.scene
          renderFrameIdentical := !flush && g.registers.unchanged g.render
          render := g.registers.latched }
      else g
    if flush then { g with scene := g.scene.swap } else g
  else g

/-! ## Power -/

def resetRegisters : RenderRegisters where
  renderDispCnt := 0
  renderAlphaRef := 0
  renderToonTable := fun _ => 0
  renderEdgeTable := fun _ => 0
  renderFogColor := 0
  renderFogOffset := 0
  renderFogShift := 0
  renderFogDensityTable := fun _ => 0
  renderClearAttr1 := 0x3F000000
  renderClearAttr2 := 0x00007FFF

def resetRenderingState (g : GPU3D) : GPU3D :=
  { g with scene := { g.scene with renderNumPolygons := 0 }, render := resetRegisters }

def setEnabled (geometry rendering : Bool) (g : GPU3D) : GPU3D :=
  let g := { g with geometryEnabled := geometry, renderingEnabled := rendering }
  if !rendering then g.resetRenderingState else g

def setRenderXPos (xpos mask : U16) (g : GPU3D) : GPU3D :=
  if !g.renderingEnabled then g
  else { g with renderXPos := (g.renderXPos &&& ~~~mask) ||| (xpos &&& mask &&& 0x01FF) }

/-! ## Reset -/

/-- `Reset` leaves the RAM, the render list and the reciprocals of the lights as they are. -/
def reset (g : GPU3D) : GPU3D where
  queue :=
    { g.queue with
      cmdFIFO := g.queue.cmdFIFO.clear CommandEngine.zeroEntry
      cmdPIPE := g.queue.cmdPIPE.clear CommandEngine.zeroEntry
      cmdStallQueue := g.queue.cmdStallQueue.clear CommandEngine.zeroEntry
      gxStat := 0
      numPushPopCommands := 0
      numTestCommands := 0
      unpacker := ⟨0, 0, 0, 0⟩ }
  execParams := fun _ => 0
  execParamCount := 0
  timing :=
    { cycleCount := 0, vertexPipeline := 0, normalPipeline := 0, polygonPipeline := 0
      vertexSlotCounter := 0, vertexSlotsFree := 1 }
  timestamp := 0
  matrices :=
    { matrixMode := 0
      projMatrix := matrixLoadIdentity
      posMatrix := matrixLoadIdentity
      vecMatrix := matrixLoadIdentity
      texMatrix := matrixLoadIdentity
      projMatrixStack := fun _ => 0
      posMatrixStack := fun i => if i = 31 then g.matrices.posMatrixStack 31 else fun _ => 0
      vecMatrixStack := fun i => if i = 31 then g.matrices.vecMatrixStack 31 else fun _ => 0
      texMatrixStack := fun _ => 0
      projMatrixStackPointer := 0
      posMatrixStackPointer := 0
      texMatrixStackPointer := 0 }
  derived :=
    { clipMatrix := matrixMult4x4 matrixLoadIdentity (elem matrixLoadIdentity)
      clipMatrixDirty := false
      specRecip := g.derived.specRecip }
  attributes :=
    { polygonMode := 0
      curVertex := fun _ => 0
      vertexColor := fun _ => 0
      texCoords := fun _ => 0
      rawTexCoords := fun _ => 0
      normal := fun _ => 0
      polygonAttr := 0
      curPolygonAttr := 0
      texParam := 0
      texPalette := 0
      viewport := fun _ => 0 }
  lighting :=
    { lightDirection := fun _ _ => 0
      lightColor := fun _ _ => 0
      matDiffuse := fun _ => 0
      matAmbient := fun _ => 0
      matSpecular := fun _ => 0
      matEmission := fun _ => 0
      useShininessTable := false
      shininessTable := fun _ => 0 }
  tests := { posTestResult := fun _ => 0, vecTestResult := fun _ => 0 }
  assembly :=
    { tempVertexBuffer := fun _ => zeroVertex
      vertexNum := 0
      vertexNumInPoly := 0
      numConsecutivePolygons := 0 }
  scene :=
    { g.scene with
      curRAMBank := false
      numVertices := 0
      numPolygons := 0
      numOpaquePolygons := 0
      lastStripPolygon := none
      renderNumPolygons := 0
      flushRequest := false
      flushAttributes := 0 }
  zeroDotWLimit := 0xFFFFFF
  registers :=
    { dispCnt := 0
      alphaRefVal := 0
      alphaRef := 0
      toonTable := fun _ => 0
      edgeTable := fun _ => 0
      fogColor := 0
      fogOffset := 0
      fogDensityTable := fun _ => 0
      clearAttr1 := 0x3F000000
      clearAttr2 := 0x00007FFF }
  render := resetRegisters
  renderFrameIdentical := false
  renderXPos := 0
  abortFrame := false
  geometryEnabled := false
  renderingEnabled := false

/-- The engine as constructed, zero but for the command queues' own defaults. -/
def constructed : GPU3D where
  queue := .reset
  execParams := fun _ => 0
  execParamCount := 0
  timing :=
    { cycleCount := 0, vertexPipeline := 0, normalPipeline := 0, polygonPipeline := 0
      vertexSlotCounter := 0, vertexSlotsFree := 0 }
  timestamp := 0
  matrices :=
    { matrixMode := 0
      projMatrix := fun _ => 0
      posMatrix := fun _ => 0
      vecMatrix := fun _ => 0
      texMatrix := fun _ => 0
      projMatrixStack := fun _ => 0
      posMatrixStack := fun _ _ => 0
      vecMatrixStack := fun _ _ => 0
      texMatrixStack := fun _ => 0
      projMatrixStackPointer := 0
      posMatrixStackPointer := 0
      texMatrixStackPointer := 0 }
  derived := { clipMatrix := fun _ => 0, clipMatrixDirty := false, specRecip := fun _ => 0 }
  attributes :=
    { polygonMode := 0
      curVertex := fun _ => 0
      vertexColor := fun _ => 0
      texCoords := fun _ => 0
      rawTexCoords := fun _ => 0
      normal := fun _ => 0
      polygonAttr := 0
      curPolygonAttr := 0
      texParam := 0
      texPalette := 0
      viewport := fun _ => 0 }
  lighting :=
    { lightDirection := fun _ _ => 0
      lightColor := fun _ _ => 0
      matDiffuse := fun _ => 0
      matAmbient := fun _ => 0
      matSpecular := fun _ => 0
      matEmission := fun _ => 0
      useShininessTable := false
      shininessTable := fun _ => 0 }
  tests := { posTestResult := fun _ => 0, vecTestResult := fun _ => 0 }
  assembly :=
    { tempVertexBuffer := fun _ => zeroVertex
      vertexNum := 0
      vertexNumInPoly := 0
      numConsecutivePolygons := 0 }
  scene :=
    { vertexRAM := fun _ => zeroVertex
      polygonRAM := fun _ => zeroPolygon
      curRAMBank := false
      numVertices := 0
      numPolygons := 0
      numOpaquePolygons := 0
      lastStripPolygon := none
      renderPolygonRAM := fun _ => none
      renderNumPolygons := 0
      flushRequest := false
      flushAttributes := 0 }
  zeroDotWLimit := 0xFFFFFF
  registers :=
    { dispCnt := 0
      alphaRefVal := 0
      alphaRef := 0
      toonTable := fun _ => 0
      edgeTable := fun _ => 0
      fogColor := 0
      fogOffset := 0
      fogDensityTable := fun _ => 0
      clearAttr1 := 0
      clearAttr2 := 0 }
  render := { resetRegisters with renderClearAttr1 := 0, renderClearAttr2 := 0 }
  renderFrameIdentical := false
  renderXPos := 0
  abortFrame := false
  geometryEnabled := false
  renderingEnabled := false

def initial : GPU3D := constructed.reset

end GPU3D
end MelonDS

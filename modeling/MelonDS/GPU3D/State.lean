import MelonDS.GPU3D.Clip
import MelonDS.GPU3D.CommandFIFO

/-!
# The state of the 3D engine

The members of `GPU3D` in `GPU3D.h`, grouped by the part of the engine they belong to.
Pointers into vertex and polygon RAM are indices, `CurVertexRAM` and `CurPolygonRAM` follow
from `CurRAMBank`, and arrays that clipping can overrun are functions on the naturals.
-/

namespace MelonDS
namespace GPU3D

abbrev Matrix := Fin 16 → S32

/-- A vertex with the attributes computed when its polygon is built. -/
structure StoredVertex extends Vertex where
  finalPosition : Fin 2 → S32
  finalColor : Fin 3 → S32
  hiresPosition : Fin 2 → S32

structure Polygon where
  vertices : ℕ → Option ℕ
  numVertices : ℕ
  finalZ : ℕ → S32
  finalW : ℕ → S32
  wBuffer : Bool
  attr : U32
  texParam : U32
  texPalette : U32
  degenerate : Bool
  facingView : Bool
  translucent : Bool
  isShadowMask : Bool
  isShadow : Bool
  type : ℕ
  vTop : ℕ
  vBottom : ℕ
  yTop : S32
  yBottom : S32
  xTop : S32
  xBottom : S32
  sortKey : U32

/-- The cycle counters, which stay far from the bounds of an `s32`. -/
structure Timing where
  cycleCount : ℤ
  vertexPipeline : ℤ
  normalPipeline : ℤ
  polygonPipeline : ℤ
  vertexSlotCounter : ℤ
  vertexSlotsFree : U32

structure Matrices where
  matrixMode : U32
  projMatrix : Matrix
  posMatrix : Matrix
  vecMatrix : Matrix
  texMatrix : Matrix
  projMatrixStack : Matrix
  posMatrixStack : Fin 32 → Matrix
  vecMatrixStack : Fin 32 → Matrix
  texMatrixStack : Matrix
  projMatrixStackPointer : S32
  posMatrixStackPointer : S32
  texMatrixStackPointer : S32

/-- What is computed from matrices and commands and kept for later commands. -/
structure Derived where
  clipMatrix : Matrix
  clipMatrixDirty : Bool
  specRecip : Fin 4 → S32

/-- What the next vertex and polygon are given. -/
structure Attributes where
  polygonMode : U32
  curVertex : Fin 3 → S16
  vertexColor : Fin 3 → U8
  texCoords : Fin 2 → S16
  rawTexCoords : Fin 2 → S16
  normal : Fin 3 → S16
  polygonAttr : U32
  curPolygonAttr : U32
  texParam : U32
  texPalette : U32
  viewport : Fin 6 → U32

structure Lighting where
  lightDirection : Fin 4 → Fin 3 → S16
  lightColor : Fin 4 → Fin 3 → U8
  matDiffuse : Fin 3 → U8
  matAmbient : Fin 3 → U8
  matSpecular : Fin 3 → U8
  matEmission : Fin 3 → U8
  useShininessTable : Bool
  shininessTable : Fin 128 → U8

structure TestResults where
  posTestResult : Fin 4 → S32
  vecTestResult : Fin 3 → S16

/-- The polygon being put together. -/
structure Assembly where
  tempVertexBuffer : Fin 4 → StoredVertex
  vertexNum : U32
  vertexNumInPoly : ℕ
  numConsecutivePolygons : U32

structure Scene where
  vertexRAM : ℕ → StoredVertex
  polygonRAM : ℕ → Polygon
  curRAMBank : Bool
  numVertices : ℕ
  numPolygons : ℕ
  numOpaquePolygons : ℕ
  lastStripPolygon : Option ℕ
  renderPolygonRAM : ℕ → Option ℕ
  renderNumPolygons : ℕ
  flushRequest : Bool
  flushAttributes : U32

/-- The registers of the rendering engine as the program wrote them. -/
structure Registers where
  dispCnt : U32
  alphaRefVal : U8
  alphaRef : U8
  toonTable : Fin 32 → U16
  edgeTable : Fin 8 → U16
  fogColor : U32
  fogOffset : U32
  fogDensityTable : Fin 32 → U8
  clearAttr1 : U32
  clearAttr2 : U32

/-- The registers as latched at VBlank. -/
structure RenderRegisters where
  renderDispCnt : U32
  renderAlphaRef : U8
  renderToonTable : Fin 32 → U16
  renderEdgeTable : Fin 8 → U16
  renderFogColor : U32
  renderFogOffset : U32
  renderFogShift : U32
  renderFogDensityTable : Fin 34 → U8
  renderClearAttr1 : U32
  renderClearAttr2 : U32

end GPU3D

open GPU3D in
structure GPU3D where
  queue : CommandEngine
  execParams : Fin 32 → U32
  execParamCount : ℕ
  timing : Timing
  timestamp : U64
  matrices : Matrices
  derived : Derived
  attributes : Attributes
  lighting : Lighting
  tests : TestResults
  assembly : Assembly
  scene : Scene
  zeroDotWLimit : U32
  registers : Registers
  render : RenderRegisters
  renderFrameIdentical : Bool
  renderXPos : U16
  abortFrame : Bool
  geometryEnabled : Bool
  renderingEnabled : Bool

namespace GPU3D

/-- `CurVertexRAM - VertexRAM` -/
def Scene.curVertexRAM (s : Scene) : ℕ := if s.curRAMBank then 6144 else 0

/-- `CurPolygonRAM - PolygonRAM` -/
def Scene.curPolygonRAM (s : Scene) : ℕ := if s.curRAMBank then 2048 else 0

/-- What a pointer into vertex RAM points to; a null pointer is never followed. -/
def Scene.deref (s : Scene) (ptr : Option ℕ) : StoredVertex := s.vertexRAM (ptr.getD 0)

def Scene.derefPolygon (s : Scene) (ptr : Option ℕ) : Polygon := s.polygonRAM (ptr.getD 0)

def zeroVertex : StoredVertex where
  position := fun _ => 0
  color := fun _ => 0
  texCoords := fun _ => 0
  clipped := false
  finalPosition := fun _ => 0
  finalColor := fun _ => 0
  hiresPosition := fun _ => 0

def zeroPolygon : Polygon where
  vertices := fun _ => none
  numVertices := 0
  finalZ := fun _ => 0
  finalW := fun _ => 0
  wBuffer := false
  attr := 0
  texParam := 0
  texPalette := 0
  degenerate := false
  facingView := false
  translucent := false
  isShadowMask := false
  isShadow := false
  type := 0
  vTop := 0
  vBottom := 0
  yTop := 0
  yBottom := 0
  xTop := 0
  xBottom := 0
  sortKey := 0

/-! ## Matrices -/

def matrixLoadIdentity : Matrix := fun i => if i.val % 5 = 0 then 0x1000 else 0

/-- `(s64)a * b` -/
def mul64 (a b : S32) : S64 := a.signExtend 64 * b.signExtend 64

/-- `>> 12`, stored in an `s32`. -/
def fixed (x : S64) : S32 := (x.sshiftRight 12).setWidth 32

def elem (m : Matrix) (i : ℕ) : S32 := m (Fin.ofNat 16 i)

def matrixLoad4x4 (s : ℕ → S32) : Matrix := fun i => s i.val

def matrixLoad4x3 (s : ℕ → S32) : Matrix := fun i =>
  if i.val % 4 = 3 then (if i.val = 15 then 0x1000 else 0) else s (i.val / 4 * 3 + i.val % 4)

/-- `m = s*m` -/
def matrixMult4x4 (m : Matrix) (s : ℕ → S32) : Matrix := fun i =>
  let r := i.val / 4 * 4
  let c := i.val % 4
  fixed (mul64 (s r) (elem m c) + mul64 (s (r + 1)) (elem m (c + 4)) +
    mul64 (s (r + 2)) (elem m (c + 8)) + mul64 (s (r + 3)) (elem m (c + 12)))

def matrixMult4x3 (m : Matrix) (s : ℕ → S32) : Matrix := fun i =>
  let r := i.val / 4 * 3
  let c := i.val % 4
  let sum := mul64 (s r) (elem m c) + mul64 (s (r + 1)) (elem m (c + 4)) +
    mul64 (s (r + 2)) (elem m (c + 8))
  fixed (if i.val / 4 = 3 then sum + mul64 0x1000 (elem m (c + 12)) else sum)

def matrixMult3x3 (m : Matrix) (s : ℕ → S32) : Matrix := fun i =>
  let r := i.val / 4 * 3
  let c := i.val % 4
  if i.val / 4 = 3 then m i
  else
    fixed (mul64 (s r) (elem m c) + mul64 (s (r + 1)) (elem m (c + 4)) +
      mul64 (s (r + 2)) (elem m (c + 8)))

def matrixScale (m : Matrix) (s : ℕ → S32) : Matrix := fun i =>
  if i.val / 4 = 3 then m i else fixed (mul64 (s (i.val / 4)) (m i))

def matrixTranslate (m : Matrix) (s : ℕ → S32) : Matrix := fun i =>
  let c := i.val % 4
  if i.val / 4 = 3 then
    m i + fixed (mul64 (s 0) (elem m c) + mul64 (s 1) (elem m (c + 4)) +
      mul64 (s 2) (elem m (c + 8)))
  else m i

/-- The clip matrix is computed again when it is asked for after a change. -/
def updateClipMatrix (g : GPU3D) : GPU3D :=
  if g.derived.clipMatrixDirty then
    { g with
      derived :=
        { g.derived with
          clipMatrix := matrixMult4x4 g.matrices.projMatrix (elem g.matrices.posMatrix)
          clipMatrixDirty := false } }
  else g

/-! ## Cycles -/

namespace Timing

/-- `while (VertexSlotCounter > 9)`, one slot a round. -/
def freeSlots : ℕ → Timing → Timing
  | 0, t => t
  | rounds + 1, t =>
    if t.vertexSlotCounter > 9 then
      freeSlots rounds
        { t with
          vertexSlotCounter := t.vertexSlotCounter - 9
          vertexSlotsFree := t.vertexSlotsFree >>> 1 }
    else t

def advanceVertexPipeline (num : ℤ) (t : Timing) : Timing :=
  let t := { t with cycleCount := t.cycleCount + num }
  if t.vertexPipeline > 0 then
    { t with vertexPipeline := if t.vertexPipeline > num then t.vertexPipeline - num else 0 }
  else t

def emptyPolygonPipeline (t : Timing) : Timing :=
  { t with polygonPipeline := 0, vertexSlotCounter := 0, vertexSlotsFree := 1 }

def addCycles (num : ℤ) (t : Timing) : Timing :=
  let t := t.advanceVertexPipeline num
  if t.polygonPipeline > 0 then
    if t.polygonPipeline > num then
      freeSlots (t.vertexSlotCounter + num).toNat
        { t with
          polygonPipeline := t.polygonPipeline - num
          vertexSlotCounter := t.vertexSlotCounter + num }
    else t.emptyPolygonPipeline
  else t

/-- The loop of `NextVertexSlot`: a slot is taken while the polygon pipeline runs. -/
def waitForSlot : ℕ → ℤ → Timing → Timing
  | 0, _, t => t
  | rounds + 1, num, t =>
    let t := t.advanceVertexPipeline num
    if t.polygonPipeline > 0 then
      if t.polygonPipeline > num then
        let t :=
          { t with
            polygonPipeline := t.polygonPipeline - num
            vertexSlotCounter := 1
            vertexSlotsFree := t.vertexSlotsFree >>> 1 }
        if t.vertexSlotsFree &&& 1 ≠ 0 then
          { t with vertexSlotsFree := t.vertexSlotsFree &&& ~~~1 }
        else waitForSlot rounds 9 t
      else t.emptyPolygonPipeline
    else waitForSlot rounds num t

def nextVertexSlot (t : Timing) : Timing :=
  waitForSlot (t.polygonPipeline.toNat + 1) ((9 - t.vertexSlotCounter) + 1) t

def stallPolygonPipeline (delay nonstalldelay : ℤ) (t : Timing) : Timing :=
  if t.polygonPipeline > 0 then
    emptyPolygonPipeline
      { t with
        cycleCount := t.cycleCount + (t.polygonPipeline + delay)
        vertexPipeline := 0
        normalPipeline := 0 }
  else if t.vertexPipeline > nonstalldelay then
    t.addCycles ((t.vertexPipeline - nonstalldelay) + 1)
  else t.addCycles (t.normalPipeline + 1)

def vertexPipelineSubmitCmd (t : Timing) : Timing :=
  let t := if t.vertexSlotsFree &&& 1 = 0 then t.nextVertexSlot else t.addCycles 1
  { t with normalPipeline := 0 }

def vertexPipelineCmdDelayed6 (t : Timing) : Timing :=
  let t :=
    if t.vertexPipeline > 2 then t.addCycles ((t.vertexPipeline - 2) + 1)
    else t.addCycles (t.normalPipeline + 1)
  { t with normalPipeline := 0 }

def vertexPipelineCmdDelayed8 (t : Timing) : Timing :=
  let t :=
    if t.vertexPipeline > 0 then t.addCycles (t.vertexPipeline + 1)
    else t.addCycles (t.normalPipeline + 1)
  { t with normalPipeline := 0 }

def vertexPipelineCmdDelayed4 (t : Timing) : Timing :=
  { t.addCycles (t.normalPipeline + 1) with normalPipeline := 0 }

end Timing

def timed (f : Timing → Timing) (g : GPU3D) : GPU3D := { g with timing := f g.timing }

end GPU3D
end MelonDS

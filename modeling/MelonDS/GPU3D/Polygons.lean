import MelonDS.GPU3D.State

/-!
# Building polygons

`SubmitPolygon` and `SubmitVertex`: a polygon is culled, attached to the strip it continues,
clipped, transformed to the screen, and stored with its vertices in the bank being filled.
-/

namespace MelonDS
namespace GPU3D

/-! ## Culling -/

/-- The components are shifted until all fit in 32 bits, at most nine times. -/
def normalize : ℕ → S64 × S64 × S64 → S64 × S64 × S64
  | 0, n => n
  | rounds + 1, (x, y, z) =>
    let wide (v : S64) : Bool := (v.sshiftRight 31) ^^^ (v.sshiftRight 63) ≠ 0
    if wide x || wide y || wide z then
      normalize rounds (x.sshiftRight 4, y.sshiftRight 4, z.sshiftRight 4)
    else (x, y, z)

/-- The sign says which side of the polygon is seen. -/
def facingDot (temp : Fin 4 → StoredVertex) : S64 :=
  let v (k : Fin 4) (c : Fin 4) : S32 := (temp k).position c
  let cross (a b : Fin 4) : S64 :=
    mul64 (v 0 a - v 1 a) (v 2 b - v 1 b) - mul64 (v 0 b - v 1 b) (v 2 a - v 1 a)
  let (x, y, z) := normalize 16 (cross 1 3, cross 3 0, cross 0 1)
  (v 1 0).signExtend 64 * x + (v 1 1).signExtend 64 * y + (v 1 3).signExtend 64 * z

def culled (attr : U32) (dot : S64) : Bool :=
  if dot.slt 0 then !attr.getLsbD 7
  else if (0 : S64).slt dot then !attr.getLsbD 6
  else false

/-! ## Strips -/

/-- The two vertices a strip polygon shares with the one before it. -/
structure Attachment where
  first : Option ℕ
  second : Option ℕ
  lastPolyVerts : ℕ

/-- Which vertices of the last polygon are shared, and how many it must have. -/
def sharedVertices (mode numConsecutivePolygons : U32) : ℕ × ℕ × ℕ :=
  if mode = 2 then
    if numConsecutivePolygons &&& 1 ≠ 0 then (2, 1, 3) else (0, 2, 3)
  else (3, 2, 4)

def attachment (mode numConsecutivePolygons : U32) (s : Scene) : Option Attachment :=
  match s.lastStripPolygon with
  | none => none
  | some k =>
    let last := s.polygonRAM k
    let (id0, id1, lastPolyVerts) := sharedVertices mode numConsecutivePolygons
    if mode.toNat ≥ 2 ∧ last.numVertices = lastPolyVerts ∧
        (s.deref (last.vertices id0)).clipped = false ∧
        (s.deref (last.vertices id1)).clipped = false then
      some ⟨last.vertices id0, last.vertices id1, lastPolyVerts⟩
    else none

def clipstart (a : Option Attachment) : ℕ := if a.isSome then 2 else 0

/-- `clippedvertices[i]` before clipping. -/
def unclipped (a : Option Attachment) (s : Scene) (temp : Fin 4 → StoredVertex) (i : ℕ) :
    StoredVertex :=
  match a, i with
  | some a, 0 => s.deref a.first
  | some a, 1 => s.deref a.second
  | _, i => temp (Fin.ofNat 4 i)

def clipCoordsEqual (a b : StoredVertex) : Bool :=
  decide (a.position 0 = b.position 0 ∧ a.position 1 = b.position 1 ∧
    a.position 2 = b.position 2 ∧ a.position 3 = b.position 3)

def polyType (nverts : ℕ) (v : ℕ → StoredVertex) : ℕ :=
  if nverts = 3 && (clipCoordsEqual (v 0) (v 1) || clipCoordsEqual (v 0) (v 2) ||
      clipCoordsEqual (v 1) (v 2)) then 1
  else 0

/-! ## Screen coordinates -/

/-- `FinalColor` from `Color`. -/
def finalColor (color : S32) : S32 :=
  let c := color.sshiftRight 12
  if c ≠ 0 then (c <<< 4) + 0xF else c

/-- The viewport transform. `HiresPosition` is not set when W is zero. -/
def toScreen (viewport : Fin 6 → U32) (v : Vertex) : StoredVertex :=
  let w : U32 := v.position 3 &&& 0x00FFFFFF
  let posX : U32 := v.position 0 + w
  let posY : U32 := -v.position 1 + w
  let shift := if w > 0xFFFF then 1 else 0
  let den : U32 := (w >>> shift) <<< 1
  let screen (pos : U32) (size origin : U32) : U32 :=
    if w = 0 then 0 else ((pos >>> shift) * size) / den + origin
  let hires (pos : U32) (size origin : U32) : S32 :=
    ((((pos.setWidth 64 * size.setWidth 64) <<< 4).sdiv (w.setWidth 64 <<< 1)).setWidth 32 +
      (origin <<< 4))
  { position := fun i => if i = 3 then w else v.position i
    color := v.color
    texCoords := v.texCoords
    clipped := v.clipped
    finalPosition := fun i =>
      if i = 0 then screen posX (viewport 4) (viewport 0) &&& 0x1FF
      else screen posY (viewport 5) (viewport 3) &&& 0xFF
    finalColor := fun i => finalColor (v.color i)
    hiresPosition := fun i =>
      if w = 0 then 0
      else if i = 0 then hires posX (viewport 4) (viewport 0) &&& 0x1FFF
      else hires posY (viewport 5) (viewport 3) &&& 0xFFF }

/-- All vertices at one place, and all too far. -/
def zeroDot (limit : U32) (vs : List StoredVertex) : Bool :=
  vs.all fun v =>
    (v.finalPosition 0 = (vs.headD zeroVertex).finalPosition 0 &&
      v.finalPosition 1 = (vs.headD zeroVertex).finalPosition 1) &&
        decide ((v.position 3).toNat > limit.toNat)

/-! ## The polygon record -/

structure Bounds where
  vTop : ℕ
  vBottom : ℕ
  yTop : S32
  yBottom : S32
  xTop : S32
  xBottom : S32
  wSize : ℕ
  degenerate : Bool

/-- `while ((w >> wsize) && (wsize < 32)) wsize += 4` -/
def growW (w : U32) : ℕ → ℕ → ℕ
  | 0, wSize => wSize
  | rounds + 1, wSize => if w >>> wSize ≠ 0 ∧ wSize < 32 then growW w rounds (wSize + 4) else wSize

def Bounds.include (b : Bounds) (i : ℕ) (v : StoredVertex) : Bounds :=
  let x := v.finalPosition 0
  let y := v.finalPosition 1
  let b := if y.slt b.yTop then { b with xTop := x, yTop := y, vTop := i } else b
  let b :=
    if b.yBottom.slt y || (y = b.yBottom && b.xBottom.slt x) then
      { b with xBottom := x, yBottom := y, vBottom := i }
    else b
  { b with
    degenerate := b.degenerate || decide (v.position 3 = 0)
    wSize := growW (v.position 3) 8 b.wSize }

def bounds (vs : List StoredVertex) : Bounds :=
  vs.zipIdx.foldl (fun b vi => b.include vi.2 vi.1)
    { vTop := 0, vBottom := 0, yTop := 192, yBottom := 0, xTop := 256, xBottom := 0, wSize := 0,
      degenerate := false }

/-- W normalised to 16 bits, and shifted back. -/
def normalizeW (wSize : ℕ) (w : S32) : S32 × S32 :=
  if wSize < 16 then
    let n := w <<< (16 - wSize)
    (n, n.sshiftRight (16 - wSize))
  else
    let n := w.sshiftRight (wSize - 16)
    (n, n <<< (wSize - 16))

def finalZ (flushAttributes : U32) (wSize : ℕ) (v : StoredVertex) : S32 :=
  let w := v.position 3
  let z : S32 :=
    if flushAttributes &&& 2 ≠ 0 then (normalizeW wSize w).2
    else if w ≠ 0 then
      ((((mul64 (v.position 2) 0x4000).sdiv (w.signExtend 64)) + 0x3FFF) * 0x200).setWidth 32
    else 0x7FFE00
  if z.slt 0 then 0 else if (0xFFFFFF : S32).slt z then 0xFFFFFF else z

def translucent (attr texParam : U32) : Bool :=
  let texfmt := (texParam >>> 26) &&& 0x7
  let polyalpha := (attr >>> 16) &&& 0x1F
  (texfmt = 1 || texfmt = 6) || (0 < polyalpha.toNat && polyalpha.toNat < 31)

def isShadowMask (attr : U32) : Bool := attr &&& 0x3F000030 = 0x00000030

/-- Values stored one after the other from `base` on. -/
def storeFrom {α : Type*} (ram : ℕ → α) (base : ℕ) (vs : List α) (i : ℕ) : α :=
  if base ≤ i then (vs[i - base]?).getD (ram i) else ram i

/-- A polygon that passed every test, with the vertices it ends with. -/
structure Accepted where
  attached : Option Attachment
  facingView : Bool
  type : ℕ
  vertices : List StoredVertex

namespace Accepted

/-- The strip's vertices are shared when clipping left as many as the last polygon has. -/
def shares (p : Accepted) : Bool :=
  match p.attached with
  | none => false
  | some a => p.vertices.length = a.lastPolyVerts

/-- The vertices written to vertex RAM: those of the strip are copied when not shared. -/
def stored (p : Accepted) (s : Scene) : List StoredVertex :=
  match p.attached with
  | none => p.vertices
  | some a =>
    if p.shares then p.vertices.drop 2
    else s.deref a.first :: s.deref a.second :: p.vertices.drop 2

def pointer (p : Accepted) (base i : ℕ) : Option ℕ :=
  match p.attached with
  | none => some (base + i)
  | some a =>
    if p.shares then
      if i = 0 then a.first else if i = 1 then a.second else some (base + (i - 2))
    else some (base + i)

def record (p : Accepted) (attrs : Attributes) (flushAttributes : U32) (base : ℕ)
    (ram : ℕ → StoredVertex) (old : Polygon) : Polygon :=
  let nverts := p.vertices.length
  let vertex (i : ℕ) : StoredVertex := ram ((p.pointer base i).getD 0)
  let b := bounds ((List.range nverts).map vertex)
  let isTranslucent := translucent attrs.curPolygonAttr attrs.texParam
  { vertices := fun i => if i < nverts then p.pointer base i else old.vertices i
    numVertices := nverts
    finalZ := fun i => if i < nverts then finalZ flushAttributes b.wSize (vertex i) else old.finalZ i
    finalW := fun i =>
      if i < nverts then (normalizeW b.wSize ((vertex i).position 3)).1 else old.finalW i
    wBuffer := flushAttributes &&& 2 ≠ 0
    attr := attrs.curPolygonAttr
    texParam := attrs.texParam
    texPalette := attrs.texPalette
    degenerate := b.degenerate || (192 : S32).slt b.yBottom
    facingView := p.facingView
    translucent := isTranslucent
    isShadowMask := isShadowMask attrs.curPolygonAttr
    isShadow := attrs.curPolygonAttr &&& 0x30 = 0x30 && !isShadowMask attrs.curPolygonAttr
    type := p.type
    vTop := b.vTop
    vBottom := b.vBottom
    yTop := b.yTop
    yBottom := b.yBottom
    xTop := b.xTop
    xBottom := b.xBottom
    sortKey := (b.yBottom <<< 8 ||| b.yTop) ||| (if isTranslucent then 0x10000 else 0) }

end Accepted

/-- A polygon stored behind the others of the bank. -/
def Scene.add (s : Scene) (attrs : Attributes) (p : Accepted) : Scene :=
  let base := s.curVertexRAM + s.numVertices
  let slot := s.curPolygonRAM + s.numPolygons
  let ram := storeFrom s.vertexRAM base (p.stored s)
  { s with
    vertexRAM := ram
    polygonRAM :=
      Function.update s.polygonRAM slot
        (p.record attrs s.flushAttributes base ram (s.polygonRAM slot))
    numVertices := s.numVertices + (p.stored s).length
    numPolygons := s.numPolygons + 1
    numOpaquePolygons :=
      if translucent attrs.curPolygonAttr attrs.texParam then s.numOpaquePolygons
      else s.numOpaquePolygons + 1
    lastStripPolygon := if attrs.polygonMode.toNat ≥ 2 then some slot else none }

/-- The polygon is dropped; nothing can be attached to it. -/
def dropPolygon (g : GPU3D) : GPU3D := { g with scene := { g.scene with lastStripPolygon := none } }

def reservePipeline (cycles : ℤ) (slots : U32) (t : Timing) : Timing :=
  { t with polygonPipeline := cycles, vertexSlotCounter := 1, vertexSlotsFree := slots }

def polygonVertices (g : GPU3D) : ℕ := if g.attributes.polygonMode &&& 1 ≠ 0 then 4 else 3

def polygonAttachment (g : GPU3D) : Option Attachment :=
  attachment g.attributes.polygonMode g.assembly.numConsecutivePolygons g.scene

/-- The polygon after clipping: the strip's vertices as stored, the others on the screen. -/
def clippedVertices (g : GPU3D) : List StoredVertex :=
  let attached := g.polygonAttachment
  let vertex := unclipped attached g.scene g.assembly.tempVertexBuffer
  let clipped :=
    (ClipResult.clipPolygon true g.attributes.curPolygonAttr (clipstart attached)
      ⟨fun i => (vertex i).toVertex, g.polygonVertices⟩).array
  (List.range clipped.nverts).map fun i =>
    if i < clipstart attached then { vertex i with toVertex := clipped.vertices i }
    else toScreen g.attributes.viewport (clipped.vertices i)

/-- The polygon does not fit in polygon or vertex RAM. -/
def full (s : Scene) (nverts : ℕ) : Bool := s.numPolygons ≥ 2048 || s.numVertices + nverts > 6144

def submitPolygon (g : GPU3D) : GPU3D :=
  let g := g.timed (reservePipeline 8 0b11110)
  let dot := facingDot g.assembly.tempVertexBuffer
  if culled g.attributes.curPolygonAttr dot then g.dropPolygon
  else
    let vs := g.clippedVertices
    if vs.length = 0 then g.dropPolygon
    else if full g.scene vs.length then
      { g.dropPolygon with
        registers := { g.registers with dispCnt := g.registers.dispCnt ||| bit 32 13 } }
    else if !g.attributes.curPolygonAttr.getLsbD 13 && zeroDot g.zeroDotWLimit vs then g.dropPolygon
    else
      let strip := g.attributes.polygonMode &&& 2 ≠ 0
      let g :=
        g.timed
          (if vs.length = 4 then reservePipeline 35 (if strip then 0b11100 else 0b11110)
          else reservePipeline 26 (if strip then 0b1000 else 0b1110))
      let p : Accepted :=
        { attached := g.polygonAttachment
          facingView := !(0 : S64).slt dot
          type := polyType g.polygonVertices
            (unclipped g.polygonAttachment g.scene g.assembly.tempVertexBuffer)
          vertices := vs }
      { g with scene := g.scene.add g.attributes p }

/-! ## Vertices -/

def matrixColumn (m : Matrix) (v : Fin 3 → S16) (c : ℕ) : S64 :=
  (v 0).signExtend 64 * (elem m c).signExtend 64 +
    (v 1).signExtend 64 * (elem m (c + 4)).signExtend 64 +
    (v 2).signExtend 64 * (elem m (c + 8)).signExtend 64

/-- The current vertex through the clip matrix. -/
def clipPosition (clip : Matrix) (v : Fin 3 → S16) (i : Fin 4) : S32 :=
  fixed (matrixColumn clip v i.val + (0x1000 : S64) * (elem clip (i.val + 12)).signExtend 64)

def vertexTexCoords (attrs : Attributes) (texMatrix : Matrix) (i : Fin 2) : S16 :=
  if (attrs.texParam >>> 30).toNat = 3 then
    ((matrixColumn texMatrix attrs.curVertex i.val).sshiftRight 24 +
      (attrs.rawTexCoords i).signExtend 64).setWidth 16
  else attrs.texCoords i

/-- `VertexNumInPoly` is 2 in a strip once a polygon of it is submitted. -/
def submitAndKeep (keep : ℕ) (g : GPU3D) : GPU3D :=
  let g := submitPolygon { g with assembly := { g.assembly with vertexNumInPoly := keep } }
  { g with
    assembly :=
      { g.assembly with numConsecutivePolygons := g.assembly.numConsecutivePolygons + 1 } }

def setTemp (temp : (Fin 4 → StoredVertex) → Fin 4 → StoredVertex) (g : GPU3D) : GPU3D :=
  { g with assembly := { g.assembly with tempVertexBuffer := temp g.assembly.tempVertexBuffer } }

def swapTemp (i j : Fin 4) (temp : Fin 4 → StoredVertex) : Fin 4 → StoredVertex :=
  Function.update (Function.update temp i (temp j)) j (temp i)

def moveTemp (i j : Fin 4) (temp : Fin 4 → StoredVertex) : Fin 4 → StoredVertex :=
  Function.update temp i (temp j)

/-- The polygon the current vertex completes, if it completes one. -/
def completePolygon (g : GPU3D) : GPU3D :=
  match g.attributes.polygonMode.toNat with
  | 0 => if g.assembly.vertexNumInPoly = 3 then g.submitAndKeep 0 else g
  | 1 => if g.assembly.vertexNumInPoly = 4 then g.submitAndKeep 0 else g
  | 2 =>
    if g.assembly.numConsecutivePolygons &&& 1 ≠ 0 then
      ((g.setTemp (swapTemp 0 1)).submitAndKeep 2).setTemp (moveTemp 1 2)
    else if g.assembly.vertexNumInPoly = 3 then
      (g.submitAndKeep 2).setTemp fun temp => moveTemp 1 2 (moveTemp 0 1 temp)
    else g
  | 3 =>
    if g.assembly.vertexNumInPoly = 4 then
      ((g.setTemp (swapTemp 2 3)).submitAndKeep 2).setTemp fun temp =>
        moveTemp 1 2 (moveTemp 0 3 temp)
    else g
  | _ => g

/-- The current vertex, transformed, in the next place of the buffer. -/
def placeVertex (g : GPU3D) : GPU3D :=
  let g := g.updateClipMatrix
  let slot := Fin.ofNat 4 g.assembly.vertexNumInPoly
  let vertex : StoredVertex :=
    { g.assembly.tempVertexBuffer slot with
      position := clipPosition g.derived.clipMatrix g.attributes.curVertex
      color := fun i => ((g.attributes.vertexColor i).setWidth 32 <<< 12) + 0xFFF
      texCoords := vertexTexCoords g.attributes g.matrices.texMatrix
      clipped := false }
  { g with
    assembly :=
      { g.assembly with
        tempVertexBuffer := Function.update g.assembly.tempVertexBuffer slot vertex
        vertexNum := g.assembly.vertexNum + 1
        vertexNumInPoly := g.assembly.vertexNumInPoly + 1 } }

def submitVertex (g : GPU3D) : GPU3D :=
  g.placeVertex.completePolygon.timed fun t =>
    Timing.addCycles 3 { t with vertexPipeline := 7 }

end GPU3D
end MelonDS

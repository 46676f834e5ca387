import MelonDS.GPU.VRAMTracking
import MelonDS.GPU3D.Banks

/-!
# The frame of the software renderer

`RenderFrame` refreshes the flat copies of texture and palette memory and draws the frame
again unless nothing it depends on has changed. `ClearBuffers` is translated; what
`RenderPolygons` makes of the cleared buffers is a parameter. Of the four buffers only the
first layer is shown; the others carry what earlier frames left over.
-/

namespace MelonDS
open GPU GPU.VRAMState

/-- The buffers drawn into. `colorBuffer`, `depthBuffer` and `attrBuffer` have a second layer
from `bufferSize` on. -/
structure Buffers where
  colorBuffer : ℕ → U32
  depthBuffer : ℕ → U32
  attrBuffer : ℕ → U32
  stencilBuffer : ℕ → U8
  prevIsShadowMask : Bool

/-- What a frame is drawn from. -/
structure FrameInputs where
  polygons : List (GPU3D.Polygon × List GPU3D.StoredVertex)
  registers : GPU3D.RenderRegisters
  texture : Mem
  texPal : Mem

namespace Buffers

def scanlineWidth : ℕ := 258
def bufferSize : ℕ := 258 * 194

/-- After `SoftRenderer3D::Reset`; the stencil buffer is not cleared there. -/
def zero : Buffers where
  colorBuffer := fun _ => 0
  depthBuffer := fun _ => 0
  attrBuffer := fun _ => 0
  stencilBuffer := fun _ => 0
  prevIsShadowMask := false

/-- The lines `GetLine` takes from the colour buffer are the same. -/
def SamePicture (a b : Buffers) : Prop := ∀ i < bufferSize, a.colorBuffer i = b.colorBuffer i

theorem SamePicture.trans {a b c : Buffers} (h : a.SamePicture b) (h' : b.SamePicture c) :
    a.SamePicture c := fun i hi => (h i hi).trans (h' i hi)

end Buffers

namespace FrameInputs

/-- `ReadVRAMFlat_Texture<u16>` -/
def readTexture (v : FrameInputs) (addr : ℕ) : U16 :=
  (v.texture (addr + 1)).setWidth 16 <<< 8 ||| (v.texture addr).setWidth 16

/-- A colour component of five bits at `shift`, as six bits. -/
def expand (color : U32) (shift : ℕ) : U32 :=
  let c := ((color >>> shift) <<< 1) &&& 0x3E
  if c = 0 then 0 else c + 1

def rgb (color : U32) : U32 := expand color 0 ||| (expand color 5 <<< 8) ||| (expand color 10 <<< 16)

def clearz (v : FrameInputs) : U32 := (v.registers.renderClearAttr2 &&& 0x7FFF) * 0x200 + 0x1FF

def polyid (v : FrameInputs) : U32 := v.registers.renderClearAttr1 &&& 0x3F000000

/-- The offset in the clear bitmaps of the pixel in column `x` of line `y`. -/
def bitmapOffset (v : FrameInputs) (x y : ℕ) : ℕ :=
  let xoff := ((v.registers.renderClearAttr2 >>> 16).toNat + x) % 256
  let yoff := ((v.registers.renderClearAttr2 >>> 24).toNat + y) % 256
  yoff * 512 + xoff * 2

/-- The colour, depth and attributes `ClearBuffers` gives to a pixel of the screen. -/
def clearPixel (v : FrameInputs) (x y : ℕ) : U32 × U32 × U32 :=
  if v.registers.renderDispCnt.getLsbD 14 then
    let val2 : U32 := (v.readTexture (0x40000 + v.bitmapOffset x y)).setWidth 32
    let val3 : U32 := (v.readTexture (0x60000 + v.bitmapOffset x y)).setWidth 32
    (rgb val2 ||| (if val2.getLsbD 15 then 0x1F000000 else 0), (val3 &&& 0x7FFF) * 0x200 + 0x1FF,
      v.polyid ||| (val3 &&& 0x8000))
  else
    (rgb v.registers.renderClearAttr1 ||| (((v.registers.renderClearAttr1 >>> 16) &&& 0x1F) <<< 24),
      v.clearz, v.polyid ||| (v.registers.renderClearAttr1 &&& 0x8000))

/-- The same at index `i` of the buffers, which have a border of one pixel. -/
def clearAt (v : FrameInputs) (i : ℕ) : U32 × U32 × U32 :=
  let x := i % Buffers.scanlineWidth
  let y := i / Buffers.scanlineWidth
  if x = 0 ∨ x = 257 ∨ y = 0 ∨ y = 193 then (0, v.clearz, v.polyid)
  else v.clearPixel (x - 1) (y - 1)

def clearBuffers (v : FrameInputs) (b : Buffers) : Buffers :=
  { b with
    colorBuffer := fun i => if i < Buffers.bufferSize then (v.clearAt i).1 else b.colorBuffer i
    depthBuffer := fun i => if i < Buffers.bufferSize then (v.clearAt i).2.1 else b.depthBuffer i
    attrBuffer := fun i => if i < Buffers.bufferSize then (v.clearAt i).2.2 else b.attrBuffer i }

end FrameInputs

/-- `GPU3D`, video memory and the software renderer. -/
structure FrameState where
  gpu3D : GPU3D
  vram : VRAMState
  buffers : Buffers
  frameIdentical : Bool

namespace FrameState

def inputs (m : FrameState) : FrameInputs where
  polygons := m.gpu3D.scene.displayed
  registers := m.gpu3D.render
  texture := m.vram.flat .texture
  texPal := m.vram.flat .texPal

/-- The result of `CopyLinearVRAM`: a page was copied. -/
def change {X : TrackingSet} (dirty : BitVec X.pages) : Bool :=
  !((List.range X.pages).filter dirty.getLsbD).isEmpty

def copyFlat (X : TrackingSet) (dirty : BitVec X.pages) (s : VRAMState) : VRAMState :=
  { s with flat := Function.update s.flat X (copyLinearVRAM X s dirty) }

/-- Both regions are derived before either is copied. -/
def refreshTextures (s : VRAMState) : Bool × VRAMState :=
  let (textureDirty, s) := deriveState .texture s
  let (texPalDirty, s) := deriveState .texPal s
  (change textureDirty || change texPalDirty, copyFlat .texPal texPalDirty
    (copyFlat .texture textureDirty s))

/-- A page of a texture or palette has to be copied. -/
def texturesChanged (m : FrameState) : Bool := (refreshTextures m.vram).1

section
variable (renderPolygons : FrameInputs → Buffers → Buffers)

/-- `ClearBuffers` and `RenderPolygons` on the current state. -/
def drawn (m : FrameState) : Buffers := renderPolygons m.inputs (m.inputs.clearBuffers m.buffers)

/-- `RenderFrame`. With the render thread the frame is drawn there, by the same condition. -/
def renderFrame (m : FrameState) : FrameState :=
  let m :=
    { m with
      vram := (refreshTextures m.vram).2
      frameIdentical := !m.texturesChanged && m.gpu3D.renderFrameIdentical }
  if !m.frameIdentical then { m with buffers := m.drawn renderPolygons } else m

end

/-! ## What the refresh changes -/

theorem copyLinearVRAM_of_not_change {X : TrackingSet} {dirty : BitVec X.pages}
    (h : change dirty = false) (s : VRAMState) : copyLinearVRAM X s dirty = s.flat X := by
  rw [change, Bool.not_eq_false', List.isEmpty_iff] at h
  rw [copyLinearVRAM, h, List.foldl_nil]

theorem copyFlat_of_not_change {X : TrackingSet} {dirty : BitVec X.pages}
    (h : change dirty = false) (s : VRAMState) : copyFlat X dirty s = s := by
  rw [copyFlat, copyLinearVRAM_of_not_change h, Function.update_eq_self]

theorem flat_refreshTextures {s : VRAMState} (h : (refreshTextures s).1 = false) :
    (refreshTextures s).2.flat = s.flat := by
  rw [refreshTextures] at h ⊢
  dsimp only at h ⊢
  rw [Bool.or_eq_false_iff] at h
  rw [copyFlat_of_not_change h.1, copyFlat_of_not_change h.2]
  rfl

theorem flat_writeEngine (r : Region) (slotMask : U32) (banks : List BankAccess) (s : VRAMState)
    (w : Store) : (writeEngine r slotMask banks s w).flat = s.flat := by
  rw [writeEngine]
  generalize (s.map.slot r ((w.addr >>> 14) &&& slotMask).toNat).mask = mask
  induction banks generalizing s with
  | nil => rfl
  | cons a banks ih =>
    rw [List.foldl_cons, ih]
    split_ifs <;> rfl

theorem flat_writeVRAM (s : VRAMState) (target : WriteTarget) (w : Store) :
    (s.writeVRAM target w).flat = s.flat := by
  cases target with
  | lcdc =>
    rw [writeVRAM, writeVRAM_LCDC]
    split
    · rfl
    · split_ifs <;> rfl
  | arm7 =>
    rw [writeVRAM, writeVRAM_ARM7]
    split_ifs <;> rfl
  | abg => exact flat_writeEngine _ _ _ s w
  | aobj => exact flat_writeEngine _ _ _ s w
  | bbg => exact flat_writeEngine _ _ _ s w
  | bobj => exact flat_writeEngine _ _ _ s w

section
variable (renderPolygons : FrameInputs → Buffers → Buffers)

theorem frameIdentical_renderFrame (m : FrameState) :
    (m.renderFrame renderPolygons).frameIdentical =
      (!m.texturesChanged && m.gpu3D.renderFrameIdentical) := by
  rw [renderFrame]
  generalize (!m.texturesChanged && m.gpu3D.renderFrameIdentical) = identical
  cases identical <;> exact Eq.refl _

theorem gpu3D_renderFrame (m : FrameState) : (m.renderFrame renderPolygons).gpu3D = m.gpu3D := by
  rw [renderFrame]
  generalize (!m.texturesChanged && m.gpu3D.renderFrameIdentical) = identical
  cases identical <;> exact Eq.refl _

theorem buffers_of_identical {m : FrameState} (h : m.texturesChanged = false)
    (hidentical : m.gpu3D.renderFrameIdentical = true) :
    (m.renderFrame renderPolygons).buffers = m.buffers := by
  rw [renderFrame, h, hidentical]
  exact Eq.refl _

theorem buffers_of_drawn {m : FrameState}
    (h : (!m.texturesChanged && m.gpu3D.renderFrameIdentical) = false) :
    (m.renderFrame renderPolygons).buffers =
      renderPolygons (m.renderFrame renderPolygons).inputs
        ((m.renderFrame renderPolygons).inputs.clearBuffers m.buffers) := by
  rw [renderFrame, h]
  exact Eq.refl _

/-- A frame found identical leaves what it would be drawn from as it was. -/
theorem inputs_renderFrame {m : FrameState} (h : m.texturesChanged = false) :
    (m.renderFrame renderPolygons).inputs = m.inputs := by
  have hflat := flat_refreshTextures h
  rw [renderFrame]
  split_ifs
  all_goals
    change (⟨_, _, (refreshTextures m.vram).2.flat .texture,
      (refreshTextures m.vram).2.flat .texPal⟩ : FrameInputs) = _
    rw [hflat]
    rfl

end

end FrameState
end MelonDS

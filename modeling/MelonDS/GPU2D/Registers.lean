import MelonDS.GPU2D.Windows
import MelonDS.GPU3D.VBlank

/-!
# The registers of the 2D engine

`Write8`, `Write16` and `Write32` of `GPU2D`. Display control and the window registers are those
of `Windows`; the others are kept here, together with the 3D engine, whose scroll register is
written with the position of the first layer. Most registers are ignored while the unit is off.
-/

namespace MelonDS.GPU2D

/-- The registers of the layers and of blending, and the engine behind the first layer. -/
structure Layers where
  bgCnt : Fin 4 → U16
  bgXPos : Fin 4 → U16
  bgYPos : Fin 4 → U16
  bgXRef : Fin 2 → S32
  bgYRef : Fin 2 → S32
  bgXRefReload : Fin 2 → S32
  bgYRefReload : Fin 2 → S32
  bgRotA : Fin 2 → S16
  bgRotB : Fin 2 → S16
  bgRotC : Fin 2 → S16
  bgRotD : Fin 2 → S16
  bgMosaicSize : Fin 2 → U8
  objMosaicSize : Fin 2 → U8
  blendCnt : U16
  blendAlpha : U16
  eva : U8
  evb : U8
  evy : U8
  gpu3D : GPU3D

namespace Layers

def setBGCnt (l : Layers) (i : Fin 4) (val : U16) : Layers :=
  { l with bgCnt := Function.update l.bgCnt i val }

def setBGXPos (l : Layers) (i : Fin 4) (val : U16) : Layers :=
  { l with bgXPos := Function.update l.bgXPos i val }

def setBGYPos (l : Layers) (i : Fin 4) (val : U16) : Layers :=
  { l with bgYPos := Function.update l.bgYPos i val }

/-- A reference point is reloaded at the start of a frame. -/
def setXRef (l : Layers) (i : Fin 2) (val : S32) : Layers :=
  { l with
    bgXRef := Function.update l.bgXRef i val
    bgXRefReload := Function.update l.bgXRefReload i val }

def setYRef (l : Layers) (i : Fin 2) (val : S32) : Layers :=
  { l with
    bgYRef := Function.update l.bgYRef i val
    bgYRefReload := Function.update l.bgYRefReload i val }

def setBGMosaic (l : Layers) (x y : U8) : Layers := { l with bgMosaicSize := ![x, y] }

def setOBJMosaic (l : Layers) (x y : U8) : Layers := { l with objMosaicSize := ![x, y] }

/-- Only unit A shows the 3D engine. -/
def setRenderXPos (l : Layers) (num : U32) (xpos mask : U16) : Layers :=
  if num = 0 then { l with gpu3D := l.gpu3D.setRenderXPos xpos mask } else l

end Layers

def lowByte (x : U16) (val : U8) : U16 := (x &&& (0xFF00 : U16)) ||| val.setWidth 16

def highByte (x : U16) (val : U8) : U16 := (x &&& (0x00FF : U16)) ||| (val.setWidth 16 <<< 8)

def lowHalf (x : S32) (val : U16) : S32 := (x &&& (0xFFFF0000 : U32)) ||| val.setWidth 32

/-- The sign of a reference point is bit 27. -/
def signedHalf (val : U16) : U16 := if val.getLsbD 11 then val ||| 0xF000 else val

def highHalf (x : S32) (val : U16) : S32 :=
  (x &&& (0xFFFF : U32)) ||| ((signedHalf val).setWidth 32 <<< 16)

def signedRef (val : U32) : S32 := if val.getLsbD 27 then val ||| 0xF0000000 else val

/-- A blending coefficient is clamped. -/
def atMost16 (x : U8) : U8 := if 16 < x then 16 else x

namespace Layers

def write8 (num : U32) (enabled : Bool) (reg : ℕ) (val : U8) (l : Layers) : Layers :=
  let l :=
    if reg = 0x010 then l.setRenderXPos num (val.setWidth 16) 0x00FF
    else if reg = 0x011 then l.setRenderXPos num (val.setWidth 16 <<< 8) 0xFF00
    else l
  if enabled = false then l
  else if reg = 0x008 then l.setBGCnt 0 (lowByte (l.bgCnt 0) val)
  else if reg = 0x009 then l.setBGCnt 0 (highByte (l.bgCnt 0) val)
  else if reg = 0x00A then l.setBGCnt 1 (lowByte (l.bgCnt 1) val)
  else if reg = 0x00B then l.setBGCnt 1 (highByte (l.bgCnt 1) val)
  else if reg = 0x00C then l.setBGCnt 2 (lowByte (l.bgCnt 2) val)
  else if reg = 0x00D then l.setBGCnt 2 (highByte (l.bgCnt 2) val)
  else if reg = 0x00E then l.setBGCnt 3 (lowByte (l.bgCnt 3) val)
  else if reg = 0x00F then l.setBGCnt 3 (highByte (l.bgCnt 3) val)
  else if reg = 0x010 then l.setBGXPos 0 (lowByte (l.bgXPos 0) val)
  else if reg = 0x011 then l.setBGXPos 0 (highByte (l.bgXPos 0) val)
  else if reg = 0x012 then l.setBGYPos 0 (lowByte (l.bgYPos 0) val)
  else if reg = 0x013 then l.setBGYPos 0 (highByte (l.bgYPos 0) val)
  else if reg = 0x014 then l.setBGXPos 1 (lowByte (l.bgXPos 1) val)
  else if reg = 0x015 then l.setBGXPos 1 (highByte (l.bgXPos 1) val)
  else if reg = 0x016 then l.setBGYPos 1 (lowByte (l.bgYPos 1) val)
  else if reg = 0x017 then l.setBGYPos 1 (highByte (l.bgYPos 1) val)
  else if reg = 0x018 then l.setBGXPos 2 (lowByte (l.bgXPos 2) val)
  else if reg = 0x019 then l.setBGXPos 2 (highByte (l.bgXPos 2) val)
  else if reg = 0x01A then l.setBGYPos 2 (lowByte (l.bgYPos 2) val)
  else if reg = 0x01B then l.setBGYPos 2 (highByte (l.bgYPos 2) val)
  else if reg = 0x01C then l.setBGXPos 3 (lowByte (l.bgXPos 3) val)
  else if reg = 0x01D then l.setBGXPos 3 (highByte (l.bgXPos 3) val)
  else if reg = 0x01E then l.setBGYPos 3 (lowByte (l.bgYPos 3) val)
  else if reg = 0x01F then l.setBGYPos 3 (highByte (l.bgYPos 3) val)
  else if reg = 0x04C then l.setBGMosaic (val &&& 0xF) (val >>> 4)
  else if reg = 0x04D then l.setOBJMosaic (val &&& 0xF) (val >>> 4)
  else if reg = 0x050 then { l with blendCnt := (l.blendCnt &&& (0x3F00 : U16)) ||| val.setWidth 16 }
  else if reg = 0x051 then
    { l with blendCnt := (l.blendCnt &&& (0x00FF : U16)) ||| (val.setWidth 16 <<< 8) }
  else if reg = 0x052 then
    { l with
      blendAlpha := (l.blendAlpha &&& (0x1F00 : U16)) ||| (val &&& 0x1F).setWidth 16
      eva := atMost16 (val &&& 0x1F) }
  else if reg = 0x053 then
    { l with
      blendAlpha := (l.blendAlpha &&& (0x001F : U16)) ||| ((val &&& 0x1F).setWidth 16 <<< 8)
      evb := atMost16 (val &&& 0x1F) }
  else if reg = 0x054 then { l with evy := atMost16 (val &&& 0x1F) }
  else l

def write16 (num : U32) (enabled : Bool) (reg : ℕ) (val : U16) (l : Layers) : Layers :=
  let l := if reg = 0x010 then l.setRenderXPos num val 0xFFFF else l
  if enabled = false then l
  else if reg = 0x008 then l.setBGCnt 0 val
  else if reg = 0x00A then l.setBGCnt 1 val
  else if reg = 0x00C then l.setBGCnt 2 val
  else if reg = 0x00E then l.setBGCnt 3 val
  else if reg = 0x010 then l.setBGXPos 0 val
  else if reg = 0x012 then l.setBGYPos 0 val
  else if reg = 0x014 then l.setBGXPos 1 val
  else if reg = 0x016 then l.setBGYPos 1 val
  else if reg = 0x018 then l.setBGXPos 2 val
  else if reg = 0x01A then l.setBGYPos 2 val
  else if reg = 0x01C then l.setBGXPos 3 val
  else if reg = 0x01E then l.setBGYPos 3 val
  else if reg = 0x020 then { l with bgRotA := Function.update l.bgRotA 0 val }
  else if reg = 0x022 then { l with bgRotB := Function.update l.bgRotB 0 val }
  else if reg = 0x024 then { l with bgRotC := Function.update l.bgRotC 0 val }
  else if reg = 0x026 then { l with bgRotD := Function.update l.bgRotD 0 val }
  else if reg = 0x028 then l.setXRef 0 (lowHalf (l.bgXRef 0) val)
  else if reg = 0x02A then l.setXRef 0 (highHalf (l.bgXRef 0) val)
  else if reg = 0x02C then l.setYRef 0 (lowHalf (l.bgYRef 0) val)
  else if reg = 0x02E then l.setYRef 0 (highHalf (l.bgYRef 0) val)
  else if reg = 0x030 then { l with bgRotA := Function.update l.bgRotA 1 val }
  else if reg = 0x032 then { l with bgRotB := Function.update l.bgRotB 1 val }
  else if reg = 0x034 then { l with bgRotC := Function.update l.bgRotC 1 val }
  else if reg = 0x036 then { l with bgRotD := Function.update l.bgRotD 1 val }
  else if reg = 0x038 then l.setXRef 1 (lowHalf (l.bgXRef 1) val)
  else if reg = 0x03A then l.setXRef 1 (highHalf (l.bgXRef 1) val)
  else if reg = 0x03C then l.setYRef 1 (lowHalf (l.bgYRef 1) val)
  else if reg = 0x03E then l.setYRef 1 (highHalf (l.bgYRef 1) val)
  else if reg = 0x04C then
    (l.setBGMosaic ((val &&& 0xF).setWidth 8) (((val >>> 4) &&& 0xF).setWidth 8)).setOBJMosaic
      (((val >>> 8) &&& 0xF).setWidth 8) ((val >>> 12).setWidth 8)
  else if reg = 0x050 then { l with blendCnt := val &&& 0x3FFF }
  else if reg = 0x052 then
    { l with
      blendAlpha := val &&& 0x1F1F
      eva := atMost16 ((val &&& 0x1F).setWidth 8)
      evb := atMost16 (((val >>> 8) &&& 0x1F).setWidth 8) }
  else if reg = 0x054 then { l with evy := atMost16 ((val &&& 0x1F).setWidth 8) }
  else l

def write32 (num : U32) (enabled : Bool) (reg : ℕ) (val : U32) (l : Layers) : Layers :=
  let halves :=
    write16 num enabled (reg + 2) ((val >>> 16).setWidth 16)
      (write16 num enabled reg (val.setWidth 16) l)
  if reg = 0x000 then l
  else if enabled = false then halves
  else if reg = 0x028 then l.setXRef 0 (signedRef val)
  else if reg = 0x02C then l.setYRef 0 (signedRef val)
  else if reg = 0x038 then l.setXRef 1 (signedRef val)
  else if reg = 0x03C then l.setYRef 1 (signedRef val)
  else halves

end Layers

structure Registers where
  windows : Windows
  layers : Layers

namespace Registers

/-- The register an address selects. -/
def offset (addr : U32) : ℕ := (addr &&& 0xFFF).toNat

def write8 (addr : U32) (val : U8) (r : Registers) : Registers :=
  ⟨r.windows.write8 addr val, r.layers.write8 r.windows.num r.windows.enabled (offset addr) val⟩

def write16 (addr : U32) (val : U16) (r : Registers) : Registers :=
  ⟨r.windows.write16 addr val, r.layers.write16 r.windows.num r.windows.enabled (offset addr) val⟩

def write32 (addr val : U32) (r : Registers) : Registers :=
  ⟨r.windows.write32 addr val, r.layers.write32 r.windows.num r.windows.enabled (offset addr) val⟩

/-- `Reset` clears all but the blending coefficients in the register and the first of the two
clamped ones, and leaves the 3D engine alone. -/
def reset (r : Registers) : Registers where
  windows :=
    { num := r.windows.num
      enabled := false
      dispCnt := 0
      win0Coords := fun _ => 0
      win1Coords := fun _ => 0
      winCnt := fun _ => 0
      win0Active := 0
      win1Active := 0 }
  layers :=
    { bgCnt := fun _ => 0
      bgXPos := fun _ => 0
      bgYPos := fun _ => 0
      bgXRef := fun _ => 0
      bgYRef := fun _ => 0
      bgXRefReload := fun _ => 0
      bgYRefReload := fun _ => 0
      bgRotA := fun _ => 0
      bgRotB := fun _ => 0
      bgRotC := fun _ => 0
      bgRotD := fun _ => 0
      bgMosaicSize := fun _ => 0
      objMosaicSize := fun _ => 0
      blendCnt := 0
      blendAlpha := r.layers.blendAlpha
      eva := 16
      evb := 0
      evy := 0
      gpu3D := r.layers.gpu3D }

def setEnabled (enable : Bool) (r : Registers) : Registers :=
  { r with windows := { r.windows with enabled := enable } }

/-- The two writes of the halves of a word. -/
def writeHalves (addr val : U32) (r : Registers) : Registers :=
  (r.write16 addr (val.setWidth 16)).write16 (addr + 2) ((val >>> 16).setWidth 16)

/-- The four writes of the bytes of a word, the lowest first. -/
def writeBytes (addr val : U32) (r : Registers) : Registers :=
  (((r.write8 addr (val.setWidth 8)).write8 (addr + 1) ((val >>> 8).setWidth 8)).write8 (addr + 2)
    ((val >>> 16).setWidth 8)).write8 (addr + 3) ((val >>> 24).setWidth 8)

end Registers

end MelonDS.GPU2D

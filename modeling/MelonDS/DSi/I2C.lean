import Mathlib.Logic.Function.Basic
import Mathlib.Tactic.Common
import MelonDS.Types

/-!
# The I2C host and the BPTWL

`DSi_I2C.cpp`: the host takes a byte at a time from its data and control registers and passes it
to the device that the last START addressed. The BPTWL keeps the register index, all ones while
none has been sent. The cameras are devices of their own; what they do is a parameter. The list
`accesses` is what the BPTWL has indexed its register array with.
-/

namespace MelonDS.DSi.I2C

structure Camera (κ : Type) where
  acquire : κ → κ
  read : Bool → κ → U8 × κ
  write : U8 → Bool → κ → κ

structure BPTWL where
  registers : Fin 0x100 → U8
  curPos : U32
  accesses : List U32

namespace BPTWL

/-- The registers after a reset. -/
def initial : Fin 0x100 → U8 := fun r =>
  match r.val with
  | 0x00 => 0x33
  | 0x01 => 0x00
  | 0x02 | 0x62 => 0x50
  | 0x10 | 0x11 | 0x12 | 0x31 | 0x60 | 0x63 => 0x00
  | 0x20 => 0x8F
  | 0x21 => 0x07
  | 0x30 => 0x13
  | 0x40 => 0x1F
  | 0x41 => 0x04
  | 0x61 => 0x01
  | 0x70 | 0x71 | 0x72 | 0x73 | 0x74 | 0x75 | 0x76 | 0x77 => 0x00
  | 0x80 => 0x10
  | 0x81 => 0x64
  | _ => 0x5A

def reset : BPTWL := ⟨initial, -1, []⟩

def writable (pos : U32) : Bool :=
  pos = 0x11 || pos = 0x12 || pos = 0x21 || pos = 0x30 || pos = 0x31 || pos = 0x40 ||
    pos = 0x41 || pos = 0x60 || pos = 0x63 || (0x70 ≤ pos && pos ≤ 0x77) || pos = 0x80 || pos = 0x81

/-- The array element, or whatever lies behind the array. -/
def element (beyond : U32 → U8) (b : BPTWL) (pos : U32) : U8 :=
  if h : pos.toNat < 0x100 then b.registers ⟨pos.toNat, h⟩ else beyond pos

def store (b : BPTWL) (pos : U32) (val : U8) : Fin 0x100 → U8 := fun r =>
  if r.val = pos.toNat then val else b.registers r

def read (beyond : U32 → U8) (last : Bool) (b : BPTWL) : U8 × BPTWL :=
  let ret := b.element beyond b.curPos
  let registers := if b.curPos = 0x10 then b.store 0x10 0 else b.registers
  (ret, ⟨registers, if last then -1 else b.curPos + 1, b.accesses ++ [b.curPos]⟩)

/-- The levels are masked and clamped. -/
def masked (pos : U32) (val : U8) : U8 :=
  let val := if pos = 0x40 then val &&& 0x1F else val
  if pos = 0x41 then (if 4 < val then 4 else val) else val

/-- The second component tells the soft reset, which halts the ARM7. -/
def write (val : U8) (last : Bool) (b : BPTWL) : BPTWL × Bool :=
  if last then ({ b with curPos := -1 }, false)
  else if b.curPos = 0xFFFFFFFF then ({ b with curPos := val.setWidth 32 }, false)
  else if b.curPos = 0x11 ∧ val = 0x01 then ({ b with curPos := -1 }, true)
  else if writable b.curPos then
    (⟨b.store b.curPos (masked b.curPos val), b.curPos + 1, b.accesses ++ [b.curPos]⟩, false)
  else ({ b with curPos := b.curPos + 1 }, false)

end BPTWL

inductive Device
  | bptwl
  | camera (i : Fin 2)
deriving DecidableEq

structure I2CHost (κ : Type) where
  cnt : U8
  data : U8
  curDeviceID : U8
  curDevice : Option Device
  legacyTransaction : Bool
  bptwl : BPTWL
  camera : Fin 2 → κ
  arm7Halted : Bool
  irq2 : Bool

variable {κ : Type} (cam : Camera κ) (beyond : U32 → U8)

namespace I2CHost

def reset (camera : Fin 2 → κ) : I2CHost κ := ⟨0, 0, 0, none, false, .reset, camera, false, false⟩

def getCurDevice (id : U8) : Option Device :=
  if id &&& 0xFE = 0x4A then some .bptwl
  else if id &&& 0xFE = 0x78 then some (.camera 0)
  else if id &&& 0xFE = 0x7A then some (.camera 1)
  else none

def acquire (h : I2CHost κ) : I2CHost κ :=
  match h.curDevice with
  | some (.camera i) => { h with camera := Function.update h.camera i (cam.acquire (h.camera i)) }
  | _ => h

def deviceRead (dev : Device) (last : Bool) (h : I2CHost κ) : I2CHost κ :=
  match dev with
  | .bptwl =>
    let (ret, b) := h.bptwl.read beyond last
    { h with data := ret, bptwl := b }
  | .camera i =>
    let (ret, c) := cam.read last (h.camera i)
    { h with data := ret, camera := Function.update h.camera i c }

def deviceWrite (dev : Device) (last : Bool) (h : I2CHost κ) : I2CHost κ :=
  match dev with
  | .bptwl =>
    let (b, softReset) := h.bptwl.write h.data last
    { h with bptwl := b, arm7Halted := h.arm7Halted || softReset }
  | .camera i => { h with camera := Function.update h.camera i (cam.write h.data last (h.camera i)) }

/-- The device reads are passed to, and the one writes are. -/
def readTarget (h : I2CHost κ) : Option Device :=
  if h.legacyTransaction || h.curDeviceID.getLsbD 0 then h.curDevice else none

def writeTarget (h : I2CHost κ) : Option Device :=
  if h.legacyTransaction || !h.curDeviceID.getLsbD 0 then h.curDevice else none

/-- The STOP that callers of the BPTWL send after the data. -/
def isFlush (val : U8) (h : I2CHost κ) : Bool := val &&& 0x07 = 0x05 && h.curDevice = some .bptwl

/-- A transfer, with the control value and the device's answer. -/
def transfer (val : U8) (h : I2CHost κ) : U8 × I2CHost κ :=
  if h.isFlush val then
    ((val &&& ~~~0x18) ||| (h.cnt &&& 0x10), h.deviceWrite cam .bptwl true)
  else if val.getLsbD 5 then
    (val &&& 0xF7,
      match h.readTarget with
      | some dev => h.deviceRead cam beyond dev (val.getLsbD 0)
      | none => { h with data := 0xFF })
  else if val.getLsbD 1 then
    let h := { h with
      legacyTransaction := false
      curDeviceID := h.data
      curDevice := getCurDevice h.data }
    ((val &&& 0xE7) ||| (if h.curDevice.isSome then 0x10 else 0), h.acquire cam)
  else
    match h.writeTarget with
    | some dev => ((val &&& 0xE7) ||| 0x10, h.deviceWrite cam dev (val.getLsbD 0))
    | none => (val &&& 0xE7, h)

def stop (h : I2CHost κ) : I2CHost κ :=
  { h with curDeviceID := 0, curDevice := none, legacyTransaction := false }

def writeCnt (val : U8) (h : I2CHost κ) : I2CHost κ :=
  if val.getLsbD 7 then
    let (cnt, h') := h.transfer cam beyond val
    let h' := if val.getLsbD 0 then h'.stop else h'
    { h' with cnt := cnt &&& 0x7F, irq2 := h'.irq2 || (cnt &&& 0x7F).getLsbD 6 }
  else { h with cnt := val }

def writeData (val : U8) (h : I2CHost κ) : I2CHost κ := { h with data := val }

/-- Loading what `DoSavestate` has saved of `saved`. -/
def load (saved h : I2CHost κ) : I2CHost κ :=
  { h with
    cnt := saved.cnt
    data := saved.data
    curDeviceID := saved.curDeviceID
    curDevice := getCurDevice saved.curDeviceID
    legacyTransaction := saved.legacyTransaction
    bptwl := { h.bptwl with registers := saved.bptwl.registers, curPos := saved.bptwl.curPos }
    camera := saved.camera }

end I2CHost

end MelonDS.DSi.I2C

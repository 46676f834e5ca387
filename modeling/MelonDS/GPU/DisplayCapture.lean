import Mathlib.Data.Fin.VecNotation
import MelonDS.GPU.VRAMMap

/-!
# Display captures in VRAM

Banks A to D are four blocks of 32K each. A block written by a display capture is
flagged with where the capture starts in its bank, how many blocks it takes and its
size code, in the same words on every block of the capture; captures wrap around at
the end of their bank.
-/

namespace MelonDS.GPU

/-! ### The flags of a block -/

def CBFlag_IsCapture : U16 := 0x8000
def CBFlag_Complete : U16 := 0x4000
def CBFlag_Synced : U16 := 0x2000

/-- Blocks named in two bits. -/
def blockOf (x : U16) : Fin 4 := ⟨(x &&& 3).toNat, by
  rw [BitVec.toNat_and]
  exact Nat.lt_succ_of_le Nat.and_le_right⟩

def captureStart (flags : U16) : Fin 4 := blockOf flags

def captureLen (flags : U16) : ℕ := (blockOf (flags >>> 4)).val

def captureSize (flags : U16) : ℕ := (blockOf (flags >>> 6)).val

def isCapture (flags : U16) : Bool := flags &&& CBFlag_IsCapture ≠ 0

/-- The blocks of a capture, in the order the loops visit them. -/
def blocksFrom (start : Fin 4) (len : ℕ) : List (Fin 4) :=
  (List.range len).map fun i => start + Fin.ofNat 4 i

/-- Blocks that a size code stands for. -/
def blocksOfSize (size : Fin 4) : ℕ := if size = 0 then 1 else size

/-- `CBFlag_IsCapture | dstoff | (dstbank << 2) | (len << 4) | (size << 6)` -/
def newFlags (bank off size : Fin 4) : U16 :=
  CBFlag_IsCapture ||| BitVec.ofNat 16 off ||| BitVec.ofNat 16 bank <<< 2 |||
    BitVec.ofNat 16 (blocksOfSize size) <<< 4 ||| BitVec.ofNat 16 size <<< 6

/-- What the renderer is told. -/
inductive RendererCall
  | syncVRAMCapture (bank start : Fin 4) (len : ℕ) (complete : Bool)
  | invalidateDisplayCapture (bank start : Fin 4) (len : ℕ)
  | allocCapture (bank start : Fin 4) (len : ℕ)
deriving DecidableEq

structure CaptureState where
  map : VRAMMap
  captureCnt : U32
  captureBlockFlags : Fin 4 → Fin 4 → U16
  renderer : List RendererCall

namespace CaptureState

def reset : CaptureState where
  map := VRAMMap.reset
  captureCnt := 0
  captureBlockFlags _ _ := 0
  renderer := []

def tell (s : CaptureState) (call : RendererCall) : CaptureState :=
  { s with renderer := s.renderer ++ [call] }

/-- The loops over the blocks of a capture. -/
def onBlocks (s : CaptureState) (bank : Fin 4) (blocks : List (Fin 4)) (g : U16 → U16) :
    CaptureState :=
  let cbflags := blocks.foldl (fun f b => Function.update f b (g (f b))) (s.captureBlockFlags bank)
  { s with captureBlockFlags := Function.update s.captureBlockFlags bank cbflags }

def vramCBFlagsSet (s : CaptureState) (bank block : Fin 4) (val : U16) : CaptureState :=
  s.onBlocks bank (blocksFrom block (captureLen val)) fun _ => val

def vramCBFlagsClear (s : CaptureState) (bank block : Fin 4) : CaptureState :=
  let flags := s.captureBlockFlags bank block
  let s := s.tell (.invalidateDisplayCapture bank (captureStart flags) (captureLen flags))
  s.onBlocks bank (blocksFrom (captureStart flags) (captureLen flags)) fun _ => 0

def vramCBFlagsOr (s : CaptureState) (bank block : Fin 4) (val : U16) : CaptureState :=
  let flags := s.captureBlockFlags bank block
  s.onBlocks bank (blocksFrom (captureStart flags) (captureLen flags)) (· ||| val)

/-- The destination that the capture control register names. -/
def dstBank (s : CaptureState) : Fin 4 := blockOf ((s.captureCnt >>> 16).setWidth 16)

def dstOff (s : CaptureState) : Fin 4 := blockOf ((s.captureCnt >>> 18).setWidth 16)

def dstSize (s : CaptureState) : Fin 4 := blockOf ((s.captureCnt >>> 20).setWidth 16)

/-- An old capture at another place or of another size is given up for the new one. -/
def invalidateOld (bank off size : Fin 4) (s : CaptureState) (b : Fin 4) : CaptureState :=
  let oldflags := s.captureBlockFlags bank b
  if ¬isCapture oldflags then s
  else if captureStart oldflags = off ∧ captureSize oldflags = size then s
  else
    (s.tell (.syncVRAMCapture bank (captureStart oldflags) (captureSize oldflags)
      (oldflags &&& CBFlag_Complete ≠ 0))).vramCBFlagsClear bank (captureStart oldflags)

def checkCaptureStart (s : CaptureState) : CaptureState :=
  let bank := s.dstBank
  let off := s.dstOff
  let size := s.dstSize
  if (s.map.slot .lcdc 0).mask &&& bankMask bank = 0 then s
  else
    let s := (blocksFrom off (blocksOfSize size)).foldl (invalidateOld bank off size) s
    (s.vramCBFlagsSet bank off (newFlags bank off size)).tell (.allocCapture bank off size)

def checkCaptureEnd (s : CaptureState) : CaptureState :=
  let flags := s.captureBlockFlags s.dstBank s.dstOff
  if ¬isCapture flags then s
  else if s.dstOff ≠ captureStart flags ∨ s.dstSize.val ≠ captureSize flags then s
  else s.vramCBFlagsOr s.dstBank s.dstOff CBFlag_Complete

def syncVRAMCaptureBlock (s : CaptureState) (bank block : Fin 4) (write : Bool) : CaptureState :=
  let flags := s.captureBlockFlags bank block
  if ¬isCapture flags then s
  else if flags &&& CBFlag_Synced ≠ 0 then
    if write then s.vramCBFlagsClear bank (captureStart flags) else s
  else
    let s := s.tell (.syncVRAMCapture bank (captureStart flags) (captureSize flags)
      (flags &&& CBFlag_Complete ≠ 0))
    if write then s.vramCBFlagsClear bank (captureStart flags)
    else s.vramCBFlagsOr bank (captureStart flags) CBFlag_Synced

/-- One turn of the loop of `SyncAllVRAMCaptures`. -/
def syncAndClear (s : CaptureState) (bank block : Fin 4) : CaptureState :=
  let flags := s.captureBlockFlags bank block
  if ¬isCapture flags then s
  else
    let s :=
      if flags &&& CBFlag_Synced = 0 then
        s.tell (.syncVRAMCapture bank (captureStart flags) (captureSize flags)
          (flags &&& CBFlag_Complete ≠ 0))
      else s
    s.vramCBFlagsClear bank (captureStart flags)

def syncAllVRAMCaptures (s : CaptureState) : CaptureState :=
  (List.range 16).foldl
    (fun s b => s.syncAndClear (Fin.ofNat 4 (b / 4)) (Fin.ofNat 4 (b % 4))) s

/-- A VRAMCNT write. Banks C and D are published before the ARM7 gets them. -/
def writeVRAMCNT (s : CaptureState) (bank : Fin 9) (cnt : U8) : CaptureState :=
  let published :=
    if bank = 2 ∨ bank = 3 then
      let cnt := cnt &&& 0x9F
      if s.map.vramCNT bank ≠ cnt ∧ cnt &&& 0x87 = 0x82 then
        [0, 1, 2, 3].foldl
          (fun s block => s.syncVRAMCaptureBlock (Fin.ofNat 4 bank) block true) s
      else s
    else s
  { published with map := published.map.writeVRAMCNT bank cnt }

inductive Action
  | writeCaptureCnt (val : U32)
  | checkCaptureStart
  | checkCaptureEnd
  | syncVRAMCaptureBlock (bank block : Fin 4) (write : Bool)
  | syncAllVRAMCaptures
  | writeVRAMCNT (bank : Fin 9) (cnt : U8)

def step (s : CaptureState) : Action → CaptureState
  | .writeCaptureCnt val => { s with captureCnt := val &&& 0xEF3F1F1F }
  | .checkCaptureStart => s.checkCaptureStart
  | .checkCaptureEnd => s.checkCaptureEnd
  | .syncVRAMCaptureBlock bank block write => s.syncVRAMCaptureBlock bank block write
  | .syncAllVRAMCaptures => s.syncAllVRAMCaptures
  | .writeVRAMCNT bank cnt => s.writeVRAMCNT bank cnt

def run (actions : List Action) : CaptureState := actions.foldl step reset

end CaptureState
end MelonDS.GPU

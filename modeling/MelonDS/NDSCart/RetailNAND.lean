import MelonDS.NDSCart.RetailSavestate
import MelonDS.NDSCart.RomBus

/-!
# Retail cartridges with NAND backup

ROM and save memory share a chip and the ROM bus; there is no serial interface. Writes are
collected in a buffer of one page of 0x800 bytes and committed at an address of the bus. The
last 128 KiB of the save memory are read-only and hold what `BuildSRAMID` puts there.
-/

namespace MelonDS.NDSCart

structure CartRetailNAND extends CartRetail where
  rom : CartROM
  sramBase : ℕ
  sramWindow : ℕ
  sramWriteBuffer : ℕ → U8
  sramWritePos : ℕ
  sramWriteLen : ℕ
  sramID : ℕ → U8

/-- `memcpy(&SRAM[offset], &SRAMWriteBuffer[source], length)` -/
structure PageCopy where
  offset : ℕ
  source : ℕ
  length : ℕ

def PageCopy.store (buffer : ℕ → U8) (sram : ℕ → U8) (p : PageCopy) : ℕ → U8 := fun i =>
  if p.offset ≤ i ∧ i < p.offset + p.length then buffer (p.source + (i - p.offset)) else sram i

def idData : List U8 :=
  [0xEC, 0x00, 0x9E, 0xA1, 0x51, 0x65, 0x34, 0x35, 0x30, 0x35, 0x30, 0x31, 0x19, 0x19, 0x02, 0x0A]

def idData2 : List U8 := [0xEC, 0xF1, 0x00, 0x95, 0x40]

/-- The bytes of the read-only area, from its start. -/
def readOnlyByte (i : ℕ) : U8 :=
  if 0x1F800 ≤ i ∧ i < 0x1F800 + 16 then idData.getD (i - 0x1F800) 0 else 0xFF

namespace CartRetailNAND

def buildSRAMID (c : CartRetailNAND) : CartRetailNAND :=
  if c.sramLength > 0x20000 then
    { c with
      sram := fun i =>
        if c.sramLength - 0x20000 ≤ i ∧ i < c.sramLength then
          readOnlyByte (i - (c.sramLength - 0x20000))
        else c.sram i
      sramID := fun i =>
        if 0x18 ≤ i ∧ i < 0x18 + 16 then idData.getD (i - 0x18) 0 else idData2.getD i 0 }
  else c

/-- The constructor. `Reset` reads the base from the header. -/
def build (resetState : Bool) (saveMemType : ℕ) (sram : Option (List U8)) (rom : CartROM) :
    CartRetailNAND :=
  buildSRAMID
    { CartRetail.build resetState saveMemType sram with
      rom := rom
      sramBase := 0
      sramWindow := 0
      sramWriteBuffer := fun _ => 0
      sramWritePos := 0
      sramWriteLen := 0
      sramID := fun _ => 0 }

def reset (c : CartRetailNAND) : CartRetailNAND :=
  { c with
    toCartRetail := { c.toCartRetail.reset with sramAddr := 0, sramStatus := 0x20 }
    sramWindow := 0
    sramBase := (c.rom.rom 0x97 ++ c.rom.rom 0x96 : U16).toNat * 0x20000 % 2 ^ 32
    sramWriteBuffer := fun _ => 0 }

def setSaveMemory (savedata : List U8) (c : CartRetailNAND) : CartRetailNAND :=
  let retail := c.toCartRetail.setSaveMemory savedata
  buildSRAMID
    { c with
      toCartRetail := { retail with sramAddr := 0, sramStatus := retail.sramStatus &&& ~~~0x10 }
      sramWriteBuffer := fun _ => 0
      sramWritePos := 0
      sramWriteLen := 0 }

/-- `DoSavestate` of a stream that loads; none sets the error flag. -/
def loadingDoSavestate (v : StateVersion) (beyond : ℕ) (c : CartRetailNAND) (rest : List U8) :
    Option (CartRetailNAND × List U8) := do
  let (retail, rest) ← c.toCartRetail.loadingDoSavestate v beyond rest
  let (base, rest) ← fetch32 rest
  let (window, rest) ← fetch32 rest
  let (buffer, rest) ← fetch 0x800 rest
  let (pos, rest) ← fetch32 rest
  if v.major = 13 ∧ pos > 0x800 then none
  else
    let (len, rest) ← if v.major = 13 then some (pos, rest) else fetch32 rest
    let pos := if v.major = 13 then pos % 0x800 else pos
    if pos ≥ 0x800 ∨ len > 0x800 ∨ (pos ||| len) % 4 ≠ 0 then none
    else
      some
        (buildSRAMID
          { c with
            toCartRetail := retail
            sramBase := base
            sramWindow := window
            sramWriteBuffer := fun i => buffer.getD i 0
            sramWritePos := pos
            sramWriteLen := len }, rest)

/-! ## Commands -/

/-- Bit 4 of the NAND status, write enable. -/
def writeEnabled (c : CartRetailNAND) : Bool := c.sramStatus.getLsbD 4

def windowMapped (c : CartRetailNAND) : Bool :=
  c.sramBase ≤ c.sramWindow && c.sramWindow < (c.sramBase + c.sramLength) % 2 ^ 32

def inWindow (addr : ℕ) (c : CartRetailNAND) : Bool :=
  c.sramWindow ≤ addr && addr < (c.sramWindow + 0x20000) % 2 ^ 32

/-- Command 81: the first one of a page fixes the address. -/
def writeData (addr : ℕ) (c : CartRetailNAND) : CartRetailNAND :=
  if c.writeEnabled ∧ c.windowMapped then
    if c.inWindow addr ∧ c.sramAddr = 0 then { c with sramAddr := addr } else c
  else { c with sramAddr := 0 }

/-- The offset of the address, as the 32-bit subtraction gives it. -/
def commitOffset (c : CartRetailNAND) : ℕ := (c.sramAddr + 2 ^ 32 - c.sramBase) % 2 ^ 32

/-- A page waits, and its address is below the read-only area. -/
def commits (c : CartRetailNAND) : Prop :=
  c.sramAddr ≠ 0 ∧ c.sramWriteLen ≠ 0 ∧ c.sramLength ≠ 0 ∧
    c.sramAddr < (c.sramBase + c.sramLength + 2 ^ 32 - 0x20000) % 2 ^ 32

instance (c : CartRetailNAND) : Decidable c.commits := inferInstanceAs (Decidable (_ ∧ _))

/-- The copies of a commit, one or two. -/
def commitCopies (c : CartRetailNAND) : List PageCopy :=
  if c.commits then
    if (c.commitOffset + 0x800) % 2 ^ 32 > c.sramLength then
      let len1 := (c.sramLength + 2 ^ 32 - c.commitOffset) % 2 ^ 32
      let len2 := (0x800 + 2 ^ 32 - len1) % 2 ^ 32
      [⟨c.commitOffset, 0, len1⟩, ⟨0, len1, len2⟩]
    else [⟨c.commitOffset, 0, 0x800⟩]
  else []

/-- Command 82; the platform hears of the copies when all of them are done. -/
def commitWrite (c : CartRetailNAND) : CartRetailNAND :=
  let sram := c.commitCopies.foldl (PageCopy.store c.sramWriteBuffer) c.sram
  let calls := c.commitCopies.map fun p => ⟨sram, c.sramFileLength, p.offset, p.length⟩
  let pending := c.sramAddr ≠ 0 ∧ c.sramWriteLen ≠ 0
  { c with
    sram := sram
    calls := c.calls ++ calls
    sramAddr := if pending then 0 else c.sramAddr
    sramWritePos := if pending then 0 else c.sramWritePos
    sramWriteLen := if pending then 0 else c.sramWriteLen
    sramStatus := c.sramStatus &&& ~~~0x10 }

/-- Commands of the ROM, which the common part answers. -/
def commonCommandStart (decrypt : U32 × U32 → U32 × U32) (cmd : Fin 8 → U8) (c : CartRetailNAND) :
    CartRetailNAND :=
  { c with common := c.common.romCommandStart decrypt cmd c.rom }

def romCommandStart (decrypt : U32 × U32 → U32 × U32) (cmd : Fin 8 → U8) (c : CartRetailNAND) :
    CartRetailNAND :=
  if c.common.resetState then c
  else if c.common.cmdEncMode ≠ 2 then c.commonCommandStart decrypt cmd
  else
    let c := { c with common := { c.common with romCmd := cmd } }
    let addr := (commandAddress cmd).toNat
    if cmd 0 = 0x81 then c.writeData addr
    else if cmd 0 = 0x82 then c.commitWrite
    else if cmd 0 = 0x84 then { c with sramAddr := 0, sramWritePos := 0 }
    else if cmd 0 = 0x85 then
      if c.sramWindow ≠ 0 then { c with sramStatus := c.sramStatus ||| 0x10, sramWritePos := 0 }
      else c
    else if cmd 0 = 0x8B then { c with sramWindow := 0 }
    else if cmd 0 = 0x94 then { c with common := { c.common with romAddr := 0 } }
    else if cmd 0 = 0xB2 then
      { c with sramWindow := (cmd 1 ++ (cmd 2 &&& 0xFE) ++ (0 : U16) : U32).toNat }
    else if cmd 0 = 0xB7 then
      if c.sramWindow = 0 then c.commonCommandStart decrypt cmd
      else { c with sramAddr := if c.windowMapped ∧ c.inWindow addr then addr else 0 }
    else c.commonCommandStart decrypt cmd

/-! ## Data -/

def sramRead32 (c : CartRetailNAND) : U32 × CartRetailNAND :=
  let addr := c.commitOffset % c.sramLength
  let addrhi := addr / 0x1000 * 0x1000
  let addrlo := addr % 0x1000
  (readPage c.sram addrhi addrlo,
    { c with sramAddr := (c.sramBase + (addrhi + (addrlo + 4) % 0x1000)) % 2 ^ 32 })

def commonCommandReceive (c : CartRetailNAND) : U32 × CartRetailNAND :=
  let answer := c.common.romCommandReceive c.rom
  (answer.1, { c with common := answer.2 })

def romCommandReceive (c : CartRetailNAND) : U32 × CartRetailNAND :=
  if c.common.resetState then (0, c)
  else if c.common.cmdEncMode ≠ 2 then c.commonCommandReceive
  else if c.common.romCmd 0 = 0x94 then
    if c.common.romAddr ≥ 0x30 then (0, c)
    else
      (word c.sramID c.common.romAddr.toNat,
        { c with common := { c.common with romAddr := c.common.romAddr + 4 } })
  else if c.common.romCmd 0 = 0xB7 then
    if c.sramWindow = 0 then
      if c.sramBase ≤ c.common.romAddr.toNat ∧
          c.common.romAddr.toNat < (c.sramBase + c.sramLength) % 2 ^ 32 then (0xFFFFFFFF, c)
      else c.commonCommandReceive
    else if c.sramAddr = 0 then (0xFFFFFFFF, c)
    else c.sramRead32
  else if c.common.romCmd 0 = 0xD6 then (c.sramStatus.setWidth 32 * 0x01010101, c)
  else c.commonCommandReceive

def romCommandTransmit (val : U32) (c : CartRetailNAND) : CartRetailNAND :=
  if c.common.resetState ∨ c.common.cmdEncMode ≠ 2 ∨ c.common.romCmd 0 ≠ 0x81 ∨ c.sramAddr = 0 then
    c
  else
    { c with
      sramWriteBuffer := fun i =>
        if c.sramWritePos ≤ i ∧ i < c.sramWritePos + 4 then
          val.extractLsb' (8 * (i - c.sramWritePos)) 8
        else c.sramWriteBuffer i
      sramWritePos := (c.sramWritePos + 4) % 0x800
      sramWriteLen := if c.sramWriteLen < 0x800 then c.sramWriteLen + 4 else c.sramWriteLen }

/-- The data of a command that a state of version 13 was saved in. -/
def romCommandFinishLegacy (data : ℕ → U8) (len : ℕ) (c : CartRetailNAND) : CartRetailNAND :=
  if c.common.cmdEncMode ≠ 2 ∨ c.common.romCmd 0 ≠ 0x81 then
    (List.range (len / 4)).foldl (fun c pos => c.romCommandTransmit (word data (4 * pos))) c
  else if c.sramAddr = 0 then c
  else
    let count := min len ((0x800 + 2 ^ 32 - c.sramWriteLen) % 2 ^ 32)
    { c with
      sramWriteBuffer := fun i =>
        if c.sramWriteLen ≤ i ∧ i < c.sramWriteLen + count then data (i - c.sramWriteLen)
        else c.sramWriteBuffer i
      sramWriteLen := (c.sramWriteLen + count) % 2 ^ 32
      sramWritePos := (c.sramWriteLen + count) % 0x800 }

end CartRetailNAND

/-! ## Calls on a cart -/

inductive NANDOp
  | romCommandStart (decrypt : U32 × U32 → U32 × U32) (cmd : Fin 8 → U8)
  | romCommandReceive
  | romCommandTransmit (val : U32)
  | romCommandFinishLegacy (data : ℕ → U8) (len : ℕ)
  | setResetState (held : Bool)
  | setupDirectBoot (dsi : Bool)
  | reset
  | cancelSave (powerOff : Bool)
  | setSaveMemory (savedata : List U8)
  | loadSavestate (v : StateVersion) (beyond : ℕ) (rest : List U8)

namespace NANDOp

/-- A savestate that is refused ends the session; here it leaves the cart as it is. -/
def apply (c : CartRetailNAND) : NANDOp → CartRetailNAND
  | .romCommandStart decrypt cmd => c.romCommandStart decrypt cmd
  | .romCommandReceive => c.romCommandReceive.2
  | .romCommandTransmit val => c.romCommandTransmit val
  | .romCommandFinishLegacy data len => c.romCommandFinishLegacy data len
  | .setResetState held => { c with common := c.common.setResetState held }
  | .setupDirectBoot dsi => { c with common := c.common.setupDirectBoot dsi c.rom }
  | .reset => c.reset
  | .cancelSave powerOff => { c with toCartRetail := c.toCartRetail.cancelSave powerOff }
  | .setSaveMemory savedata => c.setSaveMemory savedata
  | .loadSavestate v beyond rest => ((c.loadingDoSavestate v beyond rest).map Prod.fst).getD c

/-- Only savestates that are accepted go on. -/
def Accepted (c : CartRetailNAND) : NANDOp → Prop
  | .loadSavestate v beyond rest => (c.loadingDoSavestate v beyond rest).isSome
  | _ => True

end NANDOp
end MelonDS.NDSCart

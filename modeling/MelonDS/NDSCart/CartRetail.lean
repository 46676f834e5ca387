import Mathlib.Data.Finset.Range
import MelonDS.Types

/-!
# Retail cartridges with a serial save memory

The chip behind `CartRetail` is a tiny EEPROM, an EEPROM or FRAM, or a flash memory.
Sizes of arrays, pages and erase spans are powers of two, so the masks of the source
are written as remainders and quotients; a cart without memory has length zero, where
both leave the address alone. `calls` is what the platform was told to write to the
save file, in order, with the array as it was at each call.
-/

namespace MelonDS.NDSCart

def saveLengths : List ℕ :=
  [0, 512, 8192, 65536, 128 * 1024, 256 * 1024, 512 * 1024, 1024 * 1024,
    8192 * 1024, 16384 * 1024, 65536 * 1024,
    8192, 65536, 128 * 1024, 32 * 1024,
    256 * 1024, 512 * 1024, 1024 * 1024]

def saveTypeForLength (length : ℕ) : Option ℕ := saveLengths.findIdx? (· == length)

def saveProtocol (type : ℕ) : ℕ :=
  if type ≤ 1 then type
  else if type ≤ 4 ∨ 11 ≤ type ∧ type ≤ 14 then 2
  else if type ≤ 7 ∨ type ≥ 15 then 3
  else 4

def eepromPageSize (profile : ℕ) : ℕ :=
  if profile = 11 then 32 else if profile = 12 then 128 else if profile = 13 then 256 else 0

def isFlashProfile (profile : ℕ) : Bool := 15 ≤ profile && profile ≤ 17

def isExtendedErase (command : U8) : Bool := command == 0x20 || command == 0xC7

def isPowerCommand (command : U8) : Bool := command == 0xB9 || command == 0xAB

/-- Microseconds at the system clock, rounded up. -/
def cycles (microseconds : ℕ) : ℕ := (microseconds * 33513982 + 999999) / 1000000

def powerCycles (waking : Bool) : ℕ := cycles (if waking then 30 else 3)

def flashEraseSize (command : U8) (length profile : ℕ) : ℕ :=
  if command = 0xDB then 256
  else if command = 0xD8 then 65536
  else if !isFlashProfile profile then 0
  else if command = 0x20 then 4096
  else if command = 0xC7 then length
  else 0

def statusMask (protocol profile : ℕ) : U8 :=
  if protocol = 3 then
    if isFlashProfile profile then if profile = 15 then 0x8C else 0x9C else 0
  else if protocol = 1 then 0x0C
  else if protocol = 2 then 0x8C
  else 0

def isStatusCommand (protocol : ℕ) (command : U8) (profile : ℕ) : Bool :=
  0 < protocol && protocol < 4 &&
    (command == 0x04 || command == 0x06 ||
      ((protocol < 3 || isFlashProfile profile) && command == 0x01))

def writeCycles (protocol : ℕ) (command : U8) (length : ℕ) : ℕ :=
  cycles <|
    if protocol = 3 then
      if command = 0x01 then 3000
      else if command = 0x02 then (length + 7) / 8 * 25
      else if command = 0x20 then 40000
      else if command = 0xC7 then
        if length = 262144 then 4500000 else if length = 524288 then 5000000 else 10000000
      else if command = 0x0A then 11000
      else if command = 0xDB then 10000
      else 1500000
    else 5000

inductive FlashPower
  | awake
  | entering
  | asleep
  | waking
deriving DecidableEq

/-- The fields of `CartCommon` that a savestate keeps. -/
structure CartCommon where
  resetState : Bool
  cmdEncMode : U32
  dataEncMode : U32
  dsiMode : Bool
  romCmd : Fin 8 → U8
  romAddr : U32
  spiSelected : Bool

/-- `Platform::WriteNDSSave(savedata, savelen, writeoffset, writelen)` -/
structure SaveCall where
  savedata : ℕ → U8
  savelen : ℕ
  writeoffset : ℕ
  writelen : ℕ

structure CartRetail where
  common : CartCommon
  sram : ℕ → U8
  sramLength : ℕ
  sramFileLength : ℕ
  sramType : ℕ
  sramProfile : ℕ
  sramPos : ℕ
  sramCmd : U8
  sramAddr : ℕ
  sramStatus : U8
  sramSaveAddr : ℕ
  sramSaveLen : ℕ
  pageBuffer : Fin 256 → U8
  pagePending : Bool
  writeDelay : ℕ
  writeCommand : U8
  writeAddress : ℕ
  writeFirst : ℕ
  writeLength : ℕ
  writeBuffer : Fin 256 → U8
  flashLocks : Fin 16 → U8
  powerState : FlashPower
  powerDelay : ℕ
  powerBlocked : Bool
  calls : List SaveCall

namespace CartCommon

/-- The constructor leaves `ResetState` as it finds it. -/
def build (resetState : Bool) : CartCommon := ⟨resetState, 0, 0, false, fun _ => 0, 0, false⟩

def setResetState (reset : Bool) (c : CartCommon) : CartCommon :=
  if reset = c.resetState then c
  else
    { c with
      cmdEncMode := 0
      dataEncMode := 0
      dsiMode := false
      romCmd := fun _ => 0
      romAddr := 0
      resetState := reset }

def reset (c : CartCommon) : CartCommon :=
  { ({ c with resetState := false }).setResetState true with spiSelected := false }

end CartCommon

namespace CartRetail

/-- The constructor, with the bytes of an existing save file if there is one. -/
def build (resetState : Bool) (saveMemType : ℕ) (sram : Option (List U8)) : CartRetail :=
  let type := if saveMemType < saveLengths.length then saveMemType else 0
  let length := saveLengths.getD type 0
  let file := sram.getD []
  { common := .build resetState
    sram := fun i => file.getD i 0xFF
    sramLength := length
    sramFileLength := max length file.length
    sramType := saveProtocol type
    sramProfile := if type ≥ 11 then type else 0
    sramPos := 0
    sramCmd := 0
    sramAddr := 0
    sramStatus := 0
    sramSaveAddr := 0
    sramSaveLen := 0
    pageBuffer := fun _ => 0
    pagePending := false
    writeDelay := 0
    writeCommand := 0
    writeAddress := 0
    writeFirst := 0
    writeLength := 0
    writeBuffer := fun _ => 0
    flashLocks := fun _ => 0
    powerState := .awake
    powerDelay := 0
    powerBlocked := false
    calls := [] }

def getSaveDelay (c : CartRetail) : ℕ := if c.writeDelay ≠ 0 then c.writeDelay else c.powerDelay

def writeNDSSave (offset length : ℕ) (c : CartRetail) : CartRetail :=
  { c with calls := c.calls ++ [⟨c.sram, c.sramFileLength, offset, length⟩] }

/-- Bit 1 of the status register, the write-enable latch. -/
def wel (c : CartRetail) : Bool := c.sramStatus.getLsbD 1

/-- The size of the page latch, zero for a chip without one. -/
def pageSize (c : CartRetail) : ℕ :=
  if c.sramType = 1 then 16 else if c.sramType = 3 then 256 else eepromPageSize c.sramProfile

def eraseSize (command : U8) (c : CartRetail) : ℕ :=
  if c.sramType = 3 then flashEraseSize command c.sramLength c.sramProfile else 0

def isWriteProtected (address : ℕ) (c : CartRetail) : Bool :=
  if c.sramType = 3 then
    if !isFlashProfile c.sramProfile then false
    else
      let address := address % c.sramLength
      if (c.flashLocks (Fin.ofNat 16 (address / 65536))).getLsbD 0 then true
      else
        let bp := ((c.sramStatus >>> 2) &&& 7).toNat
        let length := if bp = 0 then 0 else min c.sramLength (65536 <<< (bp - 1))
        address ≥ c.sramLength - length
  else
    let bp := ((c.sramStatus >>> 2) &&& 3).toNat
    let start :=
      if bp = 0 then c.sramLength
      else if bp = 1 then c.sramLength * 3 / 4
      else if bp = 2 then c.sramLength / 2
      else 0
    address % c.sramLength ≥ start

/-! ## The internal write -/

def beginSave (command : U8) (address first length : ℕ) (c : CartRetail) : CartRetail :=
  let status := c.sramStatus ||| 1
  { c with
    writeCommand := command
    writeAddress := address
    writeFirst := first
    writeLength := length
    writeBuffer := c.pageBuffer
    writeDelay := writeCycles c.sramType command length
    sramStatus := if isExtendedErase command then status &&& ~~~2 else status }

/-- The array with a page programmed or a span erased. -/
def written (c : CartRetail) : ℕ → U8 :=
  if c.writeCommand = 0x02 ∨ c.writeCommand = 0x0A then
    (List.range c.writeLength).foldl (fun sram i =>
      let index := (c.writeFirst + i) % c.pageSize
      let byte := c.writeBuffer (Fin.ofNat 256 index)
      Function.update sram (c.writeAddress + index)
        (if c.sramType = 3 ∧ c.writeCommand = 0x02 then
          sram (c.writeAddress + index) &&& byte
        else byte)) c.sram
  else
    let length := if c.eraseSize c.writeCommand ≠ 0 then c.eraseSize c.writeCommand else c.pageSize
    fun i => if c.writeAddress ≤ i ∧ i < c.writeAddress + length then 0xFF else c.sram i

/-- The part of the save file that `written` may have changed. -/
def writtenRange (c : CartRetail) : ℕ × ℕ :=
  let length := if c.eraseSize c.writeCommand ≠ 0 then c.eraseSize c.writeCommand else c.pageSize
  if (c.writeCommand = 0x02 ∨ c.writeCommand = 0x0A) ∧
      c.writeLength ≤ c.pageSize - c.writeFirst then
    (c.writeAddress + c.writeFirst, c.writeLength)
  else (c.writeAddress, length)

def completeWrite (c : CartRetail) : CartRetail :=
  if c.writeCommand = 0x01 then { c with sramStatus := BitVec.ofNat 8 c.writeAddress }
  else
    ({ c with sram := c.written, sramStatus := c.sramStatus &&& ~~~3 }).writeNDSSave
      c.writtenRange.1 c.writtenRange.2

def completeSave (c : CartRetail) : CartRetail :=
  if c.powerDelay ≠ 0 then
    { c with
      powerDelay := 0
      powerState := if c.powerState = .entering then .asleep else .awake }
  else if c.writeDelay = 0 then c
  else
    { ({ c with writeDelay := 0 }).completeWrite with
      writeCommand := 0
      writeAddress := 0
      writeFirst := 0
      writeLength := 0 }

def cancelSave (powerOff : Bool) (c : CartRetail) : CartRetail :=
  { c with
    flashLocks := if powerOff then fun _ => 0 else c.flashLocks
    powerState := if powerOff then .awake else c.powerState
    powerDelay := if powerOff then 0 else c.powerDelay
    powerBlocked := if powerOff then false else c.powerBlocked
    writeDelay := 0
    writeCommand := 0
    writeAddress := 0
    writeFirst := 0
    writeLength := 0
    sramStatus := c.sramStatus &&& ~~~3
    sramPos := 0
    sramCmd := 0
    sramSaveAddr := 0
    sramSaveLen := 0
    pagePending := false }

def reset (c : CartRetail) : CartRetail :=
  let c := ({ c with common := c.common.reset }).cancelSave true
  { c with
    sramPos := 0
    sramCmd := 0
    sramAddr := 0
    sramStatus := c.sramStatus &&& statusMask c.sramType c.sramProfile
    sramSaveAddr := 0
    sramSaveLen := 0
    pagePending := false }

def setSaveMemory (savedata : List U8) (c : CartRetail) : CartRetail :=
  let c := c.cancelSave false
  if c.sramFileLength = 0 then c
  else
    let len := min savedata.length c.sramFileLength
    ({ c with sram := fun i => if i < len then savedata.getD i 0 else c.sram i }).writeNDSSave 0 len

/-! ## The serial interface -/

def transitioning (c : CartRetail) : Bool := c.powerState == .entering || c.powerState == .waking

def spiSelect (c : CartRetail) : CartRetail :=
  { c with
    sramPos := 0
    powerBlocked := c.transitioning
    sramCmd := if c.transitioning then 0 else c.sramCmd
    pagePending := false
    sramSaveLen :=
      if c.sramType = 1 ∨ c.sramType = 3 ∨ eepromPageSize c.sramProfile ≠ 0 then 0
      else c.sramSaveLen }

def endCommand (c : CartRetail) : CartRetail := { c with sramPos := 0, sramCmd := 0 }

def releasePower (c : CartRetail) : CartRetail :=
  let waking := c.sramCmd == 0xAB
  let c :=
    if c.sramPos = 1 ∧ c.powerState = (if waking then .asleep else .awake) then
      { c with
        powerState := if waking then .waking else .entering
        powerDelay := powerCycles waking }
    else c
  { c.endCommand with sramSaveLen := 0 }

def releaseStatus (c : CartRetail) : CartRetail :=
  if c.sramCmd = 0x06 ∧ c.sramPos = 1 then { c with sramStatus := c.sramStatus ||| 2 }
  else if c.sramCmd = 0x04 ∧ c.sramPos = 1 then { c with sramStatus := c.sramStatus &&& ~~~2 }
  else if c.sramCmd = 0x01 ∧ c.sramPos = 2 ∧ c.wel then
    let status := BitVec.ofNat 8 c.sramAddr &&& statusMask c.sramType c.sramProfile
    if c.sramType = 1 ∨ eepromPageSize c.sramProfile ≠ 0 ∨ isFlashProfile c.sramProfile then
      c.beginSave 0x01 status.toNat 0 0
    else { c with sramStatus := status }
  else c

def releaseLock (c : CartRetail) : CartRetail :=
  let sector := Fin.ofNat 16 (c.sramAddr % c.sramLength / 65536)
  if c.sramPos = 5 ∧ c.wel ∧ (c.flashLocks sector).getLsbD 1 = false then
    { c with
      flashLocks :=
        Function.update c.flashLocks sector (BitVec.ofNat 8 c.sramSaveLen &&& 3)
      sramStatus := c.sramStatus &&& ~~~2 }
  else c

def anyLocked (c : CartRetail) : Bool :=
  (List.range (c.sramLength / 65536)).any fun i => (c.flashLocks (Fin.ofNat 16 i)).getLsbD 0

def releaseBulkErase (c : CartRetail) : CartRetail :=
  if c.sramPos = 1 ∧ c.wel ∧ c.sramStatus &&& 0x1C = 0 ∧ c.anyLocked = false then
    c.beginSave 0xC7 0 0 c.sramLength
  else c

def releasePage (c : CartRetail) : CartRetail :=
  let erase := c.eraseSize c.sramCmd
  let length := if erase ≠ 0 then erase else c.pageSize
  let address := c.sramSaveAddr % c.sramLength / length * length
  let first := if erase ≠ 0 then 0 else (c.sramAddr + 2 ^ 32 - c.sramSaveLen) % c.pageSize
  let begun := c.beginSave c.sramCmd address first c.sramSaveLen
  { (if isExtendedErase c.sramCmd then begun.endCommand else begun) with
    pagePending := false
    sramSaveAddr := 0
    sramSaveLen := 0 }

/-- The part of the save file that a part without a page latch has written to. -/
def dirtyRange (c : CartRetail) : ℕ × ℕ :=
  let offset :=
    if c.sramType = 1 then c.sramSaveAddr % 512 / 16 * 16 else c.sramSaveAddr % c.sramLength
  let length := if c.sramType = 1 then 16 else min c.sramSaveLen c.sramLength
  if length > c.sramLength - offset then (0, c.sramLength) else (offset, length)

def publishDirty (c : CartRetail) : CartRetail :=
  if c.sramLength ≠ 0 ∧ c.wel ∧ c.sramSaveLen > 0 then
    { c.writeNDSSave c.dirtyRange.1 c.dirtyRange.2 with
      sramStatus := c.sramStatus &&& ~~~2
      sramSaveAddr := 0
      sramSaveLen := 0 }
  else c

/-- An FRAM ends every write with the latch clear, protected or not. -/
def releaseDirty (c : CartRetail) : CartRetail :=
  if c.sramProfile = 14 ∧ c.sramCmd = 0x02 ∧ c.sramPos ≥ 4 then
    { c.publishDirty with sramStatus := c.publishDirty.sramStatus &&& ~~~2 }
  else c.publishDirty

def spiRelease (c : CartRetail) : CartRetail :=
  if c.powerBlocked then { c.endCommand with powerBlocked := false }
  else if c.writeDelay ≠ 0 ∨ c.powerDelay ≠ 0 then c
  else if isFlashProfile c.sramProfile ∧ c.sramPos ≠ 0 ∧ isPowerCommand c.sramCmd then
    c.releasePower
  else if c.powerState ≠ .awake then c
  else if c.sramPos ≠ 0 ∧ isStatusCommand c.sramType c.sramCmd c.sramProfile then
    c.releaseStatus.endCommand
  else if isFlashProfile c.sramProfile ∧ c.sramCmd = 0xE5 then
    { c.releaseLock.endCommand with sramSaveLen := 0 }
  else if isFlashProfile c.sramProfile ∧ c.sramCmd = 0xC7 then
    { c.releaseBulkErase.endCommand with sramSaveLen := 0 }
  else if c.pagePending then c.releasePage
  else c.releaseDirty

/-! ## Bytes of a command -/

/-- The next byte of an address, most significant first. -/
def shiftAddress (val : U8) (c : CartRetail) : CartRetail :=
  { c with sramAddr := (c.sramAddr * 256 + val.toNat) % 2 ^ 32 }

/-- The address so far becomes the start of the write. -/
def latchStart (start : ℕ) (c : CartRetail) : CartRetail :=
  { c with sramSaveAddr := start, sramSaveLen := 0 }

def nextAddress (c : CartRetail) : CartRetail := { c with sramAddr := (c.sramAddr + 1) % 2 ^ 32 }

/-- The next address in a page: only the low bits advance. -/
def nextInPage (size : ℕ) (c : CartRetail) : CartRetail :=
  { c with sramAddr := c.sramAddr / size * size + (c.sramAddr + 1) % size }

def latchByte (size : ℕ) (val : U8) (c : CartRetail) : CartRetail :=
  { c with
    pageBuffer := Function.update c.pageBuffer (Fin.ofNat 256 (c.sramAddr % size)) val
    sramSaveLen := min (c.sramSaveLen + 1) size }

/-- A page latch starts empty. -/
def openPage (c : CartRetail) : CartRetail :=
  if c.pagePending then c
  else { c with pageBuffer := fun _ => 0xFF, pagePending := true, sramSaveLen := 0 }

/-- A tiny EEPROM keeps what older states have already put in the array. -/
def openTinyPage (c : CartRetail) : CartRetail :=
  if c.pagePending then c
  else
    { c with
      pageBuffer := fun i =>
        if c.sramSaveLen ≠ 0 ∧ i.val < 16 then c.sram (c.sramSaveAddr % 512 / 16 * 16 + i.val)
        else 0xFF
      pagePending := true }

/-- The upper half of a tiny EEPROM has commands of its own. -/
def upperHalf (high : U8) (c : CartRetail) : ℕ := if c.sramCmd = high then 0x100 else 0

def sramWriteEEPROMTiny (val : U8) (c : CartRetail) : U8 × CartRetail :=
  if c.sramCmd = 0x05 then (c.sramStatus ||| 0xF0, c)
  else if c.sramCmd = 0x02 ∨ c.sramCmd = 0x0A then
    if c.sramPos < 2 then
      (0, ({ c with sramAddr := val.toNat }).latchStart (val.toNat + c.upperHalf 0x0A))
    else if c.wel ∧ c.isWriteProtected c.sramSaveAddr = false then
      (0, (c.openTinyPage.latchByte 16 val).nextAddress)
    else (0, c.nextAddress)
  else if c.sramCmd = 0x03 ∨ c.sramCmd = 0x0B then
    if c.sramPos < 2 then (0, { c with sramAddr := val.toNat })
    else (c.sram ((c.sramAddr + c.upperHalf 0x0B) % 512), c.nextAddress)
  else (0xFF, c)

def addrSize (c : CartRetail) : ℕ := if c.sramLength > 65536 then 3 else 2

/-- A byte of the array, for a part without a page latch. -/
def writeDirect (val : U8) (c : CartRetail) : CartRetail :=
  { c with
    sram := Function.update c.sram (c.sramAddr % c.sramLength) val
    sramSaveLen := min (c.sramSaveLen + 1) c.sramLength }

def sramWriteEEPROM (val : U8) (c : CartRetail) : U8 × CartRetail :=
  if c.sramCmd = 0x05 then (c.sramStatus, c)
  else if c.sramCmd = 0x02 then
    if c.sramPos ≤ c.addrSize then
      (0, (c.shiftAddress val).latchStart (c.shiftAddress val).sramAddr)
    else if c.isWriteProtected c.sramAddr then (0, c)
    else if eepromPageSize c.sramProfile ≠ 0 then
      (0, (if c.wel then c.openPage.latchByte (eepromPageSize c.sramProfile) val else c).nextInPage
        (eepromPageSize c.sramProfile))
    else (0, (if c.wel then c.writeDirect val else c).nextAddress)
  else if c.sramCmd = 0x03 then
    if c.sramPos ≤ c.addrSize then (0, c.shiftAddress val)
    else (c.sram (c.sramAddr % c.sramLength), c.nextAddress)
  else (0xFF, c)

/-- The third address byte makes an erase pending, and any byte after it cancels that. -/
def sramWriteErase (val : U8) (c : CartRetail) : CartRetail :=
  let c' :=
    if c.sramPos ≤ 3 then (c.shiftAddress val).latchStart (c.shiftAddress val).sramAddr else c
  if c.sramPos = 3 ∧ c'.wel ∧ c'.isWriteProtected c'.sramSaveAddr = false then
    { c' with
      pagePending := true
      pageBuffer := fun _ => 0xFF
      sramSaveLen := flashEraseSize c'.sramCmd c'.sramLength c'.sramProfile }
  else if c.sramPos > 3 then { c' with pagePending := false, sramSaveLen := 0 }
  else c'

def sramWriteFLASH (val : U8) (c : CartRetail) : U8 × CartRetail :=
  if c.sramCmd = 0x05 then (c.sramStatus, c)
  else if c.sramCmd = 0x02 ∨ c.sramCmd = 0x0A then
    if c.sramPos ≤ 3 then
      (0, (c.shiftAddress val).latchStart (c.shiftAddress val).sramAddr)
    else if c.wel ∧ c.isWriteProtected c.sramSaveAddr = false then
      (0, (c.openPage.latchByte 256 val).nextInPage 256)
    else (0, c.nextInPage 256)
  else if c.sramCmd = 0x03 then
    if c.sramPos ≤ 3 then (0, c.shiftAddress val)
    else (c.sram (c.sramAddr % c.sramLength), c.nextAddress)
  else if c.sramCmd = 0x0B then
    if c.sramPos ≤ 3 then (0, c.shiftAddress val)
    else if c.sramPos = 4 then (0, c)
    else (c.sram (c.sramAddr % c.sramLength), c.nextAddress)
  else if c.sramCmd = 0x9F then
    if isFlashProfile c.sramProfile then
      if c.sramPos = 1 then (0x20, c)
      else if c.sramPos = 2 then (0x80, c)
      else if c.sramPos = 3 then (BitVec.ofNat 8 (0x12 + c.sramProfile - 15), c)
      else (0xFF, c)
    else (0xFF, c)
  else if c.sramCmd = 0xE5 ∨ c.sramCmd = 0xE8 then
    if !isFlashProfile c.sramProfile then (0xFF, c)
    else if c.sramPos ≤ 3 then (0, { c.shiftAddress val with sramSaveLen := 0 })
    else if c.sramCmd = 0xE8 then
      (c.flashLocks (Fin.ofNat 16 (c.sramAddr % c.sramLength / 65536)), c)
    else if c.sramPos = 4 then (0, { c with sramSaveLen := val.toNat })
    else (0, c)
  else if c.sramCmd = 0xC7 then (if isFlashProfile c.sramProfile then 0 else 0xFF, c)
  else if c.sramCmd = 0x20 then
    if isFlashProfile c.sramProfile then (0, c.sramWriteErase val) else (0xFF, c)
  else if c.sramCmd = 0xD8 ∨ c.sramCmd = 0xDB then (0, c.sramWriteErase val)
  else (0xFF, c)

/-- The first byte of a transaction is its command, unless the chip is busy. -/
def startCommand (val : U8) (c : CartRetail) : CartRetail :=
  let c :=
    { c with
      sramCmd := if c.writeDelay ≠ 0 ∧ val ≠ 0x05 then 0 else val
      sramAddr := 0 }
  if isStatusCommand c.sramType val c.sramProfile then
    { c with sramSaveAddr := 0, sramSaveLen := 0 }
  else c

def sramWrite (val : U8) (c : CartRetail) : U8 × CartRetail :=
  if c.sramType = 1 then c.sramWriteEEPROMTiny val
  else if c.sramType = 2 then c.sramWriteEEPROM val
  else if c.sramType = 3 then c.sramWriteFLASH val
  else (0xFF, c)

def countByte (c : CartRetail) : CartRetail :=
  { c with sramPos := if c.sramPos = 0xFFFFFFFF then c.sramPos else c.sramPos + 1 }

def spiTransmitReceive (val : U8) (c : CartRetail) : U8 × CartRetail :=
  if c.sramType = 0 then (0, c)
  else if c.powerBlocked then (0xFF, c)
  else if c.sramPos = 0 then
    if c.powerState ≠ .awake ∧ ¬(c.powerState = .asleep ∧ val = 0xAB) then
      (0xFF, { c with powerBlocked := true, sramCmd := 0 })
    else (if val = 0x04 ∨ val = 0x06 then 0 else 0xFF, (c.startCommand val).countByte)
  else if c.sramCmd = 0 then (0xFF, c)
  else if isStatusCommand c.sramType c.sramCmd c.sramProfile then
    (0, (if c.sramCmd = 0x01 ∧ c.sramPos = 1 then { c with sramAddr := val.toNat } else c).countByte)
  else ((c.sramWrite val).1, (c.sramWrite val).2.countByte)

end CartRetail

/-! ## Calls on a cart -/

inductive CartOp
  | spiSelect
  | spiTransmitReceive (val : U8)
  | spiRelease
  | completeSave
  | cancelSave (powerOff : Bool)
  | setSaveMemory (savedata : List U8)
  | reset

def CartOp.apply (c : CartRetail) : CartOp → CartRetail
  | .spiSelect => c.spiSelect
  | .spiTransmitReceive val => (c.spiTransmitReceive val).2
  | .spiRelease => c.spiRelease
  | .completeSave => c.completeSave
  | .cancelSave powerOff => c.cancelSave powerOff
  | .setSaveMemory savedata => c.setSaveMemory savedata
  | .reset => c.reset

end MelonDS.NDSCart

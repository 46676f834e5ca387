import Mathlib.Data.List.GetD
import MelonDS.NDSCart.ByteEffect
import MelonDS.Savestate.Reader

/-!
# Savestates of a retail cartridge

`CartRetail::DoSavestate` in its two directions. A state is read from what is left of its
section (`fetch`, which is `readVar` for one variable); none stands for the error flag, after
which nothing of the record reaches the cart. A record is read in stages, each with its
checks, and the checks that do not ask for the direction guard the writing as well.
-/

namespace MelonDS.NDSCart

/-- The version in the header of the file. -/
structure StateVersion where
  major : ℕ
  minor : ℕ

def StateVersion.atLeast (major minor : ℕ) (v : StateVersion) : Bool :=
  decide (major < v.major) || (decide (v.major = major) && decide (minor ≤ v.minor))

/-! ## Reading -/

def fetch (n : ℕ) (rest : List U8) : Option (List U8 × List U8) :=
  if n ≤ rest.length then some (rest.take n, rest.drop n) else none

def fetch8 (rest : List U8) : Option (U8 × List U8) :=
  (fetch 1 rest).map fun p => (BitVec.ofNat 8 (ofBytes p.1), p.2)

def fetch32 (rest : List U8) : Option (ℕ × List U8) :=
  (fetch 4 rest).map fun p => (ofBytes p.1, p.2)

def fetchBuffer (n : ℕ) (rest : List U8) : Option ((Fin n → U8) × List U8) :=
  (fetch n rest).map fun p => (fun i => p.1.getD i.val 0, p.2)

theorem fetch_append {data : List U8} {n : ℕ} (h : data.length = n) (rest : List U8) :
    fetch n (data ++ rest) = some (data, rest) := by
  rw [fetch, if_pos (by rw [List.length_append]; omega), List.take_left' h, List.drop_left' h]

theorem fetch8_append (v : U8) (rest : List U8) :
    fetch8 (toBytes 1 v.toNat ++ rest) = some (v, rest) := by
  rw [fetch8, fetch_append (length_toBytes 1 _)]
  exact congrArg (fun v => some (v, rest)) (ofNat_ofBytes_toBytes (k := 1) rfl v)

theorem fetch32_append {n : ℕ} (h : n < 2 ^ 32) (rest : List U8) :
    fetch32 (toBytes 4 n ++ rest) = some (n, rest) := by
  rw [fetch32, fetch_append (length_toBytes 4 _), Option.map_some, ofBytes_toBytes,
    Nat.mod_eq_of_lt (h.trans_eq (by decide))]

theorem fetchBuffer_append {n : ℕ} (f : Fin n → U8) (rest : List U8) :
    fetchBuffer n (List.ofFn f ++ rest) = some (f, rest) := by
  rw [fetchBuffer, fetch_append (List.length_ofFn ..)]
  refine congrArg (fun f => some (f, rest)) (funext fun i => ?_)
  change (List.ofFn f).getD i.val 0 = f i
  rw [List.getD_eq_getElem _ _ (by rw [List.length_ofFn]; exact i.isLt), List.getElem_ofFn]

/-! ## The part of `CartCommon` -/

namespace CartCommon

def flag (b : Bool) : ℕ := if b then 1 else 0

def bytes (c : CartCommon) : List U8 :=
  toBytes 1 (flag c.resetState) ++ (toBytes 4 c.cmdEncMode.toNat ++
    (toBytes 4 c.dataEncMode.toNat ++ (toBytes 1 (flag c.dsiMode) ++ (List.ofFn c.romCmd ++
      (toBytes 4 c.romAddr.toNat ++ toBytes 1 (flag c.spiSelected))))))

def loading (v : StateVersion) (c : CartCommon) (rest : List U8) :
    Option (CartCommon × List U8) :=
  if v.major = 13 then do
    let (cmdEncMode, rest) ← fetch32 rest
    let (dataEncMode, rest) ← fetch32 rest
    let (dsiMode, rest) ← fetch32 rest
    some
      ({ c with
        cmdEncMode := BitVec.ofNat 32 cmdEncMode
        dataEncMode := BitVec.ofNat 32 dataEncMode
        dsiMode := dsiMode != 0 }, rest)
  else do
    let (resetState, rest) ← fetch8 rest
    let (cmdEncMode, rest) ← fetch32 rest
    let (dataEncMode, rest) ← fetch32 rest
    let (dsiMode, rest) ← fetch8 rest
    let (romCmd, rest) ← fetchBuffer 8 rest
    let (romAddr, rest) ← fetch32 rest
    let (spiSelected, rest) ← fetch8 rest
    some
      ({ resetState := resetState != 0
         cmdEncMode := BitVec.ofNat 32 cmdEncMode
         dataEncMode := BitVec.ofNat 32 dataEncMode
         dsiMode := dsiMode != 0
         romCmd := romCmd
         romAddr := BitVec.ofNat 32 romAddr
         spiSelected := spiSelected != 0 }, rest)

theorem fetch8_flag (b : Bool) (rest : List U8) :
    fetch8 (toBytes 1 (flag b) ++ rest) = some (if b then 1 else 0, rest) := by
  cases b <;> rfl

theorem loading_bytes {v : StateVersion} (hv : v.major = 14) (c old : CartCommon)
    (rest : List U8) : old.loading v (c.bytes ++ rest) = some (c, rest) := by
  have hflag (b : Bool) : ((if b then 1 else 0 : U8) != 0) = b := by cases b <;> rfl
  rw [loading, if_neg (by omega), bytes]
  simp only [List.append_assoc, fetch8_flag, fetch32_append (BitVec.isLt _), fetchBuffer_append,
    Option.bind_eq_bind, Option.bind_some, hflag, BitVec.ofNat_toNat, BitVec.setWidth_eq]

end CartCommon

/-! ## The record -/

def FlashPower.code : FlashPower → U8
  | .awake => 0
  | .entering => 1
  | .asleep => 2
  | .waking => 3

def FlashPower.ofCode (v : U8) : FlashPower :=
  if v = 0 then .awake else if v = 1 then .entering else if v = 2 then .asleep else .waking

/-- The local variables of `DoSavestate`. -/
structure RetailRecord where
  length : ℕ
  pos : ℕ
  cmd : U8
  addr : ℕ
  status : U8
  saveAddr : ℕ
  saveLen : ℕ
  pending : Bool
  hasProfile : Bool
  writing : Bool
  powered : Bool
  profile : ℕ
  locks : Fin 16 → U8
  pageBuffer : Fin 256 → U8
  writeDelay : ℕ
  writeCommand : U8
  writeAddress : ℕ
  writeFirst : ℕ
  writeLength : ℕ
  writeBuffer : Fin 256 → U8
  powerState : U8
  powerDelay : ℕ
  powerBlocked : U8

namespace RetailRecord

def protocol (type : ℕ) (r : RetailRecord) : ℕ := saveProtocol (if r.hasProfile then r.profile else type)

def pageSize (protocol : ℕ) (r : RetailRecord) : ℕ :=
  if protocol = 1 then 16 else if protocol = 3 then 256 else eepromPageSize r.profile

def eraseSize (protocol : ℕ) (command : U8) (r : RetailRecord) : ℕ :=
  if protocol = 3 then flashEraseSize command r.length r.profile else 0

/-! The checks, in the order of the source; true sets the error flag. -/

def profileRejected (v : StateVersion) (type : ℕ) (r : RetailRecord) : Bool :=
  if r.hasProfile then
    !v.atLeast 14 7 || decide (r.profile < 11) || decide (r.profile ≥ saveLengths.length) ||
      saveLengths.getD r.profile 0 != r.length
  else decide (type ≥ 11)

def locksRejected (v : StateVersion) (protocol : ℕ) (r : RetailRecord) : Bool :=
  isFlashProfile r.profile &&
    (!v.atLeast 14 11 || r.status &&& ~~~(statusMask protocol r.profile ||| 3) != 0 ||
      (List.finRange 16).any (fun i =>
        r.locks i &&& (if i.val < r.length / 65536 then ~~~3 else ~~~0) != 0) ||
      r.cmd == 0xE5 &&
        (r.pending || decide (r.saveLen > 0xFF) || decide (r.addr > 0xFFFFFF)))

def statusRejected (v : StateVersion) (r : RetailRecord) : Bool :=
  v.atLeast 14 8 && (r.pending || r.saveLen != 0 || r.cmd == 0x01 && decide (r.addr > 0xFF))

def pageRejected (v : StateVersion) (protocol : ℕ) (r : RetailRecord) : Bool :=
  let bytes := addressBytes protocol r.length
  let erase := r.eraseSize protocol r.cmd
  !v.atLeast 14 (if protocol = 1 then 10 else if protocol = 3 then 6 else 7) ||
    r.pageSize protocol == 0 || !r.status.getLsbD 1 ||
    decide (r.saveAddr ≥ if protocol = 1 then 512 else 256 ^ bytes) ||
    !(if isPageCommand protocol r.cmd then
        decide (r.pos ≥ bytes + 2) && decide (r.saveLen > 0) &&
          decide (r.saveLen ≤ r.pageSize protocol)
      else erase != 0 && r.cmd != 0xC7 && r.pos == 4 && r.saveLen == erase) ||
    isExtendedErase r.cmd && !v.atLeast 14 12

def writeRejected (v : StateVersion) (protocol : ℕ) (r : RetailRecord) : Bool :=
  let erase := r.eraseSize protocol r.writeCommand
  let extended := erase != 0 && isExtendedErase r.writeCommand
  let span := if erase ≠ 0 then erase else r.pageSize protocol
  let validAddress := span != 0 && decide (r.writeAddress < r.length) &&
    r.writeAddress % span == 0 && decide (span ≤ r.length - r.writeAddress)
  !v.atLeast 14 10 || r.pageSize protocol == 0 || r.pending ||
    r.status &&& 3 != (if extended then 1 else 3) || r.saveLen != 0 ||
    extended && !v.atLeast 14 12 ||
    r.writeDelay != writeCycles protocol r.writeCommand r.writeLength ||
    !(if (protocol ≠ 3 ∨ isFlashProfile r.profile) ∧ r.writeCommand = 0x01 then
        BitVec.ofNat 32 r.writeAddress &&& ~~~((statusMask protocol r.profile).setWidth 32) == 0 &&
          r.writeFirst == 0 && r.writeLength == 0
      else if isPageCommand protocol r.writeCommand then
        validAddress && decide (r.writeFirst < r.pageSize protocol) && decide (r.writeLength > 0) &&
          decide (r.writeLength ≤ r.pageSize protocol)
      else erase != 0 && validAddress && r.writeFirst == 0 && r.writeLength == span)

/-- Without a write in progress the status must not say that there is one. -/
def idleRejected (v : StateVersion) (protocol : ℕ) (r : RetailRecord) : Bool :=
  v.atLeast 14 10 && decide (protocol < 4) && r.status.getLsbD 0

def powerRejected (v : StateVersion) (r : RetailRecord) : Bool :=
  let transitioning := r.powerState == 1 || r.powerState == 3
  !v.atLeast 14 13 || !isFlashProfile r.profile || decide (3 < r.powerState) ||
    decide (1 < r.powerBlocked) || r.writing || r.pending || r.saveLen != 0 ||
    r.powerState == 0 && r.powerBlocked == 0 || r.powerBlocked != 0 && r.cmd != 0 ||
    r.powerDelay != if transitioning then powerCycles (r.powerState == 3) else 0

/-! Its bytes -/

/-- The flags go into the top bits of the length. -/
def lengthWord (r : RetailRecord) : ℕ :=
  r.saveLen ||| (if r.pending then 2 ^ 31 else 0) ||| (if r.hasProfile then 2 ^ 30 else 0) |||
    (if r.writing then 2 ^ 29 else 0) ||| (if r.powered then 2 ^ 28 else 0)

def profileBytes (r : RetailRecord) : List U8 := if r.hasProfile then toBytes 4 r.profile else []

def lockBytes (r : RetailRecord) : List U8 := if isFlashProfile r.profile then List.ofFn r.locks else []

def pageBytes (r : RetailRecord) : List U8 := if r.pending then List.ofFn r.pageBuffer else []

def writeBytes (r : RetailRecord) : List U8 :=
  if r.writing then
    toBytes 4 r.writeDelay ++ (toBytes 1 r.writeCommand.toNat ++ (toBytes 4 r.writeAddress ++
      (toBytes 4 r.writeFirst ++ (toBytes 4 r.writeLength ++ List.ofFn r.writeBuffer))))
  else []

def powerBytes (r : RetailRecord) : List U8 :=
  if r.powered then
    toBytes 1 r.powerState.toNat ++ (toBytes 4 r.powerDelay ++ toBytes 1 r.powerBlocked.toNat)
  else []

def fieldBytes (r : RetailRecord) : List U8 :=
  toBytes 4 r.pos ++ (toBytes 1 r.cmd.toNat ++ (toBytes 4 r.addr ++ (toBytes 1 r.status.toNat ++
    (toBytes 4 r.saveAddr ++ toBytes 4 r.lengthWord))))

def bytes (sram : List U8) (r : RetailRecord) : List U8 :=
  toBytes 4 r.length ++ (sram ++ (r.fieldBytes ++ (r.profileBytes ++ (r.lockBytes ++
    (r.pageBytes ++ (r.writeBytes ++ r.powerBytes))))))

end RetailRecord

namespace CartRetail

/-! ## Writing -/

/-- The minor version that the writer asks for, zero for none. -/
def prepareSavestate (pendingSPI : U8) (c : CartRetail) : ℕ :=
  if isFlashProfile c.sramProfile then
    let extended := c.writeDelay ≠ 0 ∧ isExtendedErase c.writeCommand ∨
      c.sramPos ≠ 0 ∧ isExtendedErase c.sramCmd ∨
      c.sramPos = 0 ∧ c.writeDelay = 0 ∧ isExtendedErase pendingSPI
    let power := c.powerState ≠ .awake ∨ c.powerBlocked ∨
      c.sramPos ≠ 0 ∧ isPowerCommand c.sramCmd ∨
      c.sramPos = 0 ∧ c.writeDelay = 0 ∧ isPowerCommand pendingSPI
    if power then 13 else if extended then 12 else 11
  else if c.writeDelay ≠ 0 ∨ c.sramType = 1 ∧ c.pagePending then 10
  else if c.sramPos ≠ 0 ∧ isStatusCommand c.sramType c.sramCmd c.sramProfile then 8
  else if c.sramProfile ≠ 0 then 7
  else if c.pagePending then 6
  else 0

def record (c : CartRetail) : RetailRecord where
  length := c.sramLength
  pos := c.sramPos
  cmd := c.sramCmd
  addr := c.sramAddr
  status := c.sramStatus
  saveAddr := c.sramSaveAddr
  saveLen := c.sramSaveLen
  pending := c.pagePending
  hasProfile := c.sramProfile != 0
  writing := c.writeDelay != 0
  powered := c.powerState != .awake || c.powerBlocked
  profile := c.sramProfile
  locks := c.flashLocks
  pageBuffer := c.pageBuffer
  writeDelay := c.writeDelay
  writeCommand := c.writeCommand
  writeAddress := c.writeAddress
  writeFirst := c.writeFirst
  writeLength := c.writeLength
  writeBuffer := c.writeBuffer
  powerState := c.powerState.code
  powerDelay := c.powerDelay
  powerBlocked := if c.powerBlocked then 1 else 0

def stateBytes (c : CartRetail) : List U8 :=
  c.common.bytes ++ c.record.bytes ((List.range c.sramLength).map c.sram)

/-- `DoSavestate` of a stream that saves: what it appends to the section. -/
def savingDoSavestate (v : StateVersion) (c : CartRetail) : Option (List U8) :=
  let r := c.record
  (saveTypeForLength r.length).bind fun type =>
    if r.profileRejected v type || r.locksRejected v (r.protocol type) ||
        r.pending && r.pageRejected v (r.protocol type) ||
        (if r.writing then r.writeRejected v (r.protocol type)
          else r.idleRejected v (r.protocol type)) ||
        r.powered && r.powerRejected v then none
    else some c.stateBytes

end CartRetail

/-! ## Reading a record -/

namespace RetailRecord

def loadProfile (v : StateVersion) (type : ℕ) (r : RetailRecord) (rest : List U8) :
    Option (RetailRecord × List U8) :=
  (if r.hasProfile then fetch32 rest else some (0, rest)).bind fun p =>
    let r := { r with profile := p.1 }
    if r.profileRejected v type then none else some (r, p.2)

def loadLocks (v : StateVersion) (protocol : ℕ) (r : RetailRecord) (rest : List U8) :
    Option (RetailRecord × List U8) :=
  (if isFlashProfile r.profile then fetchBuffer 16 rest else some (fun _ => 0, rest)).bind fun p =>
    let r := { r with locks := p.1 }
    if r.locksRejected v protocol then none
    else if isFlashProfile r.profile && !v.atLeast 14 13 && isPowerCommand r.cmd then
      some ({ r with cmd := 0 }, p.2)
    else some (r, p.2)

def loadStatus (v : StateVersion) (protocol : ℕ) (r : RetailRecord) : Option RetailRecord :=
  if isStatusCommand protocol r.cmd r.profile then
    if v.major = 13 then some { r with pos := 0, cmd := 0 }
    else if r.statusRejected v then none
    else some r
  else some r

def loadPage (v : StateVersion) (protocol : ℕ) (r : RetailRecord) (rest : List U8) :
    Option (RetailRecord × List U8) :=
  if r.pending then
    if r.pageRejected v protocol then none
    else (fetchBuffer 256 rest).map fun p => ({ r with pageBuffer := p.1 }, p.2)
  else some (r, rest)

def loadWrite (v : StateVersion) (protocol : ℕ) (r : RetailRecord) (rest : List U8) :
    Option (RetailRecord × List U8) :=
  if r.writing then do
    let (writeDelay, rest) ← fetch32 rest
    let (writeCommand, rest) ← fetch8 rest
    let (writeAddress, rest) ← fetch32 rest
    let (writeFirst, rest) ← fetch32 rest
    let (writeLength, rest) ← fetch32 rest
    let (writeBuffer, rest) ← fetchBuffer 256 rest
    let r :=
      { r with
        writeDelay := writeDelay
        writeCommand := writeCommand
        writeAddress := writeAddress
        writeFirst := writeFirst
        writeLength := writeLength
        writeBuffer := writeBuffer }
    if r.writeRejected v protocol then none else some (r, rest)
  else if r.idleRejected v protocol then none
  else some (r, rest)

def loadPower (v : StateVersion) (r : RetailRecord) (rest : List U8) :
    Option (RetailRecord × List U8) :=
  if r.powered then do
    let (powerState, rest) ← fetch8 rest
    let (powerDelay, rest) ← fetch32 rest
    let (powerBlocked, rest) ← fetch8 rest
    let r :=
      { r with powerState := powerState, powerDelay := powerDelay, powerBlocked := powerBlocked }
    if r.powerRejected v then none else some (r, rest)
  else some (r, rest)

end RetailRecord

namespace CartRetail

/-- The position, the command and the flags; version 13 had no position and no range. -/
def loadFields (v : StateVersion) (length : ℕ) (c : CartRetail) (rest : List U8) :
    Option (RetailRecord × List U8) := do
  let legacy := v.major = 13
  let (pos, rest) ← if legacy then some (c.sramPos, rest) else fetch32 rest
  let (cmd, rest) ← fetch8 rest
  let (addr, rest) ← fetch32 rest
  let (status, rest) ← fetch8 rest
  let (saveAddr, rest) ← if legacy then some (c.sramSaveAddr, rest) else fetch32 rest
  let (word, rest) ← if legacy then some (c.sramSaveLen, rest) else fetch32 rest
  some
    ({ length := length
       pos := pos
       cmd := cmd
       addr := addr
       status := status
       saveAddr := saveAddr
       saveLen := if legacy then word else word % 2 ^ 28
       pending := !decide legacy && word.testBit 31
       hasProfile := !decide legacy && word.testBit 30
       writing := !decide legacy && word.testBit 29
       powered := !decide legacy && word.testBit 28
       profile := 0
       locks := fun _ => 0
       pageBuffer := c.pageBuffer
       writeDelay := 0
       writeCommand := 0
       writeAddress := 0
       writeFirst := 0
       writeLength := 0
       writeBuffer := fun _ => 0
       powerState := 0
       powerDelay := 0
       powerBlocked := 0 }, rest)

/-- The record is in order: the cart takes it over and tells the platform. -/
def restore (common : CartCommon) (sram : List U8) (protocol : ℕ) (r : RetailRecord)
    (c : CartRetail) : CartRetail :=
  let c :=
    { c with
      common := common
      sram := fun i => if i < r.length then sram.getD i 0 else c.sram i
      sramLength := r.length
      sramFileLength := max c.sramFileLength r.length
      sramType := protocol
      sramProfile := r.profile
      sramPos := r.pos
      sramCmd := r.cmd
      sramAddr := r.addr
      sramStatus := r.status
      sramSaveAddr := r.saveAddr
      sramSaveLen := r.saveLen
      pageBuffer := r.pageBuffer
      pagePending := r.pending
      writeDelay := r.writeDelay
      writeCommand := r.writeCommand
      writeAddress := r.writeAddress
      writeFirst := r.writeFirst
      writeLength := r.writeLength
      writeBuffer := r.writeBuffer
      flashLocks := r.locks
      powerState := .ofCode r.powerState
      powerDelay := r.powerDelay
      powerBlocked := r.powerBlocked != 0 }
  if c.sramFileLength = 0 then c else c.writeNDSSave 0 c.sramLength

/-- `DoSavestate` of a stream that loads, from what is left of the section and with `beyond`
bytes of the file behind it. -/
def loadingDoSavestate (v : StateVersion) (beyond : ℕ) (c : CartRetail) (rest : List U8) :
    Option (CartRetail × List U8) := do
  let (common, rest) ← c.common.loading v rest
  let (length, rest) ← fetch32 rest
  let type ← saveTypeForLength length
  if decide (c.sramType = 4) ≠ decide (saveProtocol type = 4) ∨ length > rest.length + beyond then
    none
  else
    let (sram, rest) ← fetch length rest
    let (r, rest) ← c.loadFields v length rest
    let (r, rest) ← r.loadProfile v type rest
    let protocol := r.protocol type
    let (r, rest) ← r.loadLocks v protocol rest
    let r ← r.loadStatus v protocol
    let (r, rest) ← r.loadPage v protocol rest
    let (r, rest) ← r.loadWrite v protocol rest
    let (r, rest) ← r.loadPower v rest
    some (c.restore common sram protocol r, rest)

end CartRetail

end MelonDS.NDSCart

import MelonDS.Savestate.Transfer
import MelonDS.Types

/-!
# The serial EEPROM of a GBA cartridge

One bit of a packet comes with each halfword write, one bit of a reply goes with each halfword
read. A committed write keeps the chip busy for a time, during which it answers zero and
ignores what is written.
-/

namespace MelonDS.GBACart

inductive Phase
  | idle
  | command
  | readAddress
  | readDummy
  | readData
  | writeAddress
  | writeData
  | writeDummy
deriving DecidableEq

namespace Phase

def code : Phase → U8
  | idle => 0
  | command => 1
  | readAddress => 2
  | readDummy => 3
  | readData => 4
  | writeAddress => 5
  | writeData => 6
  | writeDummy => 7

/-- The phase of a code; a code above the last phase is none. -/
def ofCode (code : U8) : Option Phase :=
  if code = 0 then some idle
  else if code = 1 then some command
  else if code = 2 then some readAddress
  else if code = 3 then some readDummy
  else if code = 4 then some readData
  else if code = 5 then some writeAddress
  else if code = 6 then some writeData
  else if code = 7 then some writeDummy
  else none

end Phase

structure EEPROM where
  state : Phase
  addressBits : U8
  bits : U8
  address : U16
  data : U64
  busyUntil : U64
deriving DecidableEq

namespace EEPROM

def writeBusyCycles : U64 := 217841

def clearProtocol (e : EEPROM) : EEPROM :=
  { state := .idle, addressBits := 0, bits := 0, address := 0, data := 0
    busyUntil := e.busyUntil }

def reset (e : EEPROM) : EEPROM := { e.clearProtocol with busyUntil := 0 }

def deselect (abort : Bool) (e : EEPROM) : EEPROM :=
  if abort ∨ e.state ≠ .readData ∨ e.bits ≠ 0 then e.clearProtocol else e

def ready (timestamp : U64) (e : EEPROM) : Bool := decide (e.busyUntil ≤ timestamp)

/-- The address bits that a chip of this size clocks. -/
def addressBitsOf (length : ℕ) : U8 := if length = 512 then 6 else 14

def acceptStorage (length : ℕ) (e : EEPROM) : Bool × EEPROM :=
  if (length ≠ 512 ∧ length ≠ 8192) ∨
      (e.state ≠ .idle ∧ e.addressBits ≠ addressBitsOf length) then
    (false, e.clearProtocol)
  else (true, e)

/-- `BusyUntil = 0`, at the first access after the busy time. -/
def awake (e : EEPROM) : EEPROM := { e with busyUntil := 0 }

/-! ## Reads -/

/-- The bit of a reply: four zeros, then the block. -/
def replyBit (save : List U8) (e : EEPROM) : U16 :=
  if 4 ≤ e.bits then
    let bit := e.bits.toNat - 4
    (save.getD (e.address.toNat * 8 + bit / 8) 0 >>> (7 - bit % 8) &&& 1).setWidth 16
  else 0

def nextReply (e : EEPROM) : EEPROM :=
  if e.bits + 1 = 68 then { e with bits := e.bits + 1 }.clearProtocol
  else { e with bits := e.bits + 1 }

def read (save : List U8) (timestamp : U64) (e : EEPROM) : U16 × EEPROM :=
  if ¬ e.ready timestamp then (0, e)
  else
    let accepted := e.awake.acceptStorage save.length
    if ¬ accepted.1 ∨ accepted.2.state ≠ .readData then (1, accepted.2)
    else (accepted.2.replyBit save, accepted.2.nextReply)

/-! ## Writes -/

def clockAddress (bit : Bool) (length : ℕ) (e : EEPROM) : EEPROM :=
  let e := { e with
    address := e.address <<< 1 ||| (BitVec.ofBool bit).setWidth 16
    bits := e.bits + 1 }
  if e.bits = e.addressBits then
    -- chips of 8 KiB clock 14 address bits and decode the low ten
    { e with
      address := e.address &&& BitVec.ofNat 16 (length / 8 - 1)
      bits := 0
      state := if e.state = .readAddress then .readDummy else .writeData }
  else e

def clockData (bit : Bool) (e : EEPROM) : EEPROM :=
  let e := { e with
    data := e.data <<< 1 ||| (BitVec.ofBool bit).setWidth 64
    bits := e.bits + 1 }
  if e.bits = 64 then { e with bits := 0, state := .writeDummy } else e

/-- The eight bytes, most significant first. -/
def storeBlock (offset : ℕ) (data : U64) (save : List U8) : List U8 :=
  (List.range 8).foldl (fun save i => save.set (offset + i) ((data >>> (56 - 8 * i)).setWidth 8))
    save

/-- The last clock of a write packet: the offset that changed, the save and the chip. -/
def commit (save : List U8) (timestamp : U64) (e : EEPROM) : Option ℕ × List U8 × EEPROM :=
  if 0xFFFFFFFFFFFFFFFF - writeBusyCycles < timestamp then (none, save, e.clearProtocol)
  else
    let changedOffset := e.address.toNat * 8
    (some changedOffset, storeBlock changedOffset e.data save,
      { e with busyUntil := timestamp + writeBusyCycles }.clearProtocol)

def clock (bit : Bool) (save : List U8) (timestamp : U64) (e : EEPROM) :
    Option ℕ × List U8 × EEPROM :=
  match e.state with
  | .idle =>
    (none, save,
      if bit then { e with addressBits := addressBitsOf save.length, state := .command } else e)
  | .command => (none, save, { e with state := if bit then .readAddress else .writeAddress })
  | .readAddress | .writeAddress => (none, save, e.clockAddress bit save.length)
  | .readDummy => (none, save, { e with state := .readData })
  | .readData => (none, save, e)
  | .writeData => (none, save, e.clockData bit)
  | .writeDummy => e.commit save timestamp

def write (value : U16) (save : List U8) (timestamp : U64) (e : EEPROM) :
    Option ℕ × List U8 × EEPROM :=
  if ¬ e.ready timestamp then (none, save, e)
  else
    let accepted := e.awake.acceptStorage save.length
    if ¬ accepted.1 then (none, save, accepted.2)
    else accepted.2.clock (value.getLsbD 0) save timestamp

/-! ## Savestates -/

def isValid (saveLength : ℕ) (e : EEPROM) : Bool :=
  if e.busyUntil ≠ 0 ∧
      (e.busyUntil < writeBusyCycles ∨ (saveLength ≠ 512 ∧ saveLength ≠ 8192)) then false
  else if e.state = .idle then
    decide (e.addressBits = 0 ∧ e.bits = 0 ∧ e.address = 0 ∧ e.data = 0)
  else if e.busyUntil ≠ 0 ∨ (saveLength ≠ 512 ∧ saveLength ≠ 8192) ∨
      e.addressBits ≠ addressBitsOf saveLength then false
  else
    match e.state with
    | .command => decide (e.bits = 0 ∧ e.address = 0 ∧ e.data = 0)
    | .readAddress | .writeAddress =>
      decide (e.bits < e.addressBits ∧ e.address.toNat < 2 ^ e.bits.toNat ∧ e.data = 0)
    | .readDummy => decide (e.bits = 0 ∧ e.address.toNat < saveLength / 8 ∧ e.data = 0)
    | .readData => decide (e.bits < 68 ∧ e.address.toNat < saveLength / 8 ∧ e.data = 0)
    | .writeData =>
      decide (e.bits < 64 ∧ e.address.toNat < saveLength / 8 ∧ e.data >>> e.bits.toNat = 0)
    | .writeDummy => decide (e.bits = 0 ∧ e.address.toNat < saveLength / 8)
    | .idle => false

open Savestate in
def vars (e : EEPROM) : List Var :=
  [.v8 e.state.code, .v8 e.addressBits, .v8 e.bits, .v16 e.address, .v64 e.data,
    .v64 e.busyUntil]

open Savestate in
/-- The staged chip, when its phase is one. -/
def ofVars : List Var → Option EEPROM
  | [.v8 phase, .v8 addressBits, .v8 bits, .v16 address, .v64 data, .v64 busyUntil] =>
    (Phase.ofCode phase).map fun state => ⟨state, addressBits, bits, address, data, busyUntil⟩
  | _ => none

def doSavestate (realloc : U32 → Bool) (saveLength : ℕ) (e : EEPROM) (file : Savestate) :
    EEPROM × Savestate :=
  if file.error then (e, file)
  else if file.saving ∧ ¬ e.isValid saveLength then (e, { file with error := true })
  else
    let staged := file.transferAll realloc e.vars
    if staged.2.error then (e, staged.2)
    else
      match (ofVars staged.1).filter (isValid saveLength) with
      | none => (e, { staged.2 with error := true })
      | some loaded => (if ¬ staged.2.saving then loaded else e, staged.2)

end EEPROM

/-! ## Chip and storage -/

structure Chip where
  eeprom : EEPROM
  save : List U8
deriving DecidableEq

inductive Call
  | read (timestamp : U64)
  | write (value : U16) (timestamp : U64)
  | deselect (abort : Bool)
  | reset
deriving DecidableEq

/-- What a call returns. -/
inductive Reply
  | bit (value : U16)
  | changed (offset : Option ℕ)
  | none
deriving DecidableEq

namespace Chip

/-- A chip as it is constructed, and after `Reset`. -/
def initial (save : List U8) : Chip := ⟨⟨.idle, 0, 0, 0, 0, 0⟩, save⟩

def reply (c : Chip) : Call → Reply
  | .read timestamp => .bit (c.eeprom.read c.save timestamp).1
  | .write value timestamp => .changed (c.eeprom.write value c.save timestamp).1
  | .deselect _ | .reset => .none

def step (c : Chip) : Call → Chip
  | .read timestamp => { c with eeprom := (c.eeprom.read c.save timestamp).2 }
  | .write value timestamp =>
    { save := (c.eeprom.write value c.save timestamp).2.1
      eeprom := (c.eeprom.write value c.save timestamp).2.2 }
  | .deselect abort => { c with eeprom := c.eeprom.deselect abort }
  | .reset => { c with eeprom := c.eeprom.reset }

end Chip
end MelonDS.GBACart

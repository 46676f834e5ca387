import MelonDS.Library.FilledBuffer
import MelonDS.Library.HexText
import MelonDS.Types

/-!
# The memory commands of the GDB stub

`GdbCmds.cpp`: `m` reads guest memory, `M` writes it from hexadecimal text and `X` from escaped
bytes. Guest memory is plain bytes, and a log keeps each access. The command is a buffer of which
`len` bytes count; local arrays begin with unknown bytes and every access to one is checked.
`GdbProto.cpp` puts an answer in a packet.
-/

namespace MelonDS.GDB
open FilledBuffer HexText

def maxPayload : ℕ := 1024 + 128 - 5
def bufferCapacity : ℕ := 1024 + 128

/-- One call of `ReadMem` or `WriteMem`, with its bytes. -/
structure Access where
  write : Bool
  addr : U32
  bytes : ℕ
  deriving DecidableEq

structure Guest where
  memory : U32 → U8
  accesses : List Access

/-- The word with these bytes, the first one lowest. -/
def orBytes (byte : ℕ → U8) (n : ℕ) : U32 :=
  (List.range n).foldl (fun v i => v ||| (byte i).setWidth 32 <<< (8 * i)) 0

def Guest.readMem (addr : U32) (size : ℕ) (g : Guest) : U32 × Guest :=
  (orBytes (fun i => g.memory (addr + BitVec.ofNat 32 i)) (size / 8),
    { g with accesses := g.accesses ++ [⟨false, addr, size / 8⟩] })

def Guest.writeMem (addr : U32) (size : ℕ) (value : U32) (g : Guest) : Guest where
  memory := fun a =>
    if (a - addr).toNat < size / 8 then (value >>> (8 * (a - addr).toNat)).setWidth 8
    else g.memory a
  accesses := g.accesses ++ [⟨true, addr, size / 8⟩]

def text (s : String) : List U8 := s.toList.map fun c => BitVec.ofNat 8 c.toNat

/-- `string_view::find` of a character from a position on. -/
def find (input : List U8) (c : U8) : Option ℕ → Option ℕ
  | none => none
  | some pos => ((input.drop pos).findIdx? (· == c)).map (· + pos)

/-- `string_view::substr`. -/
def substr (input : List U8) (pos n : ℕ) : Except Fault (List U8) :=
  if pos ≤ input.length then .ok ((input.drop pos).take n) else .error .outOfBounds

/-- A part that is a number as a whole. -/
def parseNumber (part : List U8) : Option U32 :=
  match fromChars part with
  | some (value, ptr) => if ptr = part.length then some (BitVec.ofNat 32 value) else none
  | none => none

/-- The address, the length and where the body begins. -/
def parseMemoryRange (cmd : List U8) (len : ℤ) (hasBody : Bool) :
    Except Fault (Option (U32 × U32 × ℕ)) :=
  if len < 0 ∨ maxPayload < len.toNat then .ok none
  else do
    let input ← view cmd len.toNat
    let comma := find input 44 (some 0)
    match comma, if hasBody then find input 58 comma else some input.length with
    | some comma, some stop =>
      let first ← substr input 0 comma
      let second ← substr input (comma + 1) (stop - comma - 1)
      match parseNumber first, parseNumber second with
      | some address, some length =>
        if 2 ^ 32 < address.toNat + length.toNat then return none
        else return some (address, length, if hasBody then stop + 1 else stop)
      | _, _ => return none
    | _, _ => return none

def memoryAccessBytes (address : U32) (remaining : ℕ) : ℕ :=
  if address.getLsbD 0 ∨ remaining < 2 then 1
  else if address.getLsbD 1 ∨ remaining < 4 then 2
  else 4

def writeMemoryLoop : ℕ → U32 → List U8 → Guest → Except Fault Guest
  | 0, _, _, g => .ok g
  | turns + 1, address, data, g =>
    if data = [] then .ok g
    else do
      let count := memoryAccessBytes address data.length
      let value ← (List.range count).foldlM
        (fun (v : U32) i => do return v ||| (← readAt data i).setWidth 32 <<< (8 * i)) 0
      let g := g.writeMem address (count * 8) value
      let rest ← substr data count data.length
      writeMemoryLoop turns (address + BitVec.ofNat 32 count) rest g

/-- Each turn takes a byte at least. -/
def writeMemory (address : U32) (data : List U8) (g : Guest) : Except Fault Guest :=
  writeMemoryLoop data.length address data g

def hexfmt8 (capacity : ℕ) (buffer : ℕ → U8) (dst : ℕ) (v : U8) : Except Fault (ℕ → U8) := do
  let buffer ← put capacity buffer dst (digitOf (v.toNat / 16))
  put capacity buffer (dst + 1) (digitOf (v.toNat % 16))

/-! `Resp`: the payload is escaped where the protocol needs it, between `$` and its checksum. -/

structure Packet where
  bytes : ℕ → U8
  position : ℕ
  checksum : U8

def Packet.push (p : Packet) (v : U8) : Except Fault Packet := do
  let bytes ← put bufferCapacity p.bytes p.position v
  return ⟨bytes, p.position + 1, p.checksum + v⟩

/-- False when the payload does not fit. -/
def Packet.append (p : Packet) : List U8 → Except Fault (Option Packet)
  | [] => .ok (some p)
  | v :: data =>
    let escape := v = 36 ∨ v = 35 ∨ v = 125 ∨ v = 42
    if maxPayload < p.position - 1 + (if escape then 2 else 1) then .ok none
    else do
      let p ← if escape then p.push 125 else .ok p
      let p ← p.push (if escape then v ^^^ 0x20 else v)
      p.append data

/-- The packet sent, or none when the payload is too long. -/
def resp (uninit : ℕ → U8) (data1 : List U8) : Except Fault (Option (List U8)) :=
  if maxPayload < data1.length then .ok none
  else do
    let bytes ← put bufferCapacity uninit 0 36
    match ← Packet.append ⟨bytes, 1, 0⟩ data1 with
    | none => return none
    | some p =>
      let bytes ← put bufferCapacity p.bytes p.position 35
      let bytes ← hexfmt8 bufferCapacity bytes (p.position + 1) p.checksum
      let bytes ← put bufferCapacity bytes (p.position + 3) 0
      let packet ← span bufferCapacity bytes (p.position + 3 + 1)
      return some (packet.take (p.position + 3))

def respStr (uninit : ℕ → U8) (s : String) (g : Guest) :
    Except Fault (Option (List U8) × Guest) := do
  return (← resp uninit (text s), g)

def hexResponse (value : U32) (done : ℕ) :
    ℕ → ℕ → (ℕ → U8) → Except Fault (ℕ → U8)
  | 0, _, response => .ok response
  | turns + 1, i, response => do
    let response ← hexfmt8 maxPayload response ((done + i) * 2) ((value >>> (i * 8)).setWidth 8)
    hexResponse value done turns (i + 1) response

def readLoop (length : ℕ) :
    ℕ → ℕ → U32 → (ℕ → U8) → Guest → Except Fault ((ℕ → U8) × Guest)
  | 0, _, _, response, g => .ok (response, g)
  | turns + 1, done, address, response, g =>
    if done < length then do
      let count := memoryAccessBytes address (length - done)
      let (value, g) := g.readMem address (count * 8)
      let response ← hexResponse value done count 0 response
      readLoop length turns (done + count) (address + BitVec.ofNat 32 count) response g
    else .ok (response, g)

section
variable (uninit : ℕ → U8)

def handle_m (cmd : List U8) (len : ℤ) (g : Guest) : Except Fault (Option (List U8) × Guest) := do
  match ← parseMemoryRange cmd len false with
  | none => respStr uninit "E01" g
  | some (address, length, _) =>
    if maxPayload / 2 < length.toNat then respStr uninit "E02" g
    else do
      let (response, g) ← readLoop length.toNat length.toNat 0 address uninit g
      return (← resp uninit (← span maxPayload response (length.toNat * 2)), g)

def unhexLoop (cmd : List U8) (offset : ℕ) :
    ℕ → ℕ → (ℕ → U8) → Except Fault (Option (ℕ → U8))
  | 0, _, data => .ok (some data)
  | turns + 1, i, data => do
    let first ← readAt cmd (offset + i * 2)
    let second ← readAt cmd (offset + i * 2 + 1)
    match fromChars [first, second] with
    | some (value, 2) =>
      unhexLoop cmd offset turns (i + 1) (← put (maxPayload / 2) data i (BitVec.ofNat 8 value))
    | _ => return none

def handle_M (cmd : List U8) (len : ℤ) (g : Guest) : Except Fault (Option (List U8) × Guest) := do
  match ← parseMemoryRange cmd len true with
  | none => respStr uninit "E01" g
  | some (address, length, offset) =>
    if length.toNat * 2 ≠ len.toNat - offset then respStr uninit "E01" g
    else
      match ← unhexLoop cmd offset length.toNat 0 uninit with
      | none => respStr uninit "E01" g
      | some data =>
        let g ← writeMemory address (← span (maxPayload / 2) data length.toNat) g
        respStr uninit "OK" g

/-- The bytes decoded and their number, or none for a body that is not valid. -/
def unescapeLoop (cmd : List U8) (len length : ℕ) :
    ℕ → ℕ → ℕ → (ℕ → U8) → Except Fault (Option (ℕ × (ℕ → U8)))
  | 0, _, decoded, data => .ok (some (decoded, data))
  | turns + 1, offset, decoded, data =>
    if offset < len then
      if decoded = length then .ok none
      else do
        let value ← readAt cmd offset
        if value = 125 then
          if offset + 1 = len then return none
          else
            let value ← readAt cmd (offset + 1)
            let data ← put maxPayload data decoded (value ^^^ 0x20)
            unescapeLoop cmd len length turns (offset + 2) (decoded + 1) data
        else if value = 36 ∨ value = 35 then return none
        else
          let data ← put maxPayload data decoded value
          unescapeLoop cmd len length turns (offset + 1) (decoded + 1) data
    else .ok (some (decoded, data))

def handle_X (cmd : List U8) (len : ℤ) (g : Guest) : Except Fault (Option (List U8) × Guest) := do
  match ← parseMemoryRange cmd len true with
  | none => respStr uninit "E01" g
  | some (address, length, offset) =>
    if len.toNat - offset < length.toNat then respStr uninit "E01" g
    else
      match ← unescapeLoop cmd len.toNat length.toNat (len.toNat - offset) offset 0 uninit with
      | none => respStr uninit "E01" g
      | some (decoded, data) =>
        if decoded ≠ length.toNat then respStr uninit "E01" g
        else
          let g ← writeMemory address (← span maxPayload data length.toNat) g
          respStr uninit "OK" g

end
end MelonDS.GDB

import Mathlib.Tactic.Common
import MelonDS.Library.LittleEndian
import MelonDS.Library.Overwrite

/-!
# The savestate stream

`Savestate.cpp`: one object writes and reads a state, and the same calls serve
both. Writing fills a buffer that may grow and patches the length of a section when
the next one starts; reading walks the sections to the one requested and stays
within it. Pointers are taken to be valid: a null one sets `Error` at once.
-/

namespace MelonDS

def savestateMagic : U32 := 0x4E4C454D
def savestateMajor : U16 := 14
def savestateMinor : U16 := 2
def savestateMaxMinor : U16 := 15

def noSection : U32 := 0xFFFFFFFF

/-- The memory behind `buffer`, of `buffer_length` bytes. -/
structure Buffer where
  bytes : List U8
  fits : bytes.length < 2 ^ 32

namespace Buffer

def length (b : Buffer) : U32 := BitVec.ofNat 32 b.bytes.length

@[simp] theorem toNat_length (b : Buffer) : b.length.toNat = b.bytes.length := by
  rw [length, BitVec.toNat_ofNat, Nat.mod_eq_of_lt b.fits]

/-- `memcpy(data, buffer + offset, n)` -/
def load (b : Buffer) (offset : U32) (n : ℕ) : List U8 := slice b.bytes offset.toNat n

def load32 (b : Buffer) (offset : U32) : U32 := BitVec.ofNat 32 (ofBytes (b.load offset 4))

/-- `memcpy(buffer + offset, data, n)` -/
def store (b : Buffer) (offset : U32) (data : List U8) : Buffer where
  bytes := overwrite b.bytes offset.toNat data
  fits := by
    rw [length_overwrite]
    exact b.fits

/-- `realloc` to a new length, the added bytes cleared. -/
def resize (b : Buffer) (newLength : U32) : Buffer where
  bytes := (b.bytes ++ List.replicate (newLength.toNat - b.bytes.length) 0).take newLength.toNat
  fits := lt_of_le_of_lt (List.length_take_le _ _) newLength.isLt

@[simp] theorem length_store (b : Buffer) (offset : U32) (data : List U8) :
    (b.store offset data).bytes.length = b.bytes.length := length_overwrite _ _ _

end Buffer

/-! The search for a section -/

/-- One turn of the loop in `FindSection`: the result it returns with, or the next offset. -/
def findTurn (b : Buffer) (magic offset : U32) : Except U32 U32 :=
  if offset < b.length then
    if b.length - offset < 16 then .error noSection
    else
      let sectionLength := b.load32 (offset + 4)
      if sectionLength < 16 ∨ b.length - offset < sectionLength then .error noSection
      else if b.load32 offset = magic then .error (offset + 16)
      else .ok (offset + sectionLength)
  else .error noSection

theorem findTurn_ok {b : Buffer} {magic offset next : U32} (h : findTurn b magic offset = .ok next) :
    next.toNat = offset.toNat + (b.load32 (offset + 4)).toNat ∧
      16 ≤ (b.load32 (offset + 4)).toNat ∧ next.toNat ≤ b.bytes.length ∧
      b.load32 offset ≠ magic := by
  rw [findTurn] at h
  split at h
  · next hlt =>
    split at h
    · cases h
    · next hroom =>
      dsimp only at h
      split at h
      · cases h
      · next hlen =>
        split at h
        · cases h
        · next hmagic =>
          obtain ⟨hmin, hmax⟩ := not_or.mp hlen
          have hsize := b.toNat_length
          generalize b.load32 (offset + 4) = len at *
          generalize b.length = total at *
          cases h
          refine ⟨?_, ?_, ?_, hmagic⟩
          · bv_omega
          · bv_omega
          · bv_omega
  · cases h

def findFrom (b : Buffer) (magic offset : U32) : U32 :=
  match _h : findTurn b magic offset with
  | .error result => result
  | .ok next => findFrom b magic next
termination_by b.bytes.length - offset.toNat
decreasing_by
  obtain ⟨hnext, hmin, hle, -⟩ := findTurn_ok _h
  omega

def findSection (b : Buffer) (magic : U32) : U32 := findFrom b magic 0x10

/-! The stream -/

structure Savestate where
  error : Bool
  saving : Bool
  curSection : U32
  buffer : Buffer
  bufferOffset : U32
  sectionEnd : U32
  bufferOwned : Bool
  finished : Bool
  headerValid : Bool

namespace Savestate

/-! `realloc` tells whether a reallocation to the given length succeeds. -/

variable (realloc : U32 → Bool)

def resize (newLength : U32) (s : Savestate) : Option Savestate :=
  if s.bufferOwned && realloc newLength then
    some { s with buffer := s.buffer.resize newLength }
  else none

/-- Room for a write of `len` bytes, by growing the buffer where it is too short. -/
def reserve (len : ℕ) (s : Savestate) : Option Savestate :=
  if (s.buffer.length - s.bufferOffset).toNat < len then
    s.resize realloc (BitVec.ofNat 32 (min (s.buffer.length.toNat * 2 + len) (2 ^ 32 - 1)))
  else some s

/-- The data after the call and the stream after it. -/
def varArray (data : List U8) (s : Savestate) : List U8 × Savestate :=
  if s.error || s.finished || data.isEmpty then (data, s)
  else if s.buffer.length < s.bufferOffset ∨
      ((0xFFFFFFFF : U32) - s.bufferOffset).toNat < data.length then
    (data, { s with error := true })
  else if s.saving then
    match s.reserve realloc data.length with
    | none => (data, { s with error := true })
    | some t => (data, { t with
        buffer := t.buffer.store t.bufferOffset data
        bufferOffset := t.bufferOffset + BitVec.ofNat 32 data.length })
  else if s.sectionEnd < s.bufferOffset ∨
      (s.sectionEnd - s.bufferOffset).toNat < data.length then
    (data, { s with error := true })
  else
    (s.buffer.load s.bufferOffset data.length,
      { s with bufferOffset := s.bufferOffset + BitVec.ofNat 32 data.length })

/-- A variable of `k` bytes. -/
def var (k : ℕ) (v : BitVec (8 * k)) (s : Savestate) : BitVec (8 * k) × Savestate :=
  let (data, s) := s.varArray realloc (toBytes k v.toNat)
  (BitVec.ofNat (8 * k) (ofBytes data), s)

def var8 (v : U8) (s : Savestate) : U8 × Savestate := s.var realloc 1 v
def var16 (v : U16) (s : Savestate) : U16 × Savestate := s.var realloc 2 v
def var32 (v : U32) (s : Savestate) : U32 × Savestate := s.var realloc 4 v
def var64 (v : U64) (s : Savestate) : U64 × Savestate := s.var realloc 8 v

def varBool (v : Bool) (s : Savestate) : Bool × Savestate :=
  if s.saving then
    (v, (s.var8 realloc (if v then 1 else 0)).2)
  else
    let (val, s) := s.var8 realloc 0
    (if s.error then v else val != 0, s)

def bool32 (v : Bool) (s : Savestate) : Bool × Savestate :=
  if s.saving then
    (v, (s.var32 realloc (if v then 1 else 0)).2)
  else
    let (val, s) := s.var32 realloc 0
    (if s.error then v else val != 0, s)

def closeCurrentSection (s : Savestate) : Savestate :=
  if s.curSection ≠ noSection ∧ ¬s.finished then
    { s with
      buffer := s.buffer.store (s.curSection + 4) (toBytes 4 (s.bufferOffset - s.curSection).toNat)
      curSection := noSection }
  else s

/-- `Section` -/
def enterSection (magic : U32) (s : Savestate) : Savestate :=
  if s.error || s.finished then s
  else if s.saving then
    let s := s.closeCurrentSection
    let s := { s with curSection := s.bufferOffset }
    let s := (s.varArray realloc (toBytes 4 magic.toNat)).2
    let s := (s.var32 realloc 0).2
    let s := (s.var32 realloc 0).2
    (s.var32 realloc 0).2
  else
    let sectionOffset := findSection s.buffer magic
    if sectionOffset ≠ noSection then
      { s with
        bufferOffset := sectionOffset
        sectionEnd := sectionOffset - 16 + s.buffer.load32 (sectionOffset - 12) }
    else { s with error := true }

def writeStateLength (s : Savestate) : Savestate :=
  { s with buffer := s.buffer.store 0x08 (toBytes 4 s.bufferOffset.toNat) }

def finish (s : Savestate) : Savestate :=
  if s.error || s.finished then s
  else
    let s := if s.saving then s.closeCurrentSection.writeStateLength else s
    { s with finished := true }

def writeSavestateHeader (s : Savestate) : Savestate :=
  let s := (s.varArray realloc (toBytes 4 savestateMagic.toNat)).2
  let s := (s.var16 realloc savestateMajor).2
  let s := (s.var16 realloc savestateMinor).2
  let s := (s.var32 realloc 0).2
  let s := (s.var32 realloc 0).2
  { s with headerValid := !s.error }

/-- The checks of the constructor on the header of a state that is read. -/
def readSavestateHeader (s : Savestate) : Savestate :=
  let (magic, s) := s.var32 realloc 0
  if magic ≠ savestateMagic then { s with error := true }
  else
    let (major, s) := s.var16 realloc 0
    if major ≠ savestateMajor ∧ major ≠ 13 then { s with error := true }
    else
      let (minor, s) := s.var16 realloc 0
      if (if major = 13 then 0 else savestateMaxMinor) < minor then { s with error := true }
      else
        let (length, s) := s.var32 realloc 0
        if length ≠ s.buffer.length then { s with error := true }
        else { s with bufferOffset := s.bufferOffset + 4, headerValid := true }

/-- The initialisers of both constructors. -/
def initial (buffer : Buffer) (save owned : Bool) : Savestate where
  error := false
  saving := save
  curSection := noSection
  buffer := buffer
  bufferOffset := 0
  sectionEnd := buffer.length
  bufferOwned := owned
  finished := false
  headerValid := false

/-- `Savestate(void* buffer, u32 size, bool save)` -/
def ofBuffer (buffer : Buffer) (save : Bool) : Savestate :=
  let s := initial buffer save false
  if buffer.length < 16 then { s with error := true }
  else if save then s.writeSavestateHeader realloc
  else s.readSavestateHeader realloc

/-- `Savestate(u32 initial_size)`, on the memory that `malloc` gave. -/
def ofSize (memory : Buffer) : Savestate :=
  (initial memory true true).writeSavestateHeader realloc

def rewind (save : Bool) (s : Savestate) : Savestate :=
  if !save && !s.headerValid then { s with error := true }
  else
    { s with
      error := false, saving := save, curSection := noSection, sectionEnd := s.buffer.length,
      bufferOffset := 0, finished := false }

end Savestate

end MelonDS

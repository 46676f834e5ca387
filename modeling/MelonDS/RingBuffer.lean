import MelonDS.Library.ByteRing
import MelonDS.Types

/-!
# The byte ring of `FIFO.h`

Blocks of bytes are copied in and out whole, in two parts where they pass the
last cell. `contents` is the byte string a ring stands for; every operation is
described by what it does to `contents`, and a transfer that does not fit is
refused without an effect.
-/

namespace MelonDS
open Cyclic

structure RingBuffer (size : ℕ) where
  buffer : Fin size → U8
  numOccupied : ℕ
  readPos : ℕ
  writePos : ℕ
  occupied_le : numOccupied ≤ size
  readPos_lt : readPos < size
  writePos_lt : writePos < size
  writePos_eq : writePos = (readPos + numOccupied) % size

namespace RingBuffer

variable {size : ℕ} [NeZero size]

def clear : RingBuffer size where
  buffer _ := 0
  numOccupied := 0
  readPos := 0
  writePos := 0
  occupied_le := Nat.zero_le _
  readPos_lt := Nat.pos_of_neZero size
  writePos_lt := Nat.pos_of_neZero size
  writePos_eq := (Nat.zero_mod size).symm

def canFit (q : RingBuffer size) (num : ℕ) : Bool := q.numOccupied + num ≤ size

def contents (q : RingBuffer size) : List U8 := window q.buffer q.readPos q.numOccupied

/-- The buffer with the cursor the copies of `Write` start from. -/
def ring (q : RingBuffer size) : Ring U8 size := ⟨q.buffer, q.writePos, q.writePos_lt⟩

omit [NeZero size] in
theorem le_of_canFit {q : RingBuffer size} {num : ℕ} (h : q.canFit num = true) :
    q.numOccupied + num ≤ size := of_decide_eq_true h

omit [NeZero size] in
theorem length_le {q : RingBuffer size} {num : ℕ} (h : q.canFit num = true) : num ≤ size :=
  (Nat.le_add_left _ _).trans (le_of_canFit h)

def write (q : RingBuffer size) (data : List U8) : Bool × RingBuffer size :=
  if h : q.canFit data.length = true then
    (true,
      { q with
        buffer := (q.ring.write data (length_le h)).data
        writePos := (q.ring.write data (length_le h)).writeOffset
        numOccupied := q.numOccupied + data.length
        occupied_le := le_of_canFit h
        writePos_lt := (q.ring.write data (length_le h)).writeOffset_lt
        writePos_eq := by
          change Ring.advance size q.writePos data.length = _
          rw [Ring.advance_mod q.writePos_lt (length_le h), q.writePos_eq, Nat.mod_add_mod,
            Nat.add_assoc] })
  else (false, q)

/-- What `Read` and `Skip` do to the cursors once the length is known to be there. -/
def consume (q : RingBuffer size) (len : ℕ) (h : len ≤ q.numOccupied) : RingBuffer size :=
  { q with
    readPos := Ring.advance size q.readPos len
    numOccupied := q.numOccupied - len
    occupied_le := (Nat.sub_le _ _).trans q.occupied_le
    readPos_lt := Ring.advance_lt q.readPos_lt (h.trans q.occupied_le)
    writePos_eq := by
      rw [Ring.advance_mod q.readPos_lt (h.trans q.occupied_le), Nat.mod_add_mod, Nat.add_assoc,
        Nat.add_sub_cancel' h]
      exact q.writePos_eq }

def read (q : RingBuffer size) (len : ℕ) : Option (List U8 × RingBuffer size) :=
  if h : q.numOccupied < len then none
  else some (q.ring.read q.readPos len, q.consume len (Nat.not_lt.mp h))

def skip (q : RingBuffer size) (len : ℕ) : Bool × RingBuffer size :=
  if h : q.numOccupied < len then (false, q)
  else (true, q.consume len (Nat.not_lt.mp h))

@[simp] theorem length_contents (q : RingBuffer size) : q.contents.length = q.numOccupied :=
  window_length _ _ _

@[simp] theorem contents_clear : (clear : RingBuffer size).contents = [] := rfl

theorem canFit_iff (q : RingBuffer size) (num : ℕ) :
    q.canFit num = true ↔ q.contents.length + num ≤ size := by
  rw [length_contents, canFit, decide_eq_true_iff]

theorem contents_write {q : RingBuffer size} {data : List U8}
    (h : q.contents.length + data.length ≤ size) :
    (q.write data).2.contents = q.contents ++ data := by
  have hfit := (q.canFit_iff data.length).mpr h
  rw [length_contents] at h
  have hstart : q.writePos % size = (q.readPos + q.numOccupied) % size := by
    rw [q.writePos_eq, Nat.mod_mod]
  rw [write, dif_pos hfit]
  change window (q.ring.write data (length_le hfit)).data q.readPos (q.numOccupied + data.length) = _
  rw [Ring.write_data]
  change window (writeAll q.buffer q.writePos data) _ _ = _
  rw [writeAll_congr _ hstart]
  exact window_append_block q.buffer data h

theorem contents_consume (q : RingBuffer size) {len : ℕ} (h : len ≤ q.numOccupied) :
    (q.consume len h).contents = q.contents.drop len := by
  have hlen : len + (q.numOccupied - len) = q.numOccupied := Nat.add_sub_cancel' h
  have hsplit := window_add q.buffer q.readPos len (q.numOccupied - len)
  rw [hlen] at hsplit
  change window q.buffer (Ring.advance size q.readPos len) (q.numOccupied - len) = _
  rw [Ring.advance_mod q.readPos_lt (h.trans q.occupied_le), window_mod, contents, hsplit,
    List.drop_left' (window_length _ _ _)]

theorem read_eq_none {q : RingBuffer size} {len : ℕ} (h : q.contents.length < len) :
    q.read len = none := by
  rw [length_contents] at h
  rw [read, dif_pos h]

/-- A read that is not refused returns the oldest bytes and leaves the rest. -/
theorem read_spec {q : RingBuffer size} {len : ℕ} (h : len ≤ q.contents.length) :
    ∃ q', q.read len = some (q.contents.take len, q') ∧ q'.contents = q.contents.drop len := by
  rw [length_contents] at h
  have hread : q.ring.read q.readPos len = q.contents.take len := by
    have hlen : len + (q.numOccupied - len) = q.numOccupied := Nat.add_sub_cancel' h
    have hsplit := window_add q.buffer q.readPos len (q.numOccupied - len)
    rw [hlen] at hsplit
    rw [Ring.read_eq q.ring q.readPos_lt, contents, hsplit, List.take_left' (window_length _ _ _)]
    rfl
  refine ⟨q.consume len h, ?_, q.contents_consume h⟩
  rw [read, dif_neg (Nat.not_lt.mpr h), hread]

theorem contents_skip {q : RingBuffer size} {len : ℕ} (h : len ≤ q.contents.length) :
    (q.skip len).2.contents = q.contents.drop len := by
  rw [length_contents] at h
  rw [skip, dif_neg (Nat.not_lt.mpr h)]
  exact q.contents_consume h

end RingBuffer
end MelonDS

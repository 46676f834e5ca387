import MelonDS.Library.CyclicWindow

/-!
# Rings with one write cursor

A ring is a cyclic store and a write cursor. A reader is a cursor of its own:
what it has not read is the window from its cursor to the write cursor, and a
ring that never becomes full for a reader shows it every block written, in
order. Both transfers copy in two parts where the block passes the last cell.
-/

namespace MelonDS
open Cyclic

structure Ring (α : Type*) (n : ℕ) where
  data : Fin n → α
  writeOffset : ℕ
  writeOffset_lt : writeOffset < n

namespace Ring

variable {α : Type*} {n : ℕ} [NeZero n]

/-- The cells between a read cursor and the write cursor. -/
def used (r : Ring α n) (read : ℕ) : ℕ := (r.writeOffset + n - read) % n

def unread (r : Ring α n) (read : ℕ) : List α := window r.data read (r.used read)

/-- Where a cursor stands after `len` cells. -/
def advance (n offset len : ℕ) : ℕ :=
  if offset + len ≥ n then len - (n - offset) else offset + len

omit [NeZero n] in
theorem advance_lt {offset len : ℕ} (ho : offset < n) (hl : len ≤ n) : advance n offset len < n := by
  unfold advance
  split_ifs <;> omega

omit [NeZero n] in
theorem advance_mod {offset len : ℕ} (ho : offset < n) (hl : len ≤ n) :
    advance n offset len = (offset + len) % n := by
  have hlt := advance_lt ho hl
  unfold advance at hlt ⊢
  split_ifs at hlt ⊢ with h
  · have he : offset + len = len - (n - offset) + n := by omega
    rw [he, Nat.add_mod_right, Nat.mod_eq_of_lt hlt]
  · rw [Nat.mod_eq_of_lt hlt]

/-- Copying a block in, in two parts where it wraps. -/
def write (r : Ring α n) (block : List α) (h : block.length ≤ n) : Ring α n where
  data :=
    if r.writeOffset + block.length ≥ n then
      writeAll (writeAll r.data r.writeOffset (block.take (n - r.writeOffset))) 0
        (block.drop (n - r.writeOffset))
    else writeAll r.data r.writeOffset block
  writeOffset := advance n r.writeOffset block.length
  writeOffset_lt := advance_lt r.writeOffset_lt h

/-- Copying a block out, in two parts where it wraps. -/
def read (r : Ring α n) (offset len : ℕ) : List α :=
  if offset + len ≥ n then window r.data offset (n - offset) ++ window r.data 0 (len - (n - offset))
  else window r.data offset len

theorem used_lt (r : Ring α n) (read : ℕ) : r.used read < n := Nat.mod_lt _ (Nat.pos_of_neZero n)

@[simp] theorem length_unread (r : Ring α n) (read : ℕ) : (r.unread read).length = r.used read :=
  window_length _ _ _

omit [NeZero n] in
theorem used_self (r : Ring α n) : r.used r.writeOffset = 0 := by
  rw [used, Nat.add_sub_cancel_left, Nat.mod_self]

@[simp] theorem unread_self (r : Ring α n) : r.unread r.writeOffset = [] := by
  rw [unread, used_self, window_zero]

omit [NeZero n] in
/-- The distance to the write cursor is the one that leads there. -/
theorem used_eq {r : Ring α n} {read len : ℕ} (hr : read < n) (hl : len < n)
    (h : (read + len) % n = r.writeOffset) : r.used read = len := by
  rw [used, ← h]
  by_cases hw : read + len < n
  · rw [Nat.mod_eq_of_lt hw]
    have he : read + len + n - read = len + n := by omega
    rw [he, Nat.add_mod_right, Nat.mod_eq_of_lt hl]
  · have hm : (read + len) % n = read + len - n := by
      rw [Nat.mod_eq_sub_mod (by omega), Nat.mod_eq_of_lt (by omega)]
    have he : read + len - n + n - read = len := by omega
    rw [hm, he, Nat.mod_eq_of_lt hl]

omit [NeZero n] in
theorem add_used {r : Ring α n} {read : ℕ} (hr : read < n) :
    (read + r.used read) % n = r.writeOffset := by
  have hw := r.writeOffset_lt
  rw [used, Nat.add_mod_mod]
  have he : read + (r.writeOffset + n - read) = r.writeOffset + n := by omega
  rw [he, Nat.add_mod_right, Nat.mod_eq_of_lt hw]

theorem unread_eq_nil_iff {r : Ring α n} {read : ℕ} (hr : read < n) :
    r.unread read = [] ↔ read = r.writeOffset := by
  rw [← List.length_eq_zero_iff, length_unread]
  constructor
  · intro h
    have hadd := add_used (r := r) hr
    rwa [h, Nat.add_zero, Nat.mod_eq_of_lt hr] at hadd
  · rintro rfl
    exact r.used_self

theorem write_data (r : Ring α n) {block : List α} (h : block.length ≤ n) :
    (r.write block h).data = writeAll r.data r.writeOffset block := by
  have hw := r.writeOffset_lt
  simp only [write]
  split_ifs with hwrap
  · have hlen : (block.take (n - r.writeOffset)).length = n - r.writeOffset := by
      rw [List.length_take]
      omega
    have hzero : 0 % n = (r.writeOffset + (n - r.writeOffset)) % n := by
      rw [Nat.add_sub_cancel' hw.le, Nat.mod_self, Nat.zero_mod]
    conv_rhs => rw [← List.take_append_drop (n - r.writeOffset) block, writeAll_append, hlen]
    exact writeAll_congr _ hzero _
  · rfl

theorem read_eq (r : Ring α n) {offset : ℕ} (ho : offset < n) (len : ℕ) :
    r.read offset len = window r.data offset len := by
  rw [read]
  split_ifs with hwrap
  · have hzero : 0 % n = (offset + (n - offset)) % n := by
      rw [Nat.add_sub_cancel' ho.le, Nat.mod_self, Nat.zero_mod]
    have hlen : n - offset + (len - (n - offset)) = len := by omega
    rw [window_congr r.data hzero, ← window_add, hlen]
  · rfl

/-- A reader with room for the block sees it behind what it has not read. -/
theorem unread_write (r : Ring α n) {read : ℕ} (hr : read < n) {block : List α}
    (h : block.length ≤ n) (hroom : r.used read + block.length < n) :
    (r.write block h).unread read = r.unread read ++ block := by
  have hwrite : (r.write block h).writeOffset = (r.writeOffset + block.length) % n :=
    advance_mod r.writeOffset_lt h
  have hused : (r.write block h).used read = r.used read + block.length := by
    refine used_eq hr hroom ?_
    rw [hwrite, ← Nat.add_assoc, ← Nat.mod_add_mod, add_used hr]
  have hstart : r.writeOffset % n = (read + r.used read) % n := by
    rw [add_used hr, Nat.mod_eq_of_lt r.writeOffset_lt]
  rw [unread, hused, write_data, writeAll_congr _ hstart]
  exact window_append_block r.data block hroom.le

/-- Reading no more than there is moves the cursor over what is read. -/
theorem unread_advance (r : Ring α n) {offset len : ℕ} (ho : offset < n) (hl : len ≤ r.used offset) :
    r.read offset len = (r.unread offset).take len ∧
      r.unread (advance n offset len) = (r.unread offset).drop len := by
  have hu := r.used_lt offset
  have hlen : len + (r.used offset - len) = r.used offset := by omega
  have hsplit := window_add r.data offset len (r.used offset - len)
  rw [hlen] at hsplit
  have hmod := advance_mod ho (hl.trans hu.le)
  have hused : r.used (advance n offset len) = r.used offset - len := by
    refine used_eq (advance_lt ho (hl.trans hu.le)) (by omega) ?_
    rw [hmod, Nat.mod_add_mod, Nat.add_assoc, hlen, add_used ho]
  constructor
  · rw [read_eq r ho, unread, hsplit, List.take_append_of_le_length (by simp)]
    rw [List.take_of_length_le (by simp)]
  · rw [unread, hused, hmod, window_mod, unread, hsplit, List.drop_append_of_le_length (by simp),
      List.drop_of_length_le (by simp), List.nil_append]

end Ring
end MelonDS

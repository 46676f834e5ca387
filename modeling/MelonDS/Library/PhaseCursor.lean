import MelonDS.Library.CyclicWindow

/-!
# Cursors with a phase bit

Two cursors walk round a store of `n` cells and each flips its phase at every wrap.
With equal phases the reader has the writer ahead of it on the same turn, otherwise
on the next one, so positions and phases tell a full store from an empty one.
-/

namespace MelonDS
open Cyclic

structure Cursor where
  pos : ℕ
  phase : Bool
deriving DecidableEq

namespace Cursor

variable {α : Type*} {n : ℕ}

def next (n : ℕ) (c : Cursor) : Cursor :=
  if c.pos + 1 ≥ n then ⟨0, !c.phase⟩ else ⟨c.pos + 1, c.phase⟩

/-- The writer is ahead of the reader by at most a turn. -/
def Ahead (rd wr : Cursor) : Prop :=
  if rd.phase = wr.phase then rd.pos ≤ wr.pos else wr.pos ≤ rd.pos

def distance (n : ℕ) (rd wr : Cursor) : ℕ :=
  if rd.phase = wr.phase then wr.pos - rd.pos else wr.pos + n - rd.pos

theorem next_pos_lt (hn : 0 < n) (c : Cursor) : (c.next n).pos < n := by
  rw [next]
  split_ifs with h
  · exact hn
  · exact Nat.not_le.mp h

theorem next_pos {c : Cursor} (h : c.pos < n) : (c.next n).pos = (c.pos + 1) % n := by
  rw [next]
  split_ifs with hwrap
  · have heq : c.pos + 1 = n := by omega
    rw [heq, Nat.mod_self]
  · rw [Nat.mod_eq_of_lt (by omega)]

variable {rd wr : Cursor} (hrd : rd.pos < n) (hwr : wr.pos < n) (h : Ahead rd wr)

include hwr h in
theorem distance_le : distance n rd wr ≤ n := by
  rw [Ahead] at h
  rw [distance]
  split_ifs at h ⊢ <;> omega

include hrd hwr h in
theorem distance_cell : (rd.pos + distance n rd wr) % n = wr.pos := by
  rw [Ahead] at h
  rw [distance]
  split_ifs at h ⊢
  · rw [Nat.add_sub_cancel' h, Nat.mod_eq_of_lt hwr]
  · have heq : rd.pos + (wr.pos + n - rd.pos) = wr.pos + n := by omega
    rw [heq, Nat.add_mod_right, Nat.mod_eq_of_lt hwr]

include hrd hwr h in
/-- Equal positions are those of an empty or of a full store. -/
theorem pos_eq_iff : wr.pos = rd.pos ↔ distance n rd wr = 0 ∨ distance n rd wr = n := by
  rw [Ahead] at h
  rw [distance]
  split_ifs at h ⊢ <;> omega

include hrd hwr h in
theorem next_read (hd : 0 < distance n rd wr) :
    Ahead (rd.next n) wr ∧ distance n (rd.next n) wr + 1 = distance n rd wr := by
  obtain ⟨r, p⟩ := rd
  obtain ⟨w, q⟩ := wr
  simp only [Ahead, distance, next] at *
  by_cases hwrap : r + 1 ≥ n <;> by_cases hpq : p = q
  · subst hpq
    simp only [if_true, if_pos hwrap, Bool.not_eq_self] at *
    omega
  · have hq : (!p) = q := by cases p <;> cases q <;> simp_all
    simp only [if_pos hwrap, if_neg hpq, if_pos hq] at *
    omega
  · simp only [if_neg hwrap, if_pos hpq] at *
    omega
  · simp only [if_neg hwrap, if_neg hpq] at *
    omega

include hrd hwr h in
theorem next_write (hd : distance n rd wr < n) :
    Ahead rd (wr.next n) ∧ distance n rd (wr.next n) = distance n rd wr + 1 := by
  obtain ⟨r, p⟩ := rd
  obtain ⟨w, q⟩ := wr
  simp only [Ahead, distance, next] at *
  by_cases hwrap : w + 1 ≥ n <;> by_cases hpq : p = q
  · have hq : ¬ p = !q := by cases p <;> cases q <;> simp_all
    simp only [if_pos hwrap, if_pos hpq, if_neg hq] at *
    omega
  · have hq : p = !q := by cases p <;> cases q <;> simp_all
    simp only [if_pos hwrap, if_neg hpq, if_pos hq] at *
    omega
  · simp only [if_neg hwrap, if_pos hpq] at *
    omega
  · simp only [if_neg hwrap, if_neg hpq] at *
    omega

/-- The elements the reader has before it. -/
def queued [NeZero n] (mem : Fin n → α) (rd wr : Cursor) : List α :=
  window mem rd.pos (distance n rd wr)

variable [NeZero n] (mem : Fin n → α)

@[simp] theorem length_queued : (queued mem rd wr).length = distance n rd wr :=
  window_length _ _ _

include hrd hwr h in
theorem queued_next_read (hd : 0 < distance n rd wr) :
    queued mem rd wr = mem (cell n rd.pos) :: queued mem (rd.next n) wr := by
  rw [queued, ← (next_read hrd hwr h hd).2, window_succ, queued, next_pos hrd, window_mod]

include hrd hwr h in
theorem queued_next_write (hd : distance n rd wr < n) (v : α) :
    queued (Function.update mem (cell n wr.pos) v) rd (wr.next n) = queued mem rd wr ++ [v] := by
  rw [queued, (next_write hrd hwr h hd).2, queued, ← distance_cell hrd hwr h, cell_mod]
  exact window_push mem v hd

end Cursor
end MelonDS

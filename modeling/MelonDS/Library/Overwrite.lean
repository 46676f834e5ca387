import Mathlib.Data.List.Basic

/-!
# Overwriting part of a list

`slice` reads `n` elements from a position and `overwrite` replaces the elements
from a position on without changing the length, as `memcpy` does with a buffer.
-/

namespace MelonDS

variable {α : Type*}

def slice (xs : List α) (off n : ℕ) : List α := (xs.drop off).take n

def overwrite (xs : List α) (off : ℕ) (ys : List α) : List α :=
  xs.take off ++ (ys.take (xs.length - off) ++ xs.drop (off + ys.length))

@[simp] theorem length_overwrite (xs : List α) (off : ℕ) (ys : List α) :
    (overwrite xs off ys).length = xs.length := by
  simp only [overwrite, List.length_append, List.length_take, List.length_drop]
  omega

theorem length_slice {xs : List α} {off n : ℕ} (h : off + n ≤ xs.length) :
    (slice xs off n).length = n := by
  simp only [slice, List.length_take, List.length_drop]
  omega

theorem slice_append {pre mid post : List α} {off n : ℕ} (hoff : off = pre.length)
    (hn : n = mid.length) : slice (pre ++ (mid ++ post)) off n = mid := by
  rw [slice, List.drop_left' hoff.symm, List.take_left' hn.symm]

theorem overwrite_append {pre old new post : List α} {off : ℕ} (hoff : off = pre.length)
    (hlen : old.length = new.length) :
    overwrite (pre ++ (old ++ post)) off new = pre ++ (new ++ post) := by
  have hroom : new.length ≤ (pre ++ (old ++ post)).length - off := by
    simp only [List.length_append]
    omega
  rw [overwrite, List.take_left' hoff.symm, List.take_of_length_le hroom, ← List.drop_drop,
    List.drop_left' hoff.symm, List.drop_left' hlen]

theorem take_overwrite_end {xs ys : List α} {off : ℕ} (h : off + ys.length ≤ xs.length) :
    (overwrite xs off ys).take (off + ys.length) = xs.take off ++ ys := by
  have hys : ys.take (xs.length - off) = ys := List.take_of_length_le (by omega)
  rw [overwrite, hys, ← List.append_assoc]
  apply List.take_left'
  rw [List.length_append, List.length_take]
  omega

theorem take_overwrite {xs ys : List α} {off n : ℕ} (h : off + ys.length ≤ n)
    (hn : n ≤ xs.length) : (overwrite xs off ys).take n = overwrite (xs.take n) off ys := by
  have hys : ys.take (xs.length - off) = ys := List.take_of_length_le (by omega)
  have hys' : ys.take (n - off) = ys := List.take_of_length_le (by omega)
  have hlen : (xs.take n).length = n := by
    rw [List.length_take]
    omega
  have hoff : (xs.take off).length = off := by
    rw [List.length_take]
    omega
  rw [overwrite, overwrite, hlen, hys, hys', List.take_append, List.take_append, hoff,
    List.take_of_length_le (l := xs.take off) (by omega),
    List.take_of_length_le (l := ys) (by omega), List.take_take, Nat.min_eq_left (by omega),
    List.drop_take]
  congr 3
  omega

theorem overwrite_nil (xs : List α) (off : ℕ) : overwrite xs off [] = xs := by
  simp [overwrite]

theorem getElem?_overwrite {xs ys : List α} {off : ℕ} (h : off + ys.length ≤ xs.length) (i : ℕ) :
    (overwrite xs off ys)[i]? =
      if off ≤ i ∧ i < off + ys.length then ys[i - off]? else xs[i]? := by
  have hys : ys.take (xs.length - off) = ys := List.take_of_length_le (by omega)
  have hoff : (xs.take off).length = off := by
    rw [List.length_take]
    omega
  rw [overwrite, hys]
  by_cases hlow : i < off
  · rw [if_neg (by omega), List.getElem?_append_left (by omega), List.getElem?_take_of_lt hlow]
  · rw [List.getElem?_append_right (by omega), hoff]
    by_cases hin : i < off + ys.length
    · rw [if_pos ⟨by omega, hin⟩, List.getElem?_append_left (by omega)]
    · rw [if_neg (by omega), List.getElem?_append_right (by omega), List.getElem?_drop]
      congr 1
      omega

theorem overwrite_singleton {xs : List α} {off : ℕ} (h : off < xs.length) (a : α) :
    overwrite xs off [a] = xs.set off a := by
  have hone : [a].take (xs.length - off) = [a] :=
    List.take_of_length_le (by rw [List.length_singleton]; omega)
  rw [overwrite, hone, List.set_eq_take_append_cons_drop, if_pos h]
  rfl

/-- A loop that sets one element after the other overwrites them all. -/
theorem foldl_set {xs : List α} {off n : ℕ} (f : ℕ → α) (h : off + n ≤ xs.length) :
    (List.range n).foldl (fun xs i => xs.set (off + i) (f i)) xs =
      overwrite xs off ((List.range n).map f) := by
  induction n with
  | zero => exact (overwrite_nil xs off).symm
  | succ n ih =>
    have hlen : ((List.range n).map f).length = n := by simp
    have hlen' : ((List.range n).map f ++ [f n]).length = n + 1 := by simp
    have hfront : ((List.range n).map f).take (xs.length - off) = (List.range n).map f :=
      List.take_of_length_le (by omega)
    have hall : ((List.range n).map f ++ [f n]).take (xs.length - off) =
        (List.range n).map f ++ [f n] := List.take_of_length_le (by omega)
    have hoff : (xs.take off).length = off := by
      rw [List.length_take]
      omega
    have hdrop : xs.drop (off + n) = xs[off + n] :: xs.drop (off + (n + 1)) :=
      List.drop_eq_getElem_cons (by omega)
    rw [List.range_succ, List.foldl_append, ih (by omega), List.map_append, List.map_singleton,
      List.foldl_cons, List.foldl_nil, overwrite, overwrite, hfront, hall, hlen, hlen', hdrop,
      List.set_append_right _ _ (by omega), hoff, Nat.add_sub_cancel_left,
      List.set_append_right _ _ (by omega), hlen, Nat.sub_self, List.set_cons_zero,
      List.append_assoc]
    rfl

end MelonDS

import Mathlib.Algebra.BigOperators.Group.Finset.Basic
import Mathlib.Algebra.Order.BigOperators.Group.Finset
import Mathlib.Data.Finset.Card

/-!
# The cyclic order of `n` positions

Neighbours on a cycle of `n` positions, and the exchange of a sum over positions
with a sum over the edges from each position to the next one.
-/

namespace MelonDS.Cyclic
open scoped BigOperators

/-- `prev = i-1; if (prev < 0) prev = n-1`. -/
def prev (n i : ℕ) : ℕ := if i = 0 then n - 1 else i - 1

/-- `next = i+1; if (next >= n) next = 0`. -/
def next (n i : ℕ) : ℕ := if i + 1 ≥ n then 0 else i + 1

theorem prev_lt {n i : ℕ} (h : i < n) : prev n i < n := by
  unfold prev
  split_ifs <;> omega

theorem next_lt {n i : ℕ} (h : i < n) : next n i < n := by
  unfold next
  split_ifs <;> omega

theorem next_prev {n i : ℕ} (h : i < n) : next n (prev n i) = i := by
  unfold next prev
  split_ifs <;> omega

theorem prev_next {n i : ℕ} (h : i < n) : prev n (next n i) = i := by
  unfold next
  by_cases hi : i + 1 ≥ n
  · rw [if_pos hi, prev, if_pos rfl]
    omega
  · rw [if_neg hi, prev, if_neg (Nat.succ_ne_zero i)]
    omega

/-- Each position with its predecessor is each position with its successor, reversed. -/
theorem sum_prev {M : Type*} [AddCommMonoid M] (n : ℕ) (f : ℕ → ℕ → M) :
    ∑ i ∈ Finset.range n, f (prev n i) i = ∑ i ∈ Finset.range n, f i (next n i) := by
  refine Finset.sum_nbij' (prev n) (next n) ?_ ?_ ?_ ?_ ?_
  · intro i hi
    exact Finset.mem_range.mpr (prev_lt (Finset.mem_range.mp hi))
  · intro i hi
    exact Finset.mem_range.mpr (next_lt (Finset.mem_range.mp hi))
  · intro i hi
    exact next_prev (Finset.mem_range.mp hi)
  · intro i hi
    exact prev_next (Finset.mem_range.mp hi)
  · intro i hi
    rw [next_prev (Finset.mem_range.mp hi)]

/-- What the positions give to both neighbours is what the edges carry both ways. -/
theorem sum_neighbours {M : Type*} [AddCommMonoid M] (n : ℕ) (f : ℕ → ℕ → M) :
    ∑ i ∈ Finset.range n, (f i (prev n i) + f i (next n i)) =
      ∑ i ∈ Finset.range n, (f (next n i) i + f i (next n i)) := by
  rw [Finset.sum_add_distrib, Finset.sum_add_distrib, sum_prev n fun j i => f i j]

end MelonDS.Cyclic

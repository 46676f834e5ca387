import Mathlib.Logic.Function.Iterate
import Mathlib.Order.Monotone.Basic
import Mathlib.Tactic.WLOG

/-!
# Slicing a deterministic machine

A machine that takes one step after another may be run in slices of any length.
If each slice is some number of steps, so is every run; and two runs that stop
at states that are stable at one rank stop at the same state.
-/

namespace MelonDS.Slicing

variable {S E : Type*}

theorem exists_iterate_foldl {Inv : S → Prop} {view : S → S} {next : S → S} {apply : S → E → S}
    (hstep : ∀ s e, Inv s → Inv (apply s e) ∧ ∃ n, view (apply s e) = next^[n] (view s))
    (es : List E) {s : S} (hs : Inv s) :
    Inv (es.foldl apply s) ∧ ∃ n, view (es.foldl apply s) = next^[n] (view s) := by
  induction es generalizing s with
  | nil => exact ⟨hs, 0, rfl⟩
  | cons e es ih =>
    obtain ⟨hs', n, hn⟩ := hstep s e hs
    obtain ⟨hr, m, hm⟩ := ih hs'
    refine ⟨hr, m + n, ?_⟩
    rw [List.foldl_cons, hm, hn, Function.iterate_add_apply]

variable {next : S → S} {rank : S → ℕ} {stable : S → Prop}

theorem iterate_eq_of_rank_eq (hmono : ∀ s, rank s ≤ rank (next s))
    (hstable : ∀ s, stable s → rank (next s) = rank s → next s = s) {s : S} (hs : stable s)
    (k : ℕ) (h : rank (next^[k] s) = rank s) : next^[k] s = s := by
  have hle (k : ℕ) (t : S) : rank t ≤ rank (next^[k] t) := by
    induction k generalizing t with
    | zero => exact le_rfl
    | succ k ih => exact (hmono t).trans (ih (next t))
  induction k with
  | zero => rfl
  | succ k ih =>
    rw [Function.iterate_succ_apply] at h ⊢
    have hrank : rank (next s) = rank s :=
      le_antisymm ((hle k (next s)).trans_eq h) (hmono s)
    rw [hstable s hs hrank] at h ⊢
    exact ih h

/-- Along one run the stable states of one rank are one state. -/
theorem stable_unique (hmono : ∀ s, rank s ≤ rank (next s))
    (hstable : ∀ s, stable s → rank (next s) = rank s → next s = s) {s : S} {m n : ℕ}
    (hm : stable (next^[m] s)) (hn : stable (next^[n] s))
    (h : rank (next^[m] s) = rank (next^[n] s)) : next^[m] s = next^[n] s := by
  wlog hmn : m ≤ n generalizing m n
  · exact (this hn hm h.symm (le_of_not_ge hmn)).symm
  · obtain ⟨k, rfl⟩ := Nat.exists_eq_add_of_le' hmn
    rw [Function.iterate_add_apply] at h ⊢
    exact (iterate_eq_of_rank_eq hmono hstable hm k h.symm).symm

end MelonDS.Slicing

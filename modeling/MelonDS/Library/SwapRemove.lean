import Mathlib.Data.List.Basic
import Mathlib.Data.List.Nodup
import Mathlib.Logic.Function.Basic

/-!
# Vectors that do not keep their order, and tables changed cell by cell

Removing an element moves the last one into its place. Up to order that is
erasing, which is all an index that holds every element once depends on.
-/

namespace MelonDS

section SwapRemove
variable {α : Type*}

/-- The last element takes the place of the one at `i`. -/
def swapRemove (l : List α) (i : ℕ) : List α :=
  match l.getLast? with
  | some a => (l.set i a).dropLast
  | none => []

theorem swapRemove_perm {l : List α} {i : ℕ} (h : i < l.length) :
    (swapRemove l i).Perm (l.eraseIdx i) := by
  rcases List.eq_nil_or_concat l with rfl | ⟨init, a, rfl⟩
  · exact absurd h (Nat.not_lt_zero i)
  · rw [List.concat_eq_append] at h ⊢
    rw [List.length_append, List.length_singleton] at h
    simp only [swapRemove, List.getLast?_concat]
    by_cases hi : i < init.length
    · have hset : ((init ++ [a]).set i a).dropLast = init.set i a := by
        rw [List.set_append_left _ _ hi, List.dropLast_concat]
      rw [hset, List.set_eq_take_append_cons_drop, if_pos hi, List.eraseIdx_append_of_lt_length hi,
        List.eraseIdx_eq_take_drop_succ, List.append_assoc]
      exact List.Perm.append_left _ (List.perm_append_singleton a _).symm
    · have hlast : i = init.length := by omega
      subst hlast
      rw [List.set_append_right _ _ (Nat.le_refl _), List.eraseIdx_append_of_length_le (Nat.le_refl _), Nat.sub_self]
      simp

theorem take_swapRemove {l : List α} {i : ℕ} (h : i < l.length) :
    (swapRemove l i).take i = l.take i := by
  cases hlast : l.getLast? with
  | none =>
    rw [List.getLast?_eq_none_iff] at hlast
    subst hlast
    exact absurd h (Nat.not_lt_zero i)
  | some a =>
    have hmin : min i (l.length - 1) = i := by omega
    simp only [swapRemove, hlast]
    rw [List.dropLast_eq_take, List.take_take, List.length_set, hmin,
      List.take_set_of_le (Nat.le_refl i)]

theorem length_swapRemove {l : List α} {i : ℕ} (h : i < l.length) :
    (swapRemove l i).length = l.length - 1 := by
  rw [(swapRemove_perm h).length_eq, List.length_eraseIdx_of_lt h]

variable [DecidableEq α]

/-- The first occurrence is removed. -/
def removeByValue (l : List α) (a : α) : List α :=
  if a ∈ l then swapRemove l (l.idxOf a) else l

theorem removeByValue_perm (l : List α) (a : α) : (removeByValue l a).Perm (l.erase a) := by
  unfold removeByValue
  split_ifs with h
  · have hp := swapRemove_perm (List.idxOf_lt_length_of_mem h)
    rwa [List.eraseIdx_idxOf_eq_erase] at hp
  · rw [List.erase_of_not_mem h]

theorem swapRemove_eq {l : List α} (hl : l.Nodup) {i : ℕ} (h : i < l.length) :
    swapRemove l i = removeByValue l l[i] := by
  rw [removeByValue, if_pos (List.getElem_mem h), hl.idxOf_getElem i h]

end SwapRemove

section UpdateEach
variable {κ ν β : Type*} [DecidableEq κ]

/-- A table with the cell of each key changed in turn. -/
def updateEach (g : κ → β → ν → ν) : List (κ × β) → (κ → ν) → κ → ν
  | [], m => m
  | p :: ps, m => updateEach g ps (Function.update m p.1 (g p.1 p.2 (m p.1)))

theorem updateEach_of_not_mem (g : κ → β → ν → ν) {ps : List (κ × β)} {m : κ → ν} {k : κ}
    (h : k ∉ ps.map Prod.fst) : updateEach g ps m k = m k := by
  induction ps generalizing m with
  | nil => rfl
  | cons p ps ih =>
    rw [List.map_cons, List.mem_cons, not_or] at h
    rw [updateEach, ih h.2, Function.update_of_ne h.1]

/-- Where the keys are distinct, each cell is changed once. -/
theorem updateEach_of_mem (g : κ → β → ν → ν) {ps : List (κ × β)} {m : κ → ν}
    (hnodup : (ps.map Prod.fst).Nodup) {p : κ × β} (h : p ∈ ps) :
    updateEach g ps m p.1 = g p.1 p.2 (m p.1) := by
  induction ps generalizing m with
  | nil => exact absurd h List.not_mem_nil
  | cons q ps ih =>
    rw [List.map_cons, List.nodup_cons] at hnodup
    rw [updateEach]
    rcases List.mem_cons.mp h with rfl | h
    · rw [updateEach_of_not_mem g hnodup.1, Function.update_self]
    · have hne : p.1 ≠ q.1 := fun he => hnodup.1 (he ▸ List.mem_map_of_mem h)
      rw [ih hnodup.2 h, Function.update_of_ne hne]

end UpdateEach
end MelonDS

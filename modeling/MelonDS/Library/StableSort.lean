import Mathlib.Data.List.Sort

/-!
# Stable sorting by a key

What an insertion sort by a key leaves of the order a list came in: elements of equal keys
stay as they were. A list in which the elements of one kind precede those of another is the
elements of that kind followed by the rest.
-/

namespace MelonDS.StableSort

variable {α : Type*}

/-- By key, and where the keys agree by `r`. -/
def KeyOrder (key : α → ℕ) (r : α → α → Prop) (a b : α) : Prop :=
  key a < key b ∨ (key a = key b ∧ r a b)

theorem KeyOrder.key_le {key : α → ℕ} {r : α → α → Prop} {a b : α} (h : KeyOrder key r a b) :
    key a ≤ key b := by
  rcases h with h | h
  · exact h.le
  · exact h.1.le

section Insertion

variable {key : α → ℕ} {r le : α → α → Prop} [DecidableRel le]

/-- An element goes in front of those of its key, which all come after it. -/
theorem pairwise_orderedInsert (hle : ∀ a b, le a b ↔ key a ≤ key b) {a : α} {l : List α}
    (hl : l.Pairwise (KeyOrder key r)) (ha : ∀ b ∈ l, r a b) :
    (l.orderedInsert le a).Pairwise (KeyOrder key r) := by
  induction l with
  | nil => exact List.pairwise_singleton _ a
  | cons b l ih =>
    obtain ⟨hb, hl'⟩ := List.pairwise_cons.mp hl
    by_cases hab : le a b
    · rw [List.orderedInsert_cons_of_le le l hab]
      refine List.pairwise_cons.mpr ⟨?_, hl⟩
      intro c hc
      have hbc : key b ≤ key c := by
        rcases List.mem_cons.mp hc with rfl | hc
        · exact le_rfl
        · exact (hb c hc).key_le
      rcases (((hle a b).mp hab).trans hbc).lt_or_eq with h | h
      · exact Or.inl h
      · exact Or.inr ⟨h, ha c hc⟩
    · rw [List.orderedInsert_of_not_le le l hab]
      have hlt : key b < key a := by
        rw [hle] at hab
        exact Nat.lt_of_not_le hab
      refine List.pairwise_cons.mpr ⟨?_, ih hl' fun c hc => ha c (List.mem_cons_of_mem b hc)⟩
      intro c hc
      rcases (List.mem_orderedInsert le).mp hc with rfl | hc
      · exact Or.inl hlt
      · exact hb c hc

theorem pairwise_insertionSort (hle : ∀ a b, le a b ↔ key a ≤ key b) {l : List α}
    (hl : l.Pairwise r) : (l.insertionSort le).Pairwise (KeyOrder key r) := by
  induction l with
  | nil => exact List.Pairwise.nil
  | cons a l ih =>
    obtain ⟨ha, hl⟩ := List.pairwise_cons.mp hl
    rw [List.insertionSort_cons]
    refine pairwise_orderedInsert hle (ih hl) fun b hb => ha b ?_
    exact (List.mem_insertionSort le).mp hb

end Insertion

theorem eq_filter_append {p : α → Bool} {l : List α}
    (h : l.Pairwise fun a b => p b = true → p a = true) :
    l = l.filter p ++ l.filter fun a => !p a := by
  induction l with
  | nil => rfl
  | cons a l ih =>
    obtain ⟨ha, hl⟩ := List.pairwise_cons.mp h
    cases hp : p a with
    | true => simp [hp, ← ih hl]
    | false =>
      have hnone : l.filter p = [] := by
        rw [List.filter_eq_nil_iff]
        intro b hb hpb
        have := ha b hb hpb
        simp [hp] at this
      have hl' := ih hl
      rw [hnone, List.nil_append] at hl'
      simp [hp, hnone, ← hl']

end MelonDS.StableSort

import Mathlib.Data.Set.BooleanAlgebra
import Mathlib.Data.Set.Disjoint
import Mathlib.Logic.Function.Basic
import Mathlib.Order.CompletePartialOrder

/-!
# Operations local to a set of cells

A family of cells is changed by operations that read and write the cells of one
set only. Operations local to disjoint sets commute.
-/

namespace MelonDS

variable {ι α : Type*}

structure LocalTo (S : Set ι) (f : (ι → α) → ι → α) : Prop where
  outside : ∀ x, ∀ k ∉ S, f x k = x k
  inside : ∀ x y, (∀ k ∈ S, x k = y k) → ∀ k ∈ S, f x k = f y k

namespace LocalTo

variable {S T : Set ι} {f g : (ι → α) → ι → α}

theorem id (S : Set ι) : LocalTo S (fun x : ι → α => x) :=
  ⟨fun _ _ _ => rfl, fun _ _ h => h⟩

theorem comp (hg : LocalTo S g) (hf : LocalTo S f) : LocalTo S (fun x => g (f x)) :=
  ⟨fun x k hk => (hg.outside _ k hk).trans (hf.outside x k hk),
    fun x y h => hg.inside _ _ (hf.inside x y h)⟩

theorem mono (hf : LocalTo S f) (h : S ⊆ T) : LocalTo T f := by
  refine ⟨fun x k hk => hf.outside x k (fun hS => hk (h hS)), fun x y hxy k hk => ?_⟩
  by_cases hS : k ∈ S
  · exact hf.inside x y (fun j hj => hxy j (h hj)) k hS
  · rw [hf.outside x k hS, hf.outside y k hS]
    exact hxy k hk

/-- Rewriting one cell from its own contents. -/
theorem update [DecidableEq ι] {i : ι} (hi : i ∈ S) (v : α → α) :
    LocalTo S (fun x => Function.update x i (v (x i))) := by
  refine ⟨fun x k hk => Function.update_of_ne ?_ _ _, fun x y h k hk => ?_⟩
  · rintro rfl
    exact hk hi
  by_cases hki : k = i
  · subst hki
    simp only [Function.update_self]
    rw [h k hk]
  · simp only [Function.update_of_ne hki]
    exact h k hk

/-- A choice made by looking at one cell. -/
theorem ite {i : ι} (hi : i ∈ S) (p : α → Prop) [DecidablePred p] (hf : LocalTo S f)
    (hg : LocalTo S g) : LocalTo S (fun x => if p (x i) then f x else g x) := by
  refine ⟨fun x k hk => ?_, fun x y h k hk => ?_⟩
  · split_ifs
    · exact hf.outside x k hk
    · exact hg.outside x k hk
  · simp only [h i hi]
    split_ifs
    · exact hf.inside x y h k hk
    · exact hg.inside x y h k hk

theorem commute (hf : LocalTo S f) (hg : LocalTo T g) (h : Disjoint S T) (x : ι → α) :
    f (g x) = g (f x) := by
  funext k
  by_cases hS : k ∈ S
  · have hT : k ∉ T := Set.disjoint_left.mp h hS
    rw [hg.outside (f x) k hT]
    exact hf.inside _ _ (fun j hj => hg.outside x j (Set.disjoint_left.mp h hj)) k hS
  · rw [hf.outside (g x) k hS]
    by_cases hT : k ∈ T
    · exact (hg.inside _ _ (fun j hj => hf.outside x j (Set.disjoint_right.mp h hj)) k hT).symm
    · rw [hg.outside x k hT, hg.outside (f x) k hT, hf.outside x k hS]

end LocalTo
end MelonDS

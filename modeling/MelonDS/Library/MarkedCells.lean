import Mathlib.Data.Set.Basic

/-!
# Cells with marks

What marks on shared cells say about the things that use them: flags for what is out of date,
and tags for the group a cell belongs to.
-/

/-!
## Entries kept up to date by dirty flags on shared cells

An entry is a copy computed from the cells it uses. Cells carry one dirty flag each,
shared by all entries, so refreshing some entries and clearing the flags of their
cells may take a flag another entry still waits for. `UpToDate` is the invariant of
such a scheme: an entry without a flagged cell is fresh.
-/

namespace MelonDS.DirtyFlags

variable {Cell Entry : Type*} {dirty dirty' : Set Cell} {uses uses' : Entry → Set Cell}
  {fresh fresh' : Set Entry}

def UpToDate (dirty : Set Cell) (uses : Entry → Set Cell) (fresh : Set Entry) : Prop :=
  ∀ e, (∀ c ∈ uses e, c ∉ dirty) → e ∈ fresh

/-- Cells change and are flagged: it is enough to keep the entries no flag is on. -/
theorem UpToDate.mark (h : UpToDate dirty uses fresh) (hmore : dirty ⊆ dirty')
    (hkeep : ∀ e ∈ fresh, (∀ c ∈ uses e, c ∉ dirty') → e ∈ fresh') :
    UpToDate dirty' uses fresh' := by
  intro e he
  exact hkeep e (h e fun c hc hd => he c hc (hmore hd)) he

/-- Some entries are refreshed and flags are cleared: no other entry may lose its last
flag. -/
theorem UpToDate.refresh (h : UpToDate dirty uses fresh) (refreshed : Set Entry)
    (hnew : ∀ e ∈ refreshed, e ∈ fresh')
    (hold : ∀ e ∉ refreshed, uses' e = uses e ∧ (e ∈ fresh → e ∈ fresh'))
    (hlast : ∀ e ∉ refreshed, ∀ c ∈ uses e, c ∈ dirty → ∃ c ∈ uses e, c ∈ dirty') :
    UpToDate dirty' uses' fresh' := by
  intro e he
  by_cases hr : e ∈ refreshed
  · exact hnew e hr
  · obtain ⟨huses, hfresh⟩ := hold e hr
    rw [huses] at he
    refine hfresh (h e fun c hc hd => ?_)
    obtain ⟨c', hc', hd'⟩ := hlast e hr c hc hd
    exact he c' hc' hd'

end MelonDS.DirtyFlags

/-!
## Groups told by a tag on every member

Every cell carries a tag; a live tag names the group of cells that carry it. The
tags are consistent if each live one is on its own group and on all of it. One
assignment keeps that: a tag for a set of cells none of whose groups sticks out.
-/

namespace MelonDS

variable {ι α : Type*} {live : α → Prop} {group : α → Set ι}

structure Grouped (live : α → Prop) (group : α → Set ι) (f : ι → α) : Prop where
  mem : ∀ b, live (f b) → b ∈ group (f b)
  same : ∀ b, live (f b) → ∀ k ∈ group (f b), f k = f b

namespace Grouped

variable {f : ι → α}

/-- Groups that meet are one group. -/
theorem eq_of_mem (h : Grouped live group f) {b c k : ι} (hb : live (f b)) (hc : live (f c))
    (hkb : k ∈ group (f b)) (hkc : k ∈ group (f c)) : f b = f c :=
  (h.same b hb k hkb).symm.trans (h.same c hc k hkc)

theorem assign (h : Grouped live group f) {S : Set ι} [DecidablePred (· ∈ S)] {v : α}
    (hS : ∀ k ∈ S, live (f k) → group (f k) = S) (hv : live v → group v = S) :
    Grouped live group (fun k => if k ∈ S then v else f k) := by
  constructor
  · intro b hb
    by_cases hbS : b ∈ S
    · rw [if_pos hbS] at hb ⊢
      exact (hv hb).symm ▸ hbS
    · rw [if_neg hbS] at hb ⊢
      exact h.mem b hb
  · intro b hb k hk
    by_cases hbS : b ∈ S
    · rw [if_pos hbS] at hb hk ⊢
      rw [if_pos (hv hb ▸ hk)]
    · rw [if_neg hbS] at hb hk ⊢
      have hsame := h.same b hb k hk
      have hkS : k ∉ S := by
        intro hkS
        have hgroup := hS k hkS (hsame.symm ▸ hb)
        rw [hsame] at hgroup
        exact hbS (hgroup ▸ h.mem b hb)
      rw [if_neg hkS]
      exact hsame

end Grouped
end MelonDS

import Mathlib.Data.List.Basic

/-!
# Traces

A trace pairs each input of a run with the state it finds. An invariant kept by every step
whose input meets a condition holds along every trace that meets the condition throughout.
-/

namespace MelonDS

variable {σ α : Type*}

/-- Each input of a run with the state it starts from. -/
def trace (step : σ → α → σ) (s : σ) : List α → List (σ × α)
  | [] => []
  | a :: as => (s, a) :: trace step (step s a) as

variable {step : σ → α → σ}

theorem trace_invariant {P : σ → Prop} {C : σ → α → Prop}
    (hstep : ∀ s a, P s → C s a → P (step s a)) {s : σ} (h : P s) {as : List α}
    (has : ∀ p ∈ trace step s as, C p.1 p.2) : ∀ p ∈ trace step s as, P p.1 ∧ C p.1 p.2 := by
  induction as generalizing s with
  | nil => exact fun _ hp => absurd hp List.not_mem_nil
  | cons a as ih =>
    obtain ⟨ha, hrest⟩ := List.forall_mem_cons.mp has
    exact List.forall_mem_cons.mpr ⟨⟨h, ha⟩, ih (hstep s a h ha) hrest⟩

theorem foldl_invariant {P : σ → Prop} {C : σ → α → Prop}
    (hstep : ∀ s a, P s → C s a → P (step s a)) {s : σ} (h : P s) {as : List α}
    (has : ∀ p ∈ trace step s as, C p.1 p.2) : P (as.foldl step s) := by
  induction as generalizing s with
  | nil => exact h
  | cons a as ih =>
    obtain ⟨ha, hrest⟩ := List.forall_mem_cons.mp has
    exact ih (hstep s a h ha) hrest

theorem mem_of_mem_trace {s : σ} {as : List α} {p : σ × α} (hp : p ∈ trace step s as) :
    p.2 ∈ as := by
  induction as generalizing s with
  | nil => exact absurd hp List.not_mem_nil
  | cons a as ih =>
    rcases List.mem_cons.mp hp with rfl | hrest
    · exact List.mem_cons_self
    · exact List.mem_cons_of_mem a (ih hrest)

theorem length_trace (s : σ) (as : List α) : (trace step s as).length = as.length := by
  induction as generalizing s with
  | nil => rfl
  | cons a as ih => rw [trace, List.length_cons, List.length_cons, ih]

theorem trace_append (s : σ) (as bs : List α) :
    trace step s (as ++ bs) = trace step s as ++ trace step (as.foldl step s) bs := by
  induction as generalizing s with
  | nil => rfl
  | cons a as ih =>
    rw [List.cons_append, trace, ih]
    rfl

theorem mem_trace_of_initial {as bs : List α} (h : as <+: bs) {s : σ} {p : σ × α}
    (hp : p ∈ trace step s as) : p ∈ trace step s bs := by
  obtain ⟨rest, rfl⟩ := h
  rw [trace_append]
  exact List.mem_append_left _ hp

theorem last_mem_trace (s : σ) (as : List α) (a : α) :
    (as.foldl step s, a) ∈ trace step s (as ++ [a]) := by
  induction as generalizing s with
  | nil => exact List.mem_singleton_self _
  | cons first as ih => exact List.mem_cons_of_mem _ (ih (step s first))

end MelonDS

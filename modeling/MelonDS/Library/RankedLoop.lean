import Mathlib.Order.WellFounded

/-!
# Loops with a rank

A loop is given by one turn, which leaves with a result or goes on. An invariant
kept by every turn holds after any number of turns, and a loop each turn of which
lowers a well-founded rank leaves after finitely many.
-/

namespace MelonDS.RankedLoop

variable {S R : Type*} (turn : S → Except R S)

def turns : ℕ → S → Except R S
  | 0, s => .ok s
  | n + 1, s => turn s >>= turns n

variable {turn} {Inv : S → Prop}

theorem turns_inv (hstep : ∀ s s', Inv s → turn s = .ok s' → Inv s') {n : ℕ} {s s' : S}
    (hs : Inv s) (h : turns turn n s = .ok s') : Inv s' := by
  induction n generalizing s with
  | zero =>
    cases h
    exact hs
  | succ n ih =>
    rw [turns] at h
    cases hturn : turn s with
    | error r =>
      rw [hturn] at h
      cases h
    | ok t =>
      rw [hturn] at h
      exact ih (hstep s t hs hturn) h

/-- Turns after turns. -/
theorem turns_add {m : ℕ} {s t : S} (h : turns turn m s = .ok t) (n : ℕ) :
    turns turn (m + n) s = turns turn n t := by
  induction m generalizing s with
  | zero =>
    cases h
    rw [Nat.zero_add]
  | succ m ih =>
    rw [Nat.succ_add, turns]
    rw [turns] at h
    cases hturn : turn s with
    | error r =>
      rw [hturn] at h
      cases h
    | ok s' =>
      rw [hturn] at h
      exact ih h

/-- What every turn's result satisfies, the result of the loop satisfies. -/
theorem turns_exit {Post : R → Prop} (hstep : ∀ s s', Inv s → turn s = .ok s' → Inv s')
    (hexit : ∀ s r, Inv s → turn s = .error r → Post r) {n : ℕ} {s : S} {r : R} (hs : Inv s)
    (h : turns turn n s = .error r) : Post r := by
  induction n generalizing s with
  | zero => cases h
  | succ n ih =>
    rw [turns] at h
    cases hturn : turn s with
    | error e =>
      rw [hturn] at h
      cases h
      exact hexit s _ hs hturn
    | ok t =>
      rw [hturn] at h
      exact ih (hstep s t hs hturn) h

/-- A loop with a rank leaves. -/
theorem exists_exit {W : Type*} {lt : W → W → Prop} (hwf : WellFounded lt) (rank : S → W)
    (hstep : ∀ s s', Inv s → turn s = .ok s' → Inv s' ∧ lt (rank s') (rank s)) {s : S}
    (hs : Inv s) : ∃ n r, turns turn n s = .error r := by
  generalize hw : rank s = w
  induction w using hwf.induction generalizing s with
  | h w ih =>
    cases hturn : turn s with
    | error r => exact ⟨1, r, by rw [turns, hturn]; rfl⟩
    | ok t =>
      obtain ⟨ht, hlt⟩ := hstep s t hs hturn
      obtain ⟨n, r, hr⟩ := ih (rank t) (hw ▸ hlt) ht rfl
      exact ⟨n + 1, r, by rw [turns, hturn]; exact hr⟩

/-- More turns than a loop needs change nothing. -/
theorem turns_of_exit {m n : ℕ} (hmn : m ≤ n) {s : S} {r : R} (h : turns turn m s = .error r) :
    turns turn n s = .error r := by
  induction m generalizing n s with
  | zero => cases h
  | succ m ih =>
    obtain ⟨k, rfl⟩ := Nat.exists_eq_add_of_le' (show 1 ≤ n by omega)
    rw [turns] at h ⊢
    cases hturn : turn s with
    | error e => rwa [hturn] at h
    | ok t =>
      rw [hturn] at h
      exact ih (Nat.le_of_succ_le_succ hmn) h

end MelonDS.RankedLoop

import Mathlib.Data.Fin.Basic
import Mathlib.Data.Nat.ModEq
import Mathlib.Logic.Function.Basic
import Mathlib.Tactic.SplitIfs

/-!
# Windows of a cyclic store

A store of `n` cells is read cyclically: `window mem start len` lists the `len`
cells from position `start` on, wrapping past the last cell. A queue kept in such
a store is a window whose start moves when an element leaves and whose length
grows when one is written just past its end. Positions are natural numbers; only
their residues matter, so cursors may be advanced without wrapping them first.
-/

namespace MelonDS.Cyclic

variable {α : Type*} {n : ℕ} [NeZero n]

/-- The cell a position falls on. -/
def cell (n : ℕ) [NeZero n] (i : ℕ) : Fin n := Fin.ofNat n i

def window (mem : Fin n → α) (start : ℕ) : ℕ → List α
  | 0 => []
  | len + 1 => mem (cell n start) :: window mem (start + 1) len

def writeAll (mem : Fin n → α) (start : ℕ) : List α → Fin n → α
  | [] => mem
  | a :: as => writeAll (Function.update mem (cell n start) a) (start + 1) as

theorem cell_val (i : ℕ) : (cell n i).val = i % n := rfl

theorem cell_eq_cell {i j : ℕ} : cell n i = cell n j ↔ i % n = j % n := by
  rw [Fin.ext_iff, cell_val, cell_val]

@[simp] theorem cell_mod (i : ℕ) : cell n (i % n) = cell n i := by
  rw [cell_eq_cell, Nat.mod_mod]

theorem cell_val_of_lt {i : ℕ} (h : i < n) : (cell n i).val = i := by
  rw [cell_val, Nat.mod_eq_of_lt h]

/-- Two positions less than a full turn apart fall on different cells. -/
theorem cell_ne_of_lt {i j : ℕ} (hij : i < j) (hj : j < i + n) : cell n i ≠ cell n j := by
  rw [Ne, cell_eq_cell]
  intro h
  have hn : 0 < n := Nat.pos_of_neZero n
  obtain ⟨c, hc⟩ : n ∣ j - i := (Nat.modEq_iff_dvd' hij.le).mp h
  rcases Nat.eq_zero_or_pos c with rfl | hpos
  · omega
  · have hle : n * 1 ≤ n * c := Nat.mul_le_mul_left n hpos
    omega

@[simp] theorem window_length (mem : Fin n → α) (start len : ℕ) :
    (window mem start len).length = len := by
  induction len generalizing start with
  | zero => rfl
  | succ len ih => simp only [window, List.length_cons, ih]

@[simp] theorem window_zero (mem : Fin n → α) (start : ℕ) : window mem start 0 = [] := rfl

theorem window_succ (mem : Fin n → α) (start len : ℕ) :
    window mem start (len + 1) = mem (cell n start) :: window mem (start + 1) len := rfl

theorem window_congr (mem : Fin n → α) {i j : ℕ} (h : i % n = j % n) (len : ℕ) :
    window mem i len = window mem j len := by
  induction len generalizing i j with
  | zero => rfl
  | succ len ih =>
    have hc : cell n i = cell n j := cell_eq_cell.mpr h
    have hs : (i + 1) % n = (j + 1) % n := by rw [Nat.add_mod, h, ← Nat.add_mod]
    rw [window_succ, window_succ, hc, ih hs]

@[simp] theorem window_mod (mem : Fin n → α) (start len : ℕ) :
    window mem (start % n) len = window mem start len :=
  window_congr mem (Nat.mod_mod _ _) len

theorem window_add (mem : Fin n → α) (start a b : ℕ) :
    window mem start (a + b) = window mem start a ++ window mem (start + a) b := by
  induction a generalizing start with
  | zero => simp
  | succ a ih =>
    rw [Nat.add_right_comm, window_succ, ih, window_succ, List.cons_append]
    simp only [Nat.add_comm 1 a, Nat.add_assoc]

theorem window_succ_last (mem : Fin n → α) (start len : ℕ) :
    window mem start (len + 1) = window mem start len ++ [mem (cell n (start + len))] := by
  rw [window_add]
  rfl

theorem window_eq_map (mem : Fin n → α) (start len : ℕ) :
    window mem start len = (List.range len).map fun i => mem (cell n (start + i)) := by
  induction len with
  | zero => rfl
  | succ len ih => rw [window_succ_last, List.range_succ, List.map_append, ← ih]; rfl

theorem window_update_outside (mem : Fin n → α) {start len p : ℕ} (a : α)
    (h : ∀ k < len, cell n (start + k) ≠ cell n p) :
    window (Function.update mem (cell n p) a) start len = window mem start len := by
  induction len generalizing start with
  | zero => rfl
  | succ len ih =>
    have h0 : cell n start ≠ cell n p := by simpa using h 0 (Nat.succ_pos _)
    rw [window_succ, window_succ, Function.update_of_ne h0, ih]
    intro k hk
    have hs := h (k + 1) (Nat.succ_lt_succ hk)
    rwa [Nat.add_comm k 1, ← Nat.add_assoc] at hs

/-- Writing just past the end of a window that is not full lengthens it by one. -/
theorem window_push (mem : Fin n → α) {start len : ℕ} (a : α) (h : len < n) :
    window (Function.update mem (cell n (start + len)) a) start (len + 1) =
      window mem start len ++ [a] := by
  rw [window_succ_last, Function.update_self, window_update_outside]
  intro k hk
  exact cell_ne_of_lt (by omega) (by omega)

/-- A block that does not wrap. -/
theorem writeAll_apply (mem : Fin n → α) {p : ℕ} {as : List α} (h : p + as.length ≤ n) (d : α)
    (i : Fin n) :
    writeAll mem p as i =
      if p ≤ i.val ∧ i.val < p + as.length then as.getD (i.val - p) d else mem i := by
  induction as generalizing mem p with
  | nil =>
    rw [writeAll, if_neg]
    simp only [List.length_nil]
    omega
  | cons a as ih =>
    rw [List.length_cons] at h
    have hp : (cell n p).val = p := cell_val_of_lt (by omega)
    rw [writeAll, ih _ (by omega), List.length_cons]
    by_cases hi : i.val = p
    · have hcell : i = cell n p := Fin.ext (hi.trans hp.symm)
      rw [if_neg (by omega), if_pos (by omega), hcell, Function.update_self, hp, Nat.sub_self]
      rfl
    · have hne : i ≠ cell n p := fun hcell => hi (hcell ▸ hp)
      rw [Function.update_of_ne hne]
      by_cases hin : p + 1 ≤ i.val ∧ i.val < p + 1 + as.length
      · have hsub : i.val - p = i.val - (p + 1) + 1 := by omega
        rw [if_pos hin, if_pos (by omega), hsub, List.getD_cons_succ]
      · rw [if_neg hin, if_neg (by omega)]

theorem writeAll_congr (mem : Fin n → α) {i j : ℕ} (h : i % n = j % n) (as : List α) :
    writeAll mem i as = writeAll mem j as := by
  induction as generalizing mem i j with
  | nil => rfl
  | cons a as ih =>
    have hs : (i + 1) % n = (j + 1) % n := by rw [Nat.add_mod, h, ← Nat.add_mod]
    rw [writeAll, writeAll, cell_eq_cell.mpr h, ih _ hs]

theorem writeAll_append (mem : Fin n → α) (p : ℕ) (as bs : List α) :
    writeAll mem p (as ++ bs) = writeAll (writeAll mem p as) (p + as.length) bs := by
  induction as generalizing mem p with
  | nil => rfl
  | cons a as ih =>
    rw [List.cons_append, writeAll, writeAll, ih, List.length_cons]
    congr 1
    omega

/-- Writing a block just past the end of a window with room for it appends the block. -/
theorem window_append_block (mem : Fin n → α) {start len : ℕ} (as : List α)
    (h : len + as.length ≤ n) :
    window (writeAll mem (start + len) as) start (len + as.length) =
      window mem start len ++ as := by
  induction as generalizing mem len with
  | nil => simp [writeAll]
  | cons a as ih =>
    have hl : len + 1 + as.length ≤ n := by simp only [List.length_cons] at h; omega
    have hi := ih (Function.update mem (cell n (start + len)) a) hl
    rw [window_push mem a (by omega)] at hi
    rw [List.length_cons, writeAll, Nat.add_comm as.length 1, ← Nat.add_assoc]
    rw [← Nat.add_assoc] at hi
    rw [hi, List.append_assoc, List.singleton_append]

/-- Every cell is less than a full turn from any position. -/
theorem exists_cell (p : ℕ) (i : Fin n) : ∃ k < n, cell n (p + k) = i := by
  have hn : 0 < n := Nat.pos_of_neZero n
  have hp := Nat.mod_lt p hn
  have hdiv := Nat.div_add_mod p n
  refine ⟨(i.val + n - p % n) % n, Nat.mod_lt _ hn, Fin.ext ?_⟩
  have hsum : p + (i.val + n - p % n) = n * (p / n + 1) + i.val := by
    rw [Nat.mul_succ]
    omega
  rw [cell_val, Nat.add_mod_mod, hsum, Nat.mul_add_mod, Nat.mod_eq_of_lt i.isLt]

/-- Less than a full turn of writes, seen from where it began. -/
theorem writeAll_cell (mem : Fin n → α) (p : ℕ) {as : List α} (h : as.length ≤ n) {k : ℕ}
    (hk : k < n) :
    writeAll mem p as (cell n (p + k)) = as[k]?.getD (mem (cell n (p + k))) := by
  induction as generalizing mem p k with
  | nil => rfl
  | cons a as ih =>
    rw [List.length_cons] at h
    rw [writeAll]
    cases k with
    | zero =>
      have hback : cell n (p + 1 + (n - 1)) = cell n p := by
        rw [cell_eq_cell]
        have hturn : p + 1 + (n - 1) = p + n := by omega
        rw [hturn, Nat.add_mod_right]
      have hlast := ih (Function.update mem (cell n p) a) (p + 1) (by omega)
        (by omega : n - 1 < n)
      rw [hback, List.getElem?_eq_none (by omega), Option.getD_none, Function.update_self] at hlast
      exact hlast
    | succ k =>
      have hne : cell n (p + (k + 1)) ≠ cell n p := (cell_ne_of_lt (by omega) (by omega)).symm
      have hnext := ih (Function.update mem (cell n p) a) (p + 1) (by omega) (by omega : k < n)
      have hplace : p + 1 + k = p + (k + 1) := by omega
      rw [hplace, Function.update_of_ne hne] at hnext
      rw [hnext, List.getElem?_cons_succ]

/-- What holds of every cell after the writes but of none before holds of the last full turn. -/
theorem forall_writeAll_iff {P : α → Prop} {mem : Fin n → α} (hmem : ∀ i, ¬P (mem i)) (p : ℕ)
    (as : List α) :
    (∀ i, P (writeAll mem p as i)) ↔ n ≤ as.length ∧ ∀ a ∈ as.drop (as.length - n), P a := by
  rcases Nat.lt_or_ge as.length n with hlt | hge
  · have hmiss := writeAll_cell mem p hlt.le hlt
    rw [List.getElem?_eq_none (le_refl _), Option.getD_none] at hmiss
    constructor
    · intro h
      exact absurd (hmiss ▸ h _) (hmem _)
    · intro h
      exact absurd h.1 (not_le.mpr hlt)
  · have hlast : (as.drop (as.length - n)).length = n := by
      rw [List.length_drop]
      omega
    have hsplit : writeAll mem p as =
        writeAll (writeAll mem p (as.take (as.length - n)))
          (p + (as.take (as.length - n)).length) (as.drop (as.length - n)) := by
      rw [← writeAll_append, List.take_append_drop]
    rw [hsplit]
    generalize writeAll mem p (as.take (as.length - n)) = before
    generalize p + (as.take (as.length - n)).length = q
    constructor
    · intro h
      refine ⟨hge, fun a ha => ?_⟩
      obtain ⟨k, hk, rfl⟩ := List.getElem_of_mem ha
      have hcell := writeAll_cell before q hlast.le (hlast ▸ hk)
      rw [List.getElem?_eq_getElem hk, Option.getD_some] at hcell
      exact hcell ▸ h _
    · rintro ⟨-, h⟩ i
      obtain ⟨k, hk, rfl⟩ := exists_cell q i
      have hlt : k < (as.drop (as.length - n)).length := hlast.symm ▸ hk
      rw [writeAll_cell before q hlast.le hk, List.getElem?_eq_getElem hlt, Option.getD_some]
      exact h _ (List.getElem_mem hlt)

end MelonDS.Cyclic

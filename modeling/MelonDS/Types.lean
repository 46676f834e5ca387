import Mathlib.Data.BitVec

/-! # Machine integers, under the names of `types.h` -/

namespace MelonDS

abbrev U8 := BitVec 8
abbrev U16 := BitVec 16
abbrev U32 := BitVec 32
abbrev U64 := BitVec 64
abbrev S16 := BitVec 16
abbrev S32 := BitVec 32
abbrev S64 := BitVec 64

/-! Index sizes used across the project, so that each module finds one instance. -/

instance neZero_two : NeZero 2 := ⟨Nat.succ_ne_zero 1⟩
instance neZero_three : NeZero 3 := ⟨Nat.succ_ne_zero 2⟩
instance neZero_four : NeZero 4 := ⟨Nat.succ_ne_zero 3⟩
instance neZero_seven : NeZero 7 := ⟨Nat.succ_ne_zero 6⟩
instance neZero_eight : NeZero 8 := ⟨Nat.succ_ne_zero 7⟩
instance neZero_nine : NeZero 9 := ⟨Nat.succ_ne_zero 8⟩
instance neZero_sixteen : NeZero 16 := ⟨Nat.succ_ne_zero 15⟩
instance neZero_thirtyTwo : NeZero 32 := ⟨Nat.succ_ne_zero 31⟩
instance neZero_sixtyFour : NeZero 64 := ⟨Nat.succ_ne_zero 63⟩
instance neZero_256 : NeZero 256 := ⟨Nat.succ_ne_zero 255⟩

instance decidableMemBitVec {w : ℕ} (x : BitVec w) (xs : List (BitVec w)) : Decidable (x ∈ xs) :=
  inferInstance

/-- `1 << i` at a given width. -/
def bit (w i : ℕ) : BitVec w := BitVec.twoPow w i

@[simp] theorem getLsbD_bit (w i j : ℕ) :
    (bit w i).getLsbD j = (decide (i = j) && decide (j < w)) := by
  simp only [bit, BitVec.getLsbD_twoPow]
  by_cases h : i = j
  · subst h; simp
  · simp [h]

@[simp] theorem getElem_bit (w i : ℕ) {j : ℕ} (h : j < w) : (bit w i)[j] = decide (i = j) := by
  rw [← BitVec.getLsbD_eq_getElem, getLsbD_bit]
  simp [h]

end MelonDS

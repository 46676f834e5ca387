import Mathlib.Data.BitVec
import Mathlib.Data.List.Induction

/-!
# Words sent one bit at a time

A shift register takes bits at its low end, so the first bit sent is the most significant one
of the number that the bits spell.
-/

namespace MelonDS

/-- The number that bits spell, most significant first. -/
def bitsValue (bits : List Bool) : ℕ := bits.foldl (fun n b => 2 * n + b.toNat) 0

theorem bitsValue_concat (bits : List Bool) (b : Bool) :
    bitsValue (bits ++ [b]) = 2 * bitsValue bits + b.toNat := by
  simp [bitsValue]

theorem bitsValue_lt (bits : List Bool) : bitsValue bits < 2 ^ bits.length := by
  induction bits using List.reverseRecOn with
  | nil => exact Nat.one_pos
  | append_singleton bits b ih =>
    have hb := b.toNat_le
    rw [bitsValue_concat, List.length_append, List.length_singleton, Nat.pow_succ]
    omega

/-- The bits of a word, most significant first. -/
def bitsOf {w : ℕ} (v : BitVec w) : List Bool :=
  (List.range w).map fun i => v.getLsbD (w - 1 - i)

@[simp] theorem length_bitsOf {w : ℕ} (v : BitVec w) : (bitsOf v).length = w := by
  simp [bitsOf]

theorem bitsValue_bitsOf {w : ℕ} (v : BitVec w) : bitsValue (bitsOf v) = v.toNat := by
  -- the first k bits spell the number without its low w - k bits
  have hfirst : ∀ k ≤ w, bitsValue ((List.range k).map fun i => v.getLsbD (w - 1 - i)) =
      v.toNat / 2 ^ (w - k) := by
    intro k
    induction k with
    | zero =>
      intro _
      exact (Nat.div_eq_of_lt v.isLt).symm
    | succ k ih =>
      intro hk
      obtain ⟨m, hm⟩ : ∃ m, w - k = m + 1 := ⟨w - k - 1, by omega⟩
      have hbit : (v.getLsbD (w - 1 - k)).toNat = v.toNat / 2 ^ m % 2 := by
        rw [show w - 1 - k = m by omega, BitVec.getLsbD, Nat.testBit_eq_decide_div_mod_eq]
        rcases Nat.mod_two_eq_zero_or_one (v.toNat / 2 ^ m) with h | h
        · simp [h]
        · simp [h]
      rw [List.range_succ, List.map_append, List.map_singleton, bitsValue_concat,
        ih (by omega), hm, hbit, show w - (k + 1) = m by omega, Nat.pow_succ,
        ← Nat.div_div_eq_div_mul]
      omega
  have hall := hfirst w (Nat.le_refl w)
  rwa [Nat.sub_self, Nat.pow_zero, Nat.div_one] at hall

/-- One clock of a shift register. -/
theorem ofNat_shift (w n : ℕ) (b : Bool) :
    BitVec.ofNat w n <<< 1 ||| (BitVec.ofBool b).setWidth w = BitVec.ofNat w (2 * n + b.toNat) := by
  refine BitVec.eq_of_getLsbD_eq fun i hi => ?_
  simp only [BitVec.getLsbD_or, BitVec.getLsbD_shiftLeft, BitVec.getLsbD_setWidth,
    BitVec.getLsbD_ofNat]
  cases i with
  | zero =>
    cases b with
    | false => simp
    | true => simp [hi]
  | succ i =>
    have hdiv : (2 * n + b.toNat) / 2 = n := by
      have hb := b.toNat_le
      omega
    rw [Nat.testBit_succ (2 * n + b.toNat), hdiv, Nat.add_sub_cancel]
    have hi' : i < w := by omega
    simp [hi, hi']

end MelonDS

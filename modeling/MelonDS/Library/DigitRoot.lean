import Mathlib.Data.Nat.Sqrt
import Mathlib.Tactic.Ring

/-!
# Square roots digit by digit

The integer square root of a number grows by one bit for each further pair of bits of the number.
The bit is decided by what the square of the root leaves over, without a new multiplication.
-/

namespace MelonDS.DigitRoot

/-- What the square of the root leaves of a number. -/
def leftOver (p : ℕ) : ℕ := p - p.sqrt * p.sqrt

theorem leftOver_add (p : ℕ) : p.sqrt * p.sqrt + leftOver p = p :=
  Nat.add_sub_cancel' (Nat.sqrt_le p)

theorem leftOver_le (p : ℕ) : leftOver p ≤ 2 * p.sqrt := by
  have hle := Nat.sqrt_le_add p
  have hadd := leftOver_add p
  omega

theorem sqrt_lt_two_pow {p i : ℕ} (h : p < 4 ^ i) : p.sqrt < 2 ^ i := by
  rw [Nat.sqrt_lt, ← Nat.mul_pow]
  exact h

/-- The next bit is set if the square of the longer root is not too large. -/
theorem sqrt_next {p d : ℕ} (hd : d < 4) :
    (4 * p + d).sqrt =
      if 4 * p.sqrt + 1 ≤ 4 * leftOver p + d then 2 * p.sqrt + 1 else 2 * p.sqrt := by
  have hadd := leftOver_add p
  have hle := leftOver_le p
  have hodd : (2 * p.sqrt + 1) * (2 * p.sqrt + 1) = 4 * (p.sqrt * p.sqrt) + 4 * p.sqrt + 1 := by
    ring
  have heven : 2 * p.sqrt * (2 * p.sqrt) = 4 * (p.sqrt * p.sqrt) := by
    ring
  have hafter : (2 * p.sqrt + 1 + 1) * (2 * p.sqrt + 1 + 1) =
      4 * (p.sqrt * p.sqrt) + 8 * p.sqrt + 4 := by
    ring
  symm
  split_ifs with hbit
  · refine Nat.eq_sqrt.mpr ⟨?_, ?_⟩
    · rw [hodd]
      omega
    · rw [hafter]
      omega
  · refine Nat.eq_sqrt.mpr ⟨?_, ?_⟩
    · rw [heven]
      omega
    · rw [hodd]
      omega

/-- What is left over of the longer number. -/
theorem leftOver_next {p d : ℕ} (hd : d < 4) :
    leftOver (4 * p + d) =
      if 4 * p.sqrt + 1 ≤ 4 * leftOver p + d then 4 * leftOver p + d - (4 * p.sqrt + 1)
      else 4 * leftOver p + d := by
  have hadd := leftOver_add p
  have hnext := leftOver_add (4 * p + d)
  rw [sqrt_next hd] at hnext
  have hodd : (2 * p.sqrt + 1) * (2 * p.sqrt + 1) = 4 * (p.sqrt * p.sqrt) + 4 * p.sqrt + 1 := by
    ring
  have heven : 2 * p.sqrt * (2 * p.sqrt) = 4 * (p.sqrt * p.sqrt) := by
    ring
  split_ifs at hnext ⊢ with hbit
  · rw [hodd] at hnext
    omega
  · rw [heven] at hnext
    omega

/-- The numbers whose root has no room for the next bit: they are less than `n` below the square
of the odd number that the bit would give. -/
theorem next_bit_short_iff {p d n : ℕ} (hd : d < 4) (hn : n ≤ 4 * p.sqrt + 1) :
    4 * leftOver p + d < 4 * p.sqrt + 1 ∧ 4 * p.sqrt + 1 ≤ 4 * leftOver p + d + n ↔
      ∃ m, m % 2 = 1 ∧ 4 * p + d < m * m ∧ m * m ≤ 4 * p + d + n := by
  have hadd := leftOver_add p
  have hodd : (2 * p.sqrt + 1) * (2 * p.sqrt + 1) = 4 * (p.sqrt * p.sqrt) + 4 * p.sqrt + 1 := by
    ring
  constructor
  · rintro ⟨hshort, hclose⟩
    refine ⟨2 * p.sqrt + 1, by omega, ?_, ?_⟩
    · rw [hodd]
      omega
    · rw [hodd]
      omega
  · rintro ⟨m, hm, hlt, hle⟩
    have hlower : 2 * p.sqrt < m := by
      by_contra hge
      have hsq : m * m ≤ 2 * p.sqrt * (2 * p.sqrt) := Nat.mul_le_mul (by omega) (by omega)
      have heven : 2 * p.sqrt * (2 * p.sqrt) = 4 * (p.sqrt * p.sqrt) := by
        ring
      omega
    have hupper : m < 2 * p.sqrt + 3 := by
      by_contra hge
      have hsq : (2 * p.sqrt + 3) * (2 * p.sqrt + 3) ≤ m * m :=
        Nat.mul_le_mul (by omega) (by omega)
      have hthree : (2 * p.sqrt + 3) * (2 * p.sqrt + 3) =
          4 * (p.sqrt * p.sqrt) + 12 * p.sqrt + 9 := by
        ring
      have hover := leftOver_le p
      omega
    have hroot : m = 2 * p.sqrt + 1 := by omega
    rw [hroot, hodd] at hlt hle
    omega

end MelonDS.DigitRoot

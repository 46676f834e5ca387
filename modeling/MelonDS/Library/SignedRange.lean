import Mathlib.Data.BitVec

/-!
# Integers and machine words

A word stands for an integer modulo a power of two, so that sums and products of words are those
of the integers they stand for. A sum or a difference leaves the signed range exactly when its
sign is not the one it should have.
-/

namespace MelonDS
variable {w v : ℕ} {z : ℤ}

/-- The integers a signed word holds. -/
def Signed (w : ℕ) (z : ℤ) : Prop := -2 ^ (w - 1) ≤ z ∧ z < 2 ^ (w - 1)

instance (w : ℕ) (z : ℤ) : Decidable (Signed w z) := inferInstanceAs (Decidable (_ ∧ _))

def clamp (w : ℕ) (z : ℤ) : ℤ := max (-2 ^ (w - 1)) (min z (2 ^ (w - 1) - 1))

theorem clamp_of_signed (h : Signed w z) : clamp w z = z := by
  rw [clamp, min_eq_left (Int.le_sub_one_of_lt h.2), max_eq_right h.1]

theorem signed_clamp (w : ℕ) (z : ℤ) : Signed w (clamp w z) := by
  have hpos : (0 : ℤ) < 2 ^ (w - 1) := Int.pow_pos (by decide)
  rw [Signed, clamp]
  omega

theorem toInt_ofInt_of_signed (hw : 0 < w) (h : Signed w z) : (BitVec.ofInt w z).toInt = z :=
  BitVec.toInt_ofInt_eq_self hw h.1 h.2

theorem signed_toInt (x : BitVec w) : Signed w x.toInt := ⟨BitVec.le_toInt x, BitVec.toInt_lt⟩

theorem ofInt_toNat (x : BitVec w) : BitVec.ofInt w x.toNat = x := by
  rw [BitVec.ofInt_natCast, BitVec.ofNat_toNat, BitVec.setWidth_eq]

theorem setWidth_eq_ofInt (x : BitVec w) : x.setWidth v = BitVec.ofInt v x.toNat := by
  rw [BitVec.ofInt_natCast, BitVec.ofNat_toNat]

theorem signExtend_eq_ofInt (x : BitVec w) : x.signExtend v = BitVec.ofInt v x.toInt := rfl

theorem setWidth_signExtend (x : BitVec w) (h : w ≤ v) : (x.signExtend v).setWidth w = x := by
  apply BitVec.eq_of_getElem_eq
  intro i hi
  have hi' : i < v := by omega
  rw [BitVec.getElem_setWidth, BitVec.getLsbD_signExtend, BitVec.getLsbD_eq_getElem hi]
  simp only [hi, hi', decide_true, Bool.true_and, if_true]

theorem add_eq_ofInt (x y : BitVec w) : x + y = BitVec.ofInt w (x.toInt + y.toInt) := by
  rw [BitVec.ofInt_add, BitVec.ofInt_toInt, BitVec.ofInt_toInt]

theorem mul_eq_ofInt (x y : BitVec w) : x * y = BitVec.ofInt w (x.toInt * y.toInt) := by
  rw [BitVec.ofInt_mul, BitVec.ofInt_toInt, BitVec.ofInt_toInt]

theorem sub_eq_ofInt (x y : BitVec w) : x - y = BitVec.ofInt w (x.toInt - y.toInt) := by
  apply BitVec.eq_of_toInt_eq
  rw [BitVec.toInt_sub, BitVec.toInt_ofInt]

theorem msb_and_sign (x : BitVec 32) : (x &&& 0x80000000 ≠ 0) ↔ x.msb = true := by
  rw [BitVec.msb_eq_getLsbD_last]
  constructor
  · intro h
    by_contra hbit
    refine h (BitVec.eq_of_getLsbD_eq fun i hi => ?_)
    have hlast (j : ℕ) : (0x80000000 : BitVec 32).getLsbD j = decide (j = 31) := by
      rw [show (0x80000000 : BitVec 32) = BitVec.twoPow 32 31 by decide, BitVec.getLsbD_twoPow]
      grind
    rw [BitVec.getLsbD_and, hlast]
    change _ = (0#32).getLsbD i
    rw [BitVec.getLsbD_zero]
    by_cases hi' : i = 31
    · subst hi'
      simpa using hbit
    · simp [hi']
  · intro hbit h
    have := congrArg (fun y => BitVec.getLsbD y 31) h
    simp at this hbit
    simp [this] at hbit

theorem msb_and_clear (x : BitVec 32) : x &&& 0x80000000 = 0 ↔ x.msb = false := by
  rw [← Bool.not_eq_true, ← msb_and_sign, not_not]

/-! ## Overflow of 32-bit sums and differences -/

variable (a b : BitVec 32)

theorem toInt_of_msb (x : BitVec 32) :
    x.toInt = if x.msb then (x.toNat : ℤ) - 4294967296 else (x.toNat : ℤ) := by
  rw [BitVec.toInt_eq_msb_cond]
  split_ifs <;> rfl

theorem signed_add_iff :
    ¬Signed 32 (a.toInt + b.toInt) ↔ a.msb = b.msb ∧ a.msb ≠ (a + b).msb := by
  have ha := a.isLt
  have hb := b.isLt
  simp only [Signed, toInt_of_msb, BitVec.msb_eq_decide, BitVec.toNat_add]
  grind

theorem signed_sub_iff :
    ¬Signed 32 (a.toInt - b.toInt) ↔ a.msb ≠ b.msb ∧ a.msb ≠ (a - b).msb := by
  have ha := a.isLt
  have hb := b.isLt
  simp only [Signed, toInt_of_msb, BitVec.msb_eq_decide, BitVec.toNat_sub]
  grind

/-- The limit on the other side of the sign of the word an overflowing result leaves. -/
theorem ofInt_clamp_of_not_signed {z : ℤ} (hlow : -2 ^ 32 ≤ z) (hhigh : z < 2 ^ 32)
    (h : ¬Signed 32 z) :
    (if BitVec.ofInt 32 z &&& 0x80000000 ≠ 0 then 0x7FFFFFFF else 0x80000000) =
      BitVec.ofInt 32 (clamp 32 z) := by
  have hmsb : (BitVec.ofInt 32 z).msb = decide (2 ^ 31 ≤ z % 2 ^ 32) := by
    rw [BitVec.msb_eq_decide, BitVec.toNat_ofInt, decide_eq_decide]
    omega
  rw [Signed] at h
  by_cases hz : z < 0
  · have hclamp : clamp 32 z = -2 ^ 31 := by
      rw [clamp]
      omega
    rw [if_neg, hclamp]
    · rfl
    · rw [msb_and_sign, hmsb, decide_eq_true_iff]
      omega
  · have hclamp : clamp 32 z = 2 ^ 31 - 1 := by
      rw [clamp]
      omega
    rw [if_pos, hclamp]
    · rfl
    · rw [msb_and_sign, hmsb, decide_eq_true_iff]
      omega

end MelonDS

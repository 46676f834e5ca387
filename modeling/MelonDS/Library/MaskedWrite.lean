import MelonDS.Types

/-!
# Writing a register in pieces

A write under a mask takes the bits of the mask from the value and keeps the others. Two such
writes of one value are the write under both masks. A piece that is cut out of a value and
shifted to its place has the value's bits there and zeros elsewhere.
-/

namespace MelonDS.MaskedWrite

variable {w n : ℕ}

/-- `x` with the bits of `mask` taken from `v`. -/
def write (mask v x : BitVec w) : BitVec w := (x &&& ~~~mask) ||| (v &&& mask)

theorem getLsbD_write (mask v x : BitVec w) (i : ℕ) :
    (write mask v x).getLsbD i = if mask.getLsbD i then v.getLsbD i else x.getLsbD i := by
  by_cases hi : i < w
  · simp only [write, BitVec.getLsbD_or, BitVec.getLsbD_and, BitVec.getLsbD_not, hi]
    cases mask.getLsbD i <;> simp
  · simp [BitVec.getLsbD_of_ge _ _ (Nat.le_of_not_lt hi)]

theorem write_write (mask mask' v x : BitVec w) :
    write mask' v (write mask v x) = write (mask ||| mask') v x := by
  apply BitVec.eq_of_getLsbD_eq
  intro i _
  simp only [getLsbD_write, BitVec.getLsbD_or]
  cases mask.getLsbD i <;> cases mask'.getLsbD i <;> rfl

theorem write_allOnes (v x : BitVec w) : write (BitVec.allOnes w) v x = v := by
  apply BitVec.eq_of_getLsbD_eq
  intro i hi
  rw [getLsbD_write, BitVec.getLsbD_allOnes, decide_eq_true hi, if_pos rfl]

/-- Only the bits of the mask matter of the value. -/
theorem write_congr {mask v v' : BitVec w} (h : v &&& mask = v' &&& mask) (x : BitVec w) :
    write mask v x = write mask v' x := by
  rw [write, write, h]

/-- A register that lacks some bits lacks them after each write. -/
theorem write_kept (mask mask' v x kept : BitVec w) :
    write mask' v (write mask v x &&& kept) &&& kept = write (mask ||| mask') v x &&& kept := by
  rw [← write_write]
  apply BitVec.eq_of_getLsbD_eq
  intro i _
  simp only [BitVec.getLsbD_and, getLsbD_write]
  cases mask.getLsbD i <;> cases mask'.getLsbD i <;> cases kept.getLsbD i <;> simp

/-! ## Pieces -/

/-- `len` bits from `pos` on. -/
def field (w pos len : ℕ) : BitVec w := (BitVec.allOnes len).setWidth w <<< pos

theorem getLsbD_field (pos len i : ℕ) :
    (field w pos len).getLsbD i = decide (i < w ∧ pos ≤ i ∧ i < pos + len) := by
  simp only [field, BitVec.getLsbD_shiftLeft, BitVec.getLsbD_setWidth, BitVec.getLsbD_allOnes]
  rw [Bool.eq_iff_iff]
  simp only [Bool.and_eq_true, Bool.not_eq_true', decide_eq_true_eq, decide_eq_false_iff_not]
  omega

theorem shiftLeft_piece (v : BitVec n) {s pos : ℕ} (hs : s ≤ pos) (len : ℕ) :
    ((v >>> s).setWidth len).setWidth w <<< pos =
      (v.setWidth w <<< (pos - s)) &&& field w pos len := by
  apply BitVec.eq_of_getLsbD_eq
  intro i hi
  simp only [BitVec.getLsbD_and, getLsbD_field, BitVec.getLsbD_shiftLeft,
    BitVec.getLsbD_setWidth, BitVec.getLsbD_ushiftRight]
  by_cases hin : pos ≤ i ∧ i < pos + len
  · have hbit : s + (i - pos) = i - (pos - s) := by omega
    simp [hi, hin, hbit, show ¬ i < pos by omega, show ¬ i < pos - s by omega,
      show i - pos < len by omega, show i - pos < w by omega, show i - (pos - s) < w by omega]
  · have hout : i < pos ∨ ¬ i - pos < len := by omega
    simp only [hin, and_false, decide_false, Bool.and_false]
    rcases hout with h | h <;> simp [h]

/-- A piece put back where it was cut out. -/
theorem piece_back (v : BitVec n) (pos len : ℕ) :
    ((v >>> pos).setWidth len).setWidth w <<< pos = v.setWidth w &&& field w pos len := by
  rw [shiftLeft_piece v (le_refl pos), Nat.sub_self, BitVec.shiftLeft_zero]

theorem low_piece (v : BitVec n) (len : ℕ) :
    (v.setWidth len).setWidth w = v.setWidth w &&& field w 0 len := by
  have h := piece_back (w := w) v 0 len
  rwa [BitVec.ushiftRight_zero, BitVec.shiftLeft_zero] at h

theorem low_piece_shiftLeft (v : BitVec n) (pos len : ℕ) :
    (v.setWidth len).setWidth w <<< pos = (v.setWidth w <<< pos) &&& field w pos len := by
  have h := shiftLeft_piece (w := w) v (Nat.zero_le pos) len
  rwa [BitVec.ushiftRight_zero, Nat.sub_zero] at h

end MelonDS.MaskedWrite

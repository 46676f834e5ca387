import Mathlib.Data.Int.Init
import MelonDS.Library.SignedRange
import MelonDS.Types

/-!
# The division unit

`DivDone` divides the numerator by the denominator in one of three widths. The registers are 64
bits wide, the narrow modes use their low halves. Division by zero and the overflow of the least
number by -1 have branches of their own.
-/

namespace MelonDS.NDS

structure DivRegisters where
  divCnt : U16
  divNumerator : U64
  divDenominator : U64
  divQuotient : U64
  divRemainder : U64

namespace DivRegisters

/-- The low half of a register. -/
def low (x : U64) : U32 := x.setWidth 32

/-- Two halves, the high one first. -/
def halves (high low : U32) : U64 := high ++ low

def divide32 (s : DivRegisters) : DivRegisters :=
  let num : S32 := low s.divNumerator
  let den : S32 := low s.divDenominator
  if den = 0 then
    { s with
      divQuotient := halves (if num.slt 0 then -1 else 0) (if num.slt 0 then 1 else -1)
      divRemainder := num.signExtend 64 }
  else if num = 0x80000000 ∧ den = -1 then { s with divQuotient := 0x80000000 }
  else
    { s with
      divQuotient := (num.sdiv den).signExtend 64
      divRemainder := (num.srem den).signExtend 64 }

/-- The two wide modes differ in the denominator only. -/
def divide64 (s : DivRegisters) (den : S64) : DivRegisters :=
  let num : S64 := s.divNumerator
  if den = 0 then
    { s with divQuotient := if num.slt 0 then 1 else -1, divRemainder := num }
  else if num = 0x8000000000000000 ∧ den = -1 then
    { s with divQuotient := 0x8000000000000000, divRemainder := 0 }
  else { s with divQuotient := num.sdiv den, divRemainder := num.srem den }

/-- The mode in the two low bits; there are two codes for the mixed widths. -/
def mode (s : DivRegisters) : ℕ := (s.divCnt &&& 0x0003).toNat

def divDone (s : DivRegisters) : DivRegisters :=
  let s := { s with divCnt := s.divCnt &&& ~~~0xC000 }
  let s :=
    if s.mode = 0 then s.divide32
    else if s.mode = 2 then s.divide64 s.divDenominator
    else s.divide64 ((low s.divDenominator).signExtend 64)
  if s.divDenominator = 0 then { s with divCnt := s.divCnt ||| 0x4000 } else s

/-! ## What is divided -/

/-- The numerator of the mode, in 64 bits. -/
def numerator (s : DivRegisters) : S64 :=
  if s.mode = 0 then (low s.divNumerator).signExtend 64 else s.divNumerator

def denominator (s : DivRegisters) : S64 :=
  if s.mode = 2 then s.divDenominator else (low s.divDenominator).signExtend 64

/-- Registers with the same division to do, whatever the results before. -/
def SameDivision (s t : DivRegisters) : Prop :=
  t.mode = s.mode ∧ t.numerator = s.numerator ∧ t.denominator = s.denominator

/-- The results are those of a division of the numerator by the denominator, modulo 2^64. -/
def Divided (s : DivRegisters) (quotient remainder : S64) : Prop :=
  s.numerator = quotient * s.denominator + remainder ∧
    remainder.toInt.natAbs < s.denominator.toInt.natAbs

/-- The overflow of the narrow mode. -/
def NarrowOverflow (s : DivRegisters) : Prop :=
  s.mode = 0 ∧ low s.divNumerator = 0x80000000 ∧ low s.divDenominator = -1

/-! ## The results -/

theorem low_signExtend (x : S32) : low (x.signExtend 64) = x :=
  setWidth_signExtend x (by decide)

theorem mode_clear (s : DivRegisters) :
    ({ s with divCnt := s.divCnt &&& ~~~0xC000 } : DivRegisters).mode = s.mode := by
  have hbits : s.divCnt &&& ~~~0xC000 &&& 0x0003 = s.divCnt &&& 0x0003 := by
    rw [BitVec.and_assoc]
    rfl
  rw [mode, mode]
  exact congrArg BitVec.toNat hbits

/-- The results of a wide mode come from the numerator and the denominator alone. -/
theorem divide64_results (s t : DivRegisters) (den : S64) (h : t.divNumerator = s.divNumerator) :
    (t.divide64 den).divQuotient = (s.divide64 den).divQuotient ∧
      (t.divide64 den).divRemainder = (s.divide64 den).divRemainder := by
  unfold divide64
  dsimp only
  rw [h]
  split_ifs <;> exact ⟨rfl, rfl⟩

/-- The results, without the flags of the control register. -/
theorem divDone_results (s : DivRegisters) :
    s.divDone.divQuotient =
        (if s.mode = 0 then s.divide32 else s.divide64 s.denominator).divQuotient ∧
      s.divDone.divRemainder =
        (if s.mode = 0 then s.divide32 else s.divide64 s.denominator).divRemainder := by
  have hflag : ∀ t : DivRegisters,
      (if t.divDenominator = 0 then { t with divCnt := t.divCnt ||| 0x4000 } else t).divQuotient =
        t.divQuotient ∧
      (if t.divDenominator = 0 then { t with divCnt := t.divCnt ||| 0x4000 } else t).divRemainder =
        t.divRemainder := by
    intro t
    split_ifs <;> exact ⟨rfl, rfl⟩
  unfold divDone
  dsimp only
  rw [(hflag _).1, (hflag _).2, mode_clear]
  by_cases hnarrow : s.mode = 0
  · rw [if_pos hnarrow, if_pos hnarrow]
    unfold divide32
    dsimp only
    split_ifs <;> exact ⟨rfl, rfl⟩
  · rw [if_neg hnarrow, if_neg hnarrow, denominator]
    by_cases hwide : s.mode = 2
    · rw [if_pos hwide, if_pos hwide]
      exact divide64_results s _ _ rfl
    · rw [if_neg hwide, if_neg hwide]
      exact divide64_results s _ _ rfl

/-- A quotient and a remainder with the values of a truncated division. -/
theorem divided_of_toInt {num den q r : S64} (hden : den ≠ 0)
    (hq : q.toInt = (num.toInt.tdiv den.toInt).bmod (2 ^ 64))
    (hr : r.toInt = num.toInt.tmod den.toInt) :
    num = q * den + r ∧ r.toInt.natAbs < den.toInt.natAbs := by
  have hne : den.toInt ≠ 0 := fun h => hden (BitVec.toInt_inj.mp (h.trans BitVec.toInt_zero.symm))
  constructor
  · apply BitVec.eq_of_toInt_eq
    have hwrap : ∀ x d e : ℤ, (x.bmod (2 ^ 64) * d + e).bmod (2 ^ 64) =
        (x * d + e).bmod (2 ^ 64) := by
      intro x d e
      rw [← Int.bmod_add_bmod, Int.bmod_mul_bmod, Int.bmod_add_bmod]
    rw [BitVec.toInt_add, BitVec.toInt_mul, hq, hr, Int.bmod_add_bmod, hwrap, Int.mul_comm,
      Int.mul_tdiv_add_tmod, BitVec.toInt_bmod_cancel]
  · rw [hr, Int.natAbs_tmod]
    exact Nat.mod_lt _ (Int.natAbs_pos.mpr hne)

theorem divide64_divided (s : DivRegisters) {den : S64} (hden : den ≠ 0) :
    s.divNumerator = (s.divide64 den).divQuotient * den + (s.divide64 den).divRemainder ∧
      (s.divide64 den).divRemainder.toInt.natAbs < den.toInt.natAbs := by
  unfold divide64
  dsimp only
  rw [if_neg hden]
  split_ifs with hover
  · refine divided_of_toInt hden ?_ ?_
    · rw [hover.1, hover.2]
      rfl
    · rw [hover.1, hover.2]
      rfl
  · exact divided_of_toInt hden (BitVec.toInt_sdiv ..) (BitVec.toInt_srem ..)

theorem divide32_divided (s : DivRegisters) (hden : low s.divDenominator ≠ 0)
    (hover : ¬(low s.divNumerator = 0x80000000 ∧ low s.divDenominator = -1)) :
    (low s.divNumerator).signExtend 64 =
        s.divide32.divQuotient * (low s.divDenominator).signExtend 64 + s.divide32.divRemainder ∧
      s.divide32.divRemainder.toInt.natAbs <
        ((low s.divDenominator).signExtend 64).toInt.natAbs := by
  have hext : ∀ x : S32, (x.signExtend 64).toInt = x.toInt := fun x =>
    BitVec.toInt_signExtend_of_le (by decide)
  have hden64 : (low s.divDenominator).signExtend 64 ≠ 0 := fun h =>
    hden (((low_signExtend _).symm.trans (congrArg low h)).trans rfl)
  unfold divide32
  dsimp only
  rw [if_neg hden, if_neg hover]
  generalize low s.divNumerator = num at hover
  generalize low s.divDenominator = den at hover hden64
  refine divided_of_toInt hden64 ?_ ?_
  · have hexact : (num.sdiv den).toInt = num.toInt.tdiv den.toInt := by
      apply BitVec.toInt_sdiv_of_ne_or_ne
      by_cases hnum : num = 0x80000000
      · exact .inr fun h => hover ⟨hnum, h⟩
      · exact .inl fun h => hnum h
    rw [hext, hext, hext, hexact]
    have hle := (num.sdiv den).toInt_lt
    have hge := (num.sdiv den).le_toInt
    rw [hexact] at hle hge
    rw [Int.bmod_eq_of_le_mul_two] <;> omega
  · rw [hext, hext, hext, BitVec.toInt_srem]

/-! ## The unit -/

theorem numerator_of_narrow {s : DivRegisters} (h : s.mode = 0) :
    low s.numerator = low s.divNumerator := by
  rw [numerator, if_pos h, low_signExtend]

theorem denominator_of_narrow {s : DivRegisters} (h : s.mode = 0) :
    s.denominator = (low s.divDenominator).signExtend 64 := by
  rw [denominator, if_neg (by omega)]

/-- The narrow mode writes both results unless it overflows. -/
theorem divide32_results {s t : DivRegisters} (hnum : low t.divNumerator = low s.divNumerator)
    (hden : low t.divDenominator = low s.divDenominator)
    (hover : ¬(low s.divNumerator = 0x80000000 ∧ low s.divDenominator = -1)) :
    t.divide32.divQuotient = s.divide32.divQuotient ∧
      t.divide32.divRemainder = s.divide32.divRemainder := by
  unfold divide32
  dsimp only
  rw [hnum, hden, if_neg hover, if_neg hover]
  split_ifs <;> exact ⟨rfl, rfl⟩

/-- Where the narrow mode overflows the remainder is the one before. -/
theorem remainder_of_overflow {s : DivRegisters} (h : s.NarrowOverflow) :
    s.divDone.divRemainder = s.divRemainder := by
  obtain ⟨hmode, hnum, hden⟩ := h
  rw [(divDone_results s).2, if_pos hmode]
  unfold divide32
  dsimp only
  rw [hnum, hden]
  rfl

/-- Both results are functions of the division, and right unless the denominator is zero, except
where the narrow mode overflows: there the remainder stays what it was. -/
theorem divDone_iff (s : DivRegisters) :
    ((∀ t, SameDivision s t → t.divDone.divQuotient = s.divDone.divQuotient ∧
        t.divDone.divRemainder = s.divDone.divRemainder) ∧
      (s.denominator ≠ 0 → s.Divided s.divDone.divQuotient s.divDone.divRemainder)) ↔
      ¬s.NarrowOverflow := by
  constructor
  · rintro ⟨hsame, -⟩ hover
    have hother : ({ s with divRemainder := s.divRemainder + 1 } : DivRegisters).NarrowOverflow :=
      hover
    have hrem := (hsame { s with divRemainder := s.divRemainder + 1 } ⟨rfl, rfl, rfl⟩).2
    rw [remainder_of_overflow hover, remainder_of_overflow hother] at hrem
    have hother' : s.divRemainder + 1 ≠ s.divRemainder := by
      intro h
      bv_omega
    exact hother' hrem
  · intro hover
    rw [(divDone_results s).1, (divDone_results s).2]
    by_cases hmode : s.mode = 0
    · have hpair : ¬(low s.divNumerator = 0x80000000 ∧ low s.divDenominator = -1) :=
        fun h => hover ⟨hmode, h⟩
      rw [if_pos hmode]
      refine ⟨?_, fun hden => ?_⟩
      · rintro t ⟨htmode, htnum, htden⟩
        have htmode0 : t.mode = 0 := htmode.trans hmode
        rw [(divDone_results t).1, (divDone_results t).2, if_pos htmode0]
        refine divide32_results ?_ ?_ hpair
        · rw [← numerator_of_narrow htmode0, htnum, numerator_of_narrow hmode]
        · rw [denominator_of_narrow htmode0, denominator_of_narrow hmode] at htden
          rw [← low_signExtend (low t.divDenominator), htden, low_signExtend]
      · rw [denominator_of_narrow hmode] at hden
        have hlow : low s.divDenominator ≠ 0 := fun h => hden (by rw [h]; rfl)
        rw [Divided, numerator, if_pos hmode, denominator_of_narrow hmode]
        exact divide32_divided s hlow hpair
    · rw [if_neg hmode]
      refine ⟨?_, fun hden => ?_⟩
      · rintro t ⟨htmode, htnum, htden⟩
        have htmode' : ¬t.mode = 0 := fun h => hmode (htmode.symm.trans h)
        rw [numerator, numerator, if_neg htmode', if_neg hmode] at htnum
        rw [(divDone_results t).1, (divDone_results t).2, if_neg htmode', htden]
        exact divide64_results s t _ htnum
      · rw [Divided, numerator, if_neg hmode]
        exact divide64_divided s hden

/-- The least number divided by -1 in the narrow mode, after a division that has left 7. -/
theorem divDone_leaks :
    let s : DivRegisters := ⟨0, 0x80000000, 0xFFFFFFFF, 0, 7⟩
    s.denominator ≠ 0 ∧ s.divDone.divRemainder = 7 ∧
      { s with divRemainder := 0 }.divDone.divRemainder = 0 ∧
      s.numerator ≠ s.divDone.divQuotient * s.denominator + s.divDone.divRemainder := by
  decide

end DivRegisters
end MelonDS.NDS

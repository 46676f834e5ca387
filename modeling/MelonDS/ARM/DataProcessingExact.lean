import MelonDS.ARM.DataProcessing
import MelonDS.ARM.MultiplyExact

/-!
# Data processing is exact

Whatever the operation, the operand form and the operands, the result is the exact one and the
flags describe it.
-/

namespace MelonDS.ARM

variable {σ : Type*} {core : Core σ} {instr : U32} {c c₁ : CPU σ} {k : Bool}

/-! ## Flags -/

namespace CPU

theorem getLsbD_setC (carry : Bool) (c : CPU σ) (i : ℕ) :
    (c.setC carry).cpsr.getLsbD i = if i = 29 then carry else c.cpsr.getLsbD i := by
  cases carry with
  | false => exact getLsbD_clearC c i
  | true =>
    by_cases hi : i < 32
    · change (c.cpsr ||| 0x20000000).getLsbD i = _
      interval_cases i <;> simp
    · rw [BitVec.getLsbD_of_ge _ _ (Nat.not_lt.mp hi), BitVec.getLsbD_of_ge _ _ (Nat.not_lt.mp hi),
        if_neg (by omega)]

theorem getLsbD_setNZCV (n z carry overflow : Bool) (c : CPU σ) (i : ℕ) :
    (c.setNZCV n z carry overflow).cpsr.getLsbD i =
      if i = 31 then n else if i = 30 then z else if i = 29 then carry
      else if i = 28 then overflow else c.cpsr.getLsbD i := by
  by_cases hi : i < 32
  · change ((c.cpsr &&& ~~~0xF0000000) ||| (if n then 0x80000000 else 0) |||
      (if z then 0x40000000 else 0) ||| (if carry then 0x20000000 else 0) |||
      if overflow then 0x10000000 else 0).getLsbD i = _
    interval_cases i <;> cases n <;> cases z <;> cases carry <;> cases overflow <;> simp
  · rw [BitVec.getLsbD_of_ge _ _ (Nat.not_lt.mp hi), BitVec.getLsbD_of_ge _ _ (Nat.not_lt.mp hi)]
    simp [show i ≠ 31 by omega, show i ≠ 30 by omega, show i ≠ 29 by omega, show i ≠ 28 by omega]

end CPU

/-- A bit of a word, as C tests it. -/
theorem and_bit_ne_zero (x : U32) (i : ℕ) : (x &&& (1 : U32) <<< i ≠ 0) ↔ x.getLsbD i = true := by
  change x &&& 1#32 <<< i ≠ 0 ↔ _
  rw [← BitVec.twoPow_eq, BitVec.and_twoPow]
  split_ifs with h
  · simp only [h, iff_true]
    intro hzero
    have := congrArg (fun y : U32 => y.getLsbD i) hzero
    rw [BitVec.getLsbD_twoPow] at this
    have hlt := BitVec.lt_of_getLsbD h
    simp [hlt] at this
  · simpa using h

theorem carryFlag_eq (c : CPU σ) : c.carryFlag = c.cpsr.getLsbD 29 := by
  rw [CPU.carryFlag, Bool.eq_iff_iff, decide_eq_true_iff]
  exact and_bit_ne_zero c.cpsr 29

/-! ## Sums and differences -/

namespace Sum

/-- The result and the flags are those of the exact sum or difference. -/
structure Exact (op : Arith) (a b : U32) (k : Bool) (r : Sum) : Prop where
  res : r.res = BitVec.ofInt 32 (op.exact a.toNat b.toNat k.toNat)
  carry : r.carry = decide (op.carryOut (op.exact a.toNat b.toNat k.toNat))
  overflow : r.overflow = decide ¬Signed 32 (op.exact a.toInt b.toInt k.toNat)

end Sum

theorem add_eq_ofInt_toNat (a b : U32) : a + b = BitVec.ofInt 32 (a.toNat + b.toNat) := by
  rw [BitVec.ofInt_add, ofInt_toNat, ofInt_toNat]

theorem sub_eq_ofInt_toNat (a b : U32) : a - b = BitVec.ofInt 32 (a.toNat - b.toNat) := by
  have ha := a.isLt
  have hb := b.isLt
  apply BitVec.eq_of_toNat_eq
  rw [BitVec.toNat_sub, BitVec.toNat_ofInt]
  omega

theorem carryAdd_iff (a b : U32) : carryAdd a b = true ↔ 2 ^ 32 ≤ a.toNat + b.toNat := by
  have ha := a.isLt
  have hb := b.isLt
  rw [carryAdd, decide_eq_true_iff, BitVec.lt_def, BitVec.toNat_sub]
  simp
  omega

theorem carrySub_iff (a b : U32) : carrySub a b = true ↔ b.toNat ≤ a.toNat := by
  rw [carrySub, decide_eq_true_iff]
  exact BitVec.le_def

theorem ofInt_sub {w : ℕ} (y z : ℤ) :
    BitVec.ofInt w y - BitVec.ofInt w z = BitVec.ofInt w (y - z) := by
  apply BitVec.eq_of_toInt_eq
  simp [BitVec.toInt_sub]

/-- A sum of 33 bits and a sign is exact in 64 bits, and comes back from 32 bits when it fits. -/
theorem signExtend_ne_iff {z : ℤ} (hlow : -2 ^ 40 ≤ z) (hhigh : z < 2 ^ 40) :
    (BitVec.ofInt 32 z).signExtend 64 ≠ BitVec.ofInt 64 z ↔ ¬Signed 32 z := by
  refine not_congr ⟨fun h => ?_, fun h => ?_⟩
  · have hz := congrArg BitVec.toInt h
    rw [signExtend_eq_ofInt] at hz
    have hin := signed_toInt (BitVec.ofInt 32 z)
    have hsame : (BitVec.ofInt 32 z).toInt = z := by
      rw [Signed] at hin
      rwa [toInt_ofInt_of_signed (by decide) (show Signed 64 z by rw [Signed]; omega),
        toInt_ofInt_of_signed (by decide) (show Signed 64 _ by rw [Signed]; omega)] at hz
    exact hsame ▸ hin
  · rw [signExtend_eq_ofInt, toInt_ofInt_of_signed (by decide) h]

theorem overflowAdc_iff (a b : U32) (k : Bool) :
    overflowAdc a b (if k then 1 else 0) = true ↔ ¬Signed 32 (a.toInt + b.toInt + k.toNat) := by
  have ha := signed_toInt a
  have hb := signed_toInt b
  have hk : k.toNat ≤ 1 := k.toNat_le
  have hcarry (w : ℕ) : ((if k then 1 else 0 : U32).setWidth w) = BitVec.ofInt w k.toNat := by
    cases k <;> simp [setWidth_eq_ofInt]
  have hsum : a + b + (if k then 1 else 0) = BitVec.ofInt 32 (a.toInt + b.toInt + k.toNat) := by
    have := hcarry 32
    rw [BitVec.setWidth_eq] at this
    rw [this, add_eq_ofInt a b, ← BitVec.ofInt_add]
  rw [Signed] at ha hb
  rw [overflowAdc, decide_eq_true_iff, hcarry, signExtend_eq_ofInt a, signExtend_eq_ofInt b,
    ← BitVec.ofInt_add, ← BitVec.ofInt_add, hsum]
  exact signExtend_ne_iff (by omega) (by omega)

theorem overflowSbc_iff (a b : U32) (k : Bool) :
    overflowSbc a b (if k then 0 else 1) = true ↔
      ¬Signed 32 (a.toInt - b.toInt - (1 - k.toNat)) := by
  have ha := signed_toInt a
  have hb := signed_toInt b
  have hk : k.toNat ≤ 1 := k.toNat_le
  have hborrow (w : ℕ) :
      ((if k then 0 else 1 : U32).setWidth w) = BitVec.ofInt w (1 - k.toNat) := by
    cases k <;> simp [setWidth_eq_ofInt]
  have hdiff : a - b - (if k then 0 else 1) =
      BitVec.ofInt 32 (a.toInt - b.toInt - (1 - k.toNat)) := by
    have := hborrow 32
    rw [BitVec.setWidth_eq] at this
    rw [this, sub_eq_ofInt a b, ofInt_sub]
  rw [Signed] at ha hb
  rw [overflowSbc, decide_eq_true_iff, hborrow, signExtend_eq_ofInt a, signExtend_eq_ofInt b,
    ofInt_sub, ofInt_sub, hdiff]
  exact signExtend_ne_iff (by omega) (by omega)

section
variable (a b : U32) (k : Bool)

theorem sumAdd_exact : (sumAdd a b).Exact .add a b k := by
  refine ⟨add_eq_ofInt_toNat a b, ?_, ?_⟩
  · rw [Bool.eq_iff_iff, decide_eq_true_iff]
    refine (carryAdd_iff a b).trans ?_
    simp only [Arith.carryOut, Arith.adds, Arith.exact, if_true]
    omega
  · rw [Bool.eq_iff_iff, decide_eq_true_iff]
    exact overflowAdd_iff a b

theorem sumSub_exact : (sumSub a b).Exact .sub a b k := by
  refine ⟨sub_eq_ofInt_toNat a b, ?_, ?_⟩
  · rw [Bool.eq_iff_iff, decide_eq_true_iff]
    refine (carrySub_iff a b).trans ?_
    simp only [Arith.carryOut, Arith.adds, Arith.exact, Bool.false_eq_true, if_false]
    omega
  · rw [Bool.eq_iff_iff, decide_eq_true_iff]
    exact overflowSub_iff a b

theorem toNat_flag : (if k then 1 else 0 : U32).toNat = k.toNat := by
  cases k <;> rfl

/-- The carry of the sum with the flag is that of one of the two sums, never of both. -/
theorem sumAdc_exact : (sumAdc a b k).Exact .adc a b k := by
  have ha := a.isLt
  have hb := b.isLt
  have hk : k.toNat ≤ 1 := k.toNat_le
  refine ⟨?_, ?_, ?_⟩
  · change a + b + (if k then 1 else 0) = _
    rw [add_eq_ofInt_toNat a b, ← ofInt_toNat (if k then 1 else 0 : U32), ← BitVec.ofInt_add,
      toNat_flag]
    rfl
  · rw [Bool.eq_iff_iff, decide_eq_true_iff]
    change (carryAdd a b || carryAdd (a + b) (if k then 1 else 0)) = true ↔ _
    rw [Bool.or_eq_true, carryAdd_iff, carryAdd_iff, toNat_flag, BitVec.toNat_add]
    simp only [Arith.carryOut, Arith.adds, Arith.exact, if_true]
    omega
  · rw [Bool.eq_iff_iff, decide_eq_true_iff]
    exact overflowAdc_iff a b k

theorem toNat_borrow : ((if k then 0 else 1 : U32).toNat : ℤ) = 1 - k.toNat := by
  cases k <;> rfl

theorem sumSbc_exact : (sumSbc a b k).Exact .sbc a b k := by
  have ha := a.isLt
  have hb := b.isLt
  have hk : k.toNat ≤ 1 := k.toNat_le
  have hborrow := toNat_borrow k
  refine ⟨?_, ?_, ?_⟩
  · change a - b - (if k then 0 else 1) = _
    rw [sub_eq_ofInt_toNat a b, ← ofInt_toNat (if k then 0 else 1 : U32), ofInt_sub, hborrow]
    rfl
  · rw [Bool.eq_iff_iff, decide_eq_true_iff]
    change (carrySub a b && carrySub (a - b) (if k then 0 else 1)) = true ↔ _
    rw [Bool.and_eq_true, carrySub_iff, carrySub_iff, BitVec.toNat_sub]
    simp only [Arith.carryOut, Arith.adds, Arith.exact, Bool.false_eq_true, if_false]
    omega
  · rw [Bool.eq_iff_iff, decide_eq_true_iff]
    exact overflowSbc_iff a b k

end

/-! ## Shifts -/

/-- Only the carry has changed. -/
structure Carries (carry : Bool) (c c₁ : CPU σ) : Prop where
  cells : c₁.cells = c.cells
  cpsr : ∀ i, c₁.cpsr.getLsbD i = if i = 29 then carry else c.cpsr.getLsbD i
  bus : c₁.bus = c.bus
  highVectors : c₁.highVectors = c.highVectors

theorem Carries.refl (c : CPU σ) : Carries c.carryFlag c c := by
  refine ⟨rfl, fun i => ?_, rfl, rfl⟩
  split_ifs with hi
  · rw [hi, carryFlag_eq]
  · rfl

theorem Carries.setC (carry : Bool) (c : CPU σ) : Carries carry c (c.setC carry) :=
  ⟨rfl, CPU.getLsbD_setC carry c, rfl, rfl⟩

/-- A shifter's value and carry. -/
structure Shifts (shift : Shift) (s : Bool) (x : U32) (c : CPU σ) (r : U32 × CPU σ) : Prop where
  value : r.1 = BitVec.ofInt 32 (shift.exact x c.carryFlag)
  carries : Carries (if s then shift.carryOut x c.carryFlag else c.carryFlag) c r.2

section
variable (x : U32) (n : ℕ) (k : Bool)

theorem lsl_value : x <<< n = BitVec.ofInt 32 (ShiftOp.exact x n .lsl) := by
  apply BitVec.eq_of_toNat_eq
  rw [ShiftOp.exact, BitVec.toNat_shiftLeft, Nat.shiftLeft_eq]
  have : ((x.toNat * 2 ^ n : ℤ)) = ((x.toNat * 2 ^ n : ℕ) : ℤ) := by push_cast; rfl
  rw [this, BitVec.ofInt_natCast, BitVec.toNat_ofNat]

theorem lsr_value : x >>> n = BitVec.ofInt 32 (ShiftOp.exact x n .lsr) := by
  apply BitVec.eq_of_toNat_eq
  rw [ShiftOp.exact, BitVec.toNat_ushiftRight, Nat.shiftRight_eq_div_pow]
  have : ((x.toNat / 2 ^ n : ℤ)) = ((x.toNat / 2 ^ n : ℕ) : ℤ) := by push_cast; rfl
  rw [this, BitVec.ofInt_natCast, BitVec.toNat_ofNat,
    Nat.mod_eq_of_lt (lt_of_le_of_lt (Nat.div_le_self _ _) x.isLt)]

theorem asr_value : x.sshiftRight n = BitVec.ofInt 32 (ShiftOp.exact x n .asr) := by
  rw [← BitVec.ofInt_toInt (x := x.sshiftRight n), BitVec.toInt_sshiftRight,
    Int.shiftRight_eq_div_pow]
  rfl

/-- Only the sign is left beyond the last bit. -/
theorem asr_value_of_le (hn : 31 ≤ n) : x.sshiftRight 31 = x.sshiftRight n := by
  apply BitVec.eq_of_getLsbD_eq
  intro i hi
  rw [BitVec.getLsbD_sshiftRight, BitVec.getLsbD_sshiftRight]
  have hmsb : x.msb = x.getLsbD 31 := BitVec.msb_eq_getLsbD_last x
  by_cases h0 : i = 0
  · subst h0
    by_cases hn31 : n = 31
    · rw [hn31]
    · simp [hmsb, show ¬n < 32 by omega]
  · simp [show ¬31 + i < 32 by omega, show ¬n + i < 32 by omega]

theorem and_31 : n &&& 0x1F = n % 32 := Nat.and_two_pow_sub_one_eq_mod n 5

/-- The two parts of a rotation have no bit in common. -/
theorem ror_value : ror x n = BitVec.ofInt 32 (ShiftOp.exact x n .ror) := by
  have hdisjoint : x >>> (n % 32) &&& x <<< (32 - n % 32) = 0#32 := by
    apply BitVec.eq_of_getLsbD_eq
    intro i hi
    rw [BitVec.getLsbD_and, BitVec.getLsbD_ushiftRight, BitVec.getLsbD_shiftLeft,
      BitVec.getLsbD_zero]
    by_cases hlow : i < 32 - n % 32
    · simp [hlow]
    · rw [BitVec.getLsbD_of_ge x (n % 32 + i) (by omega), Bool.false_and]
  rw [ror, and_31, BitVec.rotateRight_def, Nat.mod_mod,
    ← BitVec.add_eq_or_of_and_eq_zero _ _ hdisjoint, lsr_value, lsl_value, ← BitVec.ofInt_add]
  rfl

/-! The last bit shifted out. -/

theorem getLsbD_eq_testBit (i : ℕ) : x.getLsbD i = x.toNat.testBit i := rfl

theorem lsl_carry (hn : 0 < n) :
    ShiftOp.carryOut x n k .lsl = (decide (n ≤ 32) && x.getLsbD (32 - n)) := by
  rw [ShiftOp.carryOut, if_neg (by omega)]
  rw [Nat.testBit_mul_two_pow]
  rfl

theorem lsr_carry (hn : 0 < n) : ShiftOp.carryOut x n k .lsr = x.getLsbD (n - 1) := by
  rw [ShiftOp.carryOut, if_neg (by omega)]
  rfl

theorem asr_carry (hn : 0 < n) :
    ShiftOp.carryOut x n k .asr = if n ≤ 32 then x.getLsbD (n - 1) else x.getLsbD 31 := by
  rw [ShiftOp.carryOut, if_neg (by omega), Bool.eq_iff_iff]
  have hbit : (x.sshiftRight (n - 1)).getLsbD 0 =
      if n ≤ 32 then x.getLsbD (n - 1) else x.getLsbD 31 := by
    rw [BitVec.getLsbD_sshiftRight, BitVec.msb_eq_getLsbD_last]
    by_cases h : n ≤ 32
    · simp [h, show n - 1 < 32 by omega]
    · simp [h, show ¬n - 1 < 32 by omega]
  have hint : (x.sshiftRight (n - 1)).toInt = x.toInt / 2 ^ (n - 1) := by
    rw [BitVec.toInt_sshiftRight, Int.shiftRight_eq_div_pow]
    rfl
  rw [← hbit, ← hint, decide_eq_true_iff, getLsbD_eq_testBit, Nat.testBit_zero, decide_eq_true_iff]
  rw [toInt_of_msb]
  split_ifs <;> omega

theorem ror_carry (hn : 0 < n) : ShiftOp.carryOut x n k .ror = x.getLsbD ((n - 1) % 32) := by
  rw [ShiftOp.carryOut, if_neg (by omega)]
  rfl

theorem carryOut_zero (op : ShiftOp) : ShiftOp.carryOut x 0 k op = k := if_pos rfl

end

theorem carries_setCBit (x : U32) (i : ℕ) (c : CPU σ) : Carries (x.getLsbD i) c (setCBit x i c) := by
  have hbit : decide (x &&& (1 : U32) <<< i ≠ 0) = x.getLsbD i := by
    rw [Bool.eq_iff_iff, decide_eq_true_iff]
    exact and_bit_ne_zero x i
  rw [← hbit]
  exact .setC _ c

theorem rrx_value (x : U32) (c : CPU σ) :
    x >>> 1 ||| (c.cpsr &&& 0x20000000) <<< 2 = BitVec.ofInt 32 (Shift.rrx.exact x c.carryFlag) := by
  have hbit : (c.cpsr &&& 0x20000000) <<< 2 = if c.carryFlag then 0x80000000#32 else 0#32 := by
    rw [carryFlag_eq, show (0x20000000 : U32) = BitVec.twoPow 32 29 by decide, BitVec.and_twoPow]
    split_ifs
    · decide
    · decide
  have hdisjoint : x >>> 1 &&& 0x80000000#32 = 0#32 := by
    refine (msb_and_clear (x >>> 1)).mpr ?_
    rw [BitVec.msb_eq_getLsbD_last, BitVec.getLsbD_ushiftRight,
      BitVec.getLsbD_of_ge x _ (by omega)]
  have hhalf : Shift.rrx.exact x c.carryFlag =
      ShiftOp.exact x 1 .lsr + 2 ^ 31 * c.carryFlag.toNat := by
    rw [Shift.exact, ShiftOp.exact]
    omega
  rw [hbit, hhalf, BitVec.ofInt_add, ← lsr_value]
  cases c.carryFlag with
  | false =>
    rw [if_neg Bool.false_ne_true, BitVec.or_zero]
    exact (BitVec.add_zero _).symm
  | true =>
    rw [if_pos rfl, ← BitVec.add_eq_or_of_and_eq_zero _ _ hdisjoint]
    rfl

namespace Shifts
variable {shift : Shift} {s : Bool} {x v : U32}

theorem keep (hvalue : v = BitVec.ofInt 32 (shift.exact x c.carryFlag))
    (hcarry : s = true → shift.carryOut x c.carryFlag = c.carryFlag) :
    Shifts shift s x c (v, c) := by
  refine ⟨hvalue, ?_⟩
  cases s with
  | false => exact .refl c
  | true =>
    rw [if_pos rfl, hcarry rfl]
    exact .refl c

theorem setBit {i : ℕ} (hvalue : v = BitVec.ofInt 32 (shift.exact x c.carryFlag))
    (hcarry : shift.carryOut x c.carryFlag = x.getLsbD i) :
    Shifts shift true x c (v, setCBit x i c) := by
  refine ⟨hvalue, ?_⟩
  rw [if_pos rfl, hcarry]
  exact carries_setCBit x i c

end Shifts

theorem shiftRight_of_ge (x : U32) {n : ℕ} (hn : 31 < n) : x >>> n = 0 := by
  apply BitVec.eq_of_getLsbD_eq
  intro i hi
  rw [BitVec.getLsbD_ushiftRight, BitVec.getLsbD_of_ge x _ (by omega)]
  exact BitVec.getLsbD_zero.symm

theorem shifts_lslImm (s : Bool) (x : U32) {n : ℕ} (hn : n < 32) (c : CPU σ) :
    Shifts (.places .lsl n) s x c (ShiftOp.imm .lsl s x n c) := by
  cases s with
  | false => exact .keep (lsl_value x n) nofun
  | true =>
    rw [ShiftOp.imm, if_pos rfl, lslImmS]
    split_ifs with hpos
    · refine .setBit (lsl_value x n) ?_
      rw [Shift.carryOut, lsl_carry _ _ _ hpos, decide_eq_true hn.le, Bool.true_and]
    · obtain rfl : n = 0 := by omega
      exact .keep ((BitVec.shiftLeft_zero x).symm.trans (lsl_value x 0))
        fun _ => carryOut_zero x _ .lsl

theorem shifts_lsrImm (s : Bool) (x : U32) (n : ℕ) (c : CPU σ) :
    Shifts (.ofImm .lsr n) s x c (ShiftOp.imm .lsr s x n c) := by
  rw [Shift.ofImm]
  by_cases hzero : n = 0
  · subst hzero
    have hvalue : (0 : U32) = BitVec.ofInt 32 (ShiftOp.exact x 32 .lsr) := by
      rw [← lsr_value, shiftRight_of_ge x (by decide)]
    cases s with
    | false => exact .keep hvalue nofun
    | true => exact .setBit hvalue (lsr_carry x 32 _ (by decide))
  · rw [if_neg hzero]
    cases s with
    | false =>
      rw [ShiftOp.imm, if_neg Bool.false_ne_true, lsrImm, if_neg hzero]
      exact .keep (lsr_value x n) nofun
    | true =>
      rw [ShiftOp.imm, if_pos rfl, lsrImmS, if_neg hzero]
      exact .setBit (lsr_value x n) (lsr_carry x n _ (by omega))

theorem shifts_asrImm (s : Bool) (x : U32) {n : ℕ} (hn : n < 32) (c : CPU σ) :
    Shifts (.ofImm .asr n) s x c (ShiftOp.imm .asr s x n c) := by
  rw [Shift.ofImm]
  by_cases hzero : n = 0
  · subst hzero
    have hvalue : x.sshiftRight 31 = BitVec.ofInt 32 (ShiftOp.exact x 32 .asr) := by
      rw [← asr_value, asr_value_of_le x 32 (by decide)]
    cases s with
    | false => exact .keep hvalue nofun
    | true => exact .setBit hvalue (asr_carry x 32 _ (by decide))
  · rw [if_neg hzero]
    cases s with
    | false =>
      rw [ShiftOp.imm, if_neg Bool.false_ne_true, asrImm, if_neg hzero]
      exact .keep (asr_value x n) nofun
    | true =>
      rw [ShiftOp.imm, if_pos rfl, asrImmS, if_neg hzero]
      refine .setBit (asr_value x n) ?_
      rw [Shift.carryOut, asr_carry x n _ (by omega), if_pos hn.le]

theorem shifts_rorImm (s : Bool) (x : U32) {n : ℕ} (hn : n < 32) (c : CPU σ) :
    Shifts (.ofImm .ror n) s x c (ShiftOp.imm .ror s x n c) := by
  rw [Shift.ofImm]
  by_cases hzero : n = 0
  · subst hzero
    cases s with
    | false => exact .keep (rrx_value x c) nofun
    | true =>
      have hcarry : Shift.rrx.carryOut x c.carryFlag = decide (x &&& 1 ≠ 0) := by
        rw [Bool.eq_iff_iff, decide_eq_true_iff]
        exact (and_bit_ne_zero x 0).symm
      refine ⟨rrx_value x c, ?_⟩
      rw [if_pos rfl, if_pos rfl, hcarry]
      exact .setC _ c
  · rw [if_neg hzero]
    cases s with
    | false =>
      rw [ShiftOp.imm, if_neg Bool.false_ne_true, rorImm, if_neg hzero]
      exact .keep (ror_value x n) nofun
    | true =>
      rw [ShiftOp.imm, if_pos rfl, rorImmS, if_neg hzero]
      refine .setBit (ror_value x n) ?_
      rw [Shift.carryOut, ror_carry x n _ (by omega), Nat.mod_eq_of_lt (by omega)]

theorem shifts_imm (op : ShiftOp) (s : Bool) (x : U32) {n : ℕ} (hn : n < 32) (c : CPU σ) :
    Shifts (.ofImm op n) s x c (op.imm s x n c) := by
  cases op with
  | lsl => exact shifts_lslImm s x hn c
  | lsr => exact shifts_lsrImm s x n c
  | asr => exact shifts_asrImm s x hn c
  | ror => exact shifts_rorImm s x hn c

/-! ### By a register -/

theorem shiftLeft_of_ge (x : U32) {n : ℕ} (hn : 31 < n) : x <<< n = 0 := by
  apply BitVec.eq_of_getLsbD_eq
  intro i hi
  rw [BitVec.getLsbD_shiftLeft, decide_eq_true (show i < n by omega)]
  simp

theorem shifts_lslReg (s : Bool) (x : U32) (n : ℕ) (c : CPU σ) :
    Shifts (.places .lsl n) s x c (ShiftOp.reg .lsl s x n c) := by
  have hvalue := lsl_value x n
  cases s with
  | false =>
    refine .keep ?_ nofun
    split_ifs with hbig
    · exact (shiftLeft_of_ge x hbig).symm.trans hvalue
    · exact hvalue
  | true =>
    rw [ShiftOp.reg, if_pos rfl, lslRegS]
    split_ifs with hbig hout hpos
    · refine ⟨(shiftLeft_of_ge x hbig).symm.trans hvalue, ?_⟩
      rw [if_pos rfl, Shift.carryOut, lsl_carry x n _ (by omega), decide_eq_false (by omega),
        Bool.false_and]
      exact .setC _ c
    · obtain rfl : n = 32 := by omega
      exact .setBit ((shiftLeft_of_ge x hbig).symm.trans hvalue) (lsl_carry x 32 _ (by decide))
    · refine .setBit hvalue ?_
      rw [Shift.carryOut, lsl_carry x n _ hpos, decide_eq_true (by omega), Bool.true_and]
    · obtain rfl : n = 0 := by omega
      exact .keep ((BitVec.shiftLeft_zero x).symm.trans hvalue) fun _ => carryOut_zero x _ .lsl

theorem shifts_lsrReg (s : Bool) (x : U32) (n : ℕ) (c : CPU σ) :
    Shifts (.places .lsr n) s x c (ShiftOp.reg .lsr s x n c) := by
  have hvalue := lsr_value x n
  cases s with
  | false =>
    refine .keep ?_ nofun
    split_ifs with hbig
    · exact (shiftRight_of_ge x hbig).symm.trans hvalue
    · exact hvalue
  | true =>
    rw [ShiftOp.reg, if_pos rfl, lsrRegS]
    split_ifs with hbig hout hpos
    · refine ⟨(shiftRight_of_ge x hbig).symm.trans hvalue, ?_⟩
      rw [if_pos rfl, Shift.carryOut, lsr_carry x n _ (by omega),
        BitVec.getLsbD_of_ge x _ (by omega)]
      exact .setC _ c
    · obtain rfl : n = 32 := by omega
      exact .setBit ((shiftRight_of_ge x hbig).symm.trans hvalue) (lsr_carry x 32 _ (by decide))
    · exact .setBit hvalue (lsr_carry x n _ hpos)
    · obtain rfl : n = 0 := by omega
      exact .keep ((BitVec.ushiftRight_zero x).symm.trans hvalue) fun _ => carryOut_zero x _ .lsr

theorem shifts_asrReg (s : Bool) (x : U32) (n : ℕ) (c : CPU σ) :
    Shifts (.places .asr n) s x c (ShiftOp.reg .asr s x n c) := by
  have hvalue := asr_value x n
  cases s with
  | false =>
    refine .keep ?_ nofun
    split_ifs with hbig
    · exact (asr_value_of_le x n (by omega)).trans hvalue
    · exact hvalue
  | true =>
    rw [ShiftOp.reg, if_pos rfl, asrRegS]
    split_ifs with hbig hpos
    · refine .setBit ((asr_value_of_le x n (by omega)).trans hvalue) ?_
      rw [Shift.carryOut, asr_carry x n _ (by omega)]
      split_ifs with h32
      · obtain rfl : n = 32 := by omega
        rfl
      · rfl
    · refine .setBit hvalue ?_
      rw [Shift.carryOut, asr_carry x n _ hpos, if_pos (by omega)]
    · obtain rfl : n = 0 := by omega
      exact .keep ((BitVec.sshiftRight_zero).symm.trans hvalue) fun _ => carryOut_zero x _ .asr

theorem shifts_rorReg (s : Bool) (x : U32) (n : ℕ) (c : CPU σ) :
    Shifts (.places .ror n) s x c (ShiftOp.reg .ror s x n c) := by
  have hvalue : ror x (n &&& 0x1F) = BitVec.ofInt 32 (ShiftOp.exact x n .ror) := by
    rw [ror_value, and_31, ShiftOp.exact, ShiftOp.exact, Nat.mod_mod]
  cases s with
  | false => exact .keep hvalue nofun
  | true =>
    rw [ShiftOp.reg, if_pos rfl, rorRegS]
    split_ifs with hpos
    · refine .setBit hvalue ?_
      rw [Shift.carryOut, ror_carry x n _ hpos]
      exact congrArg x.getLsbD (and_31 (n - 1)).symm
    · obtain rfl : n = 0 := by omega
      exact .keep hvalue fun _ => carryOut_zero x _ .ror

theorem shifts_reg (op : ShiftOp) (s : Bool) (x : U32) (n : ℕ) (c : CPU σ) :
    Shifts (.places op n) s x c (op.reg s x n c) := by
  cases op with
  | lsl => exact shifts_lslReg s x n c
  | lsr => exact shifts_lsrReg s x n c
  | asr => exact shifts_asrReg s x n c
  | ror => exact shifts_rorReg s x n c

/-! ## The second operand -/

theorem field_eq_number (pos len : ℕ) (hlen : len ≤ 32) :
    (instr >>> pos) &&& BitVec.ofNat 32 (2 ^ len - 1) = number instr pos len := by
  have hpow : 2 ^ len ≤ 2 ^ 32 := Nat.pow_le_pow_right (by decide) hlen
  have hpos : 0 < 2 ^ len := Nat.two_pow_pos len
  apply BitVec.eq_of_toNat_eq
  rw [number, BitVec.toNat_and, BitVec.toNat_ushiftRight, BitVec.toNat_ofNat,
    Nat.mod_eq_of_lt (show 2 ^ len - 1 < 2 ^ 32 by omega), Nat.and_two_pow_sub_one_eq_mod,
    BitVec.toNat_setWidth, BitVec.extractLsb'_toNat]
  exact (Nat.mod_eq_of_lt (lt_of_lt_of_le (Nat.mod_lt _ hpos) hpow)).symm

theorem rotation_eq :
    ((instr >>> 7) &&& 0x1E).toNat = 2 * (instr.extractLsb' 8 4).toNat := by
  have hbits : (instr >>> 7) &&& (0x1E : U32) = (instr.extractLsb' 8 4).setWidth 32 <<< 1 := by
    apply BitVec.eq_of_getLsbD_eq
    intro i hi
    interval_cases i <;> simp
  have := (instr.extractLsb' 8 4).isLt
  rw [hbits, BitVec.toNat_shiftLeft, BitVec.toNat_setWidth, Nat.shiftLeft_eq]
  omega

/-- The sign of a rotated value is the last bit rotated out. -/
theorem sign_ror (x : U32) {n : ℕ} (hpos : 0 < n) (hn : n < 32) :
    (ror x n &&& 0x80000000 ≠ 0) ↔ x.getLsbD (n - 1) = true := by
  rw [msb_and_sign, BitVec.msb_eq_getLsbD_last, ror, and_31, BitVec.getLsbD_rotateRight,
    Nat.mod_mod, Nat.mod_eq_of_lt hn, decide_eq_false (by omega), cond_false]
  simp [show 31 - (32 - n) = n - 1 by omega]

theorem shifts_imm8 (s : Bool) (c : CPU σ) :
    Shifts (Form.imm.shift instr c) s (Form.imm.operand instr c) c (calcOp2Imm instr s c) := by
  have hbyte : instr &&& 0xFF = (instr.extractLsb' 0 8).setWidth 32 := by
    have := @field_eq_number instr 0 8 (by decide)
    rwa [BitVec.ushiftRight_zero] at this
  have hvalue : ror (instr &&& 0xFF) ((instr >>> 7) &&& 0x1E).toNat = BitVec.ofInt 32
      ((Form.imm.shift instr c).exact (Form.imm.operand instr c) c.carryFlag) := by
    rw [hbyte, rotation_eq, ror_value]
    rfl
  have hlt := (instr.extractLsb' 8 4).isLt
  have hzero : (instr >>> 7) &&& 0x1E ≠ (0 : U32) ↔ 0 < 2 * (instr.extractLsb' 8 4).toNat := by
    rw [← rotation_eq, Nat.pos_iff_ne_zero, ne_eq, ← BitVec.toNat_inj]
    rfl
  rw [calcOp2Imm]
  split_ifs with h
  · have hpos := hzero.mp h.2
    have hbit : decide (ror (instr &&& 0xFF) ((instr >>> 7) &&& 0x1E).toNat &&& 0x80000000 ≠ 0) =
        (Form.imm.shift instr c).carryOut (Form.imm.operand instr c) c.carryFlag := by
      rw [Bool.eq_iff_iff, decide_eq_true_iff, rotation_eq, hbyte, sign_ror _ hpos (by omega)]
      refine Eq.to_iff (congrArg (· = true) ((ror_carry _ _ _ hpos).trans ?_)).symm
      rw [Nat.mod_eq_of_lt (by omega)]
      rfl
    refine ⟨hvalue, ?_⟩
    rw [h.1, if_pos rfl, ← hbit]
    exact .setC _ c
  · refine .keep hvalue fun hs => ?_
    have hnone : 2 * (instr.extractLsb' 8 4).toNat = 0 := by
      by_contra hne
      exact h ⟨hs, hzero.mpr (by omega)⟩
    rw [Form.shift, hnone]
    exact carryOut_zero _ _ .ror

theorem shifts_calcOp2 (form : Form) (s : Bool) (c : CPU σ) :
    Shifts (form.shift instr c) s (form.operand instr c) c (calcOp2 instr form s c) := by
  cases form with
  | imm => exact shifts_imm8 s c
  | regImm op =>
    have hamount : ((instr >>> 7) &&& 0x1F).toNat = (instr.extractLsb' 7 5).toNat := by
      have := @field_eq_number instr 7 5 (by decide)
      refine (congrArg BitVec.toNat this).trans ?_
      rw [number, BitVec.toNat_setWidth]
      exact Nat.mod_eq_of_lt (lt_trans (instr.extractLsb' 7 5).isLt (by decide))
    rw [calcOp2, calcOp2RegShiftImm, hamount]
    exact shifts_imm op s (c.reg (field instr 0)) (instr.extractLsb' 7 5).isLt c
  | regReg op =>
    have hamount (v : U32) : (v &&& 0xFF).toNat = v.toNat % 256 := by
      rw [BitVec.toNat_and]
      exact Nat.and_two_pow_sub_one_eq_mod v.toNat 8
    have hoperand : (if field instr 0 = 15 then c.reg (field instr 0) + 4
        else c.reg (field instr 0)) = Form.operand instr c (.regReg op) := by
      rw [Form.operand]
      split_ifs
      · rfl
      · exact (BitVec.add_zero _).symm
    rw [calcOp2, calcOp2RegShiftReg, hamount, ← hoperand]
    exact shifts_reg op s _ _ c

/-! ## Flags of a result -/

/-- What is left to say of an instruction without the S bit. -/
theorem Processed.plain {m : Meaning} {d : CPU σ} (hs : m.s = false)
    (hcells : d.cells = if m.op.isTest then c.cells
      else Function.update c.cells (.r m.rd) (BitVec.ofInt 32 (m.exact c.carryFlag)))
    (hcpsr : d.cpsr = c.cpsr) (hbus : d.bus = c.bus) (hvectors : d.highVectors = c.highVectors) :
    Processed m c d := by
  refine ⟨hcells, ?_, ?_, ?_, ?_, fun i _ => by rw [hcpsr], hbus, hvectors⟩ <;>
    rw [hs, hcpsr, if_neg Bool.false_ne_true]

section
variable {m : Meaning} {d : CPU σ} (hs : m.s = true)
  (hcells : d.cells = if m.op.isTest then c.cells
    else Function.update c.cells (.r m.rd) (BitVec.ofInt 32 (m.exact c.carryFlag)))
  (hbus : d.bus = c.bus) (hvectors : d.highVectors = c.highVectors)
include hs hcells hbus hvectors

theorem Processed.logical {l : Logical} {res : U32} (hop : m.op = .logical l)
    (hres : res = BitVec.ofInt 32 (m.exact c.carryFlag)) (hc : Carries m.shifted c c₁)
    (hcpsr : d.cpsr = (flagsNZ res c₁).cpsr) : Processed m c d := by
  have hbit (i : ℕ) : d.cpsr.getLsbD i = if i = 31 then decide (res &&& 0x80000000 ≠ 0)
      else if i = 30 then decide (res = 0) else if i = 29 then m.shifted
      else c.cpsr.getLsbD i := by
    rw [hcpsr, flagsNZ, CPU.getLsbD_setNZ, hc.cpsr]
  refine ⟨hcells, ?_, ?_, ?_, ?_, fun i hi => ?_, hbus, hvectors⟩
  · rw [hbit, if_pos rfl, hs, if_pos rfl, decide_eq_decide, msb_and_sign, BitVec.msb_eq_toInt, hres]
    simp
  · rw [hbit, if_neg (show ¬30 = 31 by decide), if_pos rfl, hs, if_pos rfl, decide_eq_decide, hres,
      ofInt_eq_zero_iff]
  · rw [hbit, hs, Meaning.carryOut, hop]
    rfl
  · rw [hbit, hs, Meaning.overflow, hop]
    rfl
  · rw [hbit, if_neg (by omega), if_neg (by omega), if_neg (by omega)]

theorem Processed.arith {r : Arith} {sum : Sum} (hop : m.op = .arith r)
    (hsum : sum.Exact r m.a m.b c.carryFlag) (hcpsr : d.cpsr = (flagsNZCV sum c).cpsr) :
    Processed m c d := by
  have hexact : m.exact c.carryFlag = r.exact m.a.toNat m.b.toNat c.carryFlag.toNat := by
    rw [Meaning.exact, hop]
  have hbit (i : ℕ) : d.cpsr.getLsbD i = if i = 31 then decide (sum.res &&& 0x80000000 ≠ 0)
      else if i = 30 then decide (sum.res = 0) else if i = 29 then sum.carry
      else if i = 28 then sum.overflow else c.cpsr.getLsbD i := by
    rw [hcpsr, flagsNZCV, CPU.getLsbD_setNZCV]
  refine ⟨hcells, ?_, ?_, ?_, ?_, fun i hi => ?_, hbus, hvectors⟩
  · rw [hbit, if_pos rfl, hs, if_pos rfl, decide_eq_decide, msb_and_sign, BitVec.msb_eq_toInt,
      hsum.res, hexact]
    simp
  · rw [hbit, if_neg (show ¬30 = 31 by decide), if_pos rfl, hs, if_pos rfl, decide_eq_decide,
      hsum.res, hexact, ofInt_eq_zero_iff]
  · rw [hbit, hs, hsum.carry, Meaning.carryOut, hop]
    rfl
  · rw [hbit, hs, hsum.overflow, Meaning.overflow, hop]
    rfl
  · rw [hbit, if_neg (by omega), if_neg (by omega), if_neg (by omega), if_neg (by omega)]

end

/-! ## The sixteen operations -/

/-- The words the logical operations compute. -/
def Logical.word (a b : U32) : Logical → U32
  | .and | .tst => a &&& b
  | .eor | .teq => a ^^^ b
  | .orr => a ||| b
  | .mov => b
  | .bic => a &&& ~~~b
  | .mvn => ~~~b

def Arith.sum (a b : U32) (k : Bool) : Arith → Sum
  | .sub | .cmp => sumSub a b
  | .rsb => sumSub b a
  | .add | .cmn => sumAdd a b
  | .adc => sumAdc a b k
  | .sbc => sumSbc a b k
  | .rsc => sumSbc b a k

theorem eq_ofInt_of_toNat {x : U32} {n : ℕ} (h : x.toNat = n) : x = BitVec.ofInt 32 n := by
  rw [← h, ofInt_toNat]

theorem Logical.word_eq (a b : U32) (l : Logical) :
    l.word a b = BitVec.ofInt 32 (l.exact a.toNat b.toNat) := by
  cases l with
  | and => exact eq_ofInt_of_toNat (BitVec.toNat_and a b)
  | tst => exact eq_ofInt_of_toNat (BitVec.toNat_and a b)
  | eor => exact eq_ofInt_of_toNat (BitVec.toNat_xor a b)
  | teq => exact eq_ofInt_of_toNat (BitVec.toNat_xor a b)
  | orr => exact eq_ofInt_of_toNat (BitVec.toNat_or a b)
  | mov => exact eq_ofInt_of_toNat rfl
  | bic => exact eq_ofInt_of_toNat (by rw [Logical.word, BitVec.toNat_and, BitVec.toNat_not])
  | mvn =>
    have hb := b.isLt
    apply BitVec.eq_of_toNat_eq
    rw [Logical.word, Logical.exact, BitVec.toNat_not, BitVec.toNat_ofInt]
    omega

theorem Arith.sum_exact (a b : U32) (k : Bool) (r : Arith) : (r.sum a b k).Exact r a b k := by
  have hadd := sumAdd_exact a b k
  have hsub := sumSub_exact a b k
  cases r with
  | sub => exact hsub
  | cmp => exact ⟨hsub.res, hsub.carry, hsub.overflow⟩
  | rsb =>
    have := sumSub_exact b a k
    exact ⟨this.res, this.carry, this.overflow⟩
  | add => exact hadd
  | cmn => exact ⟨hadd.res, hadd.carry, hadd.overflow⟩
  | adc => exact sumAdc_exact a b k
  | sbc => exact sumSbc_exact a b k
  | rsc =>
    have := sumSbc_exact b a k
    exact ⟨this.res, this.carry, this.overflow⟩

theorem run_logical (l : Logical) (b : U32) (s : Bool) :
    (AluOp.logical l).run core instr b s c =
      if (AluOp.logical l).isTest then flagsNZ (l.word (c.reg (field instr 16)) b) c
      else logical core instr (fun a => l.word a b) s c := by
  cases l <;> rfl

theorem run_arith (r : Arith) (b : U32) (s : Bool) :
    (AluOp.arith r).run core instr b s c =
      if (AluOp.arith r).isTest then
        flagsNZCV (r.sum (c.reg (field instr 16)) b c.carryFlag) c
      else arith core instr (fun a => r.sum a b c.carryFlag) s c := by
  cases r <;> rfl

namespace Carries

theorem reg (h : Carries k c c₁) (i : Fin 16) : c₁.reg i = c.reg i := congrFun h.cells _

theorem eq_self (h : Carries c.carryFlag c c₁) : c₁ = c := by
  have hcpsr : c₁.cpsr = c.cpsr := by
    apply BitVec.eq_of_getLsbD_eq
    intro i hi
    rw [h.cpsr]
    split_ifs with h29
    · rw [h29, carryFlag_eq]
    · rfl
  obtain ⟨cells, cpsr, highVectors, bus⟩ := c₁
  obtain ⟨rfl, -, rfl, rfl⟩ := h
  cases hcpsr
  rfl

end Carries

section
variable {m : Meaning}

/-- A logical operation once the second operand has set the carry. -/
theorem processed_logical {l : Logical} {s : Bool} (hop : m.op = .logical l)
    (hs : m.s = (s || m.op.isTest)) (hrd : m.rd = field instr 12) (ha : m.a = c.reg (field instr 16))
    (hpc : m.op.isTest = false → field instr 12 ≠ 15)
    (hc : Carries (if m.s then m.shifted else c.carryFlag) c c₁) :
    Processed m c ((AluOp.logical l).run core instr m.b s c₁) := by
  have hword : l.word (c₁.reg (field instr 16)) m.b = BitVec.ofInt 32 (m.exact c.carryFlag) := by
    rw [hc.reg, ← ha, Logical.word_eq, Meaning.exact, hop]
  rw [run_logical, ← hop]
  by_cases htest : m.op.isTest = true
  · have hset : m.s = true := by rw [hs, htest, Bool.or_true]
    rw [hset, if_pos rfl] at hc
    rw [if_pos htest]
    refine .logical hset ?_ hc.bus hc.highVectors hop hword hc rfl
    rw [if_pos htest]
    exact hc.cells
  · have hne := hpc (Bool.not_eq_true _ ▸ htest)
    rw [Bool.not_eq_true] at htest
    rw [htest, Bool.or_false] at hs
    have hcells : Function.update c₁.cells (.r (field instr 12))
        (l.word (c₁.reg (field instr 16)) m.b) = if m.op.isTest then c.cells
          else Function.update c.cells (.r m.rd) (BitVec.ofInt 32 (m.exact c.carryFlag)) := by
      rw [htest, if_neg Bool.false_ne_true, hc.cells, hword, hrd]
    rw [if_neg (Bool.not_eq_true _ ▸ htest), logical]
    cases s with
    | true =>
      rw [hs, if_pos rfl] at hc
      rw [if_pos rfl, writeRdS, if_neg hne]
      exact .logical hs hcells hc.bus hc.highVectors hop hword hc rfl
    | false =>
      rw [hs, if_neg Bool.false_ne_true] at hc
      rw [if_neg Bool.false_ne_true, writeRd, if_neg hne]
      have hcpsr : c₁.cpsr = c.cpsr := congrArg CPU.cpsr hc.eq_self
      exact .plain hs hcells hcpsr hc.bus hc.highVectors

theorem processed_arith {r : Arith} {s : Bool} (hop : m.op = .arith r)
    (hs : m.s = (s || m.op.isTest)) (hrd : m.rd = field instr 12) (ha : m.a = c.reg (field instr 16))
    (hpc : m.op.isTest = false → field instr 12 ≠ 15) :
    Processed m c ((AluOp.arith r).run core instr m.b s c) := by
  have hsum := r.sum_exact (c.reg (field instr 16)) m.b c.carryFlag
  rw [← ha] at hsum
  have hres : (r.sum m.a m.b c.carryFlag).res = BitVec.ofInt 32 (m.exact c.carryFlag) := by
    rw [hsum.res, Meaning.exact, hop]
  rw [run_arith, ← hop, ← ha]
  by_cases htest : m.op.isTest = true
  · have hset : m.s = true := by rw [hs, htest, Bool.or_true]
    rw [if_pos htest]
    refine .arith hset ?_ rfl rfl hop hsum rfl
    rw [if_pos htest]
    rfl
  · have hne := hpc (Bool.not_eq_true _ ▸ htest)
    rw [Bool.not_eq_true] at htest
    rw [htest, Bool.or_false] at hs
    have hcells : Function.update c.cells (.r (field instr 12)) (r.sum m.a m.b c.carryFlag).res =
        if m.op.isTest then c.cells
        else Function.update c.cells (.r m.rd) (BitVec.ofInt 32 (m.exact c.carryFlag)) := by
      rw [htest, if_neg Bool.false_ne_true, hres, hrd]
    rw [if_neg (Bool.not_eq_true _ ▸ htest), arith, ← ha]
    cases s with
    | true =>
      rw [if_pos rfl, writeRdS, if_neg hne]
      exact .arith hs hcells rfl rfl hop hsum rfl
    | false =>
      rw [if_neg Bool.false_ne_true, writeRd, if_neg hne]
      exact .plain hs hcells rfl rfl rfl

end

theorem implementALU_exact (op : AluOp) (form : Form) (s : Bool)
    (hrd : op.isTest = false → field instr 12 ≠ 15) :
    Processed (armMeaning instr op form s c) c (implementALU core instr op form s c) := by
  obtain ⟨hvalue, hc⟩ := @shifts_calcOp2 _ instr form ((s || op.isTest) && op.isLogical) c
  rw [implementALU]
  change Processed _ c (op.run core instr (calcOp2 instr form _ c).1 s (calcOp2 instr form _ c).2)
  rw [hvalue]
  cases op with
  | logical l =>
    rw [show (AluOp.logical l).isLogical = true from rfl, Bool.and_true] at hc ⊢
    exact processed_logical (m := armMeaning instr (.logical l) form s c) rfl rfl rfl rfl hrd hc
  | arith r =>
    rw [show (AluOp.arith r).isLogical = false from rfl, Bool.and_false,
      if_neg Bool.false_ne_true] at hc
    rw [show (AluOp.arith r).isLogical = false from rfl, Bool.and_false, hc.eq_self]
    exact processed_arith (m := armMeaning instr (.arith r) form s c) rfl rfl rfl rfl hrd

/-! ## Thumb code -/

section
variable {m : Meaning} {l : Logical} {r : Arith} (htest : m.op.isTest = false)
include htest

theorem processed_thumbNZ {res : U32} (hs : m.s = true) (hop : m.op = .logical l)
    (hres : res = BitVec.ofInt 32 (m.exact c.carryFlag)) (hc : Carries m.shifted c c₁) :
    Processed m c (thumbNZ m.rd res c₁) := by
  refine .logical hs ?_ hc.bus hc.highVectors hop hres hc rfl
  rw [htest, if_neg Bool.false_ne_true, ← hres, ← hc.cells]
  rfl

theorem processed_thumbNZCV {sum : Sum} (hs : m.s = true) (hop : m.op = .arith r)
    (hsum : sum.Exact r m.a m.b c.carryFlag) : Processed m c (thumbNZCV m.rd sum c) := by
  have hres : sum.res = BitVec.ofInt 32 (m.exact c.carryFlag) := by
    rw [hsum.res, Meaning.exact, hop]
  refine .arith hs ?_ rfl rfl hop hsum rfl
  rw [htest, if_neg Bool.false_ne_true, ← hres]
  rfl

theorem processed_setReg {res : U32} (hs : m.s = false)
    (hres : res = BitVec.ofInt 32 (m.exact c.carryFlag)) : Processed m c (c.setReg m.rd res) := by
  refine .plain hs ?_ rfl rfl rfl
  rw [htest, if_neg Bool.false_ne_true, ← hres]
  rfl

end

theorem processed_cmp {m : Meaning} {r : Arith} {sum : Sum} (htest : m.op.isTest = true)
    (hs : m.s = true) (hop : m.op = .arith r) (hsum : sum.Exact r m.a m.b c.carryFlag) :
    Processed m c (flagsNZCV sum c) := by
  refine .arith hs ?_ rfl rfl hop hsum rfl
  rw [htest, if_pos rfl]
  rfl

theorem processed_moveShifted {rd : Fin 16} {x : U32} {shift : Shift} {p : U32 × CPU σ}
    (h : Shifts shift true x c p) :
    Processed (moveShifted rd x shift c.carryFlag) c (thumbNZ rd p.1 p.2) := by
  obtain ⟨hvalue, hc⟩ := h
  refine processed_thumbNZ (m := moveShifted rd x shift c.carryFlag) rfl rfl rfl ?_ hc
  rw [hvalue]
  exact (ofInt_toNat _).symm

theorem processed_thumbShiftImm (op : ShiftOp) :
    Processed (moveShifted (low instr 0) (c.reg (low instr 3))
      (.ofImm op (number instr 6 5).toNat) c.carryFlag) c
        (thumbShiftImm instr (op.imm true) c) := by
  have hfield := @field_eq_number instr 6 5 (by decide)
  have hlt : (number instr 6 5).toNat < 32 := by
    rw [number, BitVec.toNat_setWidth]
    exact lt_of_le_of_lt (Nat.mod_le _ _) (instr.extractLsb' 6 5).isLt
  have h := shifts_imm op true (c.reg (low instr 3)) hlt c
  rw [← hfield] at h ⊢
  exact processed_moveShifted h

theorem processed_thumbShiftReg (op : ShiftOp) :
    Processed (moveShifted (low instr 0) (c.reg (low instr 0))
      (.places op ((c.reg (low instr 3)).toNat % 256)) c.carryFlag) c
        (thumbShiftReg instr (op.reg true) c) := by
  have hamount : (c.reg (low instr 3) &&& 0xFF).toNat = (c.reg (low instr 3)).toNat % 256 := by
    rw [BitVec.toNat_and]
    exact Nat.and_two_pow_sub_one_eq_mod _ 8
  have h := shifts_reg op true (c.reg (low instr 0)) ((c.reg (low instr 3) &&& 0xFF).toNat) c
  rw [hamount] at h
  rw [thumbShiftReg, hamount]
  exact processed_moveShifted h

/-- The instructions that write a register the instruction word names with four bits. -/
def ThumbOp.writesHireg : ThumbOp → Bool
  | .addHireg | .movHireg => true
  | _ => false

theorem byte_eq : instr &&& 0xFF = number instr 0 8 := by
  have := @field_eq_number instr 0 8 (by decide)
  rwa [BitVec.ushiftRight_zero] at this

theorem words_eq (x : U32) : x <<< 2 = 4 * x := by
  apply BitVec.eq_of_toNat_eq
  rw [BitVec.toNat_shiftLeft, BitVec.toNat_mul, Nat.shiftLeft_eq, Nat.mul_comm]
  rfl

theorem thumb_exact (op : ThumbOp) (hrd : op.writesHireg = true → hiRd instr ≠ 15) :
    Processed (op.meaning instr c) c (op.run core instr c) := by
  have hfield : instr >>> 6 &&& (0x7 : U32) = number instr 6 3 := field_eq_number 6 3 (by decide)
  have hbyte : instr &&& (0xFF : U32) = number instr 0 8 := byte_eq
  cases op with
  | lslImm => exact processed_thumbShiftImm .lsl
  | lsrImm => exact processed_thumbShiftImm .lsr
  | asrImm => exact processed_thumbShiftImm .asr
  | addReg_ => exact processed_thumbNZCV rfl rfl rfl (sumAdd_exact _ _ _)
  | subReg_ => exact processed_thumbNZCV rfl rfl rfl (sumSub_exact _ _ _)
  | addImm_ =>
    rw [ThumbOp.run, tADD_IMM_, hfield]
    exact processed_thumbNZCV rfl rfl rfl (sumAdd_exact _ _ _)
  | subImm_ =>
    rw [ThumbOp.run, tSUB_IMM_, hfield]
    exact processed_thumbNZCV rfl rfl rfl (sumSub_exact _ _ _)
  | movImm =>
    have hsign : (number instr 0 8 &&& 0x80000000 ≠ 0) ↔ False := by
      rw [msb_and_sign, BitVec.msb_eq_getLsbD_last, number, BitVec.getLsbD_setWidth,
        BitVec.getLsbD_of_ge _ _ (by decide)]
      simp
    have hflags : tMOV_IMM instr c = thumbNZ (low instr 8) (number instr 0 8) c := by
      rw [tMOV_IMM, thumbNZ, flagsNZ, decide_eq_false (hsign.mp), hbyte]
    rw [ThumbOp.run, hflags]
    exact processed_thumbNZ rfl rfl rfl (ofInt_toNat _).symm (.refl c)
  | cmpImm =>
    rw [ThumbOp.run, tCMP_IMM, hbyte]
    exact processed_cmp rfl rfl rfl ((Arith.cmp).sum_exact _ _ _)
  | addImm =>
    rw [ThumbOp.run, tADD_IMM, hbyte]
    exact processed_thumbNZCV rfl rfl rfl (sumAdd_exact _ _ _)
  | subImm =>
    rw [ThumbOp.run, tSUB_IMM, hbyte]
    exact processed_thumbNZCV rfl rfl rfl (sumSub_exact _ _ _)
  | andReg => exact processed_thumbNZ rfl rfl rfl (Logical.word_eq _ _ .and) (.refl c)
  | eorReg => exact processed_thumbNZ rfl rfl rfl (Logical.word_eq _ _ .eor) (.refl c)
  | lslReg => exact processed_thumbShiftReg .lsl
  | lsrReg => exact processed_thumbShiftReg .lsr
  | asrReg => exact processed_thumbShiftReg .asr
  | adcReg => exact processed_thumbNZCV rfl rfl rfl (sumAdc_exact _ _ _)
  | sbcReg => exact processed_thumbNZCV rfl rfl rfl (sumSbc_exact _ _ _)
  | rorReg => exact processed_thumbShiftReg .ror
  | tstReg =>
    exact Processed.logical rfl rfl rfl rfl rfl (Logical.word_eq _ _ .tst) (.refl c) rfl
  | negReg =>
    have hneg : -c.reg (low instr 3) = 0 - c.reg (low instr 3) := (BitVec.zero_sub _).symm
    rw [ThumbOp.run, tNEG_REG, hneg]
    exact processed_thumbNZCV rfl rfl rfl ((Arith.rsb).sum_exact _ _ _)
  | cmpReg => exact processed_cmp rfl rfl rfl ((Arith.cmp).sum_exact _ _ _)
  | cmnReg => exact processed_cmp rfl rfl rfl ((Arith.cmn).sum_exact _ _ _)
  | orrReg => exact processed_thumbNZ rfl rfl rfl (Logical.word_eq _ _ .orr) (.refl c)
  | bicReg => exact processed_thumbNZ rfl rfl rfl (Logical.word_eq _ _ .bic) (.refl c)
  | mvnReg => exact processed_thumbNZ rfl rfl rfl (Logical.word_eq (c.reg (low instr 0)) _ .mvn) (.refl c)
  | addHireg =>
    rw [ThumbOp.run, tADD_HIREG]
    refine (if_neg (hrd rfl)).symm ▸ ?_
    exact processed_setReg rfl rfl (add_eq_ofInt_toNat _ _)
  | cmpHireg => exact processed_cmp rfl rfl rfl ((Arith.cmp).sum_exact _ _ _)
  | movHireg =>
    rw [ThumbOp.run, tMOV_HIREG]
    refine (if_neg (hrd rfl)).symm ▸ ?_
    exact processed_setReg rfl rfl (ofInt_toNat _).symm
  | addPcrel =>
    rw [ThumbOp.run, tADD_PCREL, hbyte, words_eq]
    exact processed_setReg rfl rfl (add_eq_ofInt_toNat _ _)
  | addSprel =>
    rw [ThumbOp.run, tADD_SPREL, hbyte, words_eq]
    exact processed_setReg rfl rfl (add_eq_ofInt_toNat _ _)
  | addSp =>
    have hwords : instr &&& (0x7F : U32) = number instr 0 7 := by
      have := @field_eq_number instr 0 7 (by decide)
      rwa [BitVec.ushiftRight_zero] at this
    rw [ThumbOp.run, tADD_SP, hwords, words_eq]
    by_cases hbit : instr.getLsbD 7 = true
    · have hmeaning : ThumbOp.meaning instr c .addSp =
          ⟨.arith .sub, false, 13, c.reg 13, 4 * number instr 0 7, c.carryFlag⟩ := by
        rw [ThumbOp.meaning, if_pos hbit, ThumbOp.meaning.address]
      rw [hmeaning, if_pos ((and_bit_ne_zero instr 7).mpr hbit)]
      exact processed_setReg rfl rfl (sub_eq_ofInt_toNat _ _)
    · have hmeaning : ThumbOp.meaning instr c .addSp =
          ⟨.arith .add, false, 13, c.reg 13, 4 * number instr 0 7, c.carryFlag⟩ := by
        rw [ThumbOp.meaning, if_neg hbit, ThumbOp.meaning.address]
      rw [hmeaning, if_neg fun h => hbit ((and_bit_ne_zero instr 7).mp h)]
      exact processed_setReg rfl rfl (add_eq_ofInt_toNat _ _)

theorem thumb_mul : Multiplied core instr c (tMUL_REG core instr c) := by
  have hres : c.reg (low instr 0) * c.reg (low instr 3) =
      BitVec.ofInt 32 ((c.reg (low instr 0)).toNat * (c.reg (low instr 3)).toNat) := by
    rw [BitVec.ofInt_mul, ofInt_toNat, ofInt_toNat]
  have hnz (i : ℕ) :
      (thumbNZ (low instr 0) (c.reg (low instr 0) * c.reg (low instr 3)) c).cpsr.getLsbD i =
      if i = 31 then decide (c.reg (low instr 0) * c.reg (low instr 3) &&& 0x80000000 ≠ 0)
      else if i = 30 then decide (c.reg (low instr 0) * c.reg (low instr 3) = 0)
      else c.cpsr.getLsbD i := CPU.getLsbD_setNZ _ _ _ i
  have hbit (i : ℕ) : (tMUL_REG core instr c).cpsr.getLsbD i =
      if i = 29 then if core.num = .arm9 then c.cpsr.getLsbD 29 else false
      else (thumbNZ (low instr 0) (c.reg (low instr 0) * c.reg (low instr 3)) c).cpsr.getLsbD i := by
    rw [tMUL_REG]
    by_cases h9 : core.num = .arm9
    · rw [if_pos h9, if_pos h9]
      split_ifs with h29
      · rw [h29, hnz]
        rfl
      · rfl
    · rw [if_neg h9, if_neg h9, CPU.getLsbD_setC]
  refine ⟨?_, ?_, ?_, ?_, fun i hi => ?_, ?_, ?_⟩
  · rw [← hres, tMUL_REG]
    split_ifs <;> rfl
  · rw [hbit, if_neg (by decide), hnz, if_pos rfl, decide_eq_decide, msb_and_sign,
      BitVec.msb_eq_toInt, hres]
    simp
  · rw [hbit, if_neg (by decide), hnz, if_neg (by decide), if_pos rfl, decide_eq_decide, hres,
      ofInt_eq_zero_iff]
    omega
  · rw [hbit, if_pos rfl]
  · rw [hbit, if_neg (by omega), hnz, if_neg (by omega), if_neg (by omega)]
  · rw [tMUL_REG]
    split_ifs <;> rfl
  · rw [tMUL_REG]
    split_ifs <;> rfl

/-- Every data-processing instruction of both instruction sets that does not write the program
counter. -/
theorem data_processing_exact (core : Core σ) (instr : U32) (c : CPU σ) :
    (∀ op form s, (op.isTest = false → field instr 12 ≠ 15) →
      Processed (armMeaning instr op form s c) c (implementALU core instr op form s c)) ∧
    (∀ op : ThumbOp, (op.writesHireg = true → hiRd instr ≠ 15) →
      Processed (op.meaning instr c) c (op.run core instr c)) ∧
    Multiplied core instr c (tMUL_REG core instr c) :=
  ⟨implementALU_exact, thumb_exact, thumb_mul⟩

/-- `adcs r2, r1, r1, rrx` with every register at the lowest signed word, and Thumb's
`add r8, r8`. -/
theorem data_processing_exact_lowest :
    Processed (armMeaning 0xE0B12061 (.arith .adc) (.regImm .ror) true lowest) lowest
      (implementALU (bareCore .arm9) 0xE0B12061 (.arith .adc) (.regImm .ror) true lowest) ∧
    Processed (ThumbOp.addHireg.meaning 0x44C0 lowest) lowest
      (ThumbOp.addHireg.run (bareCore .arm9) 0x44C0 lowest) := by
  refine ⟨(data_processing_exact (bareCore .arm9) 0xE0B12061 lowest).1 _ _ _ fun _ => ?_,
    (data_processing_exact (bareCore .arm9) 0x44C0 lowest).2.1 _ fun _ => ?_⟩
  · decide
  · decide

end MelonDS.ARM

import Mathlib.Tactic.IntervalCases
import Mathlib.Tactic.Linarith
import MelonDS.ARM.Multiply

/-!
# Multiplies are exact

Every multiply and every saturating sum stores the exact result, whichever registers it names.
-/

namespace MelonDS.ARM

variable {σ : Type*} {core : Core σ} {instr : U32} {c : CPU σ}

/-! ## Flags -/

namespace CPU

theorem getLsbD_setNZ (n z : Bool) (c : CPU σ) (i : ℕ) :
    (c.setNZ n z).cpsr.getLsbD i =
      if i = 31 then n else if i = 30 then z else c.cpsr.getLsbD i := by
  by_cases hi : i < 32
  · change ((c.cpsr &&& ~~~0xC0000000) ||| (if n then 0x80000000 else 0) |||
      if z then 0x40000000 else 0).getLsbD i = _
    interval_cases i <;> cases n <;> cases z <;> simp
  · rw [BitVec.getLsbD_of_ge _ _ (Nat.not_lt.mp hi), BitVec.getLsbD_of_ge _ _ (Nat.not_lt.mp hi),
      if_neg (by omega), if_neg (by omega)]

theorem getLsbD_clearC (c : CPU σ) (i : ℕ) :
    (c.setC false).cpsr.getLsbD i = if i = 29 then false else c.cpsr.getLsbD i := by
  by_cases hi : i < 32
  · change (c.cpsr &&& ~~~0x20000000).getLsbD i = _
    interval_cases i <;> simp
  · rw [BitVec.getLsbD_of_ge _ _ (Nat.not_lt.mp hi), BitVec.getLsbD_of_ge _ _ (Nat.not_lt.mp hi),
      if_neg (by omega)]

theorem getLsbD_setQ (c : CPU σ) (i : ℕ) :
    c.setQ.cpsr.getLsbD i = if i = 27 then true else c.cpsr.getLsbD i := by
  by_cases hi : i < 32
  · change (c.cpsr ||| 0x08000000).getLsbD i = _
    interval_cases i <;> simp
  · rw [BitVec.getLsbD_of_ge _ _ (Nat.not_lt.mp hi), BitVec.getLsbD_of_ge _ _ (Nat.not_lt.mp hi),
      if_neg (by omega)]

end CPU

theorem getLsbD_sFlags (n z : Bool) (c : CPU σ) (i : ℕ) :
    (sFlags core instr n z c).cpsr.getLsbD i =
      if instr.getLsbD 20 then
        if i = 31 then n else if i = 30 then z
        else if i = 29 ∧ core.num = .arm7 then false else c.cpsr.getLsbD i
      else c.cpsr.getLsbD i := by
  rw [sFlags]
  by_cases hs : instr.getLsbD 20 = true
  · rw [if_pos hs, if_pos hs]
    by_cases h7 : core.num = .arm7
    · rw [if_pos h7, CPU.getLsbD_clearC, CPU.getLsbD_setNZ]
      by_cases h29 : i = 29
      · subst h29
        simp [h7]
      · simp only [h29, false_and, if_false]
    · rw [if_neg h7, CPU.getLsbD_setNZ]
      simp only [h7, and_false, if_false]
  · rw [if_neg hs, if_neg hs]

@[simp] theorem cells_sFlags (n z : Bool) (c : CPU σ) :
    (sFlags core instr n z c).cells = c.cells := by
  rw [sFlags]
  split_ifs <;> rfl

@[simp] theorem bus_sFlags (n z : Bool) (c : CPU σ) : (sFlags core instr n z c).bus = c.bus := by
  rw [sFlags]
  split_ifs <;> rfl

@[simp] theorem highVectors_sFlags (n z : Bool) (c : CPU σ) :
    (sFlags core instr n z c).highVectors = c.highVectors := by
  rw [sFlags]
  split_ifs <;> rfl

/-! ## Results in one register -/

section
variable {op : MulOp}

/-- The flags after an S form, or after an instruction that leaves them alone. -/
theorem Executed.of_sFlags {n z : Bool} {d : CPU σ} {e : ℤ}
    (he : (operands instr c).exact instr op = e) (hboth : op.both = true)
    (hcells : d.cells = stored instr op e c.cells) (hcpsr : d.cpsr = c.cpsr)
    (hbus : d.bus = c.bus) (hvectors : d.highVectors = c.highVectors)
    (hn : n = decide (¬(0 : ℤ) ≤ (BitVec.ofInt (if op.isLong then 64 else 32) e).toInt))
    (hz : z = decide (e % 2 ^ (if op.isLong then 64 else 32) = 0)) :
    Executed core instr op c (sFlags core instr n z d) := by
  have hflags : setsFlags instr op = instr.getLsbD 20 := by rw [setsFlags, hboth, Bool.true_and]
  have hnone : ¬(operands instr c).Overflows instr op := by
    cases op <;> first | exact not_false | cases hboth
  subst he hn hz
  refine ⟨by rw [cells_sFlags, hcells], ?_, ?_, ?_, ?_, ?_, by rw [bus_sFlags, hbus],
    by rw [highVectors_sFlags, hvectors]⟩
  · rw [getLsbD_sFlags, hflags, hcpsr, if_pos rfl]
  · rw [getLsbD_sFlags, hflags, hcpsr, if_neg (show ¬30 = 31 by decide), if_pos rfl]
  · rw [getLsbD_sFlags, hflags, hcpsr]
    cases instr.getLsbD 20 with
    | true => simp
    | false => simp
  · rw [getLsbD_sFlags, hcpsr]
    simp [hnone]
  · intro i h31 h30 h29 _
    rw [getLsbD_sFlags, hcpsr]
    simp [h31, h30, h29]

theorem ofInt_eq_zero_iff {w : ℕ} (z : ℤ) : BitVec.ofInt w z = 0 ↔ z % 2 ^ w = 0 := by
  rw [← BitVec.toNat_inj, BitVec.toNat_ofInt]
  change (z % ((2 ^ w : ℕ) : ℤ)).toNat = (0#w).toNat ↔ _
  rw [BitVec.toNat_ofNat, Nat.zero_mod]
  have := Int.emod_nonneg z (b := ((2 ^ w : ℕ) : ℤ)) (by positivity)
  push_cast at this ⊢
  omega

theorem executed_store32 {res : U32} (hboth : op.both = true) (hshort : op.isLong = false)
    (hres : res = BitVec.ofInt 32 ((operands instr c).exact instr op)) :
    Executed core instr op c (store32 core instr res c) := by
  have hsat : op.saturates = false := by cases op <;> first | rfl | cases hboth
  subst hres
  refine .of_sFlags rfl hboth ?_ rfl rfl rfl ?_ ?_
  · rw [stored, hshort, hsat]
    rfl
  · rw [hshort, decide_eq_decide, msb_and_sign, BitVec.msb_eq_toInt]
    simp
  · rw [hshort, decide_eq_decide, ofInt_eq_zero_iff]
    rfl

/-! ## Results in two registers -/

theorem setWidth_ofInt (z : ℤ) : (BitVec.ofInt 64 z).setWidth 32 = BitVec.ofInt 32 z := by
  apply BitVec.eq_of_toNat_eq
  simp only [BitVec.toNat_setWidth, BitVec.toNat_ofInt]
  omega

theorem high_ofInt (z : ℤ) :
    (BitVec.ofInt 64 z >>> 32).setWidth 32 = BitVec.ofInt 32 (z / 2 ^ 32) := by
  apply BitVec.eq_of_toNat_eq
  simp only [BitVec.toNat_setWidth, BitVec.toNat_ushiftRight, BitVec.toNat_ofInt,
    Nat.shiftRight_eq_div_pow]
  omega

theorem high_sshiftRight (x : U64) :
    (x.sshiftRight 32).setWidth 32 = (x >>> 32).setWidth 32 := by
  apply BitVec.eq_of_getLsbD_eq
  intro i hi
  rw [BitVec.getLsbD_setWidth, BitVec.getLsbD_setWidth, BitVec.getLsbD_sshiftRight,
    BitVec.getLsbD_ushiftRight, if_pos (by omega), decide_eq_true hi,
    decide_eq_false (show ¬64 ≤ i by omega), Bool.not_false, Bool.true_and]

theorem sign_ushiftRight (x : U64) : ((x >>> 63).setWidth 32 ≠ (0 : U32)) ↔ x.msb = true := by
  have hx := x.isLt
  rw [ne_eq, ← BitVec.toNat_inj, BitVec.msb_eq_decide, BitVec.toNat_setWidth,
    BitVec.toNat_ushiftRight, Nat.shiftRight_eq_div_pow]
  simp
  omega

theorem sign_sshiftRight (x : U64) :
    ((x.sshiftRight 63).setWidth 32 ≠ (0 : U32)) ↔ x.msb = true := by
  have hbits : (x.sshiftRight 63).setWidth 32 = if x.msb then BitVec.allOnes 32 else 0 := by
    apply BitVec.eq_of_getLsbD_eq
    intro i hi
    have hsign : (x.sshiftRight 63).getLsbD i = x.msb := by
      rw [BitVec.getLsbD_sshiftRight]
      rcases Nat.eq_zero_or_pos i with rfl | hpos
      · simp [BitVec.msb_eq_getLsbD_last]
      · simp [show ¬63 + i < 64 by omega]
        omega
    rw [BitVec.getLsbD_setWidth, hsign, decide_eq_true hi, Bool.true_and]
    cases x.msb with
    | true => rw [if_pos rfl, BitVec.getLsbD_allOnes, decide_eq_true hi]
    | false => exact BitVec.getLsbD_zero.symm
  rw [hbits]
  cases x.msb <;> simp

theorem longSigned_eq (res : S64) : longSigned core instr res c = long core instr res c := by
  rw [longSigned, long, store64, high_sshiftRight]
  congr 1
  rw [decide_eq_decide, sign_sshiftRight, sign_ushiftRight]

theorem executed_long {res : U64} (hboth : op.both = true) (hlong : op.isLong = true)
    (hres : res = BitVec.ofInt 64 ((operands instr c).exact instr op)) :
    Executed core instr op c (long core instr res c) := by
  subst hres
  refine .of_sFlags rfl hboth ?_ rfl rfl rfl ?_ ?_
  · rw [stored, hlong, if_pos rfl, store64, setWidth_ofInt, high_ofInt]
    rfl
  · rw [hlong, decide_eq_decide, sign_ushiftRight, BitVec.msb_eq_toInt]
    simp
  · rw [hlong, decide_eq_decide, ofInt_eq_zero_iff]
    rfl

end

/-! ## The accumulators and the halves -/

theorem rdLong_eq : rdLong instr c = (operands instr c).acc := by
  rw [rdLong, Operands.acc]
  change _ = (c.reg (field instr 16) ++ c.reg (field instr 12) : U64)
  apply BitVec.eq_of_getLsbD_eq
  intro i hi
  rw [BitVec.getLsbD_append, BitVec.getLsbD_or, BitVec.getLsbD_setWidth, BitVec.getLsbD_shiftLeft,
    BitVec.getLsbD_setWidth]
  by_cases hlow : i < 32
  · simp [hlow, hi]
  · rw [BitVec.getLsbD_of_ge (c.reg (field instr 12)) i (Nat.not_lt.mp hlow)]
    simp [hlow, hi, show i - 32 < 64 by omega]

theorem half_toInt (b : ℕ) (v : U32) : (half instr b v).toInt = halfInt instr b v := by
  rw [half, halfInt]
  congr 1
  apply BitVec.eq_of_getLsbD_eq
  intro i hi
  split_ifs
  · simp [hi]
  · have hmask (j : ℕ) (hj : j < 16) : (0xFFFF : U32).getLsbD j = true := by
      interval_cases j <;> rfl
    rw [BitVec.getLsbD_setWidth, BitVec.getLsbD_and, hmask i hi]
    simp [hi]

/-! ## The products of halves -/

theorem signExtend_half_mul (x y : S16) :
    (x.signExtend 32 * y.signExtend 32).toInt = x.toInt * y.toInt := by
  rw [signExtend_eq_ofInt, signExtend_eq_ofInt, ← BitVec.ofInt_mul]
  refine toInt_ofInt_of_signed (by decide) ⟨?_, ?_⟩
  · have := BitVec.le_toInt_mul_toInt (x := x) (y := y)
    norm_num at this ⊢
    omega
  · have := BitVec.toInt_mul_toInt_le (x := x) (y := y)
    norm_num at this ⊢
    omega

/-- The upper 32 of the 48 bits of a product. -/
theorem signed_wide (x : S32) (y : S16) : Signed 32 (x.toInt * y.toInt / 2 ^ 16) := by
  have hx := signed_toInt x
  have hy := signed_toInt y
  rw [Signed] at hx hy ⊢
  norm_num at hx hy ⊢
  have hlow : -70368744177664 ≤ x.toInt * y.toInt := by nlinarith
  have hhigh : x.toInt * y.toInt ≤ 70368744177664 := by nlinarith
  omega

theorem setWidth_eq_ofInt_toInt (x : S64) : x.setWidth 32 = BitVec.ofInt 32 x.toInt := by
  rw [← setWidth_ofInt, BitVec.ofInt_toInt]

theorem wide_eq (x : S32) (y : S16) :
    ((x.signExtend 64 * y.signExtend 64).sshiftRight 16).setWidth 32 =
      BitVec.ofInt 32 (x.toInt * y.toInt / 2 ^ 16) := by
  have hx := signed_toInt x
  have hy := signed_toInt y
  have hprod : (x.signExtend 64 * y.signExtend 64).toInt = x.toInt * y.toInt := by
    rw [signExtend_eq_ofInt, signExtend_eq_ofInt, ← BitVec.ofInt_mul]
    refine toInt_ofInt_of_signed (by decide) ?_
    rw [Signed] at hx hy ⊢
    norm_num at hx hy ⊢
    constructor <;> nlinarith
  rw [setWidth_eq_ofInt_toInt, BitVec.toInt_sshiftRight, hprod, Int.shiftRight_eq_div_pow]
  rfl

/-! ## Overflow -/

theorem overflowAdd_iff (a b : U32) :
    overflowAdd a b = true ↔ ¬Signed 32 (a.toInt + b.toInt) := by
  rw [signed_add_iff, overflowAdd, decide_eq_true_iff, msb_and_sign, msb_and_clear, BitVec.msb_xor,
    BitVec.msb_xor]
  simp

theorem overflowSub_iff (a b : U32) :
    overflowSub a b = true ↔ ¬Signed 32 (a.toInt - b.toInt) := by
  rw [signed_sub_iff, overflowSub, decide_eq_true_iff, msb_and_sign, msb_and_sign, BitVec.msb_xor,
    BitVec.msb_xor]
  simp

theorem doubled_eq (rn : U32) : doubled rn = BitVec.ofInt 32 (clamp 32 (2 * rn.toInt)) := by
  have htwo : rn.toInt + rn.toInt = 2 * rn.toInt := by omega
  rw [doubled]
  by_cases h : overflowAdd rn rn = true
  · rw [if_pos h]
    rw [overflowAdd_iff, htwo, Signed] at h
    by_cases hsign : rn &&& 0x80000000 ≠ 0
    · have hneg : clamp 32 (2 * rn.toInt) = -2 ^ 31 := by
        rw [msb_and_sign, BitVec.msb_eq_toInt, decide_eq_true_iff] at hsign
        rw [clamp]
        omega
      rw [if_pos hsign, hneg]
      rfl
    · have hpos : clamp 32 (2 * rn.toInt) = 2 ^ 31 - 1 := by
        rw [msb_and_sign, BitVec.msb_eq_toInt, decide_eq_true_iff] at hsign
        rw [clamp]
        omega
      rw [if_neg hsign, hpos]
      rfl
  · rw [if_neg h]
    rw [overflowAdd_iff, not_not, htwo] at h
    rw [clamp_of_signed h, ← htwo, BitVec.ofInt_add, BitVec.ofInt_toInt]
    bv_omega

/-! ## Instructions of the ARM9 -/

section
variable {op : MulOp}

/-- An instruction that leaves the condition flags alone. -/
theorem Executed.of_sticky {d : CPU σ} {e : ℤ} (he : (operands instr c).exact instr op = e)
    (hboth : op.both = false) (hcells : d.cells = stored instr op e c.cells)
    (hflags : ∀ i, i ≠ 27 → d.cpsr.getLsbD i = c.cpsr.getLsbD i)
    (hsticky : d.cpsr.getLsbD 27 = true ↔
      c.cpsr.getLsbD 27 = true ∨ (operands instr c).Overflows instr op)
    (hbus : d.bus = c.bus) (hvectors : d.highVectors = c.highVectors) :
    Executed core instr op c d := by
  have hnone : setsFlags instr op = false := by rw [setsFlags, hboth, Bool.false_and]
  subst he
  refine ⟨hcells, ?_, ?_, ?_, hsticky, fun i _ _ _ hi => hflags i hi, hbus, hvectors⟩
  · rw [hnone, hflags 31 (by decide), if_neg Bool.false_ne_true]
  · rw [hnone, hflags 30 (by decide), if_neg Bool.false_ne_true]
  · rw [hnone, hflags 29 (by decide), if_neg fun h => Bool.false_ne_true h.1]

theorem executed_accumulate {resMul : U32} (hop : op = .smlaxy ∨ op = .smlawy)
    (hexact : (operands instr c).exact instr op =
      resMul.toInt + (c.reg (field instr 12)).toInt) :
    Executed core instr op c (accumulate instr resMul (c.reg (field instr 12)) c) := by
  have hover : (operands instr c).Overflows instr op ↔
      overflowAdd resMul (c.reg (field instr 12)) = true := by
    rw [overflowAdd_iff, ← hexact]
    rcases hop with rfl | rfl <;> rfl
  have hcells : (c.setReg (field instr 16) (resMul + c.reg (field instr 12))).cells =
      stored instr op (resMul.toInt + (c.reg (field instr 12)).toInt) c.cells := by
    rw [CPU.cells_setReg, add_eq_ofInt]
    rcases hop with rfl | rfl <;> rfl
  rw [accumulate]
  split_ifs with h
  · refine .of_sticky hexact (by rcases hop with rfl | rfl <;> rfl) hcells (fun i hi => ?_) ?_ rfl rfl
    · rw [CPU.getLsbD_setQ, if_neg hi, CPU.cpsr_setReg]
    · rw [CPU.getLsbD_setQ, if_pos rfl]
      exact ⟨fun _ => .inr (hover.mpr h), fun _ => rfl⟩
  · refine .of_sticky hexact (by rcases hop with rfl | rfl <;> rfl) hcells (fun i hi => rfl) ?_ rfl rfl
    exact ⟨.inl, fun hq => hq.elim id fun ho => absurd (hover.mp ho) h⟩

theorem executed_saturate {d : CPU σ} {overflow : Bool} {z : ℤ} {doubling : Prop}
    (hop : op.saturates = true) (hexact : (operands instr c).exact instr op = clamp 32 z)
    (hoverflow : overflow = true ↔ ¬Signed 32 z) (hlow : -2 ^ 32 ≤ z) (hhigh : z < 2 ^ 32)
    (hd : d.cells = c.cells ∧ d.bus = c.bus ∧ d.highVectors = c.highVectors)
    (hflags : ∀ i, i ≠ 27 → d.cpsr.getLsbD i = c.cpsr.getLsbD i)
    (hsticky : d.cpsr.getLsbD 27 = true ↔ c.cpsr.getLsbD 27 = true ∨ doubling)
    (hover : (operands instr c).Overflows instr op ↔ doubling ∨ ¬Signed 32 z) :
    Executed core instr op c (saturate instr overflow (BitVec.ofInt 32 z) d) := by
  have hboth : op.both = false := by cases op <;> first | rfl | cases hop
  have hshort : op.isLong = false := by cases op <;> first | rfl | cases hop
  have hcells (v : U32) (hv : v = BitVec.ofInt 32 (clamp 32 z)) :
      Function.update d.cells (.r (field instr 12)) v =
        stored instr op (clamp 32 z) c.cells := by
    rw [stored, hshort, hop, hd.1, hv]
    rfl
  rw [saturate]
  split_ifs with h hsign
  · have hout := hoverflow.mp h
    refine .of_sticky hexact hboth (hcells _ ?_) (fun i hi => ?_) ?_ hd.2.1 hd.2.2
    · rw [← ofInt_clamp_of_not_signed hlow hhigh hout, if_pos hsign]
    · rw [CPU.cpsr_setReg, CPU.getLsbD_setQ, if_neg hi, hflags i hi]
    · rw [CPU.cpsr_setReg, CPU.getLsbD_setQ, if_pos rfl, hover]
      exact ⟨fun _ => .inr (.inr hout), fun _ => rfl⟩
  · have hout := hoverflow.mp h
    refine .of_sticky hexact hboth (hcells _ ?_) (fun i hi => ?_) ?_ hd.2.1 hd.2.2
    · rw [← ofInt_clamp_of_not_signed hlow hhigh hout, if_neg hsign]
    · rw [CPU.cpsr_setReg, CPU.getLsbD_setQ, if_neg hi, hflags i hi]
    · rw [CPU.cpsr_setReg, CPU.getLsbD_setQ, if_pos rfl, hover]
      exact ⟨fun _ => .inr (.inr hout), fun _ => rfl⟩
  · have hin : Signed 32 z := not_not.mp fun hout => h (hoverflow.mpr hout)
    refine .of_sticky hexact hboth (hcells _ ?_) (fun i hi => ?_) ?_ hd.2.1 hd.2.2
    · rw [clamp_of_signed hin]
    · rw [CPU.cpsr_setReg, hflags i hi]
    · rw [CPU.cpsr_setReg, hsticky, hover]
      simp [hin]

/-- The doubling leaves the register file alone and may set the sticky flag. -/
theorem doubleQ_spec (rn : U32) (c : CPU σ) :
    ((doubleQ rn c).cells = c.cells ∧ (doubleQ rn c).bus = c.bus ∧
      (doubleQ rn c).highVectors = c.highVectors) ∧
      (∀ i, i ≠ 27 → (doubleQ rn c).cpsr.getLsbD i = c.cpsr.getLsbD i) ∧
      ((doubleQ rn c).cpsr.getLsbD 27 = true ↔
        c.cpsr.getLsbD 27 = true ∨ ¬Signed 32 (2 * rn.toInt)) := by
  have hover : overflowAdd rn rn = true ↔ ¬Signed 32 (2 * rn.toInt) := by
    rw [overflowAdd_iff, show rn.toInt + rn.toInt = 2 * rn.toInt by omega]
  rw [doubleQ]
  split_ifs with h
  · refine ⟨⟨rfl, rfl, rfl⟩, fun i hi => ?_, ?_⟩
    · rw [CPU.getLsbD_setQ, if_neg hi]
    · rw [CPU.getLsbD_setQ, if_pos rfl]
      exact ⟨fun _ => .inr (hover.mp h), fun _ => rfl⟩
  · refine ⟨⟨rfl, rfl, rfl⟩, fun _ _ => rfl, .inl, fun hq => hq.elim id fun hout => ?_⟩
    exact absurd (hover.mpr hout) h

end

/-! ## All of them -/

theorem executed_wide {op : MulOp} (hop : op = .smulwy) (h9 : core.num = .arm9) :
    Executed core instr op c (aSMULWy core instr c) := by
  subst hop
  rw [aSMULWy, if_neg (not_not.mpr h9)]
  dsimp only
  rw [wide_eq, half_toInt]
  exact .of_sticky rfl rfl rfl (fun _ _ => rfl) (or_iff_left not_false).symm rfl rfl

theorem executed_longHalves {op : MulOp} (hop : op = .smlalxy) (h9 : core.num = .arm9) :
    Executed core instr op c (aSMLALxy core instr c) := by
  subst hop
  have hexact : (half instr 5 (c.reg (field instr 0))).signExtend 64 *
      (half instr 6 (c.reg (field instr 8))).signExtend 64 + rdLong instr c =
        BitVec.ofInt 64 ((operands instr c).exact instr .smlalxy) := by
    rw [signExtend_eq_ofInt, signExtend_eq_ofInt, ← BitVec.ofInt_mul, rdLong_eq, half_toInt,
      half_toInt]
    conv => lhs; rhs; rw [← BitVec.ofInt_toInt (x := (operands instr c).acc)]
    rw [← BitVec.ofInt_add]
    rfl
  rw [aSMLALxy, if_neg (not_not.mpr h9)]
  dsimp only
  rw [hexact, high_sshiftRight, setWidth_ofInt, high_ofInt]
  exact .of_sticky rfl rfl rfl (fun _ _ => rfl) (or_iff_left not_false).symm rfl rfl

/-- Every multiply and every saturating sum, on the processors that have it and with any choice
of registers. -/
theorem mul_exact (op : MulOp) (h9 : op.both = false → core.num = .arm9) :
    Executed core instr op c (op.run core instr c) := by
  have hbounds (v : U32) : -2 ^ 31 ≤ v.toInt ∧ v.toInt < 2 ^ 31 := signed_toInt v
  have hclamped (v : U32) : Signed 32 (clamp 32 (2 * v.toInt)) := signed_clamp 32 _
  cases op with
  | mul => exact executed_store32 rfl rfl (mul_eq_ofInt _ _)
  | mla =>
    refine executed_store32 rfl rfl ?_
    rw [mul_eq_ofInt]
    conv => lhs; rhs; rw [← BitVec.ofInt_toInt (x := c.reg (field instr 12))]
    rw [← BitVec.ofInt_add]
    rfl
  | umull =>
    refine executed_long rfl rfl ?_
    rw [setWidth_eq_ofInt, setWidth_eq_ofInt, ← BitVec.ofInt_mul]
    rfl
  | umlal =>
    refine executed_long rfl rfl ?_
    rw [setWidth_eq_ofInt, setWidth_eq_ofInt, ← BitVec.ofInt_mul, rdLong_eq]
    conv => lhs; rhs; rw [← ofInt_toNat (operands instr c).acc]
    rw [← BitVec.ofInt_add]
    rfl
  | smull =>
    rw [MulOp.run, aSMULL, longSigned_eq]
    refine executed_long rfl rfl ?_
    rw [signExtend_eq_ofInt, signExtend_eq_ofInt, ← BitVec.ofInt_mul]
    rfl
  | smlal =>
    rw [MulOp.run, aSMLAL, longSigned_eq]
    refine executed_long rfl rfl ?_
    rw [signExtend_eq_ofInt, signExtend_eq_ofInt, ← BitVec.ofInt_mul, rdLong_eq]
    conv => lhs; rhs; rw [← BitVec.ofInt_toInt (x := (operands instr c).acc)]
    rw [← BitVec.ofInt_add]
    rfl
  | smulxy =>
    rw [MulOp.run, aSMULxy, if_neg (not_not.mpr (h9 rfl))]
    refine .of_sticky rfl rfl ?_ (fun _ _ => rfl) (or_iff_left not_false).symm rfl rfl
    dsimp only
    rw [signExtend_eq_ofInt, signExtend_eq_ofInt, ← BitVec.ofInt_mul, half_toInt, half_toInt]
    rfl
  | smlaxy =>
    rw [MulOp.run, aSMLAxy, if_neg (not_not.mpr (h9 rfl))]
    refine executed_accumulate (.inl rfl) ?_
    rw [signExtend_half_mul, half_toInt, half_toInt]
    rfl
  | smulwy => exact executed_wide rfl (h9 rfl)
  | smlawy =>
    rw [MulOp.run, aSMLAWy, if_neg (not_not.mpr (h9 rfl))]
    refine executed_accumulate (.inr rfl) ?_
    rw [wide_eq, toInt_ofInt_of_signed (by decide) (signed_wide _ _), half_toInt]
    rfl
  | smlalxy => exact executed_longHalves rfl (h9 rfl)
  | qadd =>
    rw [MulOp.run, aQADD, if_neg (not_not.mpr (h9 rfl))]
    have hm := hbounds (c.reg (field instr 0))
    have hn := hbounds (c.reg (field instr 16))
    dsimp only
    rw [add_eq_ofInt]
    exact executed_saturate rfl rfl (overflowAdd_iff _ _) (by omega) (by omega) ⟨rfl, rfl, rfl⟩
      (fun _ _ => rfl) (or_iff_left not_false).symm (or_iff_right not_false).symm
  | qsub =>
    rw [MulOp.run, aQSUB, if_neg (not_not.mpr (h9 rfl))]
    have hm := hbounds (c.reg (field instr 0))
    have hn := hbounds (c.reg (field instr 16))
    dsimp only
    rw [sub_eq_ofInt]
    exact executed_saturate rfl rfl (overflowSub_iff _ _) (by omega) (by omega) ⟨rfl, rfl, rfl⟩
      (fun _ _ => rfl) (or_iff_left not_false).symm (or_iff_right not_false).symm
  | qdadd =>
    rw [MulOp.run, aQDADD, if_neg (not_not.mpr (h9 rfl))]
    have hm := hbounds (c.reg (field instr 0))
    have hdouble : (doubled (c.reg (field instr 16))).toInt =
        clamp 32 (2 * (c.reg (field instr 16)).toInt) := by
      rw [doubled_eq, toInt_ofInt_of_signed (by decide) (hclamped _)]
    have hn := hbounds (doubled (c.reg (field instr 16)))
    obtain ⟨hd, hflags, hsticky⟩ := doubleQ_spec (c.reg (field instr 16)) c
    dsimp only
    rw [add_eq_ofInt]
    refine executed_saturate rfl ?_ (overflowAdd_iff _ _) (by omega) (by omega) hd hflags hsticky ?_
    · rw [hdouble]
      rfl
    · rw [hdouble]
      rfl
  | qdsub =>
    rw [MulOp.run, aQDSUB, if_neg (not_not.mpr (h9 rfl))]
    have hm := hbounds (c.reg (field instr 0))
    have hdouble : (doubled (c.reg (field instr 16))).toInt =
        clamp 32 (2 * (c.reg (field instr 16)).toInt) := by
      rw [doubled_eq, toInt_ofInt_of_signed (by decide) (hclamped _)]
    have hn := hbounds (doubled (c.reg (field instr 16)))
    obtain ⟨hd, hflags, hsticky⟩ := doubleQ_spec (c.reg (field instr 16)) c
    dsimp only
    rw [sub_eq_ofInt]
    refine executed_saturate rfl ?_ (overflowSub_iff _ _) (by omega) (by omega) hd hflags hsticky ?_
    · rw [hdouble]
      rfl
    · rw [hdouble]
      rfl

/-- Every register at the lowest signed word. -/
def lowest : CPU Unit := ⟨fun _ => 0x80000000, 0x1F, true, ()⟩

theorem mul_exact_lowest : Executed (bareCore .arm9) 0xE1410052 .qdadd lowest
    (MulOp.run (bareCore .arm9) 0xE1410052 .qdadd lowest) :=
  mul_exact .qdadd fun _ => rfl

end MelonDS.ARM

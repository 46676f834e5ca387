import MelonDS.Library.DigitRoot
import MelonDS.Types

/-!
# The square root unit

`SqrtDone` goes through the parameter two bits at a time and appends one bit to the root for each
pair. What is compared in each step has two bits more than the root and is kept in 32 bits.
-/

namespace MelonDS.NDS
open DigitRoot

structure SqrtRegisters where
  sqrtCnt : U16
  sqrtVal : Fin 2 → U32
  sqrtRes : U32

/-- The variables of the loop. -/
structure SqrtLoop where
  val : U64
  res : U32
  rem : U64

def SqrtLoop.step (topshift : ℕ) (s : SqrtLoop) : SqrtLoop :=
  let rem := s.rem <<< 2 + (s.val >>> topshift &&& 0x3)
  let val := s.val <<< 2
  let res := s.res <<< 1
  let prod := res <<< 1 + 1
  if prod.setWidth 64 ≤ rem then ⟨val, res + 1, rem - prod.setWidth 64⟩ else ⟨val, res, rem⟩

namespace SqrtRegisters

def sqrtDone (s : SqrtRegisters) : SqrtRegisters :=
  let sqrtCnt := s.sqrtCnt &&& ~~~0x8000
  if sqrtCnt &&& 0x0001 ≠ 0 then
    let val : U64 := s.sqrtVal 1 ++ s.sqrtVal 0
    { s with sqrtCnt, sqrtRes := ((SqrtLoop.step 62)^[32] ⟨val, 0, 0⟩).res }
  else
    let val : U64 := (s.sqrtVal 0).setWidth 64
    { s with sqrtCnt, sqrtRes := ((SqrtLoop.step 30)^[16] ⟨val, 0, 0⟩).res }

/-- Bit 0 selects a parameter of 64 bits. -/
def wide (s : SqrtRegisters) : Prop := s.sqrtCnt &&& 0x0001 ≠ 0

instance (s : SqrtRegisters) : Decidable s.wide := inferInstanceAs (Decidable (_ ≠ _))

/-- The parameter of the unit. -/
def param (s : SqrtRegisters) : ℕ :=
  if s.wide then 2 ^ 32 * (s.sqrtVal 1).toNat + (s.sqrtVal 0).toNat else (s.sqrtVal 0).toNat

end SqrtRegisters

/-! ## One step -/

/-- The parameter without its last `k` pairs of bits. -/
def leading (v k : ℕ) : ℕ := v / 4 ^ k

theorem leading_succ (v k : ℕ) : leading v k = 4 * leading v (k + 1) + v / 4 ^ k % 4 := by
  rw [leading, leading, Nat.pow_succ, ← Nat.div_div_eq_div_mul, Nat.div_add_mod]

/-- Before `k` more steps the loop holds the root of what it has seen, and what is left over. -/
structure Rooted (v n k : ℕ) (s : SqrtLoop) : Prop where
  val : s.val.toNat = v * 4 ^ (n - k) % 2 ^ 64
  res : s.res.toNat = (leading v k).sqrt
  rem : s.rem.toNat = leftOver (leading v k)

theorem leading_lt {v n k : ℕ} (hv : v < 4 ^ n) (hk : k ≤ n) : leading v k < 4 ^ (n - k) := by
  rw [leading, Nat.div_lt_iff_lt_mul (Nat.pow_pos (by decide)), ← Nat.pow_add,
    Nat.sub_add_cancel hk]
  exact hv

/-- The two bits at the top are the next digit. -/
theorem digit_at_top {v n k : ℕ} (hk : k < n) (hn : n ≤ 32) :
    v * 4 ^ (n - (k + 1)) % 2 ^ 64 / 4 ^ (n - 1) % 4 = v / 4 ^ k % 4 := by
  have hsize : 2 ^ 64 = 4 ^ (n - 1) * (4 * 4 ^ (32 - n)) := by
    have hfour : 2 ^ 64 = 4 ^ 32 := rfl
    rw [hfour, ← Nat.pow_succ', ← Nat.pow_add]
    congr 1
    omega
  have hsplit : 4 ^ (n - 1) = 4 ^ k * 4 ^ (n - (k + 1)) := by
    rw [← Nat.pow_add]
    congr 1
    omega
  rw [hsize, Nat.mod_mul_right_div_self, Nat.mod_mul_right_mod, hsplit,
    Nat.mul_div_mul_right _ _ (Nat.pow_pos (by decide))]

/-- What a step compares the rest with, cut to 32 bits. -/
def prodOf (p : ℕ) : ℕ := (4 * p.sqrt + 1) % 2 ^ 32

theorem Rooted.step {v n k : ℕ} {s : SqrtLoop} (h : Rooted v n (k + 1) s) (hv : v < 4 ^ n)
    (hk : k < n) (hn : n ≤ 32) :
    let p := leading v (k + 1)
    let d := v / 4 ^ k % 4
    let t := s.step (2 * (n - 1))
    t.val.toNat = v * 4 ^ (n - k) % 2 ^ 64 ∧
      t.res.toNat = (if prodOf p ≤ 4 * leftOver p + d then 2 * p.sqrt + 1 else 2 * p.sqrt) ∧
      t.rem.toNat = if prodOf p ≤ 4 * leftOver p + d then 4 * leftOver p + d - prodOf p
        else 4 * leftOver p + d := by
  have hroot : (leading v (k + 1)).sqrt < 2 ^ 31 :=
    (sqrt_lt_two_pow (leading_lt hv hk)).trans_le (Nat.pow_le_pow_right (by decide) (by omega))
  have hover := leftOver_le (leading v (k + 1))
  have hdigit : (s.val >>> (2 * (n - 1)) &&& 0x3).toNat = v / 4 ^ k % 4 := by
    rw [BitVec.toNat_and, BitVec.toNat_ushiftRight, h.val, Nat.shiftRight_eq_div_pow, Nat.pow_mul,
      ← digit_at_top hk hn]
    exact Nat.and_two_pow_sub_one_eq_mod _ 2
  have hd : v / 4 ^ k % 4 < 4 := Nat.mod_lt _ (by decide)
  have hrem : (s.rem <<< 2 + (s.val >>> (2 * (n - 1)) &&& 0x3)).toNat =
      4 * leftOver (leading v (k + 1)) + v / 4 ^ k % 4 := by
    rw [BitVec.toNat_add, hdigit, BitVec.toNat_shiftLeft, h.rem, Nat.shiftLeft_eq]
    omega
  have hval : (s.val <<< 2).toNat = v * 4 ^ (n - k) % 2 ^ 64 := by
    have hpow : 4 ^ (n - k) = 4 ^ (n - (k + 1)) * 2 ^ 2 := by
      rw [show n - k = n - (k + 1) + 1 by omega]
      exact Nat.pow_succ ..
    rw [BitVec.toNat_shiftLeft, h.val, Nat.shiftLeft_eq, hpow, ← Nat.mul_assoc, Nat.mod_mul_mod]
  have hres : (s.res <<< 1).toNat = 2 * (leading v (k + 1)).sqrt := by
    rw [BitVec.toNat_shiftLeft, h.res, Nat.shiftLeft_eq]
    omega
  have hprod : ((s.res <<< 1 <<< 1 + 1).setWidth 64 : U64).toNat = prodOf (leading v (k + 1)) := by
    rw [BitVec.toNat_setWidth, BitVec.toNat_add, BitVec.toNat_shiftLeft, hres, Nat.shiftLeft_eq,
      prodOf]
    have hone : (1 : U32).toNat = 1 := rfl
    omega
  have hle : (s.res <<< 1 <<< 1 + 1).setWidth 64 ≤
      s.rem <<< 2 + (s.val >>> (2 * (n - 1)) &&& 0x3) ↔
      prodOf (leading v (k + 1)) ≤ 4 * leftOver (leading v (k + 1)) + v / 4 ^ k % 4 := by
    rw [BitVec.le_def, hprod, hrem]
  dsimp only
  unfold SqrtLoop.step
  dsimp only
  by_cases hbit : prodOf (leading v (k + 1)) ≤ 4 * leftOver (leading v (k + 1)) + v / 4 ^ k % 4
  · rw [if_pos (hle.mpr hbit), if_pos hbit, if_pos hbit]
    refine ⟨hval, ?_, ?_⟩
    · have hone : (1 : U32).toNat = 1 := rfl
      rw [BitVec.toNat_add, hres, hone]
      exact Nat.mod_eq_of_lt (by omega)
    · rw [BitVec.toNat_sub_of_le (hle.mpr hbit), hprod, hrem]
  · rw [if_neg (fun hc => hbit (hle.mp hc)), if_neg hbit, if_neg hbit]
    exact ⟨hval, hres, hrem⟩

/-- As long as the comparison fits in 32 bits, the step finds the next bit of the root. -/
theorem Rooted.next {v n k : ℕ} {s : SqrtLoop} (h : Rooted v n (k + 1) s) (hv : v < 4 ^ n)
    (hk : k < n) (hn : n ≤ 32) (hfits : 4 * (leading v (k + 1)).sqrt + 1 < 2 ^ 32) :
    Rooted v n k (s.step (2 * (n - 1))) := by
  obtain ⟨hval, hres, hrem⟩ := h.step hv hk hn
  have hd : v / 4 ^ k % 4 < 4 := Nat.mod_lt _ (by decide)
  have hprod : prodOf (leading v (k + 1)) = 4 * (leading v (k + 1)).sqrt + 1 :=
    Nat.mod_eq_of_lt hfits
  rw [hprod] at hres hrem
  refine ⟨hval, ?_, ?_⟩
  · rw [leading_succ v k, sqrt_next hd, hres]
  · rw [leading_succ v k, leftOver_next hd, hrem]

theorem rooted_start {v n : ℕ} (hv : v < 4 ^ n) {val : U64} (hval : val.toNat = v) :
    Rooted v n n ⟨val, 0, 0⟩ := by
  have hzero : leading v n = 0 := Nat.div_eq_of_lt hv
  refine ⟨?_, ?_, ?_⟩
  · rw [Nat.sub_self, Nat.pow_zero, Nat.mul_one, hval, ← hval, Nat.mod_eq_of_lt val.isLt]
  · rw [hzero]
    rfl
  · rw [hzero]
    rfl

/-- The first steps, in which the comparison always fits. -/
theorem rooted_run {v n : ℕ} (hv : v < 4 ^ n) (hn : n ≤ 32) {val : U64} (hval : val.toNat = v)
    {i : ℕ} (hi : i ≤ n) (hlast : i ≤ 31) :
    Rooted v n (n - i) ((SqrtLoop.step (2 * (n - 1)))^[i] ⟨val, 0, 0⟩) := by
  induction i with
  | zero => exact rooted_start hv hval
  | succ i ih =>
    have hprev := ih (by omega) (by omega)
    rw [show n - i = n - (i + 1) + 1 by omega] at hprev
    rw [Function.iterate_succ_apply']
    refine hprev.next hv (by omega) hn ?_
    have hroot : (leading v (n - (i + 1) + 1)).sqrt < 2 ^ i :=
      sqrt_lt_two_pow ((leading_lt hv (by omega)).trans_eq (by congr 1; omega))
    have hpow : 2 ^ i ≤ 2 ^ 30 := Nat.pow_le_pow_right (by decide) (by omega)
    omega

/-! ## The whole loop -/

theorem narrow_root {v : ℕ} (hv : v < 2 ^ 32) {val : U64} (hval : val.toNat = v) :
    ((SqrtLoop.step 30)^[16] ⟨val, 0, 0⟩).res.toNat = v.sqrt := by
  have hrooted := rooted_run (n := 16) (i := 16) hv (by decide) hval le_rfl (by decide)
  have hall : leading v (16 - 16) = v := Nat.div_one v
  rw [← hall]
  exact hrooted.res

/-- In the last of 32 steps the comparison may be cut. -/
theorem wide_root {v : ℕ} (hv : v < 2 ^ 64) {val : U64} (hval : val.toNat = v) :
    ((SqrtLoop.step 62)^[32] ⟨val, 0, 0⟩).res.toNat = v.sqrt ↔
      ∀ m, m % 2 = 1 → 2 ^ 31 < m → v < m * m → v + 2 ^ 32 < m * m := by
  have hrooted := rooted_run (n := 32) (i := 31) hv (by decide) hval (by decide) le_rfl
  obtain ⟨-, hres, -⟩ := hrooted.step hv (by decide) le_rfl
  have hroot : (leading v 1).sqrt < 2 ^ 31 := sqrt_lt_two_pow (leading_lt (n := 32) hv (by decide))
  have hd : v / 4 ^ 0 % 4 < 4 := Nat.mod_lt _ (by decide)
  have hall : 4 * leading v 1 + v / 4 ^ 0 % 4 = v := by
    rw [← leading_succ]
    exact Nat.div_one v
  have hsqrt := sqrt_next (p := leading v 1) hd
  have hshort := next_bit_short_iff (p := leading v 1) (n := 2 ^ 32) hd
  rw [hall] at hsqrt hshort
  rw [Function.iterate_succ_apply', hsqrt]
  refine (Eq.congr_left hres).trans ?_
  generalize 4 * leftOver (leading v 1) + v / 4 ^ 0 % 4 = rest at hshort
  have hgrow : v.sqrt ≤ 2 * (leading v 1).sqrt + 1 := by
    rw [hsqrt]
    split_ifs <;> omega
  rcases Nat.lt_or_ge (4 * (leading v 1).sqrt + 1) (2 ^ 32) with hfits | hcut
  · -- the comparison is exact, and no odd square is near
    rw [prodOf, Nat.mod_eq_of_lt hfits]
    refine ⟨fun _ m _ hm _ => ?_, fun _ => rfl⟩
    have hsmall : v < 2 ^ 31 * 2 ^ 31 := Nat.sqrt_lt.mp (by omega)
    have hsq : (2 ^ 31 + 1) * (2 ^ 31 + 1) ≤ m * m := Nat.mul_le_mul hm hm
    omega
  · have hprod : prodOf (leading v 1) = 4 * (leading v 1).sqrt + 1 - 2 ^ 32 := by
      unfold prodOf
      omega
    rw [hprod]
    constructor
    · intro hsame m hodd _ hlt
      by_contra hge
      have hbit := (hshort hcut).mpr ⟨m, hodd, hlt, by omega⟩
      rw [if_pos (by omega), if_neg (by omega)] at hsame
      omega
    · intro hno
      by_cases hbit : rest < 4 * (leading v 1).sqrt + 1 ∧ 4 * (leading v 1).sqrt + 1 ≤ rest + 2 ^ 32
      · obtain ⟨m, hodd, hlt, hle⟩ := (hshort hcut).mp hbit
        have hlarge : 2 ^ 31 < m := by
          by_contra hle'
          have hsq : m * m ≤ 2 ^ 31 * 2 ^ 31 := Nat.mul_le_mul (by omega) (by omega)
          have hdouble : 2 * (leading v 1).sqrt ≤ v.sqrt := by
            rw [hsqrt]
            split_ifs <;> omega
          have hroot' : 2 ^ 31 ≤ v.sqrt := by omega
          have hv' : 2 ^ 31 * 2 ^ 31 ≤ v := Nat.le_sqrt.mp hroot'
          omega
        have := hno m hodd hlarge hlt
        omega
      · refine if_congr ?_ rfl rfl
        omega

namespace SqrtRegisters

/-- The unit is exact for every narrow parameter, and for a wide one unless the square of an odd
number beyond `2 ^ 31` lies above it by at most `2 ^ 32`. -/
theorem sqrtDone_exact_iff (s : SqrtRegisters) :
    (s.sqrtDone.sqrtRes.toNat * s.sqrtDone.sqrtRes.toNat ≤ s.param ∧
      s.param < (s.sqrtDone.sqrtRes.toNat + 1) * (s.sqrtDone.sqrtRes.toNat + 1)) ↔
      (s.wide → ∀ m, m % 2 = 1 → 2 ^ 31 < m → s.param < m * m → s.param + 2 ^ 32 < m * m) := by
  have hbit : s.sqrtCnt &&& ~~~0x8000 &&& 0x0001 = s.sqrtCnt &&& 0x0001 := by
    rw [BitVec.and_assoc]
    rfl
  have h0 := (s.sqrtVal 0).isLt
  have h1 := (s.sqrtVal 1).isLt
  rw [← Nat.eq_sqrt]
  unfold sqrtDone
  dsimp only
  rw [hbit]
  by_cases hwide : s.sqrtCnt &&& 0x0001 ≠ 0
  · have hparam : s.param = 2 ^ 32 * (s.sqrtVal 1).toNat + (s.sqrtVal 0).toNat := if_pos hwide
    have hval : (s.sqrtVal 1 ++ s.sqrtVal 0 : U64).toNat = s.param := by
      rw [BitVec.toNat_append, Nat.shiftLeft_eq, hparam, Nat.mul_comm,
        Nat.two_pow_add_eq_or_of_lt h0]
    have hlt : s.param < 2 ^ 64 := by omega
    have hexact := wide_root hlt hval
    rw [if_pos hwide]
    dsimp only
    rw [hexact]
    exact ⟨fun h _ => h, fun h => h hwide⟩
  · have hparam : s.param = (s.sqrtVal 0).toNat := if_neg hwide
    have hval : ((s.sqrtVal 0).setWidth 64 : U64).toNat = s.param := by
      rw [BitVec.toNat_setWidth, hparam]
      exact Nat.mod_eq_of_lt (by omega)
    have hexact := narrow_root (hparam ▸ h0) hval
    rw [if_neg hwide]
    dsimp only
    exact iff_of_true hexact fun h => absurd h hwide

/-- The square of 2^31 and one more: the root is one too large. -/
theorem sqrtDone_not_exact :
    let s : SqrtRegisters := ⟨1, fun i => if i = 0 then 1 else 0x40000000, 0⟩
    s.param = 2 ^ 62 + 1 ∧ s.sqrtDone.sqrtRes.toNat = 2 ^ 31 + 1 ∧
      ¬ s.sqrtDone.sqrtRes.toNat * s.sqrtDone.sqrtRes.toNat ≤ s.param := by
  decide +kernel

end SqrtRegisters
end MelonDS.NDS

import Mathlib.Data.Nat.Digits.Defs
import Mathlib.Data.Nat.Bitwise

/-!
# Numbers packed into lanes

Numbers below `2 ^ w`, one behind the other in lanes of `w` bits, are the digits of one number.
Masks act on each lane. A shift moves bits of a lane into the one below, where a mask can drop
them. Values of `k` bits with an overflow bit above them are cut to the largest such value in all
lanes at once.
-/

namespace MelonDS.Lanes

/-- Lanes of `w` bits, the lowest first. -/
abbrev pack (w : ℕ) (as : List ℕ) : ℕ := Nat.ofDigits (2 ^ w) as

def Fit (w : ℕ) (as : List ℕ) : Prop := ∀ a ∈ as, a < 2 ^ w

instance (w : ℕ) (as : List ℕ) : Decidable (Fit w as) :=
  inferInstanceAs (Decidable (∀ a ∈ as, a < 2 ^ w))

variable {w : ℕ}

theorem Fit.head {a : ℕ} {as : List ℕ} (h : Fit w (a :: as)) : a < 2 ^ w :=
  h a (List.mem_cons_self ..)

theorem Fit.tail {a : ℕ} {as : List ℕ} (h : Fit w (a :: as)) : Fit w as :=
  fun b hb => h b (List.mem_cons_of_mem _ hb)

theorem pack_cons (w a : ℕ) (as : List ℕ) : pack w (a :: as) = a + 2 ^ w * pack w as :=
  Nat.ofDigits_cons ..

/-! ## Two pieces -/

section
variable {a b : ℕ} (x y : ℕ) (ha : a < 2 ^ w) (hb : b < 2 ^ w)
include ha

theorem piece_mod : (a + 2 ^ w * x) % 2 ^ w = a := by
  rw [Nat.add_mul_mod_self_left, Nat.mod_eq_of_lt ha]

theorem piece_div : (a + 2 ^ w * x) / 2 ^ w = x := by
  rw [Nat.add_mul_div_left _ _ (Nat.two_pow_pos w), Nat.div_eq_of_lt ha, Nat.zero_add]

include hb

theorem land_pieces :
    (a + 2 ^ w * x) &&& (b + 2 ^ w * y) = (a &&& b) + 2 ^ w * (x &&& y) := by
  rw [← Nat.mod_add_div ((a + 2 ^ w * x) &&& (b + 2 ^ w * y)) (2 ^ w), Nat.and_mod_two_pow,
    Nat.and_div_two_pow, piece_mod x ha, piece_mod y hb, piece_div x ha, piece_div y hb]

theorem lor_pieces :
    (a + 2 ^ w * x) ||| (b + 2 ^ w * y) = (a ||| b) + 2 ^ w * (x ||| y) := by
  rw [← Nat.mod_add_div ((a + 2 ^ w * x) ||| (b + 2 ^ w * y)) (2 ^ w), Nat.or_mod_two_pow,
    Nat.or_div_two_pow, piece_mod x ha, piece_mod y hb, piece_div x ha, piece_div y hb]

end

/-- A shifted multiple of `2 ^ w` under a mask that starts there. -/
theorem scaled_shiftRight_land {s : ℕ} (hs : s ≤ w) (x m : ℕ) :
    (2 ^ w * x) >>> s &&& (2 ^ w * m) = 2 ^ w * (x >>> s &&& m) := by
  have hpow : 2 ^ w = 2 ^ (w - s) * 2 ^ s := by
    rw [← Nat.pow_add, Nat.sub_add_cancel hs]
  have hshift : (2 ^ w * x) >>> s = 2 ^ (w - s) * (x % 2 ^ s) + 2 ^ w * (x >>> s) := by
    rw [Nat.shiftRight_eq_div_pow, Nat.shiftRight_eq_div_pow, hpow, Nat.mul_assoc, Nat.mul_assoc,
      ← Nat.mul_add, Nat.mod_add_div, Nat.mul_left_comm, Nat.mul_div_cancel_left _
      (Nat.two_pow_pos s)]
  have hlow : 2 ^ (w - s) * (x % 2 ^ s) < 2 ^ w := by
    rw [hpow]
    exact Nat.mul_lt_mul_of_pos_left (Nat.mod_lt _ (Nat.two_pow_pos s)) (Nat.two_pow_pos _)
  have hpieces := land_pieces (x >>> s) m hlow (Nat.two_pow_pos w)
  rw [Nat.and_zero, Nat.zero_add, Nat.zero_add] at hpieces
  rw [hshift, hpieces]

/-! ## All lanes -/

theorem pack_land {as bs : List ℕ} (ha : Fit w as) (hb : Fit w bs)
    (hlen : as.length = bs.length) :
    pack w as &&& pack w bs = pack w (List.zipWith (· &&& ·) as bs) := by
  induction as generalizing bs with
  | nil => simp [pack]
  | cons a as ih =>
    cases bs with
    | nil => cases hlen
    | cons b bs =>
      rw [List.zipWith_cons_cons, pack_cons, pack_cons, pack_cons,
        land_pieces _ _ ha.head hb.head, ih ha.tail hb.tail (Nat.succ_injective hlen)]

theorem pack_lor {as bs : List ℕ} (ha : Fit w as) (hb : Fit w bs)
    (hlen : as.length = bs.length) :
    pack w as ||| pack w bs = pack w (List.zipWith (· ||| ·) as bs) := by
  induction as generalizing bs with
  | nil =>
    cases bs with
    | nil => simp [pack]
    | cons b bs => cases hlen
  | cons a as ih =>
    cases bs with
    | nil => cases hlen
    | cons b bs =>
      rw [List.zipWith_cons_cons, pack_cons, pack_cons, pack_cons,
        lor_pieces _ _ ha.head hb.head, ih ha.tail hb.tail (Nat.succ_injective hlen)]

/-- Bits that a shift brings in from the lane above are dropped by the mask. -/
theorem pack_shiftRight_land {as ms : List ℕ} {k : ℕ} (hk : k ≤ w) (ha : Fit w as)
    (hm : Fit (w - k) ms) (hlen : as.length = ms.length) :
    pack w as >>> k &&& pack w ms = pack w (List.zipWith (fun a m => a >>> k &&& m) as ms) := by
  induction as generalizing ms with
  | nil => simp [pack]
  | cons a as ih =>
    cases ms with
    | nil => cases hlen
    | cons m ms =>
      have hmask : m < 2 ^ w := hm.head.trans_le (Nat.pow_le_pow_right Nat.two_pos (Nat.sub_le ..))
      have hshift : (a + 2 ^ w * pack w as) >>> k = a >>> k + 2 ^ (w - k) * pack w as := by
        have hpow : 2 ^ w = 2 ^ k * 2 ^ (w - k) := by
          rw [← Nat.pow_add, Nat.add_sub_cancel' hk]
        rw [Nat.shiftRight_eq_div_pow, Nat.shiftRight_eq_div_pow, hpow, Nat.mul_assoc,
          Nat.add_mul_div_left _ _ (Nat.two_pow_pos k)]
      have hlow : (a >>> k + 2 ^ (w - k) * pack w as) &&& m = a >>> k &&& m := by
        have hsmall : a >>> k < 2 ^ (w - k) := by
          rw [Nat.shiftRight_eq_div_pow, Nat.div_lt_iff_lt_mul (Nat.two_pow_pos k), ← Nat.pow_add,
            Nat.sub_add_cancel hk]
          exact ha.head
        have hpieces := land_pieces (pack w as) 0 hsmall hm.head
        rw [Nat.mul_zero, Nat.add_zero, Nat.and_zero, Nat.mul_zero, Nat.add_zero] at hpieces
        exact hpieces
      rw [List.zipWith_cons_cons, pack_cons, pack_cons, pack_cons, ← ih ha.tail hm.tail
        (Nat.succ_injective hlen)]
      rw [← Nat.mod_add_div (_ &&& (m + 2 ^ w * pack w ms)) (2 ^ w), Nat.and_mod_two_pow,
        Nat.and_div_two_pow, piece_mod _ hmask, piece_div _ hmask]
      have hhigh : (a + 2 ^ w * pack w as) >>> k / 2 ^ w = pack w as >>> k := by
        rw [Nat.shiftRight_eq_div_pow, Nat.div_div_eq_div_mul, Nat.mul_comm (2 ^ k),
          ← Nat.div_div_eq_div_mul, piece_div _ ha.head, Nat.shiftRight_eq_div_pow]
      have hmod : (a + 2 ^ w * pack w as) >>> k % 2 ^ w &&& m = a >>> k &&& m := by
        rw [← hlow, ← hshift]
        conv_lhs => rw [← Nat.mod_eq_of_lt hmask]
        rw [← Nat.and_mod_two_pow, Nat.mod_eq_of_lt (Nat.and_lt_two_pow _ hmask)]
      rw [hhigh, hmod]

theorem land_bit (x k : ℕ) : x &&& 2 ^ k = 2 ^ k * (x / 2 ^ k % 2) := by
  have hpos := Nat.two_pow_pos k
  have hpieces := land_pieces (w := k) (x / 2 ^ k) 1 (Nat.mod_lt x hpos) hpos
  rw [Nat.mod_add_div, Nat.and_zero, Nat.zero_add, Nat.zero_add, Nat.mul_one,
    Nat.and_one_is_mod] at hpieces
  exact hpieces

/-- A value with an overflow bit, cut to `k` bits. -/
theorem saturate_lane {x : ℕ} (k : ℕ) (hx : x < 2 ^ (k + 1)) :
    (x &&& (2 ^ k - 1)) ||| ((2 ^ k - 1) * (x / 2 ^ k % 2)) = min x (2 ^ k - 1) := by
  have hpos := Nat.two_pow_pos k
  rw [Nat.and_two_pow_sub_one_eq_mod]
  rw [Nat.pow_succ] at hx
  rcases Nat.lt_or_ge x (2 ^ k) with hlt | hge
  · rw [Nat.div_eq_of_lt hlt, Nat.zero_mod, Nat.mul_zero, Nat.or_zero, Nat.mod_eq_of_lt hlt,
      Nat.min_eq_left (by omega)]
  · have hone : x / 2 ^ k = 1 := Nat.div_eq_of_lt_le (by omega) (by omega)
    have hmod : x % 2 ^ k < 2 ^ k := Nat.mod_lt x hpos
    rw [hone, Nat.one_mod, Nat.mul_one, Nat.min_eq_right (by omega)]
    apply Nat.le_antisymm
    · exact Nat.le_pred_of_lt (Nat.or_lt_two_pow hmod (by omega))
    · exact Nat.right_le_or

end MelonDS.Lanes

import Mathlib.Data.Nat.Basic
import MelonDS.Types

/-! # Little-endian fields of byte records -/

namespace MelonDS

/-- The low `k` bytes of a number, lowest first. -/
def toBytes : ℕ → ℕ → List U8
  | 0, _ => []
  | k + 1, v => BitVec.ofNat 8 v :: toBytes k (v / 256)

def ofBytes : List U8 → ℕ
  | [] => 0
  | b :: bs => b.toNat + 256 * ofBytes bs

@[simp] theorem length_toBytes (k v : ℕ) : (toBytes k v).length = k := by
  induction k generalizing v with
  | zero => rfl
  | succ k ih => rw [toBytes, List.length_cons, ih]

/-- The `n` bytes from `offset` on. -/
def field (bs : List U8) (offset n : ℕ) : List U8 := (bs.drop offset).take n

theorem field_take {bs : List U8} {a b n : ℕ} (h : a + b ≤ n) :
    field (bs.take n) a b = field bs a b := by
  rw [field, field, List.drop_take, List.take_take, Nat.min_eq_left (Nat.le_sub_of_add_le' h)]

theorem field_append (bs : List U8) (a b c : ℕ) :
    field bs a b ++ field bs (a + b) c = field bs a (b + c) := by
  rw [field, field, field, List.take_add, List.drop_drop]

theorem field_append_left {bs cs : List U8} {a b : ℕ} (h : a + b ≤ bs.length) :
    field (bs ++ cs) a b = field bs a b := by
  rw [← field_take h, List.take_left]

theorem field_skip {bs cs : List U8} {a k n : ℕ} (h : bs.length = k) (hk : k ≤ a) :
    field (bs ++ cs) a n = field cs (a - k) n := by
  rw [field, field, List.drop_append, h, List.drop_of_length_le (h.trans_le hk), List.nil_append]

theorem field_head {bs : List U8} (cs : List U8) {n : ℕ} (h : bs.length = n) :
    field (bs ++ cs) 0 n = bs := by
  rw [field, List.drop_zero, List.take_left' h]

theorem take_toBytes_append (k v : ℕ) (rest : List U8) : (toBytes k v ++ rest).take k = toBytes k v :=
  List.take_left' (length_toBytes k v)

theorem drop_toBytes_append (k v : ℕ) (rest : List U8) : (toBytes k v ++ rest).drop k = rest :=
  List.drop_left' (length_toBytes k v)

theorem ofBytes_toBytes (k v : ℕ) : ofBytes (toBytes k v) = v % 256 ^ k := by
  induction k generalizing v with
  | zero => simp [toBytes, ofBytes, Nat.mod_one]
  | succ k ih =>
    have hsplit : v % 256 ^ (k + 1) = v % 256 + 256 * (v / 256 % 256 ^ k) := by
      rw [Nat.pow_succ', Nat.mod_mul]
    rw [toBytes, ofBytes, ih, BitVec.toNat_ofNat, hsplit]

theorem ofBytes_lt (bs : List U8) : ofBytes bs < 256 ^ bs.length := by
  induction bs with
  | nil => exact Nat.one_pos
  | cons b bs ih =>
    have hb := b.isLt
    rw [ofBytes, List.length_cons, Nat.pow_succ]
    omega

theorem toBytes_ofBytes (bs : List U8) : toBytes bs.length (ofBytes bs) = bs := by
  induction bs with
  | nil => rfl
  | cons b bs ih =>
    have hb := b.isLt
    have hlow : BitVec.ofNat 8 (b.toNat + 256 * ofBytes bs) = b := by
      apply BitVec.eq_of_toNat_eq
      rw [BitVec.toNat_ofNat]
      omega
    have hhigh : (b.toNat + 256 * ofBytes bs) / 256 = ofBytes bs := by omega
    rw [ofBytes, List.length_cons, toBytes, hlow, hhigh, ih]

theorem getD_toBytes {k i : ℕ} (h : i < k) (v : ℕ) :
    (toBytes k v).getD i 0 = BitVec.ofNat 8 (v / 256 ^ i) := by
  induction k generalizing v i with
  | zero => exact absurd h (Nat.not_lt_zero i)
  | succ k ih =>
    cases i with
    | zero => simp [toBytes]
    | succ i =>
      rw [toBytes, List.getD_cons_succ, ih (Nat.lt_of_succ_lt_succ h), Nat.div_div_eq_div_mul,
        Nat.pow_succ']

theorem ofNat_ofBytes_toBytes {w k : ℕ} (h : w = 8 * k) (v : BitVec w) :
    BitVec.ofNat w (ofBytes (toBytes k v.toNat)) = v := by
  have hv : v.toNat < 256 ^ k := by
    have hpow : 2 ^ w = 256 ^ k := by
      rw [h, Nat.pow_mul]
    rw [← hpow]
    exact v.isLt
  rw [ofBytes_toBytes, Nat.mod_eq_of_lt hv, BitVec.ofNat_toNat, BitVec.setWidth_eq]

/-! ## A word and its four bytes -/

theorem append_bytes (w : U32) : w.extractLsb' 24 8 ++ w.extractLsb' 16 8 ++ w.extractLsb' 8 8 ++
    w.extractLsb' 0 8 = w := by
  ext i hi
  rw [BitVec.getElem_append]
  split_ifs with h0
  · rw [BitVec.getElem_extractLsb', Nat.zero_add]
    exact BitVec.getLsbD_eq_getElem hi
  · rw [BitVec.getElem_append]
    split_ifs with h1
    · rw [BitVec.getElem_extractLsb', show 8 + (i - 8) = i by omega]
      exact BitVec.getLsbD_eq_getElem hi
    · rw [BitVec.getElem_append]
      split_ifs with h2
      · rw [BitVec.getElem_extractLsb', show 16 + (i - 8 - 8) = i by omega]
        exact BitVec.getLsbD_eq_getElem hi
      · rw [BitVec.getElem_extractLsb', show 24 + (i - 8 - 8 - 8) = i by omega]
        exact BitVec.getLsbD_eq_getElem hi

theorem bytes_append (b3 b2 b1 b0 : U8) :
    (b3 ++ b2 ++ b1 ++ b0).extractLsb' 0 8 = b0 ∧ (b3 ++ b2 ++ b1 ++ b0).extractLsb' 8 8 = b1 ∧
      (b3 ++ b2 ++ b1 ++ b0).extractLsb' 16 8 = b2 ∧
      (b3 ++ b2 ++ b1 ++ b0).extractLsb' 24 8 = b3 := by
  refine ⟨?_, ?_, ?_, ?_⟩
  · ext i hi
    rw [BitVec.getElem_extractLsb', BitVec.getLsbD_append, if_pos (by omega), Nat.zero_add,
      BitVec.getLsbD_eq_getElem]
  · ext i hi
    rw [BitVec.getElem_extractLsb', BitVec.getLsbD_append, if_neg (by omega),
      BitVec.getLsbD_append, if_pos (by omega), Nat.add_sub_cancel_left,
      BitVec.getLsbD_eq_getElem]
  · ext i hi
    rw [BitVec.getElem_extractLsb', BitVec.getLsbD_append, if_neg (by omega),
      BitVec.getLsbD_append, if_neg (by omega), BitVec.getLsbD_append, if_pos (by omega),
      show 16 + i - 8 - 8 = i by omega, BitVec.getLsbD_eq_getElem]
  · ext i hi
    rw [BitVec.getElem_extractLsb', BitVec.getLsbD_append, if_neg (by omega),
      BitVec.getLsbD_append, if_neg (by omega), BitVec.getLsbD_append, if_neg (by omega),
      show 24 + i - 8 - 8 - 8 = i by omega, BitVec.getLsbD_eq_getElem]

end MelonDS

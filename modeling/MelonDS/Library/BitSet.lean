import Mathlib.Data.BitVec
import Mathlib.Data.Fintype.Card
import Mathlib.Data.List.FinRange
import Mathlib.Data.List.Sort

/-!
# Bit masks as sets

A mask of `w` bits stands for the set of the numbers below `w` whose bit is set. Its members
come in ascending order, as a loop over the set bits visits them.
-/

namespace MelonDS.BitSet

variable {w : ℕ} {m n : BitVec w} {i j : Fin w}

/-- The set bits, lowest first. -/
def members (m : BitVec w) : List (Fin w) := (List.finRange w).filter fun i => m.getLsbD i

def count (m : BitVec w) : ℕ := (members m).length

def single (i : Fin w) : BitVec w := BitVec.twoPow w i

@[simp] theorem mem_members : i ∈ members m ↔ m.getLsbD i = true := by
  rw [members, List.mem_filter]
  exact ⟨fun h => h.2, fun h => ⟨List.mem_finRange i, h⟩⟩

theorem nodup_members (m : BitVec w) : (members m).Nodup := (List.nodup_finRange w).filter _

theorem getLsbD_single : (single i).getLsbD j = decide (j = i) := by
  rw [single, BitVec.getLsbD_twoPow, decide_eq_true i.isLt, Bool.true_and]
  exact decide_eq_decide.mpr ⟨fun h => Fin.ext h.symm, fun h => congrArg Fin.val h.symm⟩

@[simp] theorem getLsbD_insert : (m ||| single i).getLsbD j = (m.getLsbD j || decide (j = i)) := by
  rw [BitVec.getLsbD_or, getLsbD_single]

@[simp] theorem getLsbD_diff :
    (m &&& ~~~n).getLsbD j = (m.getLsbD j && !n.getLsbD j) := by
  rw [BitVec.getLsbD_and, BitVec.getLsbD_not, decide_eq_true j.isLt, Bool.true_and]

@[simp] theorem getLsbD_erase :
    (m &&& ~~~single i).getLsbD j = (m.getLsbD j && !decide (j = i)) := by
  rw [getLsbD_diff, getLsbD_single]

/-- Erasing a list of members one by one. -/
theorem getLsbD_foldl_erase (l : List (Fin w)) (m : BitVec w) :
    (l.foldl (fun m i => m &&& ~~~single i) m).getLsbD j = (m.getLsbD j && !decide (j ∈ l)) := by
  induction l generalizing m with
  | nil => rw [decide_eq_false List.not_mem_nil, Bool.not_false, Bool.and_true, List.foldl_nil]
  | cons i l ih =>
    rw [List.foldl_cons, ih, getLsbD_erase, Bool.and_assoc, ← Bool.not_or, ← Bool.decide_or]
    simp only [List.mem_cons]

/-- The count of a mask is the size of its set. -/
theorem count_eq_card (m : BitVec w) :
    count m = (Finset.univ.filter fun i : Fin w => m.getLsbD i = true).card := by
  have hset : (members m).toFinset = Finset.univ.filter fun i : Fin w => m.getLsbD i = true := by
    ext i
    rw [List.mem_toFinset, mem_members, Finset.mem_filter]
    exact ⟨fun h => ⟨Finset.mem_univ i, h⟩, fun h => h.2⟩
  rw [← hset, List.toFinset_card_of_nodup (nodup_members m), count]

theorem count_mono (h : ∀ i : Fin w, m.getLsbD i = true → n.getLsbD i = true) :
    count m ≤ count n := by
  rw [count_eq_card, count_eq_card]
  refine Finset.card_le_card fun i hi => ?_
  rw [Finset.mem_filter] at hi ⊢
  exact ⟨hi.1, h i hi.2⟩

theorem count_insert (h : m.getLsbD i = false) : count (m ||| single i) = count m + 1 := by
  rw [count_eq_card, count_eq_card]
  have hset : (Finset.univ.filter fun j : Fin w => (m ||| single i).getLsbD j = true) =
      insert i (Finset.univ.filter fun j : Fin w => m.getLsbD j = true) := by
    ext j
    rw [Finset.mem_insert, Finset.mem_filter, Finset.mem_filter, getLsbD_insert, Bool.or_eq_true,
      decide_eq_true_eq]
    have huniv := Finset.mem_univ j
    tauto
  rw [hset, Finset.card_insert_of_notMem]
  rw [Finset.mem_filter, h]
  exact fun hmem => absurd hmem.2 (by decide)

theorem count_erase (h : m.getLsbD i = true) : count (m &&& ~~~single i) + 1 = count m := by
  rw [count_eq_card, count_eq_card]
  have hset : (Finset.univ.filter fun j : Fin w => (m &&& ~~~single i).getLsbD j = true) =
      (Finset.univ.filter fun j : Fin w => m.getLsbD j = true).erase i := by
    ext j
    rw [Finset.mem_erase, Finset.mem_filter, Finset.mem_filter, getLsbD_erase, Bool.and_eq_true,
      Bool.not_eq_true', decide_eq_false_iff_not]
    tauto
  rw [hset]
  refine Finset.card_erase_add_one ?_
  rw [Finset.mem_filter]
  exact ⟨Finset.mem_univ i, h⟩

/-- Two masks without a common bit have the count of their union together. -/
theorem count_add_le {u : BitVec w}
    (hm : ∀ i : Fin w, m.getLsbD i = true → u.getLsbD i = true)
    (hn : ∀ i : Fin w, n.getLsbD i = true → u.getLsbD i = true ∧ m.getLsbD i = false) :
    count m + count n ≤ count u := by
  rw [count_eq_card, count_eq_card, count_eq_card, ← Finset.card_union_of_disjoint]
  · refine Finset.card_le_card fun i hi => ?_
    rw [Finset.mem_union, Finset.mem_filter, Finset.mem_filter] at hi
    rw [Finset.mem_filter]
    exact ⟨Finset.mem_univ i, hi.elim (fun h => hm i h.2) fun h => (hn i h.2).1⟩
  · refine Finset.disjoint_left.mpr fun i hi hi' => ?_
    rw [Finset.mem_filter] at hi hi'
    exact absurd (hi.2.symm.trans (hn i hi'.2).2) (by decide)

end MelonDS.BitSet

/-!
# Walking the set bits of a word

`x &&& (x - 1)` drops the lowest set bit. A loop that takes the lowest bit and drops it visits the
set bits in ascending order.
-/

namespace MelonDS.LowestBit

variable {w : ℕ} {x : BitVec w}

/-- The word above and below its lowest set bit. -/
theorem toNat_eq_of_ne_zero (hx : x ≠ 0) : ∃ q, x.toNat = 2 ^ x.ctz.toNat * (2 * q + 1) := by
  have hlow : x.toNat % 2 ^ x.ctz.toNat = 0 := by
    refine Nat.eq_of_testBit_eq fun i => ?_
    rw [Nat.testBit_mod_two_pow, Nat.zero_testBit]
    by_cases hi : i < x.ctz.toNat
    · rw [BitVec.testBit_toNat, BitVec.getLsbD_false_of_lt_ctz hi, Bool.and_false]
    · rw [decide_eq_false hi, Bool.false_and]
  obtain ⟨r, hr⟩ := Nat.dvd_of_mod_eq_zero hlow
  have hodd : r % 2 = 1 := by
    have hbit : x.toNat.testBit x.ctz.toNat = true := by
      rw [BitVec.testBit_toNat]
      exact BitVec.getLsbD_true_ctz_of_ne_zero hx
    rw [hr, Nat.testBit_eq_decide_div_mod_eq, Nat.mul_div_cancel_left _ (Nat.two_pow_pos _)] at hbit
    exact of_decide_eq_true hbit
  exact ⟨r / 2, by rw [hr]; congr 1; omega⟩

/-- Dropping the lowest set bit leaves the others. -/
theorem getLsbD_and_sub_one (hx : x ≠ 0) (i : ℕ) :
    (x &&& (x - 1)).getLsbD i = (x.getLsbD i && decide (i ≠ x.ctz.toNat)) := by
  obtain ⟨q, hq⟩ := toNat_eq_of_ne_zero hx
  have hpow := Nat.two_pow_pos x.ctz.toNat
  have hle : 1 ≤ x.toNat := by
    rw [hq]
    exact Nat.mul_pos hpow (Nat.succ_pos _)
  have hone : (1 : BitVec w).toNat = 1 := by
    have hlt := x.isLt
    change 1 % 2 ^ w = 1
    exact Nat.mod_eq_of_lt (by omega)
  have hsub : (x - 1).toNat = 2 ^ x.ctz.toNat * (2 * q) + (2 ^ x.ctz.toNat - 1) := by
    rw [BitVec.toNat_sub_of_le (BitVec.le_def.mpr (hone ▸ hle)), hone, hq, Nat.mul_succ]
    omega
  have hbit := BitVec.getLsbD_true_ctz_of_ne_zero hx
  rw [BitVec.getLsbD_and]
  rcases Nat.lt_trichotomy i x.ctz.toNat with hi | rfl | hi
  · rw [BitVec.getLsbD_false_of_lt_ctz hi, Bool.false_and, Bool.false_and]
  · rw [decide_eq_false (not_not.mpr rfl), Bool.and_false, ← BitVec.testBit_toNat (x := x - 1), hsub,
      Nat.testBit_two_pow_mul_add _ (by omega), if_neg (Nat.lt_irrefl _), Nat.sub_self,
      Nat.testBit_zero, Nat.mul_mod_right, decide_eq_false (by decide), Bool.and_false]
  · have hsame : (x - 1).getLsbD i = x.getLsbD i := by
      obtain ⟨k, rfl⟩ := Nat.exists_eq_add_of_lt hi
      rw [← BitVec.testBit_toNat, ← BitVec.testBit_toNat, hsub, hq,
        Nat.testBit_two_pow_mul_add _ (by omega), if_neg (by omega), Nat.testBit_two_pow_mul,
        decide_eq_true (by omega), Bool.true_and,
        show x.ctz.toNat + k + 1 - x.ctz.toNat = k + 1 by omega, Nat.testBit_succ,
        Nat.testBit_succ, show 2 * q / 2 = (2 * q + 1) / 2 by omega]
    rw [hsame, Bool.and_self, decide_eq_true (Nat.ne_of_gt hi), Bool.and_true]

theorem and_sub_one_lt (hx : x ≠ 0) : (x &&& (x - 1)).toNat < x.toNat := by
  have hle : (x &&& (x - 1)).toNat ≤ x.toNat := by
    rw [BitVec.toNat_and]
    exact Nat.and_le_left
  refine Nat.lt_of_le_of_ne hle fun heq => ?_
  have hbit := getLsbD_and_sub_one hx x.ctz.toNat
  rw [BitVec.eq_of_toNat_eq heq, BitVec.getLsbD_true_ctz_of_ne_zero hx] at hbit
  simp at hbit

/-- The bits in the order of `for (; x; x &= x - 1)`. -/
def ascending (x : BitVec w) : List ℕ :=
  if _h : x = 0 then [] else x.ctz.toNat :: ascending (x &&& (x - 1))
termination_by x.toNat
decreasing_by exact and_sub_one_lt _h

@[simp] theorem ascending_zero : ascending 0#w = [] := by
  rw [ascending]
  exact dif_pos rfl

theorem ascending_of_ne_zero (hx : x ≠ 0) :
    ascending x = x.ctz.toNat :: ascending (x &&& (x - 1)) := by rw [ascending, dif_neg hx]

@[simp] theorem mem_ascending {i : ℕ} : i ∈ ascending x ↔ x.getLsbD i = true := by
  induction x using ascending.induct with
  | case1 => simp
  | case2 x hx ih =>
    rw [ascending_of_ne_zero hx, List.mem_cons, ih, getLsbD_and_sub_one hx]
    by_cases hi : i = x.ctz.toNat
    · rw [hi, BitVec.getLsbD_true_ctz_of_ne_zero hx]
      simp
    · simp [hi]

theorem pairwise_ascending (x : BitVec w) : (ascending x).Pairwise (· < ·) := by
  induction x using ascending.induct with
  | case1 => simp
  | case2 x hx ih =>
    rw [ascending_of_ne_zero hx, List.pairwise_cons]
    refine ⟨fun i hi => ?_, ih⟩
    rw [mem_ascending, getLsbD_and_sub_one hx, Bool.and_eq_true] at hi
    have hne := of_decide_eq_true hi.2
    refine Nat.lt_of_le_of_ne (Nat.le_of_not_lt fun hlt => ?_) (Ne.symm hne)
    rw [BitVec.getLsbD_false_of_lt_ctz hlt] at hi
    exact absurd hi.1 Bool.false_ne_true

/-- Two ascending lists with the same elements are one. -/
theorem eq_of_pairwise_lt {l m : List ℕ} (hl : l.Pairwise (· < ·)) (hm : m.Pairwise (· < ·))
    (hmem : ∀ i, i ∈ l ↔ i ∈ m) : l = m :=
  hl.eq_of_mem_iff hm hmem

end MelonDS.LowestBit

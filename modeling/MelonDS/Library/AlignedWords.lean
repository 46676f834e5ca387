import MelonDS.Types

/-!
# Aligned words in bytes

A word is four bytes, the lowest first. Writing words at addresses that are multiples of four
changes each of these words and no other, whatever the order and however often.
-/

namespace MelonDS.AlignedWords

def wordAt (mem : ℕ → U8) (a : ℕ) : U32 := mem (a + 3) ++ mem (a + 2) ++ mem (a + 1) ++ mem a

/-- Byte `i` of a word. -/
def byteOf (v : U32) (i : ℕ) : U8 := v.extractLsb' (8 * i) 8

def setWord (mem : ℕ → U8) (a : ℕ) (v : U32) : ℕ → U8 := fun i =>
  if a ≤ i ∧ i < a + 4 then byteOf v (i - a) else mem i

theorem wordAt_of_bytes {mem : ℕ → U8} {a : ℕ} {v : U32} (h : ∀ i < 4, mem (a + i) = byteOf v i) :
    wordAt mem a = v := by
  have h0 := h 0 (by decide)
  rw [Nat.add_zero] at h0
  rw [wordAt, h 3 (by decide), h 2 (by decide), h 1 (by decide), h0]
  apply BitVec.eq_of_getLsbD_eq
  intro i hi
  simp only [BitVec.getLsbD_append, byteOf, BitVec.getLsbD_extractLsb']
  have hcases : i < 8 ∨ 8 ≤ i ∧ i < 16 ∨ 16 ≤ i ∧ i < 24 ∨ 24 ≤ i := by omega
  rcases hcases with h | ⟨h, h'⟩ | ⟨h, h'⟩ | h
  · simp [h]
  · simp [show ¬i < 8 by omega, show i - 8 < 8 by omega, show 8 + (i - 8) = i by omega]
  · simp [show ¬i < 8 by omega, show ¬i - 8 < 8 by omega, show i - 16 < 8 by omega,
      show 16 + (i - 16) = i by omega, Nat.sub_sub]
  · simp [show ¬i < 8 by omega, show ¬i - 8 < 8 by omega, show ¬i - 16 < 8 by omega,
      show i - 24 < 8 by omega, show 24 + (i - 24) = i by omega, Nat.sub_sub]

/-- The words written are those of the list, each with the value that belongs to it. -/
theorem foldl_setWord {as : List ℕ} (h : ∀ a ∈ as, a % 4 = 0) (value : ℕ → U32) (mem : ℕ → U8)
    (i : ℕ) :
    as.foldl (fun mem a => setWord mem a (value a)) mem i =
      if 4 * (i / 4) ∈ as then byteOf (value (4 * (i / 4))) (i % 4) else mem i := by
  induction as generalizing mem with
  | nil => simp
  | cons a as ih =>
    have ha := h a (List.mem_cons_self ..)
    rw [List.foldl_cons, ih fun b hb => h b (List.mem_cons_of_mem a hb)]
    by_cases hrest : 4 * (i / 4) ∈ as
    · rw [if_pos hrest, if_pos (List.mem_cons_of_mem a hrest)]
    · rw [if_neg hrest]
      by_cases hthis : 4 * (i / 4) = a
      · rw [if_pos (hthis ▸ List.mem_cons_self ..), setWord, if_pos (by omega), ← hthis]
        congr 1
        omega
      · have hnone : 4 * (i / 4) ∉ a :: as := by
          rw [List.mem_cons, not_or]
          exact ⟨hthis, hrest⟩
        rw [if_neg hnone, setWord, if_neg (by omega)]

end MelonDS.AlignedWords

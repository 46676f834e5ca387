import Mathlib.Tactic.FinCases
import MelonDS.DSi.AES
import MelonDS.Library.LittleEndian

/-!
# Blocks of the AES engine

A block is its four words, and blocks pass through the FIFOs in reversed byte order. The CCM
counter counts in the last three bytes and leaves the nonce alone.
-/

namespace MelonDS.DSi

/-! ## Blocks and words -/

namespace Block

theorem ofWords_byte (w : Fin 4 → U32) (i : Fin 4) {k : ℕ} (hk : k < 4) :
    ofWords w ⟨4 * i + k, by omega⟩ = (w i).extractLsb' (8 * k) 8 := by
  have hword : (⟨(4 * (i : ℕ) + k) / 4, by omega⟩ : Fin 4) = i :=
    Fin.ext (by change (4 * (i : ℕ) + k) / 4 = i; omega)
  have hbyte : (4 * (i : ℕ) + k) % 4 = k := by omega
  simp only [ofWords, hword, hbyte]

theorem word_ofWords (w : Fin 4 → U32) (i : Fin 4) : (ofWords w).word i = w i := by
  have h0 : ofWords w ⟨4 * i, by omega⟩ = (w i).extractLsb' 0 8 :=
    ofWords_byte w i (k := 0) (by decide)
  rw [word, h0, ofWords_byte w i (k := 1) (by decide), ofWords_byte w i (k := 2) (by decide),
    ofWords_byte w i (k := 3) (by decide)]
  exact append_bytes (w i)

theorem ofWords_word (b : Block) : ofWords b.word = b := by
  funext i
  obtain ⟨h0, h1, h2, h3⟩ := bytes_append (b ⟨4 * (i / 4) + 3, by omega⟩) (b ⟨4 * (i / 4) + 2, by omega⟩)
    (b ⟨4 * (i / 4) + 1, by omega⟩) (b ⟨4 * (i / 4), by omega⟩)
  have hmod : (i : ℕ) % 4 = 0 ∨ (i : ℕ) % 4 = 1 ∨ (i : ℕ) % 4 = 2 ∨ (i : ℕ) % 4 = 3 := by omega
  rcases hmod with h | h | h | h
  · rw [ofWords, h]
    refine h0.trans (congrArg b (Fin.ext ?_))
    change 4 * ((i : ℕ) / 4) = i
    omega
  · rw [ofWords, h]
    refine h1.trans (congrArg b (Fin.ext ?_))
    change 4 * ((i : ℕ) / 4) + 1 = i
    omega
  · rw [ofWords, h]
    refine h2.trans (congrArg b (Fin.ext ?_))
    change 4 * ((i : ℕ) / 4) + 2 = i
    omega
  · rw [ofWords, h]
    refine h3.trans (congrArg b (Fin.ext ?_))
    change 4 * ((i : ℕ) / 4) + 3 = i
    omega
theorem words_ofWords (w : Fin 4 → U32) : (ofWords w).words = [w 0, w 1, w 2, w 3] := by
  simp only [words, word_ofWords]

@[simp] theorem length_words (b : Block) : b.words.length = 4 := rfl

theorem words_injective : Function.Injective words := by
  intro a b h
  rw [← ofWords_word a, ← ofWords_word b]
  congr 1
  simp only [words, List.cons.injEq, and_true] at h
  funext i
  fin_cases i
  · exact h.1
  · exact h.2.1
  · exact h.2.2.1
  · exact h.2.2.2

@[simp] theorem bswap128_bswap128 (b : Block) : b.bswap128.bswap128 = b := by
  funext i
  exact congrArg b (Fin.rev_rev i)

theorem xor_xor_cancel (a b : Block) : (a.xor b).xor b = a := by
  funext i
  rw [xor, xor, BitVec.xor_assoc, BitVec.xor_self, BitVec.xor_zero]

/-! ## The CCM counter -/

/-- The number in the last three bytes. -/
def counterValue (iv : Block) : ℕ := (iv 13).toNat * 65536 + (iv 14).toNat * 256 + (iv 15).toNat

theorem toNat_add_one {x : U8} (h : x ≠ 255) : (x + 1).toNat = x.toNat + 1 := by
  have hne : x.toNat ≠ 255 := fun heq => h (BitVec.eq_of_toNat_eq heq)
  have hlt := x.isLt
  rw [BitVec.toNat_add]
  change (x.toNat + 1) % 256 = _
  omega

theorem toNat_255 : (255 : U8).toNat = 255 := rfl

theorem toNat_zero : (0 : U8).toNat = 0 := rfl

/-- The three ways an increment ends within the counter. -/
theorem increment_cases {iv : Block} (h : iv.counterValue + 1 < 0x1000000) :
    iv 15 ≠ 255 ∧ iv.increment = Function.update iv 15 (iv 15 + 1) ∨
      iv 15 = 255 ∧ iv 14 ≠ 255 ∧
        iv.increment = Function.update (Function.update iv 15 0) 14 (iv 14 + 1) ∨
      iv 15 = 255 ∧ iv 14 = 255 ∧ iv 13 ≠ 255 ∧ iv.increment =
        Function.update (Function.update (Function.update iv 15 0) 14 0) 13 (iv 13 + 1) := by
  by_cases h15 : iv 15 = 255
  · by_cases h14 : iv 14 = 255
    · have h13 : iv 13 ≠ 255 := by
        intro h13
        rw [counterValue, h13, h14, h15] at h
        exact absurd h (by decide)
      refine .inr (.inr ⟨h15, h14, h13, ?_⟩)
      refine (if_pos h15).trans ((if_pos h14).trans (if_neg h13))
    · exact .inr (.inl ⟨h15, h14, (if_pos h15).trans (if_neg h14)⟩)
  · exact .inl ⟨h15, if_neg h15⟩

/-- An increment that does not overflow the counter leaves the nonce alone. -/
theorem increment_counter {iv : Block} (h : iv.counterValue + 1 < 0x1000000) :
    iv.increment.counterValue = iv.counterValue + 1 ∧
      ∀ i : Fin 16, (i : ℕ) < 13 → iv.increment i = iv i := by
  rcases increment_cases h with ⟨h15, heq⟩ | ⟨h15, h14, heq⟩ | ⟨h15, h14, h13, heq⟩
  · have hadd := toNat_add_one h15
    constructor
    · simp only [heq, counterValue, Function.update_self, ne_eq, Fin.reduceEq, not_false_eq_true,
        Function.update_of_ne, hadd]
      omega
    · intro i hi
      rw [heq, Function.update_of_ne (by rintro rfl; exact absurd hi (by decide))]
  · have hadd := toNat_add_one h14
    constructor
    · simp only [heq, counterValue, Function.update_self, ne_eq, Fin.reduceEq, not_false_eq_true,
        Function.update_of_ne, hadd, h15]
      rw [toNat_255, toNat_zero]
      omega
    · intro i hi
      rw [heq, Function.update_of_ne (by rintro rfl; exact absurd hi (by decide)),
        Function.update_of_ne (by rintro rfl; exact absurd hi (by decide))]
  · have hadd := toNat_add_one h13
    constructor
    · simp only [heq, counterValue, Function.update_self, ne_eq, Fin.reduceEq, not_false_eq_true,
        Function.update_of_ne, hadd, h15, h14]
      rw [toNat_255, toNat_zero]
      omega
    · intro i hi
      rw [heq, Function.update_of_ne (by rintro rfl; exact absurd hi (by decide)),
        Function.update_of_ne (by rintro rfl; exact absurd hi (by decide)),
        Function.update_of_ne (by rintro rfl; exact absurd hi (by decide))]

theorem increment_iterate {iv : Block} {n : ℕ} (h : iv.counterValue + n < 0x1000000) :
    (increment^[n] iv).counterValue = iv.counterValue + n ∧
      ∀ i : Fin 16, (i : ℕ) < 13 → increment^[n] iv i = iv i := by
  induction n with
  | zero => exact ⟨(Nat.add_zero _).symm, fun _ _ => rfl⟩
  | succ n ih =>
    obtain ⟨hvalue, hsame⟩ := ih (by omega)
    have hnext : counterValue (increment^[n] iv) + 1 < 0x1000000 := by
      rw [hvalue]
      omega
    obtain ⟨hvalue', hsame'⟩ := increment_counter hnext
    rw [Function.iterate_succ_apply', hvalue', hvalue]
    exact ⟨Nat.add_assoc _ n 1, fun i hi => (hsame' i hi).trans (hsame i hi)⟩

/-- The tag is encrypted with the counter at zero, however many blocks came before. -/
theorem setCounter_iterate (iv : Block) {n : ℕ} (h : n < 0x10000) :
    (increment^[n] iv.ccmCounter).setCounter 0 0 0 = iv.ccmCounter.setCounter 0 0 0 := by
  have hone : iv.ccmCounter.counterValue = 1 := by
    simp [counterValue, ccmCounter]
  have hvalue : iv.ccmCounter.counterValue + n < 0x1000000 := by
    rw [hone]
    omega
  obtain ⟨-, hsame⟩ := increment_iterate hvalue
  funext i
  simp only [setCounter, Function.update_apply]
  split_ifs with h15 h14 h13
  · rfl
  · rfl
  · rfl
  · refine hsame i ?_
    have := i.isLt
    have h15' : (i : ℕ) ≠ 15 := fun heq => h15 (Fin.ext heq)
    have h14' : (i : ℕ) ≠ 14 := fun heq => h14 (Fin.ext heq)
    have h13' : (i : ℕ) ≠ 13 := fun heq => h13 (Fin.ext heq)
    omega

end Block

/-- The words that carry blocks of the cipher through a FIFO. -/
def stream (blocks : List Block) : List U32 := blocks.flatMap fun b => b.bswap128.words

theorem stream_append (as bs : List Block) : stream (as ++ bs) = stream as ++ stream bs := by
  simp [stream]

theorem stream_singleton (b : Block) : stream [b] = b.bswap128.words := by
  simp [stream]

@[simp] theorem length_stream (blocks : List Block) :
    (stream blocks).length = 4 * blocks.length := by
  induction blocks with
  | nil => rfl
  | cons b bs ih =>
    rw [stream, List.flatMap_cons, List.length_append, ← stream, ih, Block.length_words,
      List.length_cons]
    omega

/-- The words determine the blocks. -/
theorem stream_injective : Function.Injective stream := by
  intro as
  induction as with
  | nil =>
    intro bs h
    have hlength := congrArg List.length h
    simp only [length_stream, List.length_nil] at hlength
    exact (List.length_eq_zero_iff.mp (by omega)).symm
  | cons a as ih =>
    intro bs h
    cases bs with
    | nil =>
      have hlength := congrArg List.length h
      simp only [length_stream, List.length_nil, List.length_cons] at hlength
      omega
    | cons b bs =>
      obtain ⟨hhead, htail⟩ := List.append_inj h rfl
      have hb := Block.words_injective hhead
      rw [← Block.bswap128_bswap128 a, hb, Block.bswap128_bswap128, ih htail]

end MelonDS.DSi

import Mathlib.Data.List.TakeWhile
import Mathlib.Tactic.Common

/-!
# Hexadecimal text

Bytes and numbers written in hexadecimal digits of either case, and their conversion back: the
longest run of digits is a number, unless it is empty or does not fit in 32 bits.
-/

namespace MelonDS.HexText

/-- The value of a digit. -/
def digit (c : BitVec 8) : Option ℕ :=
  if 48 ≤ c.toNat ∧ c.toNat ≤ 57 then some (c.toNat - 48)
  else if 97 ≤ c.toNat ∧ c.toNat ≤ 102 then some (c.toNat - 87)
  else if 65 ≤ c.toNat ∧ c.toNat ≤ 70 then some (c.toNat - 55)
  else none

def IsDigit (c : BitVec 8) : Prop := (digit c).isSome = true

instance : DecidablePred IsDigit := fun c => inferInstanceAs (Decidable ((digit c).isSome = true))

/-- The number a text of digits stands for. -/
def number (digits : List (BitVec 8)) : ℕ :=
  digits.foldl (fun n c => 16 * n + (digit c).getD 0) 0

/-- `std::from_chars` for an unsigned 32-bit number in base 16: the number and where it ends. -/
def fromChars (text : List (BitVec 8)) : Option (ℕ × ℕ) :=
  let digits := text.takeWhile fun c => (digit c).isSome
  if digits = [] ∨ 0x100000000 ≤ number digits then none
  else some (number digits, digits.length)

/-- A text that is a number as a whole. -/
def IsNumber (text : List (BitVec 8)) (n : ℕ) : Prop :=
  text ≠ [] ∧ (∀ c ∈ text, IsDigit c) ∧ number text = n ∧ n < 0x100000000

/-- The digit of a value below 16, in lower case. -/
def digitOf (v : ℕ) : BitVec 8 := BitVec.ofNat 8 (if v < 10 then v + 48 else v + 87)

/-- Both digits of a byte. -/
def byteText (b : BitVec 8) : List (BitVec 8) := [digitOf (b.toNat / 16), digitOf (b.toNat % 16)]

def bytesText (data : List (BitVec 8)) : List (BitVec 8) := data.flatMap byteText

/-- The bytes that a text of pairs of digits stands for. -/
def bytesOf : List (BitVec 8) → Option (List (BitVec 8))
  | [] => some []
  | [_] => none
  | a :: b :: rest =>
    match digit a, digit b, bytesOf rest with
    | some x, some y, some data => some (BitVec.ofNat 8 (16 * x + y) :: data)
    | _, _, _ => none

theorem digit_lt {c : BitVec 8} {v : ℕ} (h : digit c = some v) : v < 16 := by
  unfold digit at h
  split_ifs at h <;> (simp only [Option.some.injEq] at h; omega)

theorem fromChars_eq_iff {text : List (BitVec 8)} {n : ℕ} :
    fromChars text = some (n, text.length) ↔ IsNumber text n := by
  unfold fromChars IsNumber
  constructor
  · intro h
    dsimp only at h
    split_ifs at h with hbad
    simp only [Option.some.injEq, Prod.mk.injEq] at h
    have hall : text.takeWhile (fun c => (digit c).isSome) = text :=
      (List.takeWhile_prefix _).eq_of_length h.2
    rw [hall] at hbad h
    exact ⟨fun hnil => hbad (.inl hnil), List.takeWhile_eq_self_iff.mp hall, h.1, by omega⟩
  · rintro ⟨hnil, hdigits, hvalue, hlt⟩
    have hall : text.takeWhile (fun c => (digit c).isSome) = text :=
      List.takeWhile_eq_self_iff.mpr hdigits
    have hgood : ¬(text = [] ∨ 0x100000000 ≤ number text) := by
      rw [not_or, hvalue, not_le]
      exact ⟨hnil, hlt⟩
    rw [hall, if_neg hgood, hvalue]

theorem fromChars_pair (a b : BitVec 8) :
    (∃ x y, digit a = some x ∧ digit b = some y ∧ fromChars [a, b] = some (16 * x + y, 2)) ∨
      (digit a = none ∨ digit b = none) ∧ ∀ n, fromChars [a, b] ≠ some (n, 2) := by
  cases ha : digit a with
  | none =>
    refine .inr ⟨.inl rfl, fun n h => ?_⟩
    have hdigits := (fromChars_eq_iff.mp h).2.1 a (List.mem_cons_self ..)
    simp [IsDigit, ha] at hdigits
  | some x =>
    cases hb : digit b with
    | none =>
      refine .inr ⟨.inr rfl, fun n h => ?_⟩
      have hdigits := (fromChars_eq_iff.mp h).2.1 b (by simp)
      simp [IsDigit, hb] at hdigits
    | some y =>
      have hx := digit_lt ha
      have hy := digit_lt hb
      refine .inl ⟨x, y, rfl, rfl, ?_⟩
      have hnumber : number [a, b] = 16 * x + y := by simp [number, ha, hb]
      exact fromChars_eq_iff.mpr ⟨List.cons_ne_nil _ _, by simp [IsDigit, ha, hb], hnumber,
        by omega⟩

theorem digit_digitOf {v : ℕ} (h : v < 16) : digit (digitOf v) = some v := by
  have hsmall : ∀ v < 16, digit (digitOf v) = some v := by decide
  exact hsmall v h

theorem bytesOf_length {text data : List (BitVec 8)} (h : bytesOf text = some data) :
    text.length = 2 * data.length := by
  induction text using bytesOf.induct generalizing data with
  | case1 =>
    cases h
    rfl
  | case2 a => cases h
  | case3 a b rest x y bytes hrest hx hy ih =>
    rw [bytesOf, hx, hy, hrest] at h
    cases h
    have hlen := ih hrest
    simp only [List.length_cons]
    omega
  | case4 a b rest hno ih =>
    rw [bytesOf] at h
    split at h
    · rename_i x y bytes hx hy hrest
      exact absurd hrest (hno x y bytes hx hy)
    · cases h

end MelonDS.HexText

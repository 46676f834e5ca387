import Mathlib.Data.BitVec
import Mathlib.Tactic.Common
import MelonDS.Types

/-!
# The bit field of dirty pages

Bits are kept in words of 64. A word outside the array and a shift by 64 or more are undefined,
so the operations on ranges may fail here. Each word a range touches is given a mask, and the masks
put together are the range: inside the field, setting a range sets the bits under its masks, and
checking it looks at them.
-/

namespace MelonDS

/-- `DataLength` -/
def NonStupidBitField.dataLength (size : ℕ) : ℕ := (size + 0x3F) % 2 ^ 32 / 64

structure NonStupidBitField (size : ℕ) where
  data : Fin (NonStupidBitField.dataLength size) → U64

namespace NonStupidBitField

variable {size : ℕ} {b b' b'' : NonStupidBitField size} {k lo mid hi : ℕ} {m : U64}

/-- `x << n` -/
def shl (x : U64) (n : ℕ) : Option U64 := if n < 64 then some (x <<< n) else none

/-- `x >> n` -/
def shr (x : U64) (n : ℕ) : Option U64 := if n < 64 then some (x >>> n) else none

def read (b : NonStupidBitField size) (k : ℕ) : Option U64 :=
  if h : k < dataLength size then some (b.data ⟨k, h⟩) else none

def write (b : NonStupidBitField size) (k : ℕ) (x : U64) : Option (NonStupidBitField size) :=
  if h : k < dataLength size then some ⟨Function.update b.data ⟨k, h⟩ x⟩ else none

/-- `Data[k] |= x` -/
def orWord (b : NonStupidBitField size) (k : ℕ) (x : U64) : Option (NonStupidBitField size) := do
  let word ← b.read k
  b.write k (word ||| x)

/-- `(*this)[idx]` -/
def get (b : NonStupidBitField size) (idx : ℕ) : Bool :=
  ((b.read (idx / 64)).getD 0).getLsbD (idx % 64)

/-! ## Ranges -/

/-- `(((startBit + bitsCount + 0x3F) & ~0x3F) >> 6) - startEntry` -/
def entriesCount (startBit bitsCount : ℕ) : ℕ :=
  ((startBit + bitsCount + 0x3F) % 2 ^ 32 / 64 + 2 ^ 32 - startBit / 64) % 2 ^ 32

/-- `(startBit + bitsCount) & 0x3F` -/
def endBits (startBit bitsCount : ℕ) : ℕ := (startBit + bitsCount) % 2 ^ 32 % 64

def allOnes : U64 := 0xFFFFFFFFFFFFFFFF

/-- The mask of a range inside one word. -/
def wordMask (startBit bitsCount : ℕ) : Option U64 := do
  let mask ← shr allOnes ((64 + 2 ^ 32 - bitsCount) % 2 ^ 32)
  shl mask (startBit % 64)

/-- The words strictly between the first and the last one of a range. -/
def innerWords (startBit bitsCount : ℕ) : List ℕ :=
  List.range' (startBit / 64 + 1) (entriesCount startBit bitsCount - 2)

/-- `startEntry + entriesCount - 1` -/
def lastEntry (startBit bitsCount : ℕ) : ℕ := startBit / 64 + entriesCount startBit bitsCount - 1

/-- The last word of a range of several. -/
def setLast (b : NonStupidBitField size) (startBit bitsCount : ℕ) :
    Option (NonStupidBitField size) :=
  if endBits startBit bitsCount ≠ 0 then do
    let tail ← shl allOnes (endBits startBit bitsCount)
    b.orWord (lastEntry startBit bitsCount) (~~~tail)
  else b.write (lastEntry startBit bitsCount) allOnes

def setRange (b : NonStupidBitField size) (startBit bitsCount : ℕ) :
    Option (NonStupidBitField size) :=
  if bitsCount = 0 then some b
  else if 1 < entriesCount startBit bitsCount then do
    let head ← shl allOnes (startBit % 64)
    let b ← b.orWord (startBit / 64) head
    let b ← b.setLast startBit bitsCount
    (innerWords startBit bitsCount).foldlM (fun b i => b.write i allOnes) b
  else do
    let mask ← wordMask startBit bitsCount
    b.orWord (startBit / 64) mask

/-- What the range has set in its last word. -/
def checkLast (b : NonStupidBitField size) (startBit bitsCount : ℕ) : Option U64 :=
  if endBits startBit bitsCount ≠ 0 then do
    let tail ← shl allOnes (endBits startBit bitsCount)
    let word ← b.read (lastEntry startBit bitsCount)
    pure (word &&& ~~~tail)
  else b.read (lastEntry startBit bitsCount)

def checkRange (b : NonStupidBitField size) (startBit bitsCount : ℕ) : Option Bool :=
  if bitsCount = 0 then some false
  else if 1 < entriesCount startBit bitsCount then do
    let head ← shl allOnes (startBit % 64)
    let first ← b.read (startBit / 64)
    let last ← b.checkLast startBit bitsCount
    let res ← (innerWords startBit bitsCount).foldlM (fun (res : U64) i => do
      let word ← b.read i
      pure (res ||| word)) (first &&& head ||| last)
    pure (res != 0)
  else do
    let mask ← wordMask startBit bitsCount
    let word ← b.read (startBit / 64)
    pure (word &&& mask != 0)

/-! ## Words -/

theorem read_of_lt (b : NonStupidBitField size) (hk : k < dataLength size) :
    b.read k = some (b.data ⟨k, hk⟩) := dif_pos hk

theorem write_of_lt (b : NonStupidBitField size) (hk : k < dataLength size) (x : U64) :
    b.write k x = some ⟨Function.update b.data ⟨k, hk⟩ x⟩ := dif_pos hk

theorem get_of_lt (b : NonStupidBitField size) (hk : k < dataLength size) {j : ℕ} (hj : j < 64) :
    b.get (64 * k + j) = (b.data ⟨k, hk⟩).getLsbD j := by
  rw [get, show (64 * k + j) / 64 = k by omega, show (64 * k + j) % 64 = j by omega,
    b.read_of_lt hk, Option.getD_some]

theorem get_write {x : U64} (h : b.write k x = some b') (i : ℕ) :
    b'.get i = if i / 64 = k then x.getLsbD (i % 64) else b.get i := by
  by_cases hk : k < dataLength size
  · rw [b.write_of_lt hk] at h
    obtain rfl := Option.some.inj h
    rw [get, get, read, read]
    by_cases hi : i / 64 = k
    · subst hi
      rw [if_pos rfl, dif_pos hk, Option.getD_some]
      dsimp only
      rw [Function.update_self]
    · rw [if_neg hi]
      split_ifs with hlt
      · have hne : (⟨i / 64, hlt⟩ : Fin (dataLength size)) ≠ ⟨k, hk⟩ :=
          fun heq => hi (congrArg Fin.val heq)
        dsimp only
        rw [Function.update_of_ne hne]
      · rfl
  · rw [write, dif_neg hk] at h
    exact absurd h nofun

/-! ## Masks -/

/-- The mask has the bits of `[lo, hi)` that lie in word `k`, and these are all of the range. -/
structure Covers (m : U64) (k lo hi : ℕ) : Prop where
  inside : 64 * k ≤ lo ∧ hi ≤ 64 * k + 64
  bit : ∀ j, j < 64 → m.getLsbD j = decide (lo ≤ 64 * k + j ∧ 64 * k + j < hi)

theorem getLsbD_allOnes {j : ℕ} (hj : j < 64) : allOnes.getLsbD j = true := by
  rw [show allOnes = BitVec.allOnes 64 from rfl, BitVec.getLsbD_allOnes, decide_eq_true hj]

theorem covers_allOnes (k : ℕ) : Covers allOnes k (64 * k) (64 * k + 64) := by
  refine ⟨⟨le_refl _, le_refl _⟩, fun j hj => ?_⟩
  rw [getLsbD_allOnes hj, decide_eq_true (by omega)]

/-- From the start of the range to the end of its word. -/
theorem covers_head (startBit : ℕ) :
    ∃ m, shl allOnes (startBit % 64) = some m ∧
      Covers m (startBit / 64) startBit (64 * (startBit / 64) + 64) := by
  refine ⟨_, if_pos (Nat.mod_lt _ (by decide)), ⟨by omega, le_refl _⟩, fun j hj => ?_⟩
  rw [BitVec.getLsbD_shiftLeft, decide_eq_true hj, Bool.true_and,
    getLsbD_allOnes (by omega), Bool.and_true, ← decide_not]
  exact decide_eq_decide.mpr (by omega)

/-- From the beginning of the word to the end of the range. -/
theorem covers_tail (stop : ℕ) :
    ∃ m, shl allOnes (stop % 64) = some m ∧ Covers (~~~m) (stop / 64) (64 * (stop / 64)) stop := by
  refine ⟨_, if_pos (Nat.mod_lt _ (by decide)), ⟨le_refl _, by omega⟩, fun j hj => ?_⟩
  rw [BitVec.getLsbD_not, BitVec.getLsbD_shiftLeft, decide_eq_true hj, Bool.true_and,
    Bool.true_and, getLsbD_allOnes (by omega), Bool.and_true, Bool.not_not]
  exact decide_eq_decide.mpr (by omega)

/-- A range in one word. -/
theorem covers_wordMask (startBit bitsCount : ℕ) (hpos : 0 < bitsCount)
    (hword : startBit % 64 + bitsCount ≤ 64) :
    ∃ m, wordMask startBit bitsCount = some m ∧
      Covers m (startBit / 64) startBit (startBit + bitsCount) := by
  have hshift : (64 + 2 ^ 32 - bitsCount) % 2 ^ 32 = 64 - bitsCount := by omega
  have hright : shr allOnes ((64 + 2 ^ 32 - bitsCount) % 2 ^ 32) =
      some (allOnes >>> (64 - bitsCount)) := by
    rw [hshift]
    exact if_pos (by omega)
  refine ⟨allOnes >>> (64 - bitsCount) <<< (startBit % 64), ?_, ⟨by omega, by omega⟩,
    fun j hj => ?_⟩
  · rw [wordMask, hright]
    exact if_pos (Nat.mod_lt _ (by decide))
  · rw [BitVec.getLsbD_shiftLeft, decide_eq_true hj, Bool.true_and, BitVec.getLsbD_ushiftRight]
    by_cases hlow : j < startBit % 64
    · rw [decide_eq_true hlow, Bool.not_true, Bool.false_and, decide_eq_false (by omega)]
    · rw [decide_eq_false hlow, Bool.not_false, Bool.true_and]
      by_cases hhigh : 64 - bitsCount + (j - startBit % 64) < 64
      · rw [getLsbD_allOnes hhigh, decide_eq_true (by omega)]
      · rw [BitVec.getLsbD_of_ge _ _ (by omega), decide_eq_false (by omega)]

/-! ## Setting -/

/-- Of the bits exactly those of the range were set. -/
def SetTo (b b' : NonStupidBitField size) (lo hi : ℕ) : Prop :=
  ∀ i, b'.get i = (b.get i || decide (lo ≤ i ∧ i < hi))

theorem setTo_orWord (b : NonStupidBitField size) (hk : k < dataLength size)
    (hm : Covers m k lo hi) : ∃ b', b.orWord k m = some b' ∧ SetTo b b' lo hi := by
  obtain ⟨b', hwrite⟩ : ∃ b', b.write k (b.data ⟨k, hk⟩ ||| m) = some b' :=
    ⟨_, b.write_of_lt hk _⟩
  refine ⟨b', ?_, fun i => ?_⟩
  · rw [orWord, b.read_of_lt hk]
    exact hwrite
  · rw [get_write hwrite]
    split_ifs with hi
    · obtain rfl := hi
      have hget := b.get_of_lt hk (Nat.mod_lt i (by decide : 0 < 64))
      have hbit := hm.bit _ (Nat.mod_lt i (by decide : 0 < 64))
      rw [Nat.div_add_mod] at hget hbit
      rw [BitVec.getLsbD_or, ← hget, hbit]
    · have hinside := hm.inside
      rw [decide_eq_false (by omega), Bool.or_false]

theorem setTo_write (b : NonStupidBitField size) (hk : k < dataLength size) :
    ∃ b', b.write k allOnes = some b' ∧ SetTo b b' (64 * k) (64 * k + 64) := by
  refine ⟨_, b.write_of_lt hk _, fun i => ?_⟩
  rw [get_write (b.write_of_lt hk _)]
  split_ifs with hi
  · rw [getLsbD_allOnes (Nat.mod_lt i (by decide)), decide_eq_true (by omega), Bool.or_true]
  · rw [decide_eq_false (by omega), Bool.or_false]

/-- The loop over the words in the middle. -/
theorem setTo_inner (b : NonStupidBitField size) (a n : ℕ) (hn : a + n ≤ dataLength size) :
    ∃ b', (List.range' a n).foldlM (fun b i => b.write i allOnes) b = some b' ∧
      SetTo b b' (64 * a) (64 * (a + n)) := by
  induction n generalizing a b with
  | zero =>
    refine ⟨b, rfl, fun i => ?_⟩
    rw [decide_eq_false (by omega), Bool.or_false]
  | succ n ih =>
    obtain ⟨b', hwrite, hset⟩ := b.setTo_write (k := a) (by omega)
    obtain ⟨b'', hloop, hrest⟩ := ih b' (a + 1) (by omega)
    refine ⟨b'', ?_, fun i => ?_⟩
    · rw [List.range'_succ, List.foldlM_cons, hwrite]
      exact hloop
    · rw [hrest i, hset i, Bool.or_assoc, ← Bool.decide_or]
      exact congrArg _ (decide_eq_decide.mpr (by omega))

theorem entriesCount_eq (startBit bitsCount : ℕ) (hend : startBit + bitsCount + 0x3F < 2 ^ 32) :
    entriesCount startBit bitsCount = (startBit + bitsCount + 0x3F) / 64 - startBit / 64 := by
  rw [entriesCount]
  omega

theorem dataLength_eq (hsize : size + 0x3F < 2 ^ 32) : dataLength size = (size + 0x3F) / 64 := by
  rw [dataLength, Nat.mod_eq_of_lt hsize]

theorem endBits_eq (startBit bitsCount : ℕ) :
    endBits startBit bitsCount = (startBit + bitsCount) % 64 := by
  rw [endBits]
  omega

theorem setTo_last (b : NonStupidBitField size) {startBit bitsCount : ℕ}
    (hsize : size + 0x3F < 2 ^ 32) (hend : startBit + bitsCount ≤ size)
    (hcount : 1 < entriesCount startBit bitsCount) :
    ∃ b', b.setLast startBit bitsCount = some b' ∧
      SetTo b b' (64 * lastEntry startBit bitsCount) (startBit + bitsCount) := by
  have hentries := entriesCount_eq startBit bitsCount (by omega)
  have hlength := dataLength_eq hsize
  rw [setLast, endBits_eq, lastEntry]
  split_ifs with hzero
  · obtain ⟨m, hm, hcovers⟩ := covers_tail (startBit + bitsCount)
    have hlast : startBit / 64 + entriesCount startBit bitsCount - 1 =
        (startBit + bitsCount) / 64 := by omega
    rw [hlast, hm]
    exact b.setTo_orWord (by omega) hcovers
  · obtain ⟨b', hwrite, hset⟩ :=
      b.setTo_write (k := startBit / 64 + entriesCount startBit bitsCount - 1) (by omega)
    refine ⟨b', hwrite, ?_⟩
    rwa [show 64 * (startBit / 64 + entriesCount startBit bitsCount - 1) + 64 =
      startBit + bitsCount by omega] at hset

/-- `SetRange` stays in the array and sets exactly the bits of the range. -/
theorem setRange_spec (b : NonStupidBitField size) (hsize : size + 0x3F < 2 ^ 32)
    {startBit bitsCount : ℕ} (hend : startBit + bitsCount ≤ size) :
    ∃ b', b.setRange startBit bitsCount = some b' ∧
      SetTo b b' startBit (startBit + bitsCount) := by
  have hlength := dataLength_eq hsize
  have hentries := entriesCount_eq startBit bitsCount (by omega)
  rw [setRange]
  split_ifs with hzero hmany
  · refine ⟨b, rfl, fun i => ?_⟩
    rw [decide_eq_false (by omega), Bool.or_false]
  · obtain ⟨m, hm, hcovers⟩ := covers_head startBit
    obtain ⟨b₁, h₁, hset₁⟩ := b.setTo_orWord (by omega) hcovers
    obtain ⟨b₂, h₂, hset₂⟩ := b₁.setTo_last hsize hend hmany
    obtain ⟨b₃, h₃, hset₃⟩ := b₂.setTo_inner (startBit / 64 + 1)
      (entriesCount startBit bitsCount - 2) (by omega)
    refine ⟨b₃, ?_, fun i => ?_⟩
    · rw [← innerWords] at h₃
      refine Option.bind_eq_some_iff.mpr ⟨m, hm, Option.bind_eq_some_iff.mpr ⟨b₁, h₁, ?_⟩⟩
      exact Option.bind_eq_some_iff.mpr ⟨b₂, h₂, h₃⟩
    · rw [lastEntry] at hset₂
      rw [hset₃ i, hset₂ i, hset₁ i, Bool.or_assoc, Bool.or_assoc, ← Bool.decide_or,
        ← Bool.decide_or]
      exact congrArg _ (decide_eq_decide.mpr (by omega))
  · obtain ⟨m, hm, hcovers⟩ :=
      covers_wordMask startBit bitsCount (by omega) (by omega)
    rw [hm]
    exact b.setTo_orWord (by omega) hcovers

/-! ## Checking -/

/-- The word has a bit exactly if the range has. -/
def Hits (b : NonStupidBitField size) (word : U64) (lo hi : ℕ) : Prop :=
  word ≠ 0 ↔ ∃ i, (lo ≤ i ∧ i < hi) ∧ b.get i = true

theorem ne_zero_iff {x : U64} : x ≠ 0 ↔ ∃ j, j < 64 ∧ x.getLsbD j = true := by
  constructor
  · intro hx
    by_contra hnone
    refine hx (BitVec.eq_of_getLsbD_eq fun j hj => ?_)
    refine Eq.trans ?_ BitVec.getLsbD_zero.symm
    exact Bool.eq_false_iff.mpr fun hbit => hnone ⟨j, hj, hbit⟩
  · rintro ⟨j, -, hbit⟩ rfl
    exact absurd hbit (by simp)

theorem hits_and (b : NonStupidBitField size) (hk : k < dataLength size) (hm : Covers m k lo hi) :
    Hits b (b.data ⟨k, hk⟩ &&& m) lo hi := by
  have hinside := hm.inside
  refine ne_zero_iff.trans ⟨?_, ?_⟩
  · rintro ⟨j, hj, hbit⟩
    rw [BitVec.getLsbD_and, ← b.get_of_lt hk hj, hm.bit j hj, Bool.and_eq_true] at hbit
    exact ⟨64 * k + j, of_decide_eq_true hbit.2, hbit.1⟩
  · rintro ⟨i, hi, hget⟩
    obtain ⟨j, rfl⟩ : ∃ j, i = 64 * k + j := ⟨i - 64 * k, by omega⟩
    have hj : j < 64 := by omega
    refine ⟨j, hj, ?_⟩
    rw [BitVec.getLsbD_and, ← b.get_of_lt hk hj, hm.bit j hj, hget, decide_eq_true hi,
      Bool.and_true]

theorem hits_word (b : NonStupidBitField size) (hk : k < dataLength size) :
    Hits b (b.data ⟨k, hk⟩) (64 * k) (64 * k + 64) := by
  have hand := b.hits_and hk (covers_allOnes k)
  rwa [show allOnes = BitVec.allOnes 64 from rfl, BitVec.and_allOnes] at hand

theorem Hits.or {x y : U64} (hx : Hits b x lo hi) {lo' hi' : ℕ} (hy : Hits b y lo' hi') :
    x ||| y ≠ 0 ↔ ∃ i, ((lo ≤ i ∧ i < hi) ∨ (lo' ≤ i ∧ i < hi')) ∧ b.get i = true := by
  have hor : x ||| y ≠ 0 ↔ x ≠ 0 ∨ y ≠ 0 := by
    exact (not_congr BitVec.or_eq_zero_iff).trans not_and_or
  refine hor.trans ((or_congr hx hy).trans ?_)
  rw [← exists_or]
  exact exists_congr fun i => or_and_right.symm

theorem Hits.congr {x : U64} {lo' hi' : ℕ} (hx : Hits b x lo hi)
    (hrange : ∀ i, (lo ≤ i ∧ i < hi) ↔ (lo' ≤ i ∧ i < hi')) : Hits b x lo' hi' :=
  hx.trans (exists_congr fun i => and_congr_left' (hrange i))

/-- The loop over the words in the middle; what came before is `res`. -/
theorem hits_inner (b : NonStupidBitField size) (a n : ℕ) (hn : a + n ≤ dataLength size)
    (res : U64) : ∃ word, (List.range' a n).foldlM (fun (res : U64) i => do
        let word ← b.read i
        pure (res ||| word)) res = some (res ||| word) ∧ Hits b word (64 * a) (64 * (a + n)) := by
  induction n generalizing a res with
  | zero =>
    refine ⟨0, ?_, ⟨fun h => absurd rfl h, fun ⟨i, hi, _⟩ => absurd hi (by omega)⟩⟩
    exact congrArg some BitVec.or_zero.symm
  | succ n ih =>
    have ha : a < dataLength size := by omega
    obtain ⟨word, hloop, hhits⟩ := ih (a + 1) (by omega) (res ||| b.data ⟨a, ha⟩)
    refine ⟨b.data ⟨a, ha⟩ ||| word, ?_, ?_⟩
    · rw [List.range'_succ, List.foldlM_cons, b.read_of_lt ha, ← BitVec.or_assoc]
      exact hloop
    · refine ((b.hits_word ha).or hhits).trans (exists_congr fun i => and_congr_left' ?_)
      omega

theorem hits_last (b : NonStupidBitField size) {startBit bitsCount : ℕ}
    (hsize : size + 0x3F < 2 ^ 32) (hend : startBit + bitsCount ≤ size)
    (hcount : 1 < entriesCount startBit bitsCount) :
    ∃ word, b.checkLast startBit bitsCount = some word ∧
      Hits b word (64 * lastEntry startBit bitsCount) (startBit + bitsCount) := by
  have hentries := entriesCount_eq startBit bitsCount (by omega)
  have hlength := dataLength_eq hsize
  rw [checkLast, endBits_eq, lastEntry]
  split_ifs with hzero
  · obtain ⟨m, hm, hcovers⟩ := covers_tail (startBit + bitsCount)
    have hlast : startBit / 64 + entriesCount startBit bitsCount - 1 =
        (startBit + bitsCount) / 64 := by omega
    have hk : (startBit + bitsCount) / 64 < dataLength size := by omega
    rw [hlast, hm, b.read_of_lt hk]
    exact ⟨_, rfl, b.hits_and hk hcovers⟩
  · have hk : startBit / 64 + entriesCount startBit bitsCount - 1 < dataLength size := by omega
    rw [b.read_of_lt hk]
    exact ⟨_, rfl, (b.hits_word hk).congr fun i => by omega⟩

/-- `CheckRange` stays in the array and tells whether the range has a bit that is set. -/
theorem checkRange_spec (b : NonStupidBitField size) (hsize : size + 0x3F < 2 ^ 32)
    {startBit bitsCount : ℕ} (hend : startBit + bitsCount ≤ size) :
    ∃ r, b.checkRange startBit bitsCount = some r ∧
      (r = true ↔ ∃ i, (startBit ≤ i ∧ i < startBit + bitsCount) ∧ b.get i = true) := by
  have hlength := dataLength_eq hsize
  have hentries := entriesCount_eq startBit bitsCount (by omega)
  rw [checkRange]
  split_ifs with hzero hmany
  · refine ⟨false, rfl, ⟨fun h => absurd h nofun, fun ⟨i, hi, _⟩ => absurd hi (by omega)⟩⟩
  · obtain ⟨m, hm, hcovers⟩ := covers_head startBit
    have hk : startBit / 64 < dataLength size := by omega
    obtain ⟨last, hlast, hhits⟩ := b.hits_last hsize hend hmany
    obtain ⟨inner, hinner, hmiddle⟩ := b.hits_inner (startBit / 64 + 1)
      (entriesCount startBit bitsCount - 2) (by omega) (b.data ⟨_, hk⟩ &&& m ||| last)
    rw [← innerWords] at hinner
    have hboth : Hits b (last ||| inner) (64 * (startBit / 64) + 64) (startBit + bitsCount) := by
      rw [lastEntry] at hhits
      refine (hhits.or hmiddle).trans (exists_congr fun i => and_congr_left' ?_)
      omega
    refine ⟨_, Option.bind_eq_some_iff.mpr ⟨m, hm, Option.bind_eq_some_iff.mpr
      ⟨_, b.read_of_lt hk, Option.bind_eq_some_iff.mpr ⟨last, hlast,
        Option.bind_eq_some_iff.mpr ⟨_, hinner, rfl⟩⟩⟩⟩, ?_⟩
    rw [bne_iff_ne, BitVec.or_assoc, (b.hits_and hk hcovers).or hboth]
    refine exists_congr fun i => and_congr_left' ?_
    omega
  · obtain ⟨m, hm, hcovers⟩ :=
      covers_wordMask startBit bitsCount (by omega) (by omega)
    have hk : startBit / 64 < dataLength size := by omega
    refine ⟨_, Option.bind_eq_some_iff.mpr ⟨m, hm, Option.bind_eq_some_iff.mpr
      ⟨_, b.read_of_lt hk, rfl⟩⟩, ?_⟩
    rw [bne_iff_ne]
    exact b.hits_and hk hcovers

end NonStupidBitField

end MelonDS

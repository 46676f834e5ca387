import Mathlib.Data.Finset.Card
import Mathlib.Data.Finset.Image
import Mathlib.Logic.Equiv.Basic
import MelonDS.Types

/-!
# The address ranges of a block being traced

`CompileBlock` collects the 512-byte lines a block touches in `addressRanges`,
with a mask of 16-byte units for each in `addressMasks`. Both arrays are local
to the call. Only the first `MaxBlockSize` masks are cleared; `none` is a mask
the call has not written. Each index used is logged.
-/

namespace MelonDS.ARMJIT

/-- The declared length of the scratch arrays. -/
def maxBlockSizeLimit : ℕ := 32

inductive ScratchArray
  | instrs
  | instrValues
  | addressRanges
  | addressMasks
  | literalLoadAddrs
  | writeAddrs

/-- A use of a scratch array; a mask entry is ORed into with the value found there. -/
inductive Access
  | index (array : ScratchArray) (i : ℕ)
  | orMask (i : ℕ) (initialised : Bool)

def Access.Safe : Access → Prop
  | .index _ i => i < maxBlockSizeLimit
  | .orMask i initialised => i < maxBlockSizeLimit ∧ initialised = true

instance : DecidablePred Access.Safe
  | .index _ i => inferInstanceAs (Decidable (i < maxBlockSizeLimit))
  | .orMask _ _ => inferInstanceAs (Decidable (_ ∧ _))

/-- `translatedAddr & ~0x1FF`. -/
def lineOf (translatedAddr : U32) : U32 := translatedAddr &&& ~~~0x1FF

/-- `1 << ((translatedAddr & 0x1FF) / 16)`. -/
def unitBit (translatedAddr : U32) : U32 := bit 32 ((translatedAddr &&& 0x1FF).toNat / 16)

structure RangeTable where
  addressRanges : ℕ → U32
  addressMasks : ℕ → Option U32
  numAddressRanges : ℕ
  accesses : List Access

namespace RangeTable

def start (maxBlockSize : ℕ) : RangeTable where
  addressRanges := fun _ => 0
  addressMasks := fun i => if i < maxBlockSize then some 0 else none
  numAddressRanges := 0
  accesses := []

def log (r : RangeTable) (as : List Access) : RangeTable :=
  { r with accesses := r.accesses ++ as }

/-- `numAddressRanges - 1`, which wraps at zero. -/
def lastIndex (r : RangeTable) : ℕ :=
  if r.numAddressRanges = 0 then 2 ^ 32 - 1 else r.numAddressRanges - 1

/-- The search loops over `addressRanges`. `logFind` logs the indices they may look at. -/
def find (r : RangeTable) (line : U32) : Option ℕ :=
  (List.range r.numAddressRanges).find? fun j => r.addressRanges j == line

def logFind (r : RangeTable) : RangeTable :=
  r.log ((List.range r.numAddressRanges).map (.index .addressRanges))

def append (r : RangeTable) (line : U32) : RangeTable :=
  { r.log [.index .addressRanges r.numAddressRanges] with
    addressRanges := Function.update r.addressRanges r.numAddressRanges line
    numAddressRanges := r.numAddressRanges + 1 }

/-- `std::swap` of entry `j` and the last entry, in both arrays. -/
def swapLast (r : RangeTable) (j : ℕ) : RangeTable :=
  { r.log [.index .addressRanges j, .index .addressMasks j,
      .index .addressMasks r.lastIndex] with
    addressRanges := r.addressRanges ∘ Equiv.swap j r.lastIndex
    addressMasks := r.addressMasks ∘ Equiv.swap j r.lastIndex }

def orMask (r : RangeTable) (i : ℕ) (mask : U32) : RangeTable :=
  { r.log [.orMask i (r.addressMasks i).isSome] with
    addressMasks := Function.update r.addressMasks i ((r.addressMasks i).map (· ||| mask)) }

/-- The line of an opcode becomes the last entry. `first` is `i == 0`. -/
def selectLine (r : RangeTable) (first : Bool) (line : U32) : RangeTable :=
  let r := if first then r else r.log [.index .addressRanges r.lastIndex]
  if first || r.addressRanges r.lastIndex != line then
    match r.find line with
    | some j => r.logFind.swapLast j
    | none => r.logFind.append line
  else r

def touchInstr (r : RangeTable) (first : Bool) (translatedAddr : U32) : RangeTable :=
  let r := r.selectLine first (lineOf translatedAddr)
  r.orMask r.lastIndex (unitBit translatedAddr)

/-- The line of a literal is added behind the others and stays where it is. -/
def touchLiteral (r : RangeTable) (translatedAddr : U32) : RangeTable :=
  match r.find (lineOf translatedAddr) with
  | some j => r.logFind.orMask j (unitBit translatedAddr)
  | none =>
    (r.logFind.append (lineOf translatedAddr)).orMask r.numAddressRanges (unitBit translatedAddr)

/-! ## The table as a set of lines -/

def lines (r : RangeTable) : Finset U32 :=
  (Finset.range r.numAddressRanges).image r.addressRanges

/-- No line is listed twice, the masks behind the table are as the call left
them, and the log is safe exactly while the table fits the cleared masks. -/
structure Good (maxBlockSize : ℕ) (r : RangeTable) : Prop where
  distinct : Set.InjOn r.addressRanges (Finset.range r.numAddressRanges)
  behind : ∀ i, r.numAddressRanges ≤ i → ((r.addressMasks i).isSome ↔ i < maxBlockSize)
  cleared : r.numAddressRanges ≤ maxBlockSize →
    ∀ i < maxBlockSize, (r.addressMasks i).isSome
  safe : (∀ a ∈ r.accesses, a.Safe) ↔ r.numAddressRanges ≤ maxBlockSize

theorem Good.card_lines {m : ℕ} {r : RangeTable} (h : r.Good m) :
    r.lines.card = r.numAddressRanges := by
  rw [lines, Finset.card_image_of_injOn h.distinct, Finset.card_range]

theorem good_start (m : ℕ) : (start m).Good m where
  distinct := by simp [start]
  behind := by
    intro i _
    by_cases h : i < m <;> simp [start, h]
  cleared := by
    intro _ i hi
    simp [start, hi]
  safe := by simp [start]

@[simp] theorem lines_start (m : ℕ) : (start m).lines = ∅ := by simp [lines, start]

theorem find_some {r : RangeTable} {line : U32} {j : ℕ} (h : r.find line = some j) :
    j < r.numAddressRanges ∧ r.addressRanges j = line := by
  have hj := List.find?_some h
  exact ⟨List.mem_range.mp (List.mem_of_find?_eq_some h), by simpa using hj⟩

theorem find_none {r : RangeTable} {line : U32} (h : r.find line = none) : line ∉ r.lines := by
  intro hmem
  obtain ⟨j, hj, he⟩ := Finset.mem_image.mp hmem
  have := List.find?_eq_none.mp h j (List.mem_range.mpr (Finset.mem_range.mp hj))
  simp [he] at this

theorem lastIndex_eq {r : RangeTable} (h : 0 < r.numAddressRanges) :
    r.lastIndex = r.numAddressRanges - 1 :=
  if_neg (by omega)

theorem lastIndex_lt {r : RangeTable} (h : 0 < r.numAddressRanges) :
    r.lastIndex < r.numAddressRanges := by
  rw [lastIndex_eq h]
  omega

/-- Accesses below a table that fits do not change whether the log is safe. -/
theorem Good.log {m : ℕ} {r : RangeTable} (h : r.Good m) {as : List Access}
    (has : r.numAddressRanges ≤ m → ∀ a ∈ as, a.Safe) : (r.log as).Good m where
  distinct := h.distinct
  behind := h.behind
  cleared := h.cleared
  safe := by
    have : (r.log as).numAddressRanges = r.numAddressRanges := rfl
    rw [this, RangeTable.log, List.forall_mem_append, h.safe]
    exact ⟨fun hs => hs.1, fun hs => ⟨hs, has hs⟩⟩

theorem Good.logFind {m : ℕ} {r : RangeTable} (h : r.Good m) (hm : m ≤ maxBlockSizeLimit) :
    r.logFind.Good m := by
  refine h.log fun hfit a ha => ?_
  obtain ⟨j, hj, rfl⟩ := List.mem_map.mp ha
  have := List.mem_range.mp hj
  exact lt_of_lt_of_le this (hfit.trans hm)

theorem Good.swapLast {m : ℕ} {r : RangeTable} (h : r.Good m) (hm : m ≤ maxBlockSizeLimit)
    {j : ℕ} (hj : j < r.numAddressRanges) :
    (r.swapLast j).Good m ∧ (r.swapLast j).lines = r.lines := by
  have hlast := lastIndex_lt (Nat.zero_lt_of_lt hj)
  have hlt (i : ℕ) : Equiv.swap j r.lastIndex i < r.numAddressRanges ↔
      i < r.numAddressRanges := by
    rw [Equiv.swap_apply_def]
    split_ifs <;> omega
  have hlog : (r.log [.index .addressRanges j, .index .addressMasks j,
      .index .addressMasks r.lastIndex]).Good m := by
    refine h.log fun hfit a ha => ?_
    simp only [List.mem_cons, List.not_mem_nil, or_false] at ha
    rcases ha with rfl | rfl | rfl <;> simp only [Access.Safe] <;> omega
  refine ⟨⟨?_, ?_, ?_, hlog.safe⟩, ?_⟩
  · intro a ha b hb hab
    have ha' := (hlt a).mpr (Finset.mem_range.mp ha)
    have hb' := (hlt b).mpr (Finset.mem_range.mp hb)
    exact (Equiv.swap _ _).injective
      (h.distinct (Finset.mem_range.mpr ha') (Finset.mem_range.mpr hb') hab)
  · intro i hi
    change ((r.addressMasks (Equiv.swap j r.lastIndex i)).isSome ↔ i < m)
    have hi' : r.numAddressRanges ≤ i := hi
    rw [Equiv.swap_apply_of_ne_of_ne (by omega) (by omega)]
    exact h.behind i hi'
  · intro hfit i hi
    have hfit' : r.numAddressRanges ≤ m := hfit
    refine h.cleared hfit' _ ?_
    rw [Equiv.swap_apply_def]
    split_ifs <;> omega
  · ext line
    simp only [lines, RangeTable.swapLast, Finset.mem_image, Finset.mem_range, Function.comp]
    constructor
    · rintro ⟨i, hi, rfl⟩
      exact ⟨_, (hlt i).mpr hi, rfl⟩
    · rintro ⟨i, hi, rfl⟩
      exact ⟨Equiv.swap j r.lastIndex i, (hlt i).mpr hi, by rw [Equiv.swap_apply_self]⟩

/-- ORing into an entry of the table. -/
theorem Good.orMask {m : ℕ} {r : RangeTable} (h : r.Good m) (hm : m ≤ maxBlockSizeLimit) {i : ℕ}
    (hi : i < r.numAddressRanges) (mask : U32) :
    (r.orMask i mask).Good m ∧ (r.orMask i mask).lines = r.lines := by
  have hlog : (r.log [.orMask i (r.addressMasks i).isSome]).Good m := by
    refine h.log fun hfit a ha => ?_
    obtain rfl := List.mem_singleton.mp ha
    exact ⟨by omega, h.cleared hfit i (by omega)⟩
  refine ⟨⟨h.distinct, ?_, ?_, hlog.safe⟩, rfl⟩
  · intro k hk
    have hk' : r.numAddressRanges ≤ k := hk
    change ((Function.update r.addressMasks i _ k).isSome ↔ k < m)
    rw [Function.update_of_ne (by omega)]
    exact h.behind k hk'
  · intro hfit k hk
    have hk' := h.cleared hfit k hk
    change (Function.update r.addressMasks i _ k).isSome
    by_cases hki : k = i
    · subst hki
      rwa [Function.update_self, Option.isSome_map]
    · rwa [Function.update_of_ne hki]

/-- A new line and its first OR, which finds a cleared mask just when there is one left. -/
theorem Good.append_orMask {m : ℕ} {r : RangeTable} (h : r.Good m) (hm : m ≤ maxBlockSizeLimit)
    {line : U32} (hnew : line ∉ r.lines) (mask : U32) :
    ((r.append line).orMask r.numAddressRanges mask).Good m ∧
      ((r.append line).orMask r.numAddressRanges mask).lines = insert line r.lines := by
  have hnum : ((r.append line).orMask r.numAddressRanges mask).numAddressRanges =
      r.numAddressRanges + 1 := rfl
  have hsome : ((r.addressMasks r.numAddressRanges).isSome = true ↔ r.numAddressRanges < m) :=
    h.behind _ le_rfl
  have hold {i : ℕ} (hi : i < r.numAddressRanges) :
      Function.update r.addressRanges r.numAddressRanges line i = r.addressRanges i :=
    Function.update_of_ne (by omega) _ _
  refine ⟨⟨?_, ?_, ?_, ?_⟩, ?_⟩
  · intro a ha b hb hab
    have ha' : a < r.numAddressRanges + 1 := Finset.mem_range.mp ha
    have hb' : b < r.numAddressRanges + 1 := Finset.mem_range.mp hb
    change Function.update r.addressRanges r.numAddressRanges line a =
      Function.update r.addressRanges r.numAddressRanges line b at hab
    have hmem {i : ℕ} (hi : i < r.numAddressRanges) : r.addressRanges i ∈ r.lines :=
      Finset.mem_image_of_mem _ (Finset.mem_range.mpr hi)
    rcases Nat.lt_succ_iff_lt_or_eq.mp ha' with ha | rfl <;>
      rcases Nat.lt_succ_iff_lt_or_eq.mp hb' with hb | rfl
    · rw [hold ha, hold hb] at hab
      exact h.distinct (Finset.mem_range.mpr ha) (Finset.mem_range.mpr hb) hab
    · rw [hold ha, Function.update_self] at hab
      exact absurd (hab ▸ hmem ha) hnew
    · rw [hold hb, Function.update_self] at hab
      exact absurd (hab ▸ hmem hb) hnew
    · rfl
  · intro k hk
    rw [hnum] at hk
    change ((Function.update r.addressMasks r.numAddressRanges _ k).isSome ↔ k < m)
    rw [Function.update_of_ne (by omega)]
    exact h.behind k (by omega)
  · intro hfit k hk
    rw [hnum] at hfit
    have hk' := h.cleared (by omega) k hk
    change (Function.update r.addressMasks r.numAddressRanges
      ((r.addressMasks r.numAddressRanges).map _) k).isSome
    by_cases hki : k = r.numAddressRanges
    · subst hki
      rwa [Function.update_self, Option.isSome_map]
    · rwa [Function.update_of_ne hki]
  · have hlog : ((r.append line).orMask r.numAddressRanges mask).accesses =
        r.accesses ++ ([.index .addressRanges r.numAddressRanges] ++
          [.orMask r.numAddressRanges (r.addressMasks r.numAddressRanges).isSome]) :=
      List.append_assoc _ _ _
    rw [hlog, hnum, List.forall_mem_append, h.safe, List.forall_mem_append,
      List.forall_mem_singleton, List.forall_mem_singleton]
    simp only [Access.Safe, hsome]
    omega
  · rw [lines, hnum, Finset.range_add_one, Finset.image_insert]
    have himage : (Finset.range r.numAddressRanges).image
        (Function.update r.addressRanges r.numAddressRanges line) = r.lines :=
      Finset.image_congr fun i hi => hold (Finset.mem_range.mp hi)
    change insert (Function.update r.addressRanges r.numAddressRanges line r.numAddressRanges)
      ((Finset.range r.numAddressRanges).image
        (Function.update r.addressRanges r.numAddressRanges line)) = _
    rw [himage, Function.update_self]

theorem mem_lines {r : RangeTable} {i : ℕ} (h : i < r.numAddressRanges) :
    r.addressRanges i ∈ r.lines :=
  Finset.mem_image_of_mem _ (Finset.mem_range.mpr h)

/-- A block that has touched a line before looks at the last one; the first opcode does not. -/
theorem Good.touchInstr {m : ℕ} {r : RangeTable} (h : r.Good m) (hm : m ≤ maxBlockSizeLimit)
    {first : Bool} (hfirst : first = false → 0 < r.numAddressRanges) (translatedAddr : U32) :
    (r.touchInstr first translatedAddr).Good m ∧
      (r.touchInstr first translatedAddr).lines = insert (lineOf translatedAddr) r.lines := by
  set line := lineOf translatedAddr with hline
  set r' := if first then r else r.log [.index .addressRanges r.lastIndex] with hr'
  have hg : r'.Good m ∧ r'.lines = r.lines ∧ r'.numAddressRanges = r.numAddressRanges := by
    cases first with
    | true => exact ⟨h, rfl, rfl⟩
    | false =>
      refine ⟨h.log fun hfit a ha => ?_, rfl, rfl⟩
      obtain rfl := List.mem_singleton.mp ha
      exact (lastIndex_lt (hfirst rfl)).trans_le (hfit.trans hm)
  obtain ⟨hg, hlines, hnum⟩ := hg
  rw [← hlines]
  have hdef : r.touchInstr first translatedAddr =
      (r.selectLine first line).orMask (r.selectLine first line).lastIndex
        (unitBit translatedAddr) := rfl
  rw [hdef]
  by_cases hc : (first || r'.addressRanges r'.lastIndex != line) = true
  · cases hf : r'.find line with
    | some j =>
      have hsel : r.selectLine first line = r'.logFind.swapLast j := by
        simp only [selectLine, ← hr', hc, if_true, hf]
      obtain ⟨hj, hjl⟩ := find_some hf
      obtain ⟨hs, hsl⟩ := (hg.logFind hm).swapLast hm hj
      obtain ⟨ho, hol⟩ := hs.orMask hm (lastIndex_lt (Nat.zero_lt_of_lt hj))
        (unitBit translatedAddr)
      rw [hsel]
      refine ⟨ho, hol.trans (hsl.trans ?_)⟩
      exact (Finset.insert_eq_of_mem (hjl ▸ mem_lines hj)).symm
    | none =>
      have hsel : r.selectLine first line = r'.logFind.append line := by
        simp only [selectLine, ← hr', hc, if_true, hf]
      have hlast : (r'.logFind.append line).lastIndex = r'.logFind.numAddressRanges :=
        lastIndex_eq (Nat.succ_pos _)
      rw [hsel, hlast]
      exact (hg.logFind hm).append_orMask hm (find_none hf) (unitBit translatedAddr)
  · have hsel : r.selectLine first line = r' := by
      simp only [selectLine, ← hr', hc]
      rfl
    simp only [Bool.or_eq_true, bne_iff_ne, ne_eq, not_or, Bool.not_eq_true, not_not] at hc
    have hpos : 0 < r'.numAddressRanges := hnum ▸ hfirst hc.1
    obtain ⟨ho, hol⟩ := hg.orMask hm (lastIndex_lt hpos) (unitBit translatedAddr)
    rw [hsel]
    refine ⟨ho, hol.trans ?_⟩
    exact (Finset.insert_eq_of_mem (hc.2 ▸ mem_lines (lastIndex_lt hpos))).symm

theorem Good.touchLiteral {m : ℕ} {r : RangeTable} (h : r.Good m) (hm : m ≤ maxBlockSizeLimit)
    (translatedAddr : U32) :
    (r.touchLiteral translatedAddr).Good m ∧
      (r.touchLiteral translatedAddr).lines = insert (lineOf translatedAddr) r.lines := by
  unfold RangeTable.touchLiteral
  cases hf : r.find (lineOf translatedAddr) with
  | some j =>
    obtain ⟨hj, hjl⟩ := find_some hf
    obtain ⟨ho, hol⟩ := (h.logFind hm).orMask hm hj (unitBit translatedAddr)
    refine ⟨ho, hol.trans ?_⟩
    exact (Finset.insert_eq_of_mem (hjl ▸ mem_lines hj)).symm
  | none => exact (h.logFind hm).append_orMask hm (find_none hf) (unitBit translatedAddr)

end RangeTable
end MelonDS.ARMJIT

import MelonDS.Library.BitSet
import MelonDS.NonStupidBitfield.Ranges

/-!
# Walking the bits of a bit field

An iterator keeps the bits its word still has; the words behind it have all of theirs. What it has
still to visit is one ascending list, of which a step takes the head.
-/

namespace MelonDS.NonStupidBitField

open LowestBit

variable {size : ℕ} {b : NonStupidBitField size}

structure Iterator where
  dataIdx : ℕ
  bitIdx : ℕ
  remainingBits : U64

/-- `*it` -/
def Iterator.deref (it : Iterator) : ℕ := (it.dataIdx * 64 + it.bitIdx) % 2 ^ 32

/-- `End()`; iterators are compared by their word alone. -/
def endIt (size : ℕ) : Iterator := ⟨dataLength size, 0, 0⟩

/-- The first word from `i` on that is not zero. -/
def nextWord (b : NonStupidBitField size) (i : ℕ) : Option (ℕ × U64) :=
  if h : i < dataLength size then
    if b.data ⟨i, h⟩ ≠ 0 then some (i, b.data ⟨i, h⟩) else nextWord b (i + 1)
  else none
termination_by dataLength size - i

/-- The end of `Next`, with a word that has bits left. -/
def Iterator.take (size dataIdx : ℕ) (bits : U64) : Iterator :=
  if size % 64 ≠ 0 ∧ size ≤ (dataIdx * 64 + bits.ctz.toNat) % 2 ^ 32 then
    ⟨dataLength size, bits.ctz.toNat, bits &&& (bits - 1)⟩
  else ⟨dataIdx, bits.ctz.toNat, bits &&& (bits - 1)⟩

def next (b : NonStupidBitField size) (it : Iterator) : Iterator :=
  if it.remainingBits = 0 then
    match b.nextWord (it.dataIdx + 1) with
    | some (i, bits) => .take size i bits
    | none => { it with dataIdx := dataLength size }
  else .take size it.dataIdx it.remainingBits

/-- `Begin()`, from word `i` on. -/
def beginFrom (b : NonStupidBitField size) (i : ℕ) : Iterator :=
  if h : i < dataLength size then
    let idx := (b.data ⟨i, h⟩).ctz.toNat
    if b.data ⟨i, h⟩ ≠ 0 ∧ (idx + i * 64) % 2 ^ 32 < size then
      ⟨i, idx, b.data ⟨i, h⟩ &&& (b.data ⟨i, h⟩ - 1)⟩
    else beginFrom b (i + 1)
  else endIt size
termination_by dataLength size - i

def beginIt (b : NonStupidBitField size) : Iterator := b.beginFrom 0

/-- The loop `for (; it != End(); it++)`: what it visits, if `fuel` turns are enough. -/
def visited (b : NonStupidBitField size) : ℕ → Iterator → Option (List ℕ)
  | 0, _ => none
  | fuel + 1, it =>
    if it.dataIdx = dataLength size then some []
    else (visited b fuel (b.next it)).map (it.deref :: ·)

/-! ## What is left to visit -/

/-- The set bits of the words from `k` on. -/
def wordsFrom (b : NonStupidBitField size) (k : ℕ) : List ℕ :=
  if h : k < dataLength size then
    (ascending (b.data ⟨k, h⟩)).map (k * 64 + ·) ++ wordsFrom b (k + 1)
  else []
termination_by dataLength size - k

/-- What an iterator visits after the bit it is at. -/
def pending (b : NonStupidBitField size) (it : Iterator) : List ℕ :=
  (ascending it.remainingBits).map (it.dataIdx * 64 + ·) ++ wordsFrom b (it.dataIdx + 1)

theorem wordsFrom_of_lt (b : NonStupidBitField size) {k : ℕ} (hk : k < dataLength size) :
    b.wordsFrom k = (ascending (b.data ⟨k, hk⟩)).map (k * 64 + ·) ++ b.wordsFrom (k + 1) := by
  rw [wordsFrom, dif_pos hk]

theorem wordsFrom_of_le (b : NonStupidBitField size) {k : ℕ} (hk : dataLength size ≤ k) :
    b.wordsFrom k = [] := by
  rw [wordsFrom, dif_neg (Nat.not_lt.mpr hk)]

theorem map_ascending_zero (k : ℕ) : (ascending (0 : U64)).map (k * 64 + ·) = [] :=
  congrArg (List.map (k * 64 + ·)) ascending_zero

theorem deref_of_lt {k j : ℕ} {bits : U64} (h : k * 64 + j < 2 ^ 32) :
    Iterator.deref ⟨k, j, bits⟩ = k * 64 + j := Nat.mod_eq_of_lt h

theorem mem_wordsFrom {k i : ℕ} :
    i ∈ b.wordsFrom k ↔ k * 64 ≤ i ∧ i < dataLength size * 64 ∧ b.get i = true := by
  induction k using @wordsFrom.induct size with
  | case1 k hk ih =>
    rw [wordsFrom_of_lt b hk, List.mem_append, ih, List.mem_map]
    constructor
    · rintro (⟨j, hj, rfl⟩ | ⟨hle, hrest⟩)
      · have hbit := mem_ascending.mp hj
        have hlt := BitVec.lt_of_getLsbD hbit
        rw [Nat.mul_comm, b.get_of_lt hk hlt]
        exact ⟨by omega, by omega, hbit⟩
      · exact ⟨by omega, hrest⟩
    · rintro ⟨hle, hlt, hget⟩
      by_cases hword : i < (k + 1) * 64
      · obtain ⟨j, rfl⟩ : ∃ j, i = k * 64 + j := ⟨i - k * 64, by omega⟩
        rw [Nat.mul_comm, b.get_of_lt hk (by omega)] at hget
        exact Or.inl ⟨j, mem_ascending.mpr hget, rfl⟩
      · exact Or.inr ⟨by omega, hlt, hget⟩
  | case2 k hk =>
    rw [wordsFrom_of_le b (Nat.not_lt.mp hk)]
    exact ⟨fun h => absurd h List.not_mem_nil, fun h => absurd h (by omega)⟩

theorem pairwise_append {x : U64} {k : ℕ} (hrest : (b.wordsFrom (k + 1)).Pairwise (· < ·)) :
    ((ascending x).map (k * 64 + ·) ++ b.wordsFrom (k + 1)).Pairwise (· < ·) := by
  refine List.pairwise_append.mpr ⟨?_, hrest, fun i hi j hj => ?_⟩
  · exact (pairwise_ascending x).map _ fun _ _ hlt => Nat.add_lt_add_left hlt _
  · obtain ⟨c, hc, rfl⟩ := List.mem_map.mp hi
    have hlt := BitVec.lt_of_getLsbD (mem_ascending.mp hc)
    have hle := (mem_wordsFrom.mp hj).1
    omega

theorem pairwise_wordsFrom (b : NonStupidBitField size) (k : ℕ) :
    (b.wordsFrom k).Pairwise (· < ·) := by
  induction k using @wordsFrom.induct size with
  | case1 k hk ih =>
    rw [wordsFrom_of_lt b hk]
    exact pairwise_append ih
  | case2 k hk =>
    rw [wordsFrom_of_le b (Nat.not_lt.mp hk)]
    exact List.Pairwise.nil

theorem pairwise_pending (b : NonStupidBitField size) (it : Iterator) :
    (b.pending it).Pairwise (· < ·) := pairwise_append (b.pairwise_wordsFrom _)

/-- The search for a word skips words without bits. -/
theorem wordsFrom_nextWord (b : NonStupidBitField size) (k : ℕ) :
    match b.nextWord k with
    | some (i, bits) => i < dataLength size ∧ bits ≠ 0 ∧
        b.wordsFrom k = (ascending bits).map (i * 64 + ·) ++ b.wordsFrom (i + 1)
    | none => b.wordsFrom k = [] := by
  induction k using @wordsFrom.induct size with
  | case1 k hk ih =>
    rw [nextWord, dif_pos hk]
    by_cases hword : b.data ⟨k, hk⟩ ≠ 0
    · rw [if_pos hword]
      exact ⟨hk, hword, wordsFrom_of_lt b hk⟩
    · have hempty : b.wordsFrom k = b.wordsFrom (k + 1) := by
        rw [wordsFrom_of_lt b hk, not_not.mp hword, map_ascending_zero, List.nil_append]
      rw [if_neg hword, hempty]
      exact ih
  | case2 k hk =>
    rw [nextWord, dif_neg hk]
    exact wordsFrom_of_le b (Nat.not_lt.mp hk)

/-! ## Steps -/

theorem room (hsize : size + 0x3F < 2 ^ 32) :
    dataLength size * 64 < 2 ^ 32 ∧ size ≤ dataLength size * 64 ∧
      (size % 64 = 0 → dataLength size * 64 = size) := by
  rw [dataLength_eq hsize]
  omega

/-- Taking the lowest bit of a word: it is the next one, unless it lies behind the field. -/
theorem take_spec (b : NonStupidBitField size) (hsize : size + 0x3F < 2 ^ 32) {k : ℕ}
    (hk : k < dataLength size) {bits : U64} (hbits : bits ≠ 0) :
    ∃ a rest, (ascending bits).map (k * 64 + ·) ++ b.wordsFrom (k + 1) = a :: rest ∧
      (size ≤ a ∧ (Iterator.take size k bits).dataIdx = dataLength size ∨
        a < size ∧ (Iterator.take size k bits).dataIdx < dataLength size ∧
        (Iterator.take size k bits).deref = a ∧ b.pending (Iterator.take size k bits) = rest) := by
  obtain ⟨hmax, hsize, hfull⟩ := room hsize
  have hctz : bits.ctz.toNat < 64 :=
    BitVec.lt_of_getLsbD (BitVec.getLsbD_true_ctz_of_ne_zero hbits)
  refine ⟨k * 64 + bits.ctz.toNat,
    (ascending (bits &&& (bits - 1))).map (k * 64 + ·) ++ b.wordsFrom (k + 1), ?_, ?_⟩
  · rw [ascending_of_ne_zero hbits]
    rfl
  · rw [Iterator.take, Nat.mod_eq_of_lt (show k * 64 + bits.ctz.toNat < 2 ^ 32 by omega)]
    split_ifs with hend
    · exact Or.inl ⟨hend.2, rfl⟩
    · refine Or.inr ⟨?_, hk, deref_of_lt (by omega), rfl⟩
      by_contra hge
      exact hend ⟨fun h0 => by have := hfull h0; omega, by omega⟩

/-- `Next` goes on to the head of what is left. -/
theorem next_spec (b : NonStupidBitField size) (hsize : size + 0x3F < 2 ^ 32) {it : Iterator}
    (hit : it.dataIdx < dataLength size) :
    (∀ i ∈ b.pending it, size ≤ i) ∧ (b.next it).dataIdx = dataLength size ∨
      ∃ rest, b.pending it = (b.next it).deref :: rest ∧ (b.next it).deref < size ∧
        (b.next it).dataIdx < dataLength size ∧ b.pending (b.next it) = rest := by
  -- the word the step ends in, and what was left before it
  have htake : ∀ {k : ℕ} {bits : U64}, k < dataLength size → bits ≠ 0 →
      b.pending it = (ascending bits).map (k * 64 + ·) ++ b.wordsFrom (k + 1) →
      b.next it = Iterator.take size k bits →
      (∀ i ∈ b.pending it, size ≤ i) ∧ (b.next it).dataIdx = dataLength size ∨
        ∃ rest, b.pending it = (b.next it).deref :: rest ∧ (b.next it).deref < size ∧
          (b.next it).dataIdx < dataLength size ∧ b.pending (b.next it) = rest := by
    intro k bits hk hbits hpending hnext
    have hsorted := b.pairwise_pending it
    obtain ⟨a, rest, hlist, hcases⟩ := b.take_spec hsize hk hbits
    rw [hpending, hlist] at hsorted
    rw [hnext, hpending, hlist]
    rcases hcases with ⟨hge, hend⟩ | ⟨hlt, hin, hderef, hrest⟩
    · refine Or.inl ⟨fun i hi => ?_, hend⟩
      rcases List.mem_cons.mp hi with rfl | hi
      · exact hge
      · exact Nat.le_trans hge (Nat.le_of_lt (List.rel_of_pairwise_cons hsorted hi))
    · exact Or.inr ⟨rest, by rw [hderef], by rwa [hderef], hin, hrest⟩
  by_cases hrem : it.remainingBits = 0
  · have hpending : b.pending it = b.wordsFrom (it.dataIdx + 1) := by
      rw [pending, hrem]
      exact congrArg (· ++ b.wordsFrom (it.dataIdx + 1)) (map_ascending_zero it.dataIdx)
    have hword := b.wordsFrom_nextWord (it.dataIdx + 1)
    cases hnext : b.nextWord (it.dataIdx + 1) with
    | none =>
      rw [hnext] at hword
      refine Or.inl ⟨fun i hi => ?_, ?_⟩
      · rw [hpending, hword] at hi
        exact absurd hi List.not_mem_nil
      · rw [next, if_pos hrem, hnext]
    | some w =>
      rw [hnext] at hword
      refine htake hword.1 hword.2.1 (hpending.trans hword.2.2) ?_
      rw [next, if_pos hrem, hnext]
  · exact htake hit hrem rfl (by rw [next, if_neg hrem])

/-- `Begin` goes to the first bit of the field. -/
theorem begin_spec (b : NonStupidBitField size) (hsize : size + 0x3F < 2 ^ 32) (k : ℕ) :
    (∀ i ∈ b.wordsFrom k, size ≤ i) ∧ (b.beginFrom k).dataIdx = dataLength size ∨
      (b.beginFrom k).dataIdx < dataLength size ∧ (b.beginFrom k).deref < size ∧
        b.wordsFrom k = (b.beginFrom k).deref :: b.pending (b.beginFrom k) := by
  obtain ⟨hmax, hlength, -⟩ := room hsize
  induction k using @wordsFrom.induct size with
  | case1 k hk ih =>
    rw [beginFrom, dif_pos hk]
    dsimp only
    by_cases hword : b.data ⟨k, hk⟩ = 0
    · have hempty : b.wordsFrom k = b.wordsFrom (k + 1) := by
        rw [wordsFrom_of_lt b hk, hword, map_ascending_zero, List.nil_append]
      rw [if_neg fun h => h.1 hword, hempty]
      exact ih
    · have hctz : (b.data ⟨k, hk⟩).ctz.toNat < 64 :=
        BitVec.lt_of_getLsbD (BitVec.getLsbD_true_ctz_of_ne_zero hword)
      have hlist : b.wordsFrom k = (k * 64 + (b.data ⟨k, hk⟩).ctz.toNat) ::
          b.pending ⟨k, (b.data ⟨k, hk⟩).ctz.toNat,
            b.data ⟨k, hk⟩ &&& (b.data ⟨k, hk⟩ - 1)⟩ := by
        rw [wordsFrom_of_lt b hk, ascending_of_ne_zero hword]
        rfl
      rw [Nat.mod_eq_of_lt (by omega : (b.data ⟨k, hk⟩).ctz.toNat + k * 64 < 2 ^ 32)]
      split_ifs with hin
      · have hderef : Iterator.deref ⟨k, (b.data ⟨k, hk⟩).ctz.toNat,
            b.data ⟨k, hk⟩ &&& (b.data ⟨k, hk⟩ - 1)⟩ = k * 64 + (b.data ⟨k, hk⟩).ctz.toNat :=
          deref_of_lt (by omega)
        refine Or.inr ⟨hk, ?_, ?_⟩
        · rw [hderef]
          omega
        · rw [hderef]
          exact hlist
      · -- the first bit lies behind the field, and the others behind the first
        have hge : size ≤ k * 64 + (b.data ⟨k, hk⟩).ctz.toNat := by
          by_contra hlt
          exact hin ⟨hword, by omega⟩
        have hall : ∀ i ∈ b.wordsFrom k, size ≤ i := by
          have hsorted := b.pairwise_wordsFrom k
          rw [hlist] at hsorted ⊢
          intro i hi
          rcases List.mem_cons.mp hi with rfl | hi
          · exact hge
          · exact Nat.le_trans hge (Nat.le_of_lt (List.rel_of_pairwise_cons hsorted hi))
        have hrest : ∀ i ∈ b.wordsFrom (k + 1), size ≤ i := by
          intro i hi
          refine hall i ?_
          rw [wordsFrom_of_lt b hk]
          exact List.mem_append_right _ hi
        rcases ih with ⟨-, hend⟩ | ⟨-, hlt, hhead⟩
        · exact Or.inl ⟨hall, hend⟩
        · have hmem := hrest _ (hhead ▸ List.mem_cons_self)
          omega
  | case2 k hk =>
    refine Or.inl ⟨fun i hi => ?_, ?_⟩
    · rw [wordsFrom_of_le b (Nat.not_lt.mp hk)] at hi
      exact absurd hi List.not_mem_nil
    · rw [beginFrom, dif_neg hk]
      rfl

/-! ## The loop -/

theorem visited_end (b : NonStupidBitField size) {it : Iterator}
    (hit : it.dataIdx = dataLength size) (fuel : ℕ) : b.visited (fuel + 1) it = some [] := by
  rw [visited, if_pos hit]

/-- From a bit inside the field the loop visits it and what is left inside. -/
theorem visited_spec (b : NonStupidBitField size) (hsize : size + 0x3F < 2 ^ 32) (l : List ℕ)
    {it : Iterator} (hit : it.dataIdx < dataLength size) (hpending : b.pending it = l) :
    b.visited (l.length + 2) it = some (it.deref :: l.filter (· < size)) := by
  induction l generalizing it with
  | nil =>
    rw [visited, if_neg hit.ne]
    rcases b.next_spec hsize hit with ⟨-, hend⟩ | ⟨rest, hlist, -⟩
    · rw [visited_end b hend]
      rfl
    · exact absurd (hpending.symm.trans hlist) nofun
  | cons a l ih =>
    rw [visited, if_neg hit.ne]
    rcases b.next_spec hsize hit with ⟨hall, hend⟩ | ⟨rest, hlist, hlt, hin, hrest⟩
    · have hnone : (a :: l).filter (· < size) = [] := by
        rw [List.filter_eq_nil_iff]
        intro i hi
        simpa using hall i (hpending ▸ hi)
      rw [visited_end b hend, hnone]
      rfl
    · obtain ⟨rfl, rfl⟩ := List.cons.inj (hpending.symm.trans hlist)
      rw [List.length_cons, ih hin hrest, List.filter_cons, if_pos (decide_eq_true hlt)]
      rfl

/-- Inside a field, ranges are set and checked bit by bit, and the loop over an iterator visits
the set bits in ascending order. The array of a field has an element at least. -/
theorem bitField_ranges_and_iteration {size : ℕ} (hsize : size < 2 ^ 32)
    (hdata : 0 < dataLength size) (b : NonStupidBitField size) :
    (∀ startBit bitsCount, startBit + bitsCount ≤ size →
      (∃ b', b.setRange startBit bitsCount = some b' ∧ ∀ i, b'.get i =
        (b.get i || decide (startBit ≤ i ∧ i < startBit + bitsCount))) ∧
      ∃ r, b.checkRange startBit bitsCount = some r ∧
        (r = true ↔ ∃ i, (startBit ≤ i ∧ i < startBit + bitsCount) ∧ b.get i = true)) ∧
    ∃ fuel, b.visited fuel b.beginIt = some ((List.range size).filter b.get) := by
  have hwide : size + 0x3F < 2 ^ 32 := by
    rw [dataLength] at hdata
    omega
  refine ⟨fun startBit bitsCount hend =>
    ⟨b.setRange_spec hwide hend, b.checkRange_spec hwide hend⟩, ?_⟩
  obtain ⟨-, hlength, -⟩ := room hwide
  have hbits : (List.range size).filter b.get = (b.wordsFrom 0).filter (· < size) := by
    refine eq_of_pairwise_lt (List.pairwise_lt_range.filter _)
      ((b.pairwise_wordsFrom 0).filter _) fun i => ?_
    rw [List.mem_filter, List.mem_filter, mem_wordsFrom, List.mem_range, decide_eq_true_iff]
    exact ⟨fun h => ⟨⟨by omega, by omega, h.2⟩, h.1⟩, fun h => ⟨h.2, h.1.2.2⟩⟩
  rw [hbits]
  rcases b.begin_spec hwide 0 with ⟨hall, hend⟩ | ⟨hin, hlt, hlist⟩
  · refine ⟨1, ?_⟩
    have hnone : (b.wordsFrom 0).filter (· < size) = [] := by
      rw [List.filter_eq_nil_iff]
      intro i hi
      simpa using hall i hi
    rw [beginIt, visited_end b hend, hnone]
  · refine ⟨_, (b.visited_spec hwide _ hin rfl).trans ?_⟩
    rw [hlist, List.filter_cons, if_pos (decide_eq_true hlt)]

/-- Bits 0 and 2 in each of two words. -/
def twoWords : NonStupidBitField 70 := ⟨fun _ => 5⟩

theorem bitField_ranges_and_iteration_twoWords :
    (∃ b', twoWords.setRange 60 8 = some b' ∧
      ∀ i, b'.get i = (twoWords.get i || decide (60 ≤ i ∧ i < 68))) ∧
      ∃ fuel, twoWords.visited fuel twoWords.beginIt = some [0, 2, 64, 66] := by
  have hbits : (List.range 70).filter twoWords.get = [0, 2, 64, 66] := by decide
  have hfield := bitField_ranges_and_iteration (by decide) (by decide) twoWords
  rw [hbits] at hfield
  exact ⟨(hfield.1 60 8 (by decide)).1, hfield.2⟩

end MelonDS.NonStupidBitField

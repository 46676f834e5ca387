import MelonDS.GDB.Memory

/-!
# How a range is split into accesses

An access is as wide as the address and the bytes left allow, so the accesses of a loop lie one
after the other and each is naturally aligned. A loop writes its bytes, or answers with them.
-/

namespace MelonDS.GDB
open FilledBuffer HexText

/-- The bytes an access touches. -/
def Access.cells (a : Access) : List U32 :=
  (List.range a.bytes).map fun i => a.addr + BitVec.ofNat 32 i

def Access.Aligned (a : Access) : Prop :=
  (a.bytes = 1 ∨ a.bytes = 2 ∨ a.bytes = 4) ∧ a.addr.toNat % a.bytes = 0

/-- The bytes from an address on. -/
def cellsFrom (address : U32) (n : ℕ) : List U32 :=
  (List.range n).map fun i => address + BitVec.ofNat 32 i

/-- Aligned accesses that touch each byte of a range once, in its order. -/
structure Covers (write : Bool) (as : List Access) (address : U32) (n : ℕ) : Prop where
  each : ∀ a ∈ as, a.write = write ∧ a.Aligned
  cells : as.flatMap Access.cells = cellsFrom address n

/-- The range holds the data, and every other byte is as before. -/
def Overwritten (before after : U32 → U8) (address : U32) (data : List U8) : Prop :=
  ∀ a, after a = (data[(a - address).toNat]?).getD (before a)

structure Stored (g t : Guest) (address : U32) (data : List U8) : Prop where
  memory : Overwritten g.memory t.memory address data
  accesses : ∃ as, t.accesses = g.accesses ++ as ∧ Covers true as address data.length

/-- The bytes of a range. -/
def Guest.load (g : Guest) (address : U32) (n : ℕ) : List U8 := (cellsFrom address n).map g.memory

structure Loaded (g t : Guest) (address : U32) (n : ℕ) : Prop where
  memory : t.memory = g.memory
  accesses : ∃ as, t.accesses = g.accesses ++ as ∧ Covers false as address n

/-! ## One access -/

theorem memoryAccessBytes_cases (address : U32) (remaining : ℕ) :
    memoryAccessBytes address remaining = 1 ∨
      memoryAccessBytes address remaining = 2 ∧ 2 ≤ remaining ∧ address.getLsbD 0 = false ∨
      memoryAccessBytes address remaining = 4 ∧ 4 ≤ remaining ∧ address.getLsbD 0 = false ∧
        address.getLsbD 1 = false := by
  unfold memoryAccessBytes
  split_ifs with h1 h2
  · exact .inl rfl
  · push Not at h1
    exact .inr (.inl ⟨rfl, by omega, by simpa using h1.1⟩)
  · push Not at h1 h2
    exact .inr (.inr ⟨rfl, by omega, by simpa using h1.1, by simpa using h2.1⟩)

theorem toNat_mod_two (address : U32) (h : address.getLsbD 0 = false) : address.toNat % 2 = 0 := by
  simp only [BitVec.getLsbD, Nat.testBit_zero, decide_eq_false_iff_not] at h
  omega

theorem toNat_mod_four (address : U32) (h0 : address.getLsbD 0 = false)
    (h1 : address.getLsbD 1 = false) : address.toNat % 4 = 0 := by
  have htwo := toNat_mod_two address h0
  simp only [BitVec.getLsbD, Nat.testBit_succ, Nat.testBit_zero, decide_eq_false_iff_not] at h1
  omega

theorem memoryAccessBytes_aligned (write : Bool) (address : U32) (remaining : ℕ) :
    (⟨write, address, memoryAccessBytes address remaining⟩ : Access).Aligned := by
  rcases memoryAccessBytes_cases address remaining with h | ⟨h, -, h0⟩ | ⟨h, -, h0, h1⟩
  · exact ⟨.inl h, by rw [h]; exact Nat.mod_one _⟩
  · exact ⟨.inr (.inl h), by rw [h]; exact toNat_mod_two address h0⟩
  · exact ⟨.inr (.inr h), by rw [h]; exact toNat_mod_four address h0 h1⟩

theorem memoryAccessBytes_pos (address : U32) (remaining : ℕ) :
    0 < memoryAccessBytes address remaining ∧ memoryAccessBytes address remaining ≤ 4 := by
  rcases memoryAccessBytes_cases address remaining with h | ⟨h, -, -⟩ | ⟨h, -, -, -⟩ <;> omega

theorem memoryAccessBytes_le (address : U32) {remaining : ℕ} (h : 0 < remaining) :
    memoryAccessBytes address remaining ≤ remaining := by
  rcases memoryAccessBytes_cases address remaining with h | ⟨h, _, -⟩ | ⟨h, _, -, -⟩ <;> omega

theorem getLsbD_orBytes (byte : ℕ → U8) {n : ℕ} (hn : n ≤ 4) (j : ℕ) :
    (orBytes byte n).getLsbD j = (decide (j < 8 * n) && (byte (j / 8)).getLsbD (j % 8)) := by
  induction n with
  | zero => simp [orBytes]
  | succ n ih =>
    have hstep : orBytes byte (n + 1) =
        orBytes byte n ||| (byte n).setWidth 32 <<< (8 * n) := by
      simp [orBytes, List.range_succ]
    rw [hstep, BitVec.getLsbD_or, ih (by omega), BitVec.getLsbD_shiftLeft, BitVec.getLsbD_setWidth]
    rcases Nat.lt_trichotomy (j / 8) n with hlt | rfl | hgt
    · have : j < 8 * n := by omega
      simp [this, show j < 8 * (n + 1) by omega]
    · have hsub : j - 8 * (j / 8) = j % 8 := by omega
      simp [hsub, show ¬j < 8 * (j / 8) by omega, show j < 8 * (j / 8 + 1) by omega,
        show j < 32 by omega, show j % 8 < 32 by omega]
    · have hge : 8 ≤ j - 8 * n := by omega
      simp [show ¬j < 8 * n by omega, show ¬j < 8 * (n + 1) by omega,
        BitVec.getLsbD_of_ge (byte n) _ hge]

/-- The bytes of a word are those it was put together from. -/
theorem byte_orBytes (byte : ℕ → U8) {n i : ℕ} (hn : n ≤ 4) (hi : i < n) :
    ((orBytes byte n) >>> (8 * i)).setWidth 8 = byte i := by
  apply BitVec.eq_of_getLsbD_eq
  intro j hj
  rw [BitVec.getLsbD_setWidth, BitVec.getLsbD_ushiftRight, getLsbD_orBytes byte hn]
  have hdiv : (8 * i + j) / 8 = i := by omega
  have hmod : (8 * i + j) % 8 = j := by omega
  simp [hj, hdiv, hmod, show 8 * i + j < 8 * n by omega]

theorem foldlM_orBytes {data : List U8} {count : ℕ} (h : count ≤ data.length) :
    (List.range count).foldlM
        (fun (v : U32) i => do return v ||| (← readAt data i).setWidth 32 <<< (8 * i)) 0 =
      Except.ok (ε := Fault) (orBytes (fun i => data.getD i 0) count) := by
  induction count with
  | zero => rfl
  | succ count ih =>
    rw [List.range_succ, List.foldlM_append, ih (by omega)]
    have hread := readAt_of_lt (show count < data.length by omega)
    have hget : data[count]?.getD 0#8 = data[count] := by
      simp [show count < data.length by omega]
    simp [orBytes, List.range_succ, hread, hget, bind, Except.bind, pure, Except.pure]

/-! ## Accesses one after the other -/

theorem cellsFrom_add (address : U32) (m n : ℕ) :
    cellsFrom address (m + n) =
      cellsFrom address m ++ cellsFrom (address + BitVec.ofNat 32 m) n := by
  simp only [cellsFrom, List.range_add, List.map_append, List.map_map]
  congr 1
  refine List.map_congr_left fun i _ => ?_
  simp [BitVec.ofNat_add, BitVec.add_assoc]

theorem Covers.nil (write : Bool) (address : U32) : Covers write [] address 0 :=
  ⟨fun _ h => absurd h (List.not_mem_nil), rfl⟩

/-- An access as the splitter makes it, then those of the bytes left. -/
theorem Covers.cons {write : Bool} {as : List Access} {address : U32} {remaining : ℕ}
    (hpos : 0 < remaining)
    (h : Covers write as (address + BitVec.ofNat 32 (memoryAccessBytes address remaining))
      (remaining - memoryAccessBytes address remaining)) :
    Covers write (⟨write, address, memoryAccessBytes address remaining⟩ :: as) address
      remaining := by
  have hle := memoryAccessBytes_le address hpos
  constructor
  · intro a ha
    rcases List.mem_cons.mp ha with rfl | ha
    · exact ⟨rfl, memoryAccessBytes_aligned write address remaining⟩
    · exact h.each a ha
  · rw [List.flatMap_cons, h.cells]
    conv_rhs => rw [← Nat.add_sub_of_le hle]
    rw [cellsFrom_add]
    rfl

theorem Overwritten.nil (m : U32 → U8) (address : U32) : Overwritten m m address [] :=
  fun _ => rfl

/-- The first bytes, then the others behind them. -/
theorem Overwritten.trans {m₀ m₁ m₂ : U32 → U8} {address : U32} {data : List U8} {c : ℕ}
    (hc : c ≤ data.length) (hlen : data.length ≤ 2 ^ 32)
    (h₁ : Overwritten m₀ m₁ address (data.take c))
    (h₂ : Overwritten m₁ m₂ (address + BitVec.ofNat 32 c) (data.drop c)) :
    Overwritten m₀ m₂ address data := by
  intro a
  rw [h₂ a, h₁ a]
  have hk := (a - address).isLt
  have hsub : (a - (address + BitVec.ofNat 32 c)).toNat =
      ((a - address).toNat + (2 ^ 32 - c % 2 ^ 32)) % 2 ^ 32 := by
    have hassoc : a - (address + BitVec.ofNat 32 c) = a - address - BitVec.ofNat 32 c := by
      rw [← BitVec.sub_sub]
    rw [hassoc, BitVec.toNat_sub, BitVec.toNat_ofNat, Nat.add_comm]
  rw [hsub, List.getElem?_drop, List.getElem?_take]
  generalize (a - address).toNat = k at hk
  by_cases hlt : k < c
  · have hout : data.length ≤ c + (k + (2 ^ 32 - c % 2 ^ 32)) % 2 ^ 32 := by
      rcases Nat.lt_or_ge c (2 ^ 32) with hsmall | hlarge
      · rw [Nat.mod_eq_of_lt hsmall, Nat.mod_eq_of_lt (by omega)]
        omega
      · omega
    rw [List.getElem?_eq_none hout, if_pos hlt]
    rfl
  · have hsmall : c < 2 ^ 32 := by omega
    have hin : c + (k + (2 ^ 32 - c % 2 ^ 32)) % 2 ^ 32 = k := by
      rw [Nat.mod_eq_of_lt hsmall, show k + (2 ^ 32 - c) = k - c + 2 ^ 32 by omega,
        Nat.add_mod_right, Nat.mod_eq_of_lt (by omega)]
      omega
    rw [hin, if_neg hlt]
    rfl

theorem overwritten_writeMem (g : Guest) (address : U32) {data : List U8} {count : ℕ}
    (hcount : count ≤ 4) (hle : count ≤ data.length) :
    Overwritten g.memory
      (g.writeMem address (count * 8) (orBytes (fun i => data.getD i 0) count)).memory
      address (data.take count) := by
  intro a
  simp only [Guest.writeMem, Nat.mul_div_cancel count (show 0 < 8 by decide)]
  split_ifs with hlt
  · have hget : (a - address).toNat < data.length := by omega
    rw [byte_orBytes _ hcount hlt, List.getElem?_take, if_pos hlt, List.getElem?_eq_getElem hget]
    change data.getD _ 0 = _
    rw [List.getD_eq_getElem?_getD, List.getElem?_eq_getElem hget]
    rfl
  · rw [List.getElem?_take, if_neg hlt]
    rfl

theorem substr_drop {data : List U8} {count : ℕ} (h : count ≤ data.length) :
    substr data count data.length = .ok (data.drop count) := by
  rw [substr, if_pos h, List.take_of_length_le (by simp)]

theorem writeMemoryLoop_stored {turns : ℕ} (address : U32) (data : List U8) (g : Guest)
    (hturns : data.length ≤ turns) (hlen : data.length ≤ 2 ^ 32) :
    ∃ t, writeMemoryLoop turns address data g = .ok t ∧ Stored g t address data := by
  induction turns generalizing address data g with
  | zero =>
    obtain rfl : data = [] := List.eq_nil_of_length_eq_zero (by omega)
    exact ⟨g, rfl, Overwritten.nil g.memory address, [], by simp, .nil true address⟩
  | succ turns ih =>
    rw [writeMemoryLoop]
    split_ifs with hnil
    · subst hnil
      exact ⟨g, rfl, Overwritten.nil g.memory address, [], by simp, .nil true address⟩
    · have hpos : 0 < data.length := List.length_pos_iff.mpr hnil
      obtain ⟨hone, hfour⟩ := memoryAccessBytes_pos address data.length
      have hle := memoryAccessBytes_le address hpos
      have hcover := @Covers.cons true
      have hfold := foldlM_orBytes hle
      generalize hcount : memoryAccessBytes address data.length = count at *
      obtain ⟨t, hrun, hmemory, as, haccesses, hcovers⟩ := ih (address + BitVec.ofNat 32 count)
        (data.drop count) (g.writeMem address (count * 8) (orBytes (fun i => data.getD i 0) count))
        (by rw [List.length_drop]; omega) (by rw [List.length_drop]; omega)
      refine ⟨t, ?_, ?_, ⟨true, address, count⟩ :: as, ?_, ?_⟩
      · dsimp only [bind, Except.bind]
        simp only [bind, Except.bind] at hfold
        rw [hfold]
        dsimp only
        rw [substr_drop hle]
        exact hrun
      · exact (overwritten_writeMem g address hfour hle).trans hle hlen hmemory
      · rw [haccesses]
        simp [Guest.writeMem]
      · rw [← hcount]
        refine hcover hpos ?_
        rw [hcount, ← List.length_drop]
        exact hcovers

theorem writeMemory_stored (address : U32) (data : List U8) (g : Guest)
    (hlen : data.length ≤ 2 ^ 32) :
    ∃ t, writeMemory address data g = .ok t ∧ Stored g t address data :=
  writeMemoryLoop_stored address data g le_rfl hlen

/-! ## Reading -/

theorem hexfmt8_holds (capacity : ℕ) {buffer : ℕ → U8} {written : List U8}
    (h : Holds buffer written) (hcapacity : written.length + 2 ≤ capacity) (v : U8) :
    ∃ next, hexfmt8 capacity buffer written.length v = .ok next ∧
      Holds next (written ++ byteText v) := by
  obtain ⟨first, hfirst, hholds⟩ := h.put capacity (by omega)
    (digitOf (v.toNat / 16))
  obtain ⟨next, hnext, hholds⟩ := hholds.put capacity
    (by rw [List.length_append, List.length_singleton]; omega) (digitOf (v.toNat % 16))
  rw [List.length_append, List.length_singleton] at hnext
  refine ⟨next, ?_, ?_⟩
  · simp only [hexfmt8, hfirst, bind, Except.bind, hnext]
  · rwa [List.append_assoc] at hholds

theorem bytesText_length (data : List U8) : (bytesText data).length = 2 * data.length := by
  induction data with
  | nil => rfl
  | cons b data ih =>
    have hsplit : bytesText (b :: data) = byteText b ++ bytesText data := rfl
    rw [hsplit, List.length_append, ih, List.length_cons]
    simp only [byteText, List.length_cons, List.length_nil]
    omega

theorem bytesText_append (a b : List U8) : bytesText (a ++ b) = bytesText a ++ bytesText b :=
  List.flatMap_append

/-- The digits of the bytes of one word. -/
theorem hexResponse_holds (value : U32) (byte : ℕ → U8) {done i : ℕ} (turns : ℕ) {response : ℕ → U8}
    {written : List U8} (hvalue : ∀ k < i + turns, (value >>> (k * 8)).setWidth 8 = byte k)
    (h : Holds response written) (hwritten : written.length = (done + i) * 2)
    (hcapacity : (done + i + turns) * 2 ≤ maxPayload) :
    ∃ next, hexResponse value done turns i response = .ok next ∧
      Holds next (written ++ bytesText ((List.range' i turns).map byte)) := by
  induction turns generalizing i response written with
  | zero => exact ⟨response, rfl, by simpa [bytesText] using h⟩
  | succ turns ih =>
    obtain ⟨next, hnext, hholds⟩ := hexfmt8_holds maxPayload h (by omega)
      (byte i)
    obtain ⟨last, hlast, hholds⟩ := ih (i := i + 1) (fun k hk => hvalue k (by omega)) hholds
      (by rw [List.length_append, hwritten]; simp only [byteText, List.length_cons,
            List.length_nil]; omega)
      (by omega)
    refine ⟨last, ?_, ?_⟩
    · rw [hexResponse, hvalue i (by omega), ← hwritten, hnext]
      exact hlast
    · rw [List.append_assoc] at hholds
      exact hholds

theorem Loaded.refl (g : Guest) (address : U32) : Loaded g g address 0 :=
  ⟨rfl, [], by simp, .nil false address⟩

theorem readLoop_loaded {length : ℕ} (turns done : ℕ) (address : U32) {response : ℕ → U8}
    {written : List U8} (g : Guest) (hturns : length - done ≤ turns) (hdone : done ≤ length)
    (hlength : length ≤ maxPayload / 2) (h : Holds response written)
    (hwritten : written.length = done * 2) :
    ∃ last t, readLoop length turns done address response g = .ok (last, t) ∧
      Holds last (written ++ bytesText (g.load address (length - done))) ∧
      Loaded g t address (length - done) := by
  induction turns generalizing done address response written g with
  | zero =>
    obtain rfl : done = length := by omega
    refine ⟨response, g, rfl, ?_, ?_⟩
    · simpa [Guest.load, cellsFrom, bytesText] using h
    · rw [Nat.sub_self]
      exact .refl g address
  | succ turns ih =>
    rw [readLoop]
    by_cases hlt : done < length
    · rw [if_pos hlt]
      have hpos : 0 < length - done := by omega
      obtain ⟨hone, hfour⟩ := memoryAccessBytes_pos address (length - done)
      have hle := memoryAccessBytes_le address hpos
      have hcover := @Covers.cons false
      generalize hcount : memoryAccessBytes address (length - done) = count at *
      have hdiv := Nat.mul_div_cancel count (show 0 < 8 by decide)
      obtain ⟨next, hnext, hholds⟩ := hexResponse_holds (i := 0)
        (g.readMem address (count * 8)).1
        (fun i => g.memory (address + BitVec.ofNat 32 i)) count
        (fun k hk => by
          rw [Guest.readMem, hdiv, Nat.mul_comm k]
          exact byte_orBytes _ hfour (by omega)) h hwritten
        (by unfold maxPayload at *; omega)
      have hload : g.load address (length - done) =
          (List.range' 0 count).map (fun i => g.memory (address + BitVec.ofNat 32 i)) ++
            g.load (address + BitVec.ofNat 32 count) (length - (done + count)) := by
        rw [show length - done = count + (length - (done + count)) by omega, Guest.load,
          cellsFrom_add, List.map_append, ← List.range_eq_range', Guest.load]
        simp [cellsFrom]
      obtain ⟨last, t, hrun, hheld, hmemory, as, haccesses, hcovers⟩ :=
        ih (done + count) (address + BitVec.ofNat 32 count)
          (g.readMem address (count * 8)).2 (by omega) (by omega) hholds
          (by
            rw [List.length_append, bytesText_length, hwritten, List.length_map,
              List.length_range']
            omega)
      refine ⟨last, t, ?_, ?_, hmemory, ⟨false, address, count⟩ :: as, ?_, ?_⟩
      · dsimp only [bind, Except.bind]
        rw [hnext]
        exact hrun
      · rw [hload, bytesText_append, ← List.append_assoc]
        exact hheld
      · rw [haccesses, Guest.readMem, hdiv]
        simp
      · rw [← hcount]
        refine hcover hpos ?_
        rw [hcount, Nat.sub_sub]
        exact hcovers
    · rw [if_neg hlt]
      obtain rfl : done = length := by omega
      refine ⟨response, g, rfl, ?_, ?_⟩
      · simpa [Guest.load, cellsFrom, bytesText] using h
      · rw [Nat.sub_self]
        exact .refl g address

/-- A read of a part of what was stored. -/
theorem Stored.load {g t : Guest} {address : U32} {data : List U8} (h : Stored g t address data)
    {first : U32} {n : ℕ} (hrange : (first - address).toNat + n ≤ data.length)
    (hlen : data.length ≤ 2 ^ 32) :
    t.load first n = (data.drop (first - address).toNat).take n := by
  apply List.ext_getElem
  · simp only [Guest.load, cellsFrom, List.length_map, List.length_range, List.length_take,
      List.length_drop]
    omega
  · intro i hi _
    have hin : i < n := by simpa [Guest.load, cellsFrom] using hi
    simp only [Guest.load, cellsFrom, List.getElem_map, List.getElem_range, List.getElem_take,
      List.getElem_drop]
    rw [h.memory]
    have hcell : (first + BitVec.ofNat 32 i - address).toNat = (first - address).toNat + i := by
      have hassoc : first + BitVec.ofNat 32 i - address =
          first - address + BitVec.ofNat 32 i := by
        rw [BitVec.sub_eq_add_neg, BitVec.sub_eq_add_neg, BitVec.add_assoc, BitVec.add_assoc,
          BitVec.add_comm (BitVec.ofNat 32 i)]
      rw [hassoc, BitVec.toNat_add, BitVec.toNat_ofNat]
      omega
    rw [hcell, List.getElem?_eq_getElem (by omega)]
    rfl

end MelonDS.GDB

import MelonDS.AREngine.Structured

/-!
# Structured cheats in the engine

The engine goes through the words of a structured cheat item by item. Of its stack of
conditions it never pops anything but a one, so the end of a condition resumes, and a loop
comes back to its first item with the conditions as they were there.
-/

namespace MelonDS.AREngine

variable {σ : Type}

/-! ## Words in their places -/

/-- The given words stand at the position. -/
def Placed (words : List U32) (p : ℕ) (part : List U32) : Prop :=
  ∃ before behind, words = before ++ part ++ behind ∧ before.length = p

variable {bus : Bus σ} {words : List U32}

theorem Placed.append {p : ℕ} {part part' : List U32} (h : Placed words p (part ++ part')) :
    Placed words p part ∧ Placed words (p + part.length) part' := by
  obtain ⟨before, behind, rfl, rfl⟩ := h
  refine ⟨⟨before, part' ++ behind, ?_, rfl⟩, ⟨before ++ part, behind, ?_, ?_⟩⟩
  · simp only [List.append_assoc]
  · simp only [List.append_assoc]
  · rw [List.length_append]

theorem Placed.length_le {p : ℕ} {part : List U32} (h : Placed words p part) :
    p + part.length ≤ words.length := by
  obtain ⟨before, behind, rfl, rfl⟩ := h
  rw [List.length_append, List.length_append]
  exact Nat.le_add_right _ _

theorem Placed.fetch {p : ℕ} {w : U32} {part : List U32} (h : Placed words p (w :: part)) (s : σ) :
    fetch words p s = .ok w := by
  have hle := h.length_le
  rw [List.length_cons] at hle
  rw [fetch_of_lt (by omega)]
  obtain ⟨before, behind, rfl, rfl⟩ := h
  rw [List.get_eq_getElem]
  simp

theorem Placed.tail {p : ℕ} {w : U32} {part : List U32} (h : Placed words p (w :: part)) :
    Placed words (p + 1) part :=
  have hsplit : Placed words p ([w] ++ part) := h
  hsplit.append.2

/-! ## Copies -/

theorem lines_of_ne_nil {data : List U8} (h : data ≠ []) :
    lines data = word (data.take 4) :: word ((data.drop 4).take 4) :: lines (data.drop 8) := by
  rw [lines, if_neg h]

theorem length_lines (data : List U8) : (lines data).length = (data.length + 7) / 8 * 2 := by
  induction hn : data.length using Nat.strongRecOn generalizing data with
  | ind n ih =>
    by_cases hnil : data = []
    · subst hnil
      rw [lines, if_pos rfl, ← hn]
      rfl
    · have hpos := List.length_pos_of_ne_nil hnil
      have hrest := ih (data.drop 8).length (by rw [List.length_drop]; omega) (data.drop 8) rfl
      rw [lines_of_ne_nil hnil, List.length_cons, List.length_cons, hrest, List.length_drop]
      omega

theorem word_cons {b : U8} {data : List U8} (hdata : data.length < 4) :
    (word (b :: data)).setWidth 8 = b ∧ word (b :: data) >>> 8 = word data := by
  have hb := b.isLt
  have hlt := ofBytes_lt data
  have hpow : 256 ^ data.length ≤ 256 ^ 3 := Nat.pow_le_pow_right (by decide) (by omega)
  have hnat : (word (b :: data)).toNat = b.toNat + 256 * ofBytes data := by
    rw [word, ofBytes, BitVec.toNat_ofNat]
    omega
  refine ⟨BitVec.eq_of_toNat_eq ?_, BitVec.eq_of_toNat_eq ?_⟩
  · rw [BitVec.toNat_setWidth, hnat]
    omega
  · rw [BitVec.toNat_ushiftRight, hnat, Nat.shiftRight_eq_div_pow, word, BitVec.toNat_ofNat]
    omega

theorem writeBytes_word (bus : Bus σ) {data : List U8} (h : data.length < 4) (addr : U32) (s : σ) :
    writeBytes bus data.length (word data) addr s = written bus data addr s := by
  induction data generalizing addr s with
  | nil => rfl
  | cons b data ih =>
    rw [List.length_cons] at h
    obtain ⟨hlow, hrest⟩ := word_cons (b := b) (by omega : data.length < 4)
    rw [List.length_cons, writeBytes, hlow, hrest, ih (by omega)]
    match data, h with
    | [], _ => rfl
    | [_], _ => rfl
    | [_, _], _ => rfl

/-- A line that is full. -/
theorem lines_full (b₀ b₁ b₂ b₃ b₄ b₅ b₆ b₇ : U8) (data : List U8) :
    lines (b₀ :: b₁ :: b₂ :: b₃ :: b₄ :: b₅ :: b₆ :: b₇ :: data) =
      word [b₀, b₁, b₂, b₃] :: word [b₄, b₅, b₆, b₇] :: lines data :=
  lines_of_ne_nil (List.cons_ne_nil _ _)

/-- The last line, if it is not full. -/
theorem lines_last {data : List U8} (hpos : data ≠ []) (hshort : data.length < 8) :
    lines data = [word (data.take 4), word (data.drop 4)] := by
  have hnil : data.drop 8 = [] := List.drop_eq_nil_of_le (by omega)
  have htake : (data.drop 4).take 4 = data.drop 4 :=
    List.take_of_length_le (by rw [List.length_drop]; omega)
  rw [lines_of_ne_nil hpos, hnil, htake, lines, if_pos rfl]

theorem written_word {data : List U8} (h : 4 ≤ data.length) (addr : U32) (s : σ) :
    written bus data addr s =
      written bus (data.drop 4) (addr + 4) (bus.write32 addr (word (data.take 4)) s) := by
  match data, h with
  | _ :: _ :: _ :: _ :: _, _ => rfl

theorem copyData_last {p : ℕ} {data : List U8} (hpos : data ≠ []) (hshort : data.length < 8)
    (h : Placed words p (lines data)) (addr : U32) (s : σ) :
    copyData bus words data.length p addr s = .ok (p + 2, written bus data addr s) := by
  have hlength := List.length_pos_of_ne_nil hpos
  rw [lines_last hpos hshort] at h
  rw [copyData.eq_3 _ _ _ _ _ _ (by omega) (by omega)]
  simp only [h.fetch, h.tail.fetch]
  by_cases hword : 4 ≤ data.length
  · have hrest : (data.drop 4).length = data.length - 4 := List.length_drop
    refine (if_pos hword).trans ?_
    rw [written_word hword, ← writeBytes_word bus (by omega : (data.drop 4).length < 4), hrest]
    rfl
  · have htake : data.take 4 = data := List.take_of_length_le (by omega)
    refine (if_neg hword).trans ?_
    rw [← writeBytes_word bus (by omega : data.length < 4), htake]

theorem copyData_lines (hquiet : ∀ s, bus.stopRequested s = (false, s)) {p : ℕ} {data : List U8}
    (h : Placed words p (lines data)) (addr : U32) (s : σ) :
    copyData bus words data.length p addr s =
      .ok (p + (lines data).length, written bus data addr s) := by
  induction hn : data.length using Nat.strongRecOn generalizing data p addr s with
  | ind n ih =>
    by_cases hfull : 8 ≤ n
    · match data, hn ▸ hfull with
      | b₀ :: b₁ :: b₂ :: b₃ :: b₄ :: b₅ :: b₆ :: b₇ :: data, _ =>
        obtain rfl : n = data.length + 8 := hn.symm
        rw [lines_full] at h ⊢
        have hrest := ih data.length (by omega) h.tail.tail (addr + 8)
          (bus.write32 (addr + 4) (word [b₄, b₅, b₆, b₇])
            (bus.write32 addr (word [b₀, b₁, b₂, b₃]) s)) rfl
        have hnext : addr + 4 + 4 = addr + 8 := by rw [BitVec.add_assoc]; rfl
        rw [copyData, hquiet]
        simp only [h.fetch, h.tail.fetch]
        refine hrest.trans ?_
        rw [List.length_cons, List.length_cons, written, written, hnext, Nat.add_assoc p 2,
          Nat.add_comm 2]
    · by_cases hnil : data = []
      · subst hnil
        subst hn
        rw [lines, if_pos rfl]
        rfl
      · have hlength : (lines data).length = 2 := by
          rw [lines_last hnil (by omega)]
          rfl
        rw [hlength, ← hn]
        exact copyData_last hnil (by omega) h addr s

theorem copyMemory_moved (hquiet : ∀ s, bus.stopRequested s = (false, s)) (n : ℕ)
    (src addr : U32) (s : σ) : copyMemory bus n src addr s = .ok (moved bus n src addr s) := by
  induction n using Nat.strongRecOn generalizing src addr s with
  | ind n ih =>
    by_cases hword : 4 ≤ n
    · obtain ⟨k, rfl⟩ := Nat.exists_eq_add_of_le' hword
      rw [copyMemory, moved, hquiet]
      exact ih k (by omega) _ _ _
    · cases n with
      | zero => rfl
      | succ k =>
        rw [copyMemory.eq_3 _ _ _ _ _ (by omega), moved.eq_2 _ _ _ _ _ (by omega)]
        exact ih k (by omega) _ _ _

/-! ## One turn -/

section
variable {p : ℕ} {a b : U32} {part : List U32} {m : Machine σ}

/-- The machine past an instruction. -/
def Machine.past (m : Machine σ) : Machine σ := { m with started := true, code := m.code + 2 }

theorem turn_executes (hquiet : ∀ s, bus.stopRequested s = (false, s))
    (h : Placed words m.code (a :: b :: part))
    (hlive : executesAlways (a >>> 24).toNat = true ∨ m.cond ≠ 0) :
    turn bus words m = execute bus words m.past a b := by
  have hle := h.length_le
  rw [List.length_cons] at hle
  rw [turn, if_neg (by omega), hquiet]
  have hskip : ¬(¬executesAlways (a >>> 24).toNat = true ∧ m.cond = 0) := by
    rintro ⟨hnot, hzero⟩
    exact hlive.elim hnot fun hne => hne hzero
  simp only [h.fetch, h.tail.fetch]
  exact if_neg hskip

theorem turn_skips (hquiet : ∀ s, bus.stopRequested s = (false, s))
    (h : Placed words m.code (a :: b :: part))
    (hnever : executesAlways (a >>> 24).toNat = false) (hdead : m.cond = 0) :
    turn bus words m = .ok { m.past with code := m.code + 2 + dataWords a b } := by
  have hle := h.length_le
  rw [List.length_cons] at hle
  rw [turn, if_neg (by omega), hquiet]
  have hskip : ¬executesAlways (a >>> 24).toNat = true ∧ m.cond = 0 :=
    ⟨fun h => Bool.false_ne_true (hnever.symm.trans h), hdead⟩
  simp only [h.fetch, h.tail.fetch]
  refine (if_pos hskip).trans ?_
  rw [dataWords]
  by_cases hdata : isData a = true
  · exact (if_pos ((and_F0_iff a).mpr hdata)).trans (by rw [if_pos hdata]; rfl)
  · exact (if_neg fun h => hdata ((and_F0_iff a).mp h)).trans (by rw [if_neg hdata]; rfl)

end

/-! ## What the machine stands for -/

/-- A pop of the stack of conditions always finds a one, or nothing. -/
def Ones (stack : U32) : Prop := ∀ i, stack.getLsbD (i + 1) = true → stack.getLsbD i = true

theorem Ones.zero : Ones 0 := fun i hi => absurd hi (by simp)

theorem Ones.push {stack : U32} (h : Ones stack) : Ones (stack <<< 1 ||| 1) := by
  intro i hi
  cases i with
  | zero =>
    rw [BitVec.getLsbD_or]
    exact Bool.or_eq_true_iff.mpr (Or.inr rfl)
  | succ i =>
    have hone (j : ℕ) : (1 : U32).getLsbD (j + 1) = false := BitVec.getLsbD_one
    rw [BitVec.getLsbD_or, hone, Bool.or_false, BitVec.getLsbD_shiftLeft] at hi ⊢
    obtain ⟨hlt, hbit⟩ := Bool.and_eq_true_iff.mp hi
    have hi : i + 1 + 1 < 32 := of_decide_eq_true (Bool.and_eq_true_iff.mp hlt).1
    have hbelow : stack.getLsbD (i + 1 - 1) = true := h i hbit
    rw [hbelow, decide_eq_true (by omega : i + 1 < 32), decide_eq_false (by omega : ¬i + 1 < 1)]
    rfl

theorem Ones.pop {stack : U32} (h : Ones stack) : Ones (stack >>> 1) := by
  intro i hi
  rw [BitVec.getLsbD_ushiftRight] at hi ⊢
  exact h _ hi

theorem Ones.popped {stack : U32} (h : Ones stack) :
    (if stack ≠ 0 then stack &&& 1 else 1) = 1 := by
  split_ifs with hne
  · have hlow : stack.getLsbD 0 = true := by
      by_contra hzero
      have hall (i : ℕ) : stack.getLsbD i = false := by
        induction i with
        | zero => exact Bool.eq_false_iff.mpr hzero
        | succ i ih =>
          exact Bool.eq_false_iff.mpr fun hi => absurd (h i hi) (Bool.eq_false_iff.mp ih)
      exact hne (BitVec.eq_of_getLsbD_eq fun i _ => (hall i).trans BitVec.getLsbD_zero.symm)
    exact BitVec.and_one_eq_setWidth_ofBool_getLsbD.trans (by rw [hlow]; rfl)
  · rfl

def Machine.store (m : Machine σ) : Store σ := ⟨m.offset, m.datareg, m.c5count, m.bus⟩

def Machine.put (m : Machine σ) (code : ℕ) (s : Store σ) : Machine σ :=
  { m with code := code, offset := s.offset, datareg := s.datareg, c5count := s.c5count, bus := s.bus }

/-- The machine at an instruction, in a loop that starts at the position and is to be run as
often again as the count says. -/
structure Stands (code loopstart : ℕ) (loopcount : U32) (x : Bool × Store σ) (m : Machine σ) :
    Prop where
  code : m.code = code
  loopstart : m.loopstart = loopstart
  loopcount : m.loopcount = loopcount
  store : m.store = x.2
  cond : m.cond = if x.1 then 1 else 0
  ones : Ones m.condstack
  loopcond : m.loopcond = 1
  loopones : Ones m.loopcondstack

section
variable {p loopstart : ℕ} {loopcount : U32} {s : Store σ} {m : Machine σ}

/-- An instruction that goes on behind its words and touches only the store. -/
theorem Stands.put {live : Bool} (h : Stands p loopstart loopcount (live, s) m) (q : ℕ)
    (s' : Store σ) : Stands q loopstart loopcount (live, s') (m.put q s') :=
  ⟨rfl, h.loopstart, h.loopcount, rfl, h.cond, h.ones, h.loopcond, h.loopones⟩

theorem dataWords_instruction {op : BitVec 4} (hop : op ≠ 0xE) (addr : Addr) (b : U32) :
    dataWords (instruction op addr) b = 0 :=
  if_neg fun h => hop ((isData_instruction op addr).mp h)

theorem dataWords_lines (addr : Addr) {data : List U8} (h : data.length < 2 ^ 32) :
    dataWords (instruction 0xE addr) (BitVec.ofNat 32 data.length) = (lines data).length := by
  rw [dataWords, if_pos ((isData_instruction 0xE addr).mpr rfl), length_lines, dataLines,
    BitVec.toNat_ofNat, Nat.mod_eq_of_lt h]

/-- The words of an instruction are two, and its data. -/
theorem Simple.encode_eq (op : Simple) : ∃ a b part, op.encode = a :: b :: part ∧
    executesAlways (a >>> 24).toNat = false ∧ dataWords a b = part.length := by
  cases op with
  | write32 addr _ | write16 addr _ | write8 addr _ | loadOffset addr | copy addr _ =>
    exact ⟨_, _, _, rfl, executesAlways_instruction addr (by decide) (by decide),
      dataWords_instruction (by decide) _ _⟩
  | bytes addr data =>
    exact ⟨_, _, _, rfl, executesAlways_instruction addr (by decide) (by decide),
      dataWords_lines addr data.property⟩
  | onData op val => cases op <;> exact ⟨_, _, _, rfl, rfl, rfl⟩
  | _ => exact ⟨_, _, _, rfl, rfl, rfl⟩

theorem Item.encode_eq (item : Item) :
    ∃ a b part, item.encode = a :: b :: part ∧ dataWords a b = part.length := by
  cases item with
  | simple op =>
    obtain ⟨a, b, part, hwords, -, hdata⟩ := op.encode_eq
    exact ⟨a, b, part, hwords, hdata⟩
  | if32 cmp addr val =>
    exact ⟨_, _, _, rfl, dataWords_instruction (by cases cmp <;> decide) _ _⟩
  | if16 cmp addr mask val =>
    exact ⟨_, _, _, rfl, dataWords_instruction (by cases cmp <;> decide) _ _⟩
  | every mask val => exact ⟨_, _, _, rfl, rfl⟩
  | endIf => exact ⟨_, _, _, rfl, rfl⟩

theorem execute_simple (hquiet : ∀ s, bus.stopRequested s = (false, s)) {op : Simple} {a b : U32}
    {part : List U32} (hwords : op.encode = a :: b :: part)
    (hplaced : Placed words m.code (a :: b :: part)) :
    execute bus words m.past a b =
      .ok (m.past.put (m.code + 2 + part.length) (op.apply bus m.store)) := by
  have hnarrow16 (val : U16) : (val.setWidth 32).setWidth 16 = val := by
    rw [BitVec.setWidth_setWidth_of_le _ (by decide), BitVec.setWidth_eq]
  have hnarrow8 (val : U8) : (val.setWidth 32).setWidth 8 = val := by
    rw [BitVec.setWidth_setWidth_of_le _ (by decide), BitVec.setWidth_eq]
  cases op with
  | write32 addr _ | loadOffset addr =>
    cases hwords
    rw [execute]
    simp only [instruction_op, instruction_addr]
    rfl
  | write16 addr val =>
    cases hwords
    rw [execute]
    simp only [instruction_op, instruction_addr, hnarrow16]
    rfl
  | write8 addr val =>
    cases hwords
    rw [execute]
    simp only [instruction_op, instruction_addr, hnarrow8]
    rfl
  | onData op val =>
    cases hwords
    obtain ⟨hop, hresult⟩ := dataOp_apply op m.datareg b
    rw [execute, hop]
    simp only [executeD]
    rw [show dataOp m.past.datareg (op.code &&& 0xFF).toNat b = _ from hresult]
    rfl
  | bytes addr data =>
    cases hwords
    have hcopy := copyData_lines hquiet hplaced.tail.tail (addr.setWidth 32 + m.offset) m.bus
    have hcount : (BitVec.ofNat 32 data.val.length : U32).toNat = data.val.length := by
      rw [BitVec.toNat_ofNat, Nat.mod_eq_of_lt data.property]
    rw [execute]
    simp only [instruction_op, instruction_addr, hcount]
    rw [show copyData bus words data.val.length m.past.code (addr.setWidth 32 + m.past.offset)
      m.past.bus = _ from hcopy]
    rfl
  | copy addr count =>
    cases hwords
    rw [execute]
    simp only [instruction_op, instruction_addr]
    rw [copyMemory_moved hquiet]
    rfl
  | _ =>
    cases hwords
    rfl

theorem Stands.cond_ne (h : Stands p loopstart loopcount (true, s) m) : m.cond ≠ 0 :=
  fun hzero => absurd (h.cond.symm.trans hzero) (by decide : (1 : U32) ≠ 0)

theorem Stands.past {x : Bool × Store σ} (h : Stands p loopstart loopcount x m) :
    Stands (p + 2) loopstart loopcount x m.past :=
  ⟨congrArg (· + 2) h.code, h.loopstart, h.loopcount, h.store, h.cond, h.ones, h.loopcond,
    h.loopones⟩

/-- A condition or a count that fails or not, where the conditions so far hold. -/
theorem Stands.pushed (h : Stands p loopstart loopcount (true, s) m) (q : ℕ) (s' : Store σ)
    (holds : Bool) :
    Stands q loopstart loopcount (holds, s') (pushCondition (m.put q s') holds) := by
  refine ⟨rfl, h.loopstart, h.loopcount, rfl, rfl, ?_, h.loopcond, h.loopones⟩
  change Ones (m.condstack <<< 1 ||| m.cond)
  rw [h.cond]
  exact h.ones.push

theorem conditionAddress_instruction (op : BitVec 4) (addr : Addr) (m : Machine σ) :
    conditionAddress m (instruction op addr) = m.store.conditionAddress addr := by
  have hzero : addr.setWidth 32 = (0 : U32) ↔ addr = 0 := by
    rw [← BitVec.toNat_inj, ← BitVec.toNat_inj, BitVec.toNat_setWidth]
    have haddr := addr.isLt
    rw [Nat.mod_eq_of_lt (by omega)]
    rfl
  rw [conditionAddress, Store.conditionAddress, instruction_addr]
  simp only [hzero]
  rfl

theorem execute_if32 (cmp : Compare) (addr : Addr) (val : U32) (m : Machine σ) :
    execute bus words m (instruction cmp.code32 addr) val =
      .ok (if32 bus m (instruction cmp.code32 addr) (cmp.test val)) := by
  cases cmp with
  | greater | less | equal | different =>
    rw [execute]
    simp only [instruction_op, Compare.code32]
    rfl

theorem execute_if16 (cmp : Compare) (addr : Addr) (b : U32) (m : Machine σ) :
    execute bus words m (instruction cmp.code16 addr) b =
      .ok (if16 bus m (instruction cmp.code16 addr) b cmp.test) := by
  cases cmp with
  | greater | less | equal | different =>
    rw [execute]
    simp only [instruction_op, Compare.code16]
    rfl

theorem turn_item (hquiet : ∀ s, bus.stopRequested s = (false, s)) (item : Item)
    {x : Bool × Store σ} (hplaced : Placed words p item.encode)
    (h : Stands p loopstart loopcount x m) :
    ∃ m', turn bus words m = .ok m' ∧
      Stands (p + item.encode.length) loopstart loopcount (item.run bus x) m' := by
  obtain ⟨live, s⟩ := x
  obtain rfl : m.code = p := h.code
  obtain rfl : m.store = s := h.store
  cases item with
  | simple op =>
    obtain ⟨a, b, part, hwords, hnever, hdata⟩ := op.encode_eq
    have hplaced' : Placed words m.code (a :: b :: part) := hwords ▸ hplaced
    have hlength : m.code + op.encode.length = m.code + 2 + part.length := by
      rw [hwords, List.length_cons, List.length_cons]
      omega
    change ∃ m', _ ∧ Stands (m.code + op.encode.length) _ _ _ _
    rw [hlength]
    cases live with
    | true =>
      exact ⟨_, (turn_executes hquiet hplaced' (Or.inr h.cond_ne)).trans
        (execute_simple hquiet hwords hplaced'), h.past.put _ _⟩
    | false =>
      refine ⟨_, turn_skips hquiet hplaced' hnever h.cond, ?_⟩
      rw [hdata]
      exact h.past.put _ _
  | if32 cmp addr val =>
    have hop : cmp.code32.toNat ≠ 0xC ∧ cmp.code32.toNat ≠ 0xD ∧ cmp.code32 ≠ 0xE := by
      cases cmp <;> decide
    have hnever := executesAlways_instruction addr hop.1 hop.2.1
    cases live with
    | true =>
      refine ⟨_, (turn_executes hquiet hplaced (Or.inr h.cond_ne)).trans ?_, h.past.pushed _ _ _⟩
      rw [execute_if32, if32, conditionAddress_instruction]
      rfl
    | false =>
      refine ⟨_, turn_skips hquiet hplaced hnever h.cond, ?_⟩
      rw [dataWords_instruction hop.2.2]
      exact h.past.put _ _
  | if16 cmp addr mask val =>
    have hop : cmp.code16.toNat ≠ 0xC ∧ cmp.code16.toNat ≠ 0xD ∧ cmp.code16 ≠ 0xE := by
      cases cmp <;> decide
    have hnever := executesAlways_instruction addr hop.1 hop.2.1
    cases live with
    | true =>
      obtain ⟨hmask, hval, -⟩ := halves mask val
      refine ⟨_, (turn_executes hquiet hplaced (Or.inr h.cond_ne)).trans ?_, h.past.pushed _ _ _⟩
      rw [execute_if16, if16, conditionAddress_instruction, hmask, hval,
        BitVec.setWidth_setWidth_of_le _ (by decide), BitVec.setWidth_eq]
      rfl
    | false =>
      refine ⟨_, turn_skips hquiet hplaced hnever h.cond, ?_⟩
      rw [dataWords_instruction hop.2.2]
      exact h.past.put _ _
  | every mask val =>
    obtain ⟨hval, -, hmask⟩ := halves val mask
    have hrun : execute bus words m.past 0xC5000000 (val ++ mask) =
        if m.cond = 0 then .ok { m.past with c5count := m.c5count + 1 }
        else .ok (pushCondition { m.past with c5count := m.c5count + 1 }
          ((m.c5count + 1) &&& mask.setWidth 32 = val.setWidth 32)) := by
      rw [← hval, ← hmask]
      rfl
    cases live with
    | true =>
      refine ⟨_, (turn_executes hquiet hplaced (Or.inl rfl)).trans ?_, h.past.pushed _ _ _⟩
      rw [hrun, if_neg h.cond_ne]
      rfl
    | false =>
      refine ⟨_, (turn_executes hquiet hplaced (Or.inl rfl)).trans ?_, h.past.put _ _⟩
      rw [hrun]
      exact if_pos h.cond
  | endIf =>
    have hrun : execute bus words m.past 0xD0000000 0 =
        .ok { m.past with cond := 1, condstack := m.condstack >>> 1 } := by
      rw [← h.ones.popped]
      rfl
    refine ⟨_, (turn_executes hquiet hplaced (Or.inl rfl)).trans hrun, ?_⟩
    exact ⟨rfl, h.loopstart, h.loopcount, rfl, rfl, h.ones.pop, h.loopcond, h.loopones⟩

end

/-! ## Runs -/

/-- Some turns lead from the one state to the other. -/
def Reaches (bus : Bus σ) (words : List U32) (m m' : Machine σ) : Prop :=
  ∃ n, RankedLoop.turns (turn bus words) n m = .ok m'

theorem Reaches.refl (m : Machine σ) : Reaches bus words m m := ⟨0, rfl⟩

theorem Reaches.trans {m m' m'' : Machine σ} (h : Reaches bus words m m')
    (h' : Reaches bus words m' m'') : Reaches bus words m m'' := by
  obtain ⟨n, hn⟩ := h
  obtain ⟨n', hn'⟩ := h'
  exact ⟨n + n', (RankedLoop.turns_add hn n').trans hn'⟩

theorem Reaches.turn {m m' : Machine σ} (h : AREngine.turn bus words m = .ok m') :
    Reaches bus words m m' := by
  refine ⟨1, ?_⟩
  rw [RankedLoop.turns, h]
  rfl

section
variable {p loopstart : ℕ} {loopcount : U32} {s : Store σ} {m : Machine σ}

theorem reaches_items (hquiet : ∀ s, bus.stopRequested s = (false, s)) {items : List Item}
    {x : Bool × Store σ} (hplaced : Placed words p (encodeItems items))
    (h : Stands p loopstart loopcount x m) :
    ∃ m', Reaches bus words m m' ∧
      Stands (p + (encodeItems items).length) loopstart loopcount (runItems bus items x) m' := by
  induction items generalizing p x m with
  | nil => exact ⟨m, .refl m, h⟩
  | cons item items ih =>
    rw [encodeItems, List.flatMap_cons] at hplaced ⊢
    obtain ⟨hitem, hitems⟩ := hplaced.append
    obtain ⟨m₁, hturn, h₁⟩ := turn_item hquiet item hitem h
    obtain ⟨m₂, hrun, h₂⟩ := ih hitems h₁
    refine ⟨m₂, (Reaches.turn hturn).trans hrun, ?_⟩
    rw [List.length_append, ← Nat.add_assoc]
    exact h₂

/-- The machine behind a segment, or back at the start of its loop. -/
def Machine.looped (clear : Bool) (m : Machine σ) : Machine σ :=
  if m.loopcount > 0 then
    { m.past with
      cond := m.loopcond
      condstack := m.loopcondstack
      loopcount := m.loopcount - 1
      code := m.loopstart }
  else if clear then
    { m.past with
      offset := 0
      datareg := 0
      condstack := 0
      cond := 1
      loopstart := m.code + 2
      loopcondstack := 0
      loopcond := 1 }
  else { m.past with cond := m.loopcond, condstack := m.loopcondstack }

theorem turn_end (hquiet : ∀ s, bus.stopRequested s = (false, s)) {clear : Bool}
    (hplaced : Placed words m.code [if clear then 0xD2000000 else 0xD1000000, 0]) :
    turn bus words m = .ok (m.looped clear) := by
  cases clear with
  | true | false =>
    refine (turn_executes hquiet hplaced (Or.inl rfl)).trans ?_
    rw [Machine.looped]
    by_cases hcount : m.loopcount > 0
    · rw [if_pos hcount]
      exact if_pos hcount
    · rw [if_neg hcount]
      exact if_neg hcount

/-- The registers behind a segment. -/
def cleared (clear : Bool) (s : Store σ) : Store σ :=
  if clear then { s with offset := 0, datareg := 0 } else s

theorem Stands.again {x : Bool × Store σ} (h : Stands p loopstart loopcount x m)
    (hcount : loopcount ≠ 0) (clear : Bool) :
    Stands loopstart loopstart (loopcount - 1) (true, x.2) (m.looped clear) := by
  have hpos : m.loopcount > 0 := by
    rw [h.loopcount]
    exact BitVec.lt_def.mpr (Nat.pos_of_ne_zero fun hzero => hcount (BitVec.eq_of_toNat_eq hzero))
  rw [Machine.looped, if_pos hpos]
  exact ⟨h.loopstart, h.loopstart, congrArg (· - 1) h.loopcount, h.store, h.loopcond, h.loopones,
    h.loopcond, h.loopones⟩

theorem Stands.leave {x : Bool × Store σ} (h : Stands p loopstart 0 x m) (clear : Bool) :
    ∃ loopstart', Stands (p + 2) loopstart' 0 (true, cleared clear x.2) (m.looped clear) := by
  have hzero : ¬m.loopcount > 0 := by
    rw [h.loopcount]
    decide
  rw [Machine.looped, if_neg hzero, ← h.store]
  cases clear with
  | true =>
    exact ⟨m.code + 2, congrArg (· + 2) h.code, rfl, h.loopcount, rfl, rfl, .zero, rfl, .zero⟩
  | false =>
    exact ⟨loopstart, congrArg (· + 2) h.code, h.loopstart, h.loopcount, rfl, h.loopcond,
      h.loopones, h.loopcond, h.loopones⟩

/-- The items of a loop are run once more than the count says. -/
theorem reaches_loop (hquiet : ∀ s, bus.stopRequested s = (false, s)) {items : List Item}
    {clear : Bool} (hitems : Placed words p (encodeItems items))
    (hend : Placed words (p + (encodeItems items).length)
      [if clear then 0xD2000000 else 0xD1000000, 0])
    (h : Stands p p loopcount (true, s) m) :
    ∃ loopstart' m', Reaches bus words m m' ∧
      Stands (p + (encodeItems items).length + 2) loopstart' 0 (true, cleared clear
        ((fun s => (runItems bus items (true, s)).2)^[loopcount.toNat + 1] s)) m' := by
  induction hn : loopcount.toNat generalizing loopcount s m with
  | zero =>
    obtain rfl : loopcount = 0 := BitVec.eq_of_toNat_eq hn
    obtain ⟨m₁, hrun, h₁⟩ := reaches_items hquiet hitems h
    obtain ⟨loopstart', h₂⟩ := h₁.leave clear
    exact ⟨loopstart', _, hrun.trans (.turn (turn_end hquiet (h₁.code ▸ hend))), h₂⟩
  | succ n ih =>
    have hcount : loopcount ≠ 0 := by
      rintro rfl
      exact absurd hn (Nat.succ_ne_zero n).symm
    have hless : (loopcount - 1).toNat = n := by
      have hone : (1 : U32).toNat = 1 := rfl
      rw [BitVec.toNat_sub, hn, hone]
      have hbound := loopcount.isLt
      omega
    obtain ⟨m₁, hrun, h₁⟩ := reaches_items hquiet hitems h
    obtain ⟨loopstart', m₂, hrest, h₂⟩ := ih (h₁.again hcount clear) hless
    exact ⟨loopstart', m₂, (hrun.trans (.turn (turn_end hquiet (h₁.code ▸ hend)))).trans hrest, h₂⟩

/-- A loop is entered only while the conditions hold. -/
theorem reaches_entry (hquiet : ∀ s, bus.stopRequested s = (false, s)) {count : U32} {live : Bool}
    (hplaced : Placed words p [0xC0000000, count]) (h : Stands p loopstart 0 (live, s) m) :
    ∃ m', Reaches bus words m m' ∧
      if live then Stands (p + 2) (p + 2) count (true, s) m'
      else Stands (p + 2) loopstart 0 (false, s) m' := by
  obtain rfl := h.code
  cases live with
  | true =>
    refine ⟨_, .turn (turn_executes hquiet hplaced (Or.inr h.cond_ne)), ?_⟩
    exact ⟨rfl, rfl, rfl, h.store, h.cond, h.ones, h.cond, h.ones⟩
  | false =>
    refine ⟨_, .turn (turn_skips hquiet hplaced rfl h.cond), ?_⟩
    exact h.past

theorem reaches_segment (hquiet : ∀ s, bus.stopRequested s = (false, s)) {segment : Segment}
    (hplaced : Placed words p segment.encode) (h : Stands p loopstart 0 (true, s) m) :
    ∃ loopstart' m', Reaches bus words m m' ∧
      Stands (p + segment.encode.length) loopstart' 0 (true, segment.run bus s) m' := by
  obtain ⟨before, loop, clear⟩ := segment
  obtain ⟨hinside, hend⟩ := hplaced.append
  obtain ⟨hbefore, hloop⟩ := hinside.append
  obtain ⟨m₁, hrun, h₁⟩ := reaches_items hquiet hbefore h
  obtain ⟨live, s₁, hitems⟩ : ∃ live s₁, runItems bus before (true, s) = (live, s₁) := ⟨_, _, rfl⟩
  rw [hitems] at h₁
  rw [Segment.run, Segment.encode, hitems, List.length_append, ← Nat.add_assoc]
  rw [List.length_append] at hend ⊢
  cases loop with
  | none =>
    obtain ⟨loopstart', h₂⟩ := h₁.leave clear
    exact ⟨loopstart', _, hrun.trans (.turn (turn_end hquiet (h₁.code ▸ hend))), h₂⟩
  | some loop =>
    obtain ⟨count, items⟩ := loop
    obtain ⟨hentry, hbody⟩ := hloop.append
    obtain ⟨m₂, hrun', h₂⟩ := reaches_entry hquiet hentry h₁
    have hend' : p + ((encodeItems before).length + ([0xC0000000, count] ++ encodeItems items).length) =
        p + (encodeItems before).length + 2 + (encodeItems items).length := by
      rw [List.length_append]
      simp only [List.length_cons, List.length_nil]
      omega
    rw [hend'] at hend ⊢
    cases live with
    | true =>
      obtain ⟨loopstart', m₃, hrounds, h₃⟩ := reaches_loop hquiet hbody hend h₂
      exact ⟨loopstart', m₃, (hrun.trans hrun').trans hrounds, h₃⟩
    | false =>
      obtain ⟨m₃, hskipped, h₃⟩ := reaches_items hquiet hbody h₂
      obtain ⟨loopstart', h₄⟩ := h₃.leave clear
      exact ⟨loopstart', _, ((hrun.trans hrun').trans hskipped).trans
        (.turn (turn_end hquiet (h₃.code ▸ hend))), h₄⟩

theorem reaches_segments (hquiet : ∀ s, bus.stopRequested s = (false, s))
    {segments : List Segment} (hplaced : Placed words p (segments.flatMap Segment.encode))
    (h : Stands p loopstart 0 (true, s) m) :
    ∃ loopstart' m', Reaches bus words m m' ∧
      Stands (p + (segments.flatMap Segment.encode).length) loopstart' 0
        (true, segments.foldl (fun s segment => segment.run bus s) s) m' := by
  induction segments generalizing p loopstart s m with
  | nil => exact ⟨loopstart, m, .refl m, h⟩
  | cons segment segments ih =>
    rw [List.flatMap_cons] at hplaced ⊢
    obtain ⟨hfirst, hrest⟩ := hplaced.append
    obtain ⟨loopstart₁, m₁, hrun, h₁⟩ := reaches_segment hquiet hfirst h
    obtain ⟨loopstart₂, m₂, hrun', h₂⟩ := ih hrest h₁
    refine ⟨loopstart₂, m₂, hrun.trans hrun', ?_⟩
    rw [List.length_append, ← Nat.add_assoc]
    exact h₂

end

/-- The machine at the end of the words of a cheat. -/
theorem turns_encode (hquiet : ∀ s, bus.stopRequested s = (false, s)) (cheat : Cheat) (s : σ) :
    ∃ n, RankedLoop.turns (turn bus cheat.encode) n (start s) =
      .error (.done .success, (cheat.run bus ⟨0, 0, 0, s⟩).bus) := by
  have hplaced : Placed cheat.encode 0 cheat.encode := ⟨[], [], (List.append_nil _).symm, rfl⟩
  have hstart : Stands 0 0 0 (true, ⟨0, 0, 0, s⟩) (start s) :=
    ⟨rfl, rfl, rfl, rfl, rfl, .zero, rfl, .zero⟩
  obtain ⟨hsegments, hrest⟩ := hplaced.append
  obtain ⟨loopstart, m₁, hrun, h₁⟩ := reaches_segments hquiet hsegments hstart
  obtain ⟨m₂, hrun', h₂⟩ := reaches_items hquiet hrest h₁
  obtain ⟨n, hn⟩ := hrun.trans hrun'
  have hcode : m₂.code = cheat.encode.length := by
    rw [h₂.code, Nat.zero_add, Cheat.encode, List.length_append]
  have hlast : RankedLoop.turns (turn bus cheat.encode) 1 m₂ = .error (.done .success, m₂.bus) := by
    rw [RankedLoop.turns, turn, if_pos hcode]
    rfl
  refine ⟨n + 1, (RankedLoop.turns_add hn 1).trans (hlast.trans ?_)⟩
  exact congrArg (fun s : Store σ => Except.error (Exit.done .success, s.bus)) h₂.store

/-! ## The validator -/

section
variable {p : ℕ}

theorem validate_instruction (hquiet : ∀ s, bus.stopRequested s = (false, s)) {a b : U32}
    {part : List U32} (hplaced : Placed words p (a :: b :: part))
    (hdata : dataWords a b = part.length) (s : σ) :
    validateFrom bus words p s = validateFrom bus words (p + 2 + part.length) s := by
  have hle := hplaced.length_le
  rw [List.length_cons, List.length_cons] at hle
  rw [validateFrom, if_pos (by omega), hquiet]
  simp only [hplaced.fetch, hplaced.tail.fetch]
  rw [dataWords] at hdata
  by_cases hkind : isData a = true
  · have hlines : dataLines b * 2 = part.length := by rwa [if_pos hkind] at hdata
    have hfits : ¬dataLines b > (words.length - (p + 2)) / 2 := by omega
    refine (if_pos hkind).trans ((if_neg hfits).trans ?_)
    rw [hlines]
  · rw [if_neg hkind] at hdata
    refine (if_neg hkind).trans ?_
    rw [← hdata]

theorem dataWords_end (clear : Bool) :
    dataWords (if clear then 0xD2000000 else 0xD1000000) 0 = 0 := by
  cases clear with
  | true => rfl
  | false => rfl

theorem validate_items (hquiet : ∀ s, bus.stopRequested s = (false, s)) {items : List Item}
    (hplaced : Placed words p (encodeItems items)) (s : σ) :
    validateFrom bus words p s = validateFrom bus words (p + (encodeItems items).length) s := by
  induction items generalizing p with
  | nil => rfl
  | cons item items ih =>
    rw [encodeItems, List.flatMap_cons] at hplaced ⊢
    obtain ⟨hitem, hitems⟩ := hplaced.append
    obtain ⟨a, b, part, hwords, hdata⟩ := item.encode_eq
    have hlength : p + item.encode.length = p + 2 + part.length := by
      rw [hwords, List.length_cons, List.length_cons]
      omega
    rw [List.length_append, ← Nat.add_assoc,
      validate_instruction hquiet (hwords ▸ hitem) hdata s, ← hlength]
    exact ih hitems

theorem validate_segment (hquiet : ∀ s, bus.stopRequested s = (false, s)) {segment : Segment}
    (hplaced : Placed words p segment.encode) (s : σ) :
    validateFrom bus words p s = validateFrom bus words (p + segment.encode.length) s := by
  obtain ⟨before, loop, clear⟩ := segment
  obtain ⟨hinside, hend⟩ := hplaced.append
  obtain ⟨hbefore, hloop⟩ := hinside.append
  have hlast := validate_instruction hquiet hend (dataWords_end clear) s
  rw [Segment.encode, List.length_append, ← Nat.add_assoc]
  refine Eq.trans ?_ hlast
  rw [List.length_append, ← Nat.add_assoc, validate_items hquiet hbefore s]
  cases loop with
  | none => rfl
  | some loop =>
    obtain ⟨count, items⟩ := loop
    obtain ⟨hentry, hbody⟩ := hloop.append
    rw [validate_instruction hquiet hentry rfl s, List.length_append, ← Nat.add_assoc]
    exact validate_items hquiet hbody s

theorem validate_segments (hquiet : ∀ s, bus.stopRequested s = (false, s))
    {segments : List Segment} (hplaced : Placed words p (segments.flatMap Segment.encode)) (s : σ) :
    validateFrom bus words p s =
      validateFrom bus words (p + (segments.flatMap Segment.encode).length) s := by
  induction segments generalizing p with
  | nil => rfl
  | cons segment segments ih =>
    rw [List.flatMap_cons] at hplaced ⊢
    obtain ⟨hfirst, hrest⟩ := hplaced.append
    rw [List.length_append, ← Nat.add_assoc, validate_segment hquiet hfirst s]
    exact ih hrest

end

theorem validate_encode (hquiet : ∀ s, bus.stopRequested s = (false, s)) (cheat : Cheat) (s : σ) :
    validateFrom bus cheat.encode 0 s = .ok s := by
  have hplaced : Placed cheat.encode 0 cheat.encode := ⟨[], [], (List.append_nil _).symm, rfl⟩
  obtain ⟨hsegments, hrest⟩ := hplaced.append
  have hend : 0 + (cheat.segments.flatMap Segment.encode).length +
      (encodeItems cheat.rest).length = cheat.encode.length := by
    rw [Nat.zero_add, Cheat.encode, List.length_append]
  rw [validate_segments hquiet hsegments s, validate_items hquiet hrest s, hend, validateFrom,
    if_neg (Nat.lt_irrefl _)]

theorem even_items (items : List Item) : (encodeItems items).length % 2 = 0 := by
  induction items with
  | nil => rfl
  | cons item items ih =>
    obtain ⟨a, b, part, hwords, hdata⟩ := item.encode_eq
    have heven : part.length % 2 = 0 := by
      rw [← hdata, dataWords]
      split_ifs
      · exact Nat.mul_mod_left _ 2
      · rfl
    rw [encodeItems] at ih
    rw [encodeItems, List.flatMap_cons, List.length_append, hwords, List.length_cons,
      List.length_cons]
    omega

theorem even_segment (segment : Segment) : segment.encode.length % 2 = 0 := by
  obtain ⟨before, loop, clear⟩ := segment
  have hbefore := even_items before
  cases loop with
  | none =>
    rw [Segment.encode, List.length_append, List.length_append]
    simp only [List.length_cons, List.length_nil]
    omega
  | some loop =>
    obtain ⟨count, items⟩ := loop
    have hitems := even_items items
    rw [Segment.encode, List.length_append, List.length_append]
    simp only [List.length_append, List.length_cons, List.length_nil]
    omega

theorem even_encode (cheat : Cheat) : cheat.encode.length % 2 = 0 := by
  obtain ⟨segments, rest⟩ := cheat
  have hrest := even_items rest
  change (segments.flatMap Segment.encode ++ encodeItems rest).length % 2 = 0
  rw [List.length_append]
  suffices hsegments : (segments.flatMap Segment.encode).length % 2 = 0 by omega
  induction segments with
  | nil => rfl
  | cons segment segments ih =>
    have hfirst := even_segment segment
    rw [List.flatMap_cons, List.length_append]
    omega

/-- Unless it is cancelled, the engine runs the words of a structured cheat as the cheat is
meant. -/
theorem runCheat_structured (bus : Bus σ) (hquiet : ∀ s, bus.stopRequested s = (false, s))
    (cheat : Cheat) (s : σ) :
    ∃ n, ∀ fuel, n ≤ fuel → runCheat bus cheat.encode fuel s =
      .error (.done .success, (cheat.run bus ⟨0, 0, 0, s⟩).bus) := by
  obtain ⟨n, hn⟩ := turns_encode hquiet cheat s
  refine ⟨n, fun fuel hfuel => ?_⟩
  have hturns := RankedLoop.turns_of_exit hfuel hn
  have hvalid : validateInstructions bus cheat.encode s = .ok s := by
    rw [validateInstructions, even_encode, if_neg (by decide)]
    exact validate_encode hquiet cheat s
  rw [runCheat, hquiet]
  simp only [hvalid]
  by_cases hempty : cheat.encode.isEmpty = true
  · have hnil : cheat.encode = [] := List.isEmpty_iff.mp hempty
    have hlast : RankedLoop.turns (turn bus cheat.encode) 1 (start s) =
        .error (.done .success, s) := by
      rw [hnil]
      rfl
    have hsame := (RankedLoop.turns_of_exit (Nat.le_add_left 1 n) hlast).symm.trans
      (RankedLoop.turns_of_exit (Nat.le_add_right n 1) hn)
    exact (if_neg Bool.false_ne_true).trans ((if_pos hempty).trans hsame)
  · exact (if_neg Bool.false_ne_true).trans ((if_neg hempty).trans hturns)

/-- A memory that is all zero and keeps a list of what is written. -/
def logBus : Bus (List (U32 × U32)) where
  read8 _ s := (0, s)
  read16 _ s := (0, s)
  read32 _ s := (0, s)
  write8 addr val s := s ++ [(addr, val.setWidth 32)]
  write16 addr val s := s ++ [(addr, val.setWidth 32)]
  write32 addr val s := s ++ [(addr, val)]
  stopRequested s := (false, s)

/-- If a word is zero, three bytes are filled; then another word is written. -/
def fillCheat : Cheat where
  segments :=
    [{ before := [.if32 .equal 0x2000000 0, .simple (.setData 5)]
       loop := some (2, [.simple (.storeData8 0x2000010)])
       clear := true }]
  rest := [.simple (.write32 0x2000020 7)]

theorem runCheat_structured_fill :
    ∃ n, ∀ fuel, n ≤ fuel → runCheat logBus fillCheat.encode fuel [] =
      .error (.done .success,
        [(0x2000010, 5), (0x2000011, 5), (0x2000012, 5), (0x2000020, 7)]) :=
  runCheat_structured logBus (fun _ => rfl) fillCheat []

end MelonDS.AREngine

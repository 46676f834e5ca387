import Mathlib.Data.Prod.Lex
import Mathlib.Logic.Relation
import Mathlib.Order.WellFounded
import Mathlib.Tactic.Ring.RingNF
import MelonDS.AREngine.RunCheat

/-!
# The code pointer of a validated cheat

The validator walks the list from instruction to instruction. On a list it accepts
the engine's code pointer and its loop start stay on that walk, the loop start at or
behind the code pointer; so every word read exists. Entering a loop, or leaving the
outermost one, moves the loop start forward: with the loop count and the distance to
the end this is a rank that every turn lowers.
-/

namespace MelonDS.AREngine

variable {σ : Type} {bus : Bus σ} {words : List U32}

/-- Words of literal data behind the instruction `a b`. -/
def dataWords (a b : U32) : ℕ := if isData a then dataLines b * 2 else 0

/-- The instruction at `p` ends at `q`. -/
def Follows (words : List U32) (p q : ℕ) : Prop :=
  ∃ a b, words[p]? = some a ∧ words[p + 1]? = some b ∧ q = p + 2 + dataWords a b

/-- Positions at which an instruction begins, and the end of the last one. -/
def IsBoundary (words : List U32) : ℕ → Prop := Relation.ReflTransGen (Follows words) 0

/-! ### Reading words -/

theorem fetch_of_lt {p : ℕ} (h : p < words.length) (s : σ) :
    fetch words p s = .ok (words.get ⟨p, h⟩) := by
  rw [fetch, dif_pos h]

theorem getElem?_of_fetch {p : ℕ} {s : σ} {w : U32} (h : fetch words p s = .ok w) :
    words[p]? = some w := by
  rw [fetch] at h
  split_ifs at h with hp
  rw [List.getElem?_eq_getElem hp, ← Except.ok.inj h]
  rfl

theorem isData_iff (a : U32) : isData a = true ↔ (a >>> 24).toNat / 0x10 = 0xE := by
  rw [isData, decide_eq_true_iff, ← BitVec.toNat_inj]
  simp only [BitVec.toNat_ushiftRight, Nat.shiftRight_eq_div_pow, Nat.div_div_eq_div_mul]
  rfl

theorem and_F0_iff (a : U32) : (a >>> 24).toNat &&& 0xF0 = 0xE0 ↔ isData a = true := by
  have hall : ∀ op : Fin 256, op.val &&& 0xF0 = 0xE0 ↔ op.val / 0x10 = 0xE := by
    decide +kernel
  have hlt : (a >>> 24).toNat < 256 := by
    rw [BitVec.toNat_ushiftRight, Nat.shiftRight_eq_div_pow]
    omega
  rw [isData_iff]
  exact hall ⟨_, hlt⟩

/-! ### The validator -/

/-- One instruction of an accepted list lies within it. -/
theorem validateFrom_step {p : ℕ} {s s' : σ} (hp : p < words.length) (heven : p % 2 = 0)
    (hlen : words.length % 2 = 0) (h : validateFrom bus words p s = .ok s') :
    ∃ a b s₁, words[p]? = some a ∧ words[p + 1]? = some b ∧
      p + 2 + dataWords a b ≤ words.length ∧
      validateFrom bus words (p + 2 + dataWords a b) s₁ = .ok s' := by
  have hp' : p + 1 < words.length := by omega
  rw [validateFrom, if_pos hp] at h
  cases hstop : bus.stopRequested s with
  | mk stop s₁ =>
    simp only [hstop, fetch_of_lt hp, fetch_of_lt hp'] at h
    refine ⟨_, _, s₁, List.getElem?_eq_getElem hp, List.getElem?_eq_getElem hp', ?_⟩
    cases stop with
    | true => cases h
    | false =>
      have hwalk : (if isData words[p] = true then
          if dataLines words[p + 1] > (words.length - (p + 2)) / 2 then .error (_, _)
          else validateFrom bus words (p + 2 + dataLines words[p + 1] * 2) s₁
        else validateFrom bus words (p + 2) s₁) = .ok s' := h
      rw [dataWords]
      split_ifs at hwalk ⊢ with hdata hlines
      · exact ⟨by omega, hwalk⟩
      · exact ⟨by omega, hwalk⟩

/-- From an accepted position on, every instruction begins within the list. -/
theorem validateFrom_boundary {p : ℕ} {s s' : σ} (hp : p ≤ words.length) (heven : p % 2 = 0)
    (hlen : words.length % 2 = 0) (h : validateFrom bus words p s = .ok s') {q : ℕ}
    (hq : Relation.ReflTransGen (Follows words) p q) : q ≤ words.length ∧ q % 2 = 0 := by
  induction hq using Relation.ReflTransGen.head_induction_on generalizing s with
  | refl => exact ⟨hp, heven⟩
  | head hstep _ ih =>
    obtain ⟨a, b, ha, hb, rfl⟩ := hstep
    have hlt := (List.getElem?_eq_some_iff.mp ha).1
    obtain ⟨a', b', s₁, ha', hb', hle, hrest⟩ := validateFrom_step hlt heven hlen h
    obtain rfl : a = a' := Option.some.inj (ha.symm.trans ha')
    obtain rfl : b = b' := Option.some.inj (hb.symm.trans hb')
    refine ih hle ?_ hrest
    rw [dataWords]
    split_ifs <;> omega

theorem validateInstructions_boundary {s s' : σ} (h : validateInstructions bus words s = .ok s')
    {q : ℕ} (hq : IsBoundary words q) : q ≤ words.length ∧ q % 2 = 0 ∧ words.length % 2 = 0 := by
  rw [validateInstructions] at h
  split_ifs at h with hodd
  have hlen : words.length % 2 = 0 := by omega
  obtain ⟨hle, heven⟩ := validateFrom_boundary (Nat.zero_le _) rfl hlen h hq
  exact ⟨hle, heven, hlen⟩

/-- The validator itself reads nothing past the end. -/
theorem validateFrom_error {p : ℕ} {s : σ} {e : Exit × σ} (heven : p % 2 = 0)
    (hlen : words.length % 2 = 0) (h : validateFrom bus words p s = .error e) :
    ∃ r, e.1 = .done r := by
  obtain ⟨n, hn⟩ : ∃ n, n = words.length - p := ⟨_, rfl⟩
  induction n using Nat.strongRecOn generalizing p s with
  | ind n ih =>
    rw [validateFrom] at h
    by_cases hp : p < words.length
    · have hp' : p + 1 < words.length := by omega
      rw [if_pos hp] at h
      cases hstop : bus.stopRequested s with
      | mk stop s₁ =>
        simp only [hstop, fetch_of_lt hp, fetch_of_lt hp'] at h
        cases stop with
        | true =>
          cases h
          exact ⟨_, rfl⟩
        | false =>
          have hwalk : (if isData words[p] = true then
              if dataLines words[p + 1] > (words.length - (p + 2)) / 2 then
                .error (.done .invalidCode, s₁)
              else validateFrom bus words (p + 2 + dataLines words[p + 1] * 2) s₁
            else validateFrom bus words (p + 2) s₁) = .error e := h
          split_ifs at hwalk
          · cases hwalk
            exact ⟨_, rfl⟩
          · exact ih _ (by omega) (by omega) hwalk rfl
          · exact ih _ (by omega) (by omega) hwalk rfl
    · rw [if_neg hp] at h
      cases h

theorem validateInstructions_error {s : σ} {e : Exit × σ}
    (h : validateInstructions bus words s = .error e) : ∃ r, e.1 = .done r := by
  rw [validateInstructions] at h
  split_ifs at h with hodd
  · cases h
    exact ⟨_, rfl⟩
  · exact validateFrom_error rfl (by omega) h

/-! ### Copies -/

/-- The data of an E instruction is copied to its last line, if it lies within the list. -/
theorem copyData_spec (bus : Bus σ) {n code : ℕ} (h : code + (n + 7) / 8 * 2 ≤ words.length) (dstaddr : U32)
    (s : σ) :
    (∃ s', copyData bus words n code dstaddr s = .ok (code + (n + 7) / 8 * 2, s')) ∨
      ∃ s', copyData bus words n code dstaddr s = .error (.done .interrupted, s') := by
  induction n using Nat.strongRecOn generalizing code dstaddr s with
  | ind n ih =>
    by_cases hline : 8 ≤ n
    · obtain ⟨k, rfl⟩ := Nat.exists_eq_add_of_le' hline
      have hwords : (k + 8 + 7) / 8 * 2 = (k + 7) / 8 * 2 + 2 := by omega
      rw [hwords] at h
      have hfirst : code < words.length := by omega
      have hsecond : code + 1 < words.length := by omega
      cases hstop : bus.stopRequested s with
      | mk stop s₁ =>
        rw [copyData]
        simp only [hstop, fetch_of_lt hfirst, fetch_of_lt hsecond]
        cases stop with
        | true => exact Or.inr ⟨s₁, rfl⟩
        | false =>
          have hrest := ih k (by omega) (by omega : code + 2 + (k + 7) / 8 * 2 ≤ words.length)
            (dstaddr + 8) (bus.write32 (dstaddr + 4) (words.get ⟨code + 1, hsecond⟩)
              (bus.write32 dstaddr (words.get ⟨code, hfirst⟩) s₁))
          have hend : code + (k + 8 + 7) / 8 * 2 = code + 2 + (k + 7) / 8 * 2 := by omega
          rw [hend]
          exact hrest
    · by_cases hzero : n = 0
      · subst hzero
        exact Or.inl ⟨s, by rw [copyData]; rfl⟩
      · have hwords : (n + 7) / 8 * 2 = 2 := by omega
        rw [hwords] at h ⊢
        have hfirst : code < words.length := by omega
        have hsecond : code + 1 < words.length := by omega
        rw [copyData.eq_3 _ _ _ _ _ _ (by omega) hzero]
        simp only [fetch_of_lt hfirst, fetch_of_lt hsecond]
        refine Or.inl ?_
        change ∃ s', (if n ≥ 4 then _ else _ : Except (Exit × σ) (ℕ × σ)) = _
        split_ifs
        · exact ⟨_, rfl⟩
        · exact ⟨_, rfl⟩

theorem copyMemory_spec (bus : Bus σ) (n : ℕ) (srcaddr dstaddr : U32) (s : σ) :
    (∃ s', copyMemory bus n srcaddr dstaddr s = .ok s') ∨
      ∃ s', copyMemory bus n srcaddr dstaddr s = .error (.done .interrupted, s') := by
  induction n using Nat.strongRecOn generalizing srcaddr dstaddr s with
  | ind n ih =>
    by_cases hword : 4 ≤ n
    · obtain ⟨k, rfl⟩ := Nat.exists_eq_add_of_le' hword
      cases hstop : bus.stopRequested s with
      | mk stop s₁ =>
        rw [copyMemory]
        simp only [hstop]
        cases stop with
        | true => exact Or.inr ⟨s₁, rfl⟩
        | false => exact ih k (by omega) _ _ _
    · cases n with
      | zero => exact Or.inl ⟨s, by rw [copyMemory]⟩
      | succ k =>
        rw [copyMemory.eq_3 _ _ _ _ _ (by omega)]
        exact ih k (by omega) _ _ _

/-! ### One instruction -/

/-- Where an instruction takes the code pointer, from just behind it. -/
inductive Moves (next : ℕ) (m m' : Machine σ) : Prop
  | on (code : m'.code = next) (loopstart : m'.loopstart = m.loopstart)
      (loopcount : m'.loopcount = m.loopcount)
  | enter (code : m'.code = next) (loopstart : m'.loopstart = next)
  | again (code : m'.code = m.loopstart) (loopstart : m'.loopstart = m.loopstart)
      (loopcount : m'.loopcount.toNat < m.loopcount.toNat)

/-- An instruction moves the code pointer or stops with a result. -/
def Executed (next : ℕ) (m : Machine σ) : Except (Exit × σ) (Machine σ) → Prop
  | .ok m' => Moves next m m'
  | .error e => ∃ r, e.1 = .done r

theorem executeC_spec (m : Machine σ) (op : ℕ) (b : U32) :
    Executed m.code m (executeC bus m op b) := by
  rw [executeC.eq_def]
  split
  · exact .enter rfl rfl
  · simp only
    split_ifs <;> exact .on rfl rfl rfl
  · exact .on rfl rfl rfl
  · exact ⟨_, rfl⟩

/-- NEXT goes back to the loop's start while its count lasts. -/
theorem next_spec {m : Machine σ} {out : Machine σ} (hcode : out.code = m.code)
    (hout : out.loopstart = m.loopstart ∧ out.loopcount = m.loopcount ∨ out.loopstart = m.code) :
    Executed m.code m (if m.loopcount > 0 then
      .ok { m with
        cond := m.loopcond, condstack := m.loopcondstack, loopcount := m.loopcount - 1
        code := m.loopstart }
      else .ok out) := by
  split_ifs with hcount
  · refine .again rfl rfl ?_
    change (m.loopcount - 1).toNat < m.loopcount.toNat
    have hpos : 0 < m.loopcount.toNat := hcount
    rw [BitVec.toNat_sub]
    have hlt := m.loopcount.isLt
    have hone : (1 : U32).toNat = 1 := rfl
    omega
  · rcases hout with ⟨hstart, hcount⟩ | hstart
    · exact .on hcode hstart hcount
    · exact .enter hcode hstart

theorem executeD_spec (m : Machine σ) (op : ℕ) (a b : U32) :
    Executed m.code m (executeD bus m op a b) := by
  rw [executeD.eq_def]
  split
  case h_2 =>
    exact next_spec rfl (.inl ⟨rfl, rfl⟩)
  case h_3 => exact next_spec rfl (.inr rfl)
  case h_5 =>
    split
    · exact .on rfl rfl rfl
    · exact ⟨_, rfl⟩
  case h_14 => exact ⟨_, rfl⟩
  all_goals exact .on rfl rfl rfl

theorem execute_spec (bus : Bus σ) {m : Machine σ} {a b : U32} (h : m.code + dataWords a b ≤ words.length) :
    Executed (m.code + dataWords a b) m (execute bus words m a b) := by
  by_cases hdata : isData a = true
  · have hop := (isData_iff a).mp hdata
    have hwords : dataWords a b = (b.toNat + 7) / 8 * 2 := by
      rw [dataWords, if_pos hdata, dataLines]
    rw [hwords] at h ⊢
    simp only [execute, hop]
    rcases copyData_spec bus h ((a &&& 0x0FFFFFFF) + m.offset) m.bus with
      ⟨s', hcopy⟩ | ⟨s', hcopy⟩
    · rw [hcopy]
      exact .on rfl rfl rfl
    · rw [hcopy]
      exact ⟨_, rfl⟩
  · have hop := mt (isData_iff a).mpr hdata
    have hwords : dataWords a b = 0 := by rw [dataWords, if_neg hdata]
    rw [hwords, Nat.add_zero] at *
    rw [execute]
    split
    case h_13 => exact executeC_spec m _ b
    case h_14 => exact executeD_spec m _ a b
    case h_15 => exact absurd ‹_› hop
    case h_16 =>
      rcases copyMemory_spec bus b.toNat m.offset (a &&& 0x0FFFFFFF) m.bus with
        ⟨s', hcopy⟩ | ⟨s', hcopy⟩
      · rw [hcopy]
        exact .on rfl rfl rfl
      · rw [hcopy]
        exact ⟨_, rfl⟩
    all_goals exact .on rfl rfl rfl

/-- A failed condition skips an instruction with its data. -/
theorem dispatch_spec (bus : Bus σ) {m : Machine σ} {a b : U32} (h : m.code + dataWords a b ≤ words.length) :
    Executed (m.code + dataWords a b) m
      (if ¬executesAlways (a >>> 24).toNat ∧ m.cond = 0 then
        if (a >>> 24).toNat &&& 0xF0 = 0xE0 then
          .ok { m with code := m.code + dataLines b * 2 }
        else .ok m
      else execute bus words m a b) := by
  by_cases hcond : ¬executesAlways (a >>> 24).toNat ∧ m.cond = 0
  · rw [if_pos hcond, dataWords]
    by_cases hdata : isData a = true
    · rw [if_pos ((and_F0_iff a).mpr hdata), if_pos hdata]
      exact .on rfl rfl rfl
    · rw [if_neg (mt (and_F0_iff a).mp hdata), if_neg hdata]
      exact .on rfl rfl rfl
  · rw [if_neg hcond]
    exact execute_spec bus h

/-! ### The loop -/

/-- The code pointer and the loop start are where instructions begin. -/
structure Aligned (words : List U32) (m : Machine σ) : Prop where
  code : IsBoundary words m.code
  loopstart : IsBoundary words m.loopstart
  loopstart_le : m.loopstart ≤ m.code

theorem start_aligned (s : σ) : Aligned words (start s) :=
  ⟨.refl, .refl, Nat.le_refl 0⟩

def rank (words : List U32) (m : Machine σ) : ℕ ×ₗ ℕ ×ₗ ℕ :=
  toLex (words.length - m.loopstart, toLex (m.loopcount.toNat, words.length - m.code))

/-- A turn goes on to an aligned state of lower rank or stops with a result. -/
def Turned (words : List U32) (m : Machine σ) : Except (Exit × σ) (Machine σ) → Prop
  | .ok m' => Aligned words m' ∧ rank words m' < rank words m
  | .error e => ∃ r, e.1 = .done r

theorem Aligned.moves {m m₁ m' : Machine σ} {next : ℕ} (h : Aligned words m)
    (hstart : m₁.loopstart = m.loopstart) (hcount : m₁.loopcount = m.loopcount)
    (hnext : IsBoundary words next) (hlt : m.code < next) (hle : next ≤ words.length)
    (hmoves : Moves next m₁ m') : Aligned words m' ∧ rank words m' < rank words m := by
  have hbehind := h.loopstart_le
  simp only [rank, Prod.Lex.toLex_lt_toLex]
  cases hmoves with
  | on hcode hloop hkeep =>
    rw [hstart] at hloop
    rw [hcount] at hkeep
    refine ⟨⟨hcode ▸ hnext, hloop ▸ h.loopstart, by omega⟩, .inr ⟨by rw [hloop], .inr ⟨?_, ?_⟩⟩⟩
    · rw [hkeep]
    · omega
  | enter hcode hloop =>
    exact ⟨⟨hcode ▸ hnext, hloop ▸ hnext, by omega⟩, .inl (by omega)⟩
  | again hcode hloop hless =>
    rw [hstart] at hcode hloop
    rw [hcount] at hless
    exact ⟨⟨hcode ▸ h.loopstart, hloop ▸ h.loopstart, by omega⟩,
      .inr ⟨by rw [hloop], .inl hless⟩⟩

theorem Executed.turned {m m₁ : Machine σ} {next : ℕ} {out : Except (Exit × σ) (Machine σ)}
    (hout : Executed next m₁ out) (h : Aligned words m) (hstart : m₁.loopstart = m.loopstart)
    (hcount : m₁.loopcount = m.loopcount) (hnext : IsBoundary words next) (hlt : m.code < next)
    (hle : next ≤ words.length) : Turned words m out := by
  cases out with
  | ok m' => exact h.moves hstart hcount hnext hlt hle hout
  | error e => exact hout

theorem turn_spec (bus : Bus σ) (hwalk : ∀ q, IsBoundary words q → q ≤ words.length ∧ q % 2 = 0)
    (hlen : words.length % 2 = 0) {m : Machine σ} (h : Aligned words m) :
    Turned words m (turn bus words m) := by
  obtain ⟨hle, heven⟩ := hwalk _ h.code
  by_cases hend : m.code = words.length
  · rw [turn, if_pos hend]
    exact ⟨_, rfl⟩
  have hfirst : m.code < words.length := by omega
  have hsecond : m.code + 1 < words.length := by omega
  rw [turn, if_neg hend]
  cases hstop : bus.stopRequested m.bus with
  | mk stop s =>
    simp only [fetch_of_lt hfirst, fetch_of_lt hsecond]
    cases stop with
    | true => exact ⟨_, rfl⟩
    | false =>
      have hnext : IsBoundary words
          (m.code + 2 + dataWords (words.get ⟨m.code, hfirst⟩) (words.get ⟨m.code + 1, hsecond⟩)) :=
        h.code.tail ⟨_, _, List.getElem?_eq_getElem hfirst, List.getElem?_eq_getElem hsecond, rfl⟩
      have hwithin := (hwalk _ hnext).1
      have hforward : m.code < m.code + 2 + dataWords (words.get ⟨m.code, hfirst⟩)
          (words.get ⟨m.code + 1, hsecond⟩) := by omega
      have hout := dispatch_spec bus
        (m := { m with started := true, code := m.code + 2, bus := s }) hwithin
      exact hout.turned h rfl rfl hnext hforward hwithin

section accepted

variable {s s' : σ} (hvalid : validateInstructions bus words s = .ok s')
include hvalid

theorem accepted_turn {m : Machine σ} (h : Aligned words m) :
    Turned words m (turn bus words m) :=
  turn_spec bus (fun _ hq => ⟨(validateInstructions_boundary hvalid hq).1,
    (validateInstructions_boundary hvalid hq).2.1⟩)
    (validateInstructions_boundary hvalid Relation.ReflTransGen.refl).2.2 h

theorem accepted_step (m m' : Machine σ) (h : Aligned words m) (hturn : turn bus words m = .ok m') :
    Aligned words m' ∧ rank words m' < rank words m := by
  have hspec := accepted_turn hvalid h
  rw [hturn] at hspec
  exact hspec

theorem accepted_exit (m : Machine σ) (e : Exit × σ) (h : Aligned words m)
    (hturn : turn bus words m = .error e) : ∃ r, e.1 = .done r := by
  have hspec := accepted_turn hvalid h
  rw [hturn] at hspec
  exact hspec

theorem accepted_turns_exit {s₀ : σ} {n : ℕ} {e : Exit × σ}
    (hrun : RankedLoop.turns (turn bus words) n (start s₀) = .error e) : ∃ r, e.1 = .done r :=
  RankedLoop.turns_exit (fun m m' hm hturn => (accepted_step hvalid m m' hm hturn).1)
    (accepted_exit hvalid) (start_aligned s₀) hrun

theorem accepted_returns (s₀ : σ) : ∃ n r s₁, ∀ fuel, n ≤ fuel →
    RankedLoop.turns (turn bus words) fuel (start s₀) = .error (.done r, s₁) := by
  obtain ⟨n, ⟨exit, s₁⟩, hrun⟩ :=
    RankedLoop.exists_exit wellFounded_lt (rank words) (accepted_step hvalid) (start_aligned s₀)
  obtain ⟨r, hr⟩ := accepted_turns_exit hvalid hrun
  refine ⟨n, r, s₁, fun fuel hfuel => ?_⟩
  rw [RankedLoop.turns_of_exit hfuel hrun]
  exact congrArg (fun e => Except.error (e, s₁)) hr

end accepted

/-- The engine on a list the validator accepts: whenever it fetches it is at an instruction
within the list or at the list's end, it never reads past the end, and it returns. -/
theorem runCheat_safe (bus : Bus σ) (words : List U32) (s s' : σ)
    (hvalid : validateInstructions bus words s = .ok s') (s₀ : σ) :
    (∀ n m, RankedLoop.turns (turn bus words) n (start s₀) = .ok m →
      IsBoundary words m.code ∧ m.code ≤ words.length) ∧
    (∀ n e, RankedLoop.turns (turn bus words) n (start s₀) = .error e → ∃ r, e.1 = .done r) ∧
    ∃ n r s₁, ∀ fuel, n ≤ fuel →
      RankedLoop.turns (turn bus words) fuel (start s₀) = .error (.done r, s₁) := by
  refine ⟨fun n m hrun => ?_, fun n e hrun => accepted_turns_exit hvalid hrun,
    accepted_returns hvalid s₀⟩
  have hm := RankedLoop.turns_inv (fun m m' hm hturn => (accepted_step hvalid m m' hm hturn).1)
    (start_aligned s₀) hrun
  exact ⟨hm.code, (validateInstructions_boundary hvalid hm.code).1⟩

/-- A cheat returns, whatever its words are. -/
theorem runCheat_returns (bus : Bus σ) (words : List U32) (s : σ) :
    ∃ n r s₁, ∀ fuel, n ≤ fuel → runCheat bus words fuel s = .error (.done r, s₁) := by
  cases hstop : bus.stopRequested s with
  | mk stop s₁ =>
    simp only [runCheat, hstop]
    cases stop with
    | true => exact ⟨0, .success, s₁, fun fuel _ => rfl⟩
    | false =>
      cases hvalid : validateInstructions bus words s₁ with
      | error e =>
        obtain ⟨exit, s₂⟩ := e
        obtain ⟨r, rfl⟩ := validateInstructions_error hvalid
        cases r <;> exact ⟨0, _, s₂, fun fuel _ => rfl⟩
      | ok s₂ =>
        by_cases hempty : words.isEmpty = true
        · simp only [hempty]
          exact ⟨0, .success, s₂, fun fuel _ => rfl⟩
        · simp only [hempty]
          exact accepted_returns hvalid s₂

/-- A memory that is all zero and never cancels. -/
def zeroBus : Bus Unit where
  read8 _ s := (0, s)
  read16 _ s := (0, s)
  read32 _ s := (0, s)
  write8 _ _ s := s
  write16 _ _ s := s
  write32 _ _ s := s
  stopRequested s := (false, s)

theorem validateFrom_zeroBus {p : ℕ} {a b : U32} (ha : words[p]? = some a)
    (hb : words[p + 1]? = some b) (hdata : dataWords a b ≤ words.length - (p + 2)) :
    validateFrom zeroBus words p () =
      validateFrom zeroBus words (p + 2 + dataWords a b) () := by
  obtain ⟨hp, hpa⟩ := List.getElem?_eq_some_iff.mp ha
  obtain ⟨hp', hpb⟩ := List.getElem?_eq_some_iff.mp hb
  have hwalk : validateFrom zeroBus words p () = if isData a = true then
      if dataLines b > (words.length - (p + 2)) / 2 then .error (.done .invalidCode, ())
      else validateFrom zeroBus words (p + 2 + dataLines b * 2) ()
    else validateFrom zeroBus words (p + 2) () := by
    rw [validateFrom, if_pos hp]
    simp only [zeroBus, fetch_of_lt hp, fetch_of_lt hp', List.get_eq_getElem, hpa, hpb]
    rfl
  rw [hwalk]
  rw [dataWords] at hdata ⊢
  split_ifs at hdata ⊢ with hkind hlines
  · omega
  · rfl
  · rfl

/-- A loop around five bytes of data. -/
theorem runCheat_safe_loop :
    ∃ n r s₁, ∀ fuel, n ≤ fuel →
      RankedLoop.turns (turn zeroBus [0xC0000000, 2, 0xE2000000, 5, 7, 8, 0xD1000000, 0]) fuel
        (start ()) = .error (.done r, s₁) := by
  have hvalid : validateInstructions zeroBus [0xC0000000, 2, 0xE2000000, 5, 7, 8, 0xD1000000, 0] ()
      = .ok () := by
    rw [validateInstructions, if_neg (by decide)]
    refine (validateFrom_zeroBus (a := 0xC0000000) rfl rfl (by decide)).trans ?_
    refine (validateFrom_zeroBus (a := 0xE2000000) (b := 5) rfl rfl (by decide)).trans ?_
    refine (validateFrom_zeroBus (a := 0xD1000000) (b := 0) rfl rfl (by decide)).trans ?_
    rw [validateFrom]
    rfl
  exact (runCheat_safe zeroBus _ () () hvalid ()).2.2

end MelonDS.AREngine

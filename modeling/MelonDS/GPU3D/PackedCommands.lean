import MelonDS.GPU3D.CommandStream

/-!
# Packed commands and the command ports

A program may send up to four commands in one word of the packed FIFO, their
parameters in the words behind it, or store every parameter to the port of its
command. `WriteToGXFIFO` is called once per word and keeps its place between the
calls, so the comparison follows that place. `Waiting` says which commands of the
word are still to come when a call returns: either none, or the first of them
lacks parameters. Commands without parameters never wait; they leave with the
word that finished the command before them.
-/

namespace MelonDS.GPU3D

/-! ## One call -/

namespace Unpacker

/-- The `for (;;)` of `WriteToGXFIFO` as its rounds: each hands over its entries,
then leaves by one of the two `break`s or goes on. -/
inductive Rounds (val : U32) : Unpacker → List CmdFIFOEntry → Unpacker → Prop
  | short {u : Unpacker} (hp : u.paramCount < u.totalParams) : Rounds val u (u.entries val) u
  | last {u : Unpacker} (hp : u.totalParams ≤ u.paramCount) (hn : u.shift.numCommands = 0) :
      Rounds val u (u.entries val) u.shift
  | params {u : Unpacker} (hp : u.totalParams ≤ u.paramCount) (hn : u.shift.numCommands ≠ 0)
      (hb : u.shift.begin.paramCount < u.shift.begin.totalParams) :
      Rounds val u (u.entries val) u.shift.begin
  | next {u u' : Unpacker} {es : List CmdFIFOEntry} (hp : u.totalParams ≤ u.paramCount)
      (hn : u.shift.numCommands ≠ 0)
      (hb : u.shift.begin.totalParams ≤ u.shift.begin.paramCount)
      (hr : Rounds val u.shift.begin es u') : Rounds val u (u.entries val ++ es) u'

theorem rounds_loop (val : U32) {rounds : ℕ} {u : Unpacker} (h0 : 0 < u.numCommands)
    (h : u.numCommands ≤ rounds) : Rounds val u (u.loop val rounds).1 (u.loop val rounds).2 := by
  induction rounds generalizing u with
  | zero => omega
  | succ rounds ih =>
    simp only [loop]
    split_ifs with hp hn hb
    · exact .last hp hn
    · exact .params hp hn hb
    · have hs : u.shift.begin.numCommands = u.numCommands - 1 := rfl
      have hs' : u.shift.numCommands = u.numCommands - 1 := rfl
      exact .next hp hn (Nat.le_of_not_lt hb) (ih (by omega) (by omega))
    · exact .short (Nat.lt_of_not_le hp)

theorem Rounds.unique {val : U32} {u u₁ u₂ : Unpacker} {es₁ es₂ : List CmdFIFOEntry}
    (h₁ : Rounds val u es₁ u₁) (h₂ : Rounds val u es₂ u₂) : es₁ = es₂ ∧ u₁ = u₂ := by
  induction h₁ generalizing es₂ u₂ with
  | short hp => cases h₂ <;> first | exact ⟨rfl, rfl⟩ | omega
  | last hp hn => cases h₂ <;> first | exact ⟨rfl, rfl⟩ | omega
  | params hp hn hb => cases h₂ <;> first | exact ⟨rfl, rfl⟩ | omega
  | next hp hn hb hr ih =>
    cases h₂ with
    | short hp' => omega
    | last _ hn' => exact absurd hn' hn
    | params _ _ hb' => omega
    | next _ _ _ hr' =>
      obtain ⟨he, hu⟩ := ih hr'
      exact ⟨by rw [he], hu⟩

/-- Where a call may leave the unpacker: the word is used up, or its current
command still lacks parameters. -/
structure Ready (u : Unpacker) : Prop where
  four : u.numCommands ≤ 4
  lacks : u.numCommands ≠ 0 →
    u.paramCount < u.totalParams ∧ u.totalParams = cmdNumParams (u.curCommand.setWidth 8)

theorem Rounds.ready {val : U32} {u u' : Unpacker} {es : List CmdFIFOEntry}
    (h : Rounds val u es u') (hfour : u.numCommands ≤ 4)
    (htotal : u.totalParams = cmdNumParams (u.curCommand.setWidth 8)) : u'.Ready := by
  induction h with
  | short hp => exact ⟨hfour, fun _ => ⟨hp, htotal⟩⟩
  | last hp hn => exact ⟨by omega, fun h => absurd hn h⟩
  | @params u hp hn hb => exact ⟨(Nat.sub_le _ 1).trans hfour, fun _ => ⟨hb, rfl⟩⟩
  | @next u u' es hp hn hb hr ih => exact ih ((Nat.sub_le _ 1).trans hfour) rfl

/-- A call from a state a call may leave ends in such a state. -/
theorem Ready.accept {u : Unpacker} (h : u.Ready) (val : U32) : (u.accept val).2.Ready := by
  unfold Unpacker.accept
  split_ifs with hn
  · dsimp only
    split_ifs with ht
    · exact ⟨le_rfl, fun _ => ⟨ht, rfl⟩⟩
    · have hr := rounds_loop val (u := begin { u with numCommands := 4, curCommand := val })
        (show 0 < 4 by decide) (show 4 ≤ 4 from le_rfl)
      exact hr.ready le_rfl rfl
  · have hr := rounds_loop val (u := { u with paramCount := u.paramCount + 1 })
      (Nat.pos_of_ne_zero hn) le_rfl
    exact hr.ready h.four (h.lacks hn).2

/-- The calls of `WriteToGXFIFO` for a list of words. -/
def feed (u : Unpacker) : List U32 → List CmdFIFOEntry × Unpacker
  | [] => ([], u)
  | val :: vals =>
    let rest := feed (u.accept val).2 vals
    ((u.accept val).1 ++ rest.1, rest.2)

@[simp] theorem feed_nil (u : Unpacker) : u.feed [] = ([], u) := rfl

@[simp] theorem feed_cons (u : Unpacker) (val : U32) (vals : List U32) :
    u.feed (val :: vals) =
      ((u.accept val).1 ++ ((u.accept val).2.feed vals).1, ((u.accept val).2.feed vals).2) := rfl

theorem feed_append (u : Unpacker) (vals vals' : List U32) :
    u.feed (vals ++ vals') =
      ((u.feed vals).1 ++ ((u.feed vals).2.feed vals').1, ((u.feed vals).2.feed vals').2) := by
  induction vals generalizing u with
  | nil => simp
  | cons val vals ih => simp [ih]

end Unpacker

/-! ## Commands, packed and stored to their ports -/

/-- A command that has a port of its own, with the parameters `CmdNumParams` gives it. -/
structure GXCommand where
  code : U8
  params : List U32
  ported : 0x10 ≤ code.toNat ∧ code.toNat ≤ 0x72
  arity : params.length = cmdNumParams code

namespace GXCommand

def port (c : GXCommand) : U32 := (0x04000400 : U32) + (c.code.setWidth 32 <<< 2)

/-- What is stored to the port: the parameters, or for a command without any one
word the command takes no notice of. -/
def words (c : GXCommand) (word : U32) : List U32 :=
  if c.params = [] then [word] else c.params

theorem code_ne_zero (c : GXCommand) : c.code ≠ 0 := by
  intro h
  have hp := c.ported.1
  rw [h] at hp
  exact absurd hp (by decide)

theorem port_fields : ∀ code : U8, 0x10 ≤ code.toNat ∧ code.toNat ≤ 0x72 →
    let addr : U32 := (0x04000400 : U32) + (code.setWidth 32 <<< 2)
    0x04000440 ≤ addr ∧ addr < 0x040005CC ∧ ((addr &&& 0x1FC) >>> 2).setWidth 8 = code := by
  decide +kernel

def noParams (c : GXCommand) : Bool := c.params.isEmpty

theorem noParams_iff {c : GXCommand} : c.noParams = true ↔ cmdNumParams c.code = 0 := by
  rw [noParams, List.isEmpty_iff, ← List.length_eq_zero_iff, c.arity]

end GXCommand

/-- Four commands at most in one word, the first in the low byte; what is not
filled stays zero. -/
def packCodes : List U8 → U32
  | [] => 0
  | c :: cs => c.setWidth 32 ||| packCodes cs <<< 8

theorem packCodes_getLsbD (cs : List U8) {i : ℕ} (h : 8 * cs.length ≤ i) :
    (packCodes cs).getLsbD i = false := by
  induction cs generalizing i with
  | nil => simp [packCodes]
  | cons c cs ih =>
    simp only [List.length_cons] at h
    have hc : c.getLsbD i = false := BitVec.getLsbD_of_ge c i (by omega)
    simp [packCodes, hc, ih (i := i - 8) (by omega)]

@[simp] theorem packCodes_low (c : U8) (cs : List U8) :
    (packCodes (c :: cs)).setWidth 8 = c := by
  ext i hi
  simp [packCodes]

theorem packCodes_shift (c : U8) {cs : List U8} (h : cs.length ≤ 3) :
    packCodes (c :: cs) >>> 8 = packCodes cs := by
  ext i hi
  by_cases hb : 8 + i < 32
  · simp [packCodes, hb, ← BitVec.getLsbD_eq_getElem]
  · have hz := packCodes_getLsbD cs (i := i) (by omega)
    simp [packCodes, hb, ← BitVec.getLsbD_eq_getElem, hz]

structure PackedGroup where
  commands : List GXCommand
  nonempty : commands ≠ []
  four : commands.length ≤ 4

namespace PackedGroup

def word (g : PackedGroup) : U32 := packCodes (g.commands.map GXCommand.code)

/-- The packed word, then the parameters in the order of the commands. -/
def words (g : PackedGroup) : List U32 := g.word :: g.commands.flatMap GXCommand.params

end PackedGroup

/-! ## What the entries are -/

/-- Each command with the word its port is to receive when it takes no parameter:
the word that was sent last. -/
def withLastWord (word : U32) : List GXCommand → List (GXCommand × U32)
  | [] => []
  | c :: cs => (c, word) :: withLastWord (c.params.getLastD word) cs

def portEntries (stores : List (GXCommand × U32)) : List CmdFIFOEntry :=
  stores.flatMap fun s => (s.1.words s.2).map (⟨s.1.code, ·⟩)

/-- The entries of the commands without parameters that `val` lets through. -/
def passing (val : U32) (cs : List GXCommand) : List CmdFIFOEntry :=
  (cs.takeWhile GXCommand.noParams).map fun c => ⟨c.code, val⟩

/-- `cs` is what is left of the word, and `got` parameters of its first command
have come. -/
structure Waiting (u : Unpacker) (c : GXCommand) (cs : List GXCommand) (got : ℕ) : Prop where
  some : cs.length < u.numCommands
  four : u.numCommands ≤ 4
  codes : u.curCommand = packCodes (c.code :: cs.map GXCommand.code)
  total : u.totalParams = c.params.length
  count : u.paramCount = got

/-- Where a call leaves the unpacker when `cs` is still to come. -/
def Before (u : Unpacker) : List GXCommand → Prop
  | [] => u.numCommands = 0
  | c :: cs => Waiting u c cs 0 ∧ c.params ≠ []

section Loop

variable {u : Unpacker} {c : GXCommand} {cs : List GXCommand} {got : ℕ}

theorem Waiting.entries (h : Waiting u c cs got) (val : U32) :
    u.entries val = [⟨c.code, val⟩] := by
  have hlow : u.curCommand.setWidth 8 = c.code := by rw [h.codes, packCodes_low]
  have hne : u.curCommand &&& 0xFF ≠ 0 := by
    intro hz
    have hb := congrArg (BitVec.setWidth 8) hz
    rw [BitVec.setWidth_and, hlow] at hb
    exact c.code_ne_zero ((BitVec.and_allOnes (x := c.code)).symm.trans (by simpa using hb))
  rw [Unpacker.entries, if_pos (Or.inl hne), hlow]

/-- The place after the shift and the table look-up. -/
theorem Waiting.begin {d : GXCommand} (h : Waiting u c (d :: cs) got) :
    Waiting u.shift.begin d cs 0 := by
  have hs := h.some
  have hlen : (d :: cs).length ≤ 3 := by
    have hf := h.four
    omega
  have hcur : u.shift.begin.curCommand = packCodes (d.code :: cs.map GXCommand.code) := by
    change u.curCommand >>> 8 = _
    rw [h.codes]
    exact packCodes_shift _ (by simpa using hlen)
  have hn : u.shift.begin.numCommands = u.numCommands - 1 := rfl
  refine ⟨by simp only [List.length_cons] at hs; omega, hn ▸ (Nat.sub_le _ 1).trans h.four, hcur, ?_, rfl⟩
  change cmdNumParams (u.shift.begin.curCommand.setWidth 8) = _
  rw [hcur, packCodes_low, d.arity]

/-- What is left of a word once its commands are through: zeros, which are skipped. -/
theorem loop_zeros (val : U32) {n : ℕ} {u : Unpacker} (hu : u.numCommands = n + 1) (hn : n < 3)
    (hcur : u.curCommand = 0) (hp : u.totalParams ≤ u.paramCount) :
    (u.loop val (n + 1)).1 = [] ∧ (u.loop val (n + 1)).2.numCommands = 0 := by
  have he : u.entries val = [] := by
    have h4 : u.numCommands ≠ 4 := by omega
    simp [Unpacker.entries, hcur, h4]
  have hs : u.shift.numCommands = n := by
    change u.numCommands - 1 = n
    omega
  induction n generalizing u with
  | zero => simp [Unpacker.loop, hp, hs, he]
  | succ n ih =>
    have hz : u.shift.curCommand = 0 := by
      change u.curCommand >>> 8 = 0
      rw [hcur]
      rfl
    have ht : u.shift.begin.totalParams = 0 := by
      change cmdNumParams (u.shift.curCommand.setWidth 8) = 0
      rw [hz]
      rfl
    have hrest := ih (u := u.shift.begin) hs (by omega) hz (by omega)
      (by
        have h4 : u.shift.begin.numCommands ≠ 4 := by
          change u.shift.numCommands ≠ 4
          omega
        have hz' : u.shift.begin.curCommand = 0 := hz
        simp [Unpacker.entries, hz', h4])
      (by change u.shift.numCommands - 1 = n; omega)
    have hnb : ¬ u.shift.begin.paramCount < u.shift.begin.totalParams := by omega
    rw [Unpacker.loop, if_pos hp, if_neg (by omega), if_neg hnb, he]
    exact hrest

/-- The round that finishes a command lets the commands without parameters behind
it through, and stops in front of the next one that has some. -/
theorem Waiting.loop (val : U32) {n : ℕ} (h : Waiting u c cs got) (hu : u.numCommands = n + 1)
    (hp : u.totalParams ≤ u.paramCount) :
    (u.loop val (n + 1)).1 = ⟨c.code, val⟩ :: passing val cs ∧
      Before (u.loop val (n + 1)).2 (cs.dropWhile GXCommand.noParams) := by
  have hs : u.shift.numCommands = n := by
    change u.numCommands - 1 = n
    omega
  induction cs generalizing u c got n with
  | nil =>
    cases n with
    | zero => simp [Unpacker.loop, hp, hs, h.entries, passing, Before]
    | succ n =>
      have hz : u.shift.begin.curCommand = 0 := by
        change u.curCommand >>> 8 = 0
        rw [h.codes]
        exact packCodes_shift _ (by simp)
      have ht : u.shift.begin.totalParams = 0 := by
        change cmdNumParams (u.shift.begin.curCommand.setWidth 8) = 0
        rw [hz]
        rfl
      have hf := h.four
      obtain ⟨he, hd⟩ := loop_zeros val (u := u.shift.begin) hs (by omega) hz (by omega)
      have hnb : ¬ u.shift.begin.paramCount < u.shift.begin.totalParams := by omega
      rw [Unpacker.loop, if_pos hp, if_neg (by omega), if_neg hnb, h.entries]
      exact ⟨by simp [he, passing], hd⟩
  | cons d cs ih =>
    have hlt := h.some
    simp only [List.length_cons] at hlt
    obtain ⟨m, rfl⟩ : ∃ m, n = m + 1 := ⟨n - 1, by omega⟩
    have hb := h.begin
    by_cases hd : d.noParams = true
    · have ht : u.shift.begin.totalParams = 0 := by
        rw [hb.total, d.arity]
        exact GXCommand.noParams_iff.mp hd
      obtain ⟨he, hw⟩ := ih hb hs (by omega) (by change u.shift.numCommands - 1 = m; omega)
      have hnb : ¬ u.shift.begin.paramCount < u.shift.begin.totalParams := by omega
      rw [Unpacker.loop, if_pos hp, if_neg (by omega), if_neg hnb, h.entries]
      simp only [he, passing, List.takeWhile_cons_of_pos hd, List.dropWhile_cons_of_pos hd]
      exact ⟨rfl, hw⟩
    · have hne : d.params ≠ [] := by simpa [GXCommand.noParams] using hd
      have hlack : u.shift.begin.paramCount < u.shift.begin.totalParams := by
        rw [hb.total, hb.count]
        exact List.length_pos_of_ne_nil hne
      rw [Unpacker.loop, if_pos hp, if_neg (by omega), if_pos hlack, h.entries]
      simp only [passing, List.takeWhile_cons_of_neg hd, List.dropWhile_cons_of_neg hd]
      exact ⟨rfl, hb, hne⟩

/-- A word for a command that has received `got` parameters. -/
theorem Waiting.accept (val : U32) (h : Waiting u c cs got) :
    (got + 1 < c.params.length → (u.accept val).1 = [⟨c.code, val⟩] ∧
      Waiting (u.accept val).2 c cs (got + 1)) ∧
    (c.params.length = got + 1 →
      (u.accept val).1 = ⟨c.code, val⟩ :: passing val cs ∧
        Before (u.accept val).2 (cs.dropWhile GXCommand.noParams)) := by
  have hpos : 0 < u.numCommands := Nat.zero_lt_of_lt h.some
  have hw : Waiting { u with paramCount := u.paramCount + 1 } c cs (got + 1) :=
    ⟨h.some, h.four, h.codes, h.total, by rw [h.count]⟩
  obtain ⟨n, hn⟩ : ∃ n, u.numCommands = n + 1 := ⟨u.numCommands - 1, by omega⟩
  have ht := h.total
  have hc := h.count
  have ha : u.accept val = { u with paramCount := u.paramCount + 1 }.loop val (n + 1) := by
    rw [Unpacker.accept, if_neg (by omega), hn]
  rw [ha]
  constructor
  · intro hlt
    rw [Unpacker.loop, if_neg (by change ¬ u.paramCount + 1 ≥ u.totalParams; omega)]
    exact ⟨hw.entries val, hw⟩
  · intro hlast
    exact hw.loop val hn (by change u.totalParams ≤ u.paramCount + 1; omega)

/-- All the words a command still lacks. -/
theorem Waiting.feed (word : U32) {vals : List U32} (h : Waiting u c cs got) (hv : vals ≠ [])
    (hlen : got + vals.length = c.params.length) :
    (u.feed vals).1 = vals.map (⟨c.code, ·⟩) ++ passing (vals.getLastD word) cs ∧
      Before (u.feed vals).2 (cs.dropWhile GXCommand.noParams) := by
  induction vals generalizing u got word with
  | nil => exact absurd rfl hv
  | cons val vals ih =>
    simp only [List.length_cons] at hlen
    cases vals with
    | nil =>
      obtain ⟨he, hb⟩ := (h.accept val).2 (by simpa using hlen.symm)
      simp only [Unpacker.feed_cons, Unpacker.feed_nil, he]
      exact ⟨by simp, hb⟩
    | cons val' vals =>
      obtain ⟨he, hw⟩ := (h.accept val).1 (by simp only [List.length_cons] at hlen; omega)
      obtain ⟨he', hb⟩ := ih word hw (List.cons_ne_nil _ _) (by omega)
      rw [Unpacker.feed_cons, he, he']
      exact ⟨by simp, hb⟩

end Loop

/-- The parameters of everything still to come, from a call's end to the end of the word. -/
theorem Before.feed {u : Unpacker} (word : U32) {cs : List GXCommand}
    (h : Before u (cs.dropWhile GXCommand.noParams)) :
    passing word cs ++ (u.feed (cs.flatMap GXCommand.params)).1 =
        portEntries (withLastWord word cs) ∧
      (u.feed (cs.flatMap GXCommand.params)).2.numCommands = 0 := by
  induction cs generalizing u word with
  | nil => exact ⟨rfl, h⟩
  | cons c cs ih =>
    by_cases hc : c.noParams = true
    · have hp : c.params = [] := by simpa [GXCommand.noParams] using hc
      rw [List.dropWhile_cons_of_pos hc] at h
      obtain ⟨he, hn⟩ := ih word h
      have hf : (c :: cs).flatMap GXCommand.params = cs.flatMap GXCommand.params := by
        simp [hp]
      rw [hf]
      refine ⟨?_, hn⟩
      have hd : portEntries (withLastWord word (c :: cs)) =
          ⟨c.code, word⟩ :: portEntries (withLastWord word cs) := by
        simp [portEntries, withLastWord, GXCommand.words, hp]
      rw [hd, ← he]
      simp [passing, List.takeWhile_cons_of_pos hc]
    · have hp : c.params ≠ [] := by simpa [GXCommand.noParams] using hc
      rw [List.dropWhile_cons_of_neg hc] at h
      obtain ⟨he, hb⟩ := h.1.feed word hp (Nat.zero_add _)
      obtain ⟨he', hn⟩ := ih (c.params.getLastD word) hb
      have hf : (c :: cs).flatMap GXCommand.params =
          c.params ++ cs.flatMap GXCommand.params := List.flatMap_cons
      rw [hf, Unpacker.feed_append, he]
      refine ⟨?_, hn⟩
      have hd : portEntries (withLastWord word (c :: cs)) = c.params.map (⟨c.code, ·⟩) ++
          portEntries (withLastWord (c.params.getLastD word) cs) := by
        simp [portEntries, withLastWord, GXCommand.words, hp]
      rw [hd, ← he']
      simp [passing, List.takeWhile_cons_of_neg hc]

/-- The packed word itself lets the commands without parameters in front through. -/
theorem PackedGroup.accept_word (g : PackedGroup) {u : Unpacker} (h : u.numCommands = 0) :
    (u.accept g.word).1 = passing g.word g.commands ∧
      Before (u.accept g.word).2 (g.commands.dropWhile GXCommand.noParams) := by
  obtain ⟨cs, hne, hfour⟩ := g
  cases cs with
  | nil => exact absurd rfl hne
  | cons c cs =>
    let word := packCodes ((c :: cs).map GXCommand.code)
    let u₀ := Unpacker.begin { u with numCommands := 4, curCommand := word }
    have hw : Waiting u₀ c cs 0 := by
      refine ⟨hfour, le_rfl, rfl, ?_, rfl⟩
      change cmdNumParams (word.setWidth 8) = _
      rw [show word.setWidth 8 = c.code from packCodes_low _ _, c.arity]
    change (u.accept word).1 = passing word (c :: cs) ∧
      Before (u.accept word).2 ((c :: cs).dropWhile GXCommand.noParams)
    have ha : u.accept word = if u₀.totalParams > 0 then ([], u₀) else u₀.loop word 4 := by
      rw [Unpacker.accept, if_pos h]
      rfl
    by_cases hc : c.noParams = true
    · have ht : u₀.totalParams = 0 := by
        rw [hw.total, c.arity]
        exact GXCommand.noParams_iff.mp hc
      obtain ⟨he, hb⟩ := hw.loop word (n := 3) rfl (by omega)
      rw [ha, if_neg (by omega), he, List.dropWhile_cons_of_pos hc]
      exact ⟨by simp [passing, List.takeWhile_cons_of_pos hc], hb⟩
    · have hp : c.params ≠ [] := by simpa [GXCommand.noParams] using hc
      have ht : u₀.totalParams > 0 := by
        rw [hw.total]
        exact List.length_pos_of_ne_nil hp
      rw [ha, if_pos ht, List.dropWhile_cons_of_neg hc]
      exact ⟨by simp [passing, List.takeWhile_cons_of_neg hc], hw, hp⟩

def PackedGroup.stores (g : PackedGroup) : List (GXCommand × U32) := withLastWord g.word g.commands

theorem PackedGroup.feed_words (g : PackedGroup) {u : Unpacker} (h : u.numCommands = 0) :
    (u.feed g.words).1 = portEntries g.stores ∧ (u.feed g.words).2.numCommands = 0 := by
  obtain ⟨he, hb⟩ := g.accept_word h
  obtain ⟨he', hn⟩ := hb.feed g.word
  rw [PackedGroup.words, Unpacker.feed_cons, he]
  exact ⟨he', hn⟩

theorem feed_groups (gs : List PackedGroup) {u : Unpacker} (h : u.numCommands = 0) :
    (u.feed (gs.flatMap PackedGroup.words)).1 = portEntries (gs.flatMap PackedGroup.stores) ∧
      (u.feed (gs.flatMap PackedGroup.words)).2.numCommands = 0 := by
  induction gs generalizing u with
  | nil => exact ⟨rfl, h⟩
  | cons g gs ih =>
    obtain ⟨he, hn⟩ := g.feed_words h
    obtain ⟨he', hn'⟩ := ih hn
    rw [List.flatMap_cons, Unpacker.feed_append, he, he']
    exact ⟨by simp [portEntries], hn'⟩

/-! ## The two ways to send a command, as stores -/

namespace CommandEngine

/-- The stores of a program that uses the packed FIFO. -/
def sendPacked (g : CommandEngine) (gs : List PackedGroup) : CommandEngine :=
  (gs.flatMap PackedGroup.words).foldl (fun g val => g.write32 0x04000400 val) g

/-- The stores of a program that uses the port of each command. -/
def sendPorts (g : CommandEngine) (stores : List (GXCommand × U32)) : CommandEngine :=
  stores.foldl (fun g s => (s.1.words s.2).foldl (fun g val => g.write32 s.1.port val) g) g

theorem cmdFIFOWrite_unpacker (g : CommandEngine) (u : Unpacker) (e : CmdFIFOEntry) :
    cmdFIFOWrite { g with unpacker := u } e = { g.cmdFIFOWrite e with unpacker := u } := by
  simp only [cmdFIFOWrite, noteCommand]
  split_ifs <;> rfl

theorem foldl_cmdFIFOWrite_unpacker (g : CommandEngine) (u : Unpacker) (es : List CmdFIFOEntry) :
    es.foldl cmdFIFOWrite { g with unpacker := u } =
      { es.foldl cmdFIFOWrite g with unpacker := u } := by
  induction es generalizing g with
  | nil => rfl
  | cons e es ih => rw [List.foldl_cons, cmdFIFOWrite_unpacker, ih, List.foldl_cons]

theorem foldl_packed (g : CommandEngine) (u : Unpacker) (vals : List U32) :
    vals.foldl (fun g val => g.write32 0x04000400 val) { g with unpacker := u } =
      { (u.feed vals).1.foldl cmdFIFOWrite g with unpacker := (u.feed vals).2 } := by
  induction vals generalizing g u with
  | nil => rfl
  | cons val vals ih =>
    have hw : ({ g with unpacker := u } : CommandEngine).write32 0x04000400 val =
        { (u.accept val).1.foldl cmdFIFOWrite g with unpacker := (u.accept val).2 } :=
      foldl_cmdFIFOWrite_unpacker g (u.accept val).2 (u.accept val).1
    rw [List.foldl_cons, hw, ih, Unpacker.feed_cons, List.foldl_append]

theorem write32_port (g : CommandEngine) (c : GXCommand) (val : U32) :
    g.write32 c.port val = g.cmdFIFOWrite ⟨c.code, val⟩ := by
  obtain ⟨hlo, hhi, hcode⟩ := GXCommand.port_fields c.code c.ported
  have hfifo : ¬ (0x04000400 ≤ c.port ∧ c.port < 0x04000440) := by
    intro h
    exact absurd h.2 (BitVec.not_lt.mpr hlo)
  have hport : 0x04000440 ≤ c.port ∧ c.port < 0x040005CC := ⟨hlo, hhi⟩
  have he : g.enqueued c.port val = ([⟨c.code, val⟩], g.unpacker) := by
    rw [enqueued, if_neg hfifo, if_pos hport]
    exact congrArg (fun code => ([CmdFIFOEntry.mk code val], g.unpacker)) hcode
  rw [write32, he]
  rfl

theorem sendPorts_eq (g : CommandEngine) (stores : List (GXCommand × U32)) :
    g.sendPorts stores = (portEntries stores).foldl cmdFIFOWrite g := by
  induction stores generalizing g with
  | nil => rfl
  | cons s stores ih =>
    have hone : (s.1.words s.2).foldl (fun g val => g.write32 s.1.port val) g =
        ((s.1.words s.2).map (⟨s.1.code, ·⟩)).foldl cmdFIFOWrite g := by
      simp only [List.foldl_map, write32_port]
    have hs : g.sendPorts (s :: stores) =
        sendPorts ((s.1.words s.2).foldl (fun g val => g.write32 s.1.port val) g) stores := rfl
    have hp : portEntries (s :: stores) =
        (s.1.words s.2).map (⟨s.1.code, ·⟩) ++ portEntries stores := List.flatMap_cons
    rw [hs, ih, hone, hp, List.foldl_append]

end CommandEngine

/-- An entry as its command sees it: without parameters, whatever came along is not one. -/
def CmdFIFOEntry.seen (e : CmdFIFOEntry) : CmdFIFOEntry :=
  if cmdNumParams e.command = 0 then { e with param := 0 } else e

theorem portEntries_seen {stores stores' : List (GXCommand × U32)}
    (h : stores.map Prod.fst = stores'.map Prod.fst) :
    (portEntries stores).map CmdFIFOEntry.seen = (portEntries stores').map CmdFIFOEntry.seen := by
  have hone : ∀ s : GXCommand × U32,
      ((s.1.words s.2).map (⟨s.1.code, ·⟩)).map CmdFIFOEntry.seen =
        ((s.1.words 0).map (⟨s.1.code, ·⟩)).map CmdFIFOEntry.seen := by
    intro s
    unfold GXCommand.words
    split_ifs with hp
    · have hz : cmdNumParams s.1.code = 0 := by rw [← s.1.arity, hp, List.length_nil]
      simp [CmdFIFOEntry.seen, hz]
    · rfl
  have hall : ∀ l : List (GXCommand × U32), (portEntries l).map CmdFIFOEntry.seen =
      (l.map Prod.fst).flatMap fun c =>
        ((c.words 0).map (⟨c.code, ·⟩)).map CmdFIFOEntry.seen := by
    intro l
    simp only [portEntries, List.map_flatMap, List.flatMap_map]
    exact List.flatMap_congr fun s _ => hone s
  rw [hall, hall, h]

theorem withLastWord_fst (word : U32) (cs : List GXCommand) :
    (withLastWord word cs).map Prod.fst = cs := by
  induction cs generalizing word with
  | nil => rfl
  | cons c cs ih => simp [withLastWord, ih]

theorem stores_fst (gs : List PackedGroup) :
    (gs.flatMap PackedGroup.stores).map Prod.fst = gs.flatMap PackedGroup.commands := by
  induction gs with
  | nil => rfl
  | cons g gs ih => simp [PackedGroup.stores, withLastWord_fst, ih]

/-- Commands packed one to four in a word are enqueued as by their ports. Nothing but
the `Param` of a command without parameters depends on the way: the packed FIFO
leaves the word sent last there, a port the word stored to it. Each call of
`WriteToGXFIFO` ends, at the end of the packed word or in front of a parameter. -/
theorem packed_as_ports (g : CommandEngine) (gs : List PackedGroup)
    (hg : g.unpacker.numCommands = 0) :
    (g.unpacker.feed (gs.flatMap PackedGroup.words)).1 =
        portEntries (gs.flatMap PackedGroup.stores) ∧
      (gs.flatMap PackedGroup.stores).map Prod.fst = gs.flatMap PackedGroup.commands ∧
      (∀ stores : List (GXCommand × U32), stores.map Prod.fst = gs.flatMap PackedGroup.commands →
        (g.unpacker.feed (gs.flatMap PackedGroup.words)).1.map CmdFIFOEntry.seen =
          (portEntries stores).map CmdFIFOEntry.seen) ∧
      { g.sendPacked gs with unpacker := g.unpacker } =
        g.sendPorts (gs.flatMap PackedGroup.stores) ∧
      (g.sendPacked gs).unpacker.numCommands = 0 ∧
      (∀ (u : Unpacker) (val : U32), 0 < u.numCommands → ∀ es u',
        Unpacker.Rounds val u es u' ↔ (es, u') = u.loop val u.numCommands) ∧
      ∀ u : Unpacker, u.Ready → ∀ val, (u.accept val).2.Ready := by
  obtain ⟨he, hn⟩ := feed_groups gs hg
  have hpacked : g.sendPacked gs =
      { (portEntries (gs.flatMap PackedGroup.stores)).foldl CommandEngine.cmdFIFOWrite g with
        unpacker := (g.unpacker.feed (gs.flatMap PackedGroup.words)).2 } := by
    rw [← he]
    exact CommandEngine.foldl_packed g g.unpacker _
  refine ⟨he, stores_fst gs, fun stores hs => ?_, ?_, ?_, fun u val hu es u' => ?_,
    fun u hu val => hu.accept val⟩
  · rw [he]
    exact portEntries_seen ((stores_fst gs).trans hs.symm)
  · rw [CommandEngine.sendPorts_eq, hpacked]
    exact (CommandEngine.foldl_cmdFIFOWrite_unpacker g g.unpacker _).symm
  · rw [hpacked]
    exact hn
  · constructor
    · intro h
      obtain ⟨h1, h2⟩ := h.unique (Unpacker.rounds_loop val hu le_rfl)
      rw [h1, h2]
    · intro h
      have hr := Unpacker.rounds_loop val hu le_rfl
      rw [← h] at hr
      exact hr

/-- MTX_IDENTITY, which takes no parameter, and MTX_MODE. -/
def identityThenMode : PackedGroup where
  commands :=
    [⟨0x15, [], by decide, by decide⟩, ⟨0x10, [2], by decide, by decide⟩]
  nonempty := List.cons_ne_nil _ _
  four := by decide

theorem packed_as_ports_two :
    (Unpacker.feed CommandEngine.reset.unpacker
      ([identityThenMode].flatMap PackedGroup.words)).1 =
        portEntries ([identityThenMode].flatMap PackedGroup.stores) :=
  (packed_as_ports .reset [identityThenMode] rfl).1

/-- A zero stored to the port of MTX_IDENTITY is not what the packed FIFO leaves in
its entry. -/
theorem packed_param_differs :
    ¬ ∀ (gs : List PackedGroup) (stores : List (GXCommand × U32)),
      stores.map Prod.fst = gs.flatMap PackedGroup.commands →
      (Unpacker.feed CommandEngine.reset.unpacker (gs.flatMap PackedGroup.words)).1 =
        portEntries stores := by
  intro h
  have hd := h [identityThenMode] (identityThenMode.commands.map fun c => (c, 0)) rfl
  exact absurd hd (by decide)

end MelonDS.GPU3D

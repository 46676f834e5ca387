import Mathlib.Data.Finset.Option
import MelonDS.ARMJIT.RangeTable

/-!
# The trace loop of `CompileBlock`

The loop fetches an opcode, interprets it, files what it found in scratch arrays
of `MaxBlockSizeLimit` entries and decides whether the block goes on. `Flow` is
the part that decides, `Trace` the arrays. What the guest presents at each turn
(what the decoder and the interpreter made of the opcode) is a `TraceStep`.
-/

namespace MelonDS.ARMJIT

/-- The kinds the loop tells apart. ARM and Thumb kinds of one name share a constructor. -/
inductive InstrKind
  | ldrImm
  | ldrbImm
  | ldrhImm
  | ldrPcrel
  | b
  | bcond
  | bl
  | bx
  | svc
  | mcr
  | msr
  | blLong1
  | blLong2
  | blLong
  | other
deriving DecidableEq

inductive SpecialKind
  | notSpecialAtAll
  | writeMem
  | loadMem
  | waitForInterrupt
  | loadLiteral
deriving DecidableEq

structure FetchedInstr where
  instr : U32
  addr : U32
  kind : InstrKind
  specialKind : SpecialKind
  /-- `DstRegs` holds R15. -/
  branches : Bool

/-- One turn of the loop: the opcode as decoded, and the outcome of interpreting
it. `tk_BL_LONG` is made by the loop only, and the Thumb table has
`tk_BL_LONG_1` at the opcodes `0xF000` to `0xF7FF`. -/
structure TraceStep where
  instr : U32
  kind : InstrKind
  specialKind : SpecialKind
  branches : Bool
  /-- `DstRegs` holds R14. -/
  writesLink : Bool
  endBlock : Bool
  kind_ne : kind ≠ .blLong
  blLong1_instr : kind = .blLong1 → instr.getLsbD 12 = true
  /-- `CompileException` or `CompileMappingChanged`. -/
  abandoned : Bool
  dataRegion : U32
  invalidLiterals : List U32
  /-- `R[15]` and the Thumb bit after the instruction. -/
  r15 : U32
  thumb : Bool
  /-- `Halted`, or an interrupt that is not masked. -/
  interrupted : Bool

/-- What is fixed during a trace. `localise` is `LocaliseCodeAddress` of the CPU. -/
structure TraceConfig where
  num : Fin 2
  thumb : Bool
  blockAddr : U32
  maxBlockSize : ℕ
  literalOptimizations : Bool
  branchOptimizations : Bool
  localise : U32 → U32

def TraceConfig.size (cfg : TraceConfig) : U32 := if cfg.thumb then 2 else 4

def decodeLiteral (thumb : Bool) (f : FetchedInstr) : Option U32 :=
  let offset (magnitude : U32) : U32 := if f.instr.getLsbD 23 then magnitude else -magnitude
  if !thumb then
    match f.kind with
    | .ldrImm | .ldrbImm => some (f.addr + 8 + offset (f.instr &&& 0xFFF))
    | .ldrhImm => some (f.addr + 8 + offset ((f.instr &&& 0xF00) >>> 4 ||| (f.instr &&& 0xF)))
    | _ => none
  else if f.kind = .ldrPcrel then
    some (((f.addr + 4) &&& ~~~(0x2 : U32)) + ((f.instr &&& 0xFF) <<< 2))
  else none

/-- The condition of a branch, and its target where that is static. -/
structure DecodedBranch where
  cond : U32
  target : Option U32

def decodeBranch (thumb : Bool) (f : FetchedInstr) (hasLink : Bool) (lr : U32) : DecodedBranch :=
  if thumb then
    let r15 := f.addr + 4
    match f.kind with
    | .blLong =>
      ⟨0xE, if f.instr.getLsbD 12 then none
        else some (r15 + ((f.instr &&& 0x7FF) <<< 21).sshiftRight 9 +
          (((f.instr >>> 16) &&& 0x7FF) <<< 1))⟩
    | .b => ⟨0xE, some (r15 + ((f.instr &&& 0x7FF) <<< 21).sshiftRight 20)⟩
    | .bcond => ⟨(f.instr >>> 8) &&& 0xF, some (r15 + (f.instr <<< 24).sshiftRight 23)⟩
    | .bx => ⟨0xE, if hasLink && (f.instr >>> 3) &&& 0xF = 14 then some lr else none⟩
    | _ => ⟨0xE, none⟩
  else
    let cond := f.instr >>> 28
    match f.kind with
    | .bl | .b => ⟨cond, some (f.addr + 8 + (f.instr <<< 8).sshiftRight 6)⟩
    | .bx => ⟨cond, if hasLink && f.instr &&& 0xF = 14 then some lr else none⟩
    | _ => ⟨cond, none⟩

/-- `link` of `DecodeBranch`. -/
def links (thumb : Bool) (f : FetchedInstr) : Bool :=
  if thumb then f.kind = .blLong else f.kind = .bl

/-! ## The flow of the loop -/

/-- The variables that decide what is fetched next. `instrs` are the slots in
use, and `endBlock` is that field of the last one. -/
structure Flow where
  instrs : List FetchedInstr
  endBlock : Bool
  r15 : U32
  nextInstrAddr : U32 × U32
  lastSegmentStart : U32
  lr : U32
  hasLink : Bool
  mayChangeExecutionPermission : Bool

namespace Flow

def start (cfg : TraceConfig) : Flow where
  instrs := []
  endBlock := false
  r15 := cfg.blockAddr + cfg.size
  nextInstrAddr := (cfg.blockAddr, cfg.blockAddr + cfg.size)
  lastSegmentStart := cfg.blockAddr
  lr := 0
  hasLink := false
  mayChangeExecutionPermission := false

def fetched (w : Flow) (s : TraceStep) : FetchedInstr :=
  ⟨s.instr, w.nextInstrAddr.1, s.kind, s.specialKind, s.branches⟩

/-- The address `DecodeLiteral` gives where the trace asks for one. -/
def literalAddr (cfg : TraceConfig) (w : Flow) (s : TraceStep) : Option U32 :=
  if cfg.literalOptimizations && s.specialKind = .loadLiteral then
    decodeLiteral cfg.thumb (w.fetched s)
  else none

/-- The local address of a literal that is folded: code memory, not known to change. -/
def foldedLiteral (cfg : TraceConfig) (w : Flow) (s : TraceStep) : Option U32 :=
  (w.literalAddr cfg s).bind fun addr =>
    if cfg.localise addr ≠ 0 ∧ cfg.localise addr ∉ s.invalidLiterals then some (cfg.localise addr)
    else none

/-- The head of the loop, up to the call of the interpreter. -/
def fetch (cfg : TraceConfig) (w : Flow) (s : TraceStep) : Flow :=
  { w with
    r15 := w.r15 + cfg.size
    nextInstrAddr := (w.nextInstrAddr.2, w.r15 + cfg.size)
    hasLink := w.hasLink && !(s.writesLink ||
      (!cfg.thumb && s.kind = .msr && s.instr.getLsbD 16)) }

/-- The branch of the chain that merges the two halves of a Thumb `BL`. -/
def merges (cfg : TraceConfig) (w : Flow) (s : TraceStep) : Bool :=
  (w.literalAddr cfg s).isNone && s.specialKind != .writeMem && cfg.thumb &&
    s.kind = .blLong2 && w.instrs.getLast?.any fun f => f.kind = .blLong1

/-- The slot the turn ends with. -/
def slot (cfg : TraceConfig) (w : Flow) (s : TraceStep) : FetchedInstr :=
  if w.merges cfg s then
    match w.instrs.getLast? with
    | some first =>
      { first with
        instr := (first.instr &&& (0xFFFF : U32)) ||| (s.instr <<< 16)
        kind := .blLong
        branches := true }
    | none => w.fetched s
  else w.fetched s

/-- The slots before it. -/
def slotsBefore (cfg : TraceConfig) (w : Flow) (s : TraceStep) : List FetchedInstr :=
  if w.merges cfg s then w.instrs.dropLast else w.instrs

/-- A CP15 or CPSR write may revoke the right to execute the page. -/
def permissionChange (cfg : TraceConfig) (f : FetchedInstr) : Bool :=
  let cn := (f.instr >>> 16) &&& 0xF
  cfg.num = 0 && !cfg.thumb &&
    ((f.kind = .mcr && (cn = 1 || cn = 5 || cn = 6)) ||
      (f.kind = .msr && f.instr.getLsbD 16 && !f.instr.getLsbD 22))

/-- Whether the block goes on at the target of a static branch. -/
def follows (cfg : TraceConfig) (w : Flow) (before : List FetchedInstr) (f : FetchedInstr)
    (d : DecodedBranch) (target : U32) (hasBranched : Bool) : Bool :=
  let idle := d.cond.ult 0xE && target.ult f.addr && !target.ult w.lastSegmentStart
  let isBackJump := before.any fun g => g.addr = target
  !idle && hasBranched && !isBackJump && decide (before.length + 1 < cfg.maxBlockSize) &&
    (cfg.num != 0 || (!w.mayChangeExecutionPermission && target >>> 12 = cfg.blockAddr >>> 12))

/-- The block is lengthened by a static branch. -/
def followStatic (cfg : TraceConfig) (w : Flow) (f : FetchedInstr) (target : U32) : Flow :=
  { w with
    lr := if links cfg.thumb f then f.addr + 4 else w.lr
    hasLink := w.hasLink || links cfg.thumb f
    r15 := target + cfg.size
    nextInstrAddr := (target, target + cfg.size)
    lastSegmentStart := target
    endBlock := false }

/-- The branch optimisation, for the slot `f` behind the slots `before`. -/
def branch (cfg : TraceConfig) (w : Flow) (before : List FetchedInstr) (f : FetchedInstr)
    (s : TraceStep) : Flow :=
  if f.branches && cfg.branchOptimizations && cfg.thumb = s.thumb && f.kind != .svc then
    let hasBranched := s.r15 != w.r15
    let d := decodeBranch cfg.thumb f w.hasLink w.lr
    let w' :=
      match d.target with
      | some target =>
        if w.follows cfg before f d target hasBranched then w.followStatic cfg f target else w
      | none => w
    if !hasBranched && d.cond.ult 0xE && decide (before.length + 1 < cfg.maxBlockSize) then
      { w' with endBlock := false }
    else w'
  else w

/-- The ARM9 ends a trace at the border of the 4 KiB page it started in. -/
def leavesPage (cfg : TraceConfig) (w : Flow) : Bool :=
  cfg.num = 0 && (w.r15 - cfg.size) >>> 12 != cfg.blockAddr >>> 12

/-- The variables before the branch optimisation. -/
def filed (cfg : TraceConfig) (w : Flow) (s : TraceStep) : Flow :=
  { w.fetch cfg s with
    endBlock := s.endBlock || w.merges cfg s
    mayChangeExecutionPermission :=
      w.mayChangeExecutionPermission || permissionChange cfg (w.slot cfg s) }

/-- A turn the interpreter completed. -/
def turn (cfg : TraceConfig) (w : Flow) (s : TraceStep) : Flow :=
  let w' := (w.filed cfg s).branch cfg (w.slotsBefore cfg s) (w.slot cfg s) s
  { w' with
    instrs := w.slotsBefore cfg s ++ [w.slot cfg s]
    endBlock := w'.endBlock || w'.leavesPage cfg }

/-- The loop condition after a turn. -/
def continues (cfg : TraceConfig) (w : Flow) (s : TraceStep) : Bool :=
  !w.endBlock && decide (w.instrs.length < cfg.maxBlockSize) && !s.interrupted

end Flow

/-! ## The scratch arrays -/

structure Trace where
  flow : Flow
  instrValues : List U32
  table : RangeTable
  literalLoadAddrs : List U32
  writeAddrs : List U32
  accesses : List Access

namespace Trace

def start (cfg : TraceConfig) : Trace where
  flow := .start cfg
  instrValues := []
  table := RangeTable.start cfg.maxBlockSize
  literalLoadAddrs := []
  writeAddrs := []
  accesses := []

/-- What the head of the loop stores. -/
def fetch (cfg : TraceConfig) (t : Trace) (s : TraceStep) : Trace :=
  { t with
    instrValues := t.instrValues ++ [s.instr]
    table := t.table.touchInstr t.flow.instrs.isEmpty
      (cfg.localise (t.flow.fetched s).addr)
    accesses := t.accesses ++
      [.index .instrs t.flow.instrs.length, .index .instrValues t.instrValues.length] }

/-- A literal is folded, or a written address is kept. -/
def file (cfg : TraceConfig) (t : Trace) (s : TraceStep) : Trace :=
  if (t.flow.literalAddr cfg s).isSome then
    match t.flow.foldedLiteral cfg s with
    | some translatedAddr =>
      { t with
        table := t.table.touchLiteral translatedAddr
        literalLoadAddrs := t.literalLoadAddrs ++ [translatedAddr]
        accesses := t.accesses ++ [.index .literalLoadAddrs t.literalLoadAddrs.length] }
    | none => t
  else if s.specialKind = .writeMem then
    { t with
      writeAddrs := t.writeAddrs ++ [s.dataRegion]
      accesses := t.accesses ++ [.index .writeAddrs t.writeAddrs.length] }
  else t

def turn (cfg : TraceConfig) (t : Trace) (s : TraceStep) : Trace :=
  { file cfg (fetch cfg t s) s with flow := t.flow.turn cfg s }

/-- The loop, over what the guest presents. -/
def run (cfg : TraceConfig) (t : Trace) : List TraceStep → Trace
  | [] => t
  | s :: steps =>
    if s.abandoned then fetch cfg t s
    else if (t.flow.turn cfg s).continues cfg s then run cfg (turn cfg t s) steps
    else turn cfg t s

/-- Every use the trace makes of a scratch array. -/
def allAccesses (t : Trace) : List Access := t.accesses ++ t.table.accesses

end Trace

/-! ## The code a block takes -/

/-- The 512-byte lines of one turn: that of the opcode, and of the literal it folds. -/
def Flow.linesOf (cfg : TraceConfig) (w : Flow) (s : TraceStep) : Finset U32 :=
  insert (lineOf (cfg.localise w.nextInstrAddr.1))
    (if s.abandoned then ∅ else ((w.foldedLiteral cfg s).map lineOf).toFinset)

/-- The lines of a block, as far as the loop goes through the code presented. -/
def Flow.linesTaken (cfg : TraceConfig) (w : Flow) : List TraceStep → Finset U32
  | [] => ∅
  | s :: steps =>
    w.linesOf cfg s ∪
      (if !s.abandoned && (w.turn cfg s).continues cfg s then (w.turn cfg s).linesTaken cfg steps
        else ∅)


/-! ## When the arrays suffice -/

namespace Flow

variable {cfg : TraceConfig}

@[simp] theorem turn_instrs (w : Flow) (s : TraceStep) :
    (w.turn cfg s).instrs = w.slotsBefore cfg s ++ [w.slot cfg s] := rfl

theorem merges_spec {w : Flow} {s : TraceStep} (h : w.merges cfg s = true) :
    cfg.thumb = true ∧ ∃ init first, w.instrs = init ++ [first] ∧ first.kind = .blLong1 := by
  simp only [merges, Bool.and_eq_true, decide_eq_true_eq] at h
  obtain ⟨⟨⟨-, ht⟩, -⟩, hlast⟩ := h
  refine ⟨ht, ?_⟩
  rcases List.eq_nil_or_concat w.instrs with he | ⟨init, first, he⟩
  · simp [he] at hlast
  · exact ⟨init, first, by simpa using he, by simpa [he] using hlast⟩

/-- A lone `BL` prefix in the slots has the opcode the decoder table gives it. -/
def PrefixCoded (w : Flow) : Prop :=
  ∀ f ∈ w.instrs, f.kind = .blLong1 → f.instr.getLsbD 12 = true

theorem slot_of_merges {w : Flow} {s : TraceStep} (hw : w.PrefixCoded)
    (h : w.merges cfg s = true) :
    (w.slot cfg s).kind = .blLong ∧ (w.slot cfg s).instr.getLsbD 12 = true := by
  obtain ⟨-, init, first, he, hk⟩ := merges_spec h
  have hbit := hw first (by simp [he]) hk
  have hslot : w.slot cfg s =
      { first with
        instr := (first.instr &&& (0xFFFF : U32)) ||| (s.instr <<< 16)
        kind := .blLong
        branches := true } := by
    simp [slot, h, he]
  rw [hslot]
  refine ⟨rfl, ?_⟩
  have hmask : (0xFFFF : U32).getLsbD 12 = true := by decide
  rw [BitVec.getLsbD_or, BitVec.getLsbD_and, hbit, hmask]
  rfl

theorem branch_of_blLong (w : Flow) (before : List FetchedInstr) {f : FetchedInstr}
    (s : TraceStep) (ht : cfg.thumb = true) (hk : f.kind = .blLong)
    (hbit : f.instr.getLsbD 12 = true) : w.branch cfg before f s = w := by
  have hd : decodeBranch cfg.thumb f w.hasLink w.lr = ⟨0xE, none⟩ := by
    simp [decodeBranch, ht, hk, hbit]
  simp [branch, hd]

/-- The branch optimisation never follows a merged `BL`, so the block ends there. -/
theorem not_continues_of_merges {w : Flow} {s : TraceStep} (hw : w.PrefixCoded)
    (h : w.merges cfg s = true) : (w.turn cfg s).continues cfg s = false := by
  obtain ⟨hk, hbit⟩ := slot_of_merges hw h
  have hb := branch_of_blLong (w.filed cfg s) (w.slotsBefore cfg s) s (merges_spec h).1 hk hbit
  have hend : (w.turn cfg s).endBlock = true := by
    simp only [turn, hb]
    simp [filed, h]
  simp [continues, hend]

theorem instrs_of_not_merges {w : Flow} {s : TraceStep} (h : w.merges cfg s = false) :
    (w.turn cfg s).instrs = w.instrs ++ [w.fetched s] := by
  simp [slotsBefore, slot, h]

theorem prefixCoded_turn {w : Flow} {s : TraceStep} (hw : w.PrefixCoded)
    (h : w.merges cfg s = false) : (w.turn cfg s).PrefixCoded := by
  intro f hf hk
  rw [instrs_of_not_merges h, List.mem_append, List.mem_singleton] at hf
  rcases hf with hf | rfl
  · exact hw f hf hk
  · exact s.blLong1_instr hk

end Flow

namespace Trace

variable {cfg : TraceConfig}

/-- Filing takes one index at most, and adds the line of the literal it folds. -/
theorem file_spec {t : Trace} {s : TraceStep} (hm : cfg.maxBlockSize ≤ maxBlockSizeLimit)
    (hg : t.table.Good cfg.maxBlockSize)
    (hn : t.literalLoadAddrs.length + t.writeAddrs.length < maxBlockSizeLimit) :
    let u := file cfg t s
    u.table.Good cfg.maxBlockSize ∧
      u.table.lines = t.table.lines ∪ ((t.flow.foldedLiteral cfg s).map lineOf).toFinset ∧
      u.literalLoadAddrs.length + u.writeAddrs.length ≤
        t.literalLoadAddrs.length + t.writeAddrs.length + 1 ∧
      ((∀ a ∈ t.accesses, a.Safe) → ∀ a ∈ u.accesses, a.Safe) := by
  intro u
  change RangeTable.Good _ (file cfg t s).table ∧ (file cfg t s).table.lines = _ ∧
    (file cfg t s).literalLoadAddrs.length + (file cfg t s).writeAddrs.length ≤ _ ∧
    (_ → ∀ a ∈ (file cfg t s).accesses, a.Safe)
  unfold file
  cases hla : t.flow.literalAddr cfg s with
  | some addr =>
    simp only [Option.isSome_some, if_true]
    cases hfl : t.flow.foldedLiteral cfg s with
    | some translatedAddr =>
      obtain ⟨hg', hl'⟩ := hg.touchLiteral hm translatedAddr
      refine ⟨hg', ?_, ?_, fun hs => ?_⟩
      · rw [hl']
        simp
      · simp only [List.length_append, List.length_singleton]
        omega
      · rw [List.forall_mem_append, List.forall_mem_singleton]
        exact ⟨hs, by simp only [Access.Safe]; omega⟩
    | none => exact ⟨hg, by simp, Nat.le_succ _, id⟩
  | none =>
    have hfl : t.flow.foldedLiteral cfg s = none := by simp [Flow.foldedLiteral, hla]
    simp only [Option.isSome_none, Bool.false_eq_true, if_false, hfl]
    split_ifs with hw
    · refine ⟨hg, by simp, ?_, fun hs => ?_⟩
      · simp only [List.length_append, List.length_singleton]
        omega
      · rw [List.forall_mem_append, List.forall_mem_singleton]
        exact ⟨hs, by simp only [Access.Safe]; omega⟩
    · exact ⟨hg, by simp, Nat.le_succ _, id⟩

theorem file_instrValues (t : Trace) (s : TraceStep) :
    (file cfg t s).instrValues = t.instrValues := by
  unfold file
  split_ifs
  · split <;> rfl
  · rfl
  · rfl

/-- At the head of a turn no `BL` has been merged, so each slot stands for one
opcode and for at most one address filed. -/
structure Sound (cfg : TraceConfig) (t : Trace) : Prop where
  coded : t.flow.PrefixCoded
  values : t.instrValues.length = t.flow.instrs.length
  filed : t.literalLoadAddrs.length + t.writeAddrs.length ≤ t.flow.instrs.length
  listed : t.flow.instrs ≠ [] → 0 < t.table.numAddressRanges
  good : t.table.Good cfg.maxBlockSize
  safe : ∀ a ∈ t.accesses, a.Safe

theorem sound_start (cfg : TraceConfig) : (start cfg).Sound cfg where
  coded := fun _ hf => absurd hf List.not_mem_nil
  values := rfl
  filed := le_rfl
  listed := fun h => absurd rfl h
  good := RangeTable.good_start _
  safe := fun _ ha => absurd ha List.not_mem_nil

/-- Where the other arrays are used safely, all are exactly if the lines fit. -/
theorem allAccesses_safe_iff {t : Trace} (hg : t.table.Good cfg.maxBlockSize)
    (hs : ∀ a ∈ t.accesses, a.Safe) :
    (∀ a ∈ t.allAccesses, a.Safe) ↔ t.table.lines.card ≤ cfg.maxBlockSize := by
  rw [allAccesses, List.forall_mem_append, hg.safe, hg.card_lines]
  exact and_iff_right hs

section Turn
variable {t : Trace} (h : t.Sound cfg) (hm : cfg.maxBlockSize ≤ maxBlockSizeLimit)
include h hm

theorem Sound.fetch_table (s : TraceStep) :
    (fetch cfg t s).table.Good cfg.maxBlockSize ∧
      (fetch cfg t s).table.lines =
        insert (lineOf (cfg.localise t.flow.nextInstrAddr.1)) t.table.lines := by
  have hfirst : t.flow.instrs.isEmpty = false → 0 < t.table.numAddressRanges := fun he =>
    h.listed (by simpa using he)
  exact h.good.touchInstr hm hfirst _

theorem Sound.fetch_safe (hslot : t.flow.instrs.length < cfg.maxBlockSize) (s : TraceStep) :
    ∀ a ∈ (fetch cfg t s).accesses, a.Safe := by
  have hi := hslot.trans_le hm
  rw [fetch, List.forall_mem_append]
  refine ⟨h.safe, ?_⟩
  simp only [List.mem_cons, List.not_mem_nil, or_false, forall_eq_or_imp, forall_eq, Access.Safe,
    h.values]
  exact ⟨hi, hi⟩

theorem Sound.turn_spec (hslot : t.flow.instrs.length < cfg.maxBlockSize) {s : TraceStep}
    (ha : s.abandoned = false) :
    (turn cfg t s).table.Good cfg.maxBlockSize ∧
      (turn cfg t s).table.lines = t.table.lines ∪ t.flow.linesOf cfg s ∧
      (∀ a ∈ (turn cfg t s).accesses, a.Safe) ∧
      ((t.flow.turn cfg s).continues cfg s = true → (turn cfg t s).Sound cfg) := by
  obtain ⟨hg, hl⟩ := h.fetch_table hm s
  have hn : t.literalLoadAddrs.length + t.writeAddrs.length < maxBlockSizeLimit :=
    (h.filed.trans_lt hslot).trans_le hm
  obtain ⟨hg', hl', hn', hs'⟩ := file_spec (s := s) (t := fetch cfg t s) hm hg hn
  have hlines : (turn cfg t s).table.lines = t.table.lines ∪ t.flow.linesOf cfg s := by
    change (file cfg (fetch cfg t s) s).table.lines = _
    rw [hl', hl, Flow.linesOf, ha, if_neg Bool.false_ne_true, Finset.union_insert,
      Finset.insert_union]
    rfl
  refine ⟨hg', hlines, hs' (h.fetch_safe hm hslot s), fun hc => ?_⟩
  have hmerge : t.flow.merges cfg s = false := by
    by_contra hne
    rw [Bool.not_eq_false] at hne
    rw [Flow.not_continues_of_merges h.coded hne] at hc
    exact Bool.false_ne_true hc
  have hlength : (turn cfg t s).flow.instrs.length = t.flow.instrs.length + 1 := by
    change (t.flow.turn cfg s).instrs.length = _
    rw [Flow.instrs_of_not_merges hmerge, List.length_append, List.length_singleton]
  refine ⟨Flow.prefixCoded_turn h.coded hmerge, ?_, ?_, fun _ => ?_, hg',
    hs' (h.fetch_safe hm hslot s)⟩
  · change (file cfg (fetch cfg t s) s).instrValues.length = _
    rw [hlength, file_instrValues, fetch, List.length_append, h.values, List.length_singleton]
  · rw [hlength]
    exact hn'.trans (Nat.succ_le_succ h.filed)
  · change 0 < (file cfg (fetch cfg t s) s).table.numAddressRanges
    rw [← hg'.card_lines]
    refine Finset.card_pos.mpr ⟨lineOf (cfg.localise t.flow.nextInstrAddr.1), ?_⟩
    change _ ∈ (turn cfg t s).table.lines
    rw [hlines]
    exact Finset.mem_union_right _ (Finset.mem_insert_self _ _)

end Turn

/-- The table of a trace has the lines of the code taken, and apart from it the
arrays are used safely. -/
theorem Sound.run (hm : cfg.maxBlockSize ≤ maxBlockSizeLimit) (steps : List TraceStep)
    {t : Trace} (h : t.Sound cfg) (hslot : t.flow.instrs.length < cfg.maxBlockSize) :
    (run cfg t steps).table.Good cfg.maxBlockSize ∧
      (run cfg t steps).table.lines = t.table.lines ∪ t.flow.linesTaken cfg steps ∧
      ∀ a ∈ (run cfg t steps).accesses, a.Safe := by
  induction steps generalizing t with
  | nil =>
    rw [Flow.linesTaken, Finset.union_empty]
    exact ⟨h.good, rfl, h.safe⟩
  | cons s steps ih =>
    by_cases ha : s.abandoned = true
    · obtain ⟨hg, hl⟩ := h.fetch_table hm s
      have hlines : t.table.lines ∪ t.flow.linesTaken cfg (s :: steps) =
          (fetch cfg t s).table.lines := by
        simp [Flow.linesTaken, Flow.linesOf, ha, hl]
      rw [hlines]
      simp only [Trace.run, ha, if_true]
      exact ⟨hg, trivial, h.fetch_safe hm hslot s⟩
    · rw [Bool.not_eq_true] at ha
      obtain ⟨hg, hl, hs, hnext⟩ := h.turn_spec hm hslot ha
      by_cases hc : (t.flow.turn cfg s).continues cfg s = true
      · have hlines : t.table.lines ∪ t.flow.linesTaken cfg (s :: steps) =
            (turn cfg t s).table.lines ∪ (turn cfg t s).flow.linesTaken cfg steps := by
          rw [hl, Flow.linesTaken, ha, hc, ← Finset.union_assoc]
          rfl
        have hlt : (turn cfg t s).flow.instrs.length < cfg.maxBlockSize := by
          simp only [Flow.continues, Bool.and_eq_true, decide_eq_true_eq] at hc
          exact hc.1.2
        rw [hlines]
        simp only [Trace.run, ha, hc, if_true, Bool.false_eq_true, if_false]
        exact ih (hnext hc) hlt
      · have hlines : t.table.lines ∪ t.flow.linesTaken cfg (s :: steps) =
            (turn cfg t s).table.lines := by
          simp [Flow.linesTaken, hc, hl]
        rw [hlines]
        simp only [Trace.run, ha, hc, Bool.false_eq_true, if_false]
        exact ⟨hg, trivial, hs⟩

theorem run_table (cfg : TraceConfig) (hpos : 0 < cfg.maxBlockSize)
    (hm : cfg.maxBlockSize ≤ maxBlockSizeLimit) (steps : List TraceStep) :
    (run cfg (start cfg) steps).table.Good cfg.maxBlockSize ∧
      (run cfg (start cfg) steps).table.lines = (Flow.start cfg).linesTaken cfg steps ∧
      ∀ a ∈ (run cfg (start cfg) steps).accesses, a.Safe := by
  have h := (sound_start cfg).run hm steps hpos
  rwa [start, RangeTable.lines_start, Finset.empty_union] at h

/-- Every use of a scratch array is in bounds, and every mask ORed into was
cleared by the call, exactly when the opcodes of the block and the literals it
folds lie in at most `MaxBlockSize` lines of 512 bytes. -/
theorem run_safe_iff (cfg : TraceConfig) (hpos : 0 < cfg.maxBlockSize)
    (hm : cfg.maxBlockSize ≤ maxBlockSizeLimit) (steps : List TraceStep) :
    (∀ a ∈ (run cfg (start cfg) steps).allAccesses, a.Safe) ↔
      ((Flow.start cfg).linesTaken cfg steps).card ≤ cfg.maxBlockSize := by
  obtain ⟨hg, hl, hs⟩ := run_table cfg hpos hm steps
  rw [← hl]
  exact allAccesses_safe_iff hg hs

/-- Both optimisations on, the ARM9's main RAM as the only code memory. -/
def mainRAMConfig (maxBlockSize : ℕ) : TraceConfig where
  num := 0
  thumb := false
  blockAddr := 0x02000000
  maxBlockSize := maxBlockSize
  literalOptimizations := true
  branchOptimizations := true
  localise := fun addr => if addr >>> 24 = 2 then (addr &&& 0x3FFFFF) ||| 0x20000000 else 0

/-- `LDR R0, [PC, #0x300]`. -/
def farLiteral : TraceStep where
  instr := 0xE59F0300
  kind := .ldrImm
  specialKind := .loadLiteral
  branches := false
  writesLink := false
  endBlock := false
  kind_ne := by decide
  blLong1_instr := by decide
  abandoned := false
  dataRegion := 0
  invalidLiterals := []
  r15 := 0x02000008
  thumb := false
  interrupted := false

/-- With blocks of one instruction, the literal's mask is one that was not cleared. -/
theorem run_farLiteral_unsafe :
    ¬ ∀ a ∈ (run (mainRAMConfig 1) (start (mainRAMConfig 1)) [farLiteral]).allAccesses,
      a.Safe := by
  decide +kernel

theorem run_safe_farLiteral :
    (∀ a ∈ (run (mainRAMConfig 1) (start (mainRAMConfig 1)) [farLiteral]).allAccesses, a.Safe) ↔
      ((Flow.start (mainRAMConfig 1)).linesTaken (mainRAMConfig 1) [farLiteral]).card ≤ 1 :=
  run_safe_iff (mainRAMConfig 1) (by decide) (by decide) [farLiteral]

end Trace
end MelonDS.ARMJIT

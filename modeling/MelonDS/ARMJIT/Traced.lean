import MelonDS.ARMJIT.BlockIndex
import MelonDS.ARMJIT.Trace

/-!
# From the trace to the block

What `CompileBlock` publishes of a trace: the lines it collected with their masks,
the literals it folded, the hash of its opcodes, and whether it left the windows
that the entry lookup checks.
-/

namespace MelonDS.ARMJIT

/-- How far the mapping of a region can change from one window to the next: `SharedWRAM`,
`WRAM7` and the three NWRAM banks. -/
def windowShift (region : U32) : ℕ :=
  match region.toNat with
  | 5 => 14
  | 15 => 16
  | 9 | 16 | 17 => 15
  | _ => 0

namespace Flow

/-- The opcode is in another window than the start of the block. -/
def crossesWindow (cfg : TraceConfig) (w : Flow) : Bool :=
  let addr := w.nextInstrAddr.1
  let region := cfg.localise addr >>> 27
  let shift := windowShift region
  shift != 0 && (region != cfg.localise cfg.blockAddr >>> 27 || addr >>> shift != cfg.blockAddr >>> shift)

/-- `hasRemapDependency`, over the turns `linesTaken` takes. -/
def remapDependency (cfg : TraceConfig) (w : Flow) : List TraceStep → Bool
  | [] => false
  | s :: steps =>
    w.crossesWindow cfg ||
      (!s.abandoned && (w.turn cfg s).continues cfg s && (w.turn cfg s).remapDependency cfg steps)

theorem aligned_linesTaken (cfg : TraceConfig) (steps : List TraceStep) (w : Flow) {line : U32}
    (h : line ∈ w.linesTaken cfg steps) : ∃ addr, line = lineOf addr := by
  induction steps generalizing w with
  | nil => exact absurd h (Finset.notMem_empty _)
  | cons s steps ih =>
    rw [linesTaken, Finset.mem_union, linesOf, Finset.mem_insert] at h
    rcases h with (h | h) | h
    · exact ⟨_, h⟩
    · split_ifs at h
      · exact absurd h (Finset.notMem_empty _)
      · rw [Option.mem_toFinset] at h
        obtain ⟨addr, -, haddr⟩ := Option.mem_map.mp h
        exact ⟨addr, haddr.symm⟩
    · split_ifs at h
      · exact ih _ h
      · exact absurd h (Finset.notMem_empty _)

end Flow

/-- The two arrays side by side. -/
def RangeTable.addresses (r : RangeTable) : List (U32 × U32) :=
  (List.range r.numAddressRanges).map fun i => (r.addressRanges i, (r.addressMasks i).getD 0)

theorem RangeTable.addresses_lines (r : RangeTable) :
    r.addresses.map Prod.fst = (List.range r.numAddressRanges).map r.addressRanges := by
  rw [RangeTable.addresses, List.map_map]
  rfl

theorem RangeTable.Good.distinct_addresses {m : ℕ} {r : RangeTable} (h : r.Good m) :
    (r.addresses.map Prod.fst).Nodup := by
  rw [r.addresses_lines]
  refine List.Nodup.map_on ?_ List.nodup_range
  intro i hi j hj he
  exact h.distinct (Finset.mem_range.mpr (List.mem_range.mp hi))
    (Finset.mem_range.mpr (List.mem_range.mp hj)) he

/-- The block of a trace over the opcodes the guest presents. `hash` stands for XXH3,
and the literals are read when they are folded. -/
def Traced.ofTrace (hash : List U32 → U64) (cfg : TraceConfig) (hpos : 0 < cfg.maxBlockSize)
    (hm : cfg.maxBlockSize ≤ maxBlockSizeLimit) (steps : List TraceStep) (literalValues : List U32)
    (entryPoint : U32) (cacheFull : Bool) : Traced where
  addresses := (Trace.run cfg (Trace.start cfg) steps).table.addresses
  literals := (Trace.run cfg (Trace.start cfg) steps).literalLoadAddrs
  writeAddrs := (Trace.run cfg (Trace.start cfg) steps).writeAddrs.map cfg.localise
  instrHash := hash (Trace.run cfg (Trace.start cfg) steps).instrValues
  literalHash := hash literalValues
  hasRemapDependency := (Flow.start cfg).remapDependency cfg steps
  entryPoint := entryPoint
  cacheFull := cacheFull
  distinct := (Trace.run_table cfg hpos hm steps).1.distinct_addresses
  aligned := by
    intro line hline
    obtain ⟨-, hlines, -⟩ := Trace.run_table cfg hpos hm steps
    rw [RangeTable.addresses_lines, List.mem_map] at hline
    obtain ⟨i, hi, rfl⟩ := hline
    have hmem := RangeTable.mem_lines (List.mem_range.mp hi)
    rw [hlines] at hmem
    obtain ⟨addr, haddr⟩ := Flow.aligned_linesTaken cfg steps _ hmem
    rw [haddr, lineOf, lineOf, BitVec.and_assoc, BitVec.and_self]

/-! ## Two windows that change places -/

/-- An ARM7 with two 32 KiB windows of NWRAM B; `swapped` is the other way round. -/
def twoWindows (swapped : Bool) : TraceConfig where
  num := 1
  thumb := false
  blockAddr := 0x03000000
  maxBlockSize := 32
  literalOptimizations := true
  branchOptimizations := true
  localise := fun addr =>
    if addr >>> 16 = 0x0300 then
      (if swapped then addr ^^^ 0x8000 else addr) &&& 0xFFFF ||| 0x80000000
    else 0

/-- An opcode that touches nothing but the flow. -/
def flowStep (instr : U32) (kind : InstrKind) (hne : kind ≠ .blLong) (hcoded : kind ≠ .blLong1)
    (r15 : U32) : TraceStep where
  instr := instr
  kind := kind
  specialKind := .notSpecialAtAll
  branches := true
  writesLink := false
  endBlock := true
  kind_ne := hne
  blLong1_instr := fun h => absurd h hcoded
  abandoned := false
  dataRegion := 0
  invalidLiterals := []
  r15 := r15
  thumb := false
  interrupted := false

/-- Both windows hold `B` to the second opcode of the second window, `BNE` to the third
of the first, and `BX LR`. Only the outcome of the `BNE` differs. -/
def windowSteps (taken : Bool) : List TraceStep :=
  [flowStep 0xEA001FFF .b (by decide) (by decide) 0x03008008,
    flowStep 0x1AFFDFFF .b (by decide) (by decide) (if taken then 0x0300000C else 0x0300800C),
    flowStep 0xE12FFF1E .bx (by decide) (by decide) 0x03800000]

def windowTrace (hash : List U32 → U64) (swapped : Bool) : Traced :=
  .ofTrace hash (twoWindows swapped) (Nat.succ_pos 31) le_rfl (windowSteps swapped) [] 0x40 false

end MelonDS.ARMJIT

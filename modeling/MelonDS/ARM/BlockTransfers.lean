import MelonDS.ARM.DataAborts
import MelonDS.ARM.LoadStore

/-!
# What block transfers access

A block transfer accesses consecutive words, the lowest register at the lowest address. `Block`
is the instruction as the architecture describes it; the functions of the interpreter are compared
with it. A store of the base register that is not the lowest of the list goes wrong on the ARM7,
and a pop of the program counter loses the stack pointer when the jump aborts.
-/

namespace MelonDS.ARM

variable {σ : Type*}

/-! ## Consecutive words -/

section
variable (core : Core σ)

def readAll : U32 → ℕ → σ → List U32 × σ
  | _, 0, s => ([], s)
  | addr, k + 1, s =>
    let (v, s) := core.read32 (addr &&& ~~~3) s
    let (vs, s) := readAll (addr + 4) k s
    (v :: vs, s)

def writeAll : U32 → List U32 → σ → σ
  | _, [], s => s
  | addr, v :: vs, s => writeAll (addr + 4) vs (core.write32 (addr &&& ~~~3) v s)

/-- The word `i` places behind `addr`. -/
def wordAt (addr : U32) (i : ℕ) : U32 := addr + 4 * BitVec.ofNat 32 i

/-- Each word may be read when it is its turn. -/
def Readable (s : σ) (addr : U32) (k : ℕ) : Prop :=
  core.num = .arm9 → ∀ i < k, core.readable (readAll core addr i s).2 (page (wordAt addr i)) = true

/-- Each word may be written when it is its turn, whatever has been written before it. -/
def Writable (s : σ) (addr : U32) (k : ℕ) : Prop :=
  core.num = .arm9 → ∀ vs : List U32, vs.length < k →
    core.writable (writeAll core addr vs s) (page (wordAt addr vs.length)) = true

end

inductive WordAccess
  | read (addr v : U32)
  | write (addr v : U32)
deriving DecidableEq

/-- A core that keeps a record of its accesses. -/
def logged (core : Core σ) : Core (σ × List WordAccess) where
  num := core.num
  readable s := core.readable s.1
  writable s := core.writable s.1
  executable s := core.executable s.1
  selectMap user s := (core.selectMap user s.1, s.2)
  read32 addr s :=
    let (v, b) := core.read32 addr s.1
    (v, b, s.2 ++ [.read addr v])
  write32 addr v s := (core.write32 addr v s.1, s.2 ++ [.write addr v])
  runCheats s := (core.runCheats s.1, s.2)

/-! ## The architecture's block transfer -/

structure Block where
  /-- Lowest first. -/
  regs : List (Fin 16)
  rn : Fin 16
  up : Bool
  pre : Bool
  writeback : Bool
  /-- The registers are those of the user bank. -/
  user : Bool

namespace Block

def size (b : Block) : U32 := 4 * BitVec.ofNat 32 b.regs.length

/-- The address of the lowest register. -/
def lowest (b : Block) (base : U32) : U32 :=
  match b.up, b.pre with
  | true, false => base
  | true, true => base + 4
  | false, false => base - b.size + 4
  | false, true => base - b.size

/-- The base that is written back. -/
def newBase (b : Block) (base : U32) : U32 := if b.up then base + b.size else base - b.size

def cell (b : Block) (psr : U32) (i : Fin 16) : Cell :=
  if b.user then userTransferReg psr i else .r i

/-- The registers with the words in them; the program counter is left to the jump. -/
def fill (b : Block) (psr : U32) (cells : Cell → U32) (words : List (Fin 16 × U32)) : Cell → U32 :=
  words.foldl (fun cells w => if w.1 = 15 then cells else Function.update cells (b.cell psr w.1) w.2)
    cells

/-- A load; `overwrite` tells whether a base that is in the list is written back over. -/
def load (b : Block) (core : Core σ) (overwrite : Bool) (c : CPU σ) : CPU σ :=
  let base := c.reg b.rn
  let (vs, bus) := readAll core (b.lowest base) b.regs.length c.bus
  let d := { c with cells := b.fill c.cpsr c.cells (b.regs.zip vs), bus := bus }
  if b.writeback ∧ (b.rn ∉ b.regs ∨ overwrite) then d.setReg b.rn (b.newBase base) else d

/-- The word loaded for the program counter, the highest register. -/
def loadedPC (b : Block) (core : Core σ) (c : CPU σ) : U32 :=
  (readAll core (b.lowest (c.reg b.rn)) b.regs.length c.bus).1.getLastD 0

/-- What is stored for a register: its own value. The ARM7 has its program counter four bytes
further on. -/
def value (b : Block) (num : Num) (c : CPU σ) (i : Fin 16) : U32 :=
  c.get (b.cell c.cpsr i) + if i = 15 ∧ num = .arm7 then 4 else 0

def store (b : Block) (core : Core σ) (c : CPU σ) : CPU σ :=
  let base := c.reg b.rn
  let d := { c with bus := writeAll core (b.lowest base) (b.regs.map (b.value core.num c)) c.bus }
  if b.writeback then d.setReg b.rn (b.newBase base) else d

end Block

/-! ## The instructions -/

inductive BlockOp
  | ldm | stm | push | pop | stmia | ldmia
deriving DecidableEq

namespace BlockOp
variable (core : Core σ) (instr : U32)

def run : BlockOp → CPU σ → CPU σ
  | .ldm, c => aLDM core instr c
  | .stm, c => aSTM core instr c
  | .push, c => (tPUSH instr core c).2
  | .pop, c => (tPOP instr core c).2
  | .stmia, c => (tSTMIA instr core c).2
  | .ldmia, c => (tLDMIA instr core c).2

def block : BlockOp → Block
  | .ldm => ⟨regList instr, baseId instr, instr.getLsbD 23, instr.getLsbD 24, instr.getLsbD 21,
      instr.getLsbD 22 && !instr.getLsbD 15⟩
  | .stm => ⟨regList instr, baseId instr, instr.getLsbD 23, instr.getLsbD 24, instr.getLsbD 21,
      instr.getLsbD 22⟩
  | .push => ⟨lowList instr ++ if instr.getLsbD 8 then [14] else [], 13, false, true, true, false⟩
  | .pop => ⟨lowList instr ++ if instr.getLsbD 8 then [15] else [], 13, true, false, true, false⟩
  | .stmia | .ldmia => ⟨lowList instr, low instr 8, true, false, true, false⟩

def loads : BlockOp → Bool
  | .ldm | .pop | .ldmia => true
  | _ => false

/-- What the instruction does, by the architecture. -/
def spec (op : BlockOp) (c : CPU σ) : CPU σ :=
  let b := op.block instr
  match op with
  | .stm | .push | .stmia => b.store core c
  | .ldmia => b.load core false c
  | .pop =>
    let d := b.load core false c
    if instr.getLsbD 8 then
      let pc := b.loadedPC core c
      jumpTo core (if core.num = .arm7 then pc ||| 1 else pc) false d
    else d
  | .ldm =>
    let d := b.load core (core.num = .arm9 ∧ overwritesLoadedBase instr) c
    if instr.getLsbD 15 then
      let pc := b.loadedPC core c
      jumpTo core (if core.num = .arm7 then pc &&& ~~~1 else pc) (instr.getLsbD 22) d
    else d

/-- No access of the instruction aborts. -/
def Permitted (op : BlockOp) (c : CPU σ) : Prop :=
  let b := op.block instr
  if op.loads then Readable core c.bus (b.lowest (c.reg b.rn)) b.regs.length
  else Writable core c.bus (b.lowest (c.reg b.rn)) b.regs.length

/-- The base register is stored as it was: always on the ARM9, and on the ARM7 where it is the
lowest of the list, or its slot lies at the base. -/
def StoresBase (b : Block) (c : CPU σ) : Prop :=
  core.num = .arm9 ∨ b.rn ∉ b.regs ∨ isBanked instr c.cpsr = true ∨
    if ∀ i ∈ b.regs, b.rn ≤ i then b.rn ≠ 15
    else wordAt (b.lowest (c.reg b.rn)) (b.regs.idxOf b.rn) = b.value core.num c b.rn

/-- The jump of a pop does not abort, or aborts within the abort mode. -/
def JumpsFirst (b : Block) (c : CPU σ) : Prop :=
  let pc := b.loadedPC core c
  core.num = .arm7 ∨
    core.executable (readAll core (b.lowest (c.reg b.rn)) b.regs.length c.bus).2
      (page (jumpTarget pc)) = true ∨ c.cpsr &&& 0x1F = 0x17

/-- Where the interpreter does what the architecture asks. -/
def Exact (op : BlockOp) (c : CPU σ) : Prop :=
  match op with
  | .stm => StoresBase core instr (op.block instr) c
  | .pop => instr.getLsbD 8 = true → JumpsFirst core (op.block instr) c
  | _ => True

end BlockOp

/-!
## Block transfers are those of the architecture

The loops of the interpreter access consecutive words, whatever the addressing mode. On plain
memory a load gives back what the complementary store has put there.
-/

variable {core : Core σ} {instr : U32} {c : CPU σ}

/-! ## Addresses -/

theorem wordAt_zero (addr : U32) : wordAt addr 0 = addr := by
  rw [wordAt]
  exact BitVec.add_zero addr

theorem wordAt_succ (addr : U32) (i : ℕ) : wordAt addr (i + 1) = wordAt (addr + 4) i := by
  rw [wordAt, wordAt, BitVec.ofNat_add, BitVec.mul_add, BitVec.add_comm (4 * BitVec.ofNat 32 i),
    ← BitVec.add_assoc]
  rfl

theorem Readable.head {s : σ} {addr : U32} {k : ℕ} (h : Readable core s addr (k + 1)) :
    core.num = .arm9 → core.readable s (page addr) = true :=
  fun h9 => wordAt_zero addr ▸ h h9 0 (Nat.succ_pos k)

theorem Readable.tail {s : σ} {addr : U32} {k : ℕ} (h : Readable core s addr (k + 1)) :
    Readable core (core.read32 (addr &&& ~~~3) s).2 (addr + 4) k :=
  fun h9 i hi => wordAt_succ addr i ▸ h h9 (i + 1) (Nat.succ_lt_succ hi)

theorem Readable.mono {s : σ} {addr : U32} {k n : ℕ} (h : Readable core s addr n) (hk : k ≤ n) :
    Readable core s addr k :=
  fun h9 i hi => h h9 i (lt_of_lt_of_le hi hk)

theorem Writable.head {s : σ} {addr : U32} {k : ℕ} (h : Writable core s addr (k + 1)) :
    core.num = .arm9 → core.writable s (page addr) = true :=
  fun h9 => wordAt_zero addr ▸ h h9 [] (Nat.succ_pos k)

theorem Writable.tail {s : σ} {addr : U32} {k : ℕ} (h : Writable core s addr (k + 1)) (v : U32) :
    Writable core (core.write32 (addr &&& ~~~3) v s) (addr + 4) k :=
  fun h9 vs hvs => wordAt_succ addr vs.length ▸ h h9 (v :: vs) (Nat.succ_lt_succ hvs)

theorem Writable.mono {s : σ} {addr : U32} {k n : ℕ} (h : Writable core s addr n) (hk : k ≤ n) :
    Writable core s addr k :=
  fun h9 vs hvs => h h9 vs (lt_of_lt_of_le hvs hk)

theorem dataRead32_ok {addr : U32} (h : core.num = .arm9 → core.readable c.bus (page addr) = true) :
    dataRead32 core addr c = (some (core.read32 (addr &&& ~~~3) c.bus).1,
      { c with bus := (core.read32 (addr &&& ~~~3) c.bus).2 }) := by
  rw [dataRead32, if_neg fun hno => by simp [h hno.1] at hno]

theorem writeWord_ok {addr v : U32}
    (h : core.num = .arm9 → core.writable c.bus (page addr) = true) :
    writeWord core addr v c = (some (), { c with bus := core.write32 (addr &&& ~~~3) v c.bus }) := by
  rw [writeWord, dataWrite32, if_neg fun hno => by simp [h hno.1] at hno]

theorem length_readAll (addr : U32) (k : ℕ) (s : σ) : (readAll core addr k s).1.length = k := by
  induction k generalizing addr s with
  | zero => rfl
  | succ k ih => exact congrArg (· + 1) (ih _ _)

/-! ## Loads -/

/-- What the loop of a load leaves. -/
theorem loadRegs_spec (b : Block) (preinc : Bool) {regs : List (Fin 16)} (hpc : 15 ∉ regs)
    (base : U32) (c : CPU σ)
    (h : Readable core c.bus (if preinc then base + 4 else base) regs.length) :
    loadRegs core preinc b.user regs base c =
      (some (base + 4 * BitVec.ofNat 32 regs.length),
        { c with
          cells := b.fill c.cpsr c.cells (regs.zip
            (readAll core (if preinc then base + 4 else base) regs.length c.bus).1)
          bus := (readAll core (if preinc then base + 4 else base) regs.length c.bus).2 }) := by
  induction regs generalizing base c with
  | nil => simp [loadRegs, readAll, Block.fill]
  | cons i regs ih =>
    have hi : i ≠ 15 := fun h => hpc (h ▸ List.mem_cons_self)
    have hrest : 15 ∉ regs := fun h => hpc (List.mem_cons_of_mem i h)
    have hbase : (if preinc then (if preinc then base + 4 else base)
        else (if preinc then base + 4 else base) + 4) = base + 4 := by
      cases preinc <;> rfl
    have haddr : (if preinc then base + 4 + 4 else base + 4) =
        (if preinc then base + 4 else base) + 4 := by
      cases preinc <;> rfl
    have hsum : base + 4 + 4 * BitVec.ofNat 32 regs.length =
        base + 4 * BitVec.ofNat 32 (regs.length + 1) := (wordAt_succ base regs.length).symm
    rw [loadRegs_cons]
    dsimp only
    rw [Transfer.andThen, readWord, dataRead32_ok h.head]
    dsimp only
    rw [hbase, ih hrest _ _ (haddr ▸ h.tail), haddr, hsum]
    refine Prod.ext rfl ?_
    have hfill : b.fill c.cpsr c.cells ((i :: regs).zip (readAll core
        (if preinc then base + 4 else base) (i :: regs).length c.bus).1) =
        b.fill c.cpsr (Function.update c.cells (b.cell c.cpsr i)
          (core.read32 ((if preinc then base + 4 else base) &&& ~~~3) c.bus).1)
          (regs.zip (readAll core ((if preinc then base + 4 else base) + 4) regs.length
            (core.read32 ((if preinc then base + 4 else base) &&& ~~~3) c.bus).2).1) := by
      change List.foldl _ (if i = 15 then c.cells else _) _ = _
      rw [if_neg hi]
      rfl
    dsimp only
    rw [hfill]
    rfl

theorem readAll_succ (addr : U32) (k : ℕ) (s : σ) : readAll core addr (k + 1) s =
    ((readAll core addr k s).1 ++ [(core.read32 (wordAt addr k &&& ~~~3) (readAll core addr k s).2).1],
      (core.read32 (wordAt addr k &&& ~~~3) (readAll core addr k s).2).2) := by
  induction k generalizing addr s with
  | zero =>
    rw [wordAt_zero]
    rfl
  | succ k ih =>
    rw [readAll, wordAt_succ]
    dsimp only
    rw [ih]
    rfl

theorem mem_regList (i : Fin 16) : i ∈ regList instr ↔ instr.getLsbD i = true := by
  rw [regList, List.mem_filter]
  exact and_iff_right (List.mem_finRange i)

/-- The program counter comes last. -/
theorem regList_eq : regList instr =
    (regList instr).filter (· ≠ 15) ++ if instr.getLsbD 15 then [15] else [] := by
  have hsplit : List.finRange 16 = (List.finRange 16).filter (· ≠ 15) ++ [15] := by decide
  rw [regList, List.filter_filter]
  conv => lhs; rw [hsplit]
  rw [List.filter_append, List.filter_filter]
  congr 1
  · exact List.filter_congr fun i _ => Bool.and_comm _ _
  · rw [List.filter_cons, List.filter_nil]
    rfl

theorem regList_ne_nil (h : regList instr ≠ []) : instr &&& 0xFFFF ≠ 0 := by
  intro hzero
  refine h (List.eq_nil_iff_forall_not_mem.mpr fun i hi => ?_)
  have hbit := congrArg (fun x : U32 => x.getLsbD i) hzero
  rw [mem_regList] at hi
  have hmask (j : Fin 16) : (0xFFFF : U32).getLsbD j = true := by
    revert j
    decide
  change (instr &&& 0xFFFF).getLsbD i = (0#32).getLsbD i at hbit
  rw [BitVec.getLsbD_and, hi, hmask, BitVec.getLsbD_zero] at hbit
  cases hbit

/-! ### `A_LDM` -/

section
variable {b : Block}

/-- The first address of a loop that steps upwards, whichever way the instruction does. -/
theorem first_eq_lowest (b : Block) (base : U32) :
    (if (if b.up then b.pre else !b.pre) = true
      then (if b.up then base else base - b.size) + 4 else if b.up then base else base - b.size) =
      b.lowest base := by
  rw [Block.lowest]
  cases b.up <;> cases b.pre <;> rfl

/-- The base behind a loop, for the instructions that write it back. -/
theorem end_eq_newBase (b : Block) (base : U32) :
    (if b.up then (if b.up then base else base - b.size) + b.size
      else if b.up then base else base - b.size) = b.newBase base := by
  rw [Block.newBase]
  cases b.up <;> rfl

theorem fill_append (b : Block) (psr : U32) (cells : Cell → U32) (xs : List (Fin 16 × U32))
    (v : U32) : b.fill psr cells (xs ++ [(15, v)]) = b.fill psr cells xs := by
  rw [Block.fill, List.foldl_append]
  rfl

end

/-- The conditions of the writeback, one after the other. -/
theorem writeback_iff {α : Type*} (p q r : Prop) [Decidable p] [Decidable q] [Decidable r]
    (x y : α) : (if p then if q then if r then x else y else x else y) =
      if p ∧ (¬q ∨ r) then x else y := by
  by_cases hp : p <;> by_cases hq : q <;> by_cases hr : r <;> simp [hp, hq, hr]

/-- The state behind the loop of a load, with the words of the list. -/
def looped (core : Core σ) (b : Block) (regs : List (Fin 16)) (c : CPU σ) : CPU σ :=
  { c with
    cells := b.fill c.cpsr c.cells (regs.zip
      (readAll core (b.lowest (c.reg b.rn)) regs.length c.bus).1)
    bus := (readAll core (b.lowest (c.reg b.rn)) regs.length c.bus).2 }

/-- With the program counter at the end of the list its word is read behind the loop. -/
theorem looped_pc (b : Block) (regs : List (Fin 16)) (c : CPU σ) :
    looped core b (regs ++ [15]) c =
      { looped core b regs c with
        bus := (core.read32 (wordAt (b.lowest (c.reg b.rn)) regs.length &&& ~~~3)
          (looped core b regs c).bus).2 } := by
  have hlength := @length_readAll _ core (b.lowest (c.reg b.rn)) regs.length c.bus
  rw [looped, List.length_append, List.length_singleton, readAll_succ,
    List.zip_append hlength.symm, List.zip_cons_cons, List.zip_nil_right, fill_append]
  rfl

theorem loadedPC_append {b : Block} {regs : List (Fin 16)} (hregs : b.regs = regs ++ [15])
    (c : CPU σ) : b.loadedPC core c =
      (core.read32 (wordAt (b.lowest (c.reg b.rn)) regs.length &&& ~~~3)
        (looped core b regs c).bus).1 := by
  rw [Block.loadedPC, hregs, List.length_append, List.length_singleton, readAll_succ,
    List.getLastD_concat]
  rfl

theorem load_eq (b : Block) (overwrite : Bool) (c : CPU σ) : b.load core overwrite c =
    if b.writeback ∧ (b.rn ∉ b.regs ∨ overwrite) then
      (looped core b b.regs c).setReg b.rn (b.newBase (c.reg b.rn))
    else looped core b b.regs c := rfl

theorem loop_ldm (hread : BlockOp.Permitted core instr .ldm c) :
    loadRegs core (if instr.getLsbD 23 then instr.getLsbD 24 else !instr.getLsbD 24)
      (instr.getLsbD 22 && !instr.getLsbD 15) ((regList instr).filter (· ≠ 15))
      (if instr.getLsbD 23 then c.get (.r (baseId instr))
        else c.get (.r (baseId instr)) - listSize instr) c =
      (some ((if instr.getLsbD 23 then c.get (.r (baseId instr))
        else c.get (.r (baseId instr)) - listSize instr) +
          4 * BitVec.ofNat 32 ((regList instr).filter (· ≠ 15)).length),
        looped core (BlockOp.block instr .ldm) ((regList instr).filter (· ≠ 15)) c) := by
  have hstart := first_eq_lowest (BlockOp.block instr .ldm) (c.get (.r (baseId instr)))
  have hpc : (15 : Fin 16) ∉ (regList instr).filter (· ≠ 15) := by simp
  have hloop := @loadRegs_spec _ core (BlockOp.block instr .ldm)
    (if instr.getLsbD 23 then instr.getLsbD 24 else !instr.getLsbD 24) _ hpc
    (if instr.getLsbD 23 then c.get (.r (baseId instr))
      else c.get (.r (baseId instr)) - listSize instr) c
  have hlength := List.length_filter_le (fun i : Fin 16 => decide (i ≠ 15)) (regList instr)
  change (if (if instr.getLsbD 23 then instr.getLsbD 24 else !instr.getLsbD 24) = true
    then (if instr.getLsbD 23 then c.get (.r (baseId instr))
      else c.get (.r (baseId instr)) - listSize instr) + 4
    else if instr.getLsbD 23 then c.get (.r (baseId instr))
      else c.get (.r (baseId instr)) - listSize instr) = _ at hstart
  rw [hstart] at hloop
  exact hloop (Readable.mono hread hlength)

/-- The addresses around a loop, in the order the interpreter steps them. -/
theorem loop_end (preinc : Bool) (start : U32) (n : ℕ) :
    (if preinc then start + 4 * BitVec.ofNat 32 n + 4 else start + 4 * BitVec.ofNat 32 n) =
      wordAt (if preinc then start + 4 else start) n := by
  rw [← wordAt]
  cases preinc with
  | false => rfl
  | true =>
    rw [if_pos rfl, if_pos rfl, wordAt, wordAt, BitVec.add_assoc, BitVec.add_comm _ 4,
      ← BitVec.add_assoc]

theorem wordAt_add_four (addr : U32) (n : ℕ) : wordAt addr n + 4 = wordAt addr (n + 1) := by
  rw [wordAt, wordAt, BitVec.ofNat_add, BitVec.mul_add, ← BitVec.add_assoc]
  rfl

/-- The base behind the program counter, which is loaded last. -/
theorem behind_pc (b : Block) (base : U32) {n : ℕ} (hn : b.regs.length = n + 1) :
    (if b.up then
      if (if b.up then b.pre else !b.pre) = true then wordAt (b.lowest base) n
      else wordAt (b.lowest base) n + 4
    else if b.up then base else base - b.size) = b.newBase base := by
  have hsize : base + b.size = wordAt base (n + 1) := by rw [Block.size, hn, wordAt]
  rw [Block.newBase, Block.lowest]
  cases b.up with
  | false => rfl
  | true =>
    rw [if_pos rfl, if_pos rfl, if_pos rfl, hsize]
    cases b.pre with
    | false => exact wordAt_add_four base n
    | true => exact (wordAt_succ base n).symm

/-- The writeback of a load behind its loop. -/
theorem writeback_ldm (d : CPU σ) (wbbase : U32) :
    (if instr.getLsbD 21 then
      if instr.getLsbD (baseId instr) then
        if core.num = .arm9 ∧ overwritesLoadedBase instr then d.set (.r (baseId instr)) wbbase else d
      else d.set (.r (baseId instr)) wbbase
    else d) =
      if (BlockOp.block instr .ldm).writeback ∧ ((BlockOp.block instr .ldm).rn ∉
          (BlockOp.block instr .ldm).regs ∨ decide (core.num = .arm9 ∧ overwritesLoadedBase instr))
      then d.setReg (baseId instr) wbbase else d := by
  have hin : instr.getLsbD (baseId instr) = true ↔ baseId instr ∈ regList instr :=
    (mem_regList _).symm
  rw [writeback_iff]
  exact if_congr (and_congr_right' (or_congr (not_congr hin) decide_eq_true_iff.symm)) rfl rfl

theorem aLDM_eq_spec (hne : regList instr ≠ []) (h : BlockOp.Permitted core instr .ldm c) :
    aLDM core instr c = BlockOp.spec core instr .ldm c := by
  have hlist := @regList_eq instr
  rw [aLDM, if_neg (regList_ne_nil hne)]
  dsimp only
  rw [loop_ldm h]
  dsimp only
  rw [BlockOp.spec, load_eq]
  by_cases h15 : instr.getLsbD 15 = true
  · rw [if_pos h15] at hlist
    have hlen : (regList instr).length = ((regList instr).filter (· ≠ 15)).length + 1 := by
      conv => lhs; rw [hlist]
      rw [List.length_append, List.length_singleton]
    have hstart : (if (if instr.getLsbD 23 then instr.getLsbD 24 else !instr.getLsbD 24) = true
          then (if instr.getLsbD 23 then c.get (.r (baseId instr))
            else c.get (.r (baseId instr)) - listSize instr) + 4
          else if instr.getLsbD 23 then c.get (.r (baseId instr))
            else c.get (.r (baseId instr)) - listSize instr) =
        (BlockOp.block instr .ldm).lowest (c.get (.r (baseId instr))) :=
      first_eq_lowest (BlockOp.block instr .ldm) (c.get (.r (baseId instr)))
    have hnew : (if instr.getLsbD 23 then
          if (if instr.getLsbD 23 then instr.getLsbD 24 else !instr.getLsbD 24) = true
          then wordAt ((BlockOp.block instr .ldm).lowest (c.get (.r (baseId instr))))
            ((regList instr).filter (· ≠ 15)).length
          else wordAt ((BlockOp.block instr .ldm).lowest (c.get (.r (baseId instr))))
            ((regList instr).filter (· ≠ 15)).length + 4
        else if instr.getLsbD 23 then c.get (.r (baseId instr))
          else c.get (.r (baseId instr)) - listSize instr) =
        (BlockOp.block instr .ldm).newBase (c.get (.r (baseId instr))) :=
      behind_pc (BlockOp.block instr .ldm) (c.get (.r (baseId instr))) hlen
    have hregs : (BlockOp.block instr .ldm).regs = (regList instr).filter (· ≠ 15) ++ [15] := hlist
    have hpage : core.num = .arm9 → core.readable (looped core (BlockOp.block instr .ldm)
        ((regList instr).filter (· ≠ 15)) c).bus (page (wordAt ((BlockOp.block instr .ldm).lowest
          (c.get (.r (baseId instr)))) ((regList instr).filter (· ≠ 15)).length)) = true :=
      fun h9 => h h9 _ (hlen ▸ Nat.lt_succ_self _)
    rw [if_pos h15, if_pos h15, loadedPC_append hregs, hregs, looped_pc]
    rw [loop_end, hstart, dataRead32_ok hpage]
    dsimp only
    rw [hnew, writeback_ldm, hregs]
    rfl
  · rw [if_neg h15, List.append_nil] at hlist
    have hend : (if instr.getLsbD 23 then (if instr.getLsbD 23 then c.get (.r (baseId instr))
          else c.get (.r (baseId instr)) - listSize instr) + listSize instr
        else if instr.getLsbD 23 then c.get (.r (baseId instr))
          else c.get (.r (baseId instr)) - listSize instr) =
        (BlockOp.block instr .ldm).newBase (c.get (.r (baseId instr))) :=
      end_eq_newBase (BlockOp.block instr .ldm) (c.get (.r (baseId instr)))
    rw [if_neg h15, if_neg h15, ← hlist]
    rw [← listSize, hend]
    exact writeback_ldm _ _

/-! ## Stores -/

/-- The values of the loop of a store, in its order. -/
def storedValues (value : Fin 16 → U32 → U32) : List (Fin 16) → U32 → List U32
  | [], _ => []
  | i :: regs, addr => value i addr :: storedValues value regs (addr + 4)

theorem length_storedValues (value : Fin 16 → U32 → U32) (regs : List (Fin 16)) (addr : U32) :
    (storedValues value regs addr).length = regs.length := by
  induction regs generalizing addr with
  | nil => rfl
  | cons i regs ih => exact congrArg (· + 1) (ih _)

/-- What the loop of a store leaves. -/
theorem storeRegs_spec (oldbase : U32) (preinc isbanked : Bool) (regs : List (Fin 16)) (base : U32)
    (c : CPU σ) (h : Writable core c.bus (if preinc then base + 4 else base) regs.length) :
    storeRegs core instr oldbase preinc isbanked regs base c =
      (some (base + 4 * BitVec.ofNat 32 regs.length),
        { c with
          bus := writeAll core (if preinc then base + 4 else base)
            (storedValues (fun i addr => storedWord core instr oldbase isbanked i addr c) regs
              (if preinc then base + 4 else base)) c.bus }) := by
  induction regs generalizing base c with
  | nil => simp [storeRegs, storedValues, writeAll]
  | cons i regs ih =>
    have hbase : (if preinc then (if preinc then base + 4 else base)
        else (if preinc then base + 4 else base) + 4) = base + 4 := by
      cases preinc <;> rfl
    have haddr : (if preinc then base + 4 + 4 else base + 4) =
        (if preinc then base + 4 else base) + 4 := by
      cases preinc <;> rfl
    have hsum : base + 4 + 4 * BitVec.ofNat 32 regs.length =
        base + 4 * BitVec.ofNat 32 (regs.length + 1) := (wordAt_succ base regs.length).symm
    rw [storeRegs_cons]
    dsimp only
    rw [Transfer.andThen, writeWord_ok h.head]
    dsimp only
    rw [hbase, ih _ _ (haddr ▸ h.tail _), haddr, hsum]
    rfl

theorem storeLow_spec (regs : List (Fin 16)) (base : U32) (c : CPU σ)
    (h : Writable core c.bus base regs.length) :
    storeLow core regs base c = (some (base + 4 * BitVec.ofNat 32 regs.length),
      { c with bus := writeAll core base (regs.map fun i => c.get (.r i)) c.bus }) := by
  induction regs generalizing base c with
  | nil => simp [storeLow, writeAll]
  | cons i regs ih =>
    have hsum : base + 4 + 4 * BitVec.ofNat 32 regs.length =
        base + 4 * BitVec.ofNat 32 (regs.length + 1) := (wordAt_succ base regs.length).symm
    change Transfer.andThen _ _ _ = _
    rw [Transfer.andThen, writeWord_ok h.head]
    dsimp only
    rw [ih _ _ (h.tail _), hsum]
    rfl

/-! ### The values of `A_STM` -/

theorem lowest_iff (i : Fin 16) :
    instr &&& ((1 <<< i.val) - 1) = 0 ↔ ∀ j ∈ regList instr, i ≤ j := by
  have hmask (j : ℕ) (hj : j < 32) :
      (((1 <<< i.val : ℕ) : U32) - 1).getLsbD j = decide (j < i.val) := by
    have hall : ∀ i : Fin 16, ∀ j : Fin 32,
        (((1 <<< i.val : ℕ) : U32) - 1).getLsbD j = decide (j.val < i.val) := by decide
    exact hall i ⟨j, hj⟩
  constructor
  · intro hzero j hj
    by_contra hlt
    have hbit : (instr &&& ((1 <<< i.val) - 1)).getLsbD j = (0 : U32).getLsbD j := by rw [hzero]
    rw [BitVec.getLsbD_and, hmask j (by omega), (mem_regList j).mp hj] at hbit
    simp at hbit
    omega
  · intro hle
    refine BitVec.eq_of_getLsbD_eq fun j hj => ?_
    rw [BitVec.getLsbD_and, hmask j hj]
    by_cases hlt : j < i.val
    · have hnot : instr.getLsbD j = false := by
        by_contra hbit
        have hmem : (⟨j, by omega⟩ : Fin 16) ∈ regList instr :=
          (mem_regList _).mpr (by simpa using hbit)
        exact absurd (hle _ hmem) (by simp [Fin.le_def]; omega)
      rw [hnot]
      simp
    · simp [hlt]

theorem userTransferReg_base {psr : U32} (huser : instr.getLsbD 22 = true)
    (h : isBanked instr psr = false) : userTransferReg psr (baseId instr) = .r (baseId instr) := by
  rw [isBanked, huser, Bool.true_and] at h
  rw [userTransferReg]
  by_cases hfiq : (psr &&& 0x1F).toNat = 0x11
  · rw [if_pos hfiq] at h
    have hout : ¬(8 ≤ (baseId instr).val ∧ (baseId instr).val < 15) := by simpa using h
    rw [if_neg fun hand => hout hand.2, if_neg]
    rintro (h13 | h14)
    · exact hout (by rw [h13]; decide)
    · exact hout (by rw [h14]; decide)
  · rw [if_neg hfiq] at h
    rw [if_neg fun hand => hfiq hand.1]
    by_cases hbank : baseId instr = 13 ∨ baseId instr = 14
    · have hmode : (psr &&& 0x1F).toNat = 0x10 ∨ (psr &&& 0x1F).toNat = 0x1F := by
        rcases hbank with hbank | hbank <;> rw [hbank] at h <;> simpa [or_iff_not_imp_left] using h
      rw [if_pos hbank]
      rcases hmode with hmode | hmode
      · rw [hmode]
        rfl
      · rw [hmode]
        rfl
    · exact if_neg hbank

/-- The base is stored from the bank in use. -/
theorem cell_base {psr : U32} (h : isBanked instr psr = false) :
    (BlockOp.block instr .stm).cell psr (baseId instr) = .r (baseId instr) := by
  by_cases huser : instr.getLsbD 22 = true
  · exact (if_pos huser).trans (userTransferReg_base huser h)
  · exact if_neg huser

theorem storedWord_other {oldbase : U32} {isbanked : Bool} {i : Fin 16} (addr : U32)
    (h : ¬(i = baseId instr ∧ !isbanked)) :
    storedWord core instr oldbase isbanked i addr c =
      (BlockOp.block instr .stm).value core.num c i := by
  rw [storedWord, if_neg h]
  rfl

theorem storedWord_base (addr : U32) (h : isBanked instr c.cpsr = false) :
    storedWord core instr (c.reg (baseId instr)) (isBanked instr c.cpsr) (baseId instr) addr c =
        (BlockOp.block instr .stm).value core.num c (baseId instr) ↔
      core.num = .arm9 ∨ if ∀ i ∈ regList instr, baseId instr ≤ i then baseId instr ≠ 15
        else addr = (BlockOp.block instr .stm).value core.num c (baseId instr) := by
  have hvalue : (BlockOp.block instr .stm).value core.num c (baseId instr) =
      c.reg (baseId instr) + if baseId instr = 15 ∧ core.num = .arm7 then 4 else 0 := by
    rw [Block.value, cell_base h]
    rfl
  rw [storedWord, if_pos ⟨rfl, by rw [h]; rfl⟩, hvalue]
  cases hnum : core.num with
  | arm9 => simp
  | arm7 =>
    simp only [lowest_iff]
    by_cases hlow : ∀ i ∈ regList instr, baseId instr ≤ i
    · rw [if_pos (Or.inr hlow), if_pos hlow]
      simp
    · simp [hlow]

theorem storedValues_eq_map_iff (f : Fin 16 → U32 → U32) (value : Fin 16 → U32)
    (regs : List (Fin 16)) (addr : U32) : storedValues f regs addr = regs.map value ↔
      ∀ k (hk : k < regs.length), f regs[k] (wordAt addr k) = value regs[k] := by
  induction regs generalizing addr with
  | nil => simp [storedValues]
  | cons i regs ih =>
    rw [storedValues, List.map_cons, List.cons.injEq, ih]
    constructor
    · rintro ⟨hhead, htail⟩ (_ | k) hk
      · rw [wordAt_zero]
        exact hhead
      · rw [wordAt_succ]
        exact htail k (Nat.lt_of_succ_lt_succ hk)
    · intro hall
      refine ⟨wordAt_zero addr ▸ hall 0 (Nat.succ_pos _), fun k hk => ?_⟩
      rw [← wordAt_succ]
      exact hall (k + 1) (Nat.succ_lt_succ hk)

theorem nodup_regList : (regList instr).Nodup := (List.nodup_finRange 16).filter _

/-- Each register is stored as it was, if the base is. -/
theorem storedValues_iff : storedValues (fun i addr => storedWord core instr (c.reg (baseId instr))
      (isBanked instr c.cpsr) i addr c) (regList instr)
        ((BlockOp.block instr .stm).lowest (c.reg (baseId instr))) =
      (regList instr).map ((BlockOp.block instr .stm).value core.num c) ↔
    BlockOp.StoresBase core instr (BlockOp.block instr .stm) c := by
  rw [storedValues_eq_map_iff]
  cases hbanked : isBanked instr c.cpsr with
  | true =>
    refine iff_of_true (fun k hk => storedWord_other _ fun h => ?_) (.inr (.inr (.inl hbanked)))
    cases h.2
  | false =>
    have hbase := fun addr => @storedWord_base _ core _ c addr hbanked
    rw [hbanked] at hbase
    by_cases hmem : baseId instr ∈ regList instr
    · have hlt := List.idxOf_lt_length_iff.mpr hmem
      have hget : (regList instr)[(regList instr).idxOf (baseId instr)] = baseId instr :=
        List.getElem_idxOf hlt
      have hiff : BlockOp.StoresBase core instr (BlockOp.block instr .stm) c ↔
          core.num = .arm9 ∨ if ∀ i ∈ regList instr, baseId instr ≤ i then baseId instr ≠ 15
            else wordAt ((BlockOp.block instr .stm).lowest (c.reg (baseId instr)))
              ((regList instr).idxOf (baseId instr)) =
                (BlockOp.block instr .stm).value core.num c (baseId instr) := by
        rw [BlockOp.StoresBase, hbanked]
        exact or_congr_right ((or_iff_right (not_not_intro hmem)).trans
          (or_iff_right Bool.false_ne_true))
      rw [hiff, ← hbase]
      constructor
      · intro hall
        have h := hall _ hlt
        rw [hget] at h
        exact h
      · intro h k hk
        by_cases hrn : (regList instr)[k] = baseId instr
        · have hidx : (regList instr).idxOf (baseId instr) = k := by
            rw [← hrn]
            exact nodup_regList.idxOf_getElem k hk
          rw [hrn, ← hidx]
          exact h
        · exact storedWord_other _ fun hand => hrn hand.1
    · refine iff_of_true (fun k hk => storedWord_other _ fun h => ?_) (.inr (.inl hmem))
      exact hmem (h.1 ▸ List.getElem_mem hk)

/-- A store of these words. -/
def Block.storeWords (b : Block) (core : Core σ) (vs : List U32) (c : CPU σ) : CPU σ :=
  if b.writeback then
    { c with bus := writeAll core (b.lowest (c.reg b.rn)) vs c.bus }.setReg b.rn
      (b.newBase (c.reg b.rn))
  else { c with bus := writeAll core (b.lowest (c.reg b.rn)) vs c.bus }

theorem aSTM_eq (hne : regList instr ≠ []) (h : BlockOp.Permitted core instr .stm c) :
    aSTM core instr c = (BlockOp.block instr .stm).storeWords core
      (storedValues (fun i addr => storedWord core instr (c.reg (baseId instr))
        (isBanked instr c.cpsr) i addr c) (regList instr)
        ((BlockOp.block instr .stm).lowest (c.reg (baseId instr)))) c := by
  have hstart : (if (if instr.getLsbD 23 then instr.getLsbD 24 else !instr.getLsbD 24) = true
        then (if instr.getLsbD 23 then c.get (.r (baseId instr))
          else c.get (.r (baseId instr)) - listSize instr) + 4
        else if instr.getLsbD 23 then c.get (.r (baseId instr))
          else c.get (.r (baseId instr)) - listSize instr) =
      (BlockOp.block instr .stm).lowest (c.get (.r (baseId instr))) :=
    first_eq_lowest (BlockOp.block instr .stm) (c.get (.r (baseId instr)))
  have hend : (if instr.getLsbD 23 then (if instr.getLsbD 23 then c.get (.r (baseId instr))
        else c.get (.r (baseId instr)) - listSize instr) + listSize instr
      else c.get (.r (baseId instr)) - listSize instr) =
      (BlockOp.block instr .stm).newBase (c.get (.r (baseId instr))) := by
    change _ = if instr.getLsbD 23 then c.get (.r (baseId instr)) + listSize instr
      else c.get (.r (baseId instr)) - listSize instr
    cases instr.getLsbD 23 <;> rfl
  rw [aSTM, if_neg (regList_ne_nil hne)]
  dsimp only
  rw [storeRegs_spec _ _ _ _ _ _ (hstart ▸ h), hstart]
  dsimp only
  rw [← listSize, hend]
  rfl

/-! ### The stores of Thumb code -/

theorem writeAll_concat (addr : U32) (vs : List U32) (v : U32) (s : σ) :
    writeAll core addr (vs ++ [v]) s =
      core.write32 (wordAt addr vs.length &&& ~~~3) v (writeAll core addr vs s) := by
  induction vs generalizing addr s with
  | nil =>
    rw [List.length_nil, wordAt_zero]
    rfl
  | cons w vs ih =>
    rw [List.length_cons, wordAt_succ]
    exact ih _ _

theorem mem_lowList (i : Fin 16) : i ∈ lowList instr ↔ i.val < 8 ∧ instr.getLsbD i = true := by
  rw [lowList, List.mem_filter, Bool.and_eq_true, decide_eq_true_iff]
  exact and_iff_right (List.mem_finRange i)

theorem map_value_lowList (b : Block) (num : Num) (hb : b.user = false) (c : CPU σ) :
    (lowList instr).map (b.value num c) = (lowList instr).map fun i => c.get (.r i) := by
  refine List.map_congr_left fun i hi => ?_
  have hpc : i ≠ 15 := by
    rintro rfl
    exact absurd ((mem_lowList _).mp hi).1 (by decide)
  rw [Block.value, if_neg fun h => hpc h.1, Block.cell, hb]
  exact BitVec.add_zero _

theorem andThen_some {α β : Type*} {m : Transfer σ α} {f : α → Transfer σ β} {d : CPU σ} {a : α}
    (h : m c = (some a, d)) : m.andThen f c = f a d := by
  rw [Transfer.andThen, h]

theorem tPUSH_eq_spec (h : BlockOp.Permitted core instr .push c) :
    (tPUSH instr core c).2 = BlockOp.spec core instr .push c := by
  have hmap := @map_value_lowList _ instr (BlockOp.block instr .push) core.num rfl c
  have hw : Writable core c.bus ((BlockOp.block instr .push).lowest (c.reg 13))
    (BlockOp.block instr .push).regs.length := h
  have hsize : pushSize instr = (BlockOp.block instr .push).size := by
    rw [pushSize, Block.size, BlockOp.block, List.length_append]
    cases instr.getLsbD 8 <;> rfl
  have hlen : (lowList instr).length ≤ (BlockOp.block instr .push).regs.length :=
    List.length_append ▸ Nat.le_add_right _ _
  have hstart : c.get (.r 13) - pushSize instr = (BlockOp.block instr .push).lowest (c.reg 13) := by
    rw [hsize]
    rfl
  have hloop := @storeLow_spec _ core (lowList instr) _ c (hw.mono hlen)
  rw [← hstart] at hloop
  have hrun := andThen_some (f := fun base c =>
      (if instr.getLsbD 8 then writeWord core base (c.get (.r 14)) else .finish id).andThen
        (fun _ => .finish fun c => c.set (.r 13) (c.get (.r 13) - pushSize instr)) c) hloop
  refine (congrArg Prod.snd hrun).trans ?_
  change _ = (BlockOp.block instr .push).store core c
  rw [Block.store]
  by_cases h8 : instr.getLsbD 8 = true
  · have hregs : (BlockOp.block instr .push).regs = lowList instr ++ [14] :=
      congrArg (lowList instr ++ ·) (if_pos h8)
    have hlast : (lowList instr).length < (BlockOp.block instr .push).regs.length := by
      rw [hregs, List.length_append]
      exact Nat.lt_succ_self _
    have hlink : (BlockOp.block instr .push).value core.num c 14 = c.get (.r 14) :=
      BitVec.add_zero _
    have hpage : core.num = .arm9 → core.writable (writeAll core ((BlockOp.block instr .push).lowest
        (c.reg 13)) ((lowList instr).map fun i => c.get (.r i)) c.bus)
          (page (wordAt ((BlockOp.block instr .push).lowest (c.reg 13)) (lowList instr).length)) =
            true := fun h9 => by
      have hword := hw h9 ((lowList instr).map fun i => c.get (.r i))
      rw [List.length_map] at hword
      exact hword hlast
    rw [if_pos h8, ← wordAt, hstart, andThen_some (writeWord_ok hpage), hregs, List.map_append, hmap, List.map_singleton, hlink, writeAll_concat, List.length_map, hsize]
    rfl
  · have hregs : (BlockOp.block instr .push).regs = lowList instr :=
      (congrArg (lowList instr ++ ·) (if_neg h8)).trans (List.append_nil _)
    rw [if_neg h8, hregs, hmap, hsize]
    rfl

theorem lowList_ne_nil (h : lowList instr ≠ []) : instr &&& 0xFF ≠ 0 := by
  intro hzero
  refine h (List.eq_nil_iff_forall_not_mem.mpr fun i hi => ?_)
  obtain ⟨hlt, hbit⟩ := (mem_lowList i).mp hi
  have hmask : ∀ j : Fin 16, j.val < 8 → (0xFF : U32).getLsbD j = true := by decide
  have hnot : (instr &&& 0xFF).getLsbD i = (0 : U32).getLsbD i := by rw [hzero]
  rw [BitVec.getLsbD_and, hbit, hmask i hlt] at hnot
  simp at hnot

theorem tSTMIA_eq_spec (hne : lowList instr ≠ []) (h : BlockOp.Permitted core instr .stmia c) :
    (tSTMIA instr core c).2 = BlockOp.spec core instr .stmia c := by
  have hmap := @map_value_lowList _ instr (BlockOp.block instr .stmia) core.num rfl c
  have hloop := @storeLow_spec _ core (lowList instr) (c.reg (low instr 8)) c h
  have hrun := andThen_some (m := storeLow core (lowList instr) (c.reg (low instr 8)))
    (f := fun base => .finish fun c => c.set (.r (low instr 8)) base) hloop
  have hwords : (BlockOp.block instr .stmia).regs.map
      ((BlockOp.block instr .stmia).value core.num c) = (lowList instr).map fun i => c.get (.r i) :=
    hmap
  refine (congrArg Prod.snd ((if_neg (lowList_ne_nil hne)).trans hrun)).trans ?_
  change _ = (BlockOp.block instr .stmia).store core c
  rw [Block.store, hwords]
  rfl

/-! ### The loads of Thumb code -/

theorem low_lt (pos : ℕ) : (low instr pos).val < 8 := by
  change (((instr.extractLsb' pos 3).setWidth 4).toNat) < 8
  rw [BitVec.toNat_setWidth]
  exact lt_of_le_of_lt (Nat.mod_le _ _) (instr.extractLsb' pos 3).isLt

theorem pc_notMem_lowList : 15 ∉ lowList instr :=
  fun h => absurd ((mem_lowList _).mp h).1 (by decide)

/-- The loop of the two loads. -/
theorem loadLow_spec (b : Block) (hb : b.user = false) (hup : b.up = true) (hpre : b.pre = false)
    (h : Readable core c.bus (b.lowest (c.reg b.rn)) (lowList instr).length) :
    loadRegs core false false (lowList instr) (c.reg b.rn) c =
      (some (c.reg b.rn + 4 * BitVec.ofNat 32 (lowList instr).length),
        looped core b (lowList instr) c) := by
  have hlow : b.lowest (c.reg b.rn) = c.reg b.rn := by rw [Block.lowest, hup, hpre]
  have hloop := @loadRegs_spec _ core b false _ pc_notMem_lowList (c.reg b.rn) c (hlow ▸ h)
  rw [hb] at hloop
  rw [looped, hlow]
  exact hloop

theorem tLDMIA_eq_spec (hne : lowList instr ≠ []) (h : BlockOp.Permitted core instr .ldmia c) :
    (tLDMIA instr core c).2 = BlockOp.spec core instr .ldmia c := by
  have hloop := loadLow_spec (BlockOp.block instr .ldmia) rfl rfl rfl h
  have hin : instr.getLsbD (low instr 8) = true ↔ low instr 8 ∈ lowList instr :=
    ((mem_lowList _).trans (and_iff_right (low_lt 8))).symm
  have hrun : (tLDMIA instr core c).2 =
      if instr.getLsbD (low instr 8) then looped core (BlockOp.block instr .ldmia) (lowList instr) c
      else (looped core (BlockOp.block instr .ldmia) (lowList instr) c).set (.r (low instr 8))
        (c.reg (low instr 8) + 4 * BitVec.ofNat 32 (lowList instr).length) := by
    rw [tLDMIA]
    dsimp only
    rw [if_neg (lowList_ne_nil hne),
      show loadRegs core false false (lowList instr) (c.get (.r (low instr 8))) c = _ from hloop]
    rfl
  rw [hrun]
  change _ = (BlockOp.block instr .ldmia).load core false c
  rw [load_eq]
  by_cases hmem : low instr 8 ∈ lowList instr
  · rw [if_pos (hin.mpr hmem), if_neg fun hw => hw.2.elim (· hmem) Bool.false_ne_true]
    rfl
  · rw [if_neg fun hbit => hmem (hin.mp hbit), if_pos ⟨rfl, Or.inl hmem⟩]
    rfl

/-! ### `T_POP` -/

theorem sp_notMem_pop : 13 ∉ (BlockOp.block instr .pop).regs := by
  have hlow : 13 ∉ lowList instr := fun hmem => absurd ((mem_lowList _).mp hmem).1 (by decide)
  change 13 ∉ lowList instr ++ if instr.getLsbD 8 then [15] else []
  cases instr.getLsbD 8 <;> simp [hlow]

theorem tPOP_without_pc (h8 : ¬instr.getLsbD 8 = true) (h : BlockOp.Permitted core instr .pop c) :
    (tPOP instr core c).2 = BlockOp.spec core instr .pop c := by
  have hregs : (BlockOp.block instr .pop).regs = lowList instr :=
    (congrArg (lowList instr ++ ·) (if_neg h8)).trans (List.append_nil _)
  have hread : Readable core c.bus ((BlockOp.block instr .pop).lowest (c.reg 13))
    (BlockOp.block instr .pop).regs.length := h
  rw [hregs] at hread
  have hnew : c.reg 13 + 4 * BitVec.ofNat 32 (lowList instr).length =
      (BlockOp.block instr .pop).newBase (c.reg 13) := by
    rw [Block.newBase, Block.size, hregs]
    rfl
  have hloop := loadLow_spec (BlockOp.block instr .pop) rfl rfl rfl hread
  refine (congrArg Prod.snd (andThen_some hloop)).trans ?_
  rw [if_neg h8, BlockOp.spec, load_eq, if_neg h8, if_pos ⟨rfl, Or.inl sp_notMem_pop⟩,
    hregs]
  exact congrArg (CPU.set _ _) hnew

/-- The base behind a pop is written once the jump is made. -/
theorem tPOP_with_pc (h8 : instr.getLsbD 8 = true) (h : BlockOp.Permitted core instr .pop c) :
    (tPOP instr core c).2 =
        (jumpTo core (if core.num = .arm7 then (BlockOp.block instr .pop).loadedPC core c ||| 1
          else (BlockOp.block instr .pop).loadedPC core c) false
            (looped core (BlockOp.block instr .pop) (BlockOp.block instr .pop).regs c)).setReg 13
          ((BlockOp.block instr .pop).newBase (c.reg 13)) ∧
      BlockOp.spec core instr .pop c =
        jumpTo core (if core.num = .arm7 then (BlockOp.block instr .pop).loadedPC core c ||| 1
          else (BlockOp.block instr .pop).loadedPC core c) false
            ((looped core (BlockOp.block instr .pop) (BlockOp.block instr .pop).regs c).setReg 13
              ((BlockOp.block instr .pop).newBase (c.reg 13))) := by
  have hregs : (BlockOp.block instr .pop).regs = lowList instr ++ [15] :=
    congrArg (lowList instr ++ ·) (if_pos h8)
  have hlen : (BlockOp.block instr .pop).regs.length = (lowList instr).length + 1 := by
    rw [hregs, List.length_append, List.length_singleton]
  have hread : Readable core c.bus ((BlockOp.block instr .pop).lowest (c.reg 13))
    (BlockOp.block instr .pop).regs.length := h
  rw [hlen] at hread
  have hbase : (BlockOp.block instr .pop).lowest (c.reg 13) = c.reg 13 := rfl
  have hnew : c.reg 13 + 4 * BitVec.ofNat 32 (lowList instr).length + 4 =
      (BlockOp.block instr .pop).newBase (c.reg 13) := by
    rw [← wordAt, wordAt_add_four, Block.newBase, Block.size, hlen]
    rfl
  have hloop := loadLow_spec (BlockOp.block instr .pop) rfl rfl rfl (hread.mono (Nat.le_succ _))
  constructor
  · refine (congrArg Prod.snd (andThen_some hloop)).trans ?_
    rw [if_pos h8, loadedPC_append hregs, hregs, looped_pc, ← hnew]
    have hpage : core.num = .arm9 → core.readable
        (looped core (BlockOp.block instr .pop) (lowList instr) c).bus
        (page (c.reg 13 + 4 * BitVec.ofNat 32 (lowList instr).length)) = true :=
      fun h9 => hread h9 _ (Nat.lt_succ_self _)
    exact congrArg Prod.snd (andThen_some (dataRead32_ok hpage))
  · rw [BlockOp.spec, load_eq, if_pos h8, if_pos ⟨rfl, Or.inl sp_notMem_pop⟩]
    rfl

theorem Arch.set_comm {x y : ArchReg} (h : x ≠ y) (a : Arch σ) (v w : U32) :
    (a.set x v).set y w = (a.set y w).set x v :=
  congrArg (fun regs => { a with regs := regs }) (Function.update_comm h _ _ _)

theorem Arch.branchTo_set {x : ArchReg} (hpc : x ≠ .pc) (addr v : U32) (a : Arch σ) :
    branchTo addr (a.set x v) = (branchTo addr a).set x v := by
  rw [branchTo, branchTo, Arch.set_comm hpc, Arch.set_comm hpc]
  split
  · rfl
  · rfl

theorem Arch.link_set {x : ArchReg} (hpc : x ≠ .pc) (hspsr : x ≠ .spsr .abt)
    (hlink : x ≠ .exc .abt 1) (oldcpsr offset v : U32) (a : Arch σ) :
    (a.set x v).link .abt oldcpsr offset = (a.link .abt oldcpsr offset).set x v := by
  have hget : (a.set x v).get .pc = a.get .pc := Function.update_of_ne hpc.symm _ _
  rw [link, link, hget, Arch.set_comm hspsr, Arch.set_comm hlink]

/-- A register that a jump does not write makes no difference to it. -/
theorem Arch.jump_set {x : ArchReg} (hpc : x ≠ .pc) (hspsr : x ≠ .spsr .abt)
    (hlink : x ≠ .exc .abt 1) (addr v : U32) (a : Arch σ) :
    (a.set x v).jump core addr = (a.jump core addr).set x v := by
  have habort (a : Arch σ) : prefetchAbort core (a.set x v) = (prefetchAbort core a).set x v := by
    have hmode : changeMode core (((a.set x v).cpsr &&& ~~~0xBF) ||| 0x97) (a.set x v) =
      (changeMode core ((a.cpsr &&& ~~~0xBF) ||| 0x97) a).set x v := rfl
    rw [prefetchAbort, prefetchAbort, hmode, Arch.link_set hpc hspsr hlink, Arch.branchTo_set hpc]
    exact (apply_ite (fun a : Arch σ => a.set x v) _ _ _).symm
  rw [jump, jump, Arch.branchTo_set hpc, habort]
  exact (apply_ite (fun a : Arch σ => a.set x v) _ _ _).symm

/-- Which registers a jump may write. -/
theorem Arch.jump_regs {x : ArchReg} (hpc : x ≠ .pc) (hspsr : x ≠ .spsr .abt)
    (hlink : x ≠ .exc .abt 1) (addr : U32) (a : Arch σ) :
    (a.jump core addr).regs x = a.regs x := by
  have hself : a.set x (a.regs x) = a := by rw [Arch.set, Function.update_eq_self]
  have hjump := @Arch.jump_set _ core _ hpc hspsr hlink addr (a.regs x) a
  rw [hself] at hjump
  rw [hjump]
  exact Function.update_self _ _ _

theorem place_held (b : Bank) (x : Cell) : place b (held b x) = x := by
  cases x with
  | r i => exact place_named b i
  | rFIQ i =>
    cases b with
    | usr => revert i; decide
    | fiq => revert i; decide
    | exc m => cases m <;> revert i <;> decide
  | rExc m i =>
    cases b with
    | usr => cases m <;> revert i <;> decide
    | fiq => cases m <;> revert i <;> decide
    | exc m' => cases m <;> cases m' <;> revert i <;> decide

theorem view_injective {c d : CPU σ} (h : view c = view d) : c = d := by
  obtain ⟨hregs, hcpsr, hvec, hbus⟩ := Arch.mk.injEq .. |>.mp h
  have hcells : c.cells = d.cells := funext fun x => by
    have hx : c.cells (place (bankOf c.cpsr) (held (bankOf c.cpsr) x)) =
      d.cells (place (bankOf d.cpsr) (held (bankOf c.cpsr) x)) := congrFun hregs _
    have hbank : bankOf d.cpsr = bankOf c.cpsr := congrArg bankOf hcpsr.symm
    rw [hbank, place_held] at hx
    exact hx
  cases c
  cases d
  simp_all

/-- Every bank has a stack pointer of its own. -/
theorem named_sp_injective {b b' : Bank} (h : named b 13 = named b' 13) : b = b' := by
  cases b with
  | usr | fiq =>
    cases b' with
    | usr | fiq => first | rfl | cases h
    | exc m => cases m <;> cases h
  | exc m =>
    cases b' with
    | usr | fiq => cases m <;> cases h
    | exc m' => cases m <;> cases m' <;> first | rfl | cases h

/-- The stack pointer is another one where the jump has changed the bank. -/
theorem jump_sp_iff {s : CPU σ} {sp : U32} (addr : U32) (hsp : s.get (.r 13) ≠ sp) :
    (jumpTo core addr false s).setReg 13 sp = jumpTo core addr false (s.setReg 13 sp) ↔
      bankOf (jumpTo core addr false s).cpsr = bankOf s.cpsr := by
  have hx (b : Bank) : named b 13 ≠ .pc ∧ named b 13 ≠ .spsr .abt ∧ named b 13 ≠ .exc .abt 1 := by
    cases b with
    | usr | fiq => decide
    | exc m => cases m <;> decide
  obtain ⟨hpc, hspsr, hlink⟩ := hx (bankOf s.cpsr)
  have hjump : view (jumpTo core addr false s) = (view s).jump core addr := view_jumpTo _ _ _
  have hleft : view ((jumpTo core addr false s).setReg 13 sp) =
      ((view s).jump core addr).set (named (bankOf (jumpTo core addr false s).cpsr) 13) sp := by
    rw [← hjump]
    exact view_set_reg _ _ _
  have hright : view (jumpTo core addr false (s.setReg 13 sp)) =
      ((view s).jump core addr).set (named (bankOf s.cpsr) 13) sp := by
    rw [← Arch.jump_set hpc hspsr hlink]
    refine (view_jumpTo _ _ _).trans ?_
    exact congrArg (Arch.jump core addr) (view_set_reg _ _ _)
  constructor
  · intro heq
    by_contra hbank
    have hne : named (bankOf s.cpsr) 13 ≠ named (bankOf (jumpTo core addr false s).cpsr) 13 :=
      fun hsame => hbank (named_sp_injective hsame).symm
    have hregs := congrArg (fun a : Arch σ => a.regs (named (bankOf s.cpsr) 13))
      (hleft.symm.trans ((congrArg view heq).trans hright))
    have hold : ((view s).jump core addr).regs (named (bankOf s.cpsr) 13) = s.get (.r 13) := by
      rw [Arch.jump_regs hpc hspsr hlink]
      exact (get_reg s 13).symm
    change Function.update _ _ _ _ = Function.update _ _ _ _ at hregs
    rw [Function.update_of_ne hne, Function.update_self, hold] at hregs
    exact hsp hregs
  · intro hbank
    exact view_injective (hleft.trans (hbank ▸ hright.symm))

theorem bankOf_prefetchAbort (a : Arch σ) : bankOf (a.prefetchAbort core).cpsr = .exc .abt := by
  have hmode : bankOf ((a.cpsr &&& ~~~0xBF) ||| 0x97) = .exc .abt := bankOf_exception a.cpsr 0x97
  rw [Arch.prefetchAbort]
  split
  · exact hmode
  · exact (bankOf_congr (Arch.branchTo_keeps _ _).1).trans hmode

/-- A jump changes the bank when it aborts outside the abort mode. -/
theorem bankOf_jump_iff (s : CPU σ) (addr : U32) :
    bankOf (jumpTo core addr false s).cpsr = bankOf s.cpsr ↔
      core.num = .arm7 ∨ core.executable s.bus (page (jumpTarget addr)) = true ∨
        s.cpsr &&& 0x1F = 0x17 := by
  have hcpsr : (jumpTo core addr false s).cpsr = ((view s).jump core addr).cpsr :=
    congrArg Arch.cpsr (view_jumpTo addr false s)
  obtain ⟨hmode, -, hbus, -⟩ := Arch.branchTo_keeps addr (view s)
  rw [hcpsr, Arch.jump, hbus]
  by_cases habort : core.num = .arm9 ∧ (!core.executable s.bus (page (jumpTarget addr))) = true
  · have hnum : core.num ≠ .arm7 := by
      rw [habort.1]
      decide
    have hexec : core.executable s.bus (page (jumpTarget addr)) ≠ true := by
      simpa using habort.2
    have hbank := @bankOf_prefetchAbort _ core (Arch.branchTo addr (view s))
    rw [if_pos (show core.num = .arm9 ∧ (!core.executable (view s).bus _) = true from habort), hbank,
      or_iff_right hnum, or_iff_right hexec, ← bankOf_abt_iff]
    exact eq_comm
  · rw [if_neg (show ¬(core.num = .arm9 ∧ (!core.executable (view s).bus _) = true) from habort)]
    refine iff_of_true (bankOf_congr hmode) ?_
    cases hnum : core.num with
    | arm7 => exact .inl rfl
    | arm9 => exact .inr (.inl (by simpa [hnum] using habort))

theorem fill_of_notMem (b : Block) (psr : U32) (cells : Cell → U32) {x : Cell}
    {words : List (Fin 16 × U32)} (h : ∀ w ∈ words, b.cell psr w.1 ≠ x) :
    b.fill psr cells words x = cells x := by
  induction words generalizing cells with
  | nil => rfl
  | cons w words ih =>
    refine (ih _ fun w' hw' => h w' (List.mem_cons_of_mem w hw')).trans ?_
    beta_reduce
    split
    · rfl
    · exact Function.update_of_ne (h w List.mem_cons_self).symm _ _

/-- A list of registers takes less than the address space. -/
theorem toNat_size {b : Block} (h : b.regs.length ≤ 17) : b.size.toNat = 4 * b.regs.length := by
  rw [Block.size, BitVec.toNat_mul, BitVec.toNat_ofNat]
  change 4 * (b.regs.length % 4294967296) % 4294967296 = _
  omega

theorem length_lowList_le : (lowList instr).length ≤ 16 :=
  (List.length_filter_le _ _).trans (List.length_finRange (n := 16)).le

theorem tPOP_eq_spec_iff (h8 : instr.getLsbD 8 = true) (h : BlockOp.Permitted core instr .pop c) :
    (tPOP instr core c).2 = BlockOp.spec core instr .pop c ↔
      BlockOp.JumpsFirst core (BlockOp.block instr .pop) c := by
  obtain ⟨hrun, hspec⟩ := tPOP_with_pc h8 h
  have hlen : (BlockOp.block instr .pop).regs.length = (lowList instr).length + 1 := by
    change (lowList instr ++ if instr.getLsbD 8 then [15] else []).length = _
    rw [if_pos h8, List.length_append, List.length_singleton]
  have hlow := @length_lowList_le instr
  have hsize : (BlockOp.block instr .pop).size ≠ 0 := fun hzero => by
    have hnat := toNat_size (b := BlockOp.block instr .pop) (by omega)
    rw [hzero, hlen] at hnat
    change 0 = _ at hnat
    omega
  have hkeeps : (looped core (BlockOp.block instr .pop) (BlockOp.block instr .pop).regs c).get
      (.r 13) = c.reg 13 := by
    refine fill_of_notMem _ _ _ fun w hw hcell => ?_
    have hmem := (List.of_mem_zip hw).1
    rw [show w.1 = 13 from Cell.r.inj hcell] at hmem
    exact sp_notMem_pop hmem
  have hsp : (looped core (BlockOp.block instr .pop) (BlockOp.block instr .pop).regs c).get (.r 13) ≠
      (BlockOp.block instr .pop).newBase (c.reg 13) := by
    rw [hkeeps]
    intro heq
    exact hsize (BitVec.self_eq_add_right.mp heq)
  rw [hrun, hspec, jump_sp_iff _ hsp, bankOf_jump_iff, BlockOp.JumpsFirst]
  by_cases h7 : core.num = .arm7
  · exact iff_of_true (.inl h7) (.inl h7)
  · rw [if_neg h7]
    rfl

/-- Clearing the two lowest bits. -/
theorem toNat_and_not_three (x : U32) : (x &&& ~~~(3 : U32)).toNat = x.toNat / 4 * 4 := by
  have hshift : x &&& ~~~(3 : U32) = (x >>> 2) <<< 2 := by
    refine BitVec.eq_of_getLsbD_eq fun i hi => ?_
    have hmask : ∀ j : Fin 32, (~~~(3 : U32)).getLsbD j = decide (2 ≤ j.val) := by decide
    rw [BitVec.getLsbD_and, hmask ⟨i, hi⟩, BitVec.getLsbD_shiftLeft]
    by_cases h2 : 2 ≤ i
    · rw [BitVec.getLsbD_ushiftRight, Nat.add_sub_cancel' h2, decide_eq_true h2, decide_eq_true hi,
        decide_eq_false (Nat.not_lt.mpr h2), Bool.and_true, Bool.not_false, Bool.and_self,
        Bool.true_and]
    · rw [decide_eq_false h2, decide_eq_true (Nat.lt_of_not_le h2), Bool.and_false, Bool.not_true,
        Bool.and_false, Bool.false_and]
  rw [hshift, BitVec.toNat_shiftLeft, BitVec.toNat_ushiftRight, Nat.shiftRight_eq_div_pow,
    Nat.shiftLeft_eq]
  have := x.isLt
  omega

theorem word_ne {addr : U32} {i j : ℕ} (hij : i < j) (hj : j < 2 ^ 30) :
    wordAt addr i &&& ~~~(3 : U32) ≠ wordAt addr j &&& ~~~(3 : U32) := by
  intro heq
  have hnat := congrArg BitVec.toNat heq
  rw [toNat_and_not_three, toNat_and_not_three, wordAt, wordAt, BitVec.toNat_add, BitVec.toNat_add,
    BitVec.toNat_mul, BitVec.toNat_mul, BitVec.toNat_ofNat, BitVec.toNat_ofNat] at hnat
  change (addr.toNat + 4 * (i % 4294967296) % 4294967296) % 4294967296 / 4 * 4 =
    (addr.toNat + 4 * (j % 4294967296) % 4294967296) % 4294967296 / 4 * 4 at hnat
  have := addr.isLt
  omega

end MelonDS.ARM

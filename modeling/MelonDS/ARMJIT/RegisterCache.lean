import MelonDS.Library.BitSet
import MelonDS.Types

/-!
# The register cache of the JIT

While a block is compiled, guest registers are kept in native registers. The cache emits the
loads and stores of these as it goes; the model runs the emitted code at once, so that `machine`
is the state the code has reached where the compiler stands. A failed assertion and `abort` are
`none`.
-/

namespace MelonDS.ARMJIT
open BitSet

/-- What the cache reads of a `FetchedInstr`: `Info` and the condition. -/
structure InstrUses where
  srcRegs : U16
  dstRegs : U16
  notStrictlyNeeded : U16
  cond : BitVec 4
  deriving DecidableEq

/-- The registers an instruction uses; R15 as a source is a constant. -/
def InstrUses.uses (x : InstrUses) : U16 := (x.srcRegs &&& ~~~bit 16 15) ||| x.dstRegs

/-- `NativeRegAllocOrder`, the flag of the constructor and the instructions of the block. -/
structure CacheConfig where
  nativeRegAllocOrder : List (Fin 32)
  nodup : nativeRegAllocOrder.Nodup
  pcAllocatableAsSrc : Bool
  instrs : List InstrUses

namespace CacheConfig

def nativeRegsAvailable (cfg : CacheConfig) : ℕ := cfg.nativeRegAllocOrder.length

def pcMask (cfg : CacheConfig) : U16 := ~~~(if cfg.pcAllocatableAsSrc then 0 else bit 16 15)

def necessaryRegs (cfg : CacheConfig) (x : InstrUses) : U16 :=
  ((x.srcRegs &&& cfg.pcMask) ||| x.dstRegs) &&& ~~~x.notStrictlyNeeded

end CacheConfig

/-- The stored register file, the native registers, and the value of R15 the compiler knows. -/
structure Machine where
  r : Fin 16 → U32
  native : Fin 32 → U32
  pc : U32

structure RegisterCache where
  mapping : Fin 16 → Option (Fin 32)
  literalValues : Fin 16 → U32
  literalsLoaded : U16
  nativeRegsUsed : U32
  loadedRegs : U16
  dirtyRegs : U16
  suffixNeeded : U16
  suffixCursor : Option ℕ
  suffixLastUse : Fin 16 → U8
  machine : Machine

namespace RegisterCache

def create (m : Machine) : RegisterCache where
  mapping := fun _ => none
  literalValues := fun _ => 0
  literalsLoaded := 0
  nativeRegsUsed := 0
  loadedRegs := 0
  dirtyRegs := 0
  suffixNeeded := 0
  suffixCursor := none
  suffixLastUse := fun _ => 0
  machine := m

/-! ## Emitted code -/

def saveReg (reg : Fin 16) (native : Fin 32) (c : RegisterCache) : RegisterCache :=
  { c with
    machine :=
      { c.machine with r := Function.update c.machine.r reg (c.machine.native native) } }

def loadReg (reg : Fin 16) (native : Fin 32) (c : RegisterCache) : RegisterCache :=
  { c with
    machine :=
      { c.machine with
        native := Function.update c.machine.native native
          (if reg = 15 then c.machine.pc else c.machine.r reg) } }

/-- An operand of a compiled instruction. -/
def read (reg : Fin 16) (c : RegisterCache) : U32 :=
  match c.mapping reg with
  | some native => c.machine.native native
  | none => if reg = 15 then c.machine.pc else c.machine.r reg

/-- A result of a compiled instruction. -/
def write (c : RegisterCache) (reg : Fin 16) (val : U32) : RegisterCache :=
  match c.mapping reg with
  | some native =>
    { c with
      machine := { c.machine with native := Function.update c.machine.native native val } }
  | none => { c with machine := { c.machine with r := Function.update c.machine.r reg val } }

/-! ## Loading and unloading -/

def unloadRegister (c : RegisterCache) (reg : Fin 16) : Option RegisterCache :=
  match c.mapping reg with
  | none => none
  | some native =>
    let c := if c.dirtyRegs.getLsbD reg then c.saveReg reg native else c
    some
      { c with
        dirtyRegs := c.dirtyRegs &&& ~~~single reg
        loadedRegs := c.loadedRegs &&& ~~~single reg
        nativeRegsUsed := c.nativeRegsUsed &&& ~~~single native
        mapping := Function.update c.mapping reg none }

def freeReg (order : List (Fin 32)) (c : RegisterCache) : Option (Fin 32) :=
  order.find? fun native => !c.nativeRegsUsed.getLsbD native

def loadRegister (order : List (Fin 32)) (loadValue : Fin 16 → Bool) (c : RegisterCache)
    (reg : Fin 16) : Option RegisterCache :=
  if c.mapping reg ≠ none then none
  else
    match c.freeReg order with
    | none => none
    | some native =>
      let c :=
        { c with
          mapping := Function.update c.mapping reg (some native)
          nativeRegsUsed := c.nativeRegsUsed ||| single native
          loadedRegs := c.loadedRegs ||| single reg }
      some (if loadValue reg then c.loadReg reg native else c)

def unloadAll (mask : U16) (c : RegisterCache) : Option RegisterCache :=
  (members mask).foldlM unloadRegister c

/-! ## Literals -/

def putLiteral (reg : Fin 16) (val : U32) (c : RegisterCache) : RegisterCache :=
  { c with
    literalsLoaded := c.literalsLoaded ||| single reg
    literalValues := Function.update c.literalValues reg val }

def isLiteral (reg : Fin 16) (c : RegisterCache) : Bool := c.literalsLoaded.getLsbD reg

/-- `UnloadLiteral` for each register of the mask. -/
def unloadLiterals (mask : U16) (c : RegisterCache) : RegisterCache :=
  { c with literalsLoaded := c.literalsLoaded &&& ~~~mask }

/-! ## Leaving the block -/

/-- `Compiler->SaveReg(reg, Mapping[reg])` -/
def saveMapped (c : RegisterCache) (reg : Fin 16) : RegisterCache :=
  match c.mapping reg with
  | none => c
  | some native => c.saveReg reg native

def prepareExit (mask : U16) (c : RegisterCache) : RegisterCache :=
  (members (c.dirtyRegs &&& mask)).foldl saveMapped c

def flush (c : RegisterCache) : Option RegisterCache := do
  let c ← c.unloadAll c.loadedRegs
  some { c with literalsLoaded := 0 }

/-! ## The remaining uses -/

def addSuffixUses (instrs : List InstrUses) (c : RegisterCache) (j : ℕ) : RegisterCache :=
  match instrs[j]? with
  | none => c
  | some x =>
    { c with
      suffixLastUse := fun reg =>
        if x.uses.getLsbD reg then BitVec.ofNat 8 j else c.suffixLastUse reg
      suffixNeeded := c.suffixNeeded ||| x.uses }

def dropSuffixUses (instrs : List InstrUses) (c : RegisterCache) (j : ℕ) : RegisterCache :=
  match instrs[j]? with
  | none => c
  | some x =>
    { c with
      suffixNeeded :=
        ((members x.uses).filter fun reg => (c.suffixLastUse reg).toNat = j).foldl
          (fun needed reg => needed &&& ~~~single reg) c.suffixNeeded }

/-- The first `Prepare` goes through the whole block. -/
def initSuffix (instrs : List InstrUses) (c : RegisterCache) : RegisterCache :=
  match c.suffixCursor with
  | some _ => c
  | none =>
    { (List.range instrs.length).foldl (addSuffixUses instrs) { c with suffixNeeded := 0 } with
      suffixCursor := some 0 }

def advanceSuffix (instrs : List InstrUses) (i : ℕ) (c : RegisterCache) : Option RegisterCache :=
  let c := c.initSuffix instrs
  let cursor := c.suffixCursor.getD 0
  if i < cursor then none
  else
    some
      { (List.range' cursor (i - cursor)).foldl (dropSuffixUses instrs) c with
        suffixCursor := some i }

/-! ## Prepare -/

/-- In how many of the instructions from `i` on a register is strictly needed. -/
def ranking (instrs : List InstrUses) (i : ℕ) (reg : Fin 16) : ℕ :=
  (instrs.drop i).countP fun x => (x.uses &&& ~~~x.notStrictlyNeeded).getLsbD reg

/-- The loaded register of the least rank that the instruction can do without. -/
def victim (rank : Fin 16 → ℕ) (necessary loaded : U16) : Option (Fin 16) :=
  ((members loaded).foldl
    (fun (best : Option (Fin 16) × ℕ) (reg : Fin 16) =>
      if necessary.getLsbD reg = false ∧ rank reg < best.2 then (some reg, rank reg) else best)
    (none, 1000)).1

/-- `while (loadedSet.Count() + neededCount > NativeRegsAvailable)` -/
def evict (available : ℕ) (rank : Fin 16 → ℕ) (necessary : U16) (needed : ℕ) :
    ℕ → RegisterCache → Option RegisterCache
  | 0, c => some c
  | rounds + 1, c =>
    if count c.loadedRegs + needed > available then do
      let reg ← victim rank necessary c.loadedRegs
      let c ← c.unloadRegister reg
      evict available rank necessary needed rounds c
    else some c

/-- `thumb || instr.Cond() >= 0xE` -/
def always (thumb : Bool) (x : InstrUses) : Bool := thumb || decide (x.cond ≥ 0xE)

/-- A value that is always going to be overwritten is not loaded. -/
def valueNeeded (thumb : Bool) (x : InstrUses) (reg : Fin 16) : Bool :=
  !always thumb x || x.srcRegs.getLsbD reg

def loadNecessary (cfg : CacheConfig) (thumb : Bool) (i : ℕ) (x : InstrUses) (c : RegisterCache) :
    Option RegisterCache :=
  let necessary := cfg.necessaryRegs x
  let needToBeLoaded := necessary &&& ~~~c.loadedRegs
  if needToBeLoaded = 0 then some c
  else do
    let c ← evict cfg.nativeRegsAvailable (ranking cfg.instrs i) necessary (count needToBeLoaded)
      16 c
    (members needToBeLoaded).foldlM
      (loadRegister cfg.nativeRegAllocOrder (valueNeeded thumb x)) c

def loadOptional (cfg : CacheConfig) (thumb : Bool) (futureNeeded : U16) (x : InstrUses)
    (c : RegisterCache) : Option RegisterCache :=
  let loadRegs := (x.notStrictlyNeeded &&& futureNeeded) &&& ~~~c.loadedRegs
  ((members loadRegs).take (cfg.nativeRegsAvailable - count c.loadedRegs)).foldlM
    (loadRegister cfg.nativeRegAllocOrder (valueNeeded thumb x)) c

def markDirty (x : InstrUses) (c : RegisterCache) : RegisterCache :=
  { c with dirtyRegs := c.dirtyRegs ||| ((c.loadedRegs &&& x.dstRegs) &&& ~~~bit 16 15) }

def unloadPC (c : RegisterCache) : Option RegisterCache :=
  if c.loadedRegs.getLsbD 15 then c.unloadRegister 15 else some c

def prepare (cfg : CacheConfig) (thumb : Bool) (i : ℕ) (c : RegisterCache) :
    Option RegisterCache := do
  let x ← cfg.instrs[i]?
  let c ← c.unloadPC
  let c ← (c.unloadLiterals (c.literalsLoaded &&& x.dstRegs)).advanceSuffix cfg.instrs i
  let futureNeeded := c.suffixNeeded
  let c ← c.unloadAll (c.loadedRegs &&& ~~~futureNeeded)
  let c ← c.loadNecessary cfg thumb i x
  let c ← c.loadOptional cfg thumb futureNeeded x
  some (c.markDirty x)

end RegisterCache
end MelonDS.ARMJIT

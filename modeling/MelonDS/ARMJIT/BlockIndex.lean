import MelonDS.ARMJIT.RangeTable
import MelonDS.Library.SwapRemove

/-!
# The index of compiled blocks

A compiled block is found by its virtual address in `JitBlocks9` or `JitBlocks7`,
by every 512-byte line of memory it was made from in that line's `AddressRange`,
and by its first local address in `FastBlockLookup`. Blocks taken out of the index
are kept under the hash of their opcodes and put back when the same code is
compiled again. `CompileBlock` is split where the tracing interpreter runs, since
that may write to memory and so invalidate other blocks.

A line stands for its entry of `CodeMemRegions`, a halfword index for its entry of
`FastBlockLookupRegions`. No two blocks in use are equal, so that a block stands
for its pointer.
-/

namespace MelonDS.ARMJIT

structure JitBlock where
  startAddr : U32
  startAddrLocal : U32
  instrHash : U64
  literalHash : U64
  num : Fin 2
  thumb : Bool
  /-- `AddressRanges()` with `AddressMasks()`. -/
  addresses : List (U32 × U32)
  literals : List U32
  hasRemapDependency : Bool
  entryPoint : U32
  distinct : (addresses.map Prod.fst).Nodup
  aligned : ∀ line ∈ addresses.map Prod.fst, lineOf line = line
  even : startAddr.getLsbD 0 = false
  sameHalfword : startAddrLocal.getLsbD 1 = startAddr.getLsbD 1
deriving DecidableEq

/-- The two halves of a lookup entry. -/
structure LookupEntry where
  tag : U32
  offset : U32
deriving DecidableEq

def invalidTag : U32 := 0xFFFFFFFF

/-- `(u64)UINT32_MAX << 32`. -/
def LookupEntry.invalid : LookupEntry := ⟨invalidTag, 0⟩

def boolBit (b : Bool) : U32 := if b then 1 else 0

def makeLookupTag (addr : U32) (num : Fin 2) (thumb : Bool) : U32 :=
  (addr &&& ~~~(3 : U32)) ||| BitVec.ofNat 32 num <<< 1 ||| boolBit thumb

/-- The key of a block in its CPU's map. -/
def blockKey (addr : U32) (thumb : Bool) : U32 := addr ||| boolBit thumb

/-- The index of an address in the lookup table. -/
def slotOf (localAddr : U32) : U32 := localAddr >>> 1

namespace JitBlock

def key (b : JitBlock) : U32 := blockKey b.startAddr b.thumb

def slot (b : JitBlock) : U32 := slotOf b.startAddrLocal

def entry (b : JitBlock) : LookupEntry := ⟨makeLookupTag b.startAddr b.num b.thumb, b.entryPoint⟩

def lines (b : JitBlock) : List U32 := b.addresses.map Prod.fst

/-- The mask found for a line by the loop of `InvalidateByAddr`. -/
def maskAt (b : JitBlock) (line : U32) : U32 :=
  ((b.addresses.find? fun a => a.1 = line).map Prod.snd).getD 0

end JitBlock

structure AddressRange where
  blocks : List JitBlock
  code : U32

/-- A call of `CompileBlock` whose trace is running. -/
structure Compiling where
  num : Fin 2
  thumb : Bool
  blockAddr : U32
  localAddr : U32
  even : blockAddr.getLsbD 0 = false
  sameHalfword : localAddr.getLsbD 1 = blockAddr.getLsbD 1

def Compiling.key (c : Compiling) : U32 := blockKey c.blockAddr c.thumb

/-- What the trace leaves for the rest of `CompileBlock`. -/
structure Traced where
  addresses : List (U32 × U32)
  literals : List U32
  /-- the addresses written to, translated -/
  writeAddrs : List U32
  instrHash : U64
  literalHash : U64
  hasRemapDependency : Bool
  /-- where the compiler would put the block, and whether it runs out of room first -/
  entryPoint : U32
  cacheFull : Bool
  distinct : (addresses.map Prod.fst).Nodup
  aligned : ∀ line ∈ addresses.map Prod.fst, lineOf line = line

structure State where
  jitBlocks : Fin 2 → List JitBlock
  codeMem : U32 → AddressRange
  fastBlockLookup : U32 → LookupEntry
  restoreCandidates : U64 → Option JitBlock
  invalidLiterals : List U32
  compiling : Option Compiling
  compileWriteAddrs : List U32

namespace State

def Live (s : State) (b : JitBlock) : Prop := b ∈ s.jitBlocks b.num

/-- The candidates with a retired block, which replaces one of the same hash. -/
def retireJitBlock (s : State) (b : JitBlock) : U64 → Option JitBlock :=
  Function.update s.restoreCandidates b.instrHash (some b)

/-- The maps with the key of a block erased. -/
def eraseBlock (s : State) (b : JitBlock) : Fin 2 → List JitBlock :=
  Function.update s.jitBlocks b.num ((s.jitBlocks b.num).filter fun c => c.key ≠ b.key)

end State

/-- `InvalidLiterals.Add` of an address that is not there yet. -/
def addLiteral (literals : List U32) (addr : U32) : List U32 :=
  if addr ∈ literals then literals else literals ++ [addr]

/-- The masks of a line, over the blocks listed there. -/
def codeOf (line : U32) (blocks : List JitBlock) : U32 :=
  blocks.foldl (fun code b =>
    b.addresses.foldl (fun code a => if a.1 = line then code ||| a.2 else code) code) 0

def AddressRange.unlist (b : JitBlock) (line : U32) (r : AddressRange) : AddressRange :=
  ⟨removeByValue r.blocks b, codeOf line (removeByValue r.blocks b)⟩

namespace State

def removeBlock (s : State) (b : JitBlock) : State :=
  { s with
    codeMem := updateEach (fun line _ r => r.unlist b line) b.addresses s.codeMem
    fastBlockLookup := if s.fastBlockLookup b.slot = b.entry then
      Function.update s.fastBlockLookup b.slot .invalid else s.fastBlockLookup
    jitBlocks := s.eraseBlock b
    restoreCandidates := s.retireJitBlock b }

/-- `InvalidateByAddr` for the block at index `i` of the line written to. The other
lines drop the block, and their code once they are empty. A block whose literal was
written to is not kept. -/
def invalidateBlock (s : State) (b : JitBlock) (localAddr : U32) (i : ℕ) : State :=
  let line := lineOf localAddr
  let range := s.codeMem line
  { s with
    codeMem := updateEach (fun addr _ r =>
        if addr >>> 9 = localAddr >>> 9 then r
        else ⟨removeByValue r.blocks b, if (removeByValue r.blocks b).isEmpty then 0 else r.code⟩)
      b.addresses (Function.update s.codeMem line ⟨swapRemove range.blocks i, range.code⟩)
    invalidLiterals := if localAddr ∈ b.literals then addLiteral s.invalidLiterals localAddr
      else s.invalidLiterals
    fastBlockLookup := Function.update s.fastBlockLookup b.slot .invalid
    jitBlocks := s.eraseBlock b
    restoreCandidates := if localAddr ∈ b.literals then s.restoreCandidates else s.retireJitBlock b }

def setCode (s : State) (line code : U32) : State :=
  { s with codeMem := Function.update s.codeMem line ⟨(s.codeMem line).blocks, code⟩ }

/-- The loop over the blocks of the line; each turn keeps one or removes one. -/
def invalidateFrom (localAddr : U32) : ℕ → ℕ → State → State
  | 0, _, s => s
  | fuel + 1, i, s =>
    let line := lineOf localAddr
    match (s.codeMem line).blocks[i]? with
    | none => s
    | some b =>
      if b.maskAt line &&& unitBit localAddr = 0 then
        invalidateFrom localAddr fuel (i + 1)
          (s.setCode line ((s.codeMem line).code ||| b.maskAt line))
      else invalidateFrom localAddr fuel i (s.invalidateBlock b localAddr i)

def invalidateByAddr (s : State) (localAddr : U32) : State :=
  invalidateFrom localAddr (s.codeMem (lineOf localAddr)).blocks.length 0
    (s.setCode (lineOf localAddr) 0)

/-- The line holds code at the 16 bytes of the address. -/
def hasCode (s : State) (localAddr : U32) : Bool :=
  (s.codeMem (lineOf localAddr)).code &&& unitBit localAddr != 0

/-- A trace keeps the addresses it writes to. -/
def logWrite (s : State) (localAddr : U32) : State :=
  if s.compiling.isSome then { s with compileWriteAddrs := s.compileWriteAddrs ++ [localAddr] } else s

/-- A store, once its address is translated. -/
def checkAndInvalidate (s : State) (localAddr : U32) : State :=
  let s := s.logWrite localAddr
  if s.hasCode localAddr then s.invalidateByAddr localAddr else s

/-- Code that does not depend on the entry mapping alone. -/
def dependent (b : JitBlock) (region : U32) : Bool :=
  b.hasRemapDependency || b.literals.any fun addr => addr >>> 27 = region

/-- The loop over the blocks of a line; each turn keeps one or removes one. -/
def removeDependents (region line : U32) : ℕ → ℕ → State → State
  | 0, _, s => s
  | fuel + 1, i, s =>
    match (s.codeMem line).blocks[i]? with
    | none => s
    | some b =>
      if dependent b region then removeDependents region line fuel i (s.removeBlock b)
      else removeDependents region line fuel (i + 1) s

/-- The regions whose mapping can change, with their sizes. `consoleType` is not zero on a DSi. -/
def remappedRegions (consoleType : ℕ) : List (U32 × ℕ) :=
  [(5, 0x8000), (9, 0x10000)] ++
    if consoleType = 0 then [] else [(15, 0x40000), (16, 0x40000), (17, 0x40000)]

def invalidateRemappedCode (s : State) (consoleType : ℕ) : State :=
  (remappedRegions consoleType).foldl (fun s (region : U32 × ℕ) =>
    (List.range (region.2 / 512)).foldl (fun s i =>
      let line := region.1 <<< 27 ||| BitVec.ofNat 32 (i * 512)
      removeDependents region.1 line (s.codeMem line).blocks.length 0 s) s) s

/-- All lines named by a block in use are emptied, and everything else is forgotten. -/
def resetBlockCache (s : State) : State :=
  { s with
    jitBlocks := fun _ => []
    codeMem := updateEach (fun _ _ _ => ⟨[], 0⟩)
      ((s.jitBlocks 0 ++ s.jitBlocks 1).flatMap JitBlock.addresses) s.codeMem
    fastBlockLookup := fun _ => ⟨0xFFFFFFFF, 0xFFFFFFFF⟩
    restoreCandidates := fun _ => none
    invalidLiterals := [] }

/-! ## `CompileBlock` -/

/-- A trace starts. -/
def beginTrace (s : State) (c : Compiling) : State :=
  { s with compiling := some c, compileWriteAddrs := [] }

/-- The entry of a block in the lookup table, at the address asked for. -/
def setLookup (s : State) (c : Compiling) (b : JitBlock) : U32 → LookupEntry :=
  Function.update s.fastBlockLookup (slotOf c.localAddr)
    ⟨makeLookupTag c.blockAddr c.num c.thumb, b.entryPoint⟩

/-- The head of the call. A block of the key is switched in again, or is in the
way because it has another backing. -/
def compileStart (s : State) (c : Compiling) : State :=
  match (s.jitBlocks c.num).find? fun b => b.key = c.key with
  | some b =>
    if c.localAddr = b.startAddrLocal then { s with fastBlockLookup := s.setLookup c b }
    else (s.removeBlock b).beginTrace c
  | none => s.beginTrace c

/-- A trace that ends with an exception or a changed mapping is not published. -/
def compileAbandon (s : State) : State := { s with compiling := none }

/-- The literals a trace writes to itself. -/
def addWrittenLiterals (literals : List U32) (t : Traced) : List U32 :=
  t.writeAddrs.foldl (fun literals addr =>
    if addr ≠ 0 ∧ addr ∈ t.literals then addLiteral literals addr else literals) literals

def MayRestore (c : Compiling) (t : Traced) (b : JitBlock) : Prop :=
  b.num = c.num ∧ b.thumb = c.thumb ∧ b.startAddr = c.blockAddr ∧ b.literalHash = t.literalHash ∧
    b.addresses = t.addresses

instance (c : Compiling) (t : Traced) (b : JitBlock) : Decidable (MayRestore c t b) :=
  inferInstanceAs (Decidable (_ ∧ _))

def newBlock (c : Compiling) (t : Traced) : JitBlock where
  startAddr := c.blockAddr
  startAddrLocal := c.localAddr
  instrHash := t.instrHash
  literalHash := t.literalHash
  num := c.num
  thumb := c.thumb
  addresses := t.addresses
  literals := t.literals
  hasRemapDependency := t.hasRemapDependency
  entryPoint := t.entryPoint
  distinct := t.distinct
  aligned := t.aligned
  even := c.even
  sameHalfword := c.sameHalfword

/-- The block is entered in the three tables. -/
def register (s : State) (c : Compiling) (b : JitBlock) : State :=
  { s with
    codeMem := updateEach (fun _ mask r => ⟨r.blocks ++ [b], r.code ||| mask⟩) b.addresses s.codeMem
    jitBlocks := Function.update s.jitBlocks c.num
      (((s.jitBlocks c.num).filter fun b' : JitBlock => b'.key ≠ c.key) ++ [b])
    fastBlockLookup := s.setLookup c b }

/-- A trace may have overwritten its own opcodes before its lines were known. -/
def replayWrites (s : State) : State :=
  s.compileWriteAddrs.foldl (fun s addr => if s.hasCode addr then s.invalidateByAddr addr else s) s

/-- The candidate a trace may take. -/
def restorable (s : State) (c : Compiling) (t : Traced) : Option JitBlock :=
  (s.restoreCandidates t.instrHash).filter fun b => MayRestore c t b

/-- What is left once the trace has looked for a candidate: one that may not be
restored is deleted. -/
def takeCandidate (s : State) (t : Traced) : State :=
  { s with
    compiling := none
    invalidLiterals := addWrittenLiterals s.invalidLiterals t
    restoreCandidates := Function.update s.restoreCandidates t.instrHash none }

/-- The rest of the call, once the trace has ended. A compiler out of room resets
the cache before it puts a new block there. -/
def compileFinish (s : State) (t : Traced) : State :=
  match s.compiling with
  | none => s
  | some c =>
    match s.restorable c t with
    | some b =>
      ((s.takeCandidate t).register c
        { b with hasRemapDependency := t.hasRemapDependency }).replayWrites
    | none =>
      let s := s.takeCandidate t
      ((if t.cacheFull then s.resetBlockCache else s).register c (newBlock c t)).replayWrites

/-- The dispatcher's lookup, for an address whose local address is `localAddr`. -/
def lookUpBlock (s : State) (num : Fin 2) (localAddr addr : U32) (thumb : Bool) : Option U32 :=
  let entry := s.fastBlockLookup (slotOf localAddr)
  if entry.tag = makeLookupTag addr num thumb then some entry.offset else none

end State

inductive Action
  | compileStart (c : Compiling)
  | compileAbandon
  | compileFinish (t : Traced)
  | store (localAddr : U32)
  | invalidateByAddr (localAddr : U32)
  | remap (consoleType : ℕ)
  | resetBlockCache

/-- Tracing does not start another trace. -/
def State.step (s : State) : Action → State
  | .compileStart c => if s.compiling.isSome then s else s.compileStart c
  | .compileAbandon => s.compileAbandon
  | .compileFinish t => s.compileFinish t
  | .store localAddr => s.checkAndInvalidate localAddr
  | .invalidateByAddr localAddr => s.invalidateByAddr localAddr
  | .remap consoleType => s.invalidateRemappedCode consoleType
  | .resetBlockCache => s.resetBlockCache

/-- The state after `Reset`. -/
def State.init : State where
  jitBlocks _ := []
  codeMem _ := ⟨[], 0⟩
  fastBlockLookup _ := ⟨0xFFFFFFFF, 0xFFFFFFFF⟩
  restoreCandidates _ := none
  invalidLiterals := []
  compiling := none
  compileWriteAddrs := []

def run (s : State) (acts : List Action) : State := acts.foldl State.step s

end MelonDS.ARMJIT

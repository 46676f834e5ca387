import Mathlib.Data.Fin.VecNotation
import MelonDS.Library.AlignedWords

/-!
# Patching a DLDI driver into a binary

`NDSCart/CartSD.cpp`: the patch and the slot in the binary are checked as a whole before the
driver is relocated in a copy, which then replaces the one in the slot. Every access to a buffer
is checked here: one outside it is a fault, while a refusal is what the function returns false for.
-/

namespace MelonDS.NDSCart.DLDI
open AlignedWords

structure Buffer where
  size : U32
  bytes : ℕ → U8

inductive Stop
  | fault
  | invalid
  deriving DecidableEq

def reject (bad : Prop) [Decidable bad] : Except Stop Unit :=
  if bad then .error .invalid else .ok ()

namespace Buffer

def read8 (b : Buffer) (i : ℕ) : Except Stop U8 :=
  if i < b.size.toNat then .ok (b.bytes i) else .error .fault

def read32 (b : Buffer) (i : ℕ) : Except Stop U32 :=
  if i + 4 ≤ b.size.toNat then .ok (wordAt b.bytes i) else .error .fault

def write8 (b : Buffer) (i : ℕ) (v : U8) : Except Stop Buffer :=
  if i < b.size.toNat then .ok { b with bytes := Function.update b.bytes i v } else .error .fault

def write32 (b : Buffer) (i : ℕ) (v : U32) : Except Stop Buffer :=
  if i + 4 ≤ b.size.toNat then .ok { b with bytes := setWord b.bytes i v } else .error .fault

/-- `memcpy` from the start of another buffer. -/
def copy (b : Buffer) (dst : ℕ) (src : Buffer) (n : ℕ) : Except Stop Buffer :=
  if dst + n ≤ b.size.toNat ∧ n ≤ src.size.toNat then
    .ok { b with bytes := fun i => if dst ≤ i ∧ i < dst + n then src.bytes (i - dst) else b.bytes i }
  else .error .fault

/-- `memset` to zero. -/
def clear (b : Buffer) (dst n : ℕ) : Except Stop Buffer :=
  if dst + n ≤ b.size.toNat then
    .ok { b with bytes := fun i => if dst ≤ i ∧ i < dst + n then 0 else b.bytes i }
  else .error .fault

end Buffer

def magic : List U8 := [0xED, 0xA5, 0x8D, 0xBF, 0x20, 0x43, 0x68, 0x69, 0x73, 0x68, 0x6D, 0]

def hasMagic (b : Buffer) (start : ℕ) : Except Stop Bool := do
  let found ← (List.range 12).mapM fun i => b.read8 (start + i)
  return found == magic

/-- The sizes of the patch and of the slot. -/
def identify (binary : Buffer) (target : ℕ) (patch : Buffer) : Except Stop (U32 × U32) := do
  let patchMagic ← hasMagic patch 0
  let targetMagic ← hasMagic binary target
  let patchVersion ← patch.read8 0x0C
  let targetVersion ← binary.read8 (target + 0x0C)
  let fixmask ← patch.read8 0x0E
  let driverSize ← patch.read8 0x0D
  let slotSize ← binary.read8 (target + 0x0F)
  reject (¬patchMagic ∨ ¬targetMagic ∨ patchVersion ≠ 1 ∨ targetVersion ≠ 1 ∨
    fixmask &&& ~~~0x0F ≠ 0 ∨ driverSize < 7 ∨ 32 ≤ driverSize ∨ slotSize < 7 ∨ 32 ≤ slotSize)
  return ((1 : U32) <<< driverSize.toNat, (1 : U32) <<< slotSize.toNat)

/-- Where the slot's driver lies in memory. -/
def slotBase (binary : Buffer) (target : ℕ) : Except Stop U32 := do
  let memaddr ← binary.read32 (target + 0x40)
  if memaddr = 0 then
    let startup ← binary.read32 (target + 0x68)
    reject (startup < 0x80)
    return startup - 0x80
  else return memaddr

/-- What the checks find out for the relocation. -/
structure Plan where
  patchbase : U32
  patchsize : U32
  memaddr : U32
  fixmask : U8
  sections : Fin 4 → U32 × U32
  writesec : U32

/-- The start and the end of a section in the patch. -/
def checkSection (patch : Buffer) (patchbase patchsize : U32) (fixmask : U8) (i : Fin 4) :
    Except Stop (U32 × U32) := do
  let start ← patch.read32 (0x40 + i * 8)
  let stop ← patch.read32 (0x44 + i * 8)
  if i ≠ 0 ∧ start = 0 ∧ stop = 0 then return (0, 0)
  else do
    reject (start < patchbase ∨ stop < start ∨
      (if i = 3 then patchsize else patch.size) < stop - patchbase)
    let rangeStart := start - patchbase
    let rangeStop := stop - patchbase
    reject (i < 3 ∧ fixmask.getLsbD i ∧ (rangeStart ||| rangeStop) &&& 3 ≠ 0)
    reject (i ≠ 0 ∧ rangeStart ≠ rangeStop ∧ rangeStart < 0x80)
    return (rangeStart, rangeStop)

def entries : List ℕ := [0x68, 0x6C, 0x70, 0x74, 0x78, 0x7C]

/-- An entry point lies in the text. -/
def checkEntry (patch : Buffer) (patchbase textEnd : U32) (address : ℕ) : Except Stop Unit := do
  let entry ← patch.read32 address
  if entry = 0 then return ()
  else
    let code := entry &&& ~~~1
    let width : U32 := if entry.getLsbD 0 then 2 else 4
    reject (code < patchbase ∨ code - patchbase < 0x80 ∨ code &&& (width - 1) ≠ 0 ∨
      textEnd < code - patchbase ∨ textEnd - (code - patchbase) < width)

/-- The write function that a read-only card replaces. -/
def checkWrite (readonly : Bool) (patch : Buffer) (patchbase textEnd : U32) : Except Stop U32 :=
  if readonly then do
    let entry ← patch.read32 0x74
    reject (entry &&& 3 ≠ 0 ∨ entry < patchbase ∨ entry - patchbase < 0x80 ∨
      textEnd < entry - patchbase ∨ textEnd - (entry - patchbase) < 8)
    return entry - patchbase
  else return 0

/-- The checks of the patch itself. -/
def layout (patch : Buffer) (patchsize memaddr : U32) (readonly : Bool) : Except Stop Plan := do
  let patchbase ← patch.read32 0x40
  reject (patchbase &&& 3 ≠ 0 ∨ memaddr &&& 3 ≠ 0 ∨
    2 ^ 32 < patchbase.toNat + patchsize.toNat ∨ 2 ^ 32 < memaddr.toNat + patchsize.toNat)
  let fixmask ← patch.read8 0x0E
  let s0 ← checkSection patch patchbase patchsize fixmask 0
  let s1 ← checkSection patch patchbase patchsize fixmask 1
  let s2 ← checkSection patch patchbase patchsize fixmask 2
  let s3 ← checkSection patch patchbase patchsize fixmask 3
  reject (s0.2 < 0x80 ∨ s3.1 ≠ s3.2 ∧ s3.1 < s0.2)
  entries.forM (checkEntry patch patchbase s0.2)
  let writesec ← checkWrite readonly patch patchbase s0.2
  return ⟨patchbase, patchsize, memaddr, fixmask, ![s0, s1, s2, s3], writesec⟩

def check (binary : Buffer) (dldioffset : U32) (patch : Buffer) (readonly : Bool) :
    Except Stop Plan := do
  reject (patch.size < 0x80 ∨ binary.size < dldioffset ∨ binary.size - dldioffset < 0x80)
  let (patchsize, capacity) ← identify binary dldioffset.toNat patch
  reject (capacity < patchsize ∨ patchsize < patch.size ∨ binary.size - dldioffset < capacity)
  let memaddr ← slotBase binary dldioffset.toNat
  layout patch patchsize memaddr readonly

def relocate (patch : Buffer) (delta : U32) (relocated : Buffer) (address : ℕ) :
    Except Stop Buffer := do
  let value ← patch.read32 address
  relocated.write32 address (value + delta)

/-- The addresses of a loop in steps of a word. -/
def steps (start stop : ℕ) : List ℕ := (List.range ((stop - start + 3) / 4)).map (start + 4 * ·)

def headerWords : List ℕ := steps 0x40 0x60 ++ steps 0x68 0x80

/-- A word that is an address in the driver. -/
def Plan.Inside (plan : Plan) (value : U32) : Prop :=
  plan.patchbase ≤ value ∧ value.toNat < plan.patchbase.toNat + plan.patchsize.toNat

instance (plan : Plan) : DecidablePred plan.Inside := fun _ => inferInstanceAs (Decidable (_ ∧ _))

def fixSection (patch : Buffer) (plan : Plan) (delta : U32) (relocated : Buffer) (i : Fin 4) :
    Except Stop Buffer :=
  if plan.fixmask.getLsbD i then
    (steps (plan.sections i).1.toNat (plan.sections i).2.toNat).foldlM (fun relocated address => do
      let value ← patch.read32 address
      if plan.Inside value then relocate patch delta relocated address else pure relocated) relocated
  else .ok relocated

/-- A read-only card cannot be written to: two instructions that return at once. -/
def forbidWrites (readonly : Bool) (plan : Plan) (relocated : Buffer) : Except Stop Buffer :=
  if readonly then do
    let features ← relocated.read8 0x64
    let relocated ← relocated.write8 0x64 (features &&& ~~~0x02)
    let relocated ← relocated.write32 plan.writesec.toNat 0xE3A00000
    relocated.write32 (plan.writesec.toNat + 4) 0xE12FFF1E
  else return relocated

/-- The copy of the patch that goes into the slot. -/
def prepare (plan : Plan) (patch : Buffer) (readonly : Bool) (slotSize : U8) :
    Except Stop Buffer := do
  let delta := plan.memaddr - plan.patchbase
  let relocated ← headerWords.foldlM (relocate patch delta) patch
  let relocated ← ([0, 1, 2] : List (Fin 4)).foldlM (fixSection patch plan delta) relocated
  let relocated ← forbidWrites readonly plan relocated
  relocated.write8 0x0F slotSize

def commit (binary : Buffer) (dldioffset : U32) (patch : Buffer) (readonly : Bool) (plan : Plan) :
    Except Stop Buffer := do
  let target := dldioffset.toNat
  let slotSize ← binary.read8 (target + 0x0F)
  let relocated ← prepare plan patch readonly slotSize
  let binary ← binary.copy target relocated patch.size.toNat
  let bss := plan.sections 3
  if plan.fixmask.getLsbD 3 then binary.clear (target + bss.1.toNat) (bss.2 - bss.1).toNat
  else return binary

/-- Whether the patch was applied, and the binary afterwards. -/
def applyDLDIPatchAt (binary : Buffer) (dldioffset : U32) (patch : Buffer) (readonly : Bool) :
    Except Stop (Bool × Buffer) :=
  match check binary dldioffset patch readonly with
  | .error .invalid => .ok (false, binary)
  | .error .fault => .error .fault
  | .ok plan => do
    let binary ← commit binary dldioffset patch readonly plan
    return (true, binary)

/-- One place of the search. -/
def tryPatch (patch : Buffer) (readonly : Bool) (i : U32) (binary : Buffer) :
    Except Stop (Bool × Buffer) := do
  let found ← hasMagic binary i.toNat
  if found then applyDLDIPatchAt binary i patch readonly else return (false, binary)

/-- The search for slots; none when the turns run out. -/
def scan (patch : Buffer) (readonly : Bool) : ℕ → U32 → Buffer → Except Stop (Option Buffer)
  | 0, _, _ => .ok none
  | turns + 1, i, binary =>
    if i ≤ binary.size - 0x80 then do
      let (applied, binary) ← tryPatch patch readonly i binary
      scan patch readonly turns (if applied then i + patch.size else i + 1) binary
    else .ok (some binary)

/-- A part of a buffer as a buffer, and the buffer with that part replaced. -/
def Buffer.part (b : Buffer) (offset size : U32) : Buffer :=
  ⟨size, fun i => b.bytes (offset.toNat + i)⟩

def Buffer.withPart (b : Buffer) (offset : U32) (part : Buffer) : Buffer where
  size := b.size
  bytes := fun i =>
    if offset.toNat ≤ i ∧ i < offset.toNat + part.size.toNat then part.bytes (i - offset.toNat)
    else b.bytes i

/-- The ROM afterwards; none when the turns of the search run out. -/
def applyDLDIPatch (rom : Buffer) (patch : Buffer) (readonly : Bool) :
    Except Stop (Option Buffer) := do
  if patch.size < 0x80 then return some rom
  else
    let found ← hasMagic patch 0
    let version ← patch.read8 0x0C
    if ¬found ∨ version ≠ 1 then return some rom
    else if rom.size < 0x30 then return some rom
    else
      let offset ← rom.read32 0x20
      let size ← rom.read32 0x2C
      if offset < 0x200 ∨ rom.size < offset ∨ rom.size - offset < size then return some rom
      else if size < 0x80 then return some rom
      else
        let binary ← scan patch readonly size.toNat 0 (rom.part offset size)
        return binary.map (rom.withPart offset ·)

end MelonDS.NDSCart.DLDI

import MelonDS.GPU.VRAMMap
import MelonDS.Library.Memory

/-!
# VRAM accesses, dirty tracking and the flat copies

Reads OR together the banks mapped to a slot; CPU writes go to every mapped bank
and set the dirty bit of the written 512-byte page of the bank, except through the
ARM7 window, whose banks are marked as a whole when they are mapped there. Each
tracking set remembers the mapping it last saw and, on `DeriveState`, turns bank
dirty bits into dirty pages of its region; `CopyLinearVRAM` then refreshes these
pages of the flat copy.

Display captures, which also write VRAM, are not part of this model.
-/

namespace MelonDS.GPU

/-- The regions with a `VRAMTrackingSet` and a flat copy. -/
inductive TrackingSet
  | abg | bbg | aobj | bobj
  | abgExtPal | bbgExtPal | aobjExtPal | bobjExtPal
  | texture | texPal
deriving DecidableEq

namespace TrackingSet

def region : TrackingSet → Region
  | abg => .abg
  | bbg => .bbg
  | aobj => .aobj
  | bobj => .bobj
  | abgExtPal => .abgExtPal
  | bbgExtPal => .bbgExtPal
  | aobjExtPal => .aobjExtPal
  | bobjExtPal => .bobjExtPal
  | texture => .texture
  | texPal => .texPal

/-- The template argument `Size`. -/
def size : TrackingSet → ℕ
  | abg => 512 * 1024
  | aobj => 256 * 1024
  | bbg | bobj => 128 * 1024
  | abgExtPal | bbgExtPal => 32 * 1024
  | aobjExtPal | bobjExtPal => 8 * 1024
  | texture => 512 * 1024
  | texPal => 128 * 1024

/-- The template argument `MappingGranularity`. -/
def mappingGranularity : TrackingSet → ℕ
  | abg | aobj | bbg | bobj | texPal => 16 * 1024
  | abgExtPal | bbgExtPal | aobjExtPal | bobjExtPal => 8 * 1024
  | texture => 128 * 1024

/-- `Size / VRAMDirtyGranularity` -/
def pages (X : TrackingSet) : ℕ := X.size / 512

/-- `Size / MappingGranularity` -/
def slots (X : TrackingSet) : ℕ := X.size / X.mappingGranularity

def vramBitsPerMapping (X : TrackingSet) : ℕ := X.mappingGranularity / 512

end TrackingSet

/-! ## Bit fields

`NonStupidBitField<n>` is kept as one vector of `n` bits. -/

namespace NonStupidBitField

/-- `(*this)[i] = true` -/
def set {n : ℕ} (b : BitVec n) (i : ℕ) : BitVec n := b ||| bit n i

def setRange {n : ℕ} (b : BitVec n) (startBit bitsCount : ℕ) : BitVec n :=
  b ||| (BitVec.allOnes bitsCount).setWidth n <<< startBit

end NonStupidBitField

/-- The loop `while (m != 0) { num = countr_zero(m); m &= ~(1 << num); … }` visits the
set bits from the lowest. -/
def setBits (m : U16) : List ℕ := (List.range 16).filter m.getLsbD

structure VRAMState where
  map : VRAMMap
  vram : ℕ → Mem
  vramDirty : ℕ → BitVec 256
  /-- `VRAMDirty_X.Mapping` -/
  mapping : TrackingSet → ℕ → U16
  /-- `VRAMFlat_X` -/
  flat : TrackingSet → Mem

namespace VRAMState

def reset : VRAMState where
  map := VRAMMap.reset
  vram := fun _ _ => 0
  vramDirty := fun _ => 0
  mapping := fun _ _ => 0x8000
  flat := fun _ _ => 0

/-- `VRAMMap_X[i]` -/
def mask (s : VRAMState) (X : TrackingSet) (i : ℕ) : U32 := (s.map.slot X.region i).mask

end VRAMState

/-! ## Reads -/

/-- One line `if (mask & (1<<test)) … VRAM[bank][addr & addrMask] …`. -/
structure BankAccess where
  test : ℕ
  bank : ℕ
  addrMask : U32
deriving DecidableEq

def orBanks (n : ℕ) (vram : ℕ → Mem) (mask addr : U32) (reads : List BankAccess) : Bytes n :=
  reads.foldl
    (fun ret r =>
      if mask.getLsbD r.test then
        fun k => ret k ||| (vram r.bank).load n (addr &&& r.addrMask).toNat k
      else ret)
    fun _ => 0

def accessABG : List BankAccess :=
  [⟨0, 0, 0x1FFFF⟩, ⟨1, 1, 0x1FFFF⟩, ⟨2, 2, 0x1FFFF⟩, ⟨3, 3, 0x1FFFF⟩, ⟨4, 4, 0xFFFF⟩,
    ⟨5, 5, 0x3FFF⟩, ⟨6, 6, 0x3FFF⟩]

def accessAOBJ : List BankAccess :=
  [⟨0, 0, 0x1FFFF⟩, ⟨1, 1, 0x1FFFF⟩, ⟨4, 4, 0xFFFF⟩, ⟨5, 5, 0x3FFF⟩, ⟨6, 6, 0x3FFF⟩]

def accessBBG : List BankAccess := [⟨2, 2, 0x1FFFF⟩, ⟨7, 7, 0x7FFF⟩, ⟨8, 8, 0x3FFF⟩]

def accessBOBJ : List BankAccess := [⟨3, 3, 0x1FFFF⟩, ⟨8, 8, 0x3FFF⟩]

namespace VRAMState
variable (n : ℕ) (s : VRAMState)

/-- The engine regions read through `VRAMPtr_*` where a slot has one. -/
def readEngine (r : Region) (slotMask addr : U32) (reads : List BankAccess) : Bytes n :=
  let slot := s.map.slot r ((addr >>> 14) &&& slotMask).toNat
  match slot.ptr with
  | some p => (s.vram p.bank).load n (p.offset.toNat + (addr &&& 0x3FFF).toNat)
  | none => orBanks n s.vram slot.mask addr reads

def readVRAM_ABG (addr : U32) : Bytes n := s.readEngine n .abg 0x1F addr accessABG
def readVRAM_AOBJ (addr : U32) : Bytes n := s.readEngine n .aobj 0xF addr accessAOBJ
def readVRAM_BBG (addr : U32) : Bytes n := s.readEngine n .bbg 0x7 addr accessBBG
def readVRAM_BOBJ (addr : U32) : Bytes n := s.readEngine n .bobj 0x7 addr accessBOBJ

def readVRAM_Texture (addr : U32) : Bytes n :=
  orBanks n s.vram (s.map.slot .texture ((addr >>> 17) &&& 0x3).toNat).mask addr
    [⟨0, 0, 0x1FFFF⟩, ⟨1, 1, 0x1FFFF⟩, ⟨2, 2, 0x1FFFF⟩, ⟨3, 3, 0x1FFFF⟩]

def readVRAM_TexPal (addr : U32) : Bytes n :=
  orBanks n s.vram (s.map.slot .texPal ((addr >>> 14) &&& 0x7).toNat).mask addr
    [⟨4, 4, 0xFFFF⟩, ⟨5, 5, 0x3FFF⟩, ⟨6, 6, 0x3FFF⟩]

def readVRAM_ABGExtPal (addr : U32) : Bytes n :=
  orBanks n s.vram (s.map.slot .abgExtPal ((addr >>> 13) &&& 0x3).toNat).mask addr
    [⟨4, 4, 0x7FFF⟩, ⟨5, 5, 0x3FFF⟩, ⟨6, 6, 0x3FFF⟩]

def readVRAM_BBGExtPal (addr : U32) : Bytes n :=
  orBanks n s.vram (s.map.slot .bbgExtPal ((addr >>> 13) &&& 0x3).toNat).mask addr
    [⟨7, 7, 0x7FFF⟩]

/-- Tests bits 4 and 5 for banks F and G, where the map has them at 5 and 6. -/
def readVRAM_AOBJExtPal (addr : U32) : Bytes n :=
  orBanks n s.vram (s.map.slot .aobjExtPal 0).mask addr [⟨4, 5, 0x1FFF⟩, ⟨5, 6, 0x1FFF⟩]

def readVRAM_BOBJExtPal (addr : U32) : Bytes n :=
  orBanks n s.vram (s.map.slot .bobjExtPal 0).mask addr [⟨8, 8, 0x1FFF⟩]

def readVRAM : TrackingSet → U32 → Bytes n
  | .abg => s.readVRAM_ABG n
  | .bbg => s.readVRAM_BBG n
  | .aobj => s.readVRAM_AOBJ n
  | .bobj => s.readVRAM_BOBJ n
  | .abgExtPal => s.readVRAM_ABGExtPal n
  | .bbgExtPal => s.readVRAM_BBGExtPal n
  | .aobjExtPal => s.readVRAM_AOBJExtPal n
  | .bobjExtPal => s.readVRAM_BOBJExtPal n
  | .texture => s.readVRAM_Texture n
  | .texPal => s.readVRAM_TexPal n

end VRAMState

/-! ## CPU writes -/

/-- A store as the bus functions make it: they align the address to the access first. -/
structure Store where
  size : ℕ
  addr : U32
  val : Bytes size
  size_ok : size = 1 ∨ size = 2 ∨ size = 4
  aligned : size ∣ addr.toNat

/-- The cases of the switch of `WriteVRAM_LCDC`: addresses, bank, `addr` mask. -/
def lcdcCases : List (List U32 × ℕ × U32) :=
  [([0x06800000, 0x06804000, 0x06808000, 0x0680C000,
      0x06810000, 0x06814000, 0x06818000, 0x0681C000], 0, 0x1FFFF),
    ([0x06820000, 0x06824000, 0x06828000, 0x0682C000,
      0x06830000, 0x06834000, 0x06838000, 0x0683C000], 1, 0x1FFFF),
    ([0x06840000, 0x06844000, 0x06848000, 0x0684C000,
      0x06850000, 0x06854000, 0x06858000, 0x0685C000], 2, 0x1FFFF),
    ([0x06860000, 0x06864000, 0x06868000, 0x0686C000,
      0x06870000, 0x06874000, 0x06878000, 0x0687C000], 3, 0x1FFFF),
    ([0x06880000, 0x06884000, 0x06888000, 0x0688C000], 4, 0xFFFF),
    ([0x06890000], 5, 0x3FFF),
    ([0x06894000], 6, 0x3FFF),
    ([0x06898000, 0x0689C000], 7, 0x7FFF),
    ([0x068A0000], 8, 0x3FFF)]

inductive WriteTarget
  | lcdc | abg | aobj | bbg | bobj | arm7
deriving DecidableEq

namespace VRAMState

/-- `*(T*)&VRAM[bank][off] = val` -/
def storeBank (bank : ℕ) (off : U32) {n : ℕ} (val : Bytes n) (s : VRAMState) : VRAMState :=
  { s with vram := Function.update s.vram bank ((s.vram bank).store off.toNat val) }

/-- `VRAMDirty[bank][off / VRAMDirtyGranularity] = true` -/
def setDirty (bank : ℕ) (off : U32) (s : VRAMState) : VRAMState :=
  { s with vramDirty := Function.update s.vramDirty bank (NonStupidBitField.set (s.vramDirty bank) (off.toNat / 512)) }

def writeVRAM_LCDC (s : VRAMState) (w : Store) : VRAMState :=
  match lcdcCases.find? fun c => (w.addr &&& 0xFF8FC000) ∈ c.1 with
  | none => s
  | some (_, bank, m) =>
    if (s.map.slot .lcdc 0).mask.getLsbD bank then
      (s.storeBank bank (w.addr &&& m) w.val).setDirty bank (w.addr &&& m)
    else s

def writeEngine (r : Region) (slotMask : U32) (banks : List BankAccess) (s : VRAMState)
    (w : Store) : VRAMState :=
  let mask := (s.map.slot r ((w.addr >>> 14) &&& slotMask).toNat).mask
  banks.foldl
    (fun s a =>
      if mask.getLsbD a.test then
        (s.setDirty a.bank (w.addr &&& a.addrMask)).storeBank a.bank (w.addr &&& a.addrMask) w.val
      else s)
    s

def writeVRAM_ABG : VRAMState → Store → VRAMState := writeEngine .abg 0x1F accessABG
def writeVRAM_AOBJ : VRAMState → Store → VRAMState := writeEngine .aobj 0xF accessAOBJ
def writeVRAM_BBG : VRAMState → Store → VRAMState := writeEngine .bbg 0x7 accessBBG
def writeVRAM_BOBJ : VRAMState → Store → VRAMState := writeEngine .bobj 0x7 accessBOBJ

def writeVRAM_ARM7 (s : VRAMState) (w : Store) : VRAMState :=
  let mask := (s.map.slot .arm7 ((w.addr >>> 17) &&& 0x1).toNat).mask
  let s := if mask.getLsbD 2 then s.storeBank 2 (w.addr &&& 0x1FFFF) w.val else s
  if mask.getLsbD 3 then s.storeBank 3 (w.addr &&& 0x1FFFF) w.val else s

def writeVRAM (s : VRAMState) : WriteTarget → Store → VRAMState
  | .lcdc => s.writeVRAM_LCDC
  | .abg => s.writeVRAM_ABG
  | .aobj => s.writeVRAM_AOBJ
  | .bbg => s.writeVRAM_BBG
  | .bobj => s.writeVRAM_BOBJ
  | .arm7 => s.writeVRAM_ARM7

/-- A VRAMCNT write. Giving bank C or D to the ARM7 also sets all its dirty bits. -/
def writeVRAMCNT (s : VRAMState) (bank : Fin 9) (cnt : U8) : VRAMState :=
  let entersARM7 := (bank = 2 ∨ bank = 3) ∧ s.map.vramCNT bank ≠ cnt &&& 0x9F ∧
    cnt.getLsbD 7 ∧ (cnt &&& 0x7).toNat = 2
  { s with
    map := s.map.writeVRAMCNT bank cnt
    vramDirty := if entersARM7 then Function.update s.vramDirty bank (BitVec.allOnes 256) else s.vramDirty }

/-! ## Refreshing a flat copy -/

/-- The dirty bits of bank `num` under slot `i`, ORed into their place in `result`. -/
def orDirty (X : TrackingSet) (dirty : ℕ → BitVec 256) (i num : ℕ) (result : BitVec X.pages) :
    BitVec X.pages :=
  if X.mappingGranularity = 16 * 1024 then
    let word := (dirty num).extractLsb' (32 * (i &&& ((vramMask num).toNat >>> 14))) 32
    result ||| word.setWidth X.pages <<< (32 * i)
  else if X.mappingGranularity = 8 * 1024 then
    let word := (dirty num).extractLsb' (16 * (i &&& ((vramMask num).toNat >>> 13))) 16
    result ||| word.setWidth X.pages <<< (16 * i)
  else
    -- four 64-bit words, for the granularity of 128 KB
    result ||| (dirty num).setWidth X.pages <<< (256 * i)

structure Derived (X : TrackingSet) where
  result : BitVec X.pages
  banksToBeZeroed : U16
  mapping : ℕ → U16

/-- One turn of the loop of `DeriveState`. -/
def deriveSlot (X : TrackingSet) (s : VRAMState) (d : Derived X) (i : ℕ) : Derived X :=
  let current := s.mask X i
  if current ≠ (d.mapping i).setWidth 32 then
    { result := NonStupidBitField.setRange d.result (i * X.vramBitsPerMapping) X.vramBitsPerMapping
      banksToBeZeroed := d.banksToBeZeroed ||| current.setWidth 16
      mapping := Function.update d.mapping i (current.setWidth 16) }
  else
    { d with
      banksToBeZeroed := d.banksToBeZeroed ||| d.mapping i
      result := (setBits (d.mapping i)).foldl (fun result num => orDirty X s.vramDirty i num result) d.result }

def derived (X : TrackingSet) (s : VRAMState) : Derived X :=
  (List.range X.slots).foldl (deriveSlot X s) ⟨0, 0, s.mapping X⟩

def deriveState (X : TrackingSet) (s : VRAMState) : BitVec X.pages × VRAMState :=
  let d := derived X s
  (d.result,
    { s with
      mapping := Function.update s.mapping X d.mapping
      vramDirty := (setBits d.banksToBeZeroed).foldl (fun dirty num => Function.update dirty num 0) s.vramDirty })

/-- One turn of the loop of `CopyLinearVRAM`. -/
def copyPage (X : TrackingSet) (s : VRAMState) (flat : Mem) (page : ℕ) : Mem :=
  let offset := page * 512
  match getUniqueBankPtr (s.mask X (page / X.vramBitsPerMapping)) (BitVec.ofNat 32 offset) with
  | some p => flat.store offset ((s.vram p.bank).load 512 p.offset.toNat)
  | none =>
    flat.copyBlocks offset 64 fun i => s.readVRAM 8 X (BitVec.ofNat 32 (offset + 8 * i))

def copyLinearVRAM (X : TrackingSet) (s : VRAMState) (dirty : BitVec X.pages) : Mem :=
  ((List.range X.pages).filter dirty.getLsbD).foldl (copyPage X s) (s.flat X)

/-- `MakeVRAMFlat_XCoherent` with the pages `VRAMDirty_X.DeriveState` returns. -/
def makeVRAMFlat (X : TrackingSet) (s : VRAMState) : VRAMState :=
  let (dirty, s) := deriveState X s
  { s with flat := Function.update s.flat X (copyLinearVRAM X s dirty) }

inductive Action
  | writeVRAMCNT (bank : Fin 9) (cnt : U8)
  | writeVRAM (target : WriteTarget) (w : Store)
  | makeVRAMFlat (X : TrackingSet)

def step (s : VRAMState) : Action → VRAMState
  | .writeVRAMCNT bank cnt => s.writeVRAMCNT bank cnt
  | .writeVRAM target w => s.writeVRAM target w
  | .makeVRAMFlat X => makeVRAMFlat X s

def run (s : VRAMState) (acts : List Action) : VRAMState := acts.foldl step s

end VRAMState
end MelonDS.GPU

import MelonDS.Types

/-!
# The VRAM map and the nine VRAMCNT writes

`VRAMMap_*[i]` is the mask of banks visible in slot `i` of a region. The engine
regions also keep, per slot, the fast pointer `VRAMPtr_*[i]` and the capture flag
pointer `VRAMCBF_*[i]` of the bank when it is the only one. Each `MapVRAM_*`
takes the bank out of the slots its old control byte named and puts it into the
slots the new one names, by two separate switches.

The map is one table of slots indexed by region and number. The effects of
`MapVRAM_CD` outside the map (capture synchronisation, dirty bits, JIT
invalidation) are not part of this table.
-/

namespace MelonDS.GPU

inductive Region
  | lcdc | abg | aobj | bbg | bobj
  | abgExtPal | aobjExtPal | bbgExtPal | bobjExtPal
  | texture | texPal | arm7
deriving DecidableEq

/-- The regions with `VRAMPtr_*` and `VRAMCBF_*` tables. -/
def Region.hasPtr : Region → Bool
  | .abg | .aobj | .bbg | .bobj => true
  | _ => false

/-- `&VRAM[bank][offset]` -/
structure BankPtr where
  bank : ℕ
  offset : U32
deriving DecidableEq

structure Slot where
  mask : U32
  ptr : Option BankPtr
  cbf : Option ℕ
deriving DecidableEq

structure VRAMMap where
  vramCNT : ℕ → U8
  vramSTAT : U8
  slot : Region → ℕ → Slot

def vramMaskTable : List U32 :=
  [0x1FFFF, 0x1FFFF, 0x1FFFF, 0x1FFFF, 0xFFFF, 0x3FFF, 0x3FFF, 0x7FFF, 0x3FFF]

def vramMask (bank : ℕ) : U32 := vramMaskTable.getD bank 0

/-- A mask of exactly one bank points into that bank. -/
def getUniqueBankPtr (mask offset : U32) : Option BankPtr :=
  if mask = 0 ∨ mask &&& (mask - 1) ≠ 0 then none
  else
    let num := mask.ctz.toNat
    some ⟨num, offset &&& vramMask num⟩

/-- The index into `VRAMCaptureBlockFlags`; only banks A to D hold captures. -/
def getUniqueBankCBF (mask offset : U32) : Option ℕ :=
  if mask = 0 ∨ mask &&& (mask - 1) ≠ 0 then none
  else if mask &&& 0x1F0 ≠ 0 then none
  else
    let num := mask.ctz.toNat
    some (num * 4 + ((offset >>> 1) &&& 3).toNat)

def bankMask (bank : ℕ) : U32 := bit 32 bank

def Slot.map (bank : ℕ) (s : Slot) : Slot := { s with mask := s.mask ||| bankMask bank }

def Slot.unmap (bank : ℕ) (s : Slot) : Slot := { s with mask := s.mask &&& ~~~bankMask bank }

/-- `VRAMPtr[i] = GetUniqueBankPtr(VRAMMap[i], i << 14)` -/
def Slot.setPtr (i : ℕ) (s : Slot) : Slot :=
  { s with ptr := getUniqueBankPtr s.mask (BitVec.ofNat 32 (i <<< 14)) }

/-- `VRAMCBF[i] = GetUniqueBankCBF(VRAMMap[i], i)` -/
def Slot.setCBF (i : ℕ) (s : Slot) : Slot :=
  { s with cbf := getUniqueBankCBF s.mask (BitVec.ofNat 32 i) }

namespace VRAMMap

def reset : VRAMMap where
  vramCNT := fun _ => 0
  vramSTAT := 0
  slot := fun _ _ => ⟨0, none, none⟩

def onSlot (v : VRAMMap) (r : Region) (i : ℕ) (g : Slot → Slot) : VRAMMap :=
  { v with slot := fun r' i' => if r' = r ∧ i' = i then g (v.slot r i) else v.slot r' i' }

def onSlots (v : VRAMMap) (r : Region) (is : List ℕ) (g : ℕ → Slot → Slot) : VRAMMap :=
  is.foldl (fun v i => v.onSlot r i (g i)) v

/-- `MAP_RANGE` -/
def mapRange (bank : ℕ) (r : Region) (base n : ℕ) (v : VRAMMap) : VRAMMap :=
  v.onSlots r (List.range' base n) fun _ s => s.map bank

/-- `UNMAP_RANGE` -/
def unmapRange (bank : ℕ) (r : Region) (base n : ℕ) (v : VRAMMap) : VRAMMap :=
  v.onSlots r (List.range' base n) fun _ s => s.unmap bank

/-- `MAP_RANGE_PTR` -/
def mapRangePtr (bank : ℕ) (r : Region) (base n : ℕ) (v : VRAMMap) : VRAMMap :=
  v.onSlots r (List.range' base n) fun i s => (s.map bank).setPtr i

/-- `UNMAP_RANGE_PTR` -/
def unmapRangePtr (bank : ℕ) (r : Region) (base n : ℕ) (v : VRAMMap) : VRAMMap :=
  v.onSlots r (List.range' base n) fun i s => (s.unmap bank).setPtr i

/-- `SET_RANGE_CBF` -/
def setRangeCBF (r : Region) (base : ℕ) (v : VRAMMap) : VRAMMap :=
  v.onSlots r (List.range' base 8) Slot.setCBF

/-- The assignments `MapVRAM_FG` makes for an engine region: both slots, then
both pointers, then both capture flag pointers. -/
def pairPtr (g : Slot → Slot) (r : Region) (base : ℕ) (v : VRAMMap) : VRAMMap :=
  ((((((v.onSlot r base g).onSlot r (base + 2) g).onSlot r base (Slot.setPtr base)).onSlot r
    (base + 2) (Slot.setPtr (base + 2))).onSlot r base (Slot.setCBF base)).onSlot r
    (base + 2) (Slot.setCBF (base + 2)))

/-- The loop `for (int i : {...})` of `MapVRAM_H` and `MapVRAM_I`. -/
def eachPtr (g : Slot → Slot) (r : Region) (is : List ℕ) (v : VRAMMap) : VRAMMap :=
  v.onSlots r is fun i s => ((g s).setPtr i).setCBF i

/-- `(cnt >> 3) & m` -/
def ofs (cnt m : U8) : ℕ := ((cnt >>> 3) &&& m).toNat

/-- `(ofs & 0x1) + ((ofs & 0x2) << 1)`, for banks F and G. -/
def baseFG (o : ℕ) : ℕ := (o &&& 1) + ((o &&& 2) <<< 1)

/-! The two switches of each function: `leave` undoes the old control byte,
`enter` applies the new one, both only when its bit 7 is set. -/

def leaveAB (bank : ℕ) (oldcnt : U8) (v : VRAMMap) : VRAMMap :=
  if oldcnt.getLsbD 7 then
    match (oldcnt &&& 0x3).toNat with
    | 0 => v.onSlot .lcdc 0 (Slot.unmap bank)
    | 1 => setRangeCBF .abg (ofs oldcnt 0x3 <<< 3) (unmapRangePtr bank .abg (ofs oldcnt 0x3 <<< 3) 8 v)
    | 2 =>
      setRangeCBF .aobj ((ofs oldcnt 0x3 &&& 1) <<< 3)
        (unmapRangePtr bank .aobj ((ofs oldcnt 0x3 &&& 1) <<< 3) 8 v)
    | 3 => v.onSlot .texture (ofs oldcnt 0x3) (Slot.unmap bank)
    | _ => v
  else v

def enterAB (bank : ℕ) (cnt : U8) (v : VRAMMap) : VRAMMap :=
  if cnt.getLsbD 7 then
    match (cnt &&& 0x3).toNat with
    | 0 => v.onSlot .lcdc 0 (Slot.map bank)
    | 1 => setRangeCBF .abg (ofs cnt 0x3 <<< 3) (mapRangePtr bank .abg (ofs cnt 0x3 <<< 3) 8 v)
    | 2 =>
      setRangeCBF .aobj ((ofs cnt 0x3 &&& 1) <<< 3)
        (mapRangePtr bank .aobj ((ofs cnt 0x3 &&& 1) <<< 3) 8 v)
    | 3 => v.onSlot .texture (ofs cnt 0x3) (Slot.map bank)
    | _ => v
  else v

def mapVRAM_AB (v : VRAMMap) (bank : ℕ) (cnt : U8) : VRAMMap :=
  let cnt := cnt &&& 0x9B
  let oldcnt := v.vramCNT bank
  let v := { v with vramCNT := Function.update v.vramCNT bank cnt }
  if oldcnt = cnt then v else enterAB bank cnt (leaveAB bank oldcnt v)

def leaveCD (bank : ℕ) (oldcnt : U8) (v : VRAMMap) : VRAMMap :=
  if oldcnt.getLsbD 7 then
    match (oldcnt &&& 0x7).toNat with
    | 0 => v.onSlot .lcdc 0 (Slot.unmap bank)
    | 1 => setRangeCBF .abg (ofs oldcnt 0x7 <<< 3) (unmapRangePtr bank .abg (ofs oldcnt 0x7 <<< 3) 8 v)
    | 2 => v.onSlot .arm7 (ofs oldcnt 0x7 &&& 1) (Slot.unmap bank)
    | 3 => v.onSlot .texture (ofs oldcnt 0x7) (Slot.unmap bank)
    | 4 =>
      if bank = 2 then setRangeCBF .bbg 0 (unmapRangePtr bank .bbg 0 8 v)
      else setRangeCBF .bobj 0 (unmapRangePtr bank .bobj 0 8 v)
    | _ => v
  else v

def enterCD (bank : ℕ) (cnt : U8) (v : VRAMMap) : VRAMMap :=
  if cnt.getLsbD 7 then
    match (cnt &&& 0x7).toNat with
    | 0 => v.onSlot .lcdc 0 (Slot.map bank)
    | 1 => setRangeCBF .abg (ofs cnt 0x7 <<< 3) (mapRangePtr bank .abg (ofs cnt 0x7 <<< 3) 8 v)
    | 2 =>
      let v := v.onSlot .arm7 (ofs cnt 0x7 &&& 1) (Slot.map bank)
      { v with vramSTAT := v.vramSTAT ||| bit 8 (bank - 2) }
    | 3 => v.onSlot .texture (ofs cnt 0x7) (Slot.map bank)
    | 4 =>
      if bank = 2 then setRangeCBF .bbg 0 (mapRangePtr bank .bbg 0 8 v)
      else setRangeCBF .bobj 0 (mapRangePtr bank .bobj 0 8 v)
    | _ => v
  else v

def mapVRAM_CD (v : VRAMMap) (bank : ℕ) (cnt : U8) : VRAMMap :=
  let cnt := cnt &&& 0x9F
  let oldcnt := v.vramCNT bank
  if oldcnt = cnt then v
  else
    let v := { v with
      vramCNT := Function.update v.vramCNT bank cnt
      vramSTAT := v.vramSTAT &&& ~~~bit 8 (bank - 2) }
    enterCD bank cnt (leaveCD bank oldcnt v)

def leaveE (bank : ℕ) (oldcnt : U8) (v : VRAMMap) : VRAMMap :=
  if oldcnt.getLsbD 7 then
    match (oldcnt &&& 0x7).toNat with
    | 0 => v.onSlot .lcdc 0 (Slot.unmap bank)
    | 1 => setRangeCBF .abg 0 (unmapRangePtr bank .abg 0 4 v)
    | 2 => setRangeCBF .aobj 0 (unmapRangePtr bank .aobj 0 4 v)
    | 3 => unmapRange bank .texPal 0 4 v
    | 4 => unmapRange bank .abgExtPal 0 4 v
    | _ => v
  else v

def enterE (bank : ℕ) (cnt : U8) (v : VRAMMap) : VRAMMap :=
  if cnt.getLsbD 7 then
    match (cnt &&& 0x7).toNat with
    | 0 => v.onSlot .lcdc 0 (Slot.map bank)
    | 1 => setRangeCBF .abg 0 (mapRangePtr bank .abg 0 4 v)
    | 2 => setRangeCBF .aobj 0 (mapRangePtr bank .aobj 0 4 v)
    | 3 => mapRange bank .texPal 0 4 v
    | 4 => mapRange bank .abgExtPal 0 4 v
    | _ => v
  else v

def mapVRAM_E (v : VRAMMap) (bank : ℕ) (cnt : U8) : VRAMMap :=
  let cnt := cnt &&& 0x87
  let oldcnt := v.vramCNT bank
  let v := { v with vramCNT := Function.update v.vramCNT bank cnt }
  if oldcnt = cnt then v else enterE bank cnt (leaveE bank oldcnt v)

def leaveFG (bank : ℕ) (oldcnt : U8) (v : VRAMMap) : VRAMMap :=
  let oldofs := ofs oldcnt 0x7
  if oldcnt.getLsbD 7 then
    match (oldcnt &&& 0x7).toNat with
    | 0 => v.onSlot .lcdc 0 (Slot.unmap bank)
    | 1 => pairPtr (Slot.unmap bank) .abg (baseFG oldofs) v
    | 2 => pairPtr (Slot.unmap bank) .aobj (baseFG oldofs) v
    | 3 => v.onSlot .texPal (baseFG oldofs) (Slot.unmap bank)
    | 4 =>
      (v.onSlot .abgExtPal ((oldofs &&& 1) <<< 1) (Slot.unmap bank)).onSlot .abgExtPal
        (((oldofs &&& 1) <<< 1) + 1) (Slot.unmap bank)
    | 5 => v.onSlot .aobjExtPal 0 (Slot.unmap bank)
    | _ => v
  else v

def enterFG (bank : ℕ) (cnt : U8) (v : VRAMMap) : VRAMMap :=
  let o := ofs cnt 0x7
  if cnt.getLsbD 7 then
    match (cnt &&& 0x7).toNat with
    | 0 => v.onSlot .lcdc 0 (Slot.map bank)
    | 1 => pairPtr (Slot.map bank) .abg (baseFG o) v
    | 2 => pairPtr (Slot.map bank) .aobj (baseFG o) v
    | 3 => v.onSlot .texPal (baseFG o) (Slot.map bank)
    | 4 =>
      (v.onSlot .abgExtPal ((o &&& 1) <<< 1) (Slot.map bank)).onSlot .abgExtPal
        (((o &&& 1) <<< 1) + 1) (Slot.map bank)
    | 5 => v.onSlot .aobjExtPal 0 (Slot.map bank)
    | _ => v
  else v

def mapVRAM_FG (v : VRAMMap) (bank : ℕ) (cnt : U8) : VRAMMap :=
  let cnt := cnt &&& 0x9F
  let oldcnt := v.vramCNT bank
  let v := { v with vramCNT := Function.update v.vramCNT bank cnt }
  if oldcnt = cnt then v else enterFG bank cnt (leaveFG bank oldcnt v)

def leaveH (bank : ℕ) (oldcnt : U8) (v : VRAMMap) : VRAMMap :=
  if oldcnt.getLsbD 7 then
    match (oldcnt &&& 0x3).toNat with
    | 0 => v.onSlot .lcdc 0 (Slot.unmap bank)
    | 1 => eachPtr (Slot.unmap bank) .bbg [0, 1, 4, 5] v
    | 2 => unmapRange bank .bbgExtPal 0 4 v
    | _ => v
  else v

def enterH (bank : ℕ) (cnt : U8) (v : VRAMMap) : VRAMMap :=
  if cnt.getLsbD 7 then
    match (cnt &&& 0x3).toNat with
    | 0 => v.onSlot .lcdc 0 (Slot.map bank)
    | 1 => eachPtr (Slot.map bank) .bbg [0, 1, 4, 5] v
    | 2 => mapRange bank .bbgExtPal 0 4 v
    | _ => v
  else v

def mapVRAM_H (v : VRAMMap) (bank : ℕ) (cnt : U8) : VRAMMap :=
  let cnt := cnt &&& 0x83
  let oldcnt := v.vramCNT bank
  let v := { v with vramCNT := Function.update v.vramCNT bank cnt }
  if oldcnt = cnt then v else enterH bank cnt (leaveH bank oldcnt v)

def leaveI (bank : ℕ) (oldcnt : U8) (v : VRAMMap) : VRAMMap :=
  if oldcnt.getLsbD 7 then
    match (oldcnt &&& 0x3).toNat with
    | 0 => v.onSlot .lcdc 0 (Slot.unmap bank)
    | 1 => eachPtr (Slot.unmap bank) .bbg [2, 3, 6, 7] v
    | 2 => setRangeCBF .bobj 0 (unmapRangePtr bank .bobj 0 8 v)
    | 3 => v.onSlot .bobjExtPal 0 (Slot.unmap bank)
    | _ => v
  else v

def enterI (bank : ℕ) (cnt : U8) (v : VRAMMap) : VRAMMap :=
  if cnt.getLsbD 7 then
    match (cnt &&& 0x3).toNat with
    | 0 => v.onSlot .lcdc 0 (Slot.map bank)
    | 1 => eachPtr (Slot.map bank) .bbg [2, 3, 6, 7] v
    | 2 => setRangeCBF .bobj 0 (mapRangePtr bank .bobj 0 8 v)
    | 3 => v.onSlot .bobjExtPal 0 (Slot.map bank)
    | _ => v
  else v

def mapVRAM_I (v : VRAMMap) (bank : ℕ) (cnt : U8) : VRAMMap :=
  let cnt := cnt &&& 0x83
  let oldcnt := v.vramCNT bank
  let v := { v with vramCNT := Function.update v.vramCNT bank cnt }
  if oldcnt = cnt then v else enterI bank cnt (leaveI bank oldcnt v)

/-- A byte store to `0x04000240` and on: each register calls the function of its bank. -/
def writeVRAMCNT (v : VRAMMap) (bank : Fin 9) (cnt : U8) : VRAMMap :=
  match bank with
  | 0 | 1 => v.mapVRAM_AB bank cnt
  | 2 | 3 => v.mapVRAM_CD bank cnt
  | 4 => v.mapVRAM_E bank cnt
  | 5 | 6 => v.mapVRAM_FG bank cnt
  | 7 => v.mapVRAM_H bank cnt
  | 8 => v.mapVRAM_I bank cnt

/-- The state after a sequence of VRAMCNT writes. -/
def run (v : VRAMMap) (writes : List (Fin 9 × U8)) : VRAMMap :=
  writes.foldl (fun v w => v.writeVRAMCNT w.1 w.2) v

end VRAMMap
end MelonDS.GPU

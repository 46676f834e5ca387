import MelonDS.NDSCart.CartRetail

/-!
# The ROM bus of a cartridge

The commands that every cart understands. The slot holds the KEY1 state: `decrypt` is what
it makes of the two words of a command, and starting KEY1 only concerns the slot.
-/

namespace MelonDS.NDSCart

/-- What a cart reads on the ROM bus and never changes. -/
structure CartROM where
  rom : ℕ → U8
  romLength : ℕ
  chipID : U32
  isDSi : Bool
  dsiBase : U32
  lenientAddressing : Bool

namespace CartROM

def romMask (r : CartROM) : U32 := BitVec.ofNat 32 r.romLength - 1

end CartROM

/-- `*(u32*)&mem[i]` -/
def word (mem : ℕ → U8) (i : ℕ) : U32 := mem (i + 3) ++ mem (i + 2) ++ mem (i + 1) ++ mem i

/-- A word of a page of 4 KiB: one that is not aligned wraps at the end of the page. -/
def readPage (mem : ℕ → U8) (addrhi addrlo : ℕ) : U32 :=
  if addrlo % 4 ≠ 0 then
    mem (addrhi + (addrlo + 3) % 0x1000) ++ mem (addrhi + (addrlo + 2) % 0x1000) ++
      mem (addrhi + (addrlo + 1) % 0x1000) ++ mem (addrhi + addrlo)
  else word mem (addrhi + addrlo)

/-- The address in a command, most significant byte first. -/
def commandAddress (cmd : Fin 8 → U8) : U32 := cmd 1 ++ cmd 2 ++ cmd 3 ++ cmd 4

/-- The command that KEY1 makes of the bytes on the bus. -/
def decryptCommand (decrypt : U32 × U32 → U32 × U32) (cmd : Fin 8 → U8) : Fin 8 → U8 :=
  let words := decrypt (cmd 4 ++ cmd 5 ++ cmd 6 ++ cmd 7, cmd 0 ++ cmd 1 ++ cmd 2 ++ cmd 3)
  fun i => (words.2 ++ words.1 : U64).extractLsb' (8 * (7 - i.val)) 8

namespace CartCommon

def setupDirectBoot (dsi : Bool) (r : CartROM) (c : CartCommon) : CartCommon :=
  { c with cmdEncMode := 2, dataEncMode := 2, dsiMode := r.isDSi && dsi }

def romRead32 (r : CartROM) (c : CartCommon) : U32 × CartCommon :=
  let addr := (c.romAddr &&& r.romMask).toNat
  let addrhi := addr / 0x1000 * 0x1000
  let addrlo := c.romAddr.toNat % 0x1000
  (readPage r.rom addrhi addrlo,
    { c with romAddr := BitVec.ofNat 32 (addrhi + (addrlo + 4) % 0x1000) })

/-- The address of a data command, redirected where the cart does not answer. -/
def dataAddress (addr : U32) (r : CartROM) (c : CartCommon) : U32 :=
  let addr := addr &&& r.romMask
  if r.lenientAddressing then addr
  else
    let addr := if addr < 0x8000 then 0x8000 + (addr &&& 0x1FF) else addr
    if r.isDSi ∧ addr ≥ r.dsiBase ∧ (c.dsiMode = false ∨ addr < r.dsiBase + 0x3000) then
      0x8000 + (addr &&& 0x1FF)
    else addr

def romCommandStart (decrypt : U32 × U32 → U32 × U32) (cmd : Fin 8 → U8) (r : CartROM)
    (c : CartCommon) : CartCommon :=
  if c.resetState then c
  else if c.cmdEncMode = 0 then
    let c := { c with romCmd := cmd }
    if cmd 0 = 0x00 then { c with romAddr := commandAddress cmd &&& 0xFFF }
    else if cmd 0 = 0x3C then { c with cmdEncMode := 1, dsiMode := false }
    else if cmd 0 = 0x3D ∧ r.isDSi then { c with cmdEncMode := 1, dsiMode := true }
    else c
  else if c.cmdEncMode = 1 then
    let cmd := decryptCommand decrypt cmd
    let c := { c with romCmd := cmd }
    if cmd 0 &&& 0xF0 = 0x40 then { c with dataEncMode := 2 }
    else if cmd 0 &&& 0xF0 = 0x20 then
      let addr : U32 := (cmd 2 &&& 0xF0).setWidth 32 <<< 8
      { c with romAddr := if c.dsiMode then addr - 0x1000 + r.dsiBase else addr }
    else if cmd 0 &&& 0xF0 = 0xA0 then { c with cmdEncMode := 2 }
    else c
  else if c.cmdEncMode = 2 then
    let c := { c with romCmd := cmd }
    if cmd 0 = 0xB7 then { c with romAddr := c.dataAddress (commandAddress cmd) r } else c
  else c

def romCommandReceive (r : CartROM) (c : CartCommon) : U32 × CartCommon :=
  if c.resetState then (0, c)
  else if c.cmdEncMode = 0 then
    if c.romCmd 0 = 0x9F then (0xFFFFFFFF, c)
    else if c.romCmd 0 = 0x00 then c.romRead32 r
    else if c.romCmd 0 = 0x90 then (r.chipID, c)
    else (0, c)
  else if c.cmdEncMode = 1 then
    if c.romCmd 0 &&& 0xF0 = 0x10 then (r.chipID, c)
    else if c.romCmd 0 &&& 0xF0 = 0x20 then c.romRead32 r
    else (0, c)
  else if c.cmdEncMode = 2 then
    if c.romCmd 0 = 0xB7 then c.romRead32 r
    else if c.romCmd 0 = 0xB8 then (r.chipID, c)
    else (0, c)
  else (0, c)

end CartCommon
end MelonDS.NDSCart

import MelonDS.ARM.Core

/-!
# Registers as the debugger sees them

`ReadReg` and `WriteReg` of `ARM.cpp`, for the registers of `GdbArch.h`.
-/

namespace MelonDS.ARM

/-- `Gdb::Register`: `r` are r0 to r12, sp and lr, `usr` are sp_usr and lr_usr, `fiq` are
r8_fiq to r12_fiq, sp_fiq and lr_fiq, `exc` the sp and lr of the other exceptions. -/
inductive Register
  | r (i : Fin 15)
  | pc
  | cpsr
  | usr (i : Fin 2)
  | fiq (i : Fin 7)
  | exc (m : Exc) (i : Fin 2)
  | spsrFIQ
  | spsr (m : Exc)
deriving DecidableEq

variable {σ : Type*} (core : Core σ)

def modeIs (psr mode : U32) : Bool :=
  let cm := psr &&& 0x1F
  let mode := mode &&& 0x1F
  mode = cm || (mode = 0x17 && 0x14 ≤ cm && cm ≤ 0x17) || (mode = 0x1B && 0x18 ≤ cm && cm ≤ 0x1B)

/-- The mode bits of an exception. -/
def Exc.mode : Exc → U32
  | .irq => 0x12
  | .svc => 0x13
  | .abt => 0x17
  | .und => 0x1B

/-- The cell of sp_usr or lr_usr, none where the register is reported as unknown. -/
def usrCell (psr : U32) (i : Fin 2) : Option Cell :=
  if modeIs psr 0x10 || modeIs psr 0x1F then some (.r (Fin.natAdd 13 (i.castLE (by decide : 2 ≤ 3))))
  else
    match (psr &&& 0x1F).toNat with
    | 0x11 => some (.rFIQ (Fin.natAdd 5 (i.castLE (by decide : 2 ≤ 3))))
    | 0x12 => some (rIRQ (i.castLE (by decide)))
    | 0x13 => some (rSVC (i.castLE (by decide)))
    | 0x17 => some (rABT (i.castLE (by decide)))
    | 0x1B => some (rUND (i.castLE (by decide)))
    | _ => none

def fiqCell (psr : U32) (i : Fin 7) : Cell :=
  if modeIs psr 0x11 then .r (Fin.natAdd 8 (i.castLE (by decide : 7 ≤ 8)))
  else .rFIQ (i.castLE (by decide))

def excCell (psr : U32) (m : Exc) (i : Fin 2) : Cell :=
  if modeIs psr m.mode then .r (Fin.natAdd 13 (i.castLE (by decide : 2 ≤ 3)))
  else .rExc m (i.castLE (by decide))

/-- The cell behind a register other than pc and cpsr. -/
def registerCell (psr : U32) : Register → Option Cell
  | .r i => some (.r (i.castLE (by decide)))
  | .pc | .cpsr => none
  | .usr i => usrCell psr i
  | .fiq i => some (fiqCell psr i)
  | .exc m i => some (excCell psr m i)
  | .spsrFIQ => some (.rFIQ 7)
  | .spsr m => some (.rExc m 2)

def readReg (reg : Register) (c : CPU σ) : U32 :=
  match reg with
  | .pc => c.get (.r 15) - if c.cpsr &&& 0x20 ≠ 0 then 2 else 4
  | .cpsr => c.cpsr
  | reg =>
    match registerCell c.cpsr reg with
    | some x => c.get x
    | none => 0xDEADBEEF

def writeReg (reg : Register) (v : U32) (c : CPU σ) : CPU σ :=
  match reg with
  | .pc => jumpTo core v false c
  | .cpsr => { c with cpsr := v }
  | reg =>
    match registerCell c.cpsr reg with
    | some x => c.set x v
    | none => c

end MelonDS.ARM

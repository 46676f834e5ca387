import MelonDS.ARM.BlockTransfer
import MelonDS.ARM.Debugger

/-!
# The architectural registers

The register file as the architecture has it: every bank is there all the time, and
the mode only says which registers the sixteen names stand for. Changing the mode
changes nothing but the status register, and each operation names the registers it
reads and writes.
-/

namespace MelonDS.ARM

inductive Bank
  | usr
  | fiq
  | exc (m : Exc)
deriving DecidableEq

/-- The bank of a mode; reserved modes have the one of user mode. -/
def bankOf (psr : U32) : Bank :=
  match (psr &&& 0x1F).toNat with
  | 0x11 => .fiq
  | 0x12 => .exc .irq
  | 0x13 => .exc .svc
  | 0x17 => .exc .abt
  | 0x1B => .exc .und
  | _ => .usr

/-- R0 to R7, R8 to R14 of the user and the FIQ bank, R13 and R14 of the other exceptions, R15
and the saved status registers. -/
inductive ArchReg
  | low (i : Fin 8)
  | usr (i : Fin 7)
  | fiq (i : Fin 7)
  | exc (m : Exc) (i : Fin 2)
  | pc
  | spsrFIQ
  | spsr (m : Exc)
deriving DecidableEq

/-- The register that `R[i]` stands for. -/
def named (b : Bank) (i : Fin 16) : ArchReg :=
  if h : i.val < 8 then .low ⟨i, h⟩
  else if i = 15 then .pc
  else
    match b with
    | .usr => .usr (Fin.ofNat 7 (i - 8))
    | .fiq => .fiq (Fin.ofNat 7 (i - 8))
    | .exc m => if i.val < 13 then .usr (Fin.ofNat 7 (i - 8)) else .exc m (Fin.ofNat 2 (i - 13))

structure Arch (σ : Type*) where
  regs : ArchReg → U32
  cpsr : U32
  highVectors : Bool
  bus : σ

variable {σ : Type*} (core : Core σ)

namespace Arch

def get (a : Arch σ) (x : ArchReg) : U32 := a.regs x

def set (a : Arch σ) (x : ArchReg) (v : U32) : Arch σ :=
  { a with regs := Function.update a.regs x v }

/-- The register that `R[i]` stands for in the current mode. -/
def reg (a : Arch σ) (i : Fin 16) : ArchReg := named (bankOf a.cpsr) i

def exceptionBase (a : Arch σ) : U32 := if a.highVectors then 0xFFFF0000 else 0

/-- A mode change alters no register. -/
def changeMode (psr : U32) (a : Arch σ) : Arch σ :=
  { a with
    cpsr := psr
    bus :=
      if a.cpsr &&& 0x1F ≠ psr &&& 0x1F ∧ core.num = .arm9 then
        core.selectMap (psr &&& 0x1F = 0x10) a.bus
      else a.bus }

def saved (psr : U32) : Option ArchReg :=
  match (psr &&& 0x1F).toNat with
  | 0x11 => some .spsrFIQ
  | 0x12 => some (.spsr .irq)
  | 0x13 => some (.spsr .svc)
  | 0x14 | 0x15 | 0x16 | 0x17 => some (.spsr .abt)
  | 0x18 | 0x19 | 0x1A | 0x1B => some (.spsr .und)
  | _ => none

def restoreCPSR (a : Arch σ) : Arch σ :=
  changeMode core ((match saved a.cpsr with
    | some x => a.get x
    | none => a.cpsr) ||| 0x10) a

def branchTo (addr : U32) (a : Arch σ) : Arch σ :=
  if addr &&& 1 ≠ 0 then
    { a.set .pc ((addr &&& ~~~1) + 2) with cpsr := a.cpsr ||| 0x20 }
  else
    { a.set .pc ((addr &&& ~~~3) + 4) with cpsr := a.cpsr &&& ~~~0x20 }

/-- An exception's saved status and return address. -/
def link (m : Exc) (oldcpsr offset : U32) (a : Arch σ) : Arch σ :=
  (a.set (.spsr m) oldcpsr).set (.exc m 1)
    (a.get .pc + if oldcpsr &&& 0x20 ≠ 0 then offset else 0)

def prefetchAbort (a : Arch σ) : Arch σ :=
  let oldcpsr := a.cpsr
  let a := changeMode core ((oldcpsr &&& ~~~0xBF) ||| 0x97) a
  if !core.executable a.bus (page a.exceptionBase) then a
  else branchTo (a.exceptionBase + 0x0C) (a.link .abt oldcpsr 2)

def jump (addr : U32) (a : Arch σ) : Arch σ :=
  let a := branchTo addr a
  if core.num = .arm9 ∧ !core.executable a.bus (page (jumpTarget addr)) then prefetchAbort core a
  else a

def jumpTo (addr : U32) (restorecpsr : Bool) (a : Arch σ) : Arch σ :=
  if restorecpsr then
    let a := restoreCPSR core a
    jump core (if a.cpsr &&& 0x20 ≠ 0 then addr ||| 1 else addr &&& ~~~1) a
  else jump core addr a

def dataAbort (a : Arch σ) : Arch σ :=
  let oldcpsr := a.cpsr
  let a := changeMode core ((oldcpsr &&& ~~~0xBF) ||| 0x97) a
  jump core (a.exceptionBase + 0x10) (a.link .abt oldcpsr 4)

def triggerIRQ (a : Arch σ) : Arch σ :=
  if a.cpsr &&& 0x80 ≠ 0 then a
  else
    let oldcpsr := a.cpsr
    let a := changeMode core ((oldcpsr &&& ~~~0xBF) ||| 0x92) a
    let a := jump core (a.exceptionBase + 0x18) (a.link .irq oldcpsr 2)
    if core.num = .arm7 then { a with bus := core.runCheats a.bus } else a

def dataRead32 (addr : U32) (a : Arch σ) : Option U32 × Arch σ :=
  if core.num = .arm9 ∧ !core.readable a.bus (page addr) then (none, dataAbort core a)
  else
    let (v, bus) := core.read32 (addr &&& ~~~3) a.bus
    (some v, { a with bus := bus })

def dataWrite32 (addr v : U32) (a : Arch σ) : Bool × Arch σ :=
  if core.num = .arm9 ∧ !core.writable a.bus (page addr) then (false, dataAbort core a)
  else (true, { a with bus := core.write32 (addr &&& ~~~3) v a.bus })

/-- The base of a transfer that aborted, given back to the register it came from. -/
def restoreTransferBase (reg : Fin 16) (base oldcpsr : U32) (a : Arch σ) : Arch σ :=
  if reg = 15 ∨ (reg = 14 ∧ oldcpsr &&& 0x1F = 0x17) then a
  else a.set (named (bankOf oldcpsr) reg) base

def emptyBlockTransfer (instr : U32) (load : Bool) (a : Arch σ) : Arch σ :=
  let rn := baseId instr
  let base := a.get (a.reg rn)
  let up := instr.getLsbD 23
  let writeback := if up then base + 0x40 else base - 0x40
  let setBase := fun a : Arch σ => if instr.getLsbD 21 then a.set (a.reg rn) writeback else a
  if core.num = .arm9 then setBase a
  else
    let address := (if up then base else writeback) + if instr.getLsbD 24 = up then 4 else 0
    if load then
      match dataRead32 core address a with
      | (none, a) => a
      | (some pc, a) => jumpTo core (pc &&& ~~~1) (instr.getLsbD 22) (setBase a)
    else setBase (dataWrite32 core address (a.get .pc + 4) a).2

/-- With `user` the registers are those of the user bank. -/
def loadRegs (preinc user : Bool) : List (Fin 16) → U32 → Arch σ → Option U32 × Arch σ
  | [], base, a => (some base, a)
  | i :: regs, base, a =>
    let addr := if preinc then base + 4 else base
    match dataRead32 core addr a with
    | (none, a) => (none, a)
    | (some v, a) => loadRegs preinc user regs (if preinc then addr else addr + 4)
        (a.set (if user then named .usr i else a.reg i) v)

def aLDM (instr : U32) (a : Arch σ) : Arch σ :=
  if instr &&& 0xFFFF = 0 then emptyBlockTransfer core instr true a
  else
    let rn := baseId instr
    let oldbase := a.get (a.reg rn)
    let oldcpsr := a.cpsr
    let up := instr.getLsbD 23
    let start := if up then oldbase else oldbase - listSize instr
    let preinc := if up then instr.getLsbD 24 else !instr.getLsbD 24
    let user := instr.getLsbD 22 && !instr.getLsbD 15
    match loadRegs core preinc user ((regList instr).filter (· ≠ 15)) start a with
    | (none, a) => restoreTransferBase rn oldbase oldcpsr a
    | (some base, a) =>
      let writeback := fun (base : U32) (a : Arch σ) =>
        if instr.getLsbD 21 then
          let wbbase := if up then base else start
          if instr.getLsbD rn then
            if core.num = .arm9 ∧ overwritesLoadedBase instr then a.set (a.reg rn) wbbase else a
          else a.set (a.reg rn) wbbase
        else a
      if instr.getLsbD 15 then
        let addr := if preinc then base + 4 else base
        match dataRead32 core addr a with
        | (none, a) => restoreTransferBase rn oldbase oldcpsr a
        | (some pc, a) =>
          let pc := if core.num = .arm7 then pc &&& ~~~1 else pc
          jumpTo core pc (instr.getLsbD 22)
            (writeback (if preinc then addr else addr + 4) a)
      else writeback base a

def storeRegs (instr oldbase : U32) (preinc isbanked : Bool) :
    List (Fin 16) → U32 → Arch σ → Option U32 × Arch σ
  | [], base, a => (some base, a)
  | i :: regs, base, a =>
    let addr := if preinc then base + 4 else base
    let value :=
      if i = baseId instr ∧ !isbanked then
        if core.num = .arm9 ∨ instr &&& ((1 <<< i.val) - 1) = 0 then oldbase else addr
      else
        a.get (if instr.getLsbD 22 then named .usr i else a.reg i) +
          if i = 15 ∧ core.num = .arm7 then 4 else 0
    match dataWrite32 core addr value a with
    | (false, a) => (none, a)
    | (true, a) => storeRegs instr oldbase preinc isbanked regs (if preinc then addr else addr + 4) a

def aSTM (instr : U32) (a : Arch σ) : Arch σ :=
  if instr &&& 0xFFFF = 0 then emptyBlockTransfer core instr false a
  else
    let rn := baseId instr
    let oldbase := a.get (a.reg rn)
    let up := instr.getLsbD 23
    let start := if up then oldbase else oldbase - listSize instr
    let preinc := if up then instr.getLsbD 24 else !instr.getLsbD 24
    match storeRegs core instr oldbase preinc (isBanked instr a.cpsr) (regList instr) start a with
    | (none, a) => a
    | (some base, a) =>
      if instr.getLsbD 21 then
        a.set (a.reg rn) (if up then base else oldbase - listSize instr)
      else a

/-- What the debugger's name stands for; pc and cpsr are not registers of a bank. -/
def debugReg (psr : U32) : Register → Option ArchReg
  | .r i => some (named (bankOf psr) (i.castLE (Nat.le_succ 15)))
  | .pc => some .pc
  | .cpsr => none
  | .usr i => some (.usr (Fin.natAdd 5 i))
  | .fiq i => some (.fiq i)
  | .exc m i => some (.exc m i)
  | .spsrFIQ => some .spsrFIQ
  | .spsr m => some (.spsr m)

def readReg (r : Register) (a : Arch σ) : U32 :=
  match r, debugReg a.cpsr r with
  | .pc, _ => a.get .pc - if a.cpsr &&& 0x20 ≠ 0 then 2 else 4
  | _, some x => a.get x
  | _, none => a.cpsr

/-- Writing pc moves it to the address, which is where it reads from again. -/
def writeReg (r : Register) (v : U32) (a : Arch σ) : Arch σ :=
  match r, debugReg a.cpsr r with
  | .pc, _ => a.set .pc (v + if a.cpsr &&& 0x20 ≠ 0 then 2 else 4)
  | _, some x => a.set x v
  | _, none => { a with cpsr := v }

end Arch

end MelonDS.ARM

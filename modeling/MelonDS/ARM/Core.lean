import Mathlib.Logic.Function.Basic
import Mathlib.Tactic.Common
import MelonDS.Types

/-!
# The CPU core

`ARM.cpp`: the register arrays, the mode changes that swap banks in place, jumps and
exceptions. A `Core` is what the rest of the system gives: which CPU it is, the
protection map and the data bus. Fetched instructions and cycle counts are left out.
-/

namespace MelonDS.ARM

inductive Num
  | arm9
  | arm7
deriving DecidableEq

/-- The exceptions with two registers of their own. -/
inductive Exc
  | irq
  | svc
  | abt
  | und
deriving DecidableEq

/-- The cells of `R`, `R_FIQ` and the four arrays `R_IRQ`, `R_SVC`, `R_ABT`, `R_UND`. -/
inductive Cell
  | r (i : Fin 16)
  | rFIQ (i : Fin 8)
  | rExc (m : Exc) (i : Fin 3)
deriving DecidableEq

abbrev rIRQ (i : Fin 3) : Cell := .rExc .irq i
abbrev rSVC (i : Fin 3) : Cell := .rExc .svc i
abbrev rABT (i : Fin 3) : Cell := .rExc .abt i
abbrev rUND (i : Fin 3) : Cell := .rExc .und i

abbrev Page := BitVec 20

/-- `addr >> 12` -/
def page (addr : U32) : Page := addr.extractLsb' 12 20

structure Core (σ : Type*) where
  num : Num
  /-- The bits of `PU_Map[page]`. -/
  readable : σ → Page → Bool
  writable : σ → Page → Bool
  executable : σ → Page → Bool
  /-- `PU_Map` set to the user map or the privileged map. -/
  selectMap : Bool → σ → σ
  read32 : U32 → σ → U32 × σ
  write32 : U32 → U32 → σ → σ
  /-- The cheats that run with an interrupt of the ARM7. -/
  runCheats : σ → σ

structure CPU (σ : Type*) where
  cells : Cell → U32
  cpsr : U32
  /-- `ExceptionBase` is 0xFFFF0000. -/
  highVectors : Bool
  bus : σ

/-- A core without memory, all of it permitted. -/
def bareCore (num : Num) : Core Unit where
  num := num
  readable _ _ := true
  writable _ _ := true
  executable _ _ := true
  selectMap _ s := s
  read32 _ s := (0, s)
  write32 _ _ s := s
  runCheats s := s

variable {σ : Type*}

namespace CPU

def get (c : CPU σ) (x : Cell) : U32 := c.cells x

def set (c : CPU σ) (x : Cell) (v : U32) : CPU σ := { c with cells := Function.update c.cells x v }

theorem get_set (c : CPU σ) (x : Cell) (v : U32) : (c.set x v).get x = v := by
  exact Function.update_self x v c.cells

/-- `std::swap` of two cells. -/
def swap (c : CPU σ) (x y : Cell) : CPU σ := (c.set x (c.get y)).set y (c.get x)

def exceptionBase (c : CPU σ) : U32 := if c.highVectors then 0xFFFF0000 else 0

def thumb (c : CPU σ) : Bool := c.cpsr &&& 0x20 ≠ 0

end CPU

/-- One of the two switches of `UpdateMode`. -/
def swapBank (mode : U32) (c : CPU σ) : CPU σ :=
  match (mode &&& 0x1F).toNat with
  | 0x11 => ((((((c.swap (.r 8) (.rFIQ 0)).swap (.r 9) (.rFIQ 1)).swap (.r 10) (.rFIQ 2)).swap
      (.r 11) (.rFIQ 3)).swap (.r 12) (.rFIQ 4)).swap (.r 13) (.rFIQ 5)).swap (.r 14) (.rFIQ 6)
  | 0x12 => (c.swap (.r 13) (rIRQ 0)).swap (.r 14) (rIRQ 1)
  | 0x13 => (c.swap (.r 13) (rSVC 0)).swap (.r 14) (rSVC 1)
  | 0x17 => (c.swap (.r 13) (rABT 0)).swap (.r 14) (rABT 1)
  | 0x1B => (c.swap (.r 13) (rUND 0)).swap (.r 14) (rUND 1)
  | _ => c

variable (core : Core σ)

def updateMode (oldmode newmode : U32) (phony : Bool) (c : CPU σ) : CPU σ :=
  if oldmode &&& 0x1F = newmode &&& 0x1F then c
  else
    let c := swapBank newmode (swapBank oldmode c)
    if !phony && core.num = .arm9 then
      { c with bus := core.selectMap (newmode &&& 0x1F = 0x10) c.bus }
    else c

/-- An assignment to `CPSR` and the `UpdateMode` behind it. -/
def changeMode (psr : U32) (c : CPU σ) : CPU σ :=
  updateMode core c.cpsr psr false { c with cpsr := psr }

/-- Where `RestoreCPSR` takes the saved status from. -/
def savedCell (psr : U32) : Option Cell :=
  match (psr &&& 0x1F).toNat with
  | 0x11 => some (.rFIQ 7)
  | 0x12 => some (rIRQ 2)
  | 0x13 => some (rSVC 2)
  | 0x14 | 0x15 | 0x16 | 0x17 => some (rABT 2)
  | 0x18 | 0x19 | 0x1A | 0x1B => some (rUND 2)
  | _ => none

def restoreCPSR (c : CPU σ) : CPU σ :=
  let psr := match savedCell c.cpsr with
    | some x => c.get x
    | none => c.cpsr
  changeMode core (psr ||| 0x10) c

/-- The part of `JumpTo` that moves the program counter and sets the state bit. -/
def branchTo (addr : U32) (c : CPU σ) : CPU σ :=
  if addr &&& 1 ≠ 0 then
    { c.set (.r 15) ((addr &&& ~~~1) + 2) with cpsr := c.cpsr ||| 0x20 }
  else
    { c.set (.r 15) ((addr &&& ~~~3) + 4) with cpsr := c.cpsr &&& ~~~0x20 }

/-- The address `JumpTo` ends at. -/
def jumpTarget (addr : U32) : U32 := if addr &&& 1 ≠ 0 then addr &&& ~~~1 else addr &&& ~~~3

/-- `PrefetchAbort`; the jump to the vector stays within the page just checked. -/
def prefetchAbort (c : CPU σ) : CPU σ :=
  let oldcpsr := c.cpsr
  let c := changeMode core ((oldcpsr &&& ~~~0xBF) ||| 0x97) c
  if !core.executable c.bus (page c.exceptionBase) then c
  else
    let c := c.set (rABT 2) oldcpsr
    let c := c.set (.r 14) (c.get (.r 15) + if oldcpsr &&& 0x20 ≠ 0 then 2 else 0)
    branchTo (c.exceptionBase + 0x0C) c

/-- `JumpTo`, without the restored status. -/
def jump (addr : U32) (c : CPU σ) : CPU σ :=
  let c := branchTo addr c
  if core.num = .arm9 ∧ !core.executable c.bus (page (jumpTarget addr)) then prefetchAbort core c
  else c

def jumpTo (addr : U32) (restorecpsr : Bool) (c : CPU σ) : CPU σ :=
  if restorecpsr then
    let c := restoreCPSR core c
    jump core (if c.thumb then addr ||| 1 else addr &&& ~~~1) c
  else jump core addr c

def dataAbort (c : CPU σ) : CPU σ :=
  let oldcpsr := c.cpsr
  let c := changeMode core ((oldcpsr &&& ~~~0xBF) ||| 0x97) c
  let c := c.set (rABT 2) oldcpsr
  let c := c.set (.r 14) (c.get (.r 15) + if oldcpsr &&& 0x20 ≠ 0 then 4 else 0)
  jump core (c.exceptionBase + 0x10) c

def triggerIRQ (c : CPU σ) : CPU σ :=
  if c.cpsr &&& 0x80 ≠ 0 then c
  else
    let oldcpsr := c.cpsr
    let c := changeMode core ((oldcpsr &&& ~~~0xBF) ||| 0x92) c
    let c := c.set (rIRQ 2) oldcpsr
    let c := c.set (.r 14) (c.get (.r 15) + if oldcpsr &&& 0x20 ≠ 0 then 2 else 0)
    let c := jump core (c.exceptionBase + 0x18) c
    if core.num = .arm7 then { c with bus := core.runCheats c.bus } else c

/-- `DataRead32`: no value when the access entered an exception. -/
def dataRead32 (addr : U32) (c : CPU σ) : Option U32 × CPU σ :=
  if core.num = .arm9 ∧ !core.readable c.bus (page addr) then (none, dataAbort core c)
  else
    let (v, bus) := core.read32 (addr &&& ~~~3) c.bus
    (some v, { c with bus := bus })

def dataWrite32 (addr v : U32) (c : CPU σ) : Bool × CPU σ :=
  if core.num = .arm9 ∧ !core.writable c.bus (page addr) then (false, dataAbort core c)
  else (true, { c with bus := core.write32 (addr &&& ~~~3) v c.bus })

end MelonDS.ARM

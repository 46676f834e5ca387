import MelonDS.ARM.Core
import MelonDS.Library.SignedRange

/-!
# Multiplies and saturating arithmetic

The functions of `ARMInterpreter_ALU.cpp`. The halfword multiplies do nothing on the ARM7 and the
saturating sums are undefined there.
-/

namespace MelonDS.ARM

variable {σ : Type*}

namespace CPU

def reg (c : CPU σ) (i : Fin 16) : U32 := c.get (.r i)

def setReg (c : CPU σ) (i : Fin 16) (v : U32) : CPU σ := c.set (.r i) v

@[simp] theorem cpsr_setReg (c : CPU σ) (i : Fin 16) (v : U32) : (c.setReg i v).cpsr = c.cpsr := rfl

@[simp] theorem bus_setReg (c : CPU σ) (i : Fin 16) (v : U32) : (c.setReg i v).bus = c.bus := rfl

@[simp] theorem highVectors_setReg (c : CPU σ) (i : Fin 16) (v : U32) :
    (c.setReg i v).highVectors = c.highVectors := rfl

@[simp] theorem cells_setReg (c : CPU σ) (i : Fin 16) (v : U32) :
    (c.setReg i v).cells = Function.update c.cells (.r i) v := rfl

def setNZ (n z : Bool) (c : CPU σ) : CPU σ :=
  { c with
    cpsr := (c.cpsr &&& ~~~0xC0000000) ||| (if n then 0x80000000 else 0) |||
      if z then 0x40000000 else 0 }

def setC (carry : Bool) (c : CPU σ) : CPU σ :=
  { c with cpsr := if carry then c.cpsr ||| 0x20000000 else c.cpsr &&& ~~~0x20000000 }

/-- The sticky overflow flag. -/
def setQ (c : CPU σ) : CPU σ := { c with cpsr := c.cpsr ||| 0x08000000 }

end CPU

def overflowAdd (a b : U32) : Bool :=
  (a ^^^ b) &&& 0x80000000 = 0 ∧ (a ^^^ (a + b)) &&& 0x80000000 ≠ 0

def overflowSub (a b : U32) : Bool :=
  (a ^^^ b) &&& 0x80000000 ≠ 0 ∧ (a ^^^ (a - b)) &&& 0x80000000 ≠ 0

variable (core : Core σ) (instr : U32)

/-- The register named by the four bits at `pos`. -/
def field (pos : ℕ) : Fin 16 := (instr.extractLsb' pos 4).toFin

/-- The flags of an S form. -/
def sFlags (n z : Bool) (c : CPU σ) : CPU σ :=
  if instr.getLsbD 20 then
    let c := c.setNZ n z
    if core.num = .arm7 then c.setC false else c
  else c

/-- A 32-bit product and its flags. -/
def store32 (res : U32) (c : CPU σ) : CPU σ :=
  sFlags core instr (res &&& 0x80000000 ≠ 0) (res = 0) (c.setReg (field instr 16) res)

/-- The two registers of a 64-bit product. -/
def store64 (res : U64) (c : CPU σ) : CPU σ :=
  (c.setReg (field instr 12) (res.setWidth 32)).setReg (field instr 16) ((res >>> 32).setWidth 32)

def rdLong (c : CPU σ) : U64 :=
  (c.reg (field instr 12)).setWidth 64 ||| (c.reg (field instr 16)).setWidth 64 <<< 32

def aMUL (c : CPU σ) : CPU σ :=
  let rm := c.reg (field instr 0)
  let rs := c.reg (field instr 8)
  store32 core instr (rm * rs) c

def aMLA (c : CPU σ) : CPU σ :=
  let rm := c.reg (field instr 0)
  let rs := c.reg (field instr 8)
  let rn := c.reg (field instr 12)
  store32 core instr (rm * rs + rn) c

def long (res : U64) (c : CPU σ) : CPU σ :=
  sFlags core instr ((res >>> 63).setWidth 32 ≠ (0 : U32)) (res = 0) (store64 instr res c)

/-- A signed 64-bit result, shifted with its sign. -/
def longSigned (res : S64) (c : CPU σ) : CPU σ :=
  sFlags core instr ((res.sshiftRight 63).setWidth 32 ≠ (0 : U32)) (res = 0)
    ((c.setReg (field instr 12) (res.setWidth 32)).setReg (field instr 16)
      ((res.sshiftRight 32).setWidth 32))

def aUMULL (c : CPU σ) : CPU σ :=
  let rm := c.reg (field instr 0)
  let rs := c.reg (field instr 8)
  long core instr (rm.setWidth 64 * rs.setWidth 64) c

def aUMLAL (c : CPU σ) : CPU σ :=
  let rm := c.reg (field instr 0)
  let rs := c.reg (field instr 8)
  long core instr (rm.setWidth 64 * rs.setWidth 64 + rdLong instr c) c

def aSMULL (c : CPU σ) : CPU σ :=
  let rm := c.reg (field instr 0)
  let rs := c.reg (field instr 8)
  longSigned core instr (rm.signExtend 64 * rs.signExtend 64) c

def aSMLAL (c : CPU σ) : CPU σ :=
  let rm := c.reg (field instr 0)
  let rs := c.reg (field instr 8)
  longSigned core instr (rm.signExtend 64 * rs.signExtend 64 + rdLong instr c) c

/-- The half that bit `b` of the instruction selects. -/
def half (b : ℕ) (v : U32) : S16 :=
  (if instr.getLsbD b then v >>> 16 else v &&& 0xFFFF).setWidth 16

/-- Adds a product to `rn`, with the overflow in the sticky flag. -/
def accumulate (resMul rn : U32) (c : CPU σ) : CPU σ :=
  let c := c.setReg (field instr 16) (resMul + rn)
  if overflowAdd resMul rn then c.setQ else c

def aSMLAxy (c : CPU σ) : CPU σ :=
  if core.num ≠ .arm9 then c
  else
    let rm := c.reg (field instr 0)
    let rs := c.reg (field instr 8)
    let rn := c.reg (field instr 12)
    accumulate instr ((half instr 5 rm).signExtend 32 * (half instr 6 rs).signExtend 32) rn c

def aSMLAWy (c : CPU σ) : CPU σ :=
  if core.num ≠ .arm9 then c
  else
    let rm := c.reg (field instr 0)
    let rs := c.reg (field instr 8)
    let rn := c.reg (field instr 12)
    accumulate instr
      (((rm.signExtend 64 * (half instr 6 rs).signExtend 64).sshiftRight 16).setWidth 32) rn c

def aSMULxy (c : CPU σ) : CPU σ :=
  if core.num ≠ .arm9 then c
  else
    let rm := c.reg (field instr 0)
    let rs := c.reg (field instr 8)
    c.setReg (field instr 16) ((half instr 5 rm).signExtend 32 * (half instr 6 rs).signExtend 32)

def aSMULWy (c : CPU σ) : CPU σ :=
  if core.num ≠ .arm9 then c
  else
    let rm := c.reg (field instr 0)
    let rs := c.reg (field instr 8)
    c.setReg (field instr 16)
      (((rm.signExtend 64 * (half instr 6 rs).signExtend 64).sshiftRight 16).setWidth 32)

def aSMLALxy (c : CPU σ) : CPU σ :=
  if core.num ≠ .arm9 then c
  else
    let rm := c.reg (field instr 0)
    let rs := c.reg (field instr 8)
    let res : S64 :=
      (half instr 5 rm).signExtend 64 * (half instr 6 rs).signExtend 64 + rdLong instr c
    (c.setReg (field instr 12) (res.setWidth 32)).setReg (field instr 16)
      ((res.sshiftRight 32).setWidth 32)

/-- `A_UNK` -/
def aUNK (c : CPU σ) : CPU σ :=
  let oldcpsr := c.cpsr
  let c := changeMode core ((oldcpsr &&& ~~~0xBF) ||| 0x9B) c
  let c := c.set (rUND 2) oldcpsr
  let c := c.set (.r 14) (c.get (.r 15) - 4)
  jumpTo core (c.exceptionBase + 0x04) false c

/-- The last step of the saturating instructions: `res`, or the limit on the other side of its
sign. -/
def saturate (overflow : Bool) (res : U32) (c : CPU σ) : CPU σ :=
  if overflow then
    c.setQ.setReg (field instr 12) (if res &&& 0x80000000 ≠ 0 then 0x7FFFFFFF else 0x80000000)
  else c.setReg (field instr 12) res

/-- The doubled operand of `A_QDADD` and `A_QDSUB`. -/
def doubled (rn : U32) : U32 :=
  if overflowAdd rn rn then (if rn &&& 0x80000000 ≠ 0 then 0x80000000 else 0x7FFFFFFF)
  else rn <<< 1

def doubleQ (rn : U32) (c : CPU σ) : CPU σ := if overflowAdd rn rn then c.setQ else c

def aQADD (c : CPU σ) : CPU σ :=
  if core.num ≠ .arm9 then aUNK core c
  else
    let rm := c.reg (field instr 0)
    let rn := c.reg (field instr 16)
    saturate instr (overflowAdd rm rn) (rm + rn) c

def aQSUB (c : CPU σ) : CPU σ :=
  if core.num ≠ .arm9 then aUNK core c
  else
    let rm := c.reg (field instr 0)
    let rn := c.reg (field instr 16)
    saturate instr (overflowSub rm rn) (rm - rn) c

def aQDADD (c : CPU σ) : CPU σ :=
  if core.num ≠ .arm9 then aUNK core c
  else
    let rm := c.reg (field instr 0)
    let rn := c.reg (field instr 16)
    saturate instr (overflowAdd rm (doubled rn)) (rm + doubled rn) (doubleQ rn c)

def aQDSUB (c : CPU σ) : CPU σ :=
  if core.num ≠ .arm9 then aUNK core c
  else
    let rm := c.reg (field instr 0)
    let rn := c.reg (field instr 16)
    saturate instr (overflowSub rm (doubled rn)) (rm - doubled rn) (doubleQ rn c)

/-! ## What the architecture asks -/

inductive MulOp
  | mul | mla | umull | umlal | smull | smlal
  | smulxy | smlaxy | smulwy | smlawy | smlalxy
  | qadd | qsub | qdadd | qdsub
deriving DecidableEq

def MulOp.run : MulOp → CPU σ → CPU σ
  | .mul => aMUL core instr
  | .mla => aMLA core instr
  | .umull => aUMULL core instr
  | .umlal => aUMLAL core instr
  | .smull => aSMULL core instr
  | .smlal => aSMLAL core instr
  | .smulxy => aSMULxy core instr
  | .smlaxy => aSMLAxy core instr
  | .smulwy => aSMULWy core instr
  | .smlawy => aSMLAWy core instr
  | .smlalxy => aSMLALxy core instr
  | .qadd => aQADD core instr
  | .qsub => aQSUB core instr
  | .qdadd => aQDADD core instr
  | .qdsub => aQDSUB core instr

namespace MulOp

/-- The instructions the ARM7 has too. -/
def both : MulOp → Bool
  | .mul | .mla | .umull | .umlal | .smull | .smlal => true
  | _ => false

/-- The result takes two registers. -/
def isLong : MulOp → Bool
  | .umull | .umlal | .smull | .smlal | .smlalxy => true
  | _ => false

def saturates : MulOp → Bool
  | .qadd | .qsub | .qdadd | .qdsub => true
  | _ => false

end MulOp

/-- The operands, as they were before the instruction. -/
structure Operands where
  rm : U32
  rs : U32
  /-- bits 12 to 15 -/
  lo : U32
  /-- bits 16 to 19 -/
  hi : U32

def operands (c : CPU σ) : Operands where
  rm := c.reg (field instr 0)
  rs := c.reg (field instr 8)
  lo := c.reg (field instr 12)
  hi := c.reg (field instr 16)

/-- The selected half of a register as a signed integer. -/
def halfInt (b : ℕ) (v : U32) : ℤ := (v.extractLsb' (if instr.getLsbD b then 16 else 0) 16).toInt

namespace Operands

/-- The accumulator of the long forms, high register first. -/
def acc (o : Operands) : U64 := o.hi ++ o.lo

/-- The exact integer the instruction computes, clamped at each of its steps where it
saturates. -/
def exact (o : Operands) : MulOp → ℤ
  | .mul => o.rm.toInt * o.rs.toInt
  | .mla => o.rm.toInt * o.rs.toInt + o.lo.toInt
  | .umull => o.rm.toNat * o.rs.toNat
  | .umlal => o.rm.toNat * o.rs.toNat + o.acc.toNat
  | .smull => o.rm.toInt * o.rs.toInt
  | .smlal => o.rm.toInt * o.rs.toInt + o.acc.toInt
  | .smulxy => halfInt instr 5 o.rm * halfInt instr 6 o.rs
  | .smlaxy => halfInt instr 5 o.rm * halfInt instr 6 o.rs + o.lo.toInt
  | .smulwy => o.rm.toInt * halfInt instr 6 o.rs / 2 ^ 16
  | .smlawy => o.rm.toInt * halfInt instr 6 o.rs / 2 ^ 16 + o.lo.toInt
  | .smlalxy => halfInt instr 5 o.rm * halfInt instr 6 o.rs + o.acc.toInt
  | .qadd => clamp 32 (o.rm.toInt + o.hi.toInt)
  | .qsub => clamp 32 (o.rm.toInt - o.hi.toInt)
  | .qdadd => clamp 32 (o.rm.toInt + clamp 32 (2 * o.hi.toInt))
  | .qdsub => clamp 32 (o.rm.toInt - clamp 32 (2 * o.hi.toInt))

/-- A step leaves the signed range. -/
def Overflows (o : Operands) : MulOp → Prop
  | .smlaxy => ¬Signed 32 (halfInt instr 5 o.rm * halfInt instr 6 o.rs + o.lo.toInt)
  | .smlawy => ¬Signed 32 (o.rm.toInt * halfInt instr 6 o.rs / 2 ^ 16 + o.lo.toInt)
  | .qadd => ¬Signed 32 (o.rm.toInt + o.hi.toInt)
  | .qsub => ¬Signed 32 (o.rm.toInt - o.hi.toInt)
  | .qdadd => ¬Signed 32 (2 * o.hi.toInt) ∨ ¬Signed 32 (o.rm.toInt + clamp 32 (2 * o.hi.toInt))
  | .qdsub => ¬Signed 32 (2 * o.hi.toInt) ∨ ¬Signed 32 (o.rm.toInt - clamp 32 (2 * o.hi.toInt))
  | _ => False

end Operands

/-- The S bit counts in the instructions both processors have. -/
def setsFlags (op : MulOp) : Bool := op.both && instr.getLsbD 20

/-- The registers with the result in them. -/
def stored (op : MulOp) (z : ℤ) (cells : Cell → U32) : Cell → U32 :=
  if op.isLong then
    Function.update (Function.update cells (.r (field instr 12)) (BitVec.ofInt 32 z))
      (.r (field instr 16)) (BitVec.ofInt 32 (z / 2 ^ 32))
  else Function.update cells (.r (field instr (if op.saturates then 12 else 16))) (BitVec.ofInt 32 z)

/-- The exact result is stored, and the flags say what the architecture has them say. -/
structure Executed (op : MulOp) (c c' : CPU σ) : Prop where
  cells : c'.cells = stored instr op ((operands instr c).exact instr op) c.cells
  negative : c'.cpsr.getLsbD 31 = if setsFlags instr op then
    decide (¬(0 : ℤ) ≤ (BitVec.ofInt (if op.isLong then 64 else 32)
      ((operands instr c).exact instr op)).toInt) else c.cpsr.getLsbD 31
  zero : c'.cpsr.getLsbD 30 = if setsFlags instr op then
    decide ((operands instr c).exact instr op % 2 ^ (if op.isLong then 64 else 32) = 0)
      else c.cpsr.getLsbD 30
  carry : c'.cpsr.getLsbD 29 =
    if setsFlags instr op ∧ core.num = .arm7 then false else c.cpsr.getLsbD 29
  sticky : c'.cpsr.getLsbD 27 = true ↔
    c.cpsr.getLsbD 27 = true ∨ (operands instr c).Overflows instr op
  others : ∀ i, i ≠ 31 → i ≠ 30 → i ≠ 29 → i ≠ 27 → c'.cpsr.getLsbD i = c.cpsr.getLsbD i
  bus : c'.bus = c.bus
  highVectors : c'.highVectors = c.highVectors

end MelonDS.ARM

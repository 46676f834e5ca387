import MelonDS.ARM.Multiply

/-!
# Data processing

`ARMInterpreter_ALU.cpp`: the shifts, the sixteen operations of ARM code with their nine operand
forms, and the arithmetic of Thumb code. Cycle counts are left out, and so is the debug output
of `mov r12, r12`.
-/

namespace MelonDS.ARM

variable {σ : Type*}

namespace CPU

def setNZCV (n z carry overflow : Bool) (c : CPU σ) : CPU σ :=
  { c with
    cpsr := (c.cpsr &&& ~~~0xF0000000) ||| (if n then 0x80000000 else 0) |||
      (if z then 0x40000000 else 0) ||| (if carry then 0x20000000 else 0) |||
      if overflow then 0x10000000 else 0 }

/-- `CPSR & 0x20000000` -/
def carryFlag (c : CPU σ) : Bool := c.cpsr &&& 0x20000000 ≠ 0

end CPU

/-! ## Sums and differences -/

def carryAdd (a b : U32) : Bool := 0xFFFFFFFF - a < b

def carrySub (a b : U32) : Bool := a ≥ b

def overflowAdc (a b carry : U32) : Bool :=
  let fullResult : S64 := a.signExtend 64 + b.signExtend 64 + carry.setWidth 64
  let res := a + b + carry
  res.signExtend 64 ≠ fullResult

def overflowSbc (a b carry : U32) : Bool :=
  let fullResult : S64 := a.signExtend 64 - b.signExtend 64 - carry.setWidth 64
  let res := a - b - carry
  res.signExtend 64 ≠ fullResult

/-- A result and the two flags that come with it. -/
structure Sum where
  res : U32
  carry : Bool
  overflow : Bool

def sumAdd (a b : U32) : Sum := ⟨a + b, carryAdd a b, overflowAdd a b⟩

def sumSub (a b : U32) : Sum := ⟨a - b, carrySub a b, overflowSub a b⟩

def sumAdc (a b : U32) (flag : Bool) : Sum :=
  let resTmp := a + b
  let carry : U32 := if flag then 1 else 0
  ⟨resTmp + carry, carryAdd a b || carryAdd resTmp carry, overflowAdc a b carry⟩

def sumSbc (a b : U32) (flag : Bool) : Sum :=
  let resTmp := a - b
  let carry : U32 := if flag then 0 else 1
  ⟨resTmp - carry, carrySub a b && carrySub resTmp carry, overflowSbc a b carry⟩

/-! ## Shifts -/

/-- `ROR` -/
def ror (x : U32) (n : ℕ) : U32 := x.rotateRight (n &&& 0x1F)

/-- A shift macro changes its operand, and the carry where its name ends in `_S`. -/
abbrev Shifter (σ : Type*) := U32 → ℕ → CPU σ → U32 × CPU σ

def lslImm : Shifter σ := fun x s c => (x <<< s, c)

def lsrImm : Shifter σ := fun x s c => (if s = 0 then 0 else x >>> s, c)

def asrImm : Shifter σ := fun x s c => (if s = 0 then x.sshiftRight 31 else x.sshiftRight s, c)

def rorImm : Shifter σ := fun x s c =>
  (if s = 0 then x >>> 1 ||| (c.cpsr &&& 0x20000000) <<< 2 else ror x s, c)

/-- The last bit a shift to the right by `s` drops. -/
def setCBit (x : U32) (i : ℕ) (c : CPU σ) : CPU σ := c.setC (x &&& (1 : U32) <<< i ≠ 0)

def lslImmS : Shifter σ := fun x s c => if s > 0 then (x <<< s, setCBit x (32 - s) c) else (x, c)

def lsrImmS : Shifter σ := fun x s c =>
  if s = 0 then (0, setCBit x 31 c) else (x >>> s, setCBit x (s - 1) c)

def asrImmS : Shifter σ := fun x s c =>
  if s = 0 then (x.sshiftRight 31, setCBit x 31 c) else (x.sshiftRight s, setCBit x (s - 1) c)

def rorImmS : Shifter σ := fun x s c =>
  if s = 0 then
    let newc := x &&& 1
    (x >>> 1 ||| (c.cpsr &&& 0x20000000) <<< 2, c.setC (newc ≠ 0))
  else (ror x s, setCBit x (s - 1) c)

def lslReg : Shifter σ := fun x s c => (if s > 31 then 0 else x <<< s, c)

def lsrReg : Shifter σ := fun x s c => (if s > 31 then 0 else x >>> s, c)

def asrReg : Shifter σ := fun x s c => (if s > 31 then x.sshiftRight 31 else x.sshiftRight s, c)

def rorReg : Shifter σ := fun x s c => (ror x (s &&& 0x1F), c)

def lslRegS : Shifter σ := fun x s c =>
  if s > 31 then (0, if s > 32 then c.setC false else setCBit x 0 c)
  else if s > 0 then (x <<< s, setCBit x (32 - s) c)
  else (x, c)

def lsrRegS : Shifter σ := fun x s c =>
  if s > 31 then (0, if s > 32 then c.setC false else setCBit x 31 c)
  else if s > 0 then (x >>> s, setCBit x (s - 1) c)
  else (x, c)

def asrRegS : Shifter σ := fun x s c =>
  if s > 31 then (x.sshiftRight 31, setCBit x 31 c)
  else if s > 0 then (x.sshiftRight s, setCBit x (s - 1) c)
  else (x, c)

def rorRegS : Shifter σ := fun x s c =>
  (ror x (s &&& 0x1F), if s > 0 then setCBit x ((s - 1) &&& 31) c else c)

inductive ShiftOp
  | lsl | lsr | asr | ror
deriving DecidableEq

/-- The macro of a shift by an immediate, with or without `_S`. -/
def ShiftOp.imm : ShiftOp → Bool → Shifter σ
  | .lsl, s => if s then lslImmS else lslImm
  | .lsr, s => if s then lsrImmS else lsrImm
  | .asr, s => if s then asrImmS else asrImm
  | .ror, s => if s then rorImmS else rorImm

/-- The macro of a shift by a register. -/
def ShiftOp.reg : ShiftOp → Bool → Shifter σ
  | .lsl, s => if s then lslRegS else lslReg
  | .lsr, s => if s then lsrRegS else lsrReg
  | .asr, s => if s then asrRegS else asrReg
  | .ror, s => if s then rorRegS else rorReg

/-! ## The second operand -/

/-- The nine operand forms. -/
inductive Form
  | imm
  | regImm (op : ShiftOp)
  | regReg (op : ShiftOp)
deriving DecidableEq

variable (core : Core σ) (instr : U32)

/-- `A_CALC_OP2_IMM` and `A_CALC_OP2_IMM_S` -/
def calcOp2Imm (s : Bool) (c : CPU σ) : U32 × CPU σ :=
  let b := ror (instr &&& 0xFF) ((instr >>> 7) &&& 0x1E).toNat
  (b, if s ∧ (instr >>> 7) &&& 0x1E ≠ 0 then c.setC (b &&& 0x80000000 ≠ 0) else c)

def calcOp2RegShiftImm (shiftop : Shifter σ) (c : CPU σ) : U32 × CPU σ :=
  shiftop (c.reg (field instr 0)) ((instr >>> 7) &&& 0x1F).toNat c

def calcOp2RegShiftReg (shiftop : Shifter σ) (c : CPU σ) : U32 × CPU σ :=
  let b := c.reg (field instr 0)
  let b := if field instr 0 = 15 then b + 4 else b
  shiftop b (c.reg (field instr 8) &&& 0xFF).toNat c

def calcOp2 (form : Form) (s : Bool) (c : CPU σ) : U32 × CPU σ :=
  match form with
  | .imm => calcOp2Imm instr s c
  | .regImm op => calcOp2RegShiftImm instr (op.imm s) c
  | .regReg op => calcOp2RegShiftReg instr (op.reg s) c

/-! ## The sixteen operations -/

def writeRd (res : U32) (c : CPU σ) : CPU σ :=
  if field instr 12 = 15 then jumpTo core (res &&& ~~~1) false c else c.setReg (field instr 12) res

def writeRdS (res : U32) (c : CPU σ) : CPU σ :=
  if field instr 12 = 15 then jumpTo core res true c else c.setReg (field instr 12) res

def flagsNZ (res : U32) (c : CPU σ) : CPU σ := c.setNZ (res &&& 0x80000000 ≠ 0) (res = 0)

def flagsNZCV (r : Sum) (c : CPU σ) : CPU σ :=
  c.setNZCV (r.res &&& 0x80000000 ≠ 0) (r.res = 0) r.carry r.overflow

/-- An operation, and the one with the S bit, on the first operand. -/
def logical (f : U32 → U32) (s : Bool) (c : CPU σ) : CPU σ :=
  let res := f (c.reg (field instr 16))
  if s then writeRdS core instr res (flagsNZ res c) else writeRd core instr res c

def arith (f : U32 → Sum) (s : Bool) (c : CPU σ) : CPU σ :=
  let r := f (c.reg (field instr 16))
  if s then writeRdS core instr r.res (flagsNZCV r c) else writeRd core instr r.res c

def aAND (b : U32) : Bool → CPU σ → CPU σ := logical core instr fun a => a &&& b

def aEOR (b : U32) : Bool → CPU σ → CPU σ := logical core instr fun a => a ^^^ b

def aORR (b : U32) : Bool → CPU σ → CPU σ := logical core instr fun a => a ||| b

def aMOV (b : U32) : Bool → CPU σ → CPU σ := logical core instr fun _ => b

def aBIC (b : U32) : Bool → CPU σ → CPU σ := logical core instr fun a => a &&& ~~~b

def aMVN (b : U32) : Bool → CPU σ → CPU σ := logical core instr fun _ => ~~~b

def aSUB (b : U32) : Bool → CPU σ → CPU σ := arith core instr fun a => sumSub a b

def aRSB (b : U32) : Bool → CPU σ → CPU σ := arith core instr fun a => sumSub b a

def aADD (b : U32) : Bool → CPU σ → CPU σ := arith core instr fun a => sumAdd a b

def aADC (b : U32) (s : Bool) (c : CPU σ) : CPU σ :=
  arith core instr (fun a => sumAdc a b c.carryFlag) s c

def aSBC (b : U32) (s : Bool) (c : CPU σ) : CPU σ :=
  arith core instr (fun a => sumSbc a b c.carryFlag) s c

def aRSC (b : U32) (s : Bool) (c : CPU σ) : CPU σ :=
  arith core instr (fun a => sumSbc b a c.carryFlag) s c

def aTST (b : U32) (c : CPU σ) : CPU σ := flagsNZ (c.reg (field instr 16) &&& b) c

def aTEQ (b : U32) (c : CPU σ) : CPU σ := flagsNZ (c.reg (field instr 16) ^^^ b) c

def aCMP (b : U32) (c : CPU σ) : CPU σ := flagsNZCV (sumSub (c.reg (field instr 16)) b) c

def aCMN (b : U32) (c : CPU σ) : CPU σ := flagsNZCV (sumAdd (c.reg (field instr 16)) b) c

/-- The operations whose S form takes its carry from the shift. -/
inductive Logical
  | and | eor | tst | teq | orr | mov | bic | mvn
deriving DecidableEq

inductive Arith
  | sub | rsb | add | adc | sbc | rsc | cmp | cmn
deriving DecidableEq

inductive AluOp
  | logical (l : Logical)
  | arith (r : Arith)
deriving DecidableEq

namespace AluOp

def isLogical : AluOp → Bool
  | .logical _ => true
  | .arith _ => false

/-- The operations that set the flags and nothing else. -/
def isTest : AluOp → Bool
  | .logical .tst | .logical .teq | .arith .cmp | .arith .cmn => true
  | _ => false

def run : AluOp → U32 → Bool → CPU σ → CPU σ
  | .logical .and, b, s => aAND core instr b s
  | .logical .eor, b, s => aEOR core instr b s
  | .logical .tst, b, _ => aTST instr b
  | .logical .teq, b, _ => aTEQ instr b
  | .logical .orr, b, s => aORR core instr b s
  | .logical .mov, b, s => aMOV core instr b s
  | .logical .bic, b, s => aBIC core instr b s
  | .logical .mvn, b, s => aMVN core instr b s
  | .arith .sub, b, s => aSUB core instr b s
  | .arith .rsb, b, s => aRSB core instr b s
  | .arith .add, b, s => aADD core instr b s
  | .arith .adc, b, s => aADC core instr b s
  | .arith .sbc, b, s => aSBC core instr b s
  | .arith .rsc, b, s => aRSC core instr b s
  | .arith .cmp, b, _ => aCMP instr b
  | .arith .cmn, b, _ => aCMN instr b

end AluOp

/-- The instructions of `A_IMPLEMENT_ALU_OP`, and of `A_IMPLEMENT_ALU_TEST`, which have no form
without flags. -/
def implementALU (op : AluOp) (form : Form) (s : Bool) (c : CPU σ) : CPU σ :=
  let (b, c) := calcOp2 instr form ((s || op.isTest) && op.isLogical) c
  op.run core instr b s c

/-! ## Thumb code -/

/-- The register named by the three bits at `pos`. -/
def low (pos : ℕ) : Fin 16 := ((instr.extractLsb' pos 3).setWidth 4).toFin

def thumbNZ (rd : Fin 16) (res : U32) (c : CPU σ) : CPU σ := flagsNZ res (c.setReg rd res)

def thumbNZCV (rd : Fin 16) (r : Sum) (c : CPU σ) : CPU σ := flagsNZCV r (c.setReg rd r.res)

def thumbShiftImm (shiftop : Shifter σ) (c : CPU σ) : CPU σ :=
  let (op, c) := shiftop (c.reg (low instr 3)) ((instr >>> 6) &&& 0x1F).toNat c
  thumbNZ (low instr 0) op c

def thumbShiftReg (shiftop : Shifter σ) (c : CPU σ) : CPU σ :=
  let b := c.reg (low instr 3) &&& 0xFF
  let (a, c) := shiftop (c.reg (low instr 0)) b.toNat c
  thumbNZ (low instr 0) a c

def tLSL_IMM : CPU σ → CPU σ := thumbShiftImm instr lslImmS
def tLSR_IMM : CPU σ → CPU σ := thumbShiftImm instr lsrImmS
def tASR_IMM : CPU σ → CPU σ := thumbShiftImm instr asrImmS

def tADD_REG_ (c : CPU σ) : CPU σ :=
  thumbNZCV (low instr 0) (sumAdd (c.reg (low instr 3)) (c.reg (low instr 6))) c

def tSUB_REG_ (c : CPU σ) : CPU σ :=
  thumbNZCV (low instr 0) (sumSub (c.reg (low instr 3)) (c.reg (low instr 6))) c

def tADD_IMM_ (c : CPU σ) : CPU σ :=
  thumbNZCV (low instr 0) (sumAdd (c.reg (low instr 3)) ((instr >>> 6) &&& 0x7)) c

def tSUB_IMM_ (c : CPU σ) : CPU σ :=
  thumbNZCV (low instr 0) (sumSub (c.reg (low instr 3)) ((instr >>> 6) &&& 0x7)) c

/-- The sign is not looked at: an immediate has none. -/
def tMOV_IMM (c : CPU σ) : CPU σ :=
  let b := instr &&& 0xFF
  (c.setReg (low instr 8) b).setNZ false (b = 0)

def tCMP_IMM (c : CPU σ) : CPU σ := flagsNZCV (sumSub (c.reg (low instr 8)) (instr &&& 0xFF)) c

def tADD_IMM (c : CPU σ) : CPU σ :=
  thumbNZCV (low instr 8) (sumAdd (c.reg (low instr 8)) (instr &&& 0xFF)) c

def tSUB_IMM (c : CPU σ) : CPU σ :=
  thumbNZCV (low instr 8) (sumSub (c.reg (low instr 8)) (instr &&& 0xFF)) c

def tAND_REG (c : CPU σ) : CPU σ :=
  thumbNZ (low instr 0) (c.reg (low instr 0) &&& c.reg (low instr 3)) c

def tEOR_REG (c : CPU σ) : CPU σ :=
  thumbNZ (low instr 0) (c.reg (low instr 0) ^^^ c.reg (low instr 3)) c

def tLSL_REG : CPU σ → CPU σ := thumbShiftReg instr lslRegS
def tLSR_REG : CPU σ → CPU σ := thumbShiftReg instr lsrRegS
def tASR_REG : CPU σ → CPU σ := thumbShiftReg instr asrRegS
def tROR_REG : CPU σ → CPU σ := thumbShiftReg instr rorRegS

def tADC_REG (c : CPU σ) : CPU σ :=
  thumbNZCV (low instr 0) (sumAdc (c.reg (low instr 0)) (c.reg (low instr 3)) c.carryFlag) c

def tSBC_REG (c : CPU σ) : CPU σ :=
  thumbNZCV (low instr 0) (sumSbc (c.reg (low instr 0)) (c.reg (low instr 3)) c.carryFlag) c

def tTST_REG (c : CPU σ) : CPU σ := flagsNZ (c.reg (low instr 0) &&& c.reg (low instr 3)) c

def tNEG_REG (c : CPU σ) : CPU σ :=
  let b := c.reg (low instr 3)
  thumbNZCV (low instr 0) ⟨-b, carrySub 0 b, overflowSub 0 b⟩ c

def tCMP_REG (c : CPU σ) : CPU σ :=
  flagsNZCV (sumSub (c.reg (low instr 0)) (c.reg (low instr 3))) c

def tCMN_REG (c : CPU σ) : CPU σ :=
  flagsNZCV (sumAdd (c.reg (low instr 0)) (c.reg (low instr 3))) c

def tORR_REG (c : CPU σ) : CPU σ :=
  thumbNZ (low instr 0) (c.reg (low instr 0) ||| c.reg (low instr 3)) c

def tMUL_REG (c : CPU σ) : CPU σ :=
  let c := thumbNZ (low instr 0) (c.reg (low instr 0) * c.reg (low instr 3)) c
  if core.num = .arm9 then c else c.setC false

def tBIC_REG (c : CPU σ) : CPU σ :=
  thumbNZ (low instr 0) (c.reg (low instr 0) &&& ~~~c.reg (low instr 3)) c

def tMVN_REG (c : CPU σ) : CPU σ := thumbNZ (low instr 0) (~~~c.reg (low instr 3)) c

/-- `(CurInstr & 0x7) | ((CurInstr >> 4) & 0x8)` -/
def hiRd : Fin 16 := ((instr &&& 0x7 ||| (instr >>> 4) &&& 0x8).setWidth 4).toFin

def tADD_HIREG (c : CPU σ) : CPU σ :=
  let rd := hiRd instr
  let a := c.reg rd
  let b := c.reg (field instr 3)
  if rd = 15 then jumpTo core ((a + b) ||| 1) false c else c.setReg rd (a + b)

def tCMP_HIREG (c : CPU σ) : CPU σ :=
  flagsNZCV (sumSub (c.reg (hiRd instr)) (c.reg (field instr 3))) c

def tMOV_HIREG (c : CPU σ) : CPU σ :=
  let rd := hiRd instr
  if rd = 15 then jumpTo core (c.reg (field instr 3) ||| 1) false c
  else c.setReg rd (c.reg (field instr 3))

def tADD_PCREL (c : CPU σ) : CPU σ :=
  let val := c.reg 15 &&& ~~~2
  c.setReg (low instr 8) (val + (instr &&& 0xFF) <<< 2)

def tADD_SPREL (c : CPU σ) : CPU σ :=
  c.setReg (low instr 8) (c.reg 13 + (instr &&& 0xFF) <<< 2)

def tADD_SP (c : CPU σ) : CPU σ :=
  let val := c.reg 13
  c.setReg 13 (if instr &&& (1 : U32) <<< 7 ≠ 0 then val - (instr &&& 0x7F) <<< 2
    else val + (instr &&& 0x7F) <<< 2)

inductive ThumbOp
  | lslImm | lsrImm | asrImm | addReg_ | subReg_ | addImm_ | subImm_
  | movImm | cmpImm | addImm | subImm
  | andReg | eorReg | lslReg | lsrReg | asrReg | adcReg | sbcReg | rorReg
  | tstReg | negReg | cmpReg | cmnReg | orrReg | bicReg | mvnReg
  | addHireg | cmpHireg | movHireg | addPcrel | addSprel | addSp
deriving DecidableEq

/-- All but the multiplication. -/
def ThumbOp.run : ThumbOp → CPU σ → CPU σ
  | .lslImm => tLSL_IMM instr
  | .lsrImm => tLSR_IMM instr
  | .asrImm => tASR_IMM instr
  | .addReg_ => tADD_REG_ instr
  | .subReg_ => tSUB_REG_ instr
  | .addImm_ => tADD_IMM_ instr
  | .subImm_ => tSUB_IMM_ instr
  | .movImm => tMOV_IMM instr
  | .cmpImm => tCMP_IMM instr
  | .addImm => tADD_IMM instr
  | .subImm => tSUB_IMM instr
  | .andReg => tAND_REG instr
  | .eorReg => tEOR_REG instr
  | .lslReg => tLSL_REG instr
  | .lsrReg => tLSR_REG instr
  | .asrReg => tASR_REG instr
  | .adcReg => tADC_REG instr
  | .sbcReg => tSBC_REG instr
  | .rorReg => tROR_REG instr
  | .tstReg => tTST_REG instr
  | .negReg => tNEG_REG instr
  | .cmpReg => tCMP_REG instr
  | .cmnReg => tCMN_REG instr
  | .orrReg => tORR_REG instr
  | .bicReg => tBIC_REG instr
  | .mvnReg => tMVN_REG instr
  | .addHireg => tADD_HIREG core instr
  | .cmpHireg => tCMP_HIREG instr
  | .movHireg => tMOV_HIREG core instr
  | .addPcrel => tADD_PCREL instr
  | .addSprel => tADD_SPREL instr
  | .addSp => tADD_SP instr

/-! ## What the architecture asks -/

namespace ShiftOp

/-- The exact value of a shift by `n`. -/
def exact (x : U32) (n : ℕ) : ShiftOp → ℤ
  | .lsl => x.toNat * 2 ^ n
  | .lsr => x.toNat / 2 ^ n
  | .asr => x.toInt / 2 ^ n
  | .ror => x.toNat / 2 ^ (n % 32) + x.toNat * 2 ^ (32 - n % 32)

/-- The last bit shifted out; a shift by nothing keeps the carry. -/
def carryOut (x : U32) (n : ℕ) (carry : Bool) (op : ShiftOp) : Bool :=
  if n = 0 then carry
  else
    match op with
    | .lsl => (x.toNat * 2 ^ n).testBit 32
    | .lsr => x.toNat.testBit (n - 1)
    | .asr => decide (x.toInt / 2 ^ (n - 1) % 2 = 1)
    | .ror => x.toNat.testBit ((n - 1) % 32)

end ShiftOp

/-- A shift or rotation by an amount, or the rotation through the carry. -/
inductive Shift
  | places (op : ShiftOp) (n : ℕ)
  | rrx

namespace Shift

def exact (x : U32) (carry : Bool) : Shift → ℤ
  | .places op n => op.exact x n
  | .rrx => (x.toNat + 2 ^ 32 * carry.toNat) / 2

def carryOut (x : U32) (carry : Bool) : Shift → Bool
  | .places op n => op.carryOut x n carry
  | .rrx => x.toNat.testBit 0

/-- A shift by the five bits of an immediate, where zero is 32 or the rotation through the
carry. -/
def ofImm : ShiftOp → ℕ → Shift
  | .lsl, n => .places .lsl n
  | .lsr, n => .places .lsr (if n = 0 then 32 else n)
  | .asr, n => .places .asr (if n = 0 then 32 else n)
  | .ror, n => if n = 0 then .rrx else .places .ror n

end Shift

namespace Form

/-- What is shifted: with a shift by a register the program counter is four bytes further on. -/
def operand (c : CPU σ) : Form → U32
  | .imm => (instr.extractLsb' 0 8).setWidth 32
  | .regImm _ => c.reg (field instr 0)
  | .regReg _ => c.reg (field instr 0) + if field instr 0 = 15 then 4 else 0

def shift (c : CPU σ) : Form → Shift
  | .imm => .places .ror (2 * (instr.extractLsb' 8 4).toNat)
  | .regImm op => .ofImm op (instr.extractLsb' 7 5).toNat
  | .regReg op => .places op ((c.reg (field instr 8)).toNat % 256)

end Form

namespace Logical

/-- The operation on the numbers the operands stand for. -/
def exact (a b : ℕ) : Logical → ℤ
  | .and | .tst => (a &&& b : ℕ)
  | .eor | .teq => (a ^^^ b : ℕ)
  | .orr => (a ||| b : ℕ)
  | .mov => b
  | .bic => (a &&& (2 ^ 32 - 1 - b) : ℕ)
  | .mvn => 2 ^ 32 - 1 - b

end Logical

namespace Arith

/-- The exact sum or difference; `k` is the carry. -/
def exact (a b k : ℤ) : Arith → ℤ
  | .sub | .cmp => a - b
  | .rsb => b - a
  | .add | .cmn => a + b
  | .adc => a + b + k
  | .sbc => a - b - (1 - k)
  | .rsc => b - a - (1 - k)

def adds : Arith → Bool
  | .add | .cmn | .adc => true
  | _ => false

/-- The carry of a sum, or no borrow of a difference. -/
def carryOut (op : Arith) (u : ℤ) : Prop := if op.adds then 2 ^ 32 ≤ u else 0 ≤ u

instance (op : Arith) (u : ℤ) : Decidable (op.carryOut u) := by
  unfold carryOut
  infer_instance

end Arith

/-- An operation on two values, with the carry the second comes with. -/
structure Meaning where
  op : AluOp
  s : Bool
  rd : Fin 16
  a : U32
  b : U32
  shifted : Bool

namespace Meaning

def exact (m : Meaning) (carry : Bool) : ℤ :=
  match m.op with
  | .logical l => l.exact m.a.toNat m.b.toNat
  | .arith r => r.exact m.a.toNat m.b.toNat carry.toNat

def carryOut (m : Meaning) (carry : Bool) : Bool :=
  match m.op with
  | .logical _ => m.shifted
  | .arith r => r.carryOut (r.exact m.a.toNat m.b.toNat carry.toNat)

/-- A logical operation leaves the flag alone. -/
def overflow (m : Meaning) (carry old : Bool) : Bool :=
  match m.op with
  | .logical _ => old
  | .arith r => ¬Signed 32 (r.exact m.a.toInt m.b.toInt carry.toNat)

end Meaning

/-- The exact result is stored, and with the S bit the flags describe it. -/
structure Processed (m : Meaning) (c c' : CPU σ) : Prop where
  cells : c'.cells = if m.op.isTest then c.cells
    else Function.update c.cells (.r m.rd) (BitVec.ofInt 32 (m.exact c.carryFlag))
  negative : c'.cpsr.getLsbD 31 =
    if m.s then decide ((BitVec.ofInt 32 (m.exact c.carryFlag)).toInt < 0) else c.cpsr.getLsbD 31
  zero : c'.cpsr.getLsbD 30 = if m.s then decide (m.exact c.carryFlag % 2 ^ 32 = 0)
    else c.cpsr.getLsbD 30
  carry : c'.cpsr.getLsbD 29 = if m.s then m.carryOut c.carryFlag else c.cpsr.getLsbD 29
  overflow : c'.cpsr.getLsbD 28 =
    if m.s then m.overflow c.carryFlag (c.cpsr.getLsbD 28) else c.cpsr.getLsbD 28
  others : ∀ i, i < 28 → c'.cpsr.getLsbD i = c.cpsr.getLsbD i
  bus : c'.bus = c.bus
  highVectors : c'.highVectors = c.highVectors

/-- What an ARM instruction means. -/
def armMeaning (op : AluOp) (form : Form) (s : Bool) (c : CPU σ) : Meaning where
  op := op
  s := s || op.isTest
  rd := field instr 12
  a := c.reg (field instr 16)
  b := BitVec.ofInt 32 ((form.shift instr c).exact (form.operand instr c) c.carryFlag)
  shifted := (form.shift instr c).carryOut (form.operand instr c) c.carryFlag

/-- A shift of a Thumb register is a move with a shifted operand. -/
def moveShifted (rd : Fin 16) (x : U32) (shift : Shift) (carry : Bool) : Meaning where
  op := .logical .mov
  s := true
  rd := rd
  a := x
  b := BitVec.ofInt 32 (shift.exact x carry)
  shifted := shift.carryOut x carry

/-- The field of `len` bits at `pos`. -/
def number (pos len : ℕ) : U32 := (instr.extractLsb' pos len).setWidth 32

/-- What a Thumb instruction means. -/
def ThumbOp.meaning (c : CPU σ) : ThumbOp → Meaning
  | .lslImm => moveShifted (low instr 0) (c.reg (low instr 3))
      (.ofImm .lsl (number instr 6 5).toNat) c.carryFlag
  | .lsrImm => moveShifted (low instr 0) (c.reg (low instr 3))
      (.ofImm .lsr (number instr 6 5).toNat) c.carryFlag
  | .asrImm => moveShifted (low instr 0) (c.reg (low instr 3))
      (.ofImm .asr (number instr 6 5).toNat) c.carryFlag
  | .addReg_ => three (.arith .add) (c.reg (low instr 6))
  | .subReg_ => three (.arith .sub) (c.reg (low instr 6))
  | .addImm_ => three (.arith .add) (number instr 6 3)
  | .subImm_ => three (.arith .sub) (number instr 6 3)
  | .movImm => immediate (.logical .mov)
  | .cmpImm => immediate (.arith .cmp)
  | .addImm => immediate (.arith .add)
  | .subImm => immediate (.arith .sub)
  | .andReg => onLow (.logical .and)
  | .eorReg => onLow (.logical .eor)
  | .lslReg => shiftedLow .lsl
  | .lsrReg => shiftedLow .lsr
  | .asrReg => shiftedLow .asr
  | .adcReg => onLow (.arith .adc)
  | .sbcReg => onLow (.arith .sbc)
  | .rorReg => shiftedLow .ror
  | .tstReg => onLow (.logical .tst)
  | .negReg => ⟨.arith .rsb, true, low instr 0, c.reg (low instr 3), 0, c.carryFlag⟩
  | .cmpReg => onLow (.arith .cmp)
  | .cmnReg => onLow (.arith .cmn)
  | .orrReg => onLow (.logical .orr)
  | .bicReg => onLow (.logical .bic)
  | .mvnReg => onLow (.logical .mvn)
  | .addHireg => hireg (.arith .add) false
  | .cmpHireg => hireg (.arith .cmp) true
  | .movHireg => hireg (.logical .mov) false
  | .addPcrel => address (low instr 8) (c.reg 15 &&& ~~~2) (.arith .add) (number instr 0 8)
  | .addSprel => address (low instr 8) (c.reg 13) (.arith .add) (number instr 0 8)
  | .addSp => address 13 (c.reg 13) (if instr.getLsbD 7 then .arith .sub else .arith .add)
      (number instr 0 7)
where
  three (op : AluOp) (b : U32) : Meaning :=
    ⟨op, true, low instr 0, c.reg (low instr 3), b, c.carryFlag⟩
  immediate (op : AluOp) : Meaning :=
    ⟨op, true, low instr 8, c.reg (low instr 8), number instr 0 8, c.carryFlag⟩
  hireg (op : AluOp) (s : Bool) : Meaning :=
    ⟨op, s, hiRd instr, c.reg (hiRd instr), c.reg (field instr 3), c.carryFlag⟩
  address (rd : Fin 16) (a : U32) (op : AluOp) (words : U32) : Meaning :=
    ⟨op, false, rd, a, 4 * words, c.carryFlag⟩
  onLow (op : AluOp) : Meaning :=
    ⟨op, true, low instr 0, c.reg (low instr 0), c.reg (low instr 3), c.carryFlag⟩
  shiftedLow (op : ShiftOp) : Meaning :=
    moveShifted (low instr 0) (c.reg (low instr 0))
      (.places op ((c.reg (low instr 3)).toNat % 256)) c.carryFlag

/-- The multiplication; the ARM7 loses the carry. -/
structure Multiplied (c c' : CPU σ) : Prop where
  cells : c'.cells = Function.update c.cells (.r (low instr 0))
    (BitVec.ofInt 32 ((c.reg (low instr 0)).toNat * (c.reg (low instr 3)).toNat))
  negative : c'.cpsr.getLsbD 31 = decide ((BitVec.ofInt 32
    ((c.reg (low instr 0)).toNat * (c.reg (low instr 3)).toNat)).toInt < 0)
  zero : c'.cpsr.getLsbD 30 =
    decide (((c.reg (low instr 0)).toNat * (c.reg (low instr 3)).toNat) % 2 ^ 32 = 0)
  carry : c'.cpsr.getLsbD 29 = if core.num = .arm9 then c.cpsr.getLsbD 29 else false
  others : ∀ i, i < 29 → c'.cpsr.getLsbD i = c.cpsr.getLsbD i
  bus : c'.bus = c.bus
  highVectors : c'.highVectors = c.highVectors

end MelonDS.ARM

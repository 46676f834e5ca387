import MelonDS.ARM.BlockTransfer
import MelonDS.ARM.DataProcessing

/-!
# Loads and stores

`ARMInterpreter_LoadStore.cpp`. Every instruction gives no value when it returned behind an
access that failed. Cycle counts and messages are left out, and the sequential accesses are those
of the non-sequential ones.
-/

namespace MelonDS.ARM

variable {σ : Type*}

/-- The accesses of one and two bytes. -/
structure Port (σ : Type*) extends Core σ where
  read8 : U32 → σ → U8 × σ
  read16 : U32 → σ → U16 × σ
  write8 : U32 → U8 → σ → σ
  write16 : U32 → U16 → σ → σ

/-- A part of an instruction: no value when an access failed. -/
abbrev Transfer (σ α : Type*) := CPU σ → Option α × CPU σ

namespace Transfer

variable {α β : Type*}

/-- `if (!access) return;` and the rest. -/
def andThen (m : Transfer σ α) (f : α → Transfer σ β) : Transfer σ β := fun c =>
  match m c with
  | (some a, c) => f a c
  | (none, c) => (none, c)

/-- The end of an instruction. -/
def finish (update : CPU σ → CPU σ) : Transfer σ Unit := fun c => (some (), update c)

end Transfer

variable (port : Port σ) (instr : U32)

/-! ## The accesses -/

def mayRead (addr : U32) (c : CPU σ) : Bool :=
  port.num ≠ .arm9 || port.readable c.bus (page addr)

def mayWrite (addr : U32) (c : CPU σ) : Bool :=
  port.num ≠ .arm9 || port.writable c.bus (page addr)

def dataRead8 (addr : U32) : Transfer σ U32 := fun c =>
  if mayRead port addr c then
    let (v, bus) := port.read8 addr c.bus
    (some (v.setWidth 32), { c with bus := bus })
  else (none, dataAbort port.toCore c)

def dataRead16 (addr : U32) : Transfer σ U32 := fun c =>
  if mayRead port addr c then
    let (v, bus) := port.read16 (addr &&& ~~~1) c.bus
    (some (v.setWidth 32), { c with bus := bus })
  else (none, dataAbort port.toCore c)

def dataWrite8 (addr v : U32) : Transfer σ Unit := fun c =>
  if mayWrite port addr c then
    (some (), { c with bus := port.write8 addr (v.setWidth 8) c.bus })
  else (none, dataAbort port.toCore c)

def dataWrite16 (addr v : U32) : Transfer σ Unit := fun c =>
  if mayWrite port addr c then
    (some (), { c with bus := port.write16 (addr &&& ~~~1) (v.setWidth 16) c.bus })
  else (none, dataAbort port.toCore c)

/-- `DataWrite32` as a part of an instruction. -/
def writeWord (core : Core σ) (addr v : U32) : Transfer σ Unit := fun c =>
  match dataWrite32 core addr v c with
  | (true, c) => (some (), c)
  | (false, c) => (none, c)

/-- `DataRead32` as a part of an instruction. -/
def readWord (core : Core σ) (addr : U32) : Transfer σ U32 := dataRead32 core addr

/-- The user map decides for LDRT and STRT, whatever map is selected. -/
def checkUserTransfer (addr : U32) (store : Bool) : Transfer σ Unit := fun c =>
  if port.num ≠ .arm9 ∨ !instr.getLsbD 21 then (some (), c)
  else
    let user := port.selectMap true c.bus
    if if store then port.writable user (page addr) else port.readable user (page addr) then
      (some (), c)
    else (none, dataAbort port.toCore c)

/-! ## Single registers -/

/-- The macro of the shift, or none for an immediate. -/
abbrev OffsetForm := Option ShiftOp

def signedOffset (offset : U32) : U32 := if instr.getLsbD 23 then offset else -offset

/-- `A_WB_CALC_OFFSET_IMM` and `A_WB_CALC_OFFSET_REG` -/
def wbCalcOffset (form : OffsetForm) (c : CPU σ) : U32 :=
  signedOffset instr <| match form with
    | none => instr &&& 0xFFF
    | some op => (op.imm false (c.reg (field instr 0)) ((instr >>> 7) &&& 0x1F).toNat c).1

/-- `A_HD_CALC_OFFSET_IMM` and `A_HD_CALC_OFFSET_REG` -/
def hdCalcOffset (reg : Bool) (c : CPU σ) : U32 :=
  signedOffset instr <|
    if reg then c.reg (field instr 0) else (instr &&& 0xF) ||| ((instr >>> 4) &&& 0xF0)

/-- The writeback in front of the offset form, which asks for it. -/
def writebackPre (addr : U32) (c : CPU σ) : CPU σ :=
  if instr.getLsbD 21 then c.setReg (field instr 16) addr else c

def writebackPost (offset : U32) (c : CPU σ) : CPU σ :=
  c.setReg (field instr 16) (c.reg (field instr 16) + offset)

/-- A store of `val` at the sum of base and offset. -/
def storePre (access : U32 → U32 → Transfer σ Unit) (val : CPU σ → U32) (offset : U32) :
    Transfer σ Unit := fun c =>
  let addr := offset + c.reg (field instr 16)
  (access addr (val c)).andThen (fun _ => .finish (writebackPre instr addr)) c

def storePost (access : U32 → U32 → Transfer σ Unit) (val : CPU σ → U32) (offset : U32) :
    Transfer σ Unit := fun c =>
  (access (c.reg (field instr 16)) (val c)).andThen
    (fun _ => .finish (writebackPost instr offset)) c

/-- A load, and what is done with its address and value. -/
def loadPre (access : U32 → Transfer σ U32) (use : U32 → U32 → CPU σ → CPU σ) (offset : U32) :
    Transfer σ Unit := fun c =>
  let addr := offset + c.reg (field instr 16)
  (access addr).andThen (fun val => .finish fun c => use addr val (writebackPre instr addr c)) c

def loadPost (access : U32 → Transfer σ U32) (use : U32 → U32 → CPU σ → CPU σ) (offset : U32) :
    Transfer σ Unit := fun c =>
  let addr := c.reg (field instr 16)
  (access addr).andThen (fun val => .finish fun c => use addr val (writebackPost instr offset c)) c

def rdValue (c : CPU σ) : U32 := c.reg (field instr 12)

/-- The program counter is stored four bytes further on. -/
def wordValue (c : CPU σ) : U32 :=
  c.reg (field instr 12) + if field instr 12 = 15 then 4 else 0

def useWord (addr val : U32) (c : CPU σ) : CPU σ :=
  let val := ror val ((addr &&& 0x3) <<< 3).toNat
  if field instr 12 = 15 then
    jumpTo port.toCore (if port.num = .arm7 then val &&& ~~~1 else val) false c
  else c.setReg (field instr 12) val

def useValue (_ val : U32) (c : CPU σ) : CPU σ := c.setReg (field instr 12) val

def useSigned8 (_ val : U32) (c : CPU σ) : CPU σ :=
  c.setReg (field instr 12) ((val.setWidth 8).signExtend 32)

def useSigned16 (_ val : U32) (c : CPU σ) : CPU σ :=
  c.setReg (field instr 12) ((val.setWidth 16).signExtend 32)

def userStore (access : U32 → U32 → Transfer σ Unit) (addr v : U32) : Transfer σ Unit :=
  (checkUserTransfer port instr addr true).andThen fun _ => access addr v

def userLoad (access : U32 → Transfer σ U32) (addr : U32) : Transfer σ U32 :=
  (checkUserTransfer port instr addr false).andThen fun _ => access addr

def aSTR : U32 → Transfer σ Unit := storePre instr (writeWord port.toCore) (wordValue instr)

def aSTR_POST : U32 → Transfer σ Unit :=
  storePost instr (userStore port instr (writeWord port.toCore)) (wordValue instr)

def aSTRB : U32 → Transfer σ Unit := storePre instr (dataWrite8 port) (rdValue instr)

def aSTRB_POST : U32 → Transfer σ Unit :=
  storePost instr (userStore port instr (dataWrite8 port)) (rdValue instr)

def aLDR : U32 → Transfer σ Unit := loadPre instr (readWord port.toCore) (useWord port instr)

def aLDR_POST : U32 → Transfer σ Unit :=
  loadPost instr (userLoad port instr (readWord port.toCore)) (useWord port instr)

def aLDRB : U32 → Transfer σ Unit := loadPre instr (dataRead8 port) (useValue instr)

def aLDRB_POST : U32 → Transfer σ Unit :=
  loadPost instr (userLoad port instr (dataRead8 port)) (useValue instr)

def aSTRH : U32 → Transfer σ Unit := storePre instr (dataWrite16 port) (rdValue instr)
def aSTRH_POST : U32 → Transfer σ Unit := storePost instr (dataWrite16 port) (rdValue instr)
def aLDRH : U32 → Transfer σ Unit := loadPre instr (dataRead16 port) (useValue instr)
def aLDRH_POST : U32 → Transfer σ Unit := loadPost instr (dataRead16 port) (useValue instr)
def aLDRSB : U32 → Transfer σ Unit := loadPre instr (dataRead8 port) (useSigned8 instr)
def aLDRSB_POST : U32 → Transfer σ Unit := loadPost instr (dataRead8 port) (useSigned8 instr)
def aLDRSH : U32 → Transfer σ Unit := loadPre instr (dataRead16 port) (useSigned16 instr)
def aLDRSH_POST : U32 → Transfer σ Unit := loadPost instr (dataRead16 port) (useSigned16 instr)

/-! ## Pairs and swaps -/

/-- The even register of a pair. -/
def pairReg : Fin 16 := (instr.extractLsb' 12 4 &&& 0xE).toFin

/-- A pair at `addr`; the ARM7 does not have them. -/
def loadPair (addr : U32) (writeback : CPU σ → CPU σ) : Transfer σ Unit :=
  if port.num ≠ .arm9 then .finish id
  else (readWord port.toCore addr).andThen fun lo =>
    (readWord port.toCore (addr + 4)).andThen fun hi =>
      .finish fun c => ((writeback c).setReg (pairReg instr) lo).setReg (pairReg instr + 1) hi

def storePair (addr : U32) (writeback : CPU σ → CPU σ) : Transfer σ Unit :=
  if port.num ≠ .arm9 then .finish id
  else fun c =>
    ((writeWord port.toCore addr (c.reg (pairReg instr))).andThen fun _ c =>
      (writeWord port.toCore (addr + 4) (c.reg (pairReg instr + 1))).andThen
        (fun _ => .finish writeback) c) c

def aLDRD (offset : U32) : Transfer σ Unit := fun c =>
  let addr := offset + c.reg (field instr 16)
  loadPair port instr addr (writebackPre instr addr) c

def aLDRD_POST (offset : U32) : Transfer σ Unit := fun c =>
  loadPair port instr (c.reg (field instr 16)) (writebackPost instr offset) c

def aSTRD (offset : U32) : Transfer σ Unit := fun c =>
  let addr := offset + c.reg (field instr 16)
  storePair port instr addr (writebackPre instr addr) c

def aSTRD_POST (offset : U32) : Transfer σ Unit := fun c =>
  storePair port instr (c.reg (field instr 16)) (writebackPost instr offset) c

def aSWP : Transfer σ Unit := fun c =>
  let base := c.reg (field instr 16)
  let rm := c.reg (field instr 0)
  ((readWord port.toCore base).andThen fun val =>
    (writeWord port.toCore base rm).andThen fun _ =>
      .finish fun c => c.setReg (field instr 12) (ror val (8 * (base &&& 0x3)).toNat)) c

def aSWPB : Transfer σ Unit := fun c =>
  let base := c.reg (field instr 16)
  let rm := c.reg (field instr 0) &&& 0xFF
  ((dataRead8 port base).andThen fun val =>
    (dataWrite8 port base rm).andThen fun _ =>
      .finish fun c => c.setReg (field instr 12) val) c

/-! ## Block transfers -/

/-- An access of `A_LDM` has failed. -/
def ldmFails (core : Core σ) (c : CPU σ) : Bool :=
  let oldbase := c.get (.r (baseId instr))
  let up := instr.getLsbD 23
  let start := if up then oldbase else oldbase - listSize instr
  let preinc := if up then instr.getLsbD 24 else !instr.getLsbD 24
  let user := instr.getLsbD 22 && !instr.getLsbD 15
  instr &&& 0xFFFF ≠ 0 &&
    match loadRegs core preinc user ((regList instr).filter (· ≠ 15)) start c with
    | (none, _) => true
    | (some base, c) =>
      instr.getLsbD 15 && (dataRead32 core (if preinc then base + 4 else base) c).1.isNone

/-- An access of `A_STM` has failed. -/
def stmFails (core : Core σ) (c : CPU σ) : Bool :=
  let oldbase := c.get (.r (baseId instr))
  let up := instr.getLsbD 23
  let start := if up then oldbase else oldbase - listSize instr
  let preinc := if up then instr.getLsbD 24 else !instr.getLsbD 24
  instr &&& 0xFFFF ≠ 0 &&
    (storeRegs core instr oldbase preinc (isBanked instr c.cpsr) (regList instr) start c).1.isNone

def loadMultiple (core : Core σ) : Transfer σ Unit := fun c =>
  (if ldmFails instr core c then none else some (), aLDM core instr c)

def storeMultiple (core : Core σ) : Transfer σ Unit := fun c =>
  (if stmFails instr core c then none else some (), aSTM core instr c)

/-! ## Thumb code -/

def tLoad (access : U32 → Transfer σ U32) (addr : CPU σ → U32) (rd : Fin 16)
    (value : U32 → U32 → U32) : Transfer σ Unit := fun c =>
  (access (addr c)).andThen (fun val => .finish fun c' => c'.setReg rd (value (addr c) val)) c

def tStore (access : U32 → U32 → Transfer σ Unit) (addr : CPU σ → U32) (rd : Fin 16) :
    Transfer σ Unit := fun c => access (addr c) (c.reg rd) c

def rotated (addr val : U32) : U32 := ror val (8 * (addr &&& 0x3)).toNat

def regAddr (c : CPU σ) : U32 := c.reg (low instr 3) + c.reg (low instr 6)

def immAddr (offset : U32) (c : CPU σ) : U32 := offset + c.reg (low instr 3)

def spAddr (c : CPU σ) : U32 := ((instr <<< 2) &&& 0x3FC) + c.reg 13

def tLDR_PCREL : Transfer σ Unit :=
  tLoad (readWord port.toCore)
    (fun c => (c.reg 15 &&& ~~~(0x2 : U32)) + (instr &&& 0xFF) <<< 2) (low instr 8)
    fun _ val => val

def tSTR_REG : Transfer σ Unit := tStore (writeWord port.toCore) (regAddr instr) (low instr 0)
def tSTRB_REG : Transfer σ Unit := tStore (dataWrite8 port) (regAddr instr) (low instr 0)
def tSTRH_REG : Transfer σ Unit := tStore (dataWrite16 port) (regAddr instr) (low instr 0)

def tLDR_REG : Transfer σ Unit :=
  tLoad (readWord port.toCore) (regAddr instr) (low instr 0) rotated

def tLDRB_REG : Transfer σ Unit :=
  tLoad (dataRead8 port) (regAddr instr) (low instr 0) fun _ val => val

def tLDRSB_REG : Transfer σ Unit :=
  tLoad (dataRead8 port) (regAddr instr) (low instr 0) fun _ val => (val.setWidth 8).signExtend 32

def tLDRH_REG : Transfer σ Unit :=
  tLoad (dataRead16 port) (regAddr instr) (low instr 0) fun _ val => val

def tLDRSH_REG : Transfer σ Unit :=
  tLoad (dataRead16 port) (regAddr instr) (low instr 0) fun _ val => (val.setWidth 16).signExtend 32

def tSTR_IMM : Transfer σ Unit :=
  tStore (writeWord port.toCore) (immAddr instr ((instr >>> 4) &&& 0x7C)) (low instr 0)

def tLDR_IMM : Transfer σ Unit :=
  tLoad (readWord port.toCore) (immAddr instr ((instr >>> 4) &&& 0x7C)) (low instr 0) rotated

def tSTRB_IMM : Transfer σ Unit :=
  tStore (dataWrite8 port) (immAddr instr ((instr >>> 6) &&& 0x1F)) (low instr 0)

def tLDRB_IMM : Transfer σ Unit :=
  tLoad (dataRead8 port) (immAddr instr ((instr >>> 6) &&& 0x1F)) (low instr 0) fun _ val => val

def tSTRH_IMM : Transfer σ Unit :=
  tStore (dataWrite16 port) (immAddr instr ((instr >>> 5) &&& 0x3E)) (low instr 0)

def tLDRH_IMM : Transfer σ Unit :=
  tLoad (dataRead16 port) (immAddr instr ((instr >>> 5) &&& 0x3E)) (low instr 0) fun _ val => val

def tSTR_SPREL : Transfer σ Unit := tStore (writeWord port.toCore) (spAddr instr) (low instr 8)

def tLDR_SPREL : Transfer σ Unit :=
  tLoad (readWord port.toCore) (spAddr instr) (low instr 8) fun _ val => val

/-- The registers of the eight lowest bits, lowest first. -/
def lowList : List (Fin 16) :=
  (List.finRange 16).filter fun i => decide (i.val < 8) && instr.getLsbD i

/-- `nregs << 2` of `T_PUSH` -/
def pushSize : U32 :=
  4 * BitVec.ofNat 32 ((lowList instr).length + if instr.getLsbD 8 then 1 else 0)

section
variable (core : Core σ)

/-- The loop of `T_PUSH` and `T_STMIA`. -/
def storeLow : List (Fin 16) → U32 → Transfer σ U32
  | [], base => fun c => (some base, c)
  | i :: regs, base => fun c =>
    (writeWord core base (c.get (.r i))).andThen (fun _ => storeLow regs (base + 4)) c

def tPUSH : Transfer σ Unit := fun c =>
  ((storeLow core (lowList instr) (c.get (.r 13) - pushSize instr)).andThen fun base c =>
    (if instr.getLsbD 8 then writeWord core base (c.get (.r 14)) else .finish id).andThen
      (fun _ => .finish fun c => c.set (.r 13) (c.get (.r 13) - pushSize instr)) c) c

/-- The jump comes before the stack pointer is written. -/
def tPOP : Transfer σ Unit := fun c =>
  (Transfer.andThen (loadRegs core false false (lowList instr) (c.get (.r 13))) fun base =>
    if instr.getLsbD 8 then
      (readWord core base).andThen fun pc => .finish fun c =>
        (jumpTo core (if core.num = .arm7 then pc ||| 1 else pc) false c).set (.r 13) (base + 4)
    else .finish fun c => c.set (.r 13) base) c

def tSTMIA : Transfer σ Unit := fun c =>
  let rb := low instr 8
  let base := c.get (.r rb)
  if instr &&& 0xFF = 0 then
    let c := c.set (.r rb) (base + 0x40)
    if core.num = .arm7 then (some (), (dataWrite32 core base (c.get (.r 15) + 2) c).2)
    else (some (), c)
  else
    (storeLow core (lowList instr) base).andThen
      (fun base => .finish fun c => c.set (.r rb) base) c

def tLDMIA : Transfer σ Unit := fun c =>
  let rb := low instr 8
  let oldbase := c.get (.r rb)
  let oldcpsr := c.cpsr
  if instr &&& 0xFF = 0 then
    let c := c.set (.r rb) (oldbase + 0x40)
    if core.num = .arm7 then
      (readWord core oldbase).andThen (fun pc => .finish (jumpTo core (pc ||| 1) false)) c
    else (some (), c)
  else
    match loadRegs core false false (lowList instr) oldbase c with
    | (none, c) => (none, restoreTransferBase core rb oldbase oldcpsr c)
    | (some base, c) => (some (), if instr.getLsbD rb then c else c.set (.r rb) base)

end

/-! ## All of them -/

inductive LoadStore
  | str (form : OffsetForm) | strPost (form : OffsetForm)
  | strb (form : OffsetForm) | strbPost (form : OffsetForm)
  | ldr (form : OffsetForm) | ldrPost (form : OffsetForm)
  | ldrb (form : OffsetForm) | ldrbPost (form : OffsetForm)
  | strh (reg : Bool) | strhPost (reg : Bool)
  | ldrd (reg : Bool) | ldrdPost (reg : Bool)
  | strd (reg : Bool) | strdPost (reg : Bool)
  | ldrh (reg : Bool) | ldrhPost (reg : Bool)
  | ldrsb (reg : Bool) | ldrsbPost (reg : Bool)
  | ldrsh (reg : Bool) | ldrshPost (reg : Bool)
  | swp | swpb | ldm | stm
  | tLdrPcrel | tStrReg | tStrbReg | tLdrReg | tLdrbReg | tStrhReg | tLdrsbReg | tLdrhReg
  | tLdrshReg | tStrImm | tLdrImm | tStrbImm | tLdrbImm | tStrhImm | tLdrhImm | tStrSprel
  | tLdrSprel | tPush | tPop | tStmia | tLdmia
deriving DecidableEq

namespace LoadStore

def run : LoadStore → Transfer σ Unit
  | .str form => fun c => aSTR port instr (wbCalcOffset instr form c) c
  | .strPost form => fun c => aSTR_POST port instr (wbCalcOffset instr form c) c
  | .strb form => fun c => aSTRB port instr (wbCalcOffset instr form c) c
  | .strbPost form => fun c => aSTRB_POST port instr (wbCalcOffset instr form c) c
  | .ldr form => fun c => aLDR port instr (wbCalcOffset instr form c) c
  | .ldrPost form => fun c => aLDR_POST port instr (wbCalcOffset instr form c) c
  | .ldrb form => fun c => aLDRB port instr (wbCalcOffset instr form c) c
  | .ldrbPost form => fun c => aLDRB_POST port instr (wbCalcOffset instr form c) c
  | .strh reg => fun c => aSTRH port instr (hdCalcOffset instr reg c) c
  | .strhPost reg => fun c => aSTRH_POST port instr (hdCalcOffset instr reg c) c
  | .ldrd reg => fun c => aLDRD port instr (hdCalcOffset instr reg c) c
  | .ldrdPost reg => fun c => aLDRD_POST port instr (hdCalcOffset instr reg c) c
  | .strd reg => fun c => aSTRD port instr (hdCalcOffset instr reg c) c
  | .strdPost reg => fun c => aSTRD_POST port instr (hdCalcOffset instr reg c) c
  | .ldrh reg => fun c => aLDRH port instr (hdCalcOffset instr reg c) c
  | .ldrhPost reg => fun c => aLDRH_POST port instr (hdCalcOffset instr reg c) c
  | .ldrsb reg => fun c => aLDRSB port instr (hdCalcOffset instr reg c) c
  | .ldrsbPost reg => fun c => aLDRSB_POST port instr (hdCalcOffset instr reg c) c
  | .ldrsh reg => fun c => aLDRSH port instr (hdCalcOffset instr reg c) c
  | .ldrshPost reg => fun c => aLDRSH_POST port instr (hdCalcOffset instr reg c) c
  | .swp => aSWP port instr
  | .swpb => aSWPB port instr
  | .ldm => loadMultiple instr port.toCore
  | .stm => storeMultiple instr port.toCore
  | .tLdrPcrel => tLDR_PCREL port instr
  | .tStrReg => tSTR_REG port instr
  | .tStrbReg => tSTRB_REG port instr
  | .tLdrReg => tLDR_REG port instr
  | .tLdrbReg => tLDRB_REG port instr
  | .tStrhReg => tSTRH_REG port instr
  | .tLdrsbReg => tLDRSB_REG port instr
  | .tLdrhReg => tLDRH_REG port instr
  | .tLdrshReg => tLDRSH_REG port instr
  | .tStrImm => tSTR_IMM port instr
  | .tLdrImm => tLDR_IMM port instr
  | .tStrbImm => tSTRB_IMM port instr
  | .tLdrbImm => tLDRB_IMM port instr
  | .tStrhImm => tSTRH_IMM port instr
  | .tLdrhImm => tLDRH_IMM port instr
  | .tStrSprel => tSTR_SPREL port instr
  | .tLdrSprel => tLDR_SPREL port instr
  | .tPush => tPUSH instr port.toCore
  | .tPop => tPOP instr port.toCore
  | .tStmia => tSTMIA instr port.toCore
  | .tLdmia => tLDMIA instr port.toCore

end LoadStore

end MelonDS.ARM

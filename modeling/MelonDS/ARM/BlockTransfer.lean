import MelonDS.ARM.Core

/-!
# Block transfers

`A_LDM` and `A_STM` of `ARMInterpreter_LoadStore.cpp`. With bit 22 set and the program
counter not loaded they address the user bank directly, whatever bank is selected.
-/

namespace MelonDS.ARM

variable {σ : Type*} (core : Core σ)

/-- `UserTransferReg` -/
def userTransferReg (psr : U32) (reg : Fin 16) : Cell :=
  let mode := (psr &&& 0x1F).toNat
  if mode = 0x11 ∧ 8 ≤ reg.val ∧ reg.val < 15 then .rFIQ (Fin.ofNat 8 (reg - 8))
  else if reg = 13 ∨ reg = 14 then
    match mode with
    | 0x12 => rIRQ (Fin.ofNat 3 (reg - 13))
    | 0x13 => rSVC (Fin.ofNat 3 (reg - 13))
    | 0x17 => rABT (Fin.ofNat 3 (reg - 13))
    | 0x1B => rUND (Fin.ofNat 3 (reg - 13))
    | _ => .r reg
  else .r reg

/-- `RestoreTransferBase` -/
def restoreTransferBase (reg : Fin 16) (base oldcpsr : U32) (c : CPU σ) : CPU σ :=
  if reg = 15 ∨ (reg = 14 ∧ oldcpsr &&& 0x1F = 0x17) then c
  else
    let c := updateMode core c.cpsr oldcpsr true c
    let c := c.set (.r reg) base
    updateMode core oldcpsr c.cpsr true c

def baseId (instr : U32) : Fin 16 := Fin.ofNat 16 (instr.toNat >>> 16)

/-- The registers of the list, lowest first. -/
def regList (instr : U32) : List (Fin 16) := (List.finRange 16).filter fun i => instr.getLsbD i

/-- `4 * popcount` of the list. -/
def listSize (instr : U32) : U32 := 4 * BitVec.ofNat 32 (regList instr).length

def emptyBlockTransfer (instr : U32) (load : Bool) (c : CPU σ) : CPU σ :=
  let rn := baseId instr
  let base := c.get (.r rn)
  let up := instr.getLsbD 23
  let writeback := if up then base + 0x40 else base - 0x40
  let setBase := fun c : CPU σ => if instr.getLsbD 21 then c.set (.r rn) writeback else c
  if core.num = .arm9 then setBase c
  else
    let address := (if up then base else writeback) + if instr.getLsbD 24 = up then 4 else 0
    if load then
      match dataRead32 core address c with
      | (none, c) => c
      | (some pc, c) => jumpTo core (pc &&& ~~~1) (instr.getLsbD 22) (setBase c)
    else setBase (dataWrite32 core address (c.get (.r 15) + 4) c).2

/-- The loop of `A_LDM`: the base behind the last register, or none when a load failed. -/
def loadRegs (preinc user : Bool) : List (Fin 16) → U32 → CPU σ → Option U32 × CPU σ
  | [], base, c => (some base, c)
  | i :: regs, base, c =>
    let addr := if preinc then base + 4 else base
    let dest := if user then userTransferReg c.cpsr i else .r i
    match dataRead32 core addr c with
    | (none, c) => (none, c)
    | (some v, c) => loadRegs preinc user regs (if preinc then addr else addr + 4) (c.set dest v)

/-- Whether a loaded base is written back over. -/
def overwritesLoadedBase (instr : U32) : Bool :=
  let rlist := instr &&& 0xFFFF
  let mask : U32 := 1 <<< (baseId instr).val
  rlist &&& ~~~mask = 0 || rlist &&& ~~~((mask <<< 1) - 1) ≠ 0

def aLDM (instr : U32) (c : CPU σ) : CPU σ :=
  if instr &&& 0xFFFF = 0 then emptyBlockTransfer core instr true c
  else
    let rn := baseId instr
    let oldbase := c.get (.r rn)
    let oldcpsr := c.cpsr
    let up := instr.getLsbD 23
    let start := if up then oldbase else oldbase - listSize instr
    let preinc := if up then instr.getLsbD 24 else !instr.getLsbD 24
    let user := instr.getLsbD 22 && !instr.getLsbD 15
    match loadRegs core preinc user ((regList instr).filter (· ≠ 15)) start c with
    | (none, c) => restoreTransferBase core rn oldbase oldcpsr c
    | (some base, c) =>
      let writeback := fun (base : U32) (c : CPU σ) =>
        if instr.getLsbD 21 then
          let wbbase := if up then base else start
          if instr.getLsbD rn then
            if core.num = .arm9 ∧ overwritesLoadedBase instr then c.set (.r rn) wbbase else c
          else c.set (.r rn) wbbase
        else c
      if instr.getLsbD 15 then
        let addr := if preinc then base + 4 else base
        match dataRead32 core addr c with
        | (none, c) => restoreTransferBase core rn oldbase oldcpsr c
        | (some pc, c) =>
          let pc := if core.num = .arm7 then pc &&& ~~~1 else pc
          jumpTo core pc (instr.getLsbD 22)
            (writeback (if preinc then addr else addr + 4) c)
      else writeback base c

/-- The loop of `A_STM`, whose base is only needed where it is stored itself. -/
def storeRegs (instr oldbase : U32) (preinc isbanked : Bool) :
    List (Fin 16) → U32 → CPU σ → Option U32 × CPU σ
  | [], base, c => (some base, c)
  | i :: regs, base, c =>
    let addr := if preinc then base + 4 else base
    let value :=
      if i = baseId instr ∧ !isbanked then
        if core.num = .arm9 ∨ instr &&& ((1 <<< i.val) - 1) = 0 then oldbase else addr
      else
        c.get (if instr.getLsbD 22 then userTransferReg c.cpsr i else .r i) +
          if i = 15 ∧ core.num = .arm7 then 4 else 0
    match dataWrite32 core addr value c with
    | (false, c) => (none, c)
    | (true, c) => storeRegs instr oldbase preinc isbanked regs (if preinc then addr else addr + 4) c

def isBanked (instr psr : U32) : Bool :=
  let mode := (psr &&& 0x1F).toNat
  let rn := (baseId instr).val
  instr.getLsbD 22 &&
    if mode = 0x11 then 8 ≤ rn && rn < 15
    else mode ≠ 0x10 && mode ≠ 0x1F && 13 ≤ rn && rn < 15

def aSTM (instr : U32) (c : CPU σ) : CPU σ :=
  if instr &&& 0xFFFF = 0 then emptyBlockTransfer core instr false c
  else
    let rn := baseId instr
    let oldbase := c.get (.r rn)
    let up := instr.getLsbD 23
    let start := if up then oldbase else oldbase - listSize instr
    let preinc := if up then instr.getLsbD 24 else !instr.getLsbD 24
    match storeRegs core instr oldbase preinc (isBanked instr c.cpsr) (regList instr) start c with
    | (none, c) => c
    | (some base, c) =>
      if instr.getLsbD 21 then
        c.set (.r rn) (if up then base else oldbase - listSize instr)
      else c

end MelonDS.ARM

import MelonDS.ARM.Core
import MelonDS.FIFO

/-!
# Communication between the two CPUs

The cases of `NDS::ARM9IORead16`, `ARM9IORead32`, `ARM9IOWrite8`, `ARM9IOWrite16`,
`ARM9IOWrite32` and of their ARM7 twins for the IPC registers. The twins differ in
which CPU's words they name, so each pair is one definition with the CPU as a
parameter. `SetIRQ` is recorded as a request.
-/

namespace MelonDS.NDS

/-- `IRQ_IPCSync`, `IRQ_IPCSendDone`, `IRQ_IPCRecv`. -/
inductive IPCIrq
  | sync
  | sendDone
  | recv
deriving DecidableEq

def otherCPU : ARM.Num → ARM.Num
  | .arm9 => .arm7
  | .arm7 => .arm9

/-- The words of each CPU; `fifo` is the one it writes. -/
structure IPC where
  ipcSync : ARM.Num → U16
  fifoCnt : ARM.Num → U16
  fifo : ARM.Num → FIFO U32 16

abbrev Request := ARM.Num × IPCIrq

namespace IPC

def reset : IPC := ⟨fun _ => 0, fun _ => 0, fun _ => FIFO.empty 0⟩

/-- What an access does: the words after it, the interrupts requested, the value read. -/
structure Outcome where
  state : IPC
  irqs : List Request
  value : Option U32

def Outcome.stay (s : IPC) : Outcome := ⟨s, [], none⟩

variable (cpu : ARM.Num) (s : IPC)

/-- `val` are the bits 8 to 15 of a write to the sync register. -/
def writeSync (val : U8) : Outcome where
  state :=
    { s with
      ipcSync := Function.update
        (Function.update s.ipcSync (otherCPU cpu)
          ((s.ipcSync (otherCPU cpu) &&& 0xFFF0) ||| (val &&& 0x0F).setWidth 16))
        cpu ((s.ipcSync cpu &&& 0xB0FF) ||| ((val &&& 0x4F).setWidth 16 <<< 8)) }
  irqs :=
    if val &&& 0x20 ≠ 0 ∧ s.ipcSync (otherCPU cpu) &&& 0x4000 ≠ 0 then [(otherCPU cpu, .sync)]
    else []
  value := none

def writeFIFOCnt (val : U16) : Outcome :=
  let own := if val &&& 0x0008 ≠ 0 then (s.fifo cpu).clear 0 else s.fifo cpu
  let cnt := s.fifoCnt cpu
  let acked := if val &&& 0x4000 ≠ 0 then cnt &&& ~~~0x4000 else cnt
  { state :=
      { s with
        fifo := Function.update s.fifo cpu own
        fifoCnt := Function.update s.fifoCnt cpu ((val &&& 0x8404) ||| (acked &&& 0x4000)) }
    irqs :=
      (if val &&& 0x0004 ≠ 0 ∧ cnt &&& 0x0004 = 0 ∧ own.isEmpty then [(cpu, .sendDone)] else []) ++
      (if val &&& 0x0400 ≠ 0 ∧ cnt &&& 0x0400 = 0 ∧ !(s.fifo (otherCPU cpu)).isEmpty then
        [(cpu, .recv)] else [])
    value := none }

def sendFIFO (val : U32) : Outcome :=
  if s.fifoCnt cpu &&& 0x8000 = 0 then .stay s
  else if (s.fifo cpu).isFull then
    .stay { s with fifoCnt := Function.update s.fifoCnt cpu (s.fifoCnt cpu ||| 0x4000) }
  else
    { state := { s with fifo := Function.update s.fifo cpu ((s.fifo cpu).write val) }
      irqs :=
        if s.fifoCnt (otherCPU cpu) &&& 0x0400 ≠ 0 ∧ (s.fifo cpu).isEmpty then
          [(otherCPU cpu, .recv)] else []
      value := none }

def recvFIFO : Outcome :=
  let queue := s.fifo (otherCPU cpu)
  if s.fifoCnt cpu &&& 0x8000 = 0 then { Outcome.stay s with value := some queue.peek }
  else if queue.isEmpty then
    { state := { s with fifoCnt := Function.update s.fifoCnt cpu (s.fifoCnt cpu ||| 0x4000) }
      irqs := []
      value := some queue.peek }
  else
    let (ret, queue) := queue.read
    { state := { s with fifo := Function.update s.fifo (otherCPU cpu) queue }
      irqs :=
        if queue.isEmpty ∧ s.fifoCnt (otherCPU cpu) &&& 0x0004 ≠ 0 then
          [(otherCPU cpu, .sendDone)] else []
      value := some ret }

def readFIFOCnt : U16 :=
  s.fifoCnt cpu |||
    (if (s.fifo cpu).isEmpty then 0x0001 else if (s.fifo cpu).isFull then 0x0002 else 0) |||
    (if (s.fifo (otherCPU cpu)).isEmpty then 0x0100
      else if (s.fifo (otherCPU cpu)).isFull then 0x0200 else 0)

def ioWrite32FIFO (addr val : U32) : Outcome :=
  if addr = 0x04000188 then sendFIFO cpu s val else .stay s

def ioWrite8 (addr : U32) (val : U8) : Outcome :=
  if addr = 0x04000181 then writeSync cpu s val
  else ioWrite32FIFO cpu s addr (val ++ val ++ val ++ val)

def ioWrite16 (addr : U32) (val : U16) : Outcome :=
  if addr = 0x04000180 then writeSync cpu s (val.extractLsb' 8 8)
  else if addr = 0x04000184 then writeFIFOCnt cpu s val
  else ioWrite32FIFO cpu s addr (val ++ val)

def ioWrite32 (addr val : U32) : Outcome :=
  if addr = 0x04000180 ∨ addr = 0x04000184 then ioWrite16 cpu s addr (val.setWidth 16)
  else ioWrite32FIFO cpu s addr val

def ioRead16 (addr : U32) : Outcome :=
  if addr = 0x04000180 then { Outcome.stay s with value := some ((s.ipcSync cpu).setWidth 32) }
  else if addr = 0x04000184 then
    { Outcome.stay s with value := some ((readFIFOCnt cpu s).setWidth 32) }
  else .stay s

def ioRead32 (addr : U32) : Outcome :=
  if addr = 0x04100000 then recvFIFO cpu s else ioRead16 cpu s addr

end IPC

/-- An access of a CPU to its registers; other addresses are no business of this module. -/
inductive IPCAccess
  | write8 (addr : U32) (val : U8)
  | write16 (addr : U32) (val : U16)
  | write32 (addr val : U32)
  | read16 (addr : U32)
  | read32 (addr : U32)

structure IPCOp where
  cpu : ARM.Num
  access : IPCAccess

namespace IPC

def step (s : IPC) (op : IPCOp) : Outcome :=
  match op.access with
  | .write8 addr val => ioWrite8 op.cpu s addr val
  | .write16 addr val => ioWrite16 op.cpu s addr val
  | .write32 addr val => ioWrite32 op.cpu s addr val
  | .read16 addr => ioRead16 op.cpu s addr
  | .read32 addr => ioRead32 op.cpu s addr

def run (s : IPC) : List IPCOp → IPC
  | [] => s
  | op :: ops => run (s.step op).state ops

/-- Each operation of a run with the words it starts from. -/
def trace (s : IPC) : List IPCOp → List (IPC × IPCOp)
  | [] => []
  | op :: ops => (s, op) :: trace (s.step op).state ops

end IPC
end MelonDS.NDS

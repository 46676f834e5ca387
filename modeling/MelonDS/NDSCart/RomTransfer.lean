import MelonDS.NDSCart.Slot

/-!
# Transfers on the ROM bus

The ROM side of an interface: ROMCTRL starts a transfer, its events and the accesses to the
data port move words through a FIFO of two. An access carries the time of the CPU that is
running, and events count from there. The seeds of KEY2 concern no transfer, and a transfer
taken over from an old savestate is given up when a new one starts; both are left out.
-/

namespace MelonDS.NDSCart

namespace Interface

/-- DRQ, bit 23 of ROMCTRL. -/
def dataRequest (i : Interface) : Bool := i.romCnt.getLsbD 23

/-- Bit 30 of ROMCTRL: the CPU writes. -/
def writes (i : Interface) : Bool := i.romCnt.getLsbD 30

/-- Bit 31 of ROMCTRL. -/
def busy (i : Interface) : Bool := i.romCnt.getLsbD 31

def raiseDRQ (i : Interface) : Interface := { i with romCnt := i.romCnt ||| 0x00800000 }

def clearDRQ (i : Interface) : Interface := { i with romCnt := i.romCnt &&& ~~~0x00800000 }

def xferCycle (i : Interface) : ℕ := if i.romCnt.getLsbD 27 then 8 else 5

/-- The gap before the data, and before each block of 200h bytes. -/
def gap2 (i : Interface) : ℕ := (i.romCnt >>> 16 &&& 0x3F).toNat

def dataSize (i : Interface) : ℕ :=
  let datasize := (i.romCnt >>> 24 &&& 7).toNat
  if datasize = 7 then 4 else if 0 < datasize then 0x100 * 2 ^ datasize else datasize

/-- AUXSPICNT enables the interrupt at the end. -/
def transferIRQEnabled (i : Interface) : Bool := i.spiCnt.getLsbD 14

def scheduleROM (event : ROMEvent) (time : ℕ) (i : Interface) : Interface :=
  { i with romEvent := i.romEvent.or (some (event, time)) }

def romAdvanceReceive (time : ℕ) (i : Interface) : Interface :=
  if i.romTransferLen ≤ i.romTransferPos then i
  else
    let delay := 4 + if i.romTransferPos % 0x200 = 0 then i.gap2 else 0
    i.scheduleROM .receiveData (time + i.xferCycle * delay)

def romAdvanceSend (time : ℕ) (i : Interface) : Interface :=
  if i.romTransferPos < i.romTransferLen then
    let delay := 4 + if i.romTransferPos % 0x200 = 0 then i.gap2 else 0
    i.scheduleROM .sendData (time + i.xferCycle * delay)
  else i.scheduleROM .end (time + i.xferCycle * 4)

/-- A word from the cart goes into the FIFO. -/
def pushWord (data : U32) (i : Interface) : Interface :=
  { i with
    romData := Function.update i.romData i.romDataPosCart data
    romDataPosCart := !i.romDataPosCart
    romDataCount := i.romDataCount + 1
    romTransferPos := i.romTransferPos + 4 }.raiseDRQ

/-- `ROMReceiveData` with the word in hand. -/
def receiveWord (data : U32) (time : ℕ) (i : Interface) : Interface :=
  let i := i.pushWord data
  if i.romDataCount < 2 then i.romAdvanceReceive time else { i with romDataLate := true }

/-- A word of the FIFO has gone to the cart. -/
def popWord (i : Interface) : Interface :=
  { i with
    romDataPosCart := !i.romDataPosCart
    romDataCount := i.romDataCount - 1
    romTransferPos := i.romTransferPos + 4 }

/-- The rest of `ROMSendData`. -/
def sendWord (time : ℕ) (i : Interface) : Interface :=
  let i := i.popWord
  (if i.romTransferPos < i.romTransferLen then i.raiseDRQ else i).romAdvanceSend time

/-- The CPU has taken a word. -/
def takeWord (i : Interface) : Interface :=
  { i with
    romDataPosCPU := !i.romDataPosCPU
    romDataCount := i.romDataCount - 1 }.clearDRQ

/-- The cursor of the CPU moves on after a write. -/
def putWord (i : Interface) : Interface :=
  { i with
    romDataPosCPU := !i.romDataPosCPU
    romDataCount := if i.romDataCount < 2 then i.romDataCount + 1 else i.romDataCount }.clearDRQ

def endTransfer (i : Interface) : Interface :=
  { i with romCnt := i.romCnt &&& ~~~0x80000000, romTransferPos := 0, romTransferLen := 0 }

/-- The word under the cursor of the CPU after a write to some of its bytes. -/
def mergedWord (val mask : U32) (i : Interface) : U32 :=
  i.romData i.romDataPosCPU &&& ~~~mask ||| val &&& mask

/-- The FIFO moves on when the most significant byte is written. -/
def advances (mask : U32) : Bool := mask &&& 0xFF000000 != 0

/-- ROMCTRL after a write; the busy bit can be set and the request stays. -/
def setROMCnt (val mask : U32) (i : Interface) : Interface :=
  { i with romCnt := i.romCnt &&& (~~~mask ||| 0x20800000) ||| val &&& mask &&& 0xFF7F7FFF }

def resetFIFO (i : Interface) : Interface :=
  { i with
    romDataPosCPU := false
    romDataPosCart := false
    romDataCount := 0
    romDataLate := false }

/-- The FIFO is reset and the first event scheduled. -/
def startTransfer (time : ℕ) (i : Interface) : Interface :=
  let datasize := i.romTransferLen
  let cmddelay := 8 + (i.romCnt &&& 0x1FFF).toNat + if datasize ≠ 0 then i.gap2 else 0
  if i.writes = false then
    if datasize = 0 then i.resetFIFO.scheduleROM .end (time + i.xferCycle * cmddelay)
    else i.resetFIFO.scheduleROM .receiveData (time + i.xferCycle * (cmddelay + 4))
  else if datasize = 0 then
    i.resetFIFO.raiseDRQ.scheduleROM .end (time + i.xferCycle * cmddelay)
  else i.resetFIFO.raiseDRQ.scheduleROM .sendData (time + i.xferCycle * cmddelay)

end Interface

namespace Slot

variable {C : Type*} [VirtualCart C]

def romCommandReceive (n : ARM.Num) (s : Slot C) : U32 × Slot C :=
  match s.cart with
  | none => (0, s)
  | some c =>
    let answer := VirtualCart.romCommandReceive c
    (answer.1, { s with cart := some answer.2, log := .romCommandReceive n answer.1 :: s.log })

def romReceiveData (n : ARM.Num) (time : ℕ) (s : Slot C) : Slot C :=
  let answer :=
    if s.cartActive then
      if s.cpuSelect = n then s.romCommandReceive n else (0xFFFFFFFF, s)
    else (if s.powerState = 1 then 0xFFFFFFFF else 0, s)
  answer.2.modify n (Interface.receiveWord answer.1 time)

def romSendData (n : ARM.Num) (time : ℕ) (s : Slot C) : Slot C :=
  let i := s.interfaces n
  if i.romDataCount = 0 then s.modify n fun i => { i with romDataLate := true }
  else
    let data := i.romData i.romDataPosCart
    let s :=
      if s.cartActive ∧ s.cpuSelect = n then
        s.onCart (.romCommandTransmit n data) (VirtualCart.romCommandTransmit data)
      else s
    s.modify n (Interface.sendWord time)

def romEndTransfer (n : ARM.Num) (s : Slot C) : Slot C :=
  let s := s.modify n Interface.endTransfer
  let s :=
    if (s.interfaces n).transferIRQEnabled then { s with log := .transferIRQ n :: s.log } else s
  if s.cartActive ∧ s.cpuSelect = n then
    s.onCart (.romCommandFinish n) VirtualCart.romCommandFinish
  else s

/-- The event of an interface fires. -/
def romEvent (n : ARM.Num) (time : ℕ) (s : Slot C) : Slot C :=
  match (s.interfaces n).romEvent with
  | none => s
  | some (event, _) =>
    let s := s.modify n fun i => { i with romEvent := none }
    match event with
    | .receiveData => s.romReceiveData n time
    | .sendData => s.romSendData n time
    | .end => s.romEndTransfer n

def readROMData (n : ARM.Num) (time : ℕ) (s : Slot C) : U32 × Slot C :=
  let i := s.interfaces n
  let ret := i.romData i.romDataPosCPU
  if i.writes then (ret, s)
  else
    let s := s.modify n Interface.takeWord
    if i.romTransferPos < i.romTransferLen then
      if i.romDataLate then
        (ret, s.modify n fun i => { i with romDataLate := false }.romAdvanceReceive time)
      else (ret, s)
    else if (s.interfaces n).romDataCount = 0 then (ret, s.romEndTransfer n)
    else (ret, s.modify n Interface.raiseDRQ)

def writeROMData (n : ARM.Num) (time : ℕ) (val mask : U32) (s : Slot C) : Slot C :=
  let i := s.interfaces n
  if i.writes = false then s
  else
    let s := s.modify n fun i =>
      { i with romData := Function.update i.romData i.romDataPosCPU (i.mergedWord val mask) }
    if Interface.advances mask = false then s
    else
      let s := s.modify n Interface.putWord
      if i.romDataLate then (s.modify n fun i => { i with romDataLate := false }).romSendData n time
      else s

/-- `WriteROMCnt` once a transfer is to start. -/
def startROMTransfer (decrypt : U32 × U32 → U32 × U32) (n : ARM.Num) (time : ℕ) (s : Slot C) :
    Slot C :=
  let i := s.interfaces n
  let s := s.modify n fun i => { i with romTransferPos := 0, romTransferLen := i.dataSize }
  let s :=
    if s.cartActive ∧ s.cpuSelect = n then
      s.onCart (.romCommandStart n) (VirtualCart.romCommandStart decrypt i.romCommand)
    else s
  s.modify n (Interface.startTransfer time)

def writeROMCnt (decrypt : U32 × U32 → U32 × U32) (n : ARM.Num) (time : ℕ) (val mask : U32)
    (s : Slot C) : Slot C :=
  let rising := val &&& mask &&& ~~~(s.interfaces n).romCnt
  let s := s.modify n (Interface.setROMCnt val mask)
  let s := if rising.getLsbD 29 ∧ s.cpuSelect = n then s.updateCartState else s
  let i := s.interfaces n
  if i.spiCnt.getLsbD 15 = false ∨ i.spiMode ∨ rising.getLsbD 31 = false then s
  else s.startROMTransfer decrypt n time

end Slot

/-! ## Accesses and events -/

/-- What happens while a transfer is under way. -/
inductive ROMOp
  | readData (time : ℕ)
  | writeData (time : ℕ) (val mask : U32)
  | event (time : ℕ)

namespace ROMOp

variable {C : Type*} [VirtualCart C]

def apply (n : ARM.Num) (s : Slot C) : ROMOp → Slot C
  | .readData time => (s.readROMData n time).2
  | .writeData time val mask => s.writeROMData n time val mask
  | .event time => s.romEvent n time

end ROMOp
end MelonDS.NDSCart

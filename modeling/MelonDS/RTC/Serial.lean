import MelonDS.RTC.Registers

/-!
# The RTC behind its serial port

The CPU reaches the clock through one register, a bit at a time: a transfer
begins when the chip is selected, the first byte is a command, and the following
ones go to the register it names, one byte at a time and for as long as the CPU
cares to send. The 32768 Hz timer counts a second whenever its low fifteen bits
are zero.
-/

namespace MelonDS

/-- What the clock reads of the console around it. -/
structure RTC.Env where
  consoleType : ℕ
  RCnt : U16

structure RTC where
  io : U16
  input : U8
  inputBit : ℕ
  inputPos : ℕ
  output : Fin 8 → U8
  outputBit : ℕ
  outputPos : ℕ
  curCmd : U8
  state : RTC.StateData
  timerError : ℕ
  clockCount : U32
  /-- delays of the events it scheduled -/
  scheduled : List ℕ
  /-- how often `NDS.SetIRQ(1, IRQ_RTC)` was called -/
  irqs : ℕ
  /-- what was handed to `Platform::WriteDateTime` -/
  saved : List CivilTime

namespace RTC

/-- A clock just built: the power was off. -/
def init : RTC where
  io := 0
  input := 0
  inputBit := 0
  inputPos := 0
  output _ := 0
  outputBit := 0
  outputPos := 0
  curCmd := 0
  state := { resetState with statusReg1 := 0x80 ||| 0x02 }
  timerError := 0
  clockCount := 0
  scheduled := []
  irqs := 0
  saved := []

def setIRQ (env : Env) (r : RTC) (irq : U8) : RTC :=
  let oldstat := r.state.IRQFlag
  let flag := oldstat ||| irq
  { r with
    state := { r.state with IRQFlag := flag, statusReg1 := r.state.statusReg1 ||| irq }
    irqs := r.irqs + if oldstat &&& 0x30 = 0 ∧ flag &&& 0x30 ≠ 0 ∧ env.RCnt &&& 0xC100 = 0x8100
      then 1 else 0 }

def clearIRQ (r : RTC) (irq : U8) : RTC :=
  { r with state := { r.state with IRQFlag := r.state.IRQFlag &&& ~~~irq } }

/-- Whether an alarm's enabled fields all match; the date is compared on a DSi only. -/
def alarmMatches (env : Env) (s : StateData) (alarm date : Fin 3 → U8) : Bool :=
  ((alarm 0).getLsbD 7 → alarm 0 &&& 0x07 = s.dateTime 3) ∧
  ((alarm 1).getLsbD 7 → alarm 1 &&& 0x7F = s.dateTime 4) ∧
  ((alarm 2).getLsbD 7 → alarm 2 &&& 0x7F = s.dateTime 5) ∧
  (env.consoleType = 1 →
    ((date 1).getLsbD 6 → date 0 = s.dateTime 0) ∧
    ((date 1).getLsbD 7 → date 1 &&& 0x1F = s.dateTime 1) ∧
    ((date 2).getLsbD 7 → date 2 &&& 0x3F = s.dateTime 2))

/-- Why `ProcessIRQ` is called. -/
inductive IRQType
  | minuteCarry
  | periodic
  | statusWrite
deriving DecidableEq

/-- The frequencies selected by the first alarm's last byte. -/
def frequencyMask (s : StateData) : U32 :=
  let select (i : ℕ) (mask : U32) : U32 := if (s.alarm1 2).getLsbD i then mask else 0
  select 0 0x4000 ||| select 1 0x2000 ||| select 2 0x1000 ||| select 3 0x0800 ||| select 4 0x0400

def processInt1 (env : Env) (r : RTC) (type : IRQType) : RTC :=
  let s := r.state
  let perMinute := type = .minuteCarry ∨ (type = .statusWrite ∧ s.IRQFlag &&& 0x01 ≠ 0)
  match (s.statusReg2 &&& 0x0F).toNat with
  | 0b0000 => if type = .statusWrite then r.clearIRQ 0x10 else r
  | 0b0001 | 0b0101 =>
      if (type = .periodic ∧ r.clockCount &&& 0x3FF = 0) ∨ type = .statusWrite then
        let mask := frequencyMask s
        if mask ≠ 0 ∧ r.clockCount &&& mask ≠ mask then r.setIRQ env 0x10 else r.clearIRQ 0x10
      else r
  | 0b0010 | 0b0110 => if perMinute then r.setIRQ env 0x10 else r
  | 0b0011 =>
      if perMinute then r.setIRQ env 0x10
      else if type = .periodic ∧ s.dateTime 6 = 0x30 ∧ r.clockCount &&& 0x7FFF = 0 then
        r.clearIRQ 0x10
      else r
  | 0b0111 =>
      if perMinute then r.setIRQ env 0x10
      else if type = .periodic ∧ s.dateTime 6 = 0x00 ∧ r.clockCount &&& 0x7FFF = 256 then
        r.clearIRQ 0x10
      else r
  | 0b0100 =>
      if type = .minuteCarry then
        if alarmMatches env s s.alarm1 s.alarmDate1 then r.setIRQ env 0x10 else r.clearIRQ 0x10
      else r
  | _ => if type = .periodic then (r.setIRQ env 0x10).clearIRQ 0x10 else r

def processInt2 (env : Env) (r : RTC) (type : IRQType) : RTC :=
  let s := r.state
  if s.statusReg2.getLsbD 6 then
    if type = .minuteCarry then
      if alarmMatches env s s.alarm2 s.alarmDate2 then r.setIRQ env 0x20 else r.clearIRQ 0x20
    else r
  else if type = .statusWrite then r.clearIRQ 0x20 else r

def processIRQ (env : Env) (r : RTC) (type : IRQType) : RTC :=
  processInt2 env (processInt1 env r type) type

def countMinute (env : Env) (r : RTC) : RTC :=
  processIRQ env { r with state := r.state.countMinute } .minuteCarry

def countSecond (env : Env) (r : RTC) : RTC :=
  let s := r.state.setDateTime 6 (BCDIncrement (r.state.dateTime 6))
  if s.dateTime 6 ≥ 0x60 then countMinute env { r with state := s.setDateTime 6 0 }
  else { r with state := s }

def scheduleTimer (r : RTC) (first : Bool) : RTC :=
  let sysclock := 33513982 + if first then 0 else r.timerError
  { r with timerError := sysclock % 0x8000, scheduled := r.scheduled ++ [sysclock / 0x8000] }

def clockTimer (env : Env) (r : RTC) : RTC :=
  let r := { r with clockCount := r.clockCount + 1 }
  let r :=
    if r.clockCount &&& 0x7FFF = 0 then countSecond env r
    else if r.clockCount &&& 0x7FFF = 256 then r.clearIRQ 0x01
    else r
  (processIRQ env r .periodic).scheduleTimer false

/-- `Reset` clears the port and keeps the battery-backed registers. -/
def reset (r : RTC) : RTC :=
  { r with
    io := 0, input := 0, inputBit := 0, inputPos := 0, output := fun _ => 0, outputBit := 0
    outputPos := 0, curCmd := 0, clockCount := 0 }.scheduleTimer true

/-- `memcpy` of a few bytes to the start of the output. -/
def copyOut (r : RTC) (bytes : List U8) : RTC :=
  { r with output := fun i => bytes.getD i (r.output i) }

def cmdRead (env : Env) (r : RTC) : RTC :=
  let s := r.state
  if r.curCmd &&& 0x0F = 0x06 then
    match (r.curCmd &&& 0x70).toNat with
    | 0x00 =>
        { r.copyOut [s.statusReg1] with state := { s with statusReg1 := s.statusReg1 &&& 0x0F } }
    | 0x40 => r.copyOut [s.statusReg2]
    | 0x20 => r.copyOut (List.ofFn s.dateTime)
    | 0x60 => r.copyOut [s.dateTime 4, s.dateTime 5, s.dateTime 6]
    | 0x10 => r.copyOut (if s.statusReg2 &&& 0x04 ≠ 0 then List.ofFn s.alarm1 else [s.alarm1 2])
    | 0x50 => r.copyOut (List.ofFn s.alarm2)
    | 0x30 => r.copyOut [s.clockAdjust]
    | _ => r.copyOut [s.freeReg]
  else if r.curCmd &&& 0x0F = 0x0E ∧ env.consoleType = 1 then
    match (r.curCmd &&& 0x70).toNat with
    | 0x00 =>
        r.copyOut [(s.minuteCount >>> 16).setWidth 8, (s.minuteCount >>> 8).setWidth 8,
          s.minuteCount.setWidth 8]
    | 0x40 => r.copyOut [s.FOUT1]
    | 0x20 => r.copyOut [s.FOUT2]
    | 0x10 => r.copyOut (List.ofFn s.alarmDate1)
    | 0x50 => r.copyOut (List.ofFn s.alarmDate2)
    | _ => r
  else r

def saveDateTime (r : RTC) : RTC := { r with saved := r.saved ++ [r.state.getDateTime] }

/-- One of three bytes, the first of which is at position 1. -/
def setByte (bytes : Fin 3 → U8) (pos : ℕ) (val : U8) : Fin 3 → U8 :=
  fun i => if i.val + 1 = pos then val else bytes i

def cmdWrite (env : Env) (r : RTC) (val : U8) : RTC :=
  let s := r.state
  let pos := r.inputPos
  if r.curCmd &&& 0x0F = 0x06 then
    match (r.curCmd &&& 0x70).toNat with
    | 0x00 => if pos = 1 then { r with state := s.writeStatusReg1 val } else r
    | 0x40 =>
        if pos = 1 then processIRQ env { r with state := { s with statusReg2 := val } } .statusWrite
        else r
    | 0x20 =>
        let r := if pos ≤ 7 then { r with state := s.writeDateTime pos val } else r
        if pos = 7 then r.saveDateTime else r
    | 0x60 =>
        let r := if pos ≤ 3 then { r with state := s.writeDateTime (pos + 4) val } else r
        if pos = 3 then r.saveDateTime else r
    | 0x10 =>
        if s.statusReg2 &&& 0x04 ≠ 0 then
          { r with state := { s with alarm1 := setByte s.alarm1 pos val } }
        else if pos = 1 then { r with state := { s with alarm1 := setByte s.alarm1 3 val } }
        else r
    | 0x50 => { r with state := { s with alarm2 := setByte s.alarm2 pos val } }
    | 0x30 => if pos = 1 then { r with state := { s with clockAdjust := val } } else r
    | _ => if pos = 1 then { r with state := { s with freeReg := val } } else r
  else if r.curCmd &&& 0x0F = 0x0E ∧ env.consoleType = 1 then
    match (r.curCmd &&& 0x70).toNat with
    | 0x40 => if pos = 1 then { r with state := { s with FOUT1 := val } } else r
    | 0x20 => if pos = 1 then { r with state := { s with FOUT2 := val } } else r
    | 0x10 => { r with state := { s with alarmDate1 := setByte s.alarmDate1 pos val } }
    | 0x50 => { r with state := { s with alarmDate2 := setByte s.alarmDate2 pos val } }
    | _ => r
  else r

/-- Commands sent most significant bit first are turned round. -/
def rev (low : U8) : List U8 :=
  [0x06, 0x86, 0x46, 0xC6, 0x26, 0xA6, 0x66, 0xE6, 0x16, 0x96, 0x56, 0xD6, 0x36, 0xB6, 0x76,
    0xF6].map (· + low)

def command (env : Env) (val : U8) : U8 :=
  let cmd := if val &&& 0xF0 = 0x60 then (rev 0).getD (val &&& 0xF).toNat 0 else val
  if env.consoleType = 1 ∧ cmd &&& 0xF0 = 0x70 ∧ cmd &&& 0xFE ≠ 0x76 then
    (rev 8).getD (cmd &&& 0xF).toNat 0
  else cmd

def byteIn (env : Env) (r : RTC) (val : U8) : RTC :=
  if r.inputPos = 0 then
    let r := { r with curCmd := command env val }
    if r.curCmd &&& 0x80 ≠ 0 then r.cmdRead env else r
  else r.cmdWrite env val

def startTransfer (r : RTC) : RTC :=
  { r with
    input := 0, inputBit := 0, inputPos := 0, output := fun _ => 0, outputBit := 0, outputPos := 0 }

/-- The rising edge of a write: one bit comes in, and with the eighth a byte. -/
def bitIn (env : Env) (r : RTC) (val : U16) : RTC :=
  let input := if val.getLsbD 0 then r.input ||| bit 8 r.inputBit else r.input
  if r.inputBit + 1 ≥ 8 then
    let r := byteIn env { r with input := input, inputBit := 0 } input
    { r with input := 0, inputPos := (r.inputPos + 1) % 2 ^ 32 }
  else { r with input := input, inputBit := r.inputBit + 1 }

/-- The falling edge of a read: one bit goes out. -/
def bitOut (r : RTC) : RTC :=
  let out := (r.output (Fin.ofNat 8 r.outputPos)).getLsbD r.outputBit
  let r := { r with io := if out then r.io ||| 0x0001 else r.io &&& 0xFFFE }
  if r.outputBit + 1 ≥ 8 then
    { r with outputBit := 0, outputPos := if r.outputPos < 7 then r.outputPos + 1 else r.outputPos }
  else { r with outputBit := r.outputBit + 1 }

def write (env : Env) (r : RTC) (val : U16) (byte : Bool) : RTC :=
  let val := if byte then val ||| (r.io &&& 0xFF00) else val
  let r :=
    if val &&& 0x0004 ≠ 0 then
      if r.io &&& 0x0004 = 0 then r.startTransfer
      else if (r.io ^^^ val) &&& 0x0002 ≠ 0 then
        if val &&& 0x0010 ≠ 0 ∧ val &&& 0x0002 ≠ 0 then bitIn env r val
        else if val &&& 0x0010 = 0 ∧ val &&& 0x0002 = 0 then r.bitOut
        else r
      else r
    else r
  { r with io := if val &&& 0x0010 ≠ 0 then val else (r.io &&& 0x0001) ||| (val &&& 0xFFFE) }

end RTC
end MelonDS

import MelonDS.Library.CivilCalendar
import MelonDS.Types

/-!
# The clock registers of `RTC`

The date and the time stand in seven BCD bytes: year, month, day, day of week,
hour, minute, second. The hour byte carries the afternoon in bit 6, and bit 1 of
the first status register selects the 24-hour clock. Counting is a chain of BCD
counters, each of which carries into the next.
-/

namespace MelonDS

namespace RTC

def BCD (val : U8) : U8 := val % 10 ||| (val / 10) <<< 4

def fromBCD (val : U8) : U8 := (val &&& 0xF) + (val >>> 4) * 10

def BCDIncrement (val : U8) : U8 :=
  let val := val + 1
  let val := if val &&& 0x0F ≥ 0x0A then val + 0x06 else val
  if val &&& 0xF0 ≥ 0xA0 then val + 0x60 else val

def BCDSanitize (val vmin vmax : U8) : U8 :=
  if val < vmin ∨ val > vmax then vmin
  else if val &&& 0x0F ≥ 0x0A then vmin
  else if val &&& 0xF0 ≥ 0xA0 then vmin
  else val

structure StateData where
  statusReg1 : U8
  statusReg2 : U8
  dateTime : Fin 7 → U8
  alarm1 : Fin 3 → U8
  alarm2 : Fin 3 → U8
  clockAdjust : U8
  freeReg : U8
  IRQFlag : U8
  minuteCount : U32
  FOUT1 : U8
  FOUT2 : U8
  alarmDate1 : Fin 3 → U8
  alarmDate2 : Fin 3 → U8

/-- What `ResetState` leaves: everything zero but the first of January. -/
def resetState : StateData where
  statusReg1 := 0
  statusReg2 := 0
  dateTime := Function.update (Function.update (fun _ => 0) 1 1) 2 1
  alarm1 _ := 0
  alarm2 _ := 0
  clockAdjust := 0
  freeReg := 0
  IRQFlag := 0
  minuteCount := 0
  FOUT1 := 0
  FOUT2 := 0
  alarmDate1 _ := 0
  alarmDate2 _ := 0

namespace StateData

def is24Hour (s : StateData) : Bool := s.statusReg1.getLsbD 1

def setDateTime (s : StateData) (i : Fin 7) (val : U8) : StateData :=
  { s with dateTime := Function.update s.dateTime i val }

def getDateTime (s : StateData) : CivilTime where
  year := (fromBCD (s.dateTime 0)).toNat + 2000
  month := (fromBCD (s.dateTime 1 &&& 0x3F)).toNat
  day := (fromBCD (s.dateTime 2 &&& 0x3F)).toNat
  hour :=
    let hour := (fromBCD (s.dateTime 4 &&& 0x3F)).toNat
    if s.is24Hour then hour
    else if s.dateTime 4 &&& 0x40 ≠ 0 then hour + 12 else hour
  minute := (fromBCD (s.dateTime 5 &&& 0x7F)).toNat
  second := (fromBCD (s.dateTime 6 &&& 0x7F)).toNat

def daysInMonth (s : StateData) : U8 :=
  let month := s.dateTime 1
  if month ∈ [0x01, 0x03, 0x05, 0x07, 0x08, 0x10, 0x12] then 0x31
  else if month ∈ [0x04, 0x06, 0x09, 0x11] then 0x30
  else if month = 0x02 then
    let year := (s.dateTime 0 &&& 0xF).toNat + (s.dateTime 0 >>> 4).toNat * 10
    if year % 4 = 0 then 0x29 else 0x28
  else 0

def countYear (s : StateData) : StateData := s.setDateTime 0 (BCDIncrement (s.dateTime 0))

def countMonth (s : StateData) : StateData :=
  let s := s.setDateTime 1 (BCDIncrement (s.dateTime 1))
  if s.dateTime 1 > 0x12 then (s.setDateTime 1 1).countYear else s

def checkEndOfMonth (s : StateData) : StateData :=
  if s.dateTime 2 > s.daysInMonth then (s.setDateTime 2 1).countMonth else s

def countDay (s : StateData) : StateData :=
  let s := s.setDateTime 3 (s.dateTime 3 + 1)
  let s := if s.dateTime 3 ≥ 7 then s.setDateTime 3 0 else s
  (s.setDateTime 2 (BCDIncrement (s.dateTime 2))).checkEndOfMonth

def countHour (s : StateData) : StateData :=
  let hour := BCDIncrement (s.dateTime 4 &&& 0x3F)
  let pm := s.dateTime 4 &&& 0x40
  if s.is24Hour then
    let carry := hour ≥ 0x24
    let hour := if carry then 0 else hour
    let s := if carry then s.countDay else s
    let pm := if hour ≥ 0x12 then 0x40 else 0
    s.setDateTime 4 (hour ||| pm)
  else
    let carry := hour ≥ 0x12
    let hour := if carry then 0 else hour
    let s := if carry ∧ pm ≠ 0 then s.countDay else s
    let pm := if carry then pm ^^^ 0x40 else pm
    s.setDateTime 4 (hour ||| pm)

def stepMinute (s : StateData) : StateData :=
  let s := s.setDateTime 5 (BCDIncrement (s.dateTime 5))
  if s.dateTime 5 ≥ 0x60 then (s.setDateTime 5 0).countHour else s

/-- `CountMinute` up to the interrupts it looks for. -/
def countMinute (s : StateData) : StateData :=
  let s := { s with minuteCount := s.minuteCount + 1 }.stepMinute
  { s with IRQFlag := s.IRQFlag ||| 0x01 }

def writeDateTime (s : StateData) (num : ℕ) (val : U8) : StateData :=
  match num with
  | 1 => s.setDateTime 0 (BCDSanitize val 0x00 0x99)
  | 2 => s.setDateTime 1 (BCDSanitize (val &&& 0x1F) 0x01 0x12)
  | 3 => (s.setDateTime 2 (BCDSanitize (val &&& 0x3F) 0x01 0x31)).checkEndOfMonth
  | 4 => s.setDateTime 3 (BCDSanitize (val &&& 0x07) 0x00 0x06)
  | 5 =>
      let hour := val &&& 0x3F
      let pm := val &&& 0x40
      if s.is24Hour then
        let hour := BCDSanitize hour 0x00 0x23
        let pm := if hour ≥ 0x12 then 0x40 else 0
        s.setDateTime 4 (hour ||| pm)
      else
        let hour := BCDSanitize hour 0x00 0x11
        s.setDateTime 4 (hour ||| pm)
  | 6 => s.setDateTime 5 (BCDSanitize (val &&& 0x7F) 0x00 0x59)
  | 7 => s.setDateTime 6 (BCDSanitize (val &&& 0x7F) 0x00 0x59)
  | _ => s

/-- The hour byte after the clock changed between 12 and 24 hours. -/
def convertHour (s : StateData) : StateData :=
  let hour := s.dateTime 4 &&& 0x3F
  let pm := s.dateTime 4 &&& 0x40
  if s.is24Hour then
    let hour :=
      if pm ≠ 0 then
        let hour := hour + 0x12
        if hour &&& 0x0F ≥ 0x0A then hour + 0x06 else hour
      else hour
    s.setDateTime 4 (BCDSanitize hour 0x00 0x23 ||| pm)
  else
    let afternoon := hour ≥ 0x12
    let pm := if afternoon then 0x40 else 0
    let hour :=
      if afternoon then
        let hour := hour - 0x12
        if hour &&& 0x0F ≥ 0x0A then hour - 0x06 else hour
      else hour
    s.setDateTime 4 (BCDSanitize hour 0x00 0x11 ||| pm)

/-- A write of the first status register. -/
def writeStatusReg1 (s : StateData) (val : U8) : StateData :=
  let oldval := s.statusReg1
  let s := if val &&& 1 ≠ 0 then resetState else s
  let s := { s with statusReg1 := (s.statusReg1 &&& 0xF0) ||| (val &&& 0x0E) }
  if (s.statusReg1 ^^^ oldval) &&& 2 ≠ 0 then s.convertHour else s

end StateData
end RTC
end MelonDS

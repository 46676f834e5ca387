import Mathlib.Data.Fin.VecNotation
import MelonDS.Types
import MelonDS.Library.CyclicWindow
import MelonDS.Library.LittleEndian

/-!
# The sound channels

A channel takes a sample each time its timer overflows. The bytes come from a FIFO that is
filled ahead from guest memory in bursts; here the channel is defined over any place they may
come from, and the FIFO is one of them. Interpolation is off.
-/

namespace MelonDS.SPU
open Cyclic

/-- A channel without its FIFO. -/
structure Voice where
  num : Fin 16
  cnt : U32
  srcAddr : ℕ
  timerReload : U16
  loopPos : ℕ
  length : ℕ
  keyOn : Bool
  timer : ℕ
  pos : ℤ
  curSample : ℤ
  noiseVal : U16
  adpcmVal : ℤ
  adpcmIndex : ℤ
  adpcmValLoop : ℤ
  adpcmIndexLoop : ℤ
  adpcmCurByte : U8

namespace Voice

/-- After `Reset`. -/
def initial (num : Fin 16) : Voice where
  num := num
  cnt := 0
  srcAddr := 0
  timerReload := 0
  loopPos := 0
  length := 0
  keyOn := false
  timer := 0
  pos := 0
  curSample := 0
  noiseVal := 0
  adpcmVal := 0
  adpcmIndex := 0
  adpcmValLoop := 0
  adpcmIndexLoop := 0
  adpcmCurByte := 0

def format (v : Voice) : ℕ := ((v.cnt >>> 29) &&& 0x3).toNat
def duty (v : Voice) : ℕ := ((v.cnt >>> 24) &&& 0x7).toNat
def busy (v : Voice) : Bool := v.cnt.getLsbD 31
def hold (v : Voice) : Bool := v.cnt.getLsbD 15
/-- The two bits of the repeat mode; the first decides where both are tested. -/
def loops (v : Voice) : Bool := v.cnt.getLsbD 27
def oneShot (v : Voice) : Bool := v.cnt.getLsbD 28
def total (v : Voice) : ℕ := v.loopPos + v.length

def setCnt (val : U32) (v : Voice) : Voice :=
  let old := v
  let v := { v with cnt := val &&& 0xFF7F837F }
  if val.getLsbD 31 && !old.busy then { v with keyOn := true }
  else if !v.busy && (old.busy || (old.hold && !v.hold)) then
    { v with keyOn := false, curSample := 0 }
  else v

def setSrcAddr (val : U32) (v : Voice) : Voice := { v with srcAddr := (val &&& 0x07FFFFFC).toNat }

def setTimerReload (val : U32) (v : Voice) : Voice :=
  { v with timerReload := (val &&& 0xFFFF).setWidth 16 }

def setLoopPos (val : U32) (v : Voice) : Voice := { v with loopPos := ((val &&& 0xFFFF) <<< 2).toNat }
def setLength (val : U32) (v : Voice) : Voice := { v with length := ((val &&& 0x001FFFFF) <<< 2).toNat }

def ended (v : Voice) : Voice := { v with cnt := v.cnt &&& ~~~bit 32 31 }

end Voice

/-- Where a channel gets its bytes from. -/
structure Feed (φ : Type) where
  start : Voice → φ → φ
  read : Voice → ℕ → φ → List U8 × φ

structure Channel (φ : Type) where
  voice : Voice
  feed : φ

section
variable {φ : Type} (src : Feed φ)

def Voice.started (v : Voice) : Voice :=
  { v with
    timer := v.timerReload.toNat
    pos := if v.format = 3 then -1 else -3
    noiseVal := 0x7FFF
    curSample := if v.hold then v.curSample else 0 }

def start (c : Channel φ) : Channel φ := ⟨c.voice.started, src.start c.voice.started c.feed⟩

/-! ## Samples -/

/-- Behind the end of a sample that is not repeated. -/
def Voice.silenced (v : Voice) : Voice :=
  { v.ended with curSample := if v.hold then v.curSample else 0 }

/-- The sample is put out, and it may be the last one. -/
def Voice.putPCM (size : ℕ) (sample : ℤ) (v : Voice) : Voice :=
  let v := { v with curSample := sample }
  if !v.loops && v.oneShot && size * (v.pos.toNat + 1) ≥ v.total then v.ended else v

def takePCM (size : ℕ) (decode : List U8 → ℤ) (c : Channel φ) : Channel φ :=
  let (bytes, feed) := src.read c.voice size c.feed
  ⟨c.voice.putPCM size (decode bytes), feed⟩

/-- `NextSample_PCM8` and `NextSample_PCM16`: samples of `size` bytes. -/
def nextSamplePCM (size : ℕ) (decode : List U8 → ℤ) (c : Channel φ) : Channel φ :=
  let v := { c.voice with pos := c.voice.pos + 1 }
  if v.pos < 0 then { c with voice := { v with curSample := 0 } }
  else if size * v.pos.toNat ≥ v.total then
    if v.loops then takePCM src size decode { c with voice := { v with pos := ((v.loopPos / size : ℕ) : ℤ) } }
    else if v.oneShot then { c with voice := v.silenced }
    else takePCM src size decode { c with voice := v }
  else takePCM src size decode { c with voice := v }

def signed8 (bytes : List U8) : ℤ := (BitVec.ofNat 8 (ofBytes bytes)).toInt * 256
def signed16 (bytes : List U8) : ℤ := (BitVec.ofNat 16 (ofBytes bytes)).toInt

def nextSamplePCM8 (c : Channel φ) : Channel φ := nextSamplePCM src 1 signed8 c
def nextSamplePCM16 (c : Channel φ) : Channel φ := nextSamplePCM src 2 signed16 c

def adpcmIndexTable : Fin 8 → ℤ := ![-1, -1, -1, -1, 2, 4, 6, 8]

def adpcmTable : List U16 :=
  [0x0007, 0x0008, 0x0009, 0x000A, 0x000B, 0x000C, 0x000D, 0x000E,
    0x0010, 0x0011, 0x0013, 0x0015, 0x0017, 0x0019, 0x001C, 0x001F,
    0x0022, 0x0025, 0x0029, 0x002D, 0x0032, 0x0037, 0x003C, 0x0042,
    0x0049, 0x0050, 0x0058, 0x0061, 0x006B, 0x0076, 0x0082, 0x008F,
    0x009D, 0x00AD, 0x00BE, 0x00D1, 0x00E6, 0x00FD, 0x0117, 0x0133,
    0x0151, 0x0173, 0x0198, 0x01C1, 0x01EE, 0x0220, 0x0256, 0x0292,
    0x02D4, 0x031C, 0x036C, 0x03C3, 0x0424, 0x048E, 0x0502, 0x0583,
    0x0610, 0x06AB, 0x0756, 0x0812, 0x08E0, 0x09C3, 0x0ABD, 0x0BD0,
    0x0CFF, 0x0E4C, 0x0FBA, 0x114C, 0x1307, 0x14EE, 0x1706, 0x1954,
    0x1BDC, 0x1EA5, 0x21B6, 0x2515, 0x28CA, 0x2CDF, 0x315B, 0x364B,
    0x3BB9, 0x41B2, 0x4844, 0x4F7E, 0x5771, 0x602F, 0x69CE, 0x7462,
    0x7FFF]

/-- The first word of a sample. -/
def Voice.setupADPCM (header : List U8) (v : Voice) : Voice :=
  let val := (BitVec.ofNat 16 (ofBytes (header.take 2))).toInt
  let index := min ((ofBytes (header.drop 2)) % 0x80 : ℕ) 88
  { v with
    adpcmVal := val
    adpcmIndex := index
    adpcmValLoop := val
    adpcmIndexLoop := index }

/-- The low four bits of the current byte are added up. -/
def Voice.stepADPCM (v : Voice) : Voice :=
  let val := adpcmTable.getD v.adpcmIndex.toNat 0
  let diff := val >>> 3
  let diff := if v.adpcmCurByte.getLsbD 0 then diff + val >>> 2 else diff
  let diff := if v.adpcmCurByte.getLsbD 1 then diff + val >>> 1 else diff
  let diff := if v.adpcmCurByte.getLsbD 2 then diff + val else diff
  let v :=
    { v with
      adpcmVal :=
        if v.adpcmCurByte.getLsbD 3 then max (v.adpcmVal - diff.toNat) (-0x7FFF)
        else min (v.adpcmVal + diff.toNat) 0x7FFF
      adpcmIndex :=
        max 0 (min 88 (v.adpcmIndex + adpcmIndexTable (Fin.ofNat 8 (v.adpcmCurByte &&& 0x7).toNat))) }
  if v.pos = ((v.loopPos * 2 : ℕ) : ℤ) then
    { v with adpcmValLoop := v.adpcmVal, adpcmIndexLoop := v.adpcmIndex }
  else v

def Voice.putADPCM (v : Voice) : Voice :=
  let v := { v with curSample := v.adpcmVal }
  if !v.loops && v.oneShot && (v.pos.toNat + 1) / 2 ≥ v.total then v.ended else v

def takeByte (c : Channel φ) : Channel φ :=
  let (bytes, feed) := src.read c.voice 1 c.feed
  ⟨{ c.voice with adpcmCurByte := BitVec.ofNat 8 (ofBytes bytes) }, feed⟩

def nextSampleADPCM (c : Channel φ) : Channel φ :=
  let v : Voice := { c.voice with pos := c.voice.pos + 1 }
  if v.pos < 8 then
    let v := { v with curSample := 0 }
    if v.pos = 0 then
      let (header, feed) := src.read v 4 c.feed
      ⟨v.setupADPCM header, feed⟩
    else { c with voice := v }
  else if v.pos.toNat / 2 ≥ v.total then
    if v.loops then
      let v :=
        { v with
          pos := ((v.loopPos * 2 : ℕ) : ℤ)
          adpcmVal := v.adpcmValLoop
          adpcmIndex := v.adpcmIndexLoop }
      let c := takeByte src { c with voice := v }
      { c with voice := c.voice.putADPCM }
    else if v.oneShot then { c with voice := v.silenced }
    else { c with voice := v.putADPCM }
  else if v.pos % 2 = 0 then
    let c := takeByte src { c with voice := v }
    { c with voice := c.voice.stepADPCM.putADPCM }
  else
    let v := { v with adpcmCurByte := v.adpcmCurByte >>> 4 }
    { c with voice := v.stepADPCM.putADPCM }

/-- `PSGTable` -/
def psgTable (duty i : ℕ) : ℤ := if duty < 7 ∧ 7 ≤ duty + i then 0x7FFF else -0x7FFF

def Voice.nextSamplePSG (v : Voice) : Voice :=
  let v := { v with pos := v.pos + 1 }
  { v with curSample := psgTable v.duty (v.pos % 8).toNat }

def Voice.nextSampleNoise (v : Voice) : Voice :=
  if v.noiseVal.getLsbD 0 then
    { v with noiseVal := v.noiseVal >>> 1 ^^^ 0x6000, curSample := -0x7FFF }
  else { v with noiseVal := v.noiseVal >>> 1, curSample := 0x7FFF }

/-! ## `Run` -/

def nextSample (c : Channel φ) : Channel φ :=
  match c.voice.format with
  | 0 => nextSamplePCM8 src c
  | 1 => nextSamplePCM16 src c
  | 2 => nextSampleADPCM src c
  | _ =>
    if c.voice.num.val ≥ 14 then { c with voice := c.voice.nextSampleNoise }
    else { c with voice := c.voice.nextSamplePSG }

def Voice.overflows (v : Voice) : Bool := v.timer ≥ 0x10000

def Voice.reloaded (v : Voice) : Voice :=
  { v with timer := v.timerReload.toNat + (v.timer - 0x10000) }

/-- The output while the channel is not busy. -/
def Voice.held (v : Voice) : Voice := { v with curSample := if v.hold then v.curSample else 0 }

/-- An overflow of the timer. -/
def tick (c : Channel φ) : Channel φ :=
  let v := c.voice.reloaded
  if v.busy then nextSample src { c with voice := v } else { c with voice := v.held }

/-- The timer overflows at most as often as its count says. -/
def timerLoop : ℕ → Channel φ → Channel φ
  | 0, c => c
  | rounds + 1, c => if c.voice.overflows then timerLoop rounds (tick src c) else c

def Voice.advanced (cycles : ℕ) (v : Voice) : Voice :=
  { v with timer := (v.timer + cycles) % 2 ^ 32 }

def startOnKeyOn (c : Channel φ) : Channel φ :=
  if c.voice.keyOn then { start src c with voice := { c.voice.started with keyOn := false } } else c

def doRun (cycles : ℕ) (c : Channel φ) : Channel φ :=
  if c.voice.format = 3 ∧ c.voice.num.val < 8 then c
  else if c.voice.busy = false ∧ c.voice.curSample = 0 then c
  else if c.voice.busy ∧ c.voice.format < 3 ∧ c.voice.total < 16 then c
  else
    let c := startOnKeyOn src c
    let v := c.voice.advanced cycles
    timerLoop src v.timer { c with voice := v }

end

/-! ## The FIFO -/

/-- Eight words, with the read position in bytes and the write position in words. -/
structure Fifo where
  data : Fin 32 → U8
  readPos : ℕ
  writePos : ℕ
  readOffset : ℕ
  level : ℕ

namespace Fifo

def empty : Fifo := ⟨fun _ => 0, 0, 0, 0, 0⟩

section
variable (mem : U32 → U32) (v : Voice)

/-- One word of a burst; `silent` where the burst would read the ARM7 BIOS. -/
def bufferWord (silent : Bool) (f : Fifo) : Fifo :=
  let word := if silent then 0 else mem (BitVec.ofNat 32 (v.srcAddr + f.readOffset))
  { f with
    data := writeAll f.data (4 * f.writePos) (toBytes 4 word.toNat)
    readOffset := (f.readOffset + 4) % 2 ^ 32
    writePos := (f.writePos + 1) % 8 }

def bufferWords (silent : Bool) : ℕ → Fifo → Fifo
  | 0, f => f
  | words + 1, f => bufferWords silent words (f.bufferWord mem v silent)

/-- The burst from where reading goes on. -/
def burst (f : Fifo) : Fifo :=
  let burstlen :=
    if (f.readOffset + 16) % 2 ^ 32 > v.total then (v.total + 2 ^ 32 - f.readOffset) % 2 ^ 32 else 16
  let silent := (v.srcAddr + f.readOffset) % 2 ^ 32 < 0x4000
  let f := f.bufferWords mem v silent ((burstlen + 3) / 4)
  { f with level := (f.level + burstlen) % 2 ^ 32 }

def bufferData (f : Fifo) : Fifo :=
  if f.readOffset ≥ v.total then
    if v.loops then burst mem v { f with readOffset := v.loopPos }
    else if v.oneShot then f
    else burst mem v f
  else burst mem v f

/-- The bytes from the read position on, and behind the end of the array what lies there. -/
def bytes (behind : ℕ → U8) (size : ℕ) (f : Fifo) : List U8 :=
  (List.range size).map fun i =>
    if h : f.readPos + i < 32 then f.data ⟨f.readPos + i, h⟩ else behind i

/-- `FIFO_ReadData<T>` for a `T` of `size` bytes. -/
def readData (behind : ℕ → U8) (size : ℕ) (f : Fifo) : List U8 × Fifo :=
  let bytes := f.bytes behind size
  let f :=
    { f with
      readPos := (f.readPos + size) % 32
      level := (f.level + 2 ^ 32 - size) % 2 ^ 32 }
  (bytes, if f.level ≤ 16 then f.bufferData mem v else f)

/-- The part of `Start` that concerns the FIFO. -/
def startFIFO (f : Fifo) : Fifo :=
  let f := { f with readPos := 0, writePos := 0, readOffset := 0, level := 0 }
  if v.format ≠ 3 then (f.bufferData mem v).bufferData mem v else f

end

def feed (mem : U32 → U32) (behind : ℕ → U8) : Feed Fifo where
  start v f := f.startFIFO mem v
  read v size f := f.readData mem v behind size

end Fifo

/-! ## Register writes -/

inductive ChannelEvent
  | run (cycles : ℕ)
  | setCnt (val : U32)
  | setSrcAddr (val : U32)
  | setTimerReload (val : U32)
  | setLoopPos (val : U32)
  | setLength (val : U32)

def ChannelEvent.apply {φ : Type} (src : Feed φ) (e : ChannelEvent) (c : Channel φ) : Channel φ :=
  match e with
  | run cycles => doRun src cycles c
  | setCnt val => { c with voice := c.voice.setCnt val }
  | setSrcAddr val => { c with voice := c.voice.setSrcAddr val }
  | setTimerReload val => { c with voice := c.voice.setTimerReload val }
  | setLoopPos val => { c with voice := c.voice.setLoopPos val }
  | setLength val => { c with voice := c.voice.setLength val }

end MelonDS.SPU

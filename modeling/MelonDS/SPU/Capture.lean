import MelonDS.Types
import MelonDS.Library.CyclicWindow
import MelonDS.Library.LittleEndian

/-!
# The sound capture units

A capture unit puts one sample each time its timer overflows into a FIFO of sixteen bytes and
moves the FIFO to memory in words. The log keeps what a run puts into the FIFO, what it stores
and where a pass over the destination ends.
-/

namespace MelonDS.SPU
open Cyclic

/-- What the log of a unit records. A change is one of the control, the destination or the
length. -/
inductive CaptureEvent
  | changed
  | start
  | put (pos : ℕ) (bytes : List U8) (level : U32)
  | store (dstAddr length addr val level : U32)
  | passed (dstAddr length : U32) (oneShot running : Bool)
  deriving DecidableEq

structure SPUCaptureUnit where
  num : Fin 2
  cnt : U8
  dstAddr : U32
  timerReload : U16
  length : U32
  timer : U32
  pos : ℕ
  fifo : Fin 16 → U8
  fifoReadPos : ℕ
  fifoWritePos : ℕ
  fifoWriteOffset : ℕ
  fifoLevel : U32
  log : List CaptureEvent

namespace SPUCaptureUnit

def note (e : CaptureEvent) (u : SPUCaptureUnit) : SPUCaptureUnit := { u with log := u.log ++ [e] }

/-- After `Reset`. -/
def initial (num : Fin 2) : SPUCaptureUnit where
  num := num
  cnt := 0
  dstAddr := 0
  timerReload := 0
  length := 0
  timer := 0
  pos := 0
  fifo := fun _ => 0
  fifoReadPos := 0
  fifoWritePos := 0
  fifoWriteOffset := 0
  fifoLevel := 0
  log := []

def running (u : SPUCaptureUnit) : Bool := u.cnt.getLsbD 7
def eightBit (u : SPUCaptureUnit) : Bool := u.cnt.getLsbD 3
def oneShot (u : SPUCaptureUnit) : Bool := u.cnt.getLsbD 2

/-! ## Registers -/

def noteChange (old u : SPUCaptureUnit) : SPUCaptureUnit :=
  if u.cnt = old.cnt ∧ u.dstAddr = old.dstAddr ∧ u.length = old.length then u else u.note .changed

def start (u : SPUCaptureUnit) : SPUCaptureUnit :=
  note .start
    { u with
      timer := u.timerReload.setWidth 32
      pos := 0
      fifoReadPos := 0
      fifoWritePos := 0
      fifoWriteOffset := 0
      fifoLevel := 0 }

/-- The bits of the control register that are kept. -/
def cntBits (val : U8) : U8 :=
  let val := val &&& 0x8F
  if !val.getLsbD 7 then val &&& ~~~0x01 else val

def setCnt (val : U8) (u : SPUCaptureUnit) : SPUCaptureUnit :=
  if val.getLsbD 7 && !u.running then { u.start with cnt := cntBits val }
  else noteChange u { u with cnt := cntBits val }

def setDstAddr (val : U32) (u : SPUCaptureUnit) : SPUCaptureUnit :=
  noteChange u { u with dstAddr := val &&& 0x07FFFFFC }

def setTimerReload (val : U16) (u : SPUCaptureUnit) : SPUCaptureUnit := { u with timerReload := val }

def setLength (val : U32) (u : SPUCaptureUnit) : SPUCaptureUnit :=
  noteChange u { u with length := if val <<< 2 = 0 then 4 else val <<< 2 }

/-! ## The FIFO -/

/-- The address of a register of a unit, from that of unit 0 and the distance between them. -/
def ownAddr (base step : U32) (u : SPUCaptureUnit) : U32 := base + step * BitVec.ofNat 32 u.num

/-- `NDS.ARM7Write32`, as far as the unit sees it: the store may reach its own registers. -/
def arm7Write32 (addr val : U32) (u : SPUCaptureUnit) : SPUCaptureUnit :=
  if addr = 0x04000508 then
    u.setCnt (if u.num = 0 then val.setWidth 8 else (val >>> 8).setWidth 8)
  else if addr = u.ownAddr 0x04000510 8 then u.setDstAddr val
  else if addr = u.ownAddr 0x04000514 8 then u.setLength (val &&& 0xFFFF)
  else if addr = u.ownAddr 0x04000418 0x20 then u.setTimerReload (val.setWidth 16)
  else u

/-- Four bytes as a word. -/
def word (bytes : List U8) : U32 := BitVec.ofNat 32 (ofBytes bytes)

/-- `FIFO[FIFOReadPos]` -/
def fifoWord (u : SPUCaptureUnit) : U32 := word (window u.fifo (4 * u.fifoReadPos) 4)

/-- One round of the loop of `FIFO_FlushData`, up to its test. -/
def flushWord (u : SPUCaptureUnit) : SPUCaptureUnit :=
  let addr := u.dstAddr + BitVec.ofNat 32 u.fifoWriteOffset
  let u := (u.note (.store u.dstAddr u.length addr u.fifoWord u.fifoLevel)).arm7Write32 addr
    u.fifoWord
  { u with
    fifoReadPos := (u.fifoReadPos + 1) % 4
    fifoLevel := u.fifoLevel - 4
    fifoWriteOffset := u.fifoWriteOffset + 4 }

def flushLoop : ℕ → SPUCaptureUnit → SPUCaptureUnit
  | 0, u => u
  | rounds + 1, u =>
    let u := u.flushWord
    if u.fifoWriteOffset ≥ u.length.toNat then { u with fifoWriteOffset := 0 }
    else flushLoop rounds u

def fifoFlushData (u : SPUCaptureUnit) : SPUCaptureUnit := u.flushLoop 4

/-- Bytes stored into the array of the FIFO; a byte behind its end is not part of it. -/
def putBytes (pos : ℕ) : List U8 → (Fin 16 → U8) → Fin 16 → U8
  | [], fifo => fifo
  | b :: bytes, fifo =>
    putBytes (pos + 1) bytes (if h : pos < 16 then Function.update fifo ⟨pos, h⟩ b else fifo)

/-- The FIFO with the bytes in it. -/
def filled (bytes : List U8) (u : SPUCaptureUnit) : SPUCaptureUnit :=
  note (.put u.fifoWritePos bytes (u.fifoLevel + BitVec.ofNat 32 bytes.length))
    { u with
      fifo := putBytes u.fifoWritePos bytes u.fifo
      fifoWritePos := (u.fifoWritePos + bytes.length) % 16
      fifoLevel := u.fifoLevel + BitVec.ofNat 32 bytes.length }

def fifoWriteData (bytes : List U8) (u : SPUCaptureUnit) : SPUCaptureUnit :=
  let u := u.filled bytes
  if u.fifoLevel ≥ 16 then u.fifoFlushData else u

/-! ## Run -/

/-- `(s8)(sample >> 8)` or `(s16)sample`, as bytes. -/
def sampleBytes (eight : Bool) (sample : S32) : List U8 :=
  if eight then [(sample >>> 8).setWidth 8] else [sample.setWidth 8, (sample >>> 8).setWidth 8]

/-- The end of a pass; true for the `return` of a one-shot capture. -/
def endPass (u : SPUCaptureUnit) : Bool × SPUCaptureUnit :=
  let u := if u.fifoLevel ≥ 4 then u.fifoFlushData else u
  if u.oneShot then
    let u := { u with cnt := u.cnt &&& 0x7F }
    (true, u.note (.passed u.dstAddr u.length u.oneShot u.running))
  else
    let u := { u with pos := 0 }
    (false, u.note (.passed u.dstAddr u.length u.oneShot u.running))

def captureSample (eight : Bool) (sample : S32) (u : SPUCaptureUnit) : Bool × SPUCaptureUnit :=
  let bytes := sampleBytes eight sample
  let u := u.fifoWriteData bytes
  let u := { u with pos := u.pos + bytes.length }
  if u.pos ≥ u.length.toNat then u.endPass else (false, u)

/-- `Timer = TimerReload + (Timer - 0x10000)` -/
def reloadTimer (u : SPUCaptureUnit) : SPUCaptureUnit :=
  { u with timer := u.timerReload.setWidth 32 + (u.timer - 0x10000) }

/-- `while (Timer >> 16)` -/
def runLoop (eight : Bool) (sample : S32) : ℕ → SPUCaptureUnit → SPUCaptureUnit
  | 0, u => u
  | rounds + 1, u =>
    if u.timer >>> 16 = 0 then u
    else
      let (stopped, u) := captureSample eight sample u.reloadTimer
      if stopped then u else runLoop eight sample rounds u

def run (cycles : U32) (sample : S32) (u : SPUCaptureUnit) : SPUCaptureUnit :=
  let u := { u with timer := u.timer + cycles }
  runLoop u.eightBit sample (u.timer.toNat - 0xFFFF) u

/-! ## The rounds of Run -/

/-- The timer is the old one, or has been reloaded. -/
def Timed (t : U32) (u : SPUCaptureUnit) : Prop := u.timer = t ∨ u.timer.toNat ≤ 0xFFFF

variable {t : U32} {u : SPUCaptureUnit}

theorem timed_noteChange (old : SPUCaptureUnit) (h : u.Timed t) : (noteChange old u).Timed t := by
  rw [noteChange]
  split_ifs <;> exact h

theorem timed_setCnt (h : u.Timed t) (val : U8) : (u.setCnt val).Timed t := by
  rw [setCnt]
  split_ifs
  · refine .inr ?_
    have hreload := u.timerReload.isLt
    change (u.timerReload.setWidth 32).toNat ≤ 0xFFFF
    rw [BitVec.toNat_setWidth]
    omega
  · refine timed_noteChange u ?_
    exact h

theorem timed_arm7Write32 (h : u.Timed t) (addr val : U32) : (u.arm7Write32 addr val).Timed t := by
  rw [arm7Write32]
  split_ifs
  · exact timed_setCnt h _
  · exact timed_setCnt h _
  · refine timed_noteChange u ?_
    exact h
  · refine timed_noteChange u ?_
    exact h
  · exact h
  · exact h

theorem timed_flushWord (h : u.Timed t) : u.flushWord.Timed t := by
  have hnoted : Timed t (u.note (.store u.dstAddr u.length
      (u.dstAddr + BitVec.ofNat 32 u.fifoWriteOffset) u.fifoWord u.fifoLevel)) := h
  exact timed_arm7Write32 hnoted _ _

theorem timed_flushLoop (h : u.Timed t) (rounds : ℕ) : (u.flushLoop rounds).Timed t := by
  induction rounds generalizing u with
  | zero => exact h
  | succ rounds ih =>
    have hword := timed_flushWord h
    rw [flushLoop]
    generalize u.flushWord = v at hword ⊢
    split_ifs
    · exact hword
    · exact ih hword

theorem timed_fifoWriteData (h : u.Timed t) (bytes : List U8) :
    (u.fifoWriteData bytes).Timed t := by
  have hfilled : (u.filled bytes).Timed t := h
  rw [fifoWriteData]
  generalize u.filled bytes = v at hfilled ⊢
  split_ifs
  · exact timed_flushLoop hfilled 4
  · exact hfilled

theorem timed_endPass (h : u.Timed t) : u.endPass.2.Timed t := by
  have hflushed : (if u.fifoLevel ≥ 4 then u.fifoFlushData else u).Timed t := by
    split_ifs
    · exact timed_flushLoop h 4
    · exact h
  rw [endPass]
  generalize (if u.fifoLevel ≥ 4 then u.fifoFlushData else u) = v at hflushed ⊢
  dsimp only
  split_ifs <;> exact hflushed

theorem timed_captureSample (h : u.Timed t) (eight : Bool) (sample : S32) :
    (captureSample eight sample u).2.Timed t := by
  have hwritten := timed_fifoWriteData h (sampleBytes eight sample)
  rw [captureSample]
  generalize u.fifoWriteData (sampleBytes eight sample) = v at hwritten ⊢
  have hmoved : Timed t { v with pos := v.pos + (sampleBytes eight sample).length } := hwritten
  dsimp only
  split_ifs
  · exact timed_endPass hmoved
  · exact hmoved

theorem shift_eq_zero {x : U32} : x >>> 16 = 0 ↔ x.toNat ≤ 0xFFFF := by
  rw [← BitVec.toNat_inj, BitVec.toNat_ushiftRight, Nat.shiftRight_eq_div_pow]
  change x.toNat / 2 ^ 16 = 0 ↔ _
  omega

theorem timer_reloadTimer (h : 0xFFFF < u.timer.toNat) :
    u.reloadTimer.timer.toNat = u.timerReload.toNat + (u.timer.toNat - 0x10000) := by
  have hreload := u.timerReload.isLt
  have htimer := u.timer.isLt
  have hle : (0x10000 : U32) ≤ u.timer := BitVec.le_def.mpr h
  have hsub : (u.timer - 0x10000).toNat = u.timer.toNat - 0x10000 := BitVec.toNat_sub_of_le hle
  rw [reloadTimer, BitVec.toNat_add, hsub, BitVec.toNat_setWidth]
  omega

theorem rounds_reloaded {reload timer rounds n : ℕ} (hreload : reload ≤ n) (hhigh : n < timer)
    (h : timer - n ≤ rounds + 1) : reload + (timer - (n + 1)) - n ≤ rounds := by
  omega

/-- Each round takes at least one off the timer, so further rounds change nothing. -/
theorem runLoop_succ (eight : Bool) (sample : S32) {rounds : ℕ}
    (h : u.timer.toNat - 0xFFFF ≤ rounds) :
    runLoop eight sample (rounds + 1) u = runLoop eight sample rounds u := by
  induction rounds generalizing u with
  | zero =>
    have hlow : u.timer >>> 16 = 0 := shift_eq_zero.mpr (by omega)
    exact if_pos hlow
  | succ rounds ih =>
    rw [runLoop, runLoop]
    split_ifs with hlow
    · rfl
    · have hhigh : 0xFFFF < u.timer.toNat := by
        rw [shift_eq_zero] at hlow
        omega
      have htimer := timer_reloadTimer hhigh
      have hreload := u.timerReload.isLt
      have htimed := timed_captureSample (u := u.reloadTimer) (.inl rfl) eight sample
      generalize captureSample eight sample u.reloadTimer = r at htimed ⊢
      obtain ⟨stopped, v⟩ := r
      have hv : v.timer.toNat - 0xFFFF ≤ rounds := by
        rcases htimed with hsame | hlow'
        · have hsame' : v.timer.toNat = u.reloadTimer.timer.toNat := congrArg BitVec.toNat hsame
          rw [hsame', htimer]
          exact rounds_reloaded (Nat.le_of_lt_succ hreload) hhigh h
        · have hlow'' : v.timer.toNat ≤ 0xFFFF := hlow'
          rw [Nat.sub_eq_zero_of_le hlow'']
          exact Nat.zero_le rounds
      cases stopped with
      | true => rfl
      | false => exact ih hv

end SPUCaptureUnit

/-! ## Runs -/

/-- `Mix` calls `Run` while the unit is running; the length register has sixteen bits. -/
inductive CaptureOp
  | setCnt (val : U8)
  | setDstAddr (val : U32)
  | setTimerReload (val : U16)
  | setLength (val : U16)
  | run (cycles : U32) (sample : S32)

def CaptureOp.apply (u : SPUCaptureUnit) : CaptureOp → SPUCaptureUnit
  | .setCnt val => u.setCnt val
  | .setDstAddr val => u.setDstAddr val
  | .setTimerReload val => u.setTimerReload val
  | .setLength val => u.setLength (val.setWidth 32)
  | .run cycles sample => if u.running then u.run cycles sample else u

/-! ## Passes -/

/-- A pass over the destination: the bytes captured and the words stored. -/
structure Pass where
  bytes : List U8
  stores : List (U32 × U32)
  dstAddr : U32
  length : U32
  oneShot : Bool
  running : Bool

/-- `current` is what has been captured and stored since a pass began, unless a register has
changed; `finished` are the passes that came to their end so. -/
structure PassLog where
  current : Option (List U8 × List (U32 × U32))
  finished : List Pass

def PassLog.note (p : PassLog) : CaptureEvent → PassLog
  | .changed => { p with current := none }
  | .start => { p with current := some ([], []) }
  | .put _ bytes _ => { p with current := p.current.map fun c => (c.1 ++ bytes, c.2) }
  | .store _ _ addr val _ => { p with current := p.current.map fun c => (c.1, c.2 ++ [(addr, val)]) }
  | .passed dstAddr length oneShot running =>
    { current := some ([], [])
      finished := p.finished ++
        p.current.toList.map fun c => ⟨c.1, c.2, dstAddr, length, oneShot, running⟩ }

def passLog (log : List CaptureEvent) : PassLog := log.foldl PassLog.note ⟨none, []⟩

/-- The bytes as words at consecutive addresses. -/
def wordsAt (dstAddr : U32) (bytes : List U8) : List (U32 × U32) :=
  (List.range (bytes.length / 4)).map fun i =>
    (dstAddr + BitVec.ofNat 32 (4 * i), SPUCaptureUnit.word (field bytes (4 * i) 4))

/-- The destination holds the samples of the pass, and a one-shot capture has stopped. -/
def Pass.Right (p : Pass) : Prop :=
  p.bytes.length = p.length.toNat ∧ p.stores = wordsAt p.dstAddr p.bytes ∧
    (p.oneShot = true → p.running = false)

/-- The FIFO is written inside its array and holds at most sixteen bytes, a word taken from it
is there, and a store is inside the destination. -/
def CaptureEvent.Safe : CaptureEvent → Prop
  | .put pos bytes level => pos + bytes.length ≤ 16 ∧ level.toNat ≤ 16
  | .store dstAddr length addr _ level =>
    dstAddr.toNat ≤ addr.toNat ∧ addr.toNat + 4 ≤ dstAddr.toNat + length.toNat ∧
      4 ≤ level.toNat ∧ level.toNat ≤ 16
  | _ => True

end MelonDS.SPU

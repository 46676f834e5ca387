import MelonDS.Library.RankedLoop
import MelonDS.Types

/-!
# The cheat engine

A cheat is a list of words, two to an instruction; an E instruction is followed by
literal data. Conditions are pushed on a stack of bits, and one loop is remembered
at a time. Guest memory answers and changes as it likes.
-/

namespace MelonDS.AREngine

/-- Guest memory as the engine reaches it, and the cancellation it polls. -/
structure Bus (σ : Type) where
  read8 : U32 → σ → U8 × σ
  read16 : U32 → σ → U16 × σ
  read32 : U32 → σ → U32 × σ
  write8 : U32 → U8 → σ → σ
  write16 : U32 → U16 → σ → σ
  write32 : U32 → U32 → σ → σ
  stopRequested : σ → Bool × σ

inductive Result
  | success
  | invalidCode
  | unsupportedCode
  | interrupted
deriving DecidableEq

/-- A cheat stops with a result, or by reading a word its list does not have. -/
inductive Exit
  | done (result : Result)
  | overrun (position : ℕ)
deriving DecidableEq

variable {σ : Type} (bus : Bus σ) (words : List U32)

def fetch (position : ℕ) (s : σ) : Except (Exit × σ) U32 :=
  if h : position < words.length then .ok (words.get ⟨position, h⟩)
  else .error (.overrun position, s)

def isData (instruction : U32) : Bool := instruction >>> 28 = 0xE

/-- Lines of literal data: bytes are padded to complete eight-byte lines. -/
def dataLines (count : U32) : ℕ := (count.toNat + 7) / 8

def validateFrom (position : ℕ) (s : σ) : Except (Exit × σ) σ :=
  if position < words.length then do
    let (stop, s) := bus.stopRequested s
    if stop then throw (.done .interrupted, s)
    let instruction ← fetch words position s
    let count ← fetch words (position + 1) s
    if isData instruction then
      if dataLines count > (words.length - (position + 2)) / 2 then throw (.done .invalidCode, s)
      validateFrom (position + 2 + dataLines count * 2) s
    else validateFrom (position + 2) s
  else .ok s
termination_by words.length - position

def validateInstructions (s : σ) : Except (Exit × σ) σ :=
  if words.length % 2 = 1 then throw (.done .invalidCode, s)
  else validateFrom bus words 0 s

structure Machine (σ : Type) where
  code : ℕ
  offset : U32
  datareg : U32
  cond : U32
  condstack : U32
  loopstart : ℕ
  loopcount : U32
  loopcond : U32
  loopcondstack : U32
  c5count : U32
  started : Bool
  bus : σ

def start (s : σ) : Machine σ where
  code := 0
  offset := 0
  datareg := 0
  cond := 1
  condstack := 0
  loopstart := 0
  loopcount := 0
  loopcond := 1
  loopcondstack := 0
  c5count := 0
  started := false
  bus := s

/-- The address of a condition: zero stands for the offset. -/
def conditionAddress (m : Machine σ) (a : U32) : U32 :=
  let addr := a &&& 0x0FFFFFFF
  if addr = 0 then m.offset else addr

def pushCondition (m : Machine σ) (holds : Bool) : Machine σ :=
  { m with condstack := m.condstack <<< 1 ||| m.cond, cond := if holds then 1 else 0 }

def if32 (m : Machine σ) (a : U32) (test : U32 → Bool) : Machine σ :=
  let (chk, s) := bus.read32 (conditionAddress m a) m.bus
  { pushCondition m (test chk) with bus := s }

/-- The upper half of `b` masks out bits of what is read. -/
def if16 (m : Machine σ) (a b : U32) (test : U16 → U16 → Bool) : Machine σ :=
  let (val, s) := bus.read16 (conditionAddress m a) m.bus
  let chk := ~~~((b >>> 16).setWidth 16) &&& val
  { pushCondition m (test (b.setWidth 16) chk) with bus := s }

/-- Bytes of the last, incomplete line. -/
def writeBytes : ℕ → U32 → U32 → σ → σ
  | 0, _, _, s => s
  | bytesleft + 1, leftover, dstaddr, s =>
      writeBytes bytesleft (leftover >>> 8) (dstaddr + 1)
        (bus.write8 dstaddr (leftover.setWidth 8) s)

/-- An E instruction's literal data, from position `code`: where it ends, and the memory. -/
def copyData : ℕ → ℕ → U32 → σ → Except (Exit × σ) (ℕ × σ)
  | bytesleft + 8, code, dstaddr, s => do
      let (stop, s) := bus.stopRequested s
      if stop then throw (.done .interrupted, s)
      let first ← fetch words code s
      let s := bus.write32 dstaddr first s
      let second ← fetch words (code + 1) s
      let s := bus.write32 (dstaddr + 4) second s
      copyData bytesleft (code + 2) (dstaddr + 8) s
  | 0, code, _, s => .ok (code, s)
  | bytesleft, code, dstaddr, s => do
      let leftover ← fetch words code s
      if bytesleft ≥ 4 then
        let s := bus.write32 dstaddr leftover s
        let leftover ← fetch words (code + 1) s
        .ok (code + 2, writeBytes bus (bytesleft - 4) leftover (dstaddr + 4) s)
      else .ok (code + 2, writeBytes bus bytesleft leftover dstaddr s)

/-- An F instruction: bytes copied within guest memory. -/
def copyMemory : ℕ → U32 → U32 → σ → Except (Exit × σ) σ
  | bytesleft + 4, srcaddr, dstaddr, s => do
      let (stop, s) := bus.stopRequested s
      if stop then throw (.done .interrupted, s)
      let (val, s) := bus.read32 srcaddr s
      copyMemory bytesleft (srcaddr + 4) (dstaddr + 4) (bus.write32 dstaddr val s)
  | 0, _, _, s => .ok s
  | bytesleft + 1, srcaddr, dstaddr, s =>
      let (val, s) := bus.read8 srcaddr s
      copyMemory bytesleft (srcaddr + 1) (dstaddr + 1) (bus.write8 dstaddr val s)

/-- The D4 operations on the data register. -/
def dataOp (datareg : U32) (kind : ℕ) (b : U32) : Option U32 :=
  let shift := (b &&& 0xFF).toNat
  match kind with
  | 0x00 => some (datareg + b)
  | 0x01 => some (datareg ||| b)
  | 0x02 => some (datareg &&& b)
  | 0x03 => some (datareg ^^^ b)
  | 0x04 => some (if shift > 31 then 0 else datareg <<< shift)
  | 0x05 => some (if shift > 31 then 0 else datareg >>> shift)
  | 0x06 => some (datareg.rotateRight (b &&& 0x1F).toNat)
  | 0x07 => some (if shift > 31 then datareg.sshiftRight 31 else datareg.sshiftRight shift)
  | 0x08 => some (datareg * b)
  | _ => none

/-- The C instructions: loops, counters, and storing the offset. -/
def executeC (m : Machine σ) (op : ℕ) (b : U32) : Except (Exit × σ) (Machine σ) :=
  match op with
  | 0xC0 =>
      .ok { m with
        loopstart := m.code, loopcount := b, loopcond := m.cond, loopcondstack := m.condstack }
  | 0xC5 =>
      let m := { m with c5count := m.c5count + 1 }
      if m.cond = 0 then .ok m
      else .ok (pushCondition m ((m.c5count &&& (b &&& 0xFFFF)) = b >>> 16))
  | 0xC6 => .ok { m with bus := bus.write32 b m.offset m.bus }
  | _ => .error (.done .unsupportedCode, m.bus)

/-- The D instructions: the ends of conditions and loops, and the data register. -/
def executeD (m : Machine σ) (op : ℕ) (a b : U32) : Except (Exit × σ) (Machine σ) :=
  match op with
  | 0xD0 =>
      .ok { m with
        cond := if m.condstack ≠ 0 then m.condstack &&& 1 else 1, condstack := m.condstack >>> 1 }
  | 0xD1 | 0xD2 =>
      let m := { m with cond := m.loopcond, condstack := m.loopcondstack }
      if m.loopcount > 0 then .ok { m with loopcount := m.loopcount - 1, code := m.loopstart }
      else if op = 0xD2 then
        .ok { m with
          offset := 0, datareg := 0, condstack := 0, cond := 1
          loopstart := m.code, loopcondstack := 0, loopcond := 1 }
      else .ok m
  | 0xD3 => .ok { m with offset := b }
  | 0xD4 =>
      match dataOp m.datareg (a &&& 0xFF).toNat b with
      | some datareg => .ok { m with datareg := datareg }
      | none => .error (.done .unsupportedCode, m.bus)
  | 0xD5 => .ok { m with datareg := b }
  | 0xD6 =>
      .ok { m with
        bus := bus.write32 (b + m.offset) m.datareg m.bus, offset := m.offset + 4 }
  | 0xD7 =>
      .ok { m with
        bus := bus.write16 (b + m.offset) (m.datareg.setWidth 16) m.bus, offset := m.offset + 2 }
  | 0xD8 =>
      .ok { m with
        bus := bus.write8 (b + m.offset) (m.datareg.setWidth 8) m.bus, offset := m.offset + 1 }
  | 0xD9 =>
      let (val, s) := bus.read32 (b + m.offset) m.bus
      .ok { m with datareg := val, bus := s }
  | 0xDA =>
      let (val, s) := bus.read16 (b + m.offset) m.bus
      .ok { m with datareg := val.setWidth 32, bus := s }
  | 0xDB =>
      let (val, s) := bus.read8 (b + m.offset) m.bus
      .ok { m with datareg := val.setWidth 32, bus := s }
  | 0xDC => .ok { m with offset := m.offset + b }
  | _ => .error (.done .unsupportedCode, m.bus)

/-- The instruction `a b`, with the code pointer already past both words. -/
def execute (m : Machine σ) (a b : U32) : Except (Exit × σ) (Machine σ) :=
  let op := (a >>> 24).toNat
  let addr := a &&& 0x0FFFFFFF
  match op / 0x10 with
  | 0x0 => .ok { m with bus := bus.write32 (addr + m.offset) b m.bus }
  | 0x1 => .ok { m with bus := bus.write16 (addr + m.offset) (b.setWidth 16) m.bus }
  | 0x2 => .ok { m with bus := bus.write8 (addr + m.offset) (b.setWidth 8) m.bus }
  | 0x3 => .ok (if32 bus m a fun chk => b > chk)
  | 0x4 => .ok (if32 bus m a fun chk => b < chk)
  | 0x5 => .ok (if32 bus m a fun chk => b = chk)
  | 0x6 => .ok (if32 bus m a fun chk => b ≠ chk)
  | 0x7 => .ok (if16 bus m a b fun val chk => val > chk)
  | 0x8 => .ok (if16 bus m a b fun val chk => val < chk)
  | 0x9 => .ok (if16 bus m a b fun val chk => val = chk)
  | 0xA => .ok (if16 bus m a b fun val chk => val ≠ chk)
  | 0xB =>
      let (val, s) := bus.read32 (addr + m.offset) m.bus
      .ok { m with offset := val, bus := s }
  | 0xC => executeC bus m op b
  | 0xD => executeD bus m op a b
  | 0xE => do
      let (code, s) ← copyData bus words b.toNat m.code (addr + m.offset) m.bus
      .ok { m with code := code, bus := s }
  | _ => do
      let s ← copyMemory bus b.toNat m.offset addr m.bus
      .ok { m with bus := s }

/-- While a condition fails only the instructions that move conditions are executed. -/
def executesAlways (op : ℕ) : Bool := ¬((op < 0xD0 ∧ op ≠ 0xC5) ∨ op > 0xD2)

def turn (m : Machine σ) : Except (Exit × σ) (Machine σ) :=
  if m.code = words.length then .error (.done .success, m.bus)
  else do
    let (stop, s) := bus.stopRequested m.bus
    if stop then throw (.done (if m.started then .interrupted else .success), s)
    let a ← fetch words m.code s
    let b ← fetch words (m.code + 1) s
    let m := { m with started := true, code := m.code + 2, bus := s }
    let op := (a >>> 24).toNat
    if ¬executesAlways op ∧ m.cond = 0 then
      if op &&& 0xF0 = 0xE0 then .ok { m with code := m.code + dataLines b * 2 } else .ok m
    else execute bus words m a b

/-- `RunCheat`, for as many turns of its loop as `fuel` allows. -/
def runCheat (fuel : ℕ) (s : σ) : Except (Exit × σ) (Machine σ) := do
  let (stop, s) := bus.stopRequested s
  if stop then throw (.done .success, s)
  let s ←
    match validateInstructions bus words s with
    | .ok s => pure s
    | .error (.done .interrupted, s) => throw (.done .success, s)
    | .error e => throw e
  if words.isEmpty then throw (.done .success, s)
  RankedLoop.turns (turn bus words) fuel (start s)

end MelonDS.AREngine

import MelonDS.AREngine.CodePointer
import MelonDS.Library.LittleEndian

/-!
# Structured cheats

A cheat written as segments of instructions and conditions, each with at most one loop. Its
meaning knows no code pointer and no stack: a condition that fails skips to the next end of a
condition or of the segment.
-/

namespace MelonDS.AREngine

variable {σ : Type}

/-! ## Cheats and their meaning -/

/-- What the instructions of a cheat read and change. -/
structure Store (σ : Type) where
  offset : U32
  datareg : U32
  c5count : U32
  bus : σ

abbrev Addr := BitVec 28

inductive DataOp
  | add | or | and | xor | shiftLeft | shiftRight | rotate | arithmetic | multiply

def DataOp.apply (op : DataOp) (x b : U32) : U32 :=
  match op with
  | add => x + b
  | or => x ||| b
  | and => x &&& b
  | xor => x ^^^ b
  | shiftLeft => x <<< (b.toNat % 256)
  | shiftRight => x >>> (b.toNat % 256)
  | rotate => x.rotateRight (b.toNat % 32)
  | arithmetic => x.sshiftRight (b.toNat % 256)
  | multiply => x * b

inductive Compare
  | greater | less | equal | different

def Compare.test {w : ℕ} (cmp : Compare) (val chk : BitVec w) : Bool :=
  match cmp with
  | greater => val > chk
  | less => val < chk
  | equal => val = chk
  | different => val ≠ chk

/-- The instructions that are carried out only while the conditions hold. -/
inductive Simple
  | write32 (addr : Addr) (val : U32)
  | write16 (addr : Addr) (val : U16)
  | write8 (addr : Addr) (val : U8)
  | loadOffset (addr : Addr)
  | storeOffset (addr : U32)
  | setOffset (val : U32)
  | addOffset (val : U32)
  | setData (val : U32)
  | onData (op : DataOp) (val : U32)
  | storeData32 (addr : U32)
  | storeData16 (addr : U32)
  | storeData8 (addr : U32)
  | loadData32 (addr : U32)
  | loadData16 (addr : U32)
  | loadData8 (addr : U32)
  | bytes (addr : Addr) (data : { data : List U8 // data.length < 2 ^ 32 })
  | copy (addr : Addr) (count : U32)

section
variable (bus : Bus σ)

def word (bytes : List U8) : U32 := BitVec.ofNat 32 (ofBytes bytes)

/-- Bytes written in words as far as they make up words. -/
def written : List U8 → U32 → σ → σ
  | b₀ :: b₁ :: b₂ :: b₃ :: data, addr, s =>
      written data (addr + 4) (bus.write32 addr (word [b₀, b₁, b₂, b₃]) s)
  | b :: data, addr, s => written data (addr + 1) (bus.write8 addr b s)
  | [], _, s => s

/-- Bytes moved in words as far as they make up words. -/
def moved : ℕ → U32 → U32 → σ → σ
  | count + 4, src, addr, s =>
      moved count (src + 4) (addr + 4) (bus.write32 addr (bus.read32 src s).1 (bus.read32 src s).2)
  | count + 1, src, addr, s =>
      moved count (src + 1) (addr + 1) (bus.write8 addr (bus.read8 src s).1 (bus.read8 src s).2)
  | 0, _, _, s => s

def Simple.apply (op : Simple) (s : Store σ) : Store σ :=
  match op with
  | write32 addr val => { s with bus := bus.write32 (addr.setWidth 32 + s.offset) val s.bus }
  | write16 addr val => { s with bus := bus.write16 (addr.setWidth 32 + s.offset) val s.bus }
  | write8 addr val => { s with bus := bus.write8 (addr.setWidth 32 + s.offset) val s.bus }
  | loadOffset addr =>
      let (val, memory) := bus.read32 (addr.setWidth 32 + s.offset) s.bus
      { s with offset := val, bus := memory }
  | storeOffset addr => { s with bus := bus.write32 addr s.offset s.bus }
  | setOffset val => { s with offset := val }
  | addOffset val => { s with offset := s.offset + val }
  | setData val => { s with datareg := val }
  | onData op val => { s with datareg := op.apply s.datareg val }
  | storeData32 addr =>
      { s with bus := bus.write32 (addr + s.offset) s.datareg s.bus, offset := s.offset + 4 }
  | storeData16 addr =>
      { s with
        bus := bus.write16 (addr + s.offset) (s.datareg.setWidth 16) s.bus
        offset := s.offset + 2 }
  | storeData8 addr =>
      { s with
        bus := bus.write8 (addr + s.offset) (s.datareg.setWidth 8) s.bus
        offset := s.offset + 1 }
  | loadData32 addr =>
      let (val, memory) := bus.read32 (addr + s.offset) s.bus
      { s with datareg := val, bus := memory }
  | loadData16 addr =>
      let (val, memory) := bus.read16 (addr + s.offset) s.bus
      { s with datareg := val.setWidth 32, bus := memory }
  | loadData8 addr =>
      let (val, memory) := bus.read8 (addr + s.offset) s.bus
      { s with datareg := val.setWidth 32, bus := memory }
  | bytes addr data => { s with bus := written bus data.val (addr.setWidth 32 + s.offset) s.bus }
  | copy addr count => { s with bus := moved bus count.toNat s.offset (addr.setWidth 32) s.bus }

/-- One step of a cheat. -/
inductive Item
  | simple (op : Simple)
  | if32 (cmp : Compare) (addr : Addr) (val : U32)
  | if16 (cmp : Compare) (addr : Addr) (mask val : U16)
  | every (mask val : U16)
  | endIf

/-- The address of a condition: zero stands for the offset. -/
def Store.conditionAddress (s : Store σ) (addr : Addr) : U32 :=
  if addr = 0 then s.offset else addr.setWidth 32

/-- An item in a state in which the conditions hold, or else do not. -/
def Item.run (item : Item) : Bool × Store σ → Bool × Store σ
  | (live, s) =>
    match item with
    | simple op => (live, if live then op.apply bus s else s)
    | if32 cmp addr val =>
        if live then
          let (chk, memory) := bus.read32 (s.conditionAddress addr) s.bus
          (cmp.test val chk, { s with bus := memory })
        else (live, s)
    | if16 cmp addr mask val =>
        if live then
          let (chk, memory) := bus.read16 (s.conditionAddress addr) s.bus
          (cmp.test val (~~~mask &&& chk), { s with bus := memory })
        else (live, s)
    | every mask val =>
        let s := { s with c5count := s.c5count + 1 }
        (live && s.c5count &&& mask.setWidth 32 = val.setWidth 32, s)
    | endIf => (true, s)

def runItems (items : List Item) (x : Bool × Store σ) : Bool × Store σ :=
  items.foldl (fun x item => item.run bus x) x

/-- Items, then others that are repeated, as often as the count says and once more. At the end
all conditions hold, and the registers are cleared or kept. -/
structure Segment where
  before : List Item
  loop : Option (U32 × List Item)
  clear : Bool

def Segment.run (segment : Segment) (s : Store σ) : Store σ :=
  let (live, s) := runItems bus segment.before (true, s)
  let s :=
    match segment.loop with
    | none => s
    | some (count, items) =>
        if live then (fun s => (runItems bus items (true, s)).2)^[count.toNat + 1] s
        else (runItems bus items (false, s)).2
  if segment.clear then { s with offset := 0, datareg := 0 } else s

structure Cheat where
  segments : List Segment
  rest : List Item

def Cheat.run (cheat : Cheat) (s : Store σ) : Store σ :=
  (runItems bus cheat.rest (true, cheat.segments.foldl (fun s segment => segment.run bus s) s)).2

end

/-! ## Their words -/

/-- An instruction of four bits and an address. -/
def instruction (op : BitVec 4) (addr : Addr) : U32 := op ++ addr

def DataOp.code : DataOp → U32
  | add => 0xD4000000
  | or => 0xD4000001
  | and => 0xD4000002
  | xor => 0xD4000003
  | shiftLeft => 0xD4000004
  | shiftRight => 0xD4000005
  | rotate => 0xD4000006
  | arithmetic => 0xD4000007
  | multiply => 0xD4000008

def Compare.code32 : Compare → BitVec 4
  | greater => 0x3
  | less => 0x4
  | equal => 0x5
  | different => 0x6

def Compare.code16 : Compare → BitVec 4
  | greater => 0x7
  | less => 0x8
  | equal => 0x9
  | different => 0xA

/-- Literal data, in lines of eight bytes of which the last one is filled up with zeros. -/
def lines (data : List U8) : List U32 :=
  if data = [] then []
  else word (data.take 4) :: word ((data.drop 4).take 4) :: lines (data.drop 8)
termination_by data.length
decreasing_by
  rw [List.length_drop]
  have := List.length_pos_of_ne_nil ‹_›
  omega

def Simple.encode : Simple → List U32
  | write32 addr val => [instruction 0x0 addr, val]
  | write16 addr val => [instruction 0x1 addr, val.setWidth 32]
  | write8 addr val => [instruction 0x2 addr, val.setWidth 32]
  | loadOffset addr => [instruction 0xB addr, 0]
  | storeOffset addr => [0xC6000000, addr]
  | setOffset val => [0xD3000000, val]
  | addOffset val => [0xDC000000, val]
  | setData val => [0xD5000000, val]
  | onData op val => [op.code, val]
  | storeData32 addr => [0xD6000000, addr]
  | storeData16 addr => [0xD7000000, addr]
  | storeData8 addr => [0xD8000000, addr]
  | loadData32 addr => [0xD9000000, addr]
  | loadData16 addr => [0xDA000000, addr]
  | loadData8 addr => [0xDB000000, addr]
  | bytes addr data => instruction 0xE addr :: BitVec.ofNat 32 data.val.length :: lines data.val
  | copy addr count => [instruction 0xF addr, count]

def Item.encode : Item → List U32
  | simple op => op.encode
  | if32 cmp addr val => [instruction cmp.code32 addr, val]
  | if16 cmp addr mask val => [instruction cmp.code16 addr, mask ++ val]
  | every mask val => [0xC5000000, val ++ mask]
  | endIf => [0xD0000000, 0]

def encodeItems (items : List Item) : List U32 := items.flatMap Item.encode

def Segment.encode (segment : Segment) : List U32 :=
  encodeItems segment.before ++
    (match segment.loop with
      | none => []
      | some (count, items) => [0xC0000000, count] ++ encodeItems items) ++
    [if segment.clear then 0xD2000000 else 0xD1000000, 0]

def Cheat.encode (cheat : Cheat) : List U32 :=
  cheat.segments.flatMap Segment.encode ++ encodeItems cheat.rest

/-! ## Decoding -/

theorem toNat_instruction (op : BitVec 4) (addr : Addr) :
    (instruction op addr).toNat = op.toNat * 2 ^ 28 + addr.toNat := by
  have happend : (instruction op addr).toNat = op.toNat <<< 28 ||| addr.toNat :=
    BitVec.toNat_append op addr
  rw [happend, Nat.shiftLeft_eq, Nat.mul_comm, ← Nat.two_pow_add_eq_or_of_lt addr.isLt]

theorem instruction_op (op : BitVec 4) (addr : Addr) :
    (instruction op addr >>> 24).toNat / 0x10 = op.toNat := by
  have haddr := addr.isLt
  rw [BitVec.toNat_ushiftRight, toNat_instruction, Nat.shiftRight_eq_div_pow]
  omega

theorem instruction_addr (op : BitVec 4) (addr : Addr) :
    instruction op addr &&& 0x0FFFFFFF = addr.setWidth 32 := by
  have haddr := addr.isLt
  apply BitVec.eq_of_toNat_eq
  rw [BitVec.toNat_and, toNat_instruction, BitVec.toNat_setWidth]
  exact (Nat.and_two_pow_sub_one_eq_mod _ 28).trans (by omega)

theorem executesAlways_instruction {op : BitVec 4} (addr : Addr) (hop : op.toNat ≠ 0xC)
    (hop' : op.toNat ≠ 0xD) : executesAlways (instruction op addr >>> 24).toNat = false := by
  have h := instruction_op op addr
  rw [executesAlways, decide_eq_false_iff_not, not_not]
  omega

theorem isData_instruction (op : BitVec 4) (addr : Addr) :
    isData (instruction op addr) = true ↔ op = 0xE := by
  rw [isData_iff, instruction_op, ← BitVec.toNat_inj]
  rfl

theorem halves (high low : U16) :
    (high ++ low : U32) >>> 16 = high.setWidth 32 ∧ (high ++ low : U32).setWidth 16 = low ∧
      (high ++ low : U32) &&& 0xFFFF = low.setWidth 32 := by
  have hhigh := high.isLt
  have hlow := low.isLt
  have hnat : (high ++ low : U32).toNat = high.toNat * 2 ^ 16 + low.toNat := by
    rw [BitVec.toNat_append, Nat.shiftLeft_eq, Nat.mul_comm, ← Nat.two_pow_add_eq_or_of_lt hlow]
  refine ⟨BitVec.eq_of_toNat_eq ?_, BitVec.eq_of_toNat_eq ?_, BitVec.eq_of_toNat_eq ?_⟩
  · rw [BitVec.toNat_ushiftRight, hnat, BitVec.toNat_setWidth, Nat.shiftRight_eq_div_pow]
    omega
  · rw [BitVec.toNat_setWidth, hnat]
    omega
  · rw [BitVec.toNat_and, hnat, BitVec.toNat_setWidth]
    exact (Nat.and_two_pow_sub_one_eq_mod _ 16).trans (by omega)

/-- A number shifted out of its width leaves its sign. -/
theorem sshiftRight_sign (x : U32) {n : ℕ} (hn : 31 ≤ n) : x.sshiftRight n = x.sshiftRight 31 := by
  apply BitVec.eq_of_getLsbD_eq
  intro i hi
  have hsign : (if 31 + i < 32 then x.getLsbD (31 + i) else x.msb) = x.msb := by
    split_ifs with h
    · obtain rfl : i = 0 := by omega
      exact (BitVec.msb_eq_getLsbD_last x).symm
    · rfl
  have hsign' : (if n + i < 32 then x.getLsbD (n + i) else x.msb) = x.msb := by
    split_ifs with h
    · obtain ⟨rfl, rfl⟩ : n = 31 ∧ i = 0 := by omega
      exact (BitVec.msb_eq_getLsbD_last x).symm
    · rfl
  rw [BitVec.getLsbD_sshiftRight, BitVec.getLsbD_sshiftRight, hsign, hsign']

theorem dataOp_apply (op : DataOp) (x b : U32) :
    (op.code >>> 24).toNat = 0xD4 ∧
      dataOp x (op.code &&& 0xFF).toNat b = some (op.apply x b) := by
  have hshift : (b &&& 0xFF).toNat = b.toNat % 256 :=
    (BitVec.toNat_and ..).trans (Nat.and_two_pow_sub_one_eq_mod b.toNat 8)
  have hrotate : (b &&& 0x1F).toNat = b.toNat % 32 :=
    (BitVec.toNat_and ..).trans (Nat.and_two_pow_sub_one_eq_mod b.toNat 5)
  cases op with
  | add => exact ⟨rfl, rfl⟩
  | or => exact ⟨rfl, rfl⟩
  | and => exact ⟨rfl, rfl⟩
  | xor => exact ⟨rfl, rfl⟩
  | shiftLeft =>
    refine ⟨rfl, congrArg some ?_⟩
    rw [DataOp.apply, hshift]
    split_ifs with h
    · exact (BitVec.shiftLeft_eq_zero (by omega)).symm
    · rfl
  | shiftRight =>
    refine ⟨rfl, congrArg some ?_⟩
    rw [DataOp.apply, hshift]
    split_ifs with h
    · exact (BitVec.ushiftRight_eq_zero (by omega)).symm
    · rfl
  | rotate =>
    refine ⟨rfl, congrArg some ?_⟩
    rw [DataOp.apply, hrotate]
  | arithmetic =>
    refine ⟨rfl, congrArg some ?_⟩
    rw [DataOp.apply, hshift]
    split_ifs with h
    · exact (sshiftRight_sign x (by omega)).symm
    · rfl
  | multiply => exact ⟨rfl, rfl⟩

end MelonDS.AREngine

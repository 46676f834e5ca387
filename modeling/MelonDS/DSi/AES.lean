import Mathlib.Data.Fin.Rev
import Mathlib.Data.Fin.VecNotation
import Mathlib.Data.Fintype.Pi
import MelonDS.FIFO
import MelonDS.Types

/-!
# The AES engine of the DSi

Blocks pass from the input FIFO to the output FIFO when a register access calls `Update`. The
block cipher is a parameter, `encrypt` of a key and a block. NDMA channels and interrupts are
started elsewhere and act on the engine only through its registers.
-/

namespace MelonDS.DSi

/-! ## Blocks -/

/-- Sixteen bytes in memory order. -/
abbrev Block := Fin 16 → U8

namespace Block

def zero : Block := fun _ => 0

/-- `Bswap128`. -/
def bswap128 (src : Block) : Block := fun i => src i.rev

def xor (a b : Block) : Block := fun i => a i ^^^ b i

/-- The 32-bit word at byte `4 * i`. -/
def word (b : Block) (i : Fin 4) : U32 :=
  b ⟨4 * i + 3, by omega⟩ ++ b ⟨4 * i + 2, by omega⟩ ++ b ⟨4 * i + 1, by omega⟩ ++ b ⟨4 * i, by omega⟩

def ofWords (w : Fin 4 → U32) : Block := fun i =>
  (w ⟨i / 4, by omega⟩).extractLsb' (8 * (i % 4)) 8

def words (b : Block) : List U32 := [b.word 0, b.word 1, b.word 2, b.word 3]

/-- A register write: the bits of `mask` in the word `offset`. -/
def writeWord (offset : Fin 4) (val mask : U32) (b : Block) : Block :=
  ofWords (Function.update b.word offset ((b.word offset &&& ~~~mask) ||| (val &&& mask)))

/-- The increment of the counter, from the last byte down while bytes overflow. -/
def incrementFrom : ∀ n, n ≤ 16 → Block → Block
  | 0, _, iv => iv
  | n + 1, h, iv =>
    if iv ⟨n, h⟩ = 255 then incrementFrom n (Nat.le_of_succ_le h) (Function.update iv ⟨n, h⟩ 0)
    else Function.update iv ⟨n, h⟩ (iv ⟨n, h⟩ + 1)

def increment (iv : Block) : Block := incrementFrom 16 (Nat.le_refl 16) iv

/-- The last three bytes, where CCM keeps its counter. -/
def setCounter (a b c : U8) (iv : Block) : Block :=
  Function.update (Function.update (Function.update iv 13 a) 14 b) 15 c

/-- The counter block of CCM: a flag byte, twelve bytes of nonce, the counter. -/
def ccmCounter (iv : Block) : Block := fun i =>
  if i = 0 then 0x02
  else if h : (i : ℕ) < 13 then iv ⟨i + 3, by omega⟩
  else if i = 15 then 1
  else 0

/-- `memset(&CurMAC[maclen], 0, 16 - maclen)`. -/
def truncate (maclen : ℕ) (b : Block) : Block := fun i => if (i : ℕ) < maclen then b i else 0

/-! ### Key derivation -/

def keyConst : Block :=
  ![0xFF, 0xFE, 0xFB, 0x4E, 0x29, 0x59, 0x02, 0x58, 0x2A, 0x68, 0x0F, 0x5F, 0x1A, 0x4F, 0x3E, 0x79]

/-- The carry into byte `i` of the sum of a key and the constant. -/
def carry (tmp : Block) : ℕ → ℕ
  | 0 => 0
  | i + 1 => ((tmp (Fin.ofNat 16 i)).toNat + (keyConst (Fin.ofNat 16 i).rev).toNat + carry tmp i) / 256

def addConst (tmp : Block) : Block := fun i =>
  tmp i + keyConst i.rev + BitVec.ofNat 8 (carry tmp i)

def rol16 (n : ℕ) (val : Block) : Block :=
  let tmp : Block := fun i => val (i - Fin.ofNat 16 (n / 8))
  fun i => tmp i <<< (n % 8) ||| tmp (i - 1) >>> (8 - n % 8)

def deriveNormalKey (keyX keyY : Block) : Block := rol16 42 (addConst (xor keyX keyY))

end Block

/-! ## Registers -/

structure Ctx where
  key : Block
  iv : Block

structure AES where
  cnt : U32
  blkCnt : U32
  remExtra : ℕ
  remBlocks : ℕ
  aesMode : BitVec 2
  inputFIFO : FIFO U32 16
  outputFIFO : FIFO U32 16
  iv : Block
  mac : Block
  keyNormal : Fin 4 → Block
  keyX : Fin 4 → Block
  keyY : Fin 4 → Block
  curKey : Block
  curMAC : Block
  outputMAC : Block
  outputMACDue : Bool
  ctx : Ctx

namespace AES

/-- Bit 31 of `Cnt`. -/
def running (s : AES) : Bool := s.cnt.getLsbD 31

/-- Mode 0 takes the tag from the input FIFO unless bit 20 selects the MAC register. -/
def fifoTag (s : AES) : Prop := s.aesMode = 0 ∧ s.cnt.getLsbD 20 = false

instance (s : AES) : Decidable s.fifoTag := inferInstanceAs (Decidable (_ ∧ _))

/-- Modes 0 and 1. -/
def ccm (s : AES) : Prop := s.aesMode.toNat < 2

instance (s : AES) : Decidable s.ccm := inferInstanceAs (Decidable (_ < _))

def resetKeyX (consoleid : U64) (bios : Block) : Fin 4 → Block :=
  let low := consoleid.setWidth 32
  let high := (consoleid >>> 32).setWidth 32
  ![Block.ofWords ![0x746E694E, 0x6F646E65, 0, 0],
    Block.ofWords ![0x4E00004A, 0x4A00004E, high ^^^ 0xC80C4B72, low],
    bios,
    Block.ofWords ![low, low ^^^ 0x24EE6906, high ^^^ 0xE65B601D, high]]

def resetKeyY : Fin 4 → Block :=
  ![Block.zero, Block.zero, Block.zero, Block.ofWords ![0x0AB9DC76, 0xBD4DC4D3, 0x202DDD1D, 0]]

/-- `Reset`. The context keeps what it held; `bios` is the key at `0x8B8C` of the ARM9i BIOS. -/
def reset (consoleid : U64) (bios : Block) (ctx : Ctx) : AES where
  cnt := 0
  blkCnt := 0
  remExtra := 0
  remBlocks := 0
  aesMode := 0
  inputFIFO := FIFO.empty 0
  outputFIFO := FIFO.empty 0
  iv := Block.zero
  mac := Block.zero
  keyNormal := fun _ => Block.zero
  keyX := resetKeyX consoleid bios
  keyY := resetKeyY
  curKey := Block.zero
  curMAC := Block.zero
  outputMAC := Block.zero
  outputMACDue := false
  ctx := ctx

/-! ## Blocks through the FIFOs -/

def readInput (s : AES) : U32 × AES :=
  (s.inputFIFO.read.1, { s with inputFIFO := s.inputFIFO.read.2 })

/-- Four words of the input FIFO, in memory order. -/
def readBlock (s : AES) : Block × AES :=
  let (w0, s) := s.readInput
  let (w1, s) := s.readInput
  let (w2, s) := s.readInput
  let (w3, s) := s.readInput
  (Block.ofWords ![w0, w1, w2, w3], s)

/-- Four words to the output FIFO, in memory order. -/
def writeBlock (data : Block) (s : AES) : AES :=
  { s with outputFIFO := data.words.foldl FIFO.write s.outputFIFO }

variable (encrypt : Block → Block → Block)

/-- `AES_CTR_xcrypt_buffer` on one block, the whole buffer of each call. -/
def ctrXcrypt (data : Block) (s : AES) : Block × AES :=
  (data.xor (encrypt s.ctx.key s.ctx.iv),
    { s with ctx := { s.ctx with iv := s.ctx.iv.increment } })

/-- A block enters the MAC: `CurMAC ^= data`, then `AES_ECB_encrypt`. -/
def macBlock (data : Block) (s : AES) : AES :=
  { s with curMAC := encrypt s.ctx.key (s.curMAC.xor data) }

def processBlockCCMExtra (s : AES) : AES :=
  let (data, s) := s.readBlock
  s.macBlock encrypt data.bswap128

def processBlockCCMDecrypt (s : AES) : AES :=
  let (data, s) := s.readBlock
  let (dataRev, s) := s.ctrXcrypt encrypt data.bswap128
  (s.macBlock encrypt dataRev).writeBlock dataRev.bswap128

/-- The MAC takes the block before the counter mode step changes it. -/
def processBlockCCMEncrypt (s : AES) : AES :=
  let (data, s) := s.readBlock
  let dataRev := data.bswap128
  let s := { s with curMAC := s.curMAC.xor dataRev }
  let (dataRev, s) := s.ctrXcrypt encrypt dataRev
  let s := { s with curMAC := encrypt s.ctx.key s.curMAC }
  s.writeBlock dataRev.bswap128

def processBlockCTR (s : AES) : AES :=
  let (data, s) := s.readBlock
  let (dataRev, s) := s.ctrXcrypt encrypt data.bswap128
  s.writeBlock dataRev.bswap128

def processBlock (s : AES) : AES :=
  if s.aesMode = 0 then s.processBlockCCMDecrypt encrypt
  else if s.aesMode = 1 then s.processBlockCCMEncrypt encrypt
  else s.processBlockCTR encrypt

/-! ## Update -/

def setRemExtra (n : ℕ) (s : AES) : AES := { s with remExtra := n }
def setRemBlocks (n : ℕ) (s : AES) : AES := { s with remBlocks := n }

/-- The loop over the extra blocks; the count is `RemExtra`. -/
def extraLoop : ℕ → AES → AES
  | 0, s => s
  | n + 1, s =>
    if 4 ≤ s.inputFIFO.level then extraLoop n ((s.processBlockCCMExtra encrypt).setRemExtra n)
    else s

/-- The loop over the payload; the count is `RemBlocks`. -/
def payloadLoop : ℕ → AES → AES
  | 0, s => s
  | n + 1, s =>
    if 4 ≤ s.inputFIFO.level ∧ s.outputFIFO.level ≤ 12 then
      payloadLoop n ((s.processBlock encrypt).setRemBlocks n)
    else s

/-- The MAC is encrypted with the counter at zero, cut to its length and padded. -/
def finishMAC (s : AES) : AES :=
  let (mac, s) :=
    { s with ctx := { s.ctx with iv := s.ctx.iv.setCounter 0 0 0 } }.ctrXcrypt encrypt s.curMAC
  let maclen := (s.cnt.extractLsb' 16 3).toNat * 2 + 2
  let maclen := if maclen < 4 then 4 else maclen
  { s with curMAC := mac.truncate maclen }

def setVerified (verified : Bool) (s : AES) : AES :=
  { s with cnt := if verified then s.cnt ||| bit 32 21 else s.cnt &&& ~~~bit 32 21 }

/-- The MAC against the tag, which is in memory order. -/
def verify (tag : Block) (s : AES) : AES :=
  s.setVerified (decide (∀ i : Fin 16, s.curMAC i.rev = tag i))

/-- The MAC words, or a note that they are due. -/
def emitMAC (s : AES) : AES :=
  let s := { s with outputMAC := s.curMAC.bswap128 }
  if s.outputFIFO.level ≤ 12 then s.writeBlock s.outputMAC else { s with outputMACDue := true }

def stop (s : AES) : AES := { s with cnt := s.cnt &&& ~~~bit 32 31 }

/-- What each mode does with the MAC. -/
def useMAC (s : AES) : AES :=
  if s.aesMode = 0 then
    if s.fifoTag then s.readBlock.2.verify s.readBlock.1 else s.verify s.mac
  else if s.aesMode = 1 then s.emitMAC.setVerified false
  else s.setVerified false

def finish (s : AES) : AES :=
  (if s.ccm then s.finishMAC encrypt else s).useMAC.stop

def update (s : AES) : AES :=
  if s.running then
    let s := s.extraLoop encrypt s.remExtra
    let s := if s.remExtra = 0 then s.payloadLoop encrypt s.remBlocks else s
    if s.remBlocks = 0 ∧ s.remExtra = 0 then
      -- a partial tag stays in the FIFO
      if s.fifoTag ∧ s.inputFIFO.level < 4 then s else s.finish encrypt
    else s
  else s

/-! ## Register accesses -/

/-- The register fields of a write to `Cnt`, and the key it selects. -/
def setCnt (val : U32) (s : AES) : AES :=
  { s with
    cnt := val &&& 0xFC1FF000
    aesMode := val.extractLsb' 28 2
    curKey := if val.getLsbD 24 then s.keyNormal ⟨(val.extractLsb' 26 2).toNat, by omega⟩
      else s.curKey }

/-- The block counts of a start. -/
def loadCounts (s : AES) : AES :=
  { s with
    remExtra := if s.ccm then (s.blkCnt.extractLsb' 0 16).toNat else 0
    remBlocks := (s.blkCnt.extractLsb' 16 16).toNat
    outputMACDue := false }

/-- The first block of the MAC: the counter block with its flags and the length. -/
def ccmHeader (val : U32) (s : AES) : Block :=
  let iv := s.iv.bswap128.ccmCounter
  let maclen := (val.extractLsb' 16 3).toNat
  let maclen := if maclen < 1 then 1 else maclen
  let flags : U8 := BitVec.ofNat 8 (maclen <<< 3) ||| if s.blkCnt.extractLsb' 0 16 = 0 then 0 else 64
  Block.setCounter (BitVec.ofNat 8 (s.remBlocks >>> 12)) (BitVec.ofNat 8 (s.remBlocks >>> 4))
    (BitVec.ofNat 8 (s.remBlocks <<< 4)) (Function.update iv 0 (iv 0 ||| flags))

/-- `AES_init_ctx_iv`, and the header in the MAC for CCM. -/
def initCtx (val : U32) (s : AES) : AES :=
  let key := s.curKey.bswap128
  if s.ccm then
    { s with
      ctx := { key := key, iv := s.iv.bswap128.ccmCounter }
      curMAC := encrypt key (s.ccmHeader val) }
  else { s with ctx := { key := key, iv := s.iv.bswap128 } }

def start (val : U32) (s : AES) : AES :=
  let s := s.loadCounts
  if 0 < s.remBlocks ∨ 0 < s.remExtra then
    let s := s.initCtx encrypt val
    -- the input FIFO may already hold a complete request
    if s.fifoTag then s.update encrypt else s
  else s.stop

def writeCnt (val : U32) (s : AES) : AES :=
  if ¬ s.running ∧ val.getLsbD 31 then (s.setCnt val).start encrypt val else s.setCnt val

def writeBlkCnt (val : U32) (s : AES) : AES := { s with blkCnt := val }

/-- Also the NDMA channels call it when they pause or end. -/
def checkInputDMA (s : AES) : AES :=
  if ¬ s.running then s
  else if s.remBlocks = 0 ∧ s.remExtra = 0 ∧ ¬ s.fifoTag then s
  else s.update encrypt

def flushMAC (s : AES) : AES :=
  if s.outputMACDue ∧ s.outputFIFO.level ≤ 12 then
    { s.writeBlock s.outputMAC with outputMACDue := false }
  else s

def readOutputFIFO (s : AES) : U32 × AES :=
  let ret := s.outputFIFO.read
  let s := { s with outputFIFO := ret.2 }
  (ret.1, if s.running then s.checkInputDMA encrypt else s.flushMAC)

def writeInputFIFO (val : U32) (s : AES) : AES :=
  let s := { s with inputFIFO := s.inputFIFO.write val }
  if s.running then s.update encrypt else s

def writeKeyY (slot offset : Fin 4) (val mask : U32) (s : AES) : AES :=
  let keyY := Function.update s.keyY slot ((s.keyY slot).writeWord offset val mask)
  { s with
    keyY := keyY
    keyNormal :=
      -- the last word starts the derivation
      if offset = 3 then
        Function.update s.keyNormal slot (Block.deriveNormalKey (s.keyX slot) (keyY slot))
      else s.keyNormal }

/-- An access to the engine. -/
inductive Call
  | writeCnt (val : U32)
  | writeBlkCnt (val : U32)
  | writeInputFIFO (val : U32)
  | readOutputFIFO
  | checkInputDMA
  | writeIV (offset : Fin 4) (val mask : U32)
  | writeMAC (offset : Fin 4) (val mask : U32)
  | writeKeyNormal (slot offset : Fin 4) (val mask : U32)
  | writeKeyX (slot offset : Fin 4) (val mask : U32)
  | writeKeyY (slot offset : Fin 4) (val mask : U32)

def step (s : AES) : Call → AES
  | .writeCnt val => s.writeCnt encrypt val
  | .writeBlkCnt val => s.writeBlkCnt val
  | .writeInputFIFO val => s.writeInputFIFO encrypt val
  | .readOutputFIFO => (s.readOutputFIFO encrypt).2
  | .checkInputDMA => s.checkInputDMA encrypt
  | .writeIV offset val mask => { s with iv := s.iv.writeWord offset val mask }
  | .writeMAC offset val mask => { s with mac := s.mac.writeWord offset val mask }
  | .writeKeyNormal slot offset val mask =>
    { s with keyNormal :=
        Function.update s.keyNormal slot ((s.keyNormal slot).writeWord offset val mask) }
  | .writeKeyX slot offset val mask =>
    { s with keyX := Function.update s.keyX slot ((s.keyX slot).writeWord offset val mask) }
  | .writeKeyY slot offset val mask => s.writeKeyY slot offset val mask

end AES
end MelonDS.DSi

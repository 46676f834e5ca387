import MelonDS.DSi.AES
import MelonDS.DSi.AESBlocks
import MelonDS.Library.CounterMode

/-!
# The cryptography of the DSi NAND

`DSi_NAND.cpp`: the FAT partition is encrypted in counter mode, the counter taken from the address
of each access. ES files are encrypted with a MAC and a footer behind the data. The block function
is a parameter, and so is what the host does when an operation on the NAND file fails. Lengths and
addresses are natural numbers; a length is below 2^32 and the counter is cut to 32 bits.
-/

namespace MelonDS.DSi.NAND

/-- The 16 bytes at an index. -/
def blockAt (data : ℕ → U8) (i : ℕ) : Block := fun k => data (i + k)

def putBlock (data : ℕ → U8) (i : ℕ) (b : Block) : ℕ → U8 := fun j =>
  if h : i ≤ j ∧ j - i < 16 then b ⟨j - i, h.2⟩ else data j

section
variable (encrypt : Block → Block → Block)

/-- `AES_CTR_xcrypt_buffer` on one block. -/
def xcrypt (data : Block) (ctx : Ctx) : Block × Ctx :=
  (data.xor (encrypt ctx.key ctx.iv), { ctx with iv := ctx.iv.increment })

/-! ## ES files -/

/-- The counter block: a flag byte, the nonce in the footer, the counter 1. -/
def esIV (data : ℕ → U8) (len : ℕ) : Block := fun i =>
  if i = 0 then 0x02
  else if (i : ℕ) < 13 then data (len + 0x1C - (i - 1))
  else if i = 15 then 1
  else 0

/-- The first block of the MAC, with the length in whole blocks. -/
def macHeader (iv : Block) (len : ℕ) : Block :=
  let blklen := (len + 0xF) / 16 * 16
  Block.setCounter (BitVec.ofNat 8 (blklen / 0x10000)) (BitVec.ofNat 8 (blklen / 0x100))
    (BitVec.ofNat 8 blklen) (Function.update iv 0 0x3A)

/-- The counter block of the footer. -/
def footerIV (data : ℕ → U8) (len : ℕ) : Block := fun i =>
  if 3 ≤ (i : ℕ) ∧ (i : ℕ) < 15 then data (len + 0x1C - (i - 3)) else 0

structure ES where
  data : ℕ → U8
  mac : Block
  ctx : Ctx

def esStart (key : Block) (data : ℕ → U8) (len : ℕ) : ES :=
  let iv := esIV data len
  ⟨data, encrypt key (macHeader iv len), ⟨key, iv⟩⟩

def encryptBlock (s : ES) (block : ℕ) : ES :=
  let tmp := (blockAt s.data (16 * block)).bswap128
  let mac := s.mac.xor tmp
  let (tmp, ctx) := xcrypt encrypt tmp s.ctx
  ⟨putBlock s.data (16 * block) tmp.bswap128, encrypt ctx.key mac, ctx⟩

def decryptBlock (s : ES) (block : ℕ) : ES :=
  let tmp := (blockAt s.data (16 * block)).bswap128
  let (tmp, ctx) := xcrypt encrypt tmp s.ctx
  ⟨putBlock s.data (16 * block) tmp.bswap128, encrypt ctx.key (s.mac.xor tmp), ctx⟩

/-- The bytes behind the last whole block, in the reversed order of a block. -/
def loadRem (rem : Block) (data : ℕ → U8) (coarselen remlen : ℕ) : Block := fun j =>
  if 15 - (j : ℕ) < remlen then data (coarselen + (15 - j)) else rem j

def storeRem (rem : Block) (data : ℕ → U8) (coarselen remlen : ℕ) : ℕ → U8 := fun j =>
  if coarselen ≤ j ∧ j < coarselen + remlen then rem (Fin.ofNat 16 (15 - (j - coarselen)))
  else data j

def encryptRem (s : ES) (coarselen remlen : ℕ) : ES :=
  let rem := loadRem Block.zero s.data coarselen remlen
  let mac := s.mac.xor rem
  let (rem, ctx) := xcrypt encrypt rem s.ctx
  ⟨storeRem rem s.data coarselen remlen, encrypt ctx.key mac, ctx⟩

/-- The padding comes out as zero: it is encrypted first and again with the data. -/
def decryptRem (iv : Block) (s : ES) (coarselen remlen : ℕ) : ES :=
  let ivnum := coarselen / 16 + 1
  let iv := iv.setCounter (BitVec.ofNat 8 (ivnum / 0x10000)) (BitVec.ofNat 8 (ivnum / 0x100))
    (BitVec.ofNat 8 ivnum)
  let (rem, ctx) := xcrypt encrypt Block.zero { s.ctx with iv := iv }
  let rem := loadRem rem s.data coarselen remlen
  let (rem, ctx) := xcrypt encrypt rem { ctx with iv := iv }
  ⟨storeRem rem s.data coarselen remlen, encrypt ctx.key (s.mac.xor rem), ctx⟩

/-- The MAC is encrypted with the counter 0. -/
def finishMAC (s : ES) : Block :=
  (xcrypt encrypt s.mac { s.ctx with iv := s.ctx.iv.setCounter 0 0 0 }).1

/-- The scattered bytes of the footer. -/
def storeFooter (data : ℕ → U8) (len : ℕ) (footer : Block) : ℕ → U8 :=
  Function.update (Function.update (Function.update (Function.update data (len + 0x10) (footer 15))
    (len + 0x1D) (footer 2)) (len + 0x1E) (footer 1)) (len + 0x1F) (footer 0)

variable (key : Block)

/-- The bytes of the footer that are never stored begin as whatever is on the stack. -/
def esEncrypt (uninit : Block) (data : ℕ → U8) (len : ℕ) : Bool × (ℕ → U8) :=
  let coarselen := len / 16 * 16
  let s := (List.range (len / 16)).foldl (encryptBlock encrypt) (esStart encrypt key data len)
  let s := if len - coarselen ≠ 0 then encryptRem encrypt s coarselen (len - coarselen) else s
  let data := putBlock s.data len (finishMAC encrypt s).bswap128
  let footer := Function.update (Function.update (Function.update (Function.update uninit 15 0x3A)
    2 (BitVec.ofNat 8 (len / 0x10000))) 1 (BitVec.ofNat 8 (len / 0x100))) 0 (BitVec.ofNat 8 len)
  let footer := (xcrypt encrypt footer ⟨key, footerIV data len⟩).1
  (true, storeFooter data len footer)

def esDecrypt (data : ℕ → U8) (len : ℕ) : Bool × (ℕ → U8) :=
  let coarselen := len / 16 * 16
  let iv := esIV data len
  let s := (List.range (len / 16)).foldl (decryptBlock encrypt) (esStart encrypt key data len)
  let s := if len - coarselen ≠ 0 then decryptRem encrypt iv s coarselen (len - coarselen) else s
  let mac := finishMAC encrypt s
  let footer := (blockAt s.data (len + 0x10)).bswap128
  let footer := (xcrypt encrypt footer ⟨key, footerIV s.data len⟩).1
  let data := storeFooter s.data len footer
  let footerlen := (footer 0).toNat + (footer 1).toNat * 0x100 + (footer 2).toNat * 0x10000
  if footerlen ≠ len then (false, data)
  else if ∃ i : Fin 16, data (len + i) ≠ mac i.rev then (false, data)
  else (true, data)

end

/-! ## The FAT partition -/

structure File where
  bytes : ℕ → U8
  length : ℕ
  position : ℕ

/-- Which operations fail, and what a failed write leaves behind. -/
structure Host where
  seekFails : File → ℕ → Bool
  readFails : File → ℕ → Bool
  writeFails : File → ℕ → Option File

namespace File

def seek (host : Host) (f : File) (addr : ℕ) : Option File :=
  if host.seekFails f addr then none else some { f with position := addr }

/-- A read of one element of `n` bytes, which is no element when there are none. -/
def read (host : Host) (f : File) (buf : ℕ → U8) (n : ℕ) : Option ((ℕ → U8) × File) :=
  if host.readFails f n ∨ n = 0 ∨ f.length < f.position + n then none
  else some (fun i => if i < n then f.bytes (f.position + i) else buf i,
    { f with position := f.position + n })

def write (host : Host) (f : File) (data : ℕ → U8) (n : ℕ) : Bool × File :=
  match host.writeFails f n with
  | some f => (false, f)
  | none => (true, {
      bytes := fun j => if f.position ≤ j ∧ j < f.position + n then data (j - f.position)
        else f.bytes j
      length := max f.length (f.position + n)
      position := f.position + n })

end File

structure NANDImage where
  fatIV : Block
  fatKey : Block

/-- The carry of the sum of two blocks into byte `15 - i`. -/
def carryInto (iv ctr : Block) : ℕ → ℕ
  | 0 => 0
  | i + 1 => ((iv (Fin.ofNat 16 (15 - i))).toNat + (ctr (Fin.ofNat 16 (15 - i))).toNat +
      carryInto iv ctr i) / 0x100

def ctrValue (ctr : U32) : Block := fun i =>
  if i = 15 then ctr.setWidth 8
  else if i = 14 then (ctr >>> 8).setWidth 8
  else if i = 13 then (ctr >>> 16).setWidth 8
  else if i = 12 then (ctr >>> 24).setWidth 8
  else 0

def setupFATCrypto (image : NANDImage) (ctr : U32) : Ctx :=
  ⟨image.fatKey, fun j =>
    image.fatIV j + ctrValue ctr j + BitVec.ofNat 8 (carryInto image.fatIV (ctrValue ctr) (15 - j))⟩

section
variable (encrypt : Block → Block → Block) (host : Host) (image : NANDImage)

/-- Blocks of one buffer put into another, each encrypted with the next counter. -/
def xcryptBlocks (source : ℕ → U8) : ℕ → ℕ → Ctx → (ℕ → U8) → Ctx × (ℕ → U8)
  | 0, _, ctx, target => (ctx, target)
  | blocks + 1, i, ctx, target =>
    let (tmp, ctx) := xcrypt encrypt (blockAt source i).bswap128 ctx
    xcryptBlocks source blocks (i + 16) ctx (putBlock target i tmp.bswap128)

/-- The length read, or 0, and the buffer. -/
def readFATBlock (addr len : ℕ) (buf : ℕ → U8) (f : File) : ℕ × (ℕ → U8) × File :=
  let ctx := setupFATCrypto image (BitVec.ofNat 32 (addr / 16))
  match f.seek host addr with
  | none => (0, buf, f)
  | some f =>
    match f.read host buf len with
    | none => (0, buf, f)
    | some (buf, f) => (len, (xcryptBlocks encrypt buf ((len + 15) / 16) 0 ctx buf).2, f)

def writeSectors (buf : ℕ → U8) (uninit : ℕ → U8) : ℕ → ℕ → Ctx → File → Bool × File
  | 0, _, _, f => (true, f)
  | sectors + 1, s, ctx, f =>
    let (ctx, tempbuf) := xcryptBlocks encrypt (fun i => buf (s + i)) 32 0 ctx uninit
    match f.write host tempbuf 0x200 with
    | (false, f) => (false, f)
    | (true, f) => writeSectors buf uninit sectors (s + 0x200) ctx f

/-- The length written, or 0. -/
def writeFATBlock (uninit : ℕ → U8) (addr len : ℕ) (buf : ℕ → U8) (f : File) : ℕ × File :=
  let ctx := setupFATCrypto image (BitVec.ofNat 32 (addr / 16))
  match f.seek host addr with
  | none => (0, f)
  | some f =>
    match writeSectors encrypt host buf uninit ((len + 0x1FF) / 0x200) 0 ctx f with
    | (true, f) => (len, f)
    | (false, f) => (0, f)

end

/-!
## ES encryption and decryption

Both directions run the same counter over the data and chain the same plaintext into the MAC: the
decryption meets the bytes of the encryption and turns them back one block at a time. The block of
the tail is rebuilt with the counter that the blocks before it have reached.
-/

open Block

/-! ## Bytes of blocks -/

variable (encrypt : Block → Block → Block) (key iv : Block)

/-- The byte of the key stream for a byte of the data, which a block holds in reversed order. -/
def keystream (j : ℕ) : U8 := encrypt key (increment^[j / 16] iv) (Fin.ofNat 16 (15 - j % 16))

theorem rev_eq_ofNat {i : ℕ} (hi : i < 16) :
    (⟨i, hi⟩ : Fin 16).rev = Fin.ofNat 16 (15 - i) := by
  apply Fin.ext
  rw [Fin.val_rev, Fin.val_ofNat]
  change 16 - (i + 1) = (15 - i) % 16
  omega

theorem putBlock_of_mem (data : ℕ → U8) (i : ℕ) (b : Block) {j : ℕ} (hi : i ≤ j)
    (hj : j < i + 16) : putBlock data i b j = b (Fin.ofNat 16 (j - i)) := by
  rw [putBlock, dif_pos ⟨hi, by omega⟩]
  congr 1
  apply Fin.ext
  rw [Fin.val_ofNat, Nat.mod_eq_of_lt (by omega)]

theorem putBlock_of_not_mem (data : ℕ → U8) (i : ℕ) (b : Block) {j : ℕ} (h : j < i ∨ i + 16 ≤ j) :
    putBlock data i b j = data j := by
  rw [putBlock, dif_neg (by omega)]

/-- A block at some index under block `c` of the key stream. -/
theorem putBlock_xor_at (target source : ℕ → U8) (i c : ℕ) {j : ℕ} (hj : i ≤ j)
    (hj' : j < i + 16) :
    putBlock target i
        (((blockAt source i).bswap128.xor (encrypt key (increment^[c] iv))).bswap128) j =
      source j ^^^ keystream encrypt key iv (16 * c + (j - i)) := by
  have hlt : j - i < 16 := by omega
  have hfin : Fin.ofNat 16 (j - i) = ⟨j - i, hlt⟩ := Fin.ext (Nat.mod_eq_of_lt hlt)
  rw [putBlock_of_mem _ _ _ hj hj', hfin, bswap128, Block.xor, bswap128, Fin.rev_rev,
    rev_eq_ofNat, keystream, show (16 * c + (j - i)) / 16 = c by omega,
    show (16 * c + (j - i)) % 16 = j - i by omega, blockAt]
  congr 2
  exact Nat.add_sub_cancel' hj

/-- A block of the data under its own block of the key stream. -/
theorem putBlock_xor (target source : ℕ → U8) (k : ℕ) {j : ℕ} (hj : 16 * k ≤ j)
    (hj' : j < 16 * k + 16) :
    putBlock target (16 * k)
        (((blockAt source (16 * k)).bswap128.xor (encrypt key (increment^[k] iv))).bswap128) j =
      source j ^^^ keystream encrypt key iv j := by
  rw [putBlock_xor_at encrypt key iv target source (16 * k) k hj hj', Nat.add_sub_cancel' hj]

theorem blockAt_congr {a b : ℕ → U8} {i : ℕ} (h : ∀ j, i ≤ j → j < i + 16 → a j = b j) :
    blockAt a i = blockAt b i :=
  funext fun k => h (i + k) (Nat.le_add_right ..) (by omega)

/-! ## The blocks -/

/-- The MAC over the first blocks of the data. -/
def macOver (mac : Block) (data : ℕ → U8) (blocks : ℕ) : Block :=
  chain (encrypt key) Block.xor mac
    ((List.range blocks).map fun k => (blockAt data (16 * k)).bswap128)

theorem macOver_succ (mac : Block) (data : ℕ → U8) (blocks : ℕ) :
    macOver encrypt key mac data (blocks + 1) =
      encrypt key ((macOver encrypt key mac data blocks).xor
        (blockAt data (16 * blocks)).bswap128) := by
  rw [macOver, List.range_succ, List.map_append, List.map_singleton, chain_concat]
  rfl

/-- The data of a block xored twice. -/
theorem xor_keystream_cancel (a : U8) (j : ℕ) :
    a ^^^ keystream encrypt key iv j ^^^ keystream encrypt key iv j = a := by
  rw [BitVec.xor_assoc, BitVec.xor_self, BitVec.xor_zero]

theorem encryptBlocks_spec (data : ℕ → U8) (mac : Block) (n : ℕ) :
    let s := (List.range n).foldl (encryptBlock encrypt) ⟨data, mac, ⟨key, iv⟩⟩
    (∀ j, s.data j = if j < 16 * n then data j ^^^ keystream encrypt key iv j else data j) ∧
      s.mac = macOver encrypt key mac data n ∧ s.ctx = ⟨key, increment^[n] iv⟩ := by
  induction n with
  | zero => exact ⟨fun j => rfl, rfl, rfl⟩
  | succ n ih =>
    obtain ⟨hdata, hmac, hctx⟩ := ih
    rw [List.range_succ, List.foldl_append, List.foldl_cons, List.foldl_nil]
    generalize List.foldl _ _ (List.range n) = s at hdata hmac hctx
    have hblock : blockAt s.data (16 * n) = blockAt data (16 * n) :=
      blockAt_congr fun j hj _ => by rw [hdata, if_neg (by omega)]
    refine ⟨fun j => ?_, ?_, ?_⟩
    · simp only [encryptBlock, xcrypt, hctx, hblock]
      by_cases hin : 16 * n ≤ j ∧ j < 16 * n + 16
      · rw [putBlock_xor encrypt key iv s.data data n hin.1 hin.2, if_pos (by omega)]
      · rw [putBlock_of_not_mem _ _ _ (by omega), hdata]
        split_ifs <;> first | rfl | omega
    · simp only [encryptBlock, xcrypt, hctx, hblock, hmac, macOver_succ]
    · simp only [encryptBlock, xcrypt, hctx, Function.iterate_succ_apply']

theorem decryptBlocks_spec {data cipher : ℕ → U8} (mac : Block) (n : ℕ)
    (h : ∀ j < 16 * n, cipher j = data j ^^^ keystream encrypt key iv j) :
    let s := (List.range n).foldl (decryptBlock encrypt) ⟨cipher, mac, ⟨key, iv⟩⟩
    (∀ j, s.data j = if j < 16 * n then data j else cipher j) ∧
      s.mac = macOver encrypt key mac data n ∧ s.ctx = ⟨key, increment^[n] iv⟩ := by
  induction n with
  | zero => exact ⟨fun j => rfl, rfl, rfl⟩
  | succ n ih =>
    obtain ⟨hdata, hmac, hctx⟩ := ih fun j hj => h j (by omega)
    rw [List.range_succ, List.foldl_append, List.foldl_cons, List.foldl_nil]
    generalize List.foldl _ _ (List.range n) = s at hdata hmac hctx
    have hblock : blockAt s.data (16 * n) = blockAt cipher (16 * n) :=
      blockAt_congr fun j hj _ => by rw [hdata, if_neg (by omega)]
    have hplain : (blockAt cipher (16 * n)).bswap128.xor (encrypt key (increment^[n] iv)) =
        (blockAt data (16 * n)).bswap128 := by
      funext i
      have hput := putBlock_xor encrypt key iv cipher cipher n (j := 16 * n + (15 - i)) (by omega)
        (by omega)
      rw [putBlock_of_mem _ _ _ (by omega) (by omega), h _ (by omega), xor_keystream_cancel,
        Nat.add_sub_cancel_left] at hput
      have hrev : (Fin.ofNat 16 (15 - (i : ℕ))).rev = i := by
        apply Fin.ext
        rw [Fin.val_rev, Fin.val_ofNat]
        omega
      rw [bswap128, hrev] at hput
      rw [hput, bswap128, blockAt, Fin.val_rev]
      congr 1
      omega
    refine ⟨fun j => ?_, ?_, ?_⟩
    · simp only [decryptBlock, xcrypt, hctx, hblock]
      by_cases hin : 16 * n ≤ j ∧ j < 16 * n + 16
      · rw [putBlock_xor encrypt key iv s.data cipher n hin.1 hin.2, h j (by omega),
          xor_keystream_cancel, if_pos (by omega)]
      · rw [putBlock_of_not_mem _ _ _ (by omega), hdata]
        split_ifs <;> first | rfl | omega
    · simp only [decryptBlock, xcrypt, hctx, hblock, hplain, hmac, macOver_succ]
    · simp only [decryptBlock, xcrypt, hctx, Function.iterate_succ_apply']

variable {encrypt key iv}

/-! ## The tail -/

theorem storeRem_loadRem (target source : ℕ → U8) (rem : Block) (q remlen : ℕ) (hrem : remlen < 16)
    {j : ℕ} (hj : 16 * q ≤ j) (hj' : j < 16 * q + remlen) :
    storeRem ((loadRem rem source (16 * q) remlen).xor (encrypt key (increment^[q] iv))) target
        (16 * q) remlen j =
      source j ^^^ keystream encrypt key iv j := by
  have hval : ((Fin.ofNat 16 (15 - (j - 16 * q)) : Fin 16) : ℕ) = 15 - (j - 16 * q) :=
    Nat.mod_eq_of_lt (by omega)
  have hback : 15 - (15 - (j - 16 * q)) = j - 16 * q := by omega
  rw [storeRem, if_pos ⟨hj, hj'⟩, Block.xor, loadRem, hval, hback, if_pos (by omega),
    Nat.add_sub_cancel' hj, keystream, show j / 16 = q by omega, show j % 16 = j - 16 * q by omega]

theorem storeRem_of_not_mem (rem : Block) (data : ℕ → U8) {coarselen remlen j : ℕ}
    (h : j < coarselen ∨ coarselen + remlen ≤ j) : storeRem rem data coarselen remlen j = data j := by
  rw [storeRem, if_neg (by omega)]

theorem esIV_counterValue (data : ℕ → U8) (len : ℕ) : (esIV data len).counterValue = 1 := by
  simp [counterValue, esIV]

/-- The counter that the blocks before the tail have reached. -/
theorem setCounter_eq_iterate {iv : Block} (hone : iv.counterValue = 1) {q : ℕ}
    (hq : q + 1 < 0x1000000) :
    iv.setCounter (BitVec.ofNat 8 ((q + 1) / 0x10000)) (BitVec.ofNat 8 ((q + 1) / 0x100))
      (BitVec.ofNat 8 (q + 1)) = increment^[q] iv := by
  have hroom : iv.counterValue + q < 0x1000000 := by
    rw [hone]
    omega
  obtain ⟨hvalue, hsame⟩ := increment_iterate hroom
  rw [hone] at hvalue
  unfold counterValue at hvalue
  have h13 := (increment^[q] iv 13).isLt
  have h14 := (increment^[q] iv 14).isLt
  have h15 := (increment^[q] iv 15).isLt
  funext i
  simp only [setCounter, Function.update_apply]
  split_ifs with hi15 hi14 hi13
  · subst hi15
    apply BitVec.eq_of_toNat_eq
    rw [BitVec.toNat_ofNat]
    omega
  · subst hi14
    apply BitVec.eq_of_toNat_eq
    rw [BitVec.toNat_ofNat]
    omega
  · subst hi13
    apply BitVec.eq_of_toNat_eq
    rw [BitVec.toNat_ofNat]
    omega
  · refine (hsame i ?_).symm
    have := i.isLt
    have h15' : (i : ℕ) ≠ 15 := fun heq => hi15 (Fin.ext heq)
    have h14' : (i : ℕ) ≠ 14 := fun heq => hi14 (Fin.ext heq)
    have h13' : (i : ℕ) ≠ 13 := fun heq => hi13 (Fin.ext heq)
    omega

/-- What the blocks and the tail leave of the data. -/
def encryptBody (encrypt : Block → Block → Block) (s : ES) (len : ℕ) : ES :=
  let s := (List.range (len / 16)).foldl (encryptBlock encrypt) s
  if len - len / 16 * 16 ≠ 0 then
    encryptRem encrypt s (len / 16 * 16) (len - len / 16 * 16) else s

def decryptBody (encrypt : Block → Block → Block) (iv : Block) (s : ES) (len : ℕ) : ES :=
  let s := (List.range (len / 16)).foldl (decryptBlock encrypt) s
  if len - len / 16 * 16 ≠ 0 then
    decryptRem encrypt iv s (len / 16 * 16) (len - len / 16 * 16) else s

/-- The MAC over all of the data. -/
def macOf (encrypt : Block → Block → Block) (key mac : Block) (data : ℕ → U8) (len : ℕ) : Block :=
  let mac := macOver encrypt key mac data (len / 16)
  if len - len / 16 * 16 ≠ 0 then
    encrypt key (mac.xor (loadRem zero data (len / 16 * 16) (len - len / 16 * 16))) else mac

theorem encryptBody_spec (encrypt : Block → Block → Block) (key iv : Block) (data : ℕ → U8) (mac : Block) (len : ℕ) :
    let s := encryptBody encrypt ⟨data, mac, ⟨key, iv⟩⟩ len
    (∀ j, s.data j = if j < len then data j ^^^ keystream encrypt key iv j else data j) ∧
      s.mac = macOf encrypt key mac data len ∧
      s.ctx = ⟨key, increment^[(len + 15) / 16] iv⟩ := by
  obtain ⟨hdata, hmac, hctx⟩ :=
    encryptBlocks_spec encrypt key iv data mac (len / 16)
  unfold encryptBody macOf
  dsimp only at hdata hmac hctx ⊢
  generalize List.foldl _ _ (List.range (len / 16)) = s at hdata hmac hctx
  rw [Nat.mul_comm (len / 16) 16]
  split_ifs with hrem
  · have hload : loadRem zero s.data (16 * (len / 16)) (len - 16 * (len / 16)) =
        loadRem zero data (16 * (len / 16)) (len - 16 * (len / 16)) := by
      funext i
      simp only [loadRem]
      split_ifs
      · rw [hdata, if_neg (by omega)]
      · rfl
    refine ⟨fun j => ?_, ?_, ?_⟩
    · simp only [encryptRem, xcrypt, hctx, hload]
      by_cases hin : 16 * (len / 16) ≤ j ∧ j < len
      · rw [storeRem_loadRem _ _ _ _ _ (by omega) hin.1 (by omega), if_pos hin.2]
      · rw [storeRem_of_not_mem _ _ (by omega), hdata]
        split_ifs <;> first | rfl | omega
    · simp only [encryptRem, xcrypt, hctx, hload, hmac]
    · simp only [encryptRem, xcrypt, hctx]
      rw [show (len + 15) / 16 = len / 16 + 1 by omega, Function.iterate_succ_apply']
  · refine ⟨fun j => ?_, hmac, ?_⟩
    · rw [hdata, show 16 * (len / 16) = len by omega]
    · rw [hctx, show (len + 15) / 16 = len / 16 by omega]

theorem decryptBody_spec (encrypt : Block → Block → Block) (key : Block) {data cipher : ℕ → U8}
    (mac : Block) {len : ℕ}
    (hone : iv.counterValue = 1) (hlen : len < 0x1000000)
    (h : ∀ j < len, cipher j = data j ^^^ keystream encrypt key iv j) :
    let s := decryptBody encrypt iv ⟨cipher, mac, ⟨key, iv⟩⟩ len
    (∀ j, s.data j = if j < len then data j else cipher j) ∧
      s.mac = macOf encrypt key mac data len ∧
      s.ctx = ⟨key, increment^[(len + 15) / 16] iv⟩ := by
  obtain ⟨hdata, hmac, hctx⟩ := decryptBlocks_spec encrypt key iv mac (len / 16) fun j hj => h j (by omega)
  unfold decryptBody macOf
  dsimp only at hdata hmac hctx ⊢
  generalize List.foldl _ _ (List.range (len / 16)) = s at hdata hmac hctx
  rw [Nat.mul_comm (len / 16) 16]
  split_ifs with hrem
  · have hcounter : iv.setCounter (BitVec.ofNat 8 ((len / 16 + 1) / 0x10000))
        (BitVec.ofNat 8 ((len / 16 + 1) / 0x100)) (BitVec.ofNat 8 (len / 16 + 1)) =
          increment^[len / 16] iv := setCounter_eq_iterate hone (by omega)
    have hdiv : 16 * (len / 16) / 16 = len / 16 := by omega
    -- the padding is the key stream twice, the data the key stream once more
    have hplain : (loadRem (zero.xor (encrypt key (increment^[len / 16] iv))) s.data
          (16 * (len / 16)) (len - 16 * (len / 16))).xor (encrypt key (increment^[len / 16] iv)) =
        loadRem zero data (16 * (len / 16)) (len - 16 * (len / 16)) := by
      funext i
      have hi := i.isLt
      simp only [Block.xor, loadRem]
      split_ifs with hin
      · have hfin : Fin.ofNat 16 (15 - (16 * (len / 16) + (15 - (i : ℕ))) % 16) = i := by
          apply Fin.ext
          rw [Fin.val_ofNat]
          omega
        rw [hdata, if_neg (by omega), h _ (by omega), keystream, hfin,
          show (16 * (len / 16) + (15 - (i : ℕ))) / 16 = len / 16 by omega, BitVec.xor_assoc,
          BitVec.xor_self, BitVec.xor_zero]
      · rw [BitVec.xor_assoc, BitVec.xor_self, BitVec.xor_zero]
    refine ⟨fun j => ?_, ?_, ?_⟩
    · simp only [decryptRem, xcrypt, hctx, hdiv, hcounter, hplain]
      by_cases hin : 16 * (len / 16) ≤ j ∧ j < len
      · have hval : ((Fin.ofNat 16 (15 - (j - 16 * (len / 16))) : Fin 16) : ℕ) =
            15 - (j - 16 * (len / 16)) := Nat.mod_eq_of_lt (by omega)
        rw [storeRem, if_pos ⟨hin.1, by omega⟩, loadRem, hval, if_pos (by omega), if_pos hin.2]
        congr 1
        omega
      · rw [storeRem_of_not_mem _ _ (by omega), hdata]
        split_ifs <;> first | rfl | omega
    · simp only [decryptRem, xcrypt, hctx, hdiv, hcounter, hplain, hmac]
    · simp only [decryptRem, xcrypt, hctx, hdiv, hcounter]
      rw [show (len + 15) / 16 = len / 16 + 1 by omega, Function.iterate_succ_apply']
  · refine ⟨fun j => ?_, hmac, ?_⟩
    · rw [hdata, show 16 * (len / 16) = len by omega]
    · rw [hctx, show (len + 15) / 16 = len / 16 by omega]

/-! ## The footer -/

/-- The footer before its encryption. -/
def footerOf (uninit : Block) (len : ℕ) : Block :=
  Function.update (Function.update (Function.update (Function.update uninit 15 0x3A)
    2 (BitVec.ofNat 8 (len / 0x10000))) 1 (BitVec.ofNat 8 (len / 0x100))) 0 (BitVec.ofNat 8 len)

theorem footerOf_length (uninit : Block) {len : ℕ} (hlen : len < 0x1000000) :
    (footerOf uninit len 0).toNat + (footerOf uninit len 1).toNat * 0x100 +
      (footerOf uninit len 2).toNat * 0x10000 = len := by
  have h0 : footerOf uninit len 0 = BitVec.ofNat 8 len := Function.update_self ..
  have h1 : footerOf uninit len 1 = BitVec.ofNat 8 (len / 0x100) := by
    rw [footerOf, Function.update_of_ne (by decide), Function.update_self]
  have h2 : footerOf uninit len 2 = BitVec.ofNat 8 (len / 0x10000) := by
    rw [footerOf, Function.update_of_ne (by decide), Function.update_of_ne (by decide),
      Function.update_self]
  rw [h0, h1, h2, BitVec.toNat_ofNat, BitVec.toNat_ofNat, BitVec.toNat_ofNat]
  omega

theorem esEncrypt_eq (encrypt : Block → Block → Block) (key uninit : Block) (data : ℕ → U8)
    (len : ℕ) :
    let s := encryptBody encrypt (esStart encrypt key data len) len
    let tagged := putBlock s.data len (finishMAC encrypt s).bswap128
    esEncrypt encrypt key uninit data len =
      (true, storeFooter tagged len
        ((footerOf uninit len).xor (encrypt key (footerIV tagged len)))) := rfl

theorem esDecrypt_eq (encrypt : Block → Block → Block) (key : Block) (data : ℕ → U8) (len : ℕ) :
    let t := decryptBody encrypt (esIV data len) (esStart encrypt key data len) len
    let footer := (blockAt t.data (len + 0x10)).bswap128.xor (encrypt key (footerIV t.data len))
    esDecrypt encrypt key data len =
      if (footer 0).toNat + (footer 1).toNat * 0x100 + (footer 2).toNat * 0x10000 ≠ len then
        (false, storeFooter t.data len footer)
      else if ∃ i : Fin 16,
          storeFooter t.data len footer (len + i) ≠ finishMAC encrypt t i.rev then
        (false, storeFooter t.data len footer)
      else (true, storeFooter t.data len footer) := rfl

theorem storeFooter_of_ne (data : ℕ → U8) (footer : Block) {len j : ℕ}
    (h : j < len + 0x10 ∨ len + 0x10 < j ∧ j < len + 0x1D ∨ len + 0x20 ≤ j) :
    storeFooter data len footer j = data j := by
  rw [storeFooter, Function.update_of_ne (by omega), Function.update_of_ne (by omega),
    Function.update_of_ne (by omega), Function.update_of_ne (by omega)]

theorem storeFooter_bytes (data : ℕ → U8) (footer : Block) (len : ℕ) :
    storeFooter data len footer (len + 0x1F) = footer 0 ∧
      storeFooter data len footer (len + 0x1E) = footer 1 ∧
      storeFooter data len footer (len + 0x1D) = footer 2 := by
  refine ⟨?_, ?_, ?_⟩
  · rw [storeFooter, Function.update_self]
  · rw [storeFooter, Function.update_of_ne (by omega), Function.update_self]
  · rw [storeFooter, Function.update_of_ne (by omega), Function.update_of_ne (by omega),
      Function.update_self]

/-- The counter blocks come from the nonce, which neither direction writes. -/
theorem esIV_congr {a b : ℕ → U8} {len : ℕ}
    (h : ∀ j, len + 0x11 ≤ j → j ≤ len + 0x1C → a j = b j) :
    esIV a len = esIV b len ∧ footerIV a len = footerIV b len := by
  constructor
  · funext i
    unfold esIV
    split_ifs
    · rfl
    · exact h _ (by omega) (by omega)
    · rfl
    · rfl
  · funext i
    unfold footerIV
    split_ifs
    · exact h _ (by omega) (by omega)
    · rfl

/-- The decryption of what the encryption made of the data. -/
theorem es_round_trip (encrypt : Block → Block → Block) (key uninit : Block) (data : ℕ → U8)
    {len : ℕ} (hlen : len < 0x1000000) :
    let cipher := (esEncrypt encrypt key uninit data len).2
    let plain := (esDecrypt encrypt key cipher len).2
    (esEncrypt encrypt key uninit data len).1 = true ∧
      (esDecrypt encrypt key cipher len).1 = true ∧
      (∀ j < len, plain j = data j) ∧
      (∀ j, len + 0x11 ≤ j → j ≤ len + 0x1C → cipher j = data j ∧ plain j = data j) ∧
      ∀ j, len + 0x20 ≤ j → cipher j = data j ∧ plain j = data j := by
  obtain ⟨hsdata, hsmac, hsctx⟩ := encryptBody_spec encrypt key
    (esIV data len) data (encrypt key (macHeader (esIV data len) len)) len
  have henc := esEncrypt_eq encrypt key uninit data len
  unfold esStart at henc
  dsimp only at hsdata hsmac hsctx henc
  generalize encryptBody encrypt _ len = s at hsdata hsmac hsctx henc
  rw [henc]
  dsimp only
  generalize hfooter : (footerOf uninit len).xor (encrypt key
    (footerIV (putBlock s.data len (finishMAC encrypt s).bswap128) len)) = footer
  generalize htagged : putBlock s.data len (finishMAC encrypt s).bswap128 = tagged at hfooter
  generalize hcipher : storeFooter tagged len footer = cipher
  -- the bytes of the encryption: the data, the MAC, the nonce and the footer
  have hin : ∀ j < len, cipher j = data j ^^^ keystream encrypt key (esIV data len) j := by
    intro j hj
    rw [← hcipher, storeFooter_of_ne _ _ (by omega), ← htagged,
      putBlock_of_not_mem _ _ _ (by omega), hsdata, if_pos hj]
  have hmac : ∀ i : Fin 16, cipher (len + i) = finishMAC encrypt s i.rev := by
    intro i
    have hval : Fin.ofNat 16 (len + i - len) = i := by
      rw [Nat.add_sub_cancel_left]
      exact Fin.ext (Nat.mod_eq_of_lt i.isLt)
    rw [← hcipher, storeFooter_of_ne _ _ (by omega), ← htagged,
      putBlock_of_mem _ _ _ (by omega) (by omega), hval, bswap128]
  have hkept : ∀ j, len + 0x10 < j ∧ j < len + 0x1D ∨ len + 0x20 ≤ j →
      tagged j = data j ∧ cipher j = data j := by
    intro j hj
    have htag : tagged j = data j := by
      rw [← htagged, putBlock_of_not_mem _ _ _ (by omega), hsdata, if_neg (by omega)]
    exact ⟨htag, by rw [← hcipher, storeFooter_of_ne _ _ (by omega), htag]⟩
  have hiv : esIV cipher len = esIV data len :=
    (esIV_congr fun j hj hj' => (hkept j (by omega)).2).1
  -- the decryption of those bytes
  obtain ⟨htdata, htmac, htctx⟩ := decryptBody_spec encrypt key
    (encrypt key (macHeader (esIV data len) len)) (esIV_counterValue data len) hlen hin
  have hdec := esDecrypt_eq encrypt key cipher len
  unfold esStart at hdec
  rw [hiv] at hdec
  dsimp only at htdata htmac htctx hdec
  generalize decryptBody encrypt (esIV data len) _ len = t at htdata htmac htctx hdec
  have hfinish : finishMAC encrypt t = finishMAC encrypt s := by
    rw [finishMAC, finishMAC, htmac, hsmac, htctx, hsctx]
  have hfooterIV : footerIV t.data len = footerIV tagged len :=
    (esIV_congr fun j hj hj' => by
      rw [htdata, if_neg (by omega), (hkept j (by omega)).1, (hkept j (by omega)).2]).2
  have hbytes : ∀ k : Fin 16, k = 0 ∨ k = 1 ∨ k = 2 →
      ((blockAt t.data (len + 0x10)).bswap128.xor (encrypt key (footerIV t.data len))) k =
        footerOf uninit len k := by
    obtain ⟨h0, h1, h2⟩ := storeFooter_bytes tagged footer len
    rw [hcipher] at h0 h1 h2
    intro k hk
    have hbyte : blockAt t.data (len + 0x10) k.rev = footer k := by
      rw [blockAt, htdata, if_neg (by omega)]
      rcases hk with rfl | rfl | rfl
      · exact h0
      · exact h1
      · exact h2
    rw [Block.xor, bswap128, hbyte, hfooterIV, ← hfooter, Block.xor, BitVec.xor_assoc,
      BitVec.xor_self, BitVec.xor_zero]
  have hlength := footerOf_length uninit hlen
  rw [← hbytes 0 (.inl rfl), ← hbytes 1 (.inr (.inl rfl)), ← hbytes 2 (.inr (.inr rfl))] at hlength
  generalize (blockAt t.data (len + 0x10)).bswap128.xor (encrypt key (footerIV t.data len)) =
    footer' at hdec hlength
  have htag : ¬∃ i : Fin 16, storeFooter t.data len footer' (len + i) ≠ finishMAC encrypt t i.rev := by
    rintro ⟨i, hi⟩
    apply hi
    rw [storeFooter_of_ne _ _ (by omega), htdata, if_neg (by omega), hmac, hfinish]
  rw [if_neg (not_not.mpr hlength), if_neg htag] at hdec
  rw [hdec]
  dsimp only
  refine ⟨rfl, rfl, fun j hj => ?_, fun j hj hj' => ⟨(hkept j (by omega)).2, ?_⟩,
    fun j hj => ⟨(hkept j (by omega)).2, ?_⟩⟩
  · rw [storeFooter_of_ne _ _ (by omega), htdata, if_pos hj]
  · rw [storeFooter_of_ne _ _ (by omega), htdata, if_neg (by omega), (hkept j (by omega)).2]
  · rw [storeFooter_of_ne _ _ (by omega), htdata, if_neg (by omega), (hkept j (by omega)).2]

end MelonDS.DSi.NAND

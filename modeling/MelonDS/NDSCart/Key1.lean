import MelonDS.Library.Feistel
import MelonDS.NDSCart.RomBus

/-!
# KEY1

The cipher of commands and of the secure area: sixteen rounds over a table of 18 keys and four
boxes of 256 words. The table comes from a BIOS and is then changed by the game code, with the
cipher itself.
-/

namespace MelonDS.NDSCart

def byteSwap (val : U32) : U32 :=
  val >>> 24 ||| val >>> 8 &&& 0xFF00 ||| val <<< 8 &&& 0xFF0000 ||| val <<< 24

/-- `Key1_KeyBuf` -/
abbrev KeyBuf := Fin 0x412 → U32

namespace KeyBuf

/-- `Key1_KeyBuf[i]` -/
def entry (k : KeyBuf) (i : ℕ) : U32 := k ⟨i % 0x412, Nat.mod_lt i (Nat.succ_pos 0x411)⟩

/-- `Key1_KeyBuf[i] = val` -/
def setEntry (k : KeyBuf) (i : ℕ) (val : U32) : KeyBuf :=
  Function.update k ⟨i % 0x412, Nat.mod_lt i (Nat.succ_pos 0x411)⟩ val

/-- What the four boxes make of a word. -/
def mix (k : KeyBuf) (z : U32) : U32 :=
  let x := k.entry (0x012 + (z >>> 24).toNat)
  let x := x + k.entry (0x112 + (z >>> 16 &&& 0xFF).toNat)
  let x := x ^^^ k.entry (0x212 + (z >>> 8 &&& 0xFF).toNat)
  x + k.entry (0x312 + (z &&& 0xFF).toNat)

/-- The body of both loops, on `(x, y)`. -/
def key1Round (k : KeyBuf) (i : ℕ) (s : U32 × U32) : U32 × U32 :=
  let z := k.entry i ^^^ s.1
  (k.mix z ^^^ s.2, z)

def key1Encrypt (k : KeyBuf) (data : U32 × U32) : U32 × U32 :=
  let s := (List.range 0x10).foldl (fun s i => k.key1Round i s) (data.2, data.1)
  (s.1 ^^^ k.entry 0x10, s.2 ^^^ k.entry 0x11)

/-- The loop counts down from 0x11 to 2. -/
def key1Decrypt (k : KeyBuf) (data : U32 × U32) : U32 × U32 :=
  let s := (List.range 0x10).foldl (fun s i => k.key1Round (0x11 - i) s) (data.2, data.1)
  (s.1 ^^^ k.entry 0x1, s.2 ^^^ k.entry 0x0)

/-! ## The table of a game -/

/-- `keycode`, the three words that the game code is spread over. -/
structure Keycode where
  w0 : U32
  w1 : U32
  w2 : U32

/-- `keycode[i]` -/
def Keycode.word (c : Keycode) : ℕ → U32
  | 0 => c.w0
  | 1 => c.w1
  | _ => c.w2

def applyKeycode (mod : ℕ) (c : Keycode) (k : KeyBuf) : Keycode × KeyBuf :=
  let upper := k.key1Encrypt (c.w1, c.w2)
  let lower := k.key1Encrypt (c.w0, upper.1)
  let c : Keycode := ⟨lower.1, lower.2, upper.2⟩
  let k := (List.range 0x12).foldl
    (fun k i => k.setEntry i (k.entry i ^^^ byteSwap (c.word (i % mod)))) k
  let s := (List.range 0x209).foldl (fun (s : KeyBuf × U32 × U32) j =>
    let temp := s.1.key1Encrypt s.2
    ((s.1.setEntry (2 * j) temp.2).setEntry (2 * j + 1) temp.1, temp)) (k, 0, 0)
  (c, s.1)

end KeyBuf

/-- The BIOS images of the console, and whether it is a DSi. -/
structure BIOSImages where
  isDSi : Bool
  arm7i : ℕ → U8
  arm9i : ℕ → U8
  arm7 : ℕ → U8
  arm7Native : Bool

namespace KeyBuf

def loadKeyBuf (b : BIOSImages) (dsiMode : Bool) : KeyBuf := fun i =>
  if b.isDSi then
    if dsiMode then word b.arm7i (0xC6D0 + 4 * i) else word b.arm9i (0x99A0 + 4 * i)
  else if b.arm7Native then word b.arm7 (0x0030 + 4 * i)
  else 0

def initKeycode (b : BIOSImages) (dsi : Bool) (idcode : U32) (level mod : ℕ) : KeyBuf :=
  let s : Keycode × KeyBuf := (⟨idcode, idcode >>> 1, idcode <<< 1⟩, loadKeyBuf b dsi)
  let s := if 1 ≤ level then applyKeycode mod s.1 s.2 else s
  let s := if 2 ≤ level then applyKeycode mod s.1 s.2 else s
  if 3 ≤ level then
    (applyKeycode mod { s.1 with w1 := s.1.w1 <<< 1, w2 := s.1.w2 >>> 1 } s.2).2
  else s.2

/-! ## Decryption undoes encryption -/

/-- No access to the table is reduced. -/
theorem mix_index_lt (z : U32) :
    0x012 + (z >>> 24).toNat < 0x112 ∧ 0x112 + (z >>> 16 &&& 0xFF).toNat < 0x212 ∧
      0x212 + (z >>> 8 &&& 0xFF).toNat < 0x312 ∧ 0x312 + (z &&& 0xFF).toNat < 0x412 := by
  have hbyte (v : U32) : (v &&& 0xFF).toNat ≤ 0xFF := by
    rw [BitVec.toNat_and]
    exact Nat.and_le_right
  have hhigh : (z >>> 24).toNat ≤ 0xFF := by
    have hlt := z.isLt
    rw [BitVec.toNat_ushiftRight, Nat.shiftRight_eq_div_pow]
    omega
  have h1 := hbyte (z >>> 16)
  have h2 := hbyte (z >>> 8)
  have h3 := hbyte z
  omega

theorem key1Encrypt_eq (k : KeyBuf) (data : U32 × U32) :
    k.key1Encrypt data = Feistel.crypt k.mix k.entry 0x10 data := rfl

theorem key1Decrypt_eq (k : KeyBuf) (data : U32 × U32) :
    k.key1Decrypt data = Feistel.crypt k.mix (Feistel.flip k.entry 0x10) 0x10 data := rfl

@[simp] theorem key1Decrypt_key1Encrypt (k : KeyBuf) (data : U32 × U32) :
    k.key1Decrypt (k.key1Encrypt data) = data := by
  rw [key1Decrypt_eq, key1Encrypt_eq, Feistel.crypt_flip]

@[simp] theorem key1Encrypt_key1Decrypt (k : KeyBuf) (data : U32 × U32) :
    k.key1Encrypt (k.key1Decrypt data) = data := by
  rw [key1Encrypt_eq, key1Decrypt_eq, Feistel.crypt_unflip]

end KeyBuf
end MelonDS.NDSCart

import Mathlib.Tactic.FinCases
import MelonDS.Library.Memory
import MelonDS.Library.LittleEndian
import MelonDS.NDSCart.Key1

/-!
# The secure area

The first 0x800 bytes of the ARM9 program are kept under KEY1. The slot encrypts a ROM that was
dumped in the clear when the cart goes in, and direct boot decrypts what it loads.
-/

namespace MelonDS.NDSCart

/-- The two words of a block of eight bytes. -/
def blockWords (b : Bytes 8) : U32 × U32 := (b 3 ++ b 2 ++ b 1 ++ b 0, b 7 ++ b 6 ++ b 5 ++ b 4)

def ofWords (d : U32 × U32) : Bytes 8 := fun k =>
  if k.val < 4 then d.1.extractLsb' (8 * k) 8 else d.2.extractLsb' (8 * (k - 4)) 8

/-- A cipher on the two words at `(u32*)&mem[a]`. -/
def onWords (cipher : U32 × U32 → U32 × U32) (b : Bytes 8) : Bytes 8 := ofWords (cipher (blockWords b))

/-- `"encryObj"` -/
def encryObj : Bytes 8 := fun k =>
  [0x65, 0x6E, 0x63, 0x72, 0x79, 0x4F, 0x62, 0x6A].getD k 0

namespace SecureArea

/-- What `SetCart` does to the ROM. -/
def reencrypt (b : BIOSImages) (arm9ROMOffset : ℕ) (gameCode : U32) (rom : Mem) : Mem :=
  if 0x4000 ≤ arm9ROMOffset ∧ arm9ROMOffset < 0x8000 then
    if word rom arm9ROMOffset = 0xE7FFDEFF ∧ word rom (arm9ROMOffset + 0x10) ≠ 0xE7FFDEFF then
      let rom := rom.store arm9ROMOffset encryObj
      let k := KeyBuf.initKeycode b false gameCode 3 2
      let rom := rom.mapBlocks (onWords k.key1Encrypt) arm9ROMOffset 0x100
      let k := KeyBuf.initKeycode b false gameCode 2 2
      rom.mapBlock (onWords k.key1Encrypt) arm9ROMOffset
    else rom
  else rom

/-- The two passes of `DecryptSecureArea` over `out`. -/
def decryptBlocks (b : BIOSImages) (gamecode : U32) (out : Mem) : Mem :=
  let k := KeyBuf.initKeycode b false gamecode 2 2
  let out := out.mapBlock (onWords k.key1Decrypt) 0
  let k := KeyBuf.initKeycode b false gamecode 3 2
  out.mapBlocks (onWords k.key1Decrypt) 0 0x100

/-- The contents of `out`. -/
def decryptSecureArea (b : BIOSImages) (arm9base : ℕ) (gamecode : U32) (cartrom : Mem) : Mem :=
  let out := decryptBlocks b gamecode fun i => if i < 0x800 then cartrom (arm9base + i) else 0
  if out.load 8 0 = encryObj then out.store 0 (ofWords (0xE7FFDEFF, 0xE7FFDEFF))
  else out.mapBlocks (fun _ => ofWords (0xE7FFDEFF, 0xE7FFDEFF)) 0 0x100

end SecureArea

/-! ## Words and bytes -/

theorem blockWords_ofWords (d : U32 × U32) : blockWords (ofWords d) = d :=
  Prod.ext (append_bytes d.1) (append_bytes d.2)

theorem ofWords_blockWords (b : Bytes 8) : ofWords (blockWords b) = b := by
  obtain ⟨h0, h1, h2, h3⟩ := bytes_append (b 3) (b 2) (b 1) (b 0)
  obtain ⟨h4, h5, h6, h7⟩ := bytes_append (b 7) (b 6) (b 5) (b 4)
  funext k
  fin_cases k
  · exact h0
  · exact h1
  · exact h2
  · exact h3
  · exact h4
  · exact h5
  · exact h6
  · exact h7

/-- One cipher undoes another on the bytes as it does on the words. -/
theorem onWords_onWords {f g : U32 × U32 → U32 × U32} (h : ∀ d, g (f d) = d) (b : Bytes 8) :
    onWords g (onWords f b) = b := by
  rw [onWords, onWords, blockWords_ofWords, h, ofWords_blockWords]

/-- A block is known from its words. -/
theorem load_eq_ofWords {mem : Mem} {a : ℕ} {v : U32} (h0 : word mem a = v)
    (h4 : word mem (a + 4) = v) : mem.load 8 a = ofWords (v, v) := by
  have hwords : blockWords (mem.load 8 a) = (v, v) := Prod.ext h0 h4
  rw [← hwords, ofWords_blockWords]

namespace SecureArea

/-- The blocks that go into encryption. -/
def marked (base : ℕ) (rom : Mem) (i : ℕ) : Bytes 8 :=
  if i = 0 then encryObj else rom.load 8 (base + 8 * i)

variable {b : BIOSImages} {gameCode : U32} {base : ℕ} {rom : Mem}

theorem load_store_zero (base : ℕ) (v : Bytes 8) (i : ℕ) (mem : Mem) :
    (mem.store base v).load 8 (base + 8 * i) = if i = 0 then v else mem.load 8 (base + 8 * i) := by
  split_ifs with hi
  · rw [hi]
    exact mem.load_store base v
  · exact mem.load_store_of_disjoint v (.inl (by omega))

/-- A cipher on the first block alone. -/
theorem load_mapBlock_zero (f : Bytes 8 → Bytes 8) (base i : ℕ) (mem : Mem) :
    (mem.mapBlock f base).load 8 (base + 8 * i) =
      if i = 0 then f (mem.load 8 base) else mem.load 8 (base + 8 * i) :=
  load_store_zero base _ i mem

/-- The blocks after encryption: all of them at level 3, the first one at level 2 over that. -/
theorem load_reencrypt (hbase : 0x4000 ≤ base ∧ base < 0x8000)
    (hplain : word rom base = 0xE7FFDEFF ∧ word rom (base + 0x10) ≠ 0xE7FFDEFF) {i : ℕ}
    (hi : i < 0x100) :
    (reencrypt b base gameCode rom).load 8 (base + 8 * i) =
      let first := onWords (KeyBuf.initKeycode b false gameCode 2 2).key1Encrypt
      let all := onWords (KeyBuf.initKeycode b false gameCode 3 2).key1Encrypt
      if i = 0 then first (all (marked base rom i)) else all (marked base rom i) := by
  rw [reencrypt, if_pos hbase, if_pos hplain]
  dsimp only
  have hall (j : ℕ) (hj : j < 0x100) := Mem.load_mapBlocks
    (onWords (KeyBuf.initKeycode b false gameCode 3 2).key1Encrypt) base
    (rom.store base encryObj) hj
  have hzero := hall 0 (by decide)
  rw [Nat.mul_zero, Nat.add_zero] at hzero
  rw [load_mapBlock_zero, hall i hi, hzero, load_store_zero, Mem.load_store, marked]
  split_ifs <;> rfl

theorem load_decryptBlocks (out : Mem) {i : ℕ} (hi : i < 0x100) :
    (decryptBlocks b gameCode out).load 8 (0 + 8 * i) =
      let first := onWords (KeyBuf.initKeycode b false gameCode 2 2).key1Decrypt
      let all := onWords (KeyBuf.initKeycode b false gameCode 3 2).key1Decrypt
      all (if i = 0 then first (out.load 8 0) else out.load 8 (0 + 8 * i)) := by
  rw [decryptBlocks]
  dsimp only
  rw [Mem.load_mapBlocks _ _ _ hi, load_mapBlock_zero]

/-- The passes give back the blocks that went into encryption. -/
theorem load_decryptBlocks_reencrypt (hbase : 0x4000 ≤ base ∧ base < 0x8000)
    (hplain : word rom base = 0xE7FFDEFF ∧ word rom (base + 0x10) ≠ 0xE7FFDEFF) {out : Mem}
    (hout : ∀ i < 0x800, out i = reencrypt b base gameCode rom (base + i)) {i : ℕ}
    (hi : i < 0x100) :
    (decryptBlocks b gameCode out).load 8 (0 + 8 * i) = marked base rom i := by
  have hundo (level : ℕ) := onWords_onWords
    (KeyBuf.initKeycode b false gameCode level 2).key1Decrypt_key1Encrypt
  have hload (j : ℕ) (hj : j < 0x100) :
      out.load 8 (0 + 8 * j) = (reencrypt b base gameCode rom).load 8 (base + 8 * j) := by
    funext k
    have hk := k.isLt
    rw [Mem.load, Mem.load, hout _ (by omega), Nat.zero_add, Nat.add_assoc]
  rw [load_decryptBlocks out hi]
  dsimp only
  split_ifs with hzero
  · have hfirst := hload 0 (by decide)
    rw [load_reencrypt hbase hplain (by decide)] at hfirst
    rw [hzero]
    change onWords _ (onWords _ (out.load 8 (0 + 8 * 0))) = _
    rw [hfirst]
    dsimp only
    rw [if_pos rfl, hundo 2, hundo 3]
  · rw [hload i hi, load_reencrypt hbase hplain hi]
    dsimp only
    rw [if_neg hzero, hundo 3]

end SecureArea

/-- KEY1 decryption and encryption undo each other, and a secure area in the clear comes back
from encryption and decryption with the same game code. -/
theorem key1_round_trip :
    (∀ (k : KeyBuf) (data : U32 × U32),
      k.key1Decrypt (k.key1Encrypt data) = data ∧ k.key1Encrypt (k.key1Decrypt data) = data) ∧
    ∀ (b : BIOSImages) (gameCode : U32) (base : ℕ) (rom : Mem),
      0x4000 ≤ base → base < 0x8000 → word rom base = 0xE7FFDEFF →
      word rom (base + 4) = 0xE7FFDEFF → word rom (base + 0x10) ≠ 0xE7FFDEFF →
      ∀ i < 0x800,
        SecureArea.decryptSecureArea b base gameCode (SecureArea.reencrypt b base gameCode rom) i =
          rom (base + i) := by
  constructor
  · intro k data
    exact ⟨k.key1Decrypt_key1Encrypt data, k.key1Encrypt_key1Decrypt data⟩
  intro b gameCode base rom hlow hhigh h0 h4 h10
  set rom' := SecureArea.reencrypt b base gameCode rom
  set out := SecureArea.decryptBlocks b gameCode fun i => if i < 0x800 then rom' (base + i) else 0
    with hout
  have hblocks : ∀ i < 0x100, out.load 8 (0 + 8 * i) = SecureArea.marked base rom i := by
    intro i hi
    exact SecureArea.load_decryptBlocks_reencrypt ⟨hlow, hhigh⟩ ⟨h0, h10⟩
      (fun j hj => if_pos hj) hi
  have hfound : out.load 8 0 = encryObj := by
    have hzero := hblocks 0 (by decide)
    rw [SecureArea.marked, if_pos rfl] at hzero
    exact hzero
  have hresult : SecureArea.decryptSecureArea b base gameCode rom' =
      out.store 0 (ofWords (0xE7FFDEFF, 0xE7FFDEFF)) := by
    rw [SecureArea.decryptSecureArea, ← hout, if_pos hfound]
  have hload : ∀ i < 0x100,
      (SecureArea.decryptSecureArea b base gameCode rom').load 8 (0 + 8 * i) =
        rom.load 8 (base + 8 * i) := by
    intro i hi
    rw [hresult, SecureArea.load_store_zero, hblocks i hi, SecureArea.marked]
    split_ifs with hzero
    · rw [hzero]
      exact (load_eq_ofWords h0 h4).symm
    · rfl
  intro i hi
  rw [← Nat.zero_add i, Mem.eq_of_load_eq (by decide) hload i hi, Nat.zero_add]

/-- With the zero table that stands in for an unknown ARM7 BIOS. -/
theorem key1_round_trip_zero_table :
    let b : BIOSImages := ⟨false, fun _ => 0, fun _ => 0, fun _ => 0, false⟩
    let rom : Mem := fun i => if i < 0x4008 then [0xFF, 0xDE, 0xFF, 0xE7].getD (i % 4) 0 else 0
    ∀ i < 0x800,
      SecureArea.decryptSecureArea b 0x4000 0x45534153
        (SecureArea.reencrypt b 0x4000 0x45534153 rom) i = rom (0x4000 + i) :=
  key1_round_trip.2 _ _ 0x4000 _ (by decide) (by decide) (by decide +kernel) (by decide +kernel)
    (by decide +kernel)

end MelonDS.NDSCart

import MelonDS.GPU2D.Registers
import MelonDS.Library.MaskedWrite

/-!
# 2D register writes of different widths

A word written at once and in two halves leaves the same registers. In four bytes it does not:
the bytes of the affine parameters are ignored, and the high byte of the blending control is
stored without its mask. The last theorem says for which writes the three widths agree.
-/

namespace MelonDS.GPU2D

open MaskedWrite

/-! ## Bytes and halves of a register -/

theorem bytePiece (v : U16) : (v.setWidth 8).setWidth 16 = v &&& 0x00FF := by
  have h := low_piece (w := 16) v 8
  rwa [BitVec.setWidth_eq, show MaskedWrite.field 16 0 8 = (0x00FF : U16) by decide] at h

theorem bytePiece1 (v : U16) : ((v >>> 8).setWidth 8).setWidth 16 <<< 8 = v &&& 0xFF00 := by
  have h := piece_back (w := 16) v 8 8
  rwa [BitVec.setWidth_eq, show MaskedWrite.field 16 8 8 = (0xFF00 : U16) by decide] at h

theorem lowByte_eq (x v : U16) : lowByte x (v.setWidth 8) = write 0x00FF v x := by
  rw [lowByte, bytePiece, write]
  rfl

theorem highByte_eq (x v : U16) : highByte x ((v >>> 8).setWidth 8) = write 0xFF00 v x := by
  rw [highByte, bytePiece1, write]
  rfl

theorem bytes_eq (x v : U16) : highByte (lowByte x (v.setWidth 8)) ((v >>> 8).setWidth 8) = v := by
  rw [lowByte_eq, highByte_eq, write_write]
  exact write_allOnes v x

/-- The bytes of a word are those of its halves. -/
theorem byte_of_half (val : U32) (pos : ℕ) :
    ((val >>> pos).setWidth 16).setWidth 8 = (val >>> pos).setWidth 8 :=
  BitVec.setWidth_setWidth_of_le _ (by decide)

theorem highByte_of_half (val : U32) (pos : ℕ) :
    (((val >>> pos).setWidth 16) >>> 8).setWidth 8 = (val >>> (pos + 8)).setWidth 8 := by
  apply BitVec.eq_of_getLsbD_eq
  intro i hi
  simp only [BitVec.getLsbD_setWidth, BitVec.getLsbD_ushiftRight]
  simp [show 8 + i < 16 by omega, Nat.add_assoc]

theorem halfPiece (val : U32) : (val.setWidth 16).setWidth 32 = val &&& 0xFFFF := by
  have h := low_piece (w := 32) val 16
  rwa [BitVec.setWidth_eq, show MaskedWrite.field 32 0 16 = (0xFFFF : U32) by decide] at h

theorem halfPiece1 (val : U32) :
    ((val >>> 16).setWidth 16).setWidth 32 <<< 16 = val &&& 0xFFFF0000 := by
  have h := piece_back (w := 32) val 16 16
  rwa [BitVec.setWidth_eq, show MaskedWrite.field 32 16 16 = (0xFFFF0000 : U32) by decide] at h

theorem lowHalf_eq (x val : U32) : lowHalf x (val.setWidth 16) = write 0xFFFF val x := by
  rw [lowHalf, halfPiece, write]
  rfl

/-- The sign is extended in the high half as it is in the word. -/
theorem highHalf_eq (x val : U32) :
    highHalf x ((val >>> 16).setWidth 16) = write 0xFFFF0000 (signedRef val) x := by
  have hsign : ((val >>> 16).setWidth 16).getLsbD 11 = val.getLsbD 27 := by
    simp only [BitVec.getLsbD_setWidth, BitVec.getLsbD_ushiftRight]
    rfl
  have hextend : (signedHalf ((val >>> 16).setWidth 16)).setWidth 32 <<< 16 =
      signedRef val &&& 0xFFFF0000 := by
    rw [signedHalf, signedRef, hsign]
    split_ifs
    · rw [BitVec.setWidth_or, BitVec.shiftLeft_or_distrib, halfPiece1, BitVec.and_or_distrib_right]
      rfl
    · exact halfPiece1 val
  rw [highHalf, hextend, write]
  rfl

theorem halves_eq (x val : U32) :
    highHalf (lowHalf x (val.setWidth 16)) ((val >>> 16).setWidth 16) = signedRef val := by
  have hlow : val &&& 0xFFFF = signedRef val &&& 0xFFFF := by
    rw [signedRef]
    split_ifs
    · rw [BitVec.and_or_distrib_right]
      exact (BitVec.or_zero).symm
    · rfl
  rw [lowHalf_eq, highHalf_eq, write_congr hlow, write_write]
  exact write_allOnes _ x

/-! ## Addresses -/

theorem offset_eq (addr : U32) : Registers.offset addr = addr.toNat % 4096 := by
  have hmask : (0xFFF : U32).toNat = 2 ^ 12 - 1 := by decide
  rw [Registers.offset, BitVec.toNat_and, hmask, Nat.and_two_pow_sub_one_eq_mod]

theorem offset_add {addr : U32} (haligned : addr.toNat % 4 = 0) {k : U32} (hk : k.toNat < 4) :
    Registers.offset (addr + k) = Registers.offset addr + k.toNat := by
  rw [offset_eq, offset_eq, BitVec.toNat_add]
  omega

/-! ## Display control and windows -/

namespace Windows

/-- The offsets `Write8` and `Write16` know of display control and the windows. -/
def knownBytes : List ℕ :=
  [0x000, 0x001, 0x002, 0x003, 0x040, 0x041, 0x042, 0x043, 0x044, 0x045, 0x046, 0x047, 0x048,
    0x049, 0x04A, 0x04B]

def knownHalves : List ℕ := [0x000, 0x002, 0x040, 0x042, 0x044, 0x046, 0x048, 0x04A]

theorem write8_other {addr : U32} (h : Registers.offset addr ∉ knownBytes) (val : U8)
    (w : Windows) : w.write8 addr val = w := by
  have hne (k : ℕ) (hk : k ∈ knownBytes) : ((addr &&& 0xFFF).toNat = k) = False :=
    eq_false fun heq => h ((show Registers.offset addr = k from heq) ▸ hk)
  simp only [write8, hne 0x000 (by decide), hne 0x001 (by decide), hne 0x002 (by decide),
    hne 0x003 (by decide), hne 0x040 (by decide), hne 0x041 (by decide), hne 0x042 (by decide),
    hne 0x043 (by decide), hne 0x044 (by decide), hne 0x045 (by decide), hne 0x046 (by decide),
    hne 0x047 (by decide), hne 0x048 (by decide), hne 0x049 (by decide), hne 0x04A (by decide),
    hne 0x04B (by decide), if_false, ite_self]

theorem write16_other {addr : U32} (h : Registers.offset addr ∉ knownHalves) (val : U16)
    (w : Windows) : w.write16 addr val = w := by
  have hne (k : ℕ) (hk : k ∈ knownHalves) : ((addr &&& 0xFFF).toNat = k) = False :=
    eq_false fun heq => h ((show Registers.offset addr = k from heq) ▸ hk)
  simp only [write16, hne 0x000 (by decide), hne 0x002 (by decide), hne 0x040 (by decide),
    hne 0x042 (by decide), hne 0x044 (by decide), hne 0x046 (by decide), hne 0x048 (by decide),
    hne 0x04A (by decide), if_false, ite_self]

/-- Display control in two writes of one value; unit B lacks some of the bits. -/
theorem setDispCnt_setDispCnt (mask mask' v : U32) (w : Windows) :
    (w.setDispCnt (write mask v w.dispCnt)).setDispCnt
        (write mask' v (w.setDispCnt (write mask v w.dispCnt)).dispCnt) =
      w.setDispCnt (write (mask ||| mask') v w.dispCnt) := by
  simp only [setDispCnt]
  by_cases hnum : w.num = 0
  · simp only [hnum, if_true, write_write]
  · simp only [hnum, if_false, write_kept]

theorem dispCntByte (x : U32) (v : U16) :
    (x &&& 0xFFFFFF00) ||| (v.setWidth 8).setWidth 32 = write 0xFF (v.setWidth 32) x := by
  rw [low_piece, show MaskedWrite.field 32 0 8 = (0xFF : U32) by decide]
  rfl

theorem dispCntByte1 (x : U32) (v : U16) :
    (x &&& 0xFFFF00FF) ||| ((v >>> 8).setWidth 8).setWidth 32 <<< 8 =
      write 0xFF00 (v.setWidth 32) x := by
  rw [piece_back, show MaskedWrite.field 32 8 8 = (0xFF00 : U32) by decide]
  rfl

theorem dispCntByte2 (x : U32) (v : U16) :
    (x &&& 0xFF00FFFF) ||| (v.setWidth 8).setWidth 32 <<< 16 =
      write 0xFF0000 (v.setWidth 32 <<< 16) x := by
  rw [low_piece_shiftLeft, show MaskedWrite.field 32 16 8 = (0xFF0000 : U32) by decide]
  rfl

theorem dispCntByte3 (x : U32) (v : U16) :
    (x &&& 0x00FFFFFF) ||| ((v >>> 8).setWidth 8).setWidth 32 <<< 24 =
      write 0xFF000000 (v.setWidth 32 <<< 16) x := by
  rw [shiftLeft_piece v (by decide), show MaskedWrite.field 32 24 8 = (0xFF000000 : U32) by decide]
  rfl

theorem dispCntHalf (x : U32) (v : U16) :
    (x &&& 0xFFFF0000) ||| v.setWidth 32 = write 0xFFFF (v.setWidth 32) x := by
  have h := low_piece (w := 32) v 16
  rw [BitVec.setWidth_eq, show MaskedWrite.field 32 0 16 = (0xFFFF : U32) by decide] at h
  rw [write, ← h]
  rfl

theorem dispCntHalf1 (x : U32) (v : U16) :
    (x &&& 0x0000FFFF) ||| v.setWidth 32 <<< 16 =
      write 0xFFFF0000 (v.setWidth 32 <<< 16) x := by
  have h := low_piece_shiftLeft (w := 32) v 16 16
  rw [BitVec.setWidth_eq, show MaskedWrite.field 32 16 16 = (0xFFFF0000 : U32) by decide] at h
  rw [write, ← h]
  rfl

theorem mem_knownBytes {k : ℕ} (heven : k % 2 = 0) :
    (k ∈ knownBytes → k ∈ knownHalves) ∧ (k + 1 ∈ knownBytes → k ∈ knownHalves) := by
  simp only [knownBytes, knownHalves, List.mem_cons, List.not_mem_nil, or_false]
  omega

/-- A half of a word is its two bytes. -/
theorem bytes_half {a a' : U32} (heven : Registers.offset a % 2 = 0)
    (hnext : Registers.offset a' = Registers.offset a + 1) (v : U16) (w : Windows) :
    (w.write8 a (v.setWidth 8)).write8 a' ((v >>> 8).setWidth 8) = w.write16 a v := by
  by_cases hknown : Registers.offset a ∈ knownHalves
  · have hreg (k : ℕ) (hk : Registers.offset a = k) : (a &&& 0xFFF).toNat = k := hk
    have hreg' (k : ℕ) (hk : Registers.offset a = k) : (a' &&& 0xFFF).toNat = k + 1 :=
      hnext.trans (congrArg (· + 1) hk)
    simp only [knownHalves, List.mem_cons, List.not_mem_nil, or_false] at hknown
    rcases hknown with h | h | h | h | h | h | h | h
    · simp only [write8, write16, hreg _ h, hreg' _ h, Nat.reduceEqDiff, if_true, if_false]
      rw [dispCntByte, dispCntByte1, dispCntHalf]
      exact setDispCnt_setDispCnt 0xFF 0xFF00 (v.setWidth 32) w
    · simp only [write8, write16, hreg _ h, hreg' _ h, Nat.reduceEqDiff, if_true, if_false]
      rw [dispCntByte2, dispCntByte3, dispCntHalf1]
      exact setDispCnt_setDispCnt 0xFF0000 0xFF000000 (v.setWidth 32 <<< 16) w
    all_goals
      simp only [write8, write16, hreg _ h, hreg' _ h, Nat.reduceEqDiff, if_true, if_false]
      cases henabled : w.enabled <;> simp [henabled, setWin0, setWin1, setWinCnt]
  · have hsame := mem_knownBytes heven
    rw [write16_other hknown, write8_other (fun hmem => hknown (hsame.1 hmem)),
      write8_other fun hmem => hknown (hsame.2 (hnext ▸ hmem))]

/-- A word is its two halves. -/
theorem write32_halves {addr : U32} (haligned : addr.toNat % 4 = 0) (val : U32) (w : Windows) :
    w.write32 addr val =
      (w.write16 addr (val.setWidth 16)).write16 (addr + 2) ((val >>> 16).setWidth 16) := by
  rw [write32]
  split_ifs with hzero
  · have hnext : ((addr + 2) &&& 0xFFF).toNat = 2 := by
      have h := offset_add haligned (k := 2) (by decide)
      rw [Registers.offset, Registers.offset, hzero] at h
      exact h
    have hlow : (val.setWidth 16).setWidth 32 &&& 0xFFFF = val &&& 0xFFFF := by
      rw [halfPiece, BitVec.and_assoc, BitVec.and_self]
    have hhigh : ((val >>> 16).setWidth 16).setWidth 32 <<< 16 &&& 0xFFFF0000 =
        val &&& 0xFFFF0000 := by
      rw [halfPiece1, BitVec.and_assoc, BitVec.and_self]
    have htwo := setDispCnt_setDispCnt 0xFFFF 0xFFFF0000 val w
    have hall : write ((0xFFFF : U32) ||| 0xFFFF0000) val w.dispCnt = val :=
      write_allOnes val w.dispCnt
    rw [hall] at htwo
    simp only [write16, hzero, hnext, Nat.reduceEqDiff, if_true, if_false]
    rw [dispCntHalf, dispCntHalf1, write_congr hlow, write_congr hhigh]
    exact htwo.symm
  · rfl

theorem write32_bytes {addr : U32} (haligned : addr.toNat % 4 = 0) (val : U32) (w : Windows) :
    (((w.write8 addr (val.setWidth 8)).write8 (addr + 1) ((val >>> 8).setWidth 8)).write8
      (addr + 2) ((val >>> 16).setWidth 8)).write8 (addr + 3) ((val >>> 24).setWidth 8) =
        w.write32 addr val := by
  have hone := offset_add haligned (k := 1) (by decide)
  have htwo := offset_add haligned (k := 2) (by decide)
  have hthree := offset_add haligned (k := 3) (by decide)
  have heven : Registers.offset addr % 2 = 0 := by
    rw [offset_eq]
    omega
  have hlow := bytes_half heven hone (val.setWidth 16) w
  have heven' : Registers.offset (addr + 2) % 2 = 0 := by
    rw [htwo]
    change (_ + 2) % 2 = 0
    omega
  have hlast : Registers.offset (addr + 3) = Registers.offset (addr + 2) + 1 := by
    rw [htwo, hthree]
    rfl
  have hhigh := bytes_half heven' hlast ((val >>> 16).setWidth 16)
    (w.write16 addr (val.setWidth 16))
  rw [byte_of_half, highByte_of_half] at hhigh
  have h0 := byte_of_half val 0
  have h1 := highByte_of_half val 0
  rw [BitVec.ushiftRight_zero] at h0 h1
  rw [h0, h1] at hlow
  rw [hlow, write32_halves haligned]
  exact hhigh

end Windows

/-! ## The other registers -/

namespace Layers

/-- The offsets `Write8` and `Write16` know of the layers and of blending. -/
def knownBytes : List ℕ :=
  [0x008, 0x009, 0x00A, 0x00B, 0x00C, 0x00D, 0x00E, 0x00F, 0x010, 0x011, 0x012, 0x013, 0x014,
    0x015, 0x016, 0x017, 0x018, 0x019, 0x01A, 0x01B, 0x01C, 0x01D, 0x01E, 0x01F, 0x04C, 0x04D,
    0x050, 0x051, 0x052, 0x053, 0x054]

/-- The halves `Write8` writes as `Write16` does. -/
def wideHalves : List ℕ :=
  [0x008, 0x00A, 0x00C, 0x00E, 0x010, 0x012, 0x014, 0x016, 0x018, 0x01A, 0x01C, 0x01E, 0x04C,
    0x052, 0x054]

/-- The affine parameters and the blending control. -/
def narrowHalves : List ℕ :=
  [0x020, 0x022, 0x024, 0x026, 0x028, 0x02A, 0x02C, 0x02E, 0x030, 0x032, 0x034, 0x036, 0x038,
    0x03A, 0x03C, 0x03E, 0x050]

variable {num : U32} {enabled : Bool} {reg : ℕ}

theorem write8_other (h : reg ∉ knownBytes) (val : U8) (l : Layers) :
    l.write8 num enabled reg val = l := by
  have hne (k : ℕ) (hk : k ∈ knownBytes) : (reg = k) = False := eq_false fun heq => h (heq ▸ hk)
  simp only [write8, hne 0x008 (by decide), hne 0x009 (by decide), hne 0x00A (by decide),
    hne 0x00B (by decide), hne 0x00C (by decide), hne 0x00D (by decide), hne 0x00E (by decide),
    hne 0x00F (by decide), hne 0x010 (by decide), hne 0x011 (by decide), hne 0x012 (by decide),
    hne 0x013 (by decide), hne 0x014 (by decide), hne 0x015 (by decide), hne 0x016 (by decide),
    hne 0x017 (by decide), hne 0x018 (by decide), hne 0x019 (by decide), hne 0x01A (by decide),
    hne 0x01B (by decide), hne 0x01C (by decide), hne 0x01D (by decide), hne 0x01E (by decide),
    hne 0x01F (by decide), hne 0x04C (by decide), hne 0x04D (by decide), hne 0x050 (by decide),
    hne 0x051 (by decide), hne 0x052 (by decide), hne 0x053 (by decide), hne 0x054 (by decide),
    if_false, ite_self]

theorem write16_other (hwide : reg ∉ wideHalves) (hnarrow : reg ∉ narrowHalves) (val : U16)
    (l : Layers) : l.write16 num enabled reg val = l := by
  have hne (k : ℕ) (hk : k ∈ wideHalves ∨ k ∈ narrowHalves) : (reg = k) = False := by
    refine eq_false fun heq => ?_
    subst heq
    exact hk.elim hwide hnarrow
  simp only [write16, hne 0x008 (by decide), hne 0x00A (by decide), hne 0x00C (by decide),
    hne 0x00E (by decide), hne 0x010 (by decide), hne 0x012 (by decide), hne 0x014 (by decide),
    hne 0x016 (by decide), hne 0x018 (by decide), hne 0x01A (by decide), hne 0x01C (by decide),
    hne 0x01E (by decide), hne 0x04C (by decide), hne 0x052 (by decide), hne 0x054 (by decide),
    hne 0x020 (by decide), hne 0x022 (by decide), hne 0x024 (by decide), hne 0x026 (by decide),
    hne 0x028 (by decide), hne 0x02A (by decide), hne 0x02C (by decide), hne 0x02E (by decide),
    hne 0x030 (by decide), hne 0x032 (by decide), hne 0x034 (by decide), hne 0x036 (by decide),
    hne 0x038 (by decide), hne 0x03A (by decide), hne 0x03C (by decide), hne 0x03E (by decide),
    hne 0x050 (by decide), if_false, ite_self]

theorem mem_knownBytes (heven : reg % 2 = 0) (hnarrow : reg ∉ narrowHalves) :
    (reg ∈ knownBytes → reg ∈ wideHalves) ∧ (reg + 1 ∈ knownBytes → reg ∈ wideHalves) := by
  simp only [knownBytes, wideHalves, narrowHalves, List.mem_cons, List.not_mem_nil,
    or_false] at hnarrow ⊢
  omega

theorem setBGCnt_bytes (i : Fin 4) (v : U16) (l : Layers) :
    (l.setBGCnt i (lowByte (l.bgCnt i) (v.setWidth 8))).setBGCnt i
        (highByte ((l.setBGCnt i (lowByte (l.bgCnt i) (v.setWidth 8))).bgCnt i)
          ((v >>> 8).setWidth 8)) = l.setBGCnt i v := by
  simp only [setBGCnt, Function.update_self, Function.update_idem, bytes_eq]

theorem setBGXPos_bytes (i : Fin 4) (v : U16) (l : Layers) :
    (l.setBGXPos i (lowByte (l.bgXPos i) (v.setWidth 8))).setBGXPos i
        (highByte ((l.setBGXPos i (lowByte (l.bgXPos i) (v.setWidth 8))).bgXPos i)
          ((v >>> 8).setWidth 8)) = l.setBGXPos i v := by
  simp only [setBGXPos, Function.update_self, Function.update_idem, bytes_eq]

theorem setBGYPos_bytes (i : Fin 4) (v : U16) (l : Layers) :
    (l.setBGYPos i (lowByte (l.bgYPos i) (v.setWidth 8))).setBGYPos i
        (highByte ((l.setBGYPos i (lowByte (l.bgYPos i) (v.setWidth 8))).bgYPos i)
          ((v >>> 8).setWidth 8)) = l.setBGYPos i v := by
  simp only [setBGYPos, Function.update_self, Function.update_idem, bytes_eq]

/-- The scroll register of the 3D engine takes nine bits under a mask. -/
theorem renderXPos_eq {xpos v mask : U16} (h : xpos &&& mask = v &&& mask) (x : U16) :
    (x &&& ~~~mask) ||| (xpos &&& mask &&& 0x01FF) = write mask (v &&& 0x01FF) x := by
  rw [h, write, BitVec.and_assoc, BitVec.and_comm mask, ← BitVec.and_assoc]

theorem gpu3D_setRenderXPos_bytes (v : U16) (g : GPU3D) :
    (g.setRenderXPos ((v.setWidth 8).setWidth 16) 0x00FF).setRenderXPos
        (((v >>> 8).setWidth 8).setWidth 16 <<< 8) 0xFF00 = g.setRenderXPos v 0xFFFF := by
  have hlow : (v.setWidth 8).setWidth 16 &&& 0x00FF = v &&& 0x00FF := by
    rw [bytePiece, BitVec.and_assoc, BitVec.and_self]
  have hhigh : ((v >>> 8).setWidth 8).setWidth 16 <<< 8 &&& 0xFF00 = v &&& 0xFF00 := by
    rw [bytePiece1, BitVec.and_assoc, BitVec.and_self]
  by_cases hrendering : g.renderingEnabled = true
  · simp only [GPU3D.setRenderXPos, hrendering, Bool.not_true, Bool.false_eq_true, if_false]
    rw [renderXPos_eq hlow, renderXPos_eq hhigh, renderXPos_eq rfl, write_write]
    rfl
  · simp only [GPU3D.setRenderXPos, hrendering, Bool.not_false, if_true]

theorem setRenderXPos_bytes (v : U16) (l : Layers) :
    (l.setRenderXPos num ((v.setWidth 8).setWidth 16) 0x00FF).setRenderXPos num
        (((v >>> 8).setWidth 8).setWidth 16 <<< 8) 0xFF00 = l.setRenderXPos num v 0xFFFF := by
  simp only [setRenderXPos]
  split_ifs
  · rw [gpu3D_setRenderXPos_bytes]
  · rfl

theorem setBGXPos_setRenderXPos (i : Fin 4) (val xpos mask : U16) (l : Layers) :
    (l.setBGXPos i val).setRenderXPos num xpos mask =
      (l.setRenderXPos num xpos mask).setBGXPos i val := by
  simp only [setRenderXPos]
  split_ifs <;> rfl

theorem bgXPos_setRenderXPos (xpos mask : U16) (l : Layers) :
    (l.setRenderXPos num xpos mask).bgXPos = l.bgXPos := by
  simp only [setRenderXPos]
  split_ifs <;> rfl

theorem setBGXPos0_bytes (v : U16) (l : Layers) :
    let low :=
      (l.setRenderXPos num ((v.setWidth 8).setWidth 16) 0x00FF).setBGXPos 0
        (lowByte ((l.setRenderXPos num ((v.setWidth 8).setWidth 16) 0x00FF).bgXPos 0)
          (v.setWidth 8))
    let high := low.setRenderXPos num (((v >>> 8).setWidth 8).setWidth 16 <<< 8) 0xFF00
    high.setBGXPos 0 (highByte (high.bgXPos 0) ((v >>> 8).setWidth 8)) =
      (l.setRenderXPos num v 0xFFFF).setBGXPos 0 v := by
  intro low high
  have hhigh : high = (l.setRenderXPos num v 0xFFFF).setBGXPos 0
      (lowByte (l.bgXPos 0) (v.setWidth 8)) := by
    rw [← setRenderXPos_bytes, ← setBGXPos_setRenderXPos]
    simp only [high, low, bgXPos_setRenderXPos]
  rw [hhigh]
  have hbytes := setBGXPos_bytes 0 v (l.setRenderXPos num v 0xFFFF)
  rw [bgXPos_setRenderXPos] at hbytes
  exact hbytes

/-- The mosaic sizes are nibbles. -/
theorem highNibble_eq (v : U16) : v.setWidth 8 >>> 4 = ((v >>> 4) &&& 0xF).setWidth 8 := by
  rw [show ((0xF : U16)) = MaskedWrite.field 16 0 4 by decide]
  apply BitVec.eq_of_getLsbD_eq
  intro i hi
  simp only [BitVec.getLsbD_setWidth, BitVec.getLsbD_ushiftRight, BitVec.getLsbD_and,
    getLsbD_field]
  by_cases hnibble : i < 4
  · simp [hnibble, show 4 + i < 8 by omega, show i < 8 by omega, show i < 16 by omega]
  · simp [hnibble, show ¬ 4 + i < 8 by omega]

theorem topNibble_eq (v : U16) : (v >>> 8).setWidth 8 >>> 4 = (v >>> 12).setWidth 8 := by
  apply BitVec.eq_of_getLsbD_eq
  intro i hi
  simp only [BitVec.getLsbD_setWidth, BitVec.getLsbD_ushiftRight]
  by_cases hnibble : i < 4
  · simp [show 4 + i < 8 by omega, hi, show 8 + (4 + i) = 12 + i by omega]
  · simp [show ¬ 4 + i < 8 by omega, BitVec.getLsbD_of_ge v (12 + i) (by omega)]

theorem blendAlpha_bytes (x v : U16) :
    (((x &&& (0x1F00 : U16)) ||| (v.setWidth 8 &&& 0x1F).setWidth 16) &&& (0x001F : U16)) |||
        ((((v >>> 8).setWidth 8 &&& 0x1F).setWidth 16) <<< 8) = v &&& 0x1F1F := by
  have hlow : (v.setWidth 8 &&& 0x1F).setWidth 16 = v &&& 0x001F := by
    rw [BitVec.setWidth_and, bytePiece, BitVec.and_assoc]
    rfl
  have hhigh : (((v >>> 8).setWidth 8 &&& 0x1F).setWidth 16) <<< 8 = v &&& 0x1F00 := by
    rw [BitVec.setWidth_and, BitVec.shiftLeft_and_distrib, bytePiece1, BitVec.and_assoc]
    rfl
  have hold : x &&& ((0x1F00 : U16) &&& 0x001F) = 0#16 := BitVec.and_zero
  rw [hlow, hhigh, BitVec.and_or_distrib_right, BitVec.and_assoc, hold, BitVec.and_assoc,
    BitVec.and_self, BitVec.zero_or, ← BitVec.and_or_distrib_left]
  rfl

theorem mosaic_bytes (v : U16) (l : Layers) :
    (l.setBGMosaic (v.setWidth 8 &&& 0xF) (v.setWidth 8 >>> 4)).setOBJMosaic
        ((v >>> 8).setWidth 8 &&& 0xF) ((v >>> 8).setWidth 8 >>> 4) =
      (l.setBGMosaic ((v &&& 0xF).setWidth 8) (((v >>> 4) &&& 0xF).setWidth 8)).setOBJMosaic
        (((v >>> 8) &&& 0xF).setWidth 8) ((v >>> 12).setWidth 8) := by
  have hlow (x : U16) : (x &&& 0xF).setWidth 8 = x.setWidth 8 &&& 0xF := by
    rw [BitVec.setWidth_and]
    rfl
  rw [highNibble_eq, topNibble_eq, hlow v, hlow (v >>> 8)]

theorem alpha_bytes (v : U16) (l : Layers) :
    { l with
      blendAlpha :=
        (((l.blendAlpha &&& (0x1F00 : U16)) ||| (v.setWidth 8 &&& 0x1F).setWidth 16) &&&
          (0x001F : U16)) ||| ((((v >>> 8).setWidth 8 &&& 0x1F).setWidth 16) <<< 8)
      eva := atMost16 (v.setWidth 8 &&& 0x1F)
      evb := atMost16 ((v >>> 8).setWidth 8 &&& 0x1F) } =
    { l with
      blendAlpha := v &&& 0x1F1F
      eva := atMost16 ((v &&& 0x1F).setWidth 8)
      evb := atMost16 (((v >>> 8) &&& 0x1F).setWidth 8) } := by
  rw [blendAlpha_bytes, BitVec.setWidth_and, BitVec.setWidth_and]
  rfl

theorem brightness_bytes (v : U16) (l : Layers) :
    { l with evy := atMost16 (v.setWidth 8 &&& 0x1F) } =
      { l with evy := atMost16 ((v &&& 0x1F).setWidth 8) } := by
  rw [BitVec.setWidth_and]
  rfl

theorem bytes_half (heven : reg % 2 = 0) (hnarrow : reg ∉ narrowHalves) (v : U16) (l : Layers) :
    (l.write8 num enabled reg (v.setWidth 8)).write8 num enabled (reg + 1)
      ((v >>> 8).setWidth 8) = l.write16 num enabled reg v := by
  by_cases hwide : reg ∈ wideHalves
  · simp only [wideHalves, List.mem_cons, List.not_mem_nil, or_false] at hwide
    cases enabled with
    | false =>
      by_cases hscroll : reg = 0x010
      · subst hscroll
        exact setRenderXPos_bytes v l
      · rcases hwide with h | h | h | h | h | h | h | h | h | h | h | h | h | h | h <;> subst h
        all_goals first
          | rfl
          | exact absurd rfl hscroll
    | true =>
      rcases hwide with h | h | h | h | h | h | h | h | h | h | h | h | h | h | h <;> subst h
      · exact setBGCnt_bytes 0 v l
      · exact setBGCnt_bytes 1 v l
      · exact setBGCnt_bytes 2 v l
      · exact setBGCnt_bytes 3 v l
      · exact setBGXPos0_bytes v l
      · exact setBGYPos_bytes 0 v l
      · exact setBGXPos_bytes 1 v l
      · exact setBGYPos_bytes 1 v l
      · exact setBGXPos_bytes 2 v l
      · exact setBGYPos_bytes 2 v l
      · exact setBGXPos_bytes 3 v l
      · exact setBGYPos_bytes 3 v l
      · exact mosaic_bytes v l
      · exact alpha_bytes v l
      · exact brightness_bytes v l
  · have hsame := mem_knownBytes heven hnarrow
    rw [write16_other hwide hnarrow, write8_other fun hmem => hwide (hsame.1 hmem),
      write8_other fun hmem => hwide (hsame.2 hmem)]

/-! ## Words -/

theorem setXRef_halves (i : Fin 2) (val : U32) (l : Layers) :
    (l.setXRef i (lowHalf (l.bgXRef i) (val.setWidth 16))).setXRef i
        (highHalf ((l.setXRef i (lowHalf (l.bgXRef i) (val.setWidth 16))).bgXRef i)
          ((val >>> 16).setWidth 16)) = l.setXRef i (signedRef val) := by
  simp only [setXRef, Function.update_self, Function.update_idem, halves_eq]

theorem setYRef_halves (i : Fin 2) (val : U32) (l : Layers) :
    (l.setYRef i (lowHalf (l.bgYRef i) (val.setWidth 16))).setYRef i
        (highHalf ((l.setYRef i (lowHalf (l.bgYRef i) (val.setWidth 16))).bgYRef i)
          ((val >>> 16).setWidth 16)) = l.setYRef i (signedRef val) := by
  simp only [setYRef, Function.update_self, Function.update_idem, halves_eq]

theorem write32_halves (val : U32) (l : Layers) :
    l.write32 num enabled reg val =
      (l.write16 num enabled reg (val.setWidth 16)).write16 num enabled (reg + 2)
        ((val >>> 16).setWidth 16) := by
  rw [write32]
  split_ifs with hzero hdisabled hx hy hx' hy'
  · subst hzero
    rw [write16_other (by decide) (by decide), write16_other (by decide) (by decide)]
  · rfl
  · rw [Bool.not_eq_false] at hdisabled
    subst hx hdisabled
    exact (setXRef_halves 0 val l).symm
  · rw [Bool.not_eq_false] at hdisabled
    subst hy hdisabled
    exact (setYRef_halves 0 val l).symm
  · rw [Bool.not_eq_false] at hdisabled
    subst hx' hdisabled
    exact (setXRef_halves 1 val l).symm
  · rw [Bool.not_eq_false] at hdisabled
    subst hy' hdisabled
    exact (setYRef_halves 1 val l).symm
  · rfl

/-- The bytes of a word, the lowest first. -/
def writeBytes (num : U32) (enabled : Bool) (reg : ℕ) (val : U32) (l : Layers) : Layers :=
  (((l.write8 num enabled reg (val.setWidth 8)).write8 num enabled (reg + 1)
    ((val >>> 8).setWidth 8)).write8 num enabled (reg + 2)
    ((val >>> 16).setWidth 8)).write8 num enabled (reg + 3) ((val >>> 24).setWidth 8)

/-- The second half of a word in its two bytes. -/
theorem writeBytes_high (haligned : reg % 4 = 0) (hnarrow : reg + 2 ∉ narrowHalves) (val : U32)
    (l : Layers) :
    l.writeBytes num enabled reg val =
      ((l.write8 num enabled reg (val.setWidth 8)).write8 num enabled (reg + 1)
        ((val >>> 8).setWidth 8)).write16 num enabled (reg + 2) ((val >>> 16).setWidth 16) := by
  rw [← bytes_half (by omega) hnarrow, byte_of_half, highByte_of_half]
  rfl

theorem writeBytes_wide (haligned : reg % 4 = 0) (hlow : reg ∉ narrowHalves)
    (hhigh : reg + 2 ∉ narrowHalves) (val : U32) (l : Layers) :
    l.writeBytes num enabled reg val = l.write32 num enabled reg val := by
  have hbytes : (l.write8 num enabled reg ((val.setWidth 16).setWidth 8)).write8 num enabled
      (reg + 1) ((val.setWidth 16 >>> 8).setWidth 8) =
        l.write16 num enabled reg (val.setWidth 16) :=
    bytes_half (by omega) hlow _ l
  have h0 := byte_of_half val 0
  have h1 := highByte_of_half val 0
  rw [BitVec.ushiftRight_zero] at h0 h1
  rw [h0, h1] at hbytes
  rw [writeBytes_high haligned hhigh, hbytes, write32_halves]

/-! ## The affine parameters and the blending control -/

/-- The registers already hold the word, or it needs no mask. -/
def Uniform (reg : ℕ) (val : U32) (l : Layers) : Prop :=
  if reg = 0x020 then l.bgRotA 0 = val.setWidth 16 ∧ l.bgRotB 0 = (val >>> 16).setWidth 16
  else if reg = 0x024 then l.bgRotC 0 = val.setWidth 16 ∧ l.bgRotD 0 = (val >>> 16).setWidth 16
  else if reg = 0x028 then l.bgXRef 0 = signedRef val ∧ l.bgXRefReload 0 = signedRef val
  else if reg = 0x02C then l.bgYRef 0 = signedRef val ∧ l.bgYRefReload 0 = signedRef val
  else if reg = 0x030 then l.bgRotA 1 = val.setWidth 16 ∧ l.bgRotB 1 = (val >>> 16).setWidth 16
  else if reg = 0x034 then l.bgRotC 1 = val.setWidth 16 ∧ l.bgRotD 1 = (val >>> 16).setWidth 16
  else if reg = 0x038 then l.bgXRef 1 = signedRef val ∧ l.bgXRefReload 1 = signedRef val
  else if reg = 0x03C then l.bgYRef 1 = signedRef val ∧ l.bgYRefReload 1 = signedRef val
  else if reg = 0x050 then val.getLsbD 14 = false ∧ val.getLsbD 15 = false
  else True

theorem eq_setXRef_iff (i : Fin 2) (val : S32) (l : Layers) :
    l = l.setXRef i val ↔ l.bgXRef i = val ∧ l.bgXRefReload i = val := by
  constructor
  · intro h
    exact ⟨Function.eq_update_self_iff.mp (congrArg bgXRef h),
      Function.eq_update_self_iff.mp (congrArg bgXRefReload h)⟩
  · rintro ⟨href, hreload⟩
    rw [setXRef, ← Function.eq_update_self_iff.mpr href,
      ← Function.eq_update_self_iff.mpr hreload]

theorem eq_setYRef_iff (i : Fin 2) (val : S32) (l : Layers) :
    l = l.setYRef i val ↔ l.bgYRef i = val ∧ l.bgYRefReload i = val := by
  constructor
  · intro h
    exact ⟨Function.eq_update_self_iff.mp (congrArg bgYRef h),
      Function.eq_update_self_iff.mp (congrArg bgYRefReload h)⟩
  · rintro ⟨href, hreload⟩
    rw [setYRef, ← Function.eq_update_self_iff.mpr href,
      ← Function.eq_update_self_iff.mpr hreload]

theorem eq_rotAB_iff (i : Fin 2) (a b : S16) (l : Layers) :
    (l = { l with
      bgRotA := Function.update l.bgRotA i a
      bgRotB := Function.update l.bgRotB i b }) ↔ l.bgRotA i = a ∧ l.bgRotB i = b := by
  constructor
  · intro h
    exact ⟨Function.eq_update_self_iff.mp (congrArg bgRotA h),
      Function.eq_update_self_iff.mp (congrArg bgRotB h)⟩
  · rintro ⟨ha, hb⟩
    rw [← Function.eq_update_self_iff.mpr ha, ← Function.eq_update_self_iff.mpr hb]

theorem eq_rotCD_iff (i : Fin 2) (c d : S16) (l : Layers) :
    (l = { l with
      bgRotC := Function.update l.bgRotC i c
      bgRotD := Function.update l.bgRotD i d }) ↔ l.bgRotC i = c ∧ l.bgRotD i = d := by
  constructor
  · intro h
    exact ⟨Function.eq_update_self_iff.mp (congrArg bgRotC h),
      Function.eq_update_self_iff.mp (congrArg bgRotD h)⟩
  · rintro ⟨hc, hd⟩
    rw [← Function.eq_update_self_iff.mpr hc, ← Function.eq_update_self_iff.mpr hd]

/-- `Write8` has no cases for the affine parameters. -/
theorem writeBytes_affine (hreg : 0x020 ≤ reg ∧ reg < 0x040) (haligned : reg % 4 = 0) (val : U32)
    (l : Layers) : l.writeBytes num enabled reg val = l := by
  have hunknown (k : ℕ) (hk : k < 4) : reg + k ∉ knownBytes := by
    simp only [knownBytes, List.mem_cons, List.not_mem_nil, or_false]
    omega
  have hself : reg ∉ knownBytes := hunknown 0 (by decide)
  rw [writeBytes, write8_other hself, write8_other (hunknown 1 (by decide)),
    write8_other (hunknown 2 (by decide)), write8_other (hunknown 3 (by decide))]

theorem writeBytes_affine_iff (hreg : 0x020 ≤ reg ∧ reg < 0x040) (haligned : reg % 4 = 0)
    (val : U32) (l : Layers) :
    l.writeBytes num true reg val = l.write32 num true reg val ↔ l.Uniform reg val := by
  rw [writeBytes_affine hreg haligned]
  have hcases : reg = 0x020 ∨ reg = 0x024 ∨ reg = 0x028 ∨ reg = 0x02C ∨ reg = 0x030 ∨
      reg = 0x034 ∨ reg = 0x038 ∨ reg = 0x03C := by omega
  rcases hcases with h | h | h | h | h | h | h | h <;> subst h
  · exact eq_rotAB_iff 0 _ _ l
  · exact eq_rotCD_iff 0 _ _ l
  · exact eq_setXRef_iff 0 _ l
  · exact eq_setYRef_iff 0 _ l
  · exact eq_rotAB_iff 1 _ _ l
  · exact eq_rotCD_iff 1 _ _ l
  · exact eq_setXRef_iff 1 _ l
  · exact eq_setYRef_iff 1 _ l

theorem blendCnt_bytes (x v : U16) :
    (((x &&& (0x3F00 : U16)) ||| (v.setWidth 8).setWidth 16) &&& (0x00FF : U16)) |||
      (((v >>> 8).setWidth 8).setWidth 16 <<< 8) = v := by
  have hold : x &&& ((0x3F00 : U16) &&& 0x00FF) = 0#16 := BitVec.and_zero
  rw [bytePiece, bytePiece1, BitVec.and_or_distrib_right, BitVec.and_assoc, hold,
    BitVec.and_assoc, BitVec.and_self, BitVec.zero_or, ← BitVec.and_or_distrib_left]
  exact BitVec.and_allOnes

theorem blendMask_iff (val : U32) :
    val.setWidth 16 = val.setWidth 16 &&& (0x3FFF : U16) ↔
      val.getLsbD 14 = false ∧ val.getLsbD 15 = false := by
  have hfield : (0x3FFF : U16) = MaskedWrite.field 16 0 14 := by decide
  rw [hfield]
  constructor
  · intro h
    have hbit (i : ℕ) (hi : i < 16) (hout : ¬ i < 14) : val.getLsbD i = false := by
      have heq := congrArg (·.getLsbD i) h
      simp only [BitVec.getLsbD_and, getLsbD_field, BitVec.getLsbD_setWidth] at heq
      simpa [hi, hout] using heq
    exact ⟨hbit 14 (by decide) (by decide), hbit 15 (by decide) (by decide)⟩
  · rintro ⟨h14, h15⟩
    apply BitVec.eq_of_getLsbD_eq
    intro i hi
    simp only [BitVec.getLsbD_and, getLsbD_field, BitVec.getLsbD_setWidth]
    have hcases : i < 14 ∨ i = 14 ∨ i = 15 := by omega
    rcases hcases with hin | rfl | rfl
    · simp [hin, hi]
    · rw [h14]
      rfl
    · rw [h15]
      rfl

theorem writeBytes_blend_iff (val : U32) (l : Layers) :
    l.writeBytes num true 0x050 val = l.write32 num true 0x050 val ↔ l.Uniform 0x050 val := by
  have hbytes : (l.write8 num true 0x050 (val.setWidth 8)).write8 num true (0x050 + 1)
      ((val >>> 8).setWidth 8) = { l with blendCnt := val.setWidth 16 } := by
    have h := blendCnt_bytes l.blendCnt (val.setWidth 16)
    have h0 := byte_of_half val 0
    have h1 := highByte_of_half val 0
    rw [BitVec.ushiftRight_zero] at h0 h1
    rw [h0, h1] at h
    exact congrArg (fun x => { l with blendCnt := x }) h
  have hhalf : l.write16 num true 0x050 (val.setWidth 16) =
      { l with blendCnt := val.setWidth 16 &&& (0x3FFF : U16) } := rfl
  rw [writeBytes_high (by decide) (by decide), write32_halves, hbytes, hhalf]
  refine Iff.trans (b := val.setWidth 16 = val.setWidth 16 &&& (0x3FFF : U16)) ⟨fun h => ?_,
    fun h => ?_⟩ (blendMask_iff val)
  · exact congrArg blendCnt h
  · rw [← h]

/-- A unit that is off only passes the scroll position on. -/
theorem write8_disabled (hscroll : reg ≠ 0x010 ∧ reg ≠ 0x011) (val : U8) (l : Layers) :
    l.write8 num false reg val = l := by
  simp only [write8, hscroll.1, hscroll.2, if_false, if_true]

theorem write16_disabled (hscroll : reg ≠ 0x010) (val : U16) (l : Layers) :
    l.write16 num false reg val = l := by
  simp only [write16, hscroll, if_false, if_true]

theorem writeBytes_disabled (haligned : reg % 4 = 0) (val : U32) (l : Layers) :
    l.writeBytes num false reg val = l.write32 num false reg val := by
  by_cases hscroll : reg = 0x010
  · subst hscroll
    exact writeBytes_wide (by decide) (by decide) (by decide) val l
  · rw [write32_halves, write16_disabled hscroll, write16_disabled (by omega), writeBytes,
      write8_disabled (by omega), write8_disabled (by omega), write8_disabled (by omega),
      write8_disabled (by omega)]

/-- The bytes of a word leave what the word leaves when they need to. -/
theorem writeBytes_iff (haligned : reg % 4 = 0) (val : U32) (l : Layers) :
    l.writeBytes num enabled reg val = l.write32 num enabled reg val ↔
      enabled = false ∨ l.Uniform reg val := by
  cases enabled with
  | false => exact iff_of_true (writeBytes_disabled haligned val l) (.inl rfl)
  | true =>
    have hon : (true = false ∨ l.Uniform reg val) ↔ l.Uniform reg val :=
      or_iff_right Bool.noConfusion
    rw [hon]
    by_cases haffine : 0x020 ≤ reg ∧ reg < 0x040
    · exact writeBytes_affine_iff haffine haligned val l
    · by_cases hblend : reg = 0x050
      · subst hblend
        exact writeBytes_blend_iff val l
      · have hlow : reg ∉ narrowHalves := by
          simp only [narrowHalves, List.mem_cons, List.not_mem_nil, or_false]
          omega
        have hhigh : reg + 2 ∉ narrowHalves := by
          simp only [narrowHalves, List.mem_cons, List.not_mem_nil, or_false]
          omega
        have huniform : l.Uniform reg val := by
          have hne (k : ℕ) (hk : 0x020 ≤ k ∧ k < 0x040 ∨ k = 0x050) : (reg = k) = False :=
            eq_false (by omega)
          simp only [Uniform, hne 0x020 (by decide), hne 0x024 (by decide),
            hne 0x028 (by decide), hne 0x02C (by decide), hne 0x030 (by decide),
            hne 0x034 (by decide), hne 0x038 (by decide), hne 0x03C (by decide),
            hne 0x050 (by decide), if_false]
        exact iff_of_true (writeBytes_wide haligned hlow hhigh val l) huniform

end Layers

/-! ## The registers together -/

namespace Windows

/-- A write does not change which unit it is, nor whether it is on. -/
structure SameUnit (w w' : Windows) : Prop where
  num : w'.num = w.num
  enabled : w'.enabled = w.enabled

theorem SameUnit.ite {c : Prop} [Decidable c] {w x y : Windows} (hx : SameUnit w x)
    (hy : SameUnit w y) : SameUnit w (if c then x else y) := by
  split_ifs
  · exact hx
  · exact hy

theorem sameUnit_write8 (addr : U32) (val : U8) (w : Windows) :
    SameUnit w (w.write8 addr val) := by
  rw [write8]
  refine .ite ⟨rfl, rfl⟩ (.ite ⟨rfl, rfl⟩ (.ite ⟨rfl, rfl⟩ (.ite ⟨rfl, rfl⟩ ?_)))
  refine .ite ⟨rfl, rfl⟩ (.ite ⟨rfl, rfl⟩ (.ite ⟨rfl, rfl⟩ (.ite ⟨rfl, rfl⟩ ?_)))
  refine .ite ⟨rfl, rfl⟩ (.ite ⟨rfl, rfl⟩ (.ite ⟨rfl, rfl⟩ (.ite ⟨rfl, rfl⟩ ?_)))
  refine .ite ⟨rfl, rfl⟩ (.ite ⟨rfl, rfl⟩ (.ite ⟨rfl, rfl⟩ (.ite ⟨rfl, rfl⟩ ?_)))
  exact .ite ⟨rfl, rfl⟩ ⟨rfl, rfl⟩

theorem sameUnit_write16 (addr : U32) (val : U16) (w : Windows) :
    SameUnit w (w.write16 addr val) := by
  rw [write16]
  refine .ite ⟨rfl, rfl⟩ (.ite ⟨rfl, rfl⟩ (.ite ⟨rfl, rfl⟩ (.ite ⟨rfl, rfl⟩ ?_)))
  refine .ite ⟨rfl, rfl⟩ (.ite ⟨rfl, rfl⟩ (.ite ⟨rfl, rfl⟩ (.ite ⟨rfl, rfl⟩ ?_)))
  exact .ite ⟨rfl, rfl⟩ ⟨rfl, rfl⟩

end Windows

namespace Registers

theorem writeHalves_eq {addr : U32} (haligned : addr.toNat % 4 = 0) (val : U32) (r : Registers) :
    r.writeHalves addr val = r.write32 addr val := by
  have hunit := Windows.sameUnit_write16 addr (val.setWidth 16) r.windows
  have hnext := offset_add haligned (k := 2) (by decide)
  rw [writeHalves, write32, Windows.write32_halves haligned, Layers.write32_halves]
  simp only [write16, hunit.num, hunit.enabled, hnext]
  rfl

theorem writeBytes_eq {addr : U32} (haligned : addr.toNat % 4 = 0) (val : U32) (r : Registers) :
    r.writeBytes addr val = ⟨r.windows.write32 addr val,
      r.layers.writeBytes r.windows.num r.windows.enabled (offset addr) val⟩ := by
  have h0 := Windows.sameUnit_write8 addr (val.setWidth 8) r.windows
  have h1 := Windows.sameUnit_write8 (addr + 1) ((val >>> 8).setWidth 8)
    (r.windows.write8 addr (val.setWidth 8))
  have h2 := Windows.sameUnit_write8 (addr + 2) ((val >>> 16).setWidth 8)
    ((r.windows.write8 addr (val.setWidth 8)).write8 (addr + 1) ((val >>> 8).setWidth 8))
  have hone := offset_add haligned (k := 1) (by decide)
  have htwo := offset_add haligned (k := 2) (by decide)
  have hthree := offset_add haligned (k := 3) (by decide)
  rw [← Windows.write32_bytes haligned, writeBytes]
  simp only [write8, h0.num, h0.enabled, h1.num, h1.enabled, h2.num, h2.enabled, hone, htwo,
    hthree]
  rfl

/-- Written at once, in two halves or in four bytes, a word leaves the same registers and the
same scroll position if and only if the unit is off, or the word is neither one of the affine
parameters nor the blending control, or the affine registers hold it already, or the two bits
that the blending control lacks are clear in it. -/
theorem width_independent_iff (r : Registers) {addr : U32} (haligned : addr.toNat % 4 = 0)
    (val : U32) :
    (r.writeHalves addr val = r.write32 addr val ∧ r.writeBytes addr val = r.write32 addr val) ↔
      r.windows.enabled = false ∨ r.layers.Uniform (offset addr) val := by
  have hreg : offset addr % 4 = 0 := by
    rw [offset_eq]
    omega
  have hbytes : r.writeBytes addr val = r.write32 addr val ↔
      r.layers.writeBytes r.windows.num r.windows.enabled (offset addr) val =
        r.layers.write32 r.windows.num r.windows.enabled (offset addr) val := by
    rw [writeBytes_eq haligned, write32]
    exact ⟨fun h => congrArg layers h, fun h => congrArg (Registers.mk _) h⟩
  rw [hbytes, Layers.writeBytes_iff hreg]
  exact and_iff_right (writeHalves_eq haligned val r)

/-- Unit A after a reset, switched on. -/
def unitA : Registers :=
  (reset ⟨⟨0, false, 0, fun _ => 0, fun _ => 0, fun _ => 0, 0, 0⟩,
    ⟨fun _ => 0, fun _ => 0, fun _ => 0, fun _ => 0, fun _ => 0, fun _ => 0, fun _ => 0, fun _ => 0,
      fun _ => 0, fun _ => 0, fun _ => 0, fun _ => 0, fun _ => 0, 0, 0, 0, 0, 0,
      GPU3D.initial⟩⟩).setEnabled true

theorem width_independent_scroll :
    (unitA.writeHalves 0x04000010 0x00120134 = unitA.write32 0x04000010 0x00120134 ∧
        unitA.writeBytes 0x04000010 0x00120134 = unitA.write32 0x04000010 0x00120134) ↔
      unitA.windows.enabled = false ∨
        unitA.layers.Uniform (offset 0x04000010) 0x00120134 :=
  width_independent_iff unitA (by decide) 0x00120134

/-- The identity written byte by byte to the first affine parameter is lost. -/
theorem writeBytes_loses_rotation :
    unitA.writeBytes 0x04000020 0x00000100 ≠ unitA.write32 0x04000020 0x00000100 := by
  intro h
  have hrot := congrArg (fun r => r.layers.bgRotA 0) h
  revert hrot
  decide

end Registers

end MelonDS.GPU2D

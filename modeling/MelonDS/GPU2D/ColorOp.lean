import Mathlib.Tactic.Ring
import MelonDS.Library.PackedLanes
import MelonDS.Types

/-!
# Colour operations of the 2D renderers

`GPU_ColorOp.h`, and the blends of `GPU2D_Soft.cpp` that work on all channels in one 64-bit number.
A colour has six bits for each channel in its first three bytes. The packed blends give what the
plain ones give: no channel of a weighted sum leaves its lane.
-/

namespace MelonDS.GPU2D
open Lanes

def colorBlend4 (val1 val2 eva evb : U32) : U32 :=
  let r := ((val1 &&& 0x00003F) * eva + (val2 &&& 0x00003F) * evb + 0x000008) >>> 4
  let g := ((val1 &&& 0x003F00) * eva + (val2 &&& 0x003F00) * evb + 0x000800) >>> 4 &&& 0x007F00
  let b := ((val1 &&& 0x3F0000) * eva + (val2 &&& 0x3F0000) * evb + 0x080000) >>> 4 &&& 0x7F0000
  let r := if 0x00003F < r then 0x00003F else r
  let g := if 0x003F00 < g then 0x003F00 else g
  let b := if 0x3F0000 < b then 0x3F0000 else b
  r ||| g ||| b ||| 0xFF000000

def colorBlend5 (val1 val2 : U32) : U32 :=
  let eva := (val1 >>> 24 &&& 0x1F) + 1
  let evb := 32 - eva
  if eva = 32 then val1
  else
    let r := ((val1 &&& 0x00003F) * eva + (val2 &&& 0x00003F) * evb + 0x000010) >>> 5
    let g := ((val1 &&& 0x003F00) * eva + (val2 &&& 0x003F00) * evb + 0x001000) >>> 5 &&& 0x007F00
    let b := ((val1 &&& 0x3F0000) * eva + (val2 &&& 0x3F0000) * evb + 0x100000) >>> 5 &&& 0x7F0000
    let r := if 0x00003F < r then 0x00003F else r
    let g := if 0x003F00 < g then 0x003F00 else g
    let b := if 0x3F0000 < b then 0x3F0000 else b
    r ||| g ||| b ||| 0xFF000000

def colorBrightnessUp (val factor bias : U32) : U32 :=
  let rb := val &&& 0x3F003F
  let g := val &&& 0x003F00
  let rb := rb + (((0x3F003F - rb) * factor + bias * 0x010001) >>> 4 &&& 0x3F003F)
  let g := g + (((0x003F00 - g) * factor + bias * 0x000100) >>> 4 &&& 0x003F00)
  rb ||| g ||| 0xFF000000

def colorBrightnessDown (val factor bias : U32) : U32 :=
  let rb := val &&& 0x3F003F
  let g := val &&& 0x003F00
  let rb := rb - ((rb * factor + bias * 0x010001) >>> 4 &&& 0x3F003F)
  let g := g - ((g * factor + bias * 0x000100) >>> 4 &&& 0x003F00)
  rb ||| g ||| 0xFF000000

/-- Red, blue and green in lanes of 16 bits. -/
def rgbLanes (val : U32) : U64 :=
  (val &&& 0x3F003F).setWidth 64 ||| (val &&& 0x003F00).setWidth 64 <<< 24

def ofLanes (rgb : U64) : U32 :=
  (rgb &&& 0x3F003F).setWidth 32 ||| (rgb >>> 24 &&& 0x003F00).setWidth 32 ||| 0xFF000000

/-- Coefficients above 16 are left to the plain arithmetic. -/
def colorBlend4Packed (val1 val2 eva evb : U32) : U32 :=
  if 16 < eva ∨ 16 < evb then colorBlend4 val1 val2 eva evb
  else
    let rgb := (rgbLanes val1 * eva.setWidth 64 + rgbLanes val2 * evb.setWidth 64 +
      0x000800080008) >>> 4
    let overflow := rgb &&& 0x004000400040
    ofLanes ((rgb ||| (overflow - overflow >>> 6)) &&& 0x003F003F003F)

def colorBlend5Packed (val1 val2 : U32) : U32 :=
  let eva := (val1 >>> 24 &&& 0x1F) + 1
  if eva = 32 then val1
  else
    ofLanes ((rgbLanes val1 * eva.setWidth 64 + rgbLanes val2 * (32 - eva).setWidth 64 +
      0x001000100010) >>> 5)

/-! ## The channels of a colour -/

def red (val : U32) : ℕ := val.toNat % 64

def green (val : U32) : ℕ := val.toNat / 0x100 % 64

def blue (val : U32) : ℕ := val.toNat / 0x10000 % 64

theorem red_lt (val : U32) : red val < 64 := Nat.mod_lt _ (by decide)

theorem green_lt (val : U32) : green val < 64 := Nat.mod_lt _ (by decide)

theorem blue_lt (val : U32) : blue val < 64 := Nat.mod_lt _ (by decide)

/-- A mask byte by byte. -/
theorem toNat_and_bytes (val mask : U32) (ms : List ℕ) (hmask : mask.toNat = pack 8 ms)
    (hms : Fit 8 ms) (hlen : 4 = ms.length) :
    (val &&& mask).toNat = pack 8 (List.zipWith (· &&& ·) [val.toNat % 256, val.toNat / 0x100 % 256,
      val.toNat / 0x10000 % 256, val.toNat / 0x1000000] ms) := by
  have hval : val.toNat = pack 8 [val.toNat % 256, val.toNat / 0x100 % 256,
      val.toNat / 0x10000 % 256, val.toNat / 0x1000000] := by
    simp only [pack_cons, Nat.ofDigits_nil]
    omega
  have hfit : Fit 8 [val.toNat % 256, val.toNat / 0x100 % 256, val.toNat / 0x10000 % 256,
      val.toNat / 0x1000000] := by
    have hlt := val.isLt
    simp only [Fit, List.forall_mem_cons]
    exact ⟨by omega, by omega, by omega, by omega, nofun⟩
  rw [BitVec.toNat_and, hmask, ← pack_land hfit hms hlen, ← hval]

theorem land_63 (x : ℕ) : x &&& 63 = x % 64 := Nat.and_two_pow_sub_one_eq_mod x 6

theorem toNat_and_red (val : U32) : (val &&& 0x00003F).toNat = red val := by
  rw [toNat_and_bytes val _ [63, 0, 0, 0] rfl (by decide) rfl]
  simp only [List.zipWith_cons_cons, List.zipWith_nil_left, pack_cons, Nat.ofDigits_nil, land_63,
    Nat.and_zero, red]
  omega

theorem toNat_and_green (val : U32) : (val &&& 0x003F00).toNat = 0x100 * green val := by
  rw [toNat_and_bytes val _ [0, 63, 0, 0] rfl (by decide) rfl]
  simp only [List.zipWith_cons_cons, List.zipWith_nil_left, pack_cons, Nat.ofDigits_nil, land_63,
    Nat.and_zero, green]
  omega

theorem toNat_and_blue (val : U32) : (val &&& 0x3F0000).toNat = 0x10000 * blue val := by
  rw [toNat_and_bytes val _ [0, 0, 63, 0] rfl (by decide) rfl]
  simp only [List.zipWith_cons_cons, List.zipWith_nil_left, pack_cons, Nat.ofDigits_nil, land_63,
    Nat.and_zero, blue]
  omega

theorem toNat_and_redblue (val : U32) :
    (val &&& 0x3F003F).toNat = red val + 0x10000 * blue val := by
  rw [toNat_and_bytes val _ [63, 0, 63, 0] rfl (by decide) rfl]
  simp only [List.zipWith_cons_cons, List.zipWith_nil_left, pack_cons, Nat.ofDigits_nil, land_63,
    Nat.and_zero, red, blue]
  omega

/-- Three channels put together. -/
def ofChannels (r g b : ℕ) : ℕ := pack 8 [r, g, b, 0xFF]

theorem fit_bytes {x y z u : ℕ} (hx : x < 64) (hy : y < 64) (hz : z < 64) (hu : u < 256) :
    Fit 8 [x, y, z, u] := by
  simp only [Fit, List.forall_mem_cons]
  exact ⟨by omega, by omega, by omega, by omega, nofun⟩

theorem lor_bytes {x y z u x' y' z' u' : ℕ} (h : Fit 8 [x, y, z, u]) (h' : Fit 8 [x', y', z', u']) :
    pack 8 [x, y, z, u] ||| pack 8 [x', y', z', u'] =
      pack 8 [x ||| x', y ||| y', z ||| z', u ||| u'] := pack_lor h h' rfl

theorem lor_channels {r g b : ℕ} (hr : r < 64) (hg : g < 64) (hb : b < 64) :
    pack 8 [r, 0, b, 0] ||| pack 8 [0, g, 0, 0] ||| pack 8 [0, 0, 0, 0xFF] = ofChannels r g b := by
  have hzero : 0 < 64 := by decide
  rw [lor_bytes (fit_bytes hr hzero hb (by decide)) (fit_bytes hzero hg hzero (by decide)),
    Nat.or_zero, Nat.zero_or, Nat.or_zero, Nat.or_zero,
    lor_bytes (fit_bytes hr hg hb (by decide)) (fit_bytes hzero hzero hzero (by decide)),
    Nat.or_zero, Nat.or_zero, Nat.or_zero, Nat.zero_or, ofChannels]

theorem toNat_or_channels {r g b : U32} {r' g' b' : ℕ} (hr : r.toNat = r')
    (hg : g.toNat = 0x100 * g') (hb : b.toNat = 0x10000 * b') (hr' : r' < 64) (hg' : g' < 64)
    (hb' : b' < 64) : (r ||| g ||| b ||| 0xFF000000).toNat = ofChannels r' g' b' := by
  have hzero : 0 < 64 := by decide
  have hred : r.toNat = pack 8 [r', 0, 0, 0] := by
    rw [hr]
    simp [pack_cons]
  have hgreen : g.toNat = pack 8 [0, g', 0, 0] := by
    rw [hg]
    simp [pack_cons]
  have hblue : b.toNat = pack 8 [0, 0, b', 0] := by
    rw [hb]
    simp only [pack_cons, Nat.ofDigits_nil]
    omega
  have hredblue : pack 8 [r', 0, 0, 0] ||| pack 8 [0, 0, b', 0] =
      pack 8 [r' ||| 0, 0 ||| 0, 0 ||| b', 0 ||| 0] :=
    lor_bytes (fit_bytes hr' hzero hzero (by decide)) (fit_bytes hzero hzero hb' (by decide))
  rw [Nat.or_zero, Nat.or_zero, Nat.zero_or] at hredblue
  rw [BitVec.toNat_or, BitVec.toNat_or, BitVec.toNat_or, hred, hgreen, hblue,
    Nat.or_right_comm (pack 8 [r', 0, 0, 0]), hredblue]
  exact lor_channels hr' hg' hb'

/-! ## The plain blends -/

/-- The sum of two channels with their coefficients, before it is scaled down. -/
def weighted (c1 eva c2 evb half : ℕ) : ℕ := c1 * eva + c2 * evb + half

theorem weighted_le {c1 eva c2 evb half n : ℕ} (hc1 : c1 < 64) (hc2 : c2 < 64) (hn : eva + evb ≤ n) :
    weighted c1 eva c2 evb half ≤ 63 * n + half := by
  have h1 : c1 * eva ≤ 63 * eva := Nat.mul_le_mul_right eva (by omega)
  have h2 : c2 * evb ≤ 63 * evb := Nat.mul_le_mul_right evb (by omega)
  unfold weighted
  omega

theorem weighted_channels (val1 val2 : U32) {eva evb : ℕ} (half : ℕ) (hsum : eva + evb ≤ 32) :
    weighted (red val1) eva (red val2) evb half ≤ 2016 + half ∧
      weighted (green val1) eva (green val2) evb half ≤ 2016 + half ∧
      weighted (blue val1) eva (blue val2) evb half ≤ 2016 + half :=
  ⟨weighted_le (red_lt val1) (red_lt val2) hsum, weighted_le (green_lt val1) (green_lt val2) hsum,
    weighted_le (blue_lt val1) (blue_lt val2) hsum⟩

/-- A weighted sum that does not overflow. -/
theorem toNat_weighted {v1 v2 eva evb round : U32} {w c1 c2 half : ℕ} (h1 : v1.toNat = 2 ^ w * c1)
    (h2 : v2.toNat = 2 ^ w * c2) (hround : round.toNat = 2 ^ w * half)
    (hlt : 2 ^ w * weighted c1 eva.toNat c2 evb.toNat half < 2 ^ 32) :
    (v1 * eva + v2 * evb + round).toNat = 2 ^ w * weighted c1 eva.toNat c2 evb.toNat half := by
  have hsum : 2 ^ w * c1 * eva.toNat + 2 ^ w * c2 * evb.toNat + 2 ^ w * half =
      2 ^ w * weighted c1 eva.toNat c2 evb.toNat half := by
    unfold weighted
    ring
  rw [BitVec.toNat_add, BitVec.toNat_add, BitVec.toNat_mul, BitVec.toNat_mul, h1, h2, hround,
    ← Nat.add_mod, Nat.mod_add_mod, hsum, Nat.mod_eq_of_lt hlt]

theorem toNat_clamp {x max : U32} {w y m : ℕ} (hx : x.toNat = 2 ^ w * y)
    (hmax : max.toNat = 2 ^ w * m) : (if max < x then max else x).toNat = 2 ^ w * min y m := by
  rw [← Nat.mul_min_mul_left, ← hx, ← hmax]
  split_ifs with h
  · exact (Nat.min_eq_right (Nat.le_of_lt h)).symm
  · exact (Nat.min_eq_left (Nat.le_of_not_lt h)).symm

/-- One channel of a plain blend above the first. -/
theorem toNat_plain_channel {v1 v2 eva evb round mask max : U32} {w c1 c2 s half : ℕ} (hw : w ≤ 16)
    (hs : s ≤ w) (h1 : v1.toNat = 2 ^ w * c1) (h2 : v2.toNat = 2 ^ w * c2)
    (hround : round.toNat = 2 ^ w * half) (hmask : mask.toNat = 2 ^ w * 0x7F)
    (hmax : max.toNat = 2 ^ w * 63) (hlt : weighted c1 eva.toNat c2 evb.toNat half < 2 ^ 7 * 2 ^ s)
    (hle : weighted c1 eva.toNat c2 evb.toNat half < 2 ^ 16) :
    let x := (v1 * eva + v2 * evb + round) >>> s &&& mask
    (if max < x then max else x).toNat =
      2 ^ w * min (weighted c1 eva.toNat c2 evb.toNat half >>> s) 63 := by
  refine toNat_clamp ?_ hmax
  have hno : 2 ^ w * weighted c1 eva.toNat c2 evb.toNat half < 2 ^ 32 :=
    (Nat.mul_le_mul_right _ (Nat.pow_le_pow_right Nat.two_pos hw)).trans_lt (by omega)
  rw [BitVec.toNat_and, BitVec.toNat_ushiftRight, toNat_weighted h1 h2 hround hno, hmask,
    scaled_shiftRight_land hs]
  congr 1
  have hsmall : weighted c1 eva.toNat c2 evb.toNat half >>> s < 2 ^ 7 := by
    rw [Nat.shiftRight_eq_div_pow]
    exact Nat.div_lt_of_lt_mul (by rwa [Nat.mul_comm])
  exact (Nat.and_two_pow_sub_one_eq_mod _ 7).trans (Nat.mod_eq_of_lt hsmall)

/-- The first channel, which nothing is below. -/
theorem toNat_plain_red {v1 v2 eva evb round : U32} {c1 c2 half : ℕ} (s : ℕ) (h1 : v1.toNat = c1)
    (h2 : v2.toNat = c2) (hround : round.toNat = half)
    (hle : weighted c1 eva.toNat c2 evb.toNat half < 2 ^ 16) :
    let x := (v1 * eva + v2 * evb + round) >>> s
    (if 0x00003F < x then 0x00003F else x).toNat =
      min (weighted c1 eva.toNat c2 evb.toNat half >>> s) 63 := by
  have hsum : (v1 * eva + v2 * evb + round).toNat =
      2 ^ 0 * weighted c1 eva.toNat c2 evb.toNat half :=
    toNat_weighted (h1.trans (Nat.one_mul _).symm) (h2.trans (Nat.one_mul _).symm)
      (hround.trans (Nat.one_mul _).symm) (by omega)
  rw [Nat.pow_zero, Nat.one_mul] at hsum
  refine (toNat_clamp (w := 0) (m := 63) ?_ rfl).trans (Nat.one_mul _)
  rw [BitVec.toNat_ushiftRight, hsum, Nat.pow_zero, Nat.one_mul]

/-- What both blends come to. -/
def blended (val1 val2 : U32) (eva evb half s : ℕ) : ℕ :=
  ofChannels (min (weighted (red val1) eva (red val2) evb half >>> s) 63)
    (min (weighted (green val1) eva (green val2) evb half >>> s) 63)
    (min (weighted (blue val1) eva (blue val2) evb half >>> s) 63)

theorem toNat_colorBlend4 (val1 val2 : U32) {eva evb : U32} (heva : eva.toNat ≤ 16)
    (hevb : evb.toNat ≤ 16) :
    (colorBlend4 val1 val2 eva evb).toNat = blended val1 val2 eva.toNat evb.toNat 8 4 := by
  have hsum : eva.toNat + evb.toNat ≤ 32 := by omega
  obtain ⟨hr, hg, hb⟩ := weighted_channels val1 val2 8 hsum
  unfold colorBlend4
  refine toNat_or_channels ?_ ?_ ?_ (by omega) (by omega) (by omega)
  · exact toNat_plain_red 4 (toNat_and_red val1) (toNat_and_red val2) rfl (by omega)
  · exact toNat_plain_channel (w := 8) (by decide) (by decide) (toNat_and_green val1)
      (toNat_and_green val2) rfl rfl rfl (by omega) (by omega)
  · exact toNat_plain_channel (w := 16) (by decide) (by decide) (toNat_and_blue val1)
      (toNat_and_blue val2) rfl rfl rfl (by omega) (by omega)

/-- The first coefficient of a blend of the 3D layer. -/
def alpha (val : U32) : U32 := (val >>> 24 &&& 0x1F) + 1

theorem toNat_alpha (val : U32) : 1 ≤ (alpha val).toNat ∧ (alpha val).toNat ≤ 32 := by
  have hand : (val >>> 24 &&& 0x1F).toNat < 32 := by
    rw [BitVec.toNat_and]
    exact Nat.lt_succ_of_le Nat.and_le_right
  have hadd : (alpha val).toNat = (val >>> 24 &&& 0x1F).toNat + 1 := by
    rw [alpha, BitVec.toNat_add]
    exact Nat.mod_eq_of_lt (Nat.lt_of_le_of_lt (Nat.succ_le_of_lt hand) (by decide))
  omega

theorem toNat_sub_alpha (val : U32) : (32 - alpha val).toNat = 32 - (alpha val).toNat :=
  BitVec.toNat_sub_of_le (toNat_alpha val).2

theorem toNat_colorBlend5 (val1 val2 : U32) (halpha : alpha val1 ≠ 32) :
    (colorBlend5 val1 val2).toNat =
      blended val1 val2 (alpha val1).toNat (32 - alpha val1).toNat 16 5 := by
  have hsum : (alpha val1).toNat + (32 - alpha val1).toNat ≤ 32 := by
    have := toNat_alpha val1
    rw [toNat_sub_alpha]
    omega
  obtain ⟨hr, hg, hb⟩ := weighted_channels val1 val2 16 hsum
  have hne : ¬(val1 >>> 24 &&& 0x1F) + 1 = 32 := halpha
  unfold colorBlend5
  dsimp only
  rw [if_neg hne]
  refine toNat_or_channels ?_ ?_ ?_ (by omega) (by omega) (by omega)
  · exact toNat_plain_red 5 (toNat_and_red val1) (toNat_and_red val2) rfl (lt_of_le_of_lt hr (by decide))
  · exact toNat_plain_channel (w := 8) (by decide) (by decide) (toNat_and_green val1)
      (toNat_and_green val2) rfl rfl rfl (lt_of_le_of_lt hg (by decide))
      (lt_of_le_of_lt hg (by decide))
  · exact toNat_plain_channel (w := 16) (by decide) (by decide) (toNat_and_blue val1)
      (toNat_and_blue val2) rfl rfl rfl (lt_of_le_of_lt hb (by decide))
      (lt_of_le_of_lt hb (by decide))

/-! ## The packed blends -/

theorem toNat_rgbLanes (val : U32) : (rgbLanes val).toNat = pack 16 [red val, blue val, green val] := by
  have hr := red_lt val
  have hg := green_lt val
  have hb := blue_lt val
  have hrb : ((val &&& 0x3F003F).setWidth 64).toNat = red val + 2 ^ 32 * 0 + 0x10000 * blue val := by
    rw [BitVec.toNat_setWidth, toNat_and_redblue]
    omega
  have hgreen : ((val &&& 0x003F00).setWidth 64 <<< 24).toNat = 0 + 2 ^ 32 * green val := by
    rw [BitVec.toNat_shiftLeft, BitVec.toNat_setWidth, toNat_and_green, Nat.shiftLeft_eq]
    omega
  have hpieces := lor_pieces (w := 32) (a := red val + 0x10000 * blue val) (b := 0) 0 (green val)
    (by omega) (by omega)
  rw [Nat.or_zero, Nat.zero_or, Nat.mul_zero, Nat.add_zero] at hpieces
  rw [rgbLanes, BitVec.toNat_or, hrb, hgreen, Nat.mul_zero, Nat.add_zero, hpieces]
  simp only [pack_cons, Nat.ofDigits_nil]
  omega

theorem toNat_ofLanes {rgb : U64} {r b g : ℕ} (h : rgb.toNat = pack 16 [r, b, g]) (hr : r < 64)
    (hb : b < 64) (hg : g < 64) : (ofLanes rgb).toNat = ofChannels r g b := by
  have hfit : Fit 16 [r, b, g] := by
    simp only [Fit, List.forall_mem_cons]
    exact ⟨by omega, by omega, by omega, nofun⟩
  have hmask : (0x3F003F : U64).toNat = pack 16 [63, 63, 0] := rfl
  have hland : pack 16 [r, b, g] &&& pack 16 [63, 63, 0] = pack 16 [r &&& 63, b &&& 63, g &&& 0] :=
    pack_land hfit (by decide) rfl
  have hredblue : ((rgb &&& 0x3F003F).setWidth 32).toNat = pack 8 [r, 0, b, 0] := by
    rw [BitVec.toNat_setWidth, BitVec.toNat_and, h, hmask, hland]
    simp only [pack_cons, Nat.ofDigits_nil, land_63, Nat.and_zero, Nat.mod_eq_of_lt hr,
      Nat.mod_eq_of_lt hb]
    omega
  have hgreen : ((rgb >>> 24 &&& 0x003F00).setWidth 32).toNat = pack 8 [0, g, 0, 0] := by
    have hshift : rgb.toNat >>> 24 = (2 ^ 8 * g) >>> 0 := by
      rw [h, Nat.shiftRight_eq_div_pow, Nat.shiftRight_zero]
      simp only [pack_cons, Nat.ofDigits_nil]
      omega
    have hscaled := scaled_shiftRight_land (w := 8) (Nat.zero_le _) g 63
    rw [Nat.shiftRight_zero, Nat.shiftRight_zero, land_63, Nat.mod_eq_of_lt hg] at hscaled
    rw [BitVec.toNat_setWidth, BitVec.toNat_and, BitVec.toNat_ushiftRight, hshift]
    refine (congrArg (· % 2 ^ 32) hscaled).trans ?_
    simp only [pack_cons, Nat.ofDigits_nil]
    omega
  rw [ofLanes, BitVec.toNat_or, BitVec.toNat_or, hredblue, hgreen]
  exact lor_channels hr hg hb

/-- The weighted sum of all lanes is the sums of the lanes. -/
theorem toNat_weighted_lanes (val1 val2 : U32) {eva evb : U32} {half : ℕ} {round : U64}
    (hround : round.toNat = pack 16 [half, half, half]) (hsum : eva.toNat + evb.toNat ≤ 32)
    (hhalf : half ≤ 16) :
    (rgbLanes val1 * eva.setWidth 64 + rgbLanes val2 * evb.setWidth 64 + round).toNat =
      pack 16 [weighted (red val1) eva.toNat (red val2) evb.toNat half,
        weighted (blue val1) eva.toNat (blue val2) evb.toNat half,
        weighted (green val1) eva.toNat (green val2) evb.toNat half] := by
  obtain ⟨hr, hg, hb⟩ := weighted_channels val1 val2 half hsum
  have hzero : (eva.setWidth 64).toNat = eva.toNat ∧ (evb.setWidth 64).toNat = evb.toNat := by
    rw [BitVec.toNat_setWidth, BitVec.toNat_setWidth]
    omega
  have hlanes : pack 16 [red val1, blue val1, green val1] * eva.toNat +
      pack 16 [red val2, blue val2, green val2] * evb.toNat + pack 16 [half, half, half] =
      pack 16 [weighted (red val1) eva.toNat (red val2) evb.toNat half,
        weighted (blue val1) eva.toNat (blue val2) evb.toNat half,
        weighted (green val1) eva.toNat (green val2) evb.toNat half] := by
    simp only [pack_cons, Nat.ofDigits_nil, weighted]
    ring
  rw [BitVec.toNat_add, BitVec.toNat_add, BitVec.toNat_mul, BitVec.toNat_mul, toNat_rgbLanes,
    toNat_rgbLanes, hzero.1, hzero.2, hround, ← Nat.add_mod, Nat.mod_add_mod, hlanes]
  refine Nat.mod_eq_of_lt ?_
  simp only [pack_cons, Nat.ofDigits_nil]
  omega

theorem fit_lanes {x y z : ℕ} (hx : x < 2 ^ 16) (hy : y < 2 ^ 16) (hz : z < 2 ^ 16) :
    Fit 16 [x, y, z] := by
  simp only [Fit, List.forall_mem_cons]
  exact ⟨hx, hy, hz, nofun⟩

theorem land_63_lt (x : ℕ) : x &&& 63 < 2 ^ 16 :=
  Nat.lt_of_le_of_lt Nat.and_le_right (by decide)

theorem saturate_six {x : ℕ} (hx : x < 2 ^ 11) :
    (x >>> 4 &&& 63) ||| (63 * (x >>> 4 / 64 % 2) &&& 63) = min (x >>> 4) 63 := by
  have hlt : x >>> 4 < 2 ^ 7 := by
    rw [Nat.shiftRight_eq_div_pow]
    omega
  rw [land_63 (63 * _), Nat.mod_eq_of_lt (by omega)]
  exact saturate_lane 6 hlt

/-- Lanes of seven bits cut to six. -/
theorem saturate_lanes {r b g : ℕ} (hr : r < 2 ^ 11) (hb : b < 2 ^ 11) (hg : g < 2 ^ 11) {rgb : U64}
    (h : rgb.toNat = pack 16 [r, b, g]) :
    let rgb := rgb >>> 4
    let overflow := rgb &&& 0x004000400040
    ((rgb ||| (overflow - overflow >>> 6)) &&& 0x003F003F003F).toNat =
      pack 16 [min (r >>> 4) 63, min (b >>> 4) 63, min (g >>> 4) 63] := by
  have hfit : Fit 16 [r, b, g] := fit_lanes (by omega) (by omega) (by omega)
  have hshift : (rgb >>> 4).toNat = pack 16 [r, b, g] >>> 4 := by
    rw [BitVec.toNat_ushiftRight, h]
  have hlow : (rgb >>> 4 &&& 0x003F003F003F).toNat =
      pack 16 [r >>> 4 &&& 63, b >>> 4 &&& 63, g >>> 4 &&& 63] := by
    have hmask : pack 16 [r, b, g] >>> 4 &&& pack 16 [63, 63, 63] =
        pack 16 [r >>> 4 &&& 63, b >>> 4 &&& 63, g >>> 4 &&& 63] :=
      pack_shiftRight_land (by decide) hfit (by decide) rfl
    rw [BitVec.toNat_and, hshift]
    exact hmask
  -- the overflow bits, and 63 in every lane where there is one
  have hover : (rgb >>> 4 &&& 0x004000400040).toNat =
      64 * pack 16 [r >>> 4 / 64 % 2, b >>> 4 / 64 % 2, g >>> 4 / 64 % 2] := by
    have hbits : pack 16 [r, b, g] >>> 4 &&& pack 16 [2 ^ 6, 2 ^ 6, 2 ^ 6] =
        pack 16 [r >>> 4 &&& 2 ^ 6, b >>> 4 &&& 2 ^ 6, g >>> 4 &&& 2 ^ 6] :=
      pack_shiftRight_land (by decide) hfit (by decide) rfl
    rw [BitVec.toNat_and, hshift, Nat.mul_ofDigits]
    exact hbits.trans (by rw [land_bit, land_bit, land_bit]; rfl)
  dsimp only
  generalize rgb >>> 4 &&& 0x004000400040 = overflow at hover
  have hdown : (overflow >>> 6).toNat =
      pack 16 [r >>> 4 / 64 % 2, b >>> 4 / 64 % 2, g >>> 4 / 64 % 2] := by
    rw [BitVec.toNat_ushiftRight, hover, Nat.shiftRight_eq_div_pow]
    exact Nat.mul_div_cancel_left _ (by decide)
  have hfull : (overflow - overflow >>> 6).toNat =
      pack 16 [63 * (r >>> 4 / 64 % 2), 63 * (b >>> 4 / 64 % 2), 63 * (g >>> 4 / 64 % 2)] := by
    rw [BitVec.toNat_sub_of_le (by rw [BitVec.le_def]; omega), hdown, hover]
    simp only [pack_cons, Nat.ofDigits_nil]
    omega
  have hmaskfull : (overflow - overflow >>> 6 &&& 0x003F003F003F).toNat =
      pack 16 [63 * (r >>> 4 / 64 % 2) &&& 63, 63 * (b >>> 4 / 64 % 2) &&& 63,
        63 * (g >>> 4 / 64 % 2) &&& 63] := by
    have hmask : pack 16 [63 * (r >>> 4 / 64 % 2), 63 * (b >>> 4 / 64 % 2),
        63 * (g >>> 4 / 64 % 2)] &&& pack 16 [63, 63, 63] =
        pack 16 [63 * (r >>> 4 / 64 % 2) &&& 63, 63 * (b >>> 4 / 64 % 2) &&& 63,
          63 * (g >>> 4 / 64 % 2) &&& 63] :=
      pack_land (fit_lanes (by omega) (by omega) (by omega)) (by decide) rfl
    rw [BitVec.toNat_and, hfull]
    exact hmask
  have hor : pack 16 [r >>> 4 &&& 63, b >>> 4 &&& 63, g >>> 4 &&& 63] |||
      pack 16 [63 * (r >>> 4 / 64 % 2) &&& 63, 63 * (b >>> 4 / 64 % 2) &&& 63,
        63 * (g >>> 4 / 64 % 2) &&& 63] =
      pack 16 [(r >>> 4 &&& 63) ||| (63 * (r >>> 4 / 64 % 2) &&& 63),
        (b >>> 4 &&& 63) ||| (63 * (b >>> 4 / 64 % 2) &&& 63),
        (g >>> 4 &&& 63) ||| (63 * (g >>> 4 / 64 % 2) &&& 63)] :=
    pack_lor (fit_lanes (land_63_lt _) (land_63_lt _) (land_63_lt _))
      (fit_lanes (land_63_lt _) (land_63_lt _) (land_63_lt _)) rfl
  rw [BitVec.toNat_and, BitVec.toNat_or, Nat.and_or_distrib_right, ← BitVec.toNat_and,
    ← BitVec.toNat_and, hlow, hmaskfull, hor, saturate_six hr, saturate_six hb, saturate_six hg]

/-- Lanes that need no cut: the bits shifted in from the lane above are masked away. -/
theorem shifted_lanes {r b g : ℕ} (hr : r ≤ 2032) (hb : b ≤ 2032) (hg : g ≤ 2032) {rgb : U64}
    (h : rgb.toNat = pack 16 [r, b, g]) : (rgb >>> 5 &&& 0x003F003F003F).toNat =
      pack 16 [min (r >>> 5) 63, min (b >>> 5) 63, min (g >>> 5) 63] := by
  have hfit : Fit 16 [r, b, g] := fit_lanes (by omega) (by omega) (by omega)
  have hmask : pack 16 [r, b, g] >>> 5 &&& pack 16 [63, 63, 63] =
      pack 16 [r >>> 5 &&& 63, b >>> 5 &&& 63, g >>> 5 &&& 63] :=
    pack_shiftRight_land (by decide) hfit (by decide) rfl
  have hsmall : ∀ x ≤ 2032, x >>> 5 &&& 63 = min (x >>> 5) 63 := by
    intro x hx
    have hle : x >>> 5 ≤ 63 := by
      rw [Nat.shiftRight_eq_div_pow]
      omega
    rw [land_63, Nat.mod_eq_of_lt (by omega), Nat.min_eq_left hle]
  rw [BitVec.toNat_and, BitVec.toNat_ushiftRight, h, ← hsmall r hr, ← hsmall b hb, ← hsmall g hg]
  exact hmask

theorem toNat_ofLanes_masked {rgb : U64} {r b g : ℕ}
    (h : (rgb &&& 0x003F003F003F).toNat = pack 16 [r, b, g]) (hr : r < 64) (hb : b < 64)
    (hg : g < 64) : (ofLanes rgb).toNat = ofChannels r g b := by
  have hlow : (rgb &&& 0x003F003F003F) &&& 0x3F003F = rgb &&& 0x3F003F := by
    rw [BitVec.and_assoc]
    rfl
  have hhigh : (rgb &&& 0x003F003F003F) >>> 24 &&& (0x003F00 : U64) = rgb >>> 24 &&& 0x003F00 := by
    rw [BitVec.ushiftRight_and_distrib, BitVec.and_assoc]
    rfl
  have hsame : ofLanes rgb = ofLanes (rgb &&& 0x003F003F003F) := by
    rw [ofLanes, ofLanes, hlow, hhigh]
  rw [hsame]
  exact toNat_ofLanes h hr hb hg

/-- The packed blend is the plain one, whatever the coefficients. -/
theorem colorBlend4Packed_eq (val1 val2 eva evb : U32) :
    colorBlend4Packed val1 val2 eva evb = colorBlend4 val1 val2 eva evb := by
  unfold colorBlend4Packed
  split_ifs with hrange
  · rfl
  · rw [not_or, BitVec.not_lt, BitVec.not_lt] at hrange
    have heva : eva.toNat ≤ 16 := hrange.1
    have hevb : evb.toNat ≤ 16 := hrange.2
    have hle : eva.toNat + evb.toNat ≤ 32 := by omega
    obtain ⟨hr, hg, hb⟩ := weighted_channels val1 val2 8 hle
    have hround : (0x000800080008 : U64).toNat = pack 16 [8, 8, 8] := rfl
    have hsum := toNat_weighted_lanes val1 val2 hround hle (by decide)
    have hlanes := saturate_lanes (lt_of_le_of_lt hr (by decide)) (lt_of_le_of_lt hb (by decide))
      (lt_of_le_of_lt hg (by decide)) hsum
    have hcut : ∀ x : ℕ, min x 63 < 64 := fun x => by omega
    apply BitVec.eq_of_toNat_eq
    rw [toNat_colorBlend4 val1 val2 heva hevb]
    exact toNat_ofLanes hlanes (hcut _) (hcut _) (hcut _)

/-- The coefficients of the 3D layer add up to 32, so no channel needs to be cut. -/
theorem colorBlend5Packed_eq (val1 val2 : U32) :
    colorBlend5Packed val1 val2 = colorBlend5 val1 val2 := by
  by_cases halpha : alpha val1 = 32
  · have heq : (val1 >>> 24 &&& 0x1F) + 1 = 32 := halpha
    rw [colorBlend5Packed, colorBlend5, if_pos heq, if_pos heq]
  · have hne : ¬(val1 >>> 24 &&& 0x1F) + 1 = 32 := halpha
    have hle : (alpha val1).toNat + (32 - alpha val1).toNat ≤ 32 := by
      have := toNat_alpha val1
      rw [toNat_sub_alpha]
      omega
    obtain ⟨hr, hg, hb⟩ := weighted_channels val1 val2 16 hle
    have hround : (0x001000100010 : U64).toNat = pack 16 [16, 16, 16] := rfl
    have hsum := toNat_weighted_lanes val1 val2 hround hle le_rfl
    have hlanes := shifted_lanes hr hb hg hsum
    have hcut : ∀ x : ℕ, min x 63 < 64 := fun x => by omega
    apply BitVec.eq_of_toNat_eq
    rw [toNat_colorBlend5 val1 val2 halpha, colorBlend5Packed, if_neg hne]
    exact toNat_ofLanes_masked hlanes (hcut _) (hcut _) (hcut _)

end MelonDS.GPU2D

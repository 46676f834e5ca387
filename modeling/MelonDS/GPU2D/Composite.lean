import MelonDS.GPU2D.ColorOp
import MelonDS.GPU2D.Windows

/-!
# Composition of a line

The last step of a 2D scanline: the two uppermost pixels of each column are blended or changed in
brightness. With a scaled 3D layer a column holds a placeholder, for which the 3D pixel is put in,
or what is below it where that pixel is transparent. Whole rows and repeated colours take
shortcuts; the result is the rule applied to each pixel.
-/

namespace MelonDS.GPU2D

/-- What a line is composed of; the second pixels are 256 columns behind the first. -/
structure Line where
  bgobjLine : ℕ → U32
  below3D : ℕ → U32
  windowMask : ℕ → U8
  output3D : ℕ → U32
  scaled3DActive : Bool
  blendCnt : U16
  eva : U8
  evb : U8
  evy : U8

/-- The bit that a pixel's flag stands for among the first targets. -/
def target1 (flag : U32) : U32 :=
  if flag &&& 0x80 ≠ 0 then 0x10 else if flag &&& 0x40 ≠ 0 then 0x01 else flag

def target2 (flag : U32) : U32 :=
  if flag &&& 0x80 ≠ 0 then 0x1000 else if flag &&& 0x40 ≠ 0 then 0x0100 else flag <<< 8

section
variable (blend4 : U32 → U32 → U32 → U32 → U32) (blend5 : U32 → U32 → U32)

/-- `CompositePixel` over given blends. -/
def compositePixelWith (effect : ℕ) (val1 val2 blendCnt eva evb evy : U32) (window : U8) : U32 :=
  let flag1 := val1 >>> 24
  if effect = 1 ∧ flag1 &&& 0xC0 = 0 ∧ (blendCnt &&& flag1 = 0 ∨ window &&& 0x20 = 0) then val1
  else
    if (effect = 1 ∨ flag1 &&& 0xC0 ≠ 0) ∧ blendCnt &&& target2 (val2 >>> 24) ≠ 0 then
      if flag1 &&& 0xC0 = 0x40 then blend5 val1 val2
      else if flag1 &&& 0xC0 = 0xC0 then blend4 val1 val2 (flag1 &&& 0x1F) (16 - (flag1 &&& 0x1F))
      else blend4 val1 val2 eva evb
    else if 2 ≤ effect then
      if blendCnt &&& target1 flag1 ≠ 0 ∧ window &&& 0x20 ≠ 0 then
        if effect = 2 then colorBrightnessUp val1 evy 0x8 else colorBrightnessDown val1 evy 0x7
      else val1
    else val1

end

def compositePixel : ℕ → U32 → U32 → U32 → U32 → U32 → U32 → U8 → U32 :=
  compositePixelWith colorBlend4Packed colorBlend5Packed

namespace Line
variable (l : Line) (effect : ℕ)

def control : U32 := l.blendCnt.setWidth 32

/-- The composition of a column with the settings of the line. -/
def composite (x : ℕ) (pixels : U32 × U32) : U32 :=
  compositePixel effect pixels.1 pixels.2 l.control (l.eva.setWidth 32) (l.evb.setWidth 32)
    (l.evy.setWidth 32) (l.windowMask x)

def resolve3DPixel (x : ℕ) (color top second : U32) : U32 × U32 :=
  if top >>> 24 &&& 0xC0 = 0x40 then
    if color >>> 24 ≠ 0 then (color ||| 0x40000000, second)
    else (l.below3D x, l.below3D (x + 256))
  else if second >>> 24 &&& 0xC0 = 0x40 then
    (top, if color >>> 24 ≠ 0 then color ||| 0x40000000 else l.below3D x)
  else (top, second)

/-- The two pixels of a column. -/
def pixels (x : ℕ) : U32 × U32 :=
  if l.scaled3DActive then
    l.resolve3DPixel x (l.output3D x) (l.bgobjLine x) (l.bgobjLine (x + 256))
  else (l.bgobjLine x, l.bgobjLine (x + 256))

/-! ## Native lines -/

def brightness (val : U32) : U32 :=
  if effect = 2 then colorBrightnessUp val (l.evy.setWidth 32) 0x8
  else colorBrightnessDown val (l.evy.setWidth 32) 0x7

/-- A loop over the columns that stores one value for each. -/
def forColumns (f : ℕ → U32) (dst : ℕ → U32) : ℕ → U32 :=
  (List.range 256).foldl (fun dst x => Function.update dst x (f x)) dst

/-- The row where every layer is changed in brightness; it ends early, with `true`, at a pixel that
must be left to the rule. -/
def brightnessRow : ℕ → ℕ → (ℕ → U32) → Bool × (ℕ → U32)
  | 0, _, dst => (false, dst)
  | n + 1, x, dst =>
    let top := (l.pixels x).1
    if top >>> 24 = 0 ∨ l.windowMask x &&& 0x20 = 0 then (true, dst)
    else brightnessRow n (x + 1) (Function.update dst x (l.brightness effect top))

def compositeRow (dst : ℕ → U32) : ℕ → U32 :=
  forColumns (fun x => l.composite effect x (l.pixels x)) dst

def colorComposite (dst : ℕ → U32) : ℕ → U32 :=
  if effect ≤ 1 then
    if l.scaled3DActive = false ∧ l.control &&& 0x3F00 = 0 then forColumns l.bgobjLine dst
    else l.compositeRow effect dst
  else if l.control &&& 0x3F00 = 0 then
    if l.scaled3DActive = false then
      if l.control &&& 0x3F = 0x3F then
        forColumns (fun x =>
          let top := l.bgobjLine x
          if top >>> 24 ≠ 0 ∧ l.windowMask x &&& 0x20 ≠ 0 then l.brightness effect top else top) dst
      else
        forColumns (fun x =>
          let top := l.bgobjLine x
          if l.control &&& target1 (top >>> 24) ≠ 0 ∧ l.windowMask x &&& 0x20 ≠ 0 then
            l.brightness effect top
          else top) dst
    else if l.control &&& 0x3F = 0x3F then
      let (fallback, dst) := l.brightnessRow effect 256 0 dst
      if fallback then l.compositeRow effect dst else dst
    else l.compositeRow effect dst
  else l.compositeRow effect dst

/-! ## Scaled lines -/

def fillN (dst : ℕ → U32) (start n : ℕ) (val : U32) : ℕ → U32 := fun j =>
  if start ≤ j ∧ j < start + n then val else dst j

/-- The 3D pixels may be in the buffer that the line is composed in. -/
def source (inPlace : Bool) (pixels3D dst : ℕ → U32) : ℕ → U32 := if inPlace then dst else pixels3D

structure Subpixels where
  lastColor : U32
  lastResult : U32
  dst : ℕ → U32

def composeSubpixel (src : (ℕ → U32) → ℕ → U32) (x out : ℕ) (transparent : U32) (s : Subpixels)
    (sub : ℕ) : Subpixels :=
  let color := src s.dst (out + sub)
  if color >>> 24 = 0 then { s with dst := Function.update s.dst (out + sub) transparent }
  else if color = s.lastColor then
    { s with dst := Function.update s.dst (out + sub) s.lastResult }
  else
    let result := l.composite effect x
      (l.resolve3DPixel x color (l.bgobjLine x) (l.bgobjLine (x + 256)))
    ⟨color, result, Function.update s.dst (out + sub) result⟩

def composePixel (src : (ℕ → U32) → ℕ → U32) (scale : ℕ) (dst : ℕ → U32) (x : ℕ) : ℕ → U32 :=
  let top0 := l.bgobjLine x
  let second0 := l.bgobjLine (x + 256)
  if top0 >>> 24 &&& 0xC0 ≠ 0x40 ∧ second0 >>> 24 &&& 0xC0 ≠ 0x40 then
    fillN dst (x * scale) scale (l.composite effect x (top0, second0))
  else
    let transparent := l.composite effect x (l.resolve3DPixel x 0 top0 second0)
    ((List.range scale).foldl (l.composeSubpixel effect src x (x * scale) transparent)
      ⟨0, 0, dst⟩).dst

def composeScaledLine (inPlace : Bool) (dst pixels3D : ℕ → U32) (scale : ℕ) : ℕ → U32 :=
  (List.range 256).foldl (l.composePixel effect (source inPlace pixels3D) scale) dst

/-! ## The rule -/

/-- The composition of a column with the plain blends. -/
def rule (x : ℕ) (pixels : U32 × U32) : U32 :=
  compositePixelWith colorBlend4 colorBlend5 effect pixels.1 pixels.2 l.control
    (l.eva.setWidth 32) (l.evb.setWidth 32) (l.evy.setWidth 32) (l.windowMask x)

theorem composite_eq_rule (x : ℕ) (pixels : U32 × U32) :
    l.composite effect x pixels = l.rule effect x pixels := by
  have hpacked4 : colorBlend4Packed = colorBlend4 := by
    funext val1 val2 eva evb
    exact colorBlend4Packed_eq val1 val2 eva evb
  have hpacked5 : colorBlend5Packed = colorBlend5 := by
    funext val1 val2
    exact colorBlend5Packed_eq val1 val2
  rw [composite, compositePixel, hpacked4, hpacked5, rule]

end Line

/-! ## The flags of a pixel -/

theorem flag_and_byte (val : U32) : val >>> 24 &&& (0xFF : U32) = val >>> 24 := by
  apply BitVec.eq_of_toNat_eq
  rw [BitVec.toNat_and, BitVec.toNat_ushiftRight]
  have hlt : val.toNat >>> 24 < 2 ^ 8 := by
    have := val.isLt
    rw [Nat.shiftRight_eq_div_pow]
    omega
  exact (Nat.and_two_pow_sub_one_eq_mod _ 8).trans (Nat.mod_eq_of_lt hlt)

/-- A flag without the two high bits names one of six layers. -/
theorem flag_and_layers {val : U32} (h80 : val >>> 24 &&& (0x80 : U32) = 0)
    (h40 : val >>> 24 &&& (0x40 : U32) = 0) : val >>> 24 &&& (0x3F : U32) = val >>> 24 := by
  have hhigh : val >>> 24 &&& ((0x80 : U32) ||| (0x40 : U32)) = 0 := by
    rw [BitVec.and_or_distrib_left, h80, h40]
    rfl
  have hsplit : val >>> 24 &&& (0xFF : U32) =
      (val >>> 24 &&& (0x3F : U32)) ||| (val >>> 24 &&& ((0x80 : U32) ||| (0x40 : U32))) := by
    rw [← BitVec.and_or_distrib_left]
    rfl
  rw [flag_and_byte, hhigh] at hsplit
  exact (hsplit.trans BitVec.or_zero).symm

theorem target1_and_layers (val : U32) :
    target1 (val >>> 24) &&& (0x3F : U32) = target1 (val >>> 24) := by
  unfold target1
  split_ifs with h80 h40
  · rfl
  · rfl
  · exact flag_and_layers (not_not.mp h80) (not_not.mp h40)

theorem target1_ne_zero (flag : U32) : target1 flag ≠ 0 ↔ flag ≠ 0 := by
  have hzero : ∀ m : U32, flag &&& m ≠ 0 → flag ≠ 0 := by
    rintro m h rfl
    exact h BitVec.zero_and
  unfold target1
  split_ifs with h80 h40
  · exact ⟨fun _ => hzero _ h80, fun _ => by decide⟩
  · exact ⟨fun _ => hzero _ h40, fun _ => by decide⟩
  · exact Iff.rfl

theorem target2_and_layers (val : U32) :
    target2 (val >>> 24) &&& (0x3F00 : U32) = target2 (val >>> 24) := by
  unfold target2
  split_ifs with h80 h40
  · rfl
  · rfl
  · have hmask : (0x3F00 : U32) = (0x3F : U32) <<< 8 := rfl
    rw [hmask, ← BitVec.shiftLeft_and_distrib,
      flag_and_layers (not_not.mp h80) (not_not.mp h40)]

theorem and_of_subset {control mask target : U32} (h : target &&& mask = target) :
    control &&& target = (control &&& mask) &&& target := by
  rw [BitVec.and_assoc, BitVec.and_comm mask, h]

namespace Line
variable (l : Line) (effect : ℕ)

/-- Where no second target is selected, brightness is the only effect. -/
theorem rule_of_noTarget2 (h : l.control &&& 0x3F00 = 0) (x : ℕ) (pixels : U32 × U32) :
    l.rule effect x pixels =
      if 2 ≤ effect ∧ l.control &&& target1 (pixels.1 >>> 24) ≠ 0 ∧ l.windowMask x &&& 0x20 ≠ 0 then
        l.brightness effect pixels.1
      else pixels.1 := by
  have htarget2 : l.control &&& target2 (pixels.2 >>> 24) = 0 := by
    rw [and_of_subset (target2_and_layers pixels.2), h]
    exact BitVec.zero_and
  have hno : ∀ c : Prop, ¬(c ∧ l.control &&& target2 (pixels.2 >>> 24) ≠ 0) :=
    fun c hc => hc.2 htarget2
  unfold rule compositePixelWith
  dsimp only
  rw [if_neg (hno _)]
  by_cases heffect : 2 ≤ effect
  · have hone : effect ≠ 1 := by omega
    rw [if_neg fun hc => hone hc.1, if_pos heffect]
    exact if_congr (by simp only [heffect, true_and]) rfl rfl
  · rw [if_neg heffect, ite_self]
    exact (if_neg fun hc => heffect hc.1).symm

/-- With every first target selected, any flag will do. -/
theorem control_and_target1 (h : l.control &&& 0x3F = 0x3F) (val : U32) :
    l.control &&& target1 (val >>> 24) ≠ 0 ↔ val >>> 24 ≠ 0 := by
  rw [and_of_subset (target1_and_layers val), h, BitVec.and_comm, target1_and_layers,
    target1_ne_zero]

theorem forColumns_apply (f dst : ℕ → U32) (j : ℕ) :
    forColumns f dst j = if j < 256 then f j else dst j := by
  have hfold : ∀ n, (List.range n).foldl (fun dst x => Function.update dst x (f x)) dst j =
      if j < n then f j else dst j := by
    intro n
    induction n with
    | zero => rw [if_neg (Nat.not_lt_zero j)]; rfl
    | succ n ih =>
      rw [List.range_succ, List.foldl_append, List.foldl_cons, List.foldl_nil]
      by_cases hlast : j = n
      · rw [hlast, Function.update_self, if_pos (Nat.lt_succ_self n)]
      · rw [Function.update_of_ne hlast, ih]
        exact if_congr (by omega) rfl rfl
  exact hfold 256

theorem compositeRow_apply (dst : ℕ → U32) (j : ℕ) :
    l.compositeRow effect dst j = if j < 256 then l.rule effect j (l.pixels j) else dst j := by
  rw [compositeRow, forColumns_apply, composite_eq_rule]

theorem pixels_of_native (h : l.scaled3DActive = false) (x : ℕ) :
    l.pixels x = (l.bgobjLine x, l.bgobjLine (x + 256)) := by
  rw [pixels, h]
  rfl

/-- What the row of brightness has stored, whether or not it has ended early. -/
theorem brightnessRow_spec (n x : ℕ) (dst : ℕ → U32) :
    (∀ j, ¬(x ≤ j ∧ j < x + n) → (l.brightnessRow effect n x dst).2 j = dst j) ∧
      ((l.brightnessRow effect n x dst).1 = false → ∀ j, x ≤ j → j < x + n →
        (l.pixels j).1 >>> 24 ≠ 0 ∧ l.windowMask j &&& 0x20 ≠ 0 ∧
          (l.brightnessRow effect n x dst).2 j = l.brightness effect (l.pixels j).1) := by
  induction n generalizing x dst with
  | zero => exact ⟨fun _ _ => rfl, fun _ j hle hlt => absurd hlt (by omega)⟩
  | succ n ih =>
    rw [brightnessRow]
    split_ifs with hstop
    · exact ⟨fun _ _ => rfl, nofun⟩
    · obtain ⟨houtside, hinside⟩ := ih (x + 1)
        (Function.update dst x (l.brightness effect (l.pixels x).1))
      refine ⟨fun j hj => ?_, fun hdone j hle hlt => ?_⟩
      · rw [houtside j (by omega), Function.update_of_ne (by omega)]
      · rcases Nat.eq_or_lt_of_le hle with rfl | hgt
        · rw [not_or] at hstop
          exact ⟨hstop.1, hstop.2, (houtside x (by omega)).trans (Function.update_self ..)⟩
        · exact hinside hdone j hgt (by omega)

/-- The row of brightness, or the rule where it has ended early. -/
theorem brightnessRow_or_rule (heffect : 2 ≤ effect) (hcontrol : l.control &&& 0x3F00 = 0)
    (hall : l.control &&& 0x3F = 0x3F) (dst : ℕ → U32) (j : ℕ) :
    (let (fallback, dst) := l.brightnessRow effect 256 0 dst
      if fallback then l.compositeRow effect dst else dst) j =
      if j < 256 then l.rule effect j (l.pixels j) else dst j := by
  obtain ⟨houtside, hinside⟩ := brightnessRow_spec l effect 256 0 dst
  generalize l.brightnessRow effect 256 0 dst = row at houtside hinside
  obtain ⟨fallback, row⟩ := row
  dsimp only at houtside hinside ⊢
  by_cases hj : j < 256
  · rw [if_pos hj]
    cases fallback with
    | true => exact (compositeRow_apply l effect row j).trans (if_pos hj)
    | false =>
      obtain ⟨hflag, hwindow, hvalue⟩ := hinside rfl j (Nat.zero_le j) (by omega)
      have hrule := rule_of_noTarget2 l effect hcontrol j (l.pixels j)
      rw [if_pos ⟨heffect, (control_and_target1 l hall _).mpr hflag, hwindow⟩] at hrule
      exact hvalue.trans hrule.symm
  · have hkept : row j = dst j := houtside j (by omega)
    rw [if_neg hj, ← hkept]
    cases fallback with
    | true => exact (compositeRow_apply l effect row j).trans (if_neg hj)
    | false => rfl

/-- Every native pixel is composed by the rule. -/
theorem colorComposite_apply (dst : ℕ → U32) (j : ℕ) :
    l.colorComposite effect dst j =
      if j < 256 then l.rule effect j (l.pixels j) else dst j := by
  have hgeneric := compositeRow_apply l effect dst j
  unfold colorComposite
  by_cases heffect : effect ≤ 1
  · rw [if_pos heffect]
    by_cases hcopy : l.scaled3DActive = false ∧ l.control &&& 0x3F00 = 0
    · rw [if_pos hcopy, forColumns_apply, rule_of_noTarget2 l effect hcopy.2,
        pixels_of_native l hcopy.1]
      exact if_congr Iff.rfl (if_neg fun hc => absurd hc.1 (Nat.not_le_of_lt
        (Nat.lt_succ_of_le heffect))).symm rfl
    · rw [if_neg hcopy, hgeneric]
  · have htwo : 2 ≤ effect := Nat.lt_of_not_le heffect
    rw [if_neg heffect]
    by_cases hcontrol : l.control &&& 0x3F00 = 0
    · rw [if_pos hcontrol, rule_of_noTarget2 l effect hcontrol]
      by_cases hnative : l.scaled3DActive = false
      · rw [if_pos hnative, pixels_of_native l hnative]
        by_cases hall : l.control &&& 0x3F = 0x3F
        · rw [if_pos hall, forColumns_apply]
          refine if_congr Iff.rfl (if_congr ?_ rfl rfl) rfl
          rw [control_and_target1 l hall]
          exact ⟨fun h => ⟨htwo, h⟩, fun h => h.2⟩
        · rw [if_neg hall, forColumns_apply]
          refine if_congr Iff.rfl (if_congr ?_ rfl rfl) rfl
          exact ⟨fun h => ⟨htwo, h⟩, fun h => h.2⟩
      · rw [if_neg hnative, ← rule_of_noTarget2 l effect hcontrol]
        by_cases hall : l.control &&& 0x3F = 0x3F
        · rw [if_pos hall]
          exact brightnessRow_or_rule l effect htwo hcontrol hall dst j
        · rw [if_neg hall, hgeneric]
    · rw [if_neg hcontrol, hgeneric]

/-! ## Scaled lines follow the rule -/

theorem resolve_transparent {color : U32} (h : color >>> 24 = 0) (x : ℕ) (top second : U32) :
    l.resolve3DPixel x color top second = l.resolve3DPixel x 0 top second := by
  have hzero : (0 : U32) >>> 24 = 0 := rfl
  unfold resolve3DPixel
  rw [h, hzero]
  simp only [ne_eq, not_true_eq_false, if_false]

/-- Without a placeholder the 3D pixel does not matter. -/
theorem resolve_of_none {x : ℕ} {top second : U32} (htop : top >>> 24 &&& 0xC0 ≠ 0x40)
    (hsecond : second >>> 24 &&& 0xC0 ≠ 0x40) (color : U32) :
    l.resolve3DPixel x color top second = (top, second) := by
  rw [resolve3DPixel, if_neg htop, if_neg hsecond]

/-- The subpixel that the rule asks for. -/
def scaledRule (x : ℕ) (color : U32) : U32 :=
  l.rule effect x (l.resolve3DPixel x color (l.bgobjLine x) (l.bgobjLine (x + 256)))

/-- What a source shows at an index depends on the buffer there only. -/
def Pointwise (src : (ℕ → U32) → ℕ → U32) : Prop :=
  ∀ dst dst' j, dst j = dst' j → src dst j = src dst' j

theorem pointwise_source (inPlace : Bool) (pixels3D : ℕ → U32) :
    Pointwise (source inPlace pixels3D) := by
  intro dst dst' j h
  cases inPlace with
  | true => exact h
  | false => rfl

section
variable {src : (ℕ → U32) → ℕ → U32} (hsrc : Pointwise src)

/-- The loop over the subpixels of a column: what is stored, and that a repeated colour has the
result it had before. -/
structure Composed (src : (ℕ → U32) → ℕ → U32) (x out n : ℕ) (dst : ℕ → U32) (s : Subpixels) :
    Prop where
  stored : ∀ j, s.dst j =
    if out ≤ j ∧ j < out + n then l.scaledRule effect x (src dst j) else dst j
  repeated : s.lastColor >>> 24 ≠ 0 → s.lastResult = l.scaledRule effect x s.lastColor

include hsrc in
theorem Composed.subpixel {x out n : ℕ} {dst : ℕ → U32} {s : Subpixels}
    (h : l.Composed effect src x out n dst s) :
    l.Composed effect src x out (n + 1) dst (l.composeSubpixel effect src x out
      (l.composite effect x (l.resolve3DPixel x 0 (l.bgobjLine x) (l.bgobjLine (x + 256)))) s n) := by
  have hsame : src s.dst (out + n) = src dst (out + n) := by
    apply hsrc
    rw [h.stored, if_neg (by omega)]
  have hstored : ∀ v, v = l.scaledRule effect x (src dst (out + n)) → ∀ j,
      Function.update s.dst (out + n) v j =
        if out ≤ j ∧ j < out + (n + 1) then l.scaledRule effect x (src dst j) else dst j := by
    intro v hv j
    by_cases hlast : j = out + n
    · rw [hlast, Function.update_self, if_pos (by omega), hv]
    · rw [Function.update_of_ne hlast, h.stored]
      exact if_congr (by omega) rfl rfl
  unfold composeSubpixel
  rw [hsame]
  dsimp only
  generalize src dst (out + n) = color at hstored
  by_cases hclear : color >>> 24 = 0
  · rw [if_pos hclear]
    refine ⟨hstored _ ?_, h.repeated⟩
    rw [composite_eq_rule, ← resolve_transparent l hclear, scaledRule]
  · rw [if_neg hclear]
    by_cases hlast : color = s.lastColor
    · rw [if_pos hlast]
      refine ⟨hstored _ ?_, h.repeated⟩
      rw [hlast] at hclear ⊢
      exact h.repeated hclear
    · rw [if_neg hlast, composite_eq_rule]
      exact ⟨hstored _ rfl, fun _ => rfl⟩

include hsrc in
theorem Composed.run {x out : ℕ} (dst : ℕ → U32) (n : ℕ) :
    l.Composed effect src x out n dst ((List.range n).foldl (l.composeSubpixel effect src x out
      (l.composite effect x (l.resolve3DPixel x 0 (l.bgobjLine x) (l.bgobjLine (x + 256)))))
        ⟨0, 0, dst⟩) := by
  induction n with
  | zero =>
    refine ⟨fun j => ?_, fun h => absurd (by decide : (0 : U32) >>> 24 = 0) h⟩
    rw [if_neg (by omega)]
    rfl
  | succ n ih =>
    rw [List.range_succ, List.foldl_append, List.foldl_cons, List.foldl_nil]
    exact ih.subpixel l effect hsrc

include hsrc in
theorem composePixel_apply (scale : ℕ) (dst : ℕ → U32) (x j : ℕ) :
    l.composePixel effect src scale dst x j =
      if x * scale ≤ j ∧ j < x * scale + scale then l.scaledRule effect x (src dst j)
      else dst j := by
  unfold composePixel
  dsimp only
  by_cases hnone : l.bgobjLine x >>> 24 &&& 0xC0 ≠ 0x40 ∧
      l.bgobjLine (x + 256) >>> 24 &&& 0xC0 ≠ 0x40
  · rw [if_pos hnone, fillN, composite_eq_rule, scaledRule, resolve_of_none l hnone.1 hnone.2]
  · rw [if_neg hnone]
    exact (Composed.run l effect hsrc dst scale).stored j

include hsrc in
/-- The columns one after the other: nothing is stored before it is read. -/
theorem composePixels_apply (scale : ℕ) (dst : ℕ → U32) (n j : ℕ) :
    (List.range n).foldl (l.composePixel effect src scale) dst j =
      if j < n * scale then l.scaledRule effect (j / scale) (src dst j) else dst j := by
  induction n generalizing j with
  | zero =>
    rw [Nat.zero_mul, if_neg (Nat.not_lt_zero j)]
    rfl
  | succ n ih =>
    rw [List.range_succ, List.foldl_append, List.foldl_cons, List.foldl_nil,
      composePixel_apply l effect hsrc, Nat.succ_mul]
    by_cases hcolumn : n * scale ≤ j ∧ j < n * scale + scale
    · have hdiv : j / scale = n := Nat.div_eq_of_lt_le hcolumn.1 (by
        rw [Nat.succ_mul]
        exact hcolumn.2)
      have hread : src ((List.range n).foldl (l.composePixel effect src scale) dst) j =
          src dst j := by
        apply hsrc
        rw [ih, if_neg (by omega)]
      rw [if_pos hcolumn, if_pos hcolumn.2, hread, hdiv]
    · rw [if_neg hcolumn, ih]
      exact if_congr (by omega) rfl rfl

end

/-- Every subpixel of a scaled line is composed by the rule from its own 3D pixel. -/
theorem composeScaledLine_apply (inPlace : Bool) (dst pixels3D : ℕ → U32) (scale j : ℕ) :
    l.composeScaledLine effect inPlace dst pixels3D scale j =
      if j < 256 * scale then l.scaledRule effect (j / scale) (source inPlace pixels3D dst j)
      else dst j :=
  composePixels_apply l effect (pointwise_source inPlace pixels3D) scale dst 256 j

end Line

/-- The fast paths of the compositor follow the rules for each pixel. -/
theorem compositor_fast_paths :
    (∀ (l : Line) (effect : ℕ) (dst : ℕ → U32) (x : ℕ), x < 256 →
      l.colorComposite effect dst x = l.rule effect x (l.pixels x)) ∧
    (∀ (l : Line) (effect : ℕ) (inPlace : Bool) (dst pixels3D : ℕ → U32) (scale x sub : ℕ),
      x < 256 → sub < scale →
      l.composeScaledLine effect inPlace dst pixels3D scale (x * scale + sub) =
        l.rule effect x (l.resolve3DPixel x (Line.source inPlace pixels3D dst (x * scale + sub))
          (l.bgobjLine x) (l.bgobjLine (x + 256)))) ∧
    ∀ (r : WindowRun) (es : List WindowEvent),
      es.foldl (WindowRun.step calculateWindowMaskIntervals) r =
        es.foldl (WindowRun.step calculateWindowMask) r := by
  refine ⟨fun l effect dst x hx => ?_, fun l effect inPlace dst pixels3D scale x sub hx hsub => ?_,
    windowRun_intervals⟩
  · rw [Line.colorComposite_apply, if_pos hx]
  · have hlt : x * scale + sub < 256 * scale := by
      have hrow : (x + 1) * scale ≤ 256 * scale := Nat.mul_le_mul_right scale hx
      rw [Nat.succ_mul] at hrow
      omega
    have hdiv : (x * scale + sub) / scale = x := by
      rw [Nat.mul_comm, Nat.mul_add_div (Nat.zero_lt_of_lt hsub), Nat.div_eq_of_lt hsub,
        Nat.add_zero]
    rw [Line.composeScaledLine_apply, if_pos hlt, hdiv, Line.scaledRule]

/-- A placeholder over a white backdrop, blended with the 3D layer as the first target. -/
def placeholderLine : Line where
  bgobjLine x := if x < 256 then 0x40000000 else 0x203F3F3F
  below3D _ := 0x203F3F3F
  windowMask _ := 0xFF
  output3D _ := 0x0F000000
  scaled3DActive := true
  blendCnt := 0x2041
  eva := 16
  evb := 16
  evy := 0

theorem compositor_fast_paths_placeholder :
    placeholderLine.colorComposite 1 (fun _ => 0) 7 = 0xFF202020 ∧
      placeholderLine.composeScaledLine 1 true (fun _ => 0x0F000000) (fun _ => 0) 2 (7 * 2 + 1) =
        0xFF202020 := by
  obtain ⟨hnative, hscaled, -⟩ := compositor_fast_paths
  exact ⟨(hnative placeholderLine 1 (fun _ => 0) 7 (by decide)).trans (by decide),
    (hscaled placeholderLine 1 true (fun _ => 0x0F000000) (fun _ => 0) 2 7 1 (by decide)
      (by decide)).trans (by decide)⟩

end MelonDS.GPU2D

import Mathlib.Tactic.FinCases
import MelonDS.NDSCart.DLDI

/-!
# What a DLDI patch changes

The checks leave no access of the relocation outside its buffers. Each word is relocated from the
patch, not from the copy, so ranges that overlap do not relocate it twice, and a patch applied to
its own output finds the same slot and writes the same bytes.
-/

namespace MelonDS.NDSCart.DLDI
open AlignedWords

/-! ## Computations without a fault -/

variable {α β : Type}

theorem bind_eq_ok {x : Except Stop α} {f : α → Except Stop β} {b : β} :
    x >>= f = .ok b ↔ ∃ a, x = .ok a ∧ f a = .ok b := by
  cases x with
  | error e => simp [bind, Except.bind]
  | ok a => simp [bind, Except.bind]

theorem bind_ne_fault {x : Except Stop α} {f : α → Except Stop β} (hx : x ≠ .error .fault)
    (hf : ∀ a, x = .ok a → f a ≠ .error .fault) : x >>= f ≠ .error .fault := by
  cases x with
  | error e => exact fun h => hx (by simpa [bind, Except.bind] using h)
  | ok a => exact hf a rfl

theorem reject_eq_ok {bad : Prop} [Decidable bad] {u : Unit} :
    reject bad = .ok u ↔ ¬bad := by
  unfold reject
  split_ifs with h
  · simp [h]
  · simp [h]

theorem reject_ne_fault (bad : Prop) [Decidable bad] : reject bad ≠ .error .fault := by
  unfold reject
  split_ifs <;> simp

theorem ok_ne_fault (a : α) : (.ok a : Except Stop α) ≠ .error .fault := nofun

theorem read8_of_lt {b : Buffer} {i : ℕ} (h : i < b.size.toNat) : b.read8 i = .ok (b.bytes i) :=
  if_pos h

theorem read32_of_le {b : Buffer} {i : ℕ} (h : i + 4 ≤ b.size.toNat) :
    b.read32 i = .ok (wordAt b.bytes i) := if_pos h

theorem hasMagic_eq {b : Buffer} {start : ℕ} (h : start + 12 ≤ b.size.toNat) :
    hasMagic b start = .ok ((List.range 12).map (fun i => b.bytes (start + i)) == magic) := by
  have hread : ∀ is : List ℕ, (∀ i ∈ is, i < 12) →
      is.mapM (fun i => b.read8 (start + i)) =
        (.ok (is.map fun i => b.bytes (start + i)) : Except Stop (List U8)) := by
    intro is his
    induction is with
    | nil => rfl
    | cons i is ih =>
      have hi := his i (List.mem_cons_self ..)
      rw [List.mapM_cons, read8_of_lt (by omega), ih fun j hj => his j (List.mem_cons_of_mem i hj)]
      rfl
  rw [hasMagic, hread _ fun i hi => List.mem_range.mp hi]
  rfl

/-! ## The checks -/

theorem identify_ne_fault {binary patch : Buffer} {target : ℕ} (hpatch : 0x80 ≤ patch.size.toNat)
    (htarget : target + 0x80 ≤ binary.size.toNat) :
    identify binary target patch ≠ .error .fault := by
  unfold identify
  rw [hasMagic_eq (by omega), hasMagic_eq (by omega), read8_of_lt (by omega),
    read8_of_lt (by omega), read8_of_lt (by omega), read8_of_lt (by omega), read8_of_lt (by omega)]
  dsimp only [bind, Except.bind]
  exact bind_ne_fault (reject_ne_fault _) fun _ _ => ok_ne_fault _

theorem slotBase_ne_fault {binary : Buffer} {target : ℕ}
    (htarget : target + 0x80 ≤ binary.size.toNat) : slotBase binary target ≠ .error .fault := by
  unfold slotBase
  rw [read32_of_le (by omega), read32_of_le (by omega)]
  dsimp only [bind, Except.bind]
  split_ifs
  · exact bind_ne_fault (reject_ne_fault _) fun _ _ => ok_ne_fault _
  · exact ok_ne_fault _

variable {patch : Buffer}

theorem checkSection_ne_fault (hpatch : 0x80 ≤ patch.size.toNat) (patchbase patchsize : U32)
    (fixmask : U8) (i : Fin 4) :
    checkSection patch patchbase patchsize fixmask i ≠ .error .fault := by
  have hi := i.isLt
  unfold checkSection
  rw [read32_of_le (by omega), read32_of_le (by omega)]
  dsimp only [bind, Except.bind]
  split_ifs
  · exact ok_ne_fault _
  all_goals
    exact bind_ne_fault (reject_ne_fault _) fun _ _ => bind_ne_fault (reject_ne_fault _) fun _ _ =>
      bind_ne_fault (reject_ne_fault _) fun _ _ => ok_ne_fault _

theorem checkEntry_ne_fault {address : ℕ} (haddress : address + 4 ≤ patch.size.toNat)
    (patchbase textEnd : U32) : checkEntry patch patchbase textEnd address ≠ .error .fault := by
  unfold checkEntry
  rw [read32_of_le haddress]
  dsimp only [bind, Except.bind]
  split_ifs
  · exact ok_ne_fault _
  all_goals exact reject_ne_fault _

theorem checkWrite_ne_fault (hpatch : 0x80 ≤ patch.size.toNat) (readonly : Bool)
    (patchbase textEnd : U32) : checkWrite readonly patch patchbase textEnd ≠ .error .fault := by
  unfold checkWrite
  split_ifs
  · rw [read32_of_le (by omega)]
    exact bind_ne_fault (ok_ne_fault _) fun _ _ => bind_ne_fault (reject_ne_fault _) fun _ _ => ok_ne_fault _
  · exact ok_ne_fault _

theorem forM_ne_fault {f : ℕ → Except Stop Unit} {as : List ℕ}
    (h : ∀ a ∈ as, f a ≠ .error .fault) : as.forM f ≠ .error .fault := by
  induction as with
  | nil => exact ok_ne_fault _
  | cons a as ih =>
    exact bind_ne_fault (h a (List.mem_cons_self ..)) fun _ _ =>
      ih fun b hb => h b (List.mem_cons_of_mem a hb)

theorem layout_ne_fault (hpatch : 0x80 ≤ patch.size.toNat) (patchsize memaddr : U32)
    (readonly : Bool) : layout patch patchsize memaddr readonly ≠ .error .fault := by
  unfold layout
  rw [read32_of_le (by omega), read8_of_lt (by omega)]
  have hsection := checkSection_ne_fault hpatch
  refine bind_ne_fault (ok_ne_fault _) fun _ _ => bind_ne_fault (reject_ne_fault _) fun _ _ =>
    bind_ne_fault (ok_ne_fault _) fun _ _ => bind_ne_fault (hsection _ _ _ _) fun _ _ =>
    bind_ne_fault (hsection _ _ _ _) fun _ _ => bind_ne_fault (hsection _ _ _ _) fun _ _ =>
    bind_ne_fault (hsection _ _ _ _) fun s _ => bind_ne_fault (reject_ne_fault _) fun _ _ =>
    bind_ne_fault (forM_ne_fault fun a ha => checkEntry_ne_fault ?_ _ _) fun _ _ =>
    bind_ne_fault (checkWrite_ne_fault hpatch readonly _ _) fun _ _ => ok_ne_fault _
  have hmax : ∀ a ∈ entries, a + 4 ≤ 0x80 := by decide
  have := hmax a ha
  omega

theorem check_ne_fault (binary : Buffer) (dldioffset : U32) (patch : Buffer) (readonly : Bool) :
    check binary dldioffset patch readonly ≠ .error .fault := by
  unfold check
  refine bind_ne_fault (reject_ne_fault _) fun _ hsizes => ?_
  rw [reject_eq_ok] at hsizes
  have hpatch : 0x80 ≤ patch.size.toNat := by
    by_contra hlt
    exact hsizes (.inl (BitVec.lt_def.mpr (by simpa using hlt)))
  have htarget : dldioffset.toNat + 0x80 ≤ binary.size.toNat := by
    bv_omega
  exact bind_ne_fault (identify_ne_fault hpatch htarget) fun sizes _ =>
    bind_ne_fault (reject_ne_fault _) fun _ _ => bind_ne_fault (slotBase_ne_fault htarget)
      fun memaddr _ => layout_ne_fault hpatch _ _ _

theorem toNat_le_of_not_lt {w : ℕ} {a b : BitVec w} (h : ¬a < b) : b.toNat ≤ a.toNat :=
  BitVec.le_def.mp (BitVec.not_lt.mp h)

/-- A range of a section, as far as the accesses to it need. -/
structure SectionSound (patch : Buffer) (patchsize : U32) (fixmask : U8) (i : Fin 4)
    (range : U32 × U32) : Prop where
  order : range.1.toNat ≤ range.2.toNat
  inside : range.2.toNat ≤ (if i = 3 then patchsize else patch.size).toNat
  aligned : i < 3 → fixmask.getLsbD i = true → range.1.toNat % 4 = 0 ∧ range.2.toNat % 4 = 0
  behindHeader : i ≠ 0 → range.1 ≠ range.2 → 0x80 ≤ range.1.toNat

theorem toNat_mod_four_of_and {v : U32} (h : v &&& 3 = 0) : v.toNat % 4 = 0 := by
  have hnat := congrArg BitVec.toNat h
  rw [BitVec.toNat_and] at hnat
  have hmask := Nat.and_two_pow_sub_one_eq_mod v.toNat 2
  exact hmask.symm.trans hnat

theorem and_three_of_or {a b : U32} (h : (a ||| b) &&& 3 = 0) : a &&& 3 = 0 ∧ b &&& 3 = 0 := by
  rw [BitVec.and_comm, BitVec.and_or_distrib_left] at h
  obtain ⟨ha, hb⟩ := BitVec.or_eq_zero_iff.mp h
  exact ⟨(BitVec.and_comm ..).trans ha, (BitVec.and_comm ..).trans hb⟩

theorem checkSection_sound {patchbase patchsize : U32} {fixmask : U8} {i : Fin 4}
    {range : U32 × U32} (h : checkSection patch patchbase patchsize fixmask i = .ok range) :
    SectionSound patch patchsize fixmask i range := by
  unfold checkSection at h
  obtain ⟨start, -, h⟩ := bind_eq_ok.mp h
  obtain ⟨stop, -, h⟩ := bind_eq_ok.mp h
  by_cases habsent : i ≠ 0 ∧ start = 0 ∧ stop = 0
  · rw [if_pos habsent] at h
    cases h
    exact ⟨le_rfl, Nat.zero_le _, fun _ _ => ⟨rfl, rfl⟩, fun _ hne => absurd rfl hne⟩
  · rw [if_neg habsent] at h
    obtain ⟨_, hinside, h⟩ := bind_eq_ok.mp h
    obtain ⟨_, haligned, h⟩ := bind_eq_ok.mp h
    obtain ⟨_, hbehind, h⟩ := bind_eq_ok.mp h
    rw [reject_eq_ok] at hinside haligned hbehind
    cases h
    push Not at hinside hbehind
    refine ⟨?_, ?_, fun hi hfix => ?_, fun hi hne => ?_⟩
    · obtain ⟨hlow, horder, -⟩ := hinside
      bv_omega
    · exact toNat_le_of_not_lt hinside.2.2
    · have hzero : ((start - patchbase) ||| (stop - patchbase)) &&& 3 = 0 := by
        by_contra hne
        exact haligned ⟨hi, hfix, hne⟩
      obtain ⟨hstart, hstop⟩ := and_three_of_or hzero
      exact ⟨toNat_mod_four_of_and hstart, toNat_mod_four_of_and hstop⟩
    · exact toNat_le_of_not_lt (hbehind hi hne)

/-- What the checks promise of a plan. -/
structure Plan.Sound (plan : Plan) (patch : Buffer) (readonly : Bool) : Prop where
  header : 0x80 ≤ patch.size.toNat
  base : plan.patchbase = wordAt patch.bytes 0x40
  sections : ∀ i, SectionSound patch plan.patchsize plan.fixmask i (plan.sections i)
  write : readonly = true → plan.writesec.toNat % 4 = 0 ∧ 0x80 ≤ plan.writesec.toNat ∧
    plan.writesec.toNat + 8 ≤ patch.size.toNat

theorem toNat_sub_mod_four {a b : U32} (ha : a &&& 3 = 0) (hb : b &&& 3 = 0) (h : b ≤ a) :
    (a - b).toNat % 4 = 0 := by
  have ha' := toNat_mod_four_of_and ha
  have hb' := toNat_mod_four_of_and hb
  have hsub := BitVec.toNat_sub_of_le h
  omega

theorem checkWrite_sound {readonly : Bool} {patchbase textEnd writesec : U32}
    (hbase : patchbase &&& 3 = 0)
    (h : checkWrite readonly patch patchbase textEnd = .ok writesec) (hreadonly : readonly = true) :
    writesec.toNat % 4 = 0 ∧ 0x80 ≤ writesec.toNat ∧ writesec.toNat + 8 ≤ textEnd.toNat := by
  unfold checkWrite at h
  rw [if_pos hreadonly] at h
  obtain ⟨entry, -, h⟩ := bind_eq_ok.mp h
  obtain ⟨_, hreject, h⟩ := bind_eq_ok.mp h
  rw [reject_eq_ok] at hreject
  push Not at hreject
  obtain ⟨hmask, hlow, hheader, htext, hroom⟩ := hreject
  cases h
  refine ⟨toNat_sub_mod_four hmask hbase (BitVec.not_lt.mp hlow), toNat_le_of_not_lt hheader, ?_⟩
  have hroom' := toNat_le_of_not_lt hroom
  rw [BitVec.toNat_sub_of_le (BitVec.not_lt.mp htext)] at hroom'
  have htext' := toNat_le_of_not_lt htext
  have height : (8 : U32).toNat = 8 := rfl
  omega

theorem layout_sound {patchsize memaddr : U32} {readonly : Bool} {plan : Plan}
    (hpatch : 0x80 ≤ patch.size.toNat) (h : layout patch patchsize memaddr readonly = .ok plan) :
    plan.Sound patch readonly ∧ plan.memaddr = memaddr ∧ plan.patchsize = patchsize := by
  unfold layout at h
  rw [read32_of_le (by omega)] at h
  obtain ⟨patchbase, hbase, h⟩ := bind_eq_ok.mp h
  obtain ⟨_, hreject, h⟩ := bind_eq_ok.mp h
  obtain ⟨fixmask, -, h⟩ := bind_eq_ok.mp h
  obtain ⟨s0, h0, h⟩ := bind_eq_ok.mp h
  obtain ⟨s1, h1, h⟩ := bind_eq_ok.mp h
  obtain ⟨s2, h2, h⟩ := bind_eq_ok.mp h
  obtain ⟨s3, h3, h⟩ := bind_eq_ok.mp h
  obtain ⟨_, -, h⟩ := bind_eq_ok.mp h
  obtain ⟨_, -, h⟩ := bind_eq_ok.mp h
  obtain ⟨writesec, hwrite, h⟩ := bind_eq_ok.mp h
  rw [reject_eq_ok] at hreject
  push Not at hreject
  cases hbase
  cases h
  have hs0 := checkSection_sound h0
  refine ⟨⟨hpatch, rfl, fun i => ?_, fun hreadonly => ?_⟩, rfl, rfl⟩
  · fin_cases i
    · exact hs0
    · exact checkSection_sound h1
    · exact checkSection_sound h2
    · exact checkSection_sound h3
  · obtain ⟨hmod, hheader, htext⟩ := checkWrite_sound hreject.1 hwrite hreadonly
    have hinside := hs0.inside
    rw [if_neg (by decide)] at hinside
    exact ⟨hmod, hheader, htext.trans hinside⟩

/-- What the checks find of the target. -/
structure SlotFound (binary : Buffer) (dldioffset : U32) (patch : Buffer) (plan : Plan) : Prop where
  magic : ∀ i < 12, binary.bytes (dldioffset.toNat + i) = patch.bytes i
  version : binary.bytes (dldioffset.toNat + 0x0C) = patch.bytes 0x0C
  patchFits : patch.size.toNat ≤ plan.patchsize.toNat
  driverFits : plan.patchsize.toNat ≤ 2 ^ (binary.bytes (dldioffset.toNat + 0x0F)).toNat
  slotFits : dldioffset.toNat + 2 ^ (binary.bytes (dldioffset.toNat + 0x0F)).toNat ≤
    binary.size.toNat
  memaddr : slotBase binary dldioffset.toNat = .ok plan.memaddr

theorem check_sound {binary : Buffer} {dldioffset : U32} {readonly : Bool} {plan : Plan}
    (h : check binary dldioffset patch readonly = .ok plan) :
    plan.Sound patch readonly ∧ SlotFound binary dldioffset patch plan := by
  unfold check at h
  obtain ⟨_, hsizes, h⟩ := bind_eq_ok.mp h
  obtain ⟨⟨patchsize, capacity⟩, hidentify, h⟩ := bind_eq_ok.mp h
  obtain ⟨_, hfit, h⟩ := bind_eq_ok.mp h
  obtain ⟨memaddr, hmemaddr, h⟩ := bind_eq_ok.mp h
  rw [reject_eq_ok] at hsizes hfit
  push Not at hsizes hfit
  have hpatch : 0x80 ≤ patch.size.toNat := toNat_le_of_not_lt hsizes.1
  have hle : dldioffset ≤ binary.size := BitVec.not_lt.mp hsizes.2.1
  have hoffset := BitVec.le_def.mp hle
  have hroom := toNat_le_of_not_lt hsizes.2.2
  rw [BitVec.toNat_sub_of_le hle] at hroom
  have height : (0x80 : U32).toNat = 0x80 := rfl
  have htarget : dldioffset.toNat + 0x80 ≤ binary.size.toNat := by omega
  obtain ⟨hsound, hplan, hplansize⟩ := layout_sound hpatch h
  refine ⟨hsound, ?_⟩
  unfold identify at hidentify
  rw [hasMagic_eq (by omega), hasMagic_eq (by omega), read8_of_lt (by omega),
    read8_of_lt (by omega), read8_of_lt (by omega), read8_of_lt (by omega),
    read8_of_lt (by omega)] at hidentify
  dsimp only [bind, Except.bind] at hidentify
  obtain ⟨_, hreject, hidentify⟩ := bind_eq_ok.mp hidentify
  rw [reject_eq_ok] at hreject
  push Not at hreject
  obtain ⟨hmagic, hmagic', hversion, hversion', -, -, hdriver, -, hslot⟩ := hreject
  cases hidentify
  have hcapacity : ((1 : U32) <<< (binary.bytes (dldioffset.toNat + 0x0F)).toNat).toNat =
      2 ^ (binary.bytes (dldioffset.toNat + 0x0F)).toNat := by
    have hlt : (binary.bytes (dldioffset.toNat + 0x0F)).toNat < 32 :=
      BitVec.lt_def.mp (BitVec.not_le.mp hslot)
    rw [BitVec.toNat_shiftLeft, Nat.shiftLeft_eq]
    change 1 * _ % _ = _
    rw [Nat.one_mul, Nat.mod_eq_of_lt (Nat.pow_lt_pow_right (by decide) hlt)]
  have hslotroom := toNat_le_of_not_lt hfit.2.2
  rw [BitVec.toNat_sub_of_le hle, hcapacity] at hslotroom
  refine ⟨fun i hi => ?_, hversion'.trans hversion.symm, ?_, ?_, by omega, ?_⟩
  · have hsame := (beq_iff_eq.mp hmagic').trans (beq_iff_eq.mp hmagic).symm
    have hget := congrArg (fun l : List U8 => l[i]?) hsame
    simpa [hi] using hget
  · rw [hplansize]
    exact toNat_le_of_not_lt hfit.2.1
  · rw [hplansize, ← hcapacity]
    exact toNat_le_of_not_lt hfit.1
  · rw [hmemaddr, hplan]

/-! ## The driver in the slot -/

/-- The addresses that a section of the fix mask relocates. -/
def Plan.fixes (plan : Plan) (patch : Buffer) (i : Fin 4) : List ℕ :=
  if plan.fixmask.getLsbD i then
    (steps (plan.sections i).1.toNat (plan.sections i).2.toNat).filter fun a =>
      plan.Inside (wordAt patch.bytes a)
  else []

/-- The words relocated, some of them more than once. -/
def Plan.moved (plan : Plan) (patch : Buffer) : List ℕ :=
  headerWords ++ (plan.fixes patch 0 ++ plan.fixes patch 1 ++ plan.fixes patch 2)

/-- A byte of the patch with each word relocated once. -/
def Plan.relocated (plan : Plan) (patch : Buffer) (i : ℕ) : U8 :=
  if 4 * (i / 4) ∈ plan.moved patch then
    byteOf (wordAt patch.bytes (4 * (i / 4)) + (plan.memaddr - plan.patchbase)) (i % 4)
  else patch.bytes i

/-- A byte of the driver as it goes into the slot. -/
def Plan.driver (plan : Plan) (patch : Buffer) (readonly : Bool) (slotSize : U8) (i : ℕ) : U8 :=
  if i = 0x0F then slotSize
  else if readonly ∧ plan.writesec.toNat ≤ i ∧ i < plan.writesec.toNat + 8 then
    byteOf (if i < plan.writesec.toNat + 4 then 0xE3A00000 else 0xE12FFF1E) (i % 4)
  else if readonly ∧ i = 0x64 then plan.relocated patch i &&& ~~~0x02
  else plan.relocated patch i

/-- The zeroed memory of the driver. -/
def Plan.Zeroed (plan : Plan) (i : ℕ) : Prop :=
  plan.fixmask.getLsbD 3 ∧ (plan.sections 3).1.toNat ≤ i ∧ i < (plan.sections 3).2.toNat

instance (plan : Plan) : DecidablePred plan.Zeroed := fun _ =>
  inferInstanceAs (Decidable (_ ∧ _ ∧ _))

def Plan.image (plan : Plan) (binary : Buffer) (dldioffset : U32) (patch : Buffer)
    (readonly : Bool) : Buffer where
  size := binary.size
  bytes := fun j =>
    if dldioffset.toNat ≤ j ∧ plan.Zeroed (j - dldioffset.toNat) then 0
    else if dldioffset.toNat ≤ j ∧ j < dldioffset.toNat + patch.size.toNat then
      plan.driver patch readonly (binary.bytes (dldioffset.toNat + 0x0F)) (j - dldioffset.toNat)
    else binary.bytes j

theorem mem_steps {start stop a : ℕ} (hstart : start % 4 = 0) (hstop : stop % 4 = 0)
    (h : a ∈ steps start stop) : a % 4 = 0 ∧ start ≤ a ∧ a + 4 ≤ stop := by
  obtain ⟨k, hk, rfl⟩ := List.mem_map.mp h
  rw [List.mem_range] at hk
  omega

variable {plan : Plan} {readonly : Bool}

theorem Plan.Sound.mem_moved (h : plan.Sound patch readonly) {a : ℕ} (ha : a ∈ plan.moved patch) :
    a % 4 = 0 ∧ a + 4 ≤ patch.size.toNat := by
  have hfix : ∀ i : Fin 4, i < 3 → a ∈ plan.fixes patch i →
      a % 4 = 0 ∧ a + 4 ≤ patch.size.toNat := by
    intro i hi hmem
    unfold Plan.fixes at hmem
    split_ifs at hmem with hbit
    · have hsection := h.sections i
      obtain ⟨hstart, hstop⟩ := hsection.aligned hi hbit
      obtain ⟨hmod, -, hle⟩ := mem_steps hstart hstop (List.mem_filter.mp hmem).1
      have hinside := hsection.inside
      rw [if_neg (by rintro rfl; exact absurd hi (by decide))] at hinside
      omega
    · cases hmem
  rcases List.mem_append.mp ha with hheader | hfixes
  · have hall : ∀ a ∈ headerWords, a % 4 = 0 ∧ a + 4 ≤ 0x80 := by decide
    obtain ⟨hmod, hle⟩ := hall a hheader
    have := h.header
    omega
  · rw [List.mem_append, List.mem_append] at hfixes
    rcases hfixes with (h0 | h1) | h2
    · exact hfix 0 (by decide) h0
    · exact hfix 1 (by decide) h1
    · exact hfix 2 (by decide) h2

theorem foldlM_eq_foldl (Good : Buffer → Prop) {f : Buffer → ℕ → Except Stop Buffer}
    {g : Buffer → ℕ → Buffer} (as : List ℕ)
    (h : ∀ a ∈ as, ∀ b, Good b → f b a = .ok (g b a) ∧ Good (g b a)) (b : Buffer) (hb : Good b) :
    as.foldlM f b = .ok (as.foldl g b) ∧ Good (as.foldl g b) := by
  induction as generalizing b with
  | nil => exact ⟨rfl, hb⟩
  | cons a as ih =>
    obtain ⟨hstep, hgood⟩ := h a (List.mem_cons_self ..) b hb
    obtain ⟨hrest, hlast⟩ := ih (fun c hc => h c (List.mem_cons_of_mem a hc)) (g b a) hgood
    refine ⟨?_, hlast⟩
    rw [List.foldlM_cons, hstep]
    exact hrest

/-- A relocated copy: the size is that of the patch. -/
def relocateWord (patch : Buffer) (delta : U32) (b : Buffer) (a : ℕ) : Buffer :=
  { b with bytes := setWord b.bytes a (wordAt patch.bytes a + delta) }

theorem relocate_eq {b : Buffer} {a : ℕ} (hb : b.size = patch.size)
    (ha : a + 4 ≤ patch.size.toNat) (delta : U32) :
    relocate patch delta b a = .ok (relocateWord patch delta b a) := by
  unfold relocate
  rw [read32_of_le ha]
  exact if_pos (by rw [hb]; exact ha)

theorem foldl_filter_relocateWord (delta : U32) (as : List ℕ) (b : Buffer) :
    as.foldl (fun b a => if plan.Inside (wordAt patch.bytes a) then relocateWord patch delta b a
        else b) b =
      (as.filter fun a => plan.Inside (wordAt patch.bytes a)).foldl (relocateWord patch delta) b := by
  induction as generalizing b with
  | nil => rfl
  | cons a as ih =>
    rw [List.foldl_cons, ih, List.filter_cons]
    by_cases h : plan.Inside (wordAt patch.bytes a) <;> simp [h]

theorem fixSection_eq (h : plan.Sound patch readonly) {i : Fin 4} (hi : i < 3) (delta : U32)
    {b : Buffer} (hb : b.size = patch.size) :
    fixSection patch plan delta b i =
        .ok ((plan.fixes patch i).foldl (relocateWord patch delta) b) ∧
      ((plan.fixes patch i).foldl (relocateWord patch delta) b).size = patch.size := by
  have hsize : ∀ as : List ℕ, ∀ b : Buffer, b.size = patch.size →
      (as.foldl (relocateWord patch delta) b).size = patch.size := by
    intro as
    induction as with
    | nil => exact fun b hb => hb
    | cons a as ih => exact fun b hb => ih _ hb
  refine ⟨?_, hsize _ b hb⟩
  unfold fixSection Plan.fixes
  by_cases hbit : plan.fixmask.getLsbD i = true
  · rw [if_pos hbit, if_pos hbit, ← foldl_filter_relocateWord]
    refine (foldlM_eq_foldl (fun b : Buffer => b.size = patch.size) _ (fun a ha b hb => ?_) b hb).1
    have hsection := h.sections i
    obtain ⟨hstart, hstop⟩ := hsection.aligned hi hbit
    obtain ⟨-, -, hle⟩ := mem_steps hstart hstop ha
    have hinside := hsection.inside
    rw [if_neg (by rintro rfl; exact absurd hi (by decide))] at hinside
    rw [read32_of_le (by omega)]
    dsimp only [bind, Except.bind]
    split_ifs with hin
    · exact ⟨relocate_eq hb (by omega) delta, hb⟩
    · exact ⟨rfl, hb⟩
  · rw [if_neg hbit, if_neg hbit]
    rfl

theorem foldl_relocateWord_bytes (delta : U32) (as : List ℕ) (b : Buffer) :
    (as.foldl (relocateWord patch delta) b).bytes =
      as.foldl (fun m a => setWord m a (wordAt patch.bytes a + delta)) b.bytes := by
  induction as generalizing b with
  | nil => rfl
  | cons a as ih => exact ih (relocateWord patch delta b a)

/-- The copy once all its words are relocated. -/
theorem relocated_eq (h : plan.Sound patch readonly) :
    ((plan.moved patch).foldl (relocateWord patch (plan.memaddr - plan.patchbase)) patch).bytes =
      plan.relocated patch := by
  funext i
  rw [foldl_relocateWord_bytes, foldl_setWord fun a ha => (h.mem_moved ha).1]
  rfl

theorem byteOf_mod {a i : ℕ} (ha : a % 4 = 0) (hi : a ≤ i ∧ i < a + 4) (v : U32) :
    byteOf v (i - a) = byteOf v (i % 4) := by
  congr 1
  omega

theorem prepare_eq (h : plan.Sound patch readonly) (slotSize : U8) :
    prepare plan patch readonly slotSize =
      .ok ⟨patch.size, plan.driver patch readonly slotSize⟩ := by
  have hheader := h.header
  have hsize : ∀ b : Buffer, b.size = patch.size → ∀ a, (relocateWord patch
      (plan.memaddr - plan.patchbase) b a).size = patch.size := fun b hb a => hb
  obtain ⟨hwords, hsize0⟩ := foldlM_eq_foldl (fun b : Buffer => b.size = patch.size)
    headerWords (fun a ha b hb => by
      have hall : ∀ a ∈ headerWords, a + 4 ≤ 0x80 := by decide
      have := hall a ha
      exact ⟨relocate_eq hb (by omega) (plan.memaddr - plan.patchbase), hsize b hb a⟩) patch rfl
  obtain ⟨h0, hsize0⟩ := fixSection_eq h (i := 0) (by decide) (plan.memaddr - plan.patchbase) hsize0
  obtain ⟨h1, hsize1⟩ := fixSection_eq h (i := 1) (by decide) (plan.memaddr - plan.patchbase) hsize0
  obtain ⟨h2, hsize2⟩ := fixSection_eq h (i := 2) (by decide) (plan.memaddr - plan.patchbase) hsize1
  have hbytes := relocated_eq h
  rw [Plan.moved, List.foldl_append, List.foldl_append, List.foldl_append] at hbytes
  unfold prepare
  simp only [bind, Except.bind, hwords, List.foldlM_cons, List.foldlM_nil, h0, h1, h2, pure,
    Except.pure]
  generalize List.foldl _ _ (plan.fixes patch 2) = b at hsize2 hbytes
  obtain ⟨size, bytes⟩ := b
  subst hsize2 hbytes
  unfold forbidWrites
  cases readonly with
  | false =>
    rw [if_neg (by decide)]
    dsimp only [pure, Except.pure]
    rw [Buffer.write8, if_pos (show 0x0F < patch.size.toNat by omega)]
    congr 2
    funext i
    rw [Function.update_apply, Plan.driver]
    simp
  | true =>
    obtain ⟨hmod, hbehind, hroom⟩ := h.write rfl
    rw [if_pos rfl, Buffer.read8, if_pos (show 0x64 < patch.size.toNat by omega)]
    simp only [bind, Except.bind, Buffer.write8, Buffer.write32]
    rw [if_pos (show 0x64 < patch.size.toNat by omega)]
    dsimp only
    rw [if_pos (show plan.writesec.toNat + 4 ≤ patch.size.toNat by omega)]
    dsimp only
    rw [if_pos (show plan.writesec.toNat + 4 + 4 ≤ patch.size.toNat by omega)]
    dsimp only
    rw [if_pos (show 0x0F < patch.size.toNat by omega)]
    congr 2
    funext i
    rw [Function.update_apply, Plan.driver]
    by_cases hslot : i = 0x0F
    · rw [if_pos hslot, if_pos hslot]
    rw [if_neg hslot, if_neg hslot]
    by_cases hstub : plan.writesec.toNat ≤ i ∧ i < plan.writesec.toNat + 8
    · rw [if_pos ⟨rfl, hstub⟩]
      by_cases hfirst : i < plan.writesec.toNat + 4
      · rw [if_pos hfirst, setWord, if_neg (by omega), setWord, if_pos ⟨hstub.1, hfirst⟩]
        exact byteOf_mod hmod ⟨hstub.1, hfirst⟩ _
      · rw [if_neg hfirst, setWord, if_pos (by omega)]
        exact byteOf_mod (by omega) (by omega) _
    · rw [if_neg fun hin => hstub hin.2, setWord, if_neg (by omega), setWord, if_neg (by omega)]
      by_cases hfeatures : i = 0x64
      · rw [if_pos ⟨rfl, hfeatures⟩, hfeatures, Function.update_self]
      · rw [if_neg fun hin => hfeatures hin.2, Function.update_of_ne hfeatures]

theorem commit_eq {binary : Buffer} {dldioffset : U32} (h : plan.Sound patch readonly)
    (hslot : SlotFound binary dldioffset patch plan) :
    commit binary dldioffset patch readonly plan =
      .ok (plan.image binary dldioffset patch readonly) := by
  have hheader := h.header
  have hpatch := hslot.patchFits
  have hdriver := hslot.driverFits
  have hroom := hslot.slotFits
  have hbss := (h.sections 3).inside
  have horder := (h.sections 3).order
  rw [if_pos rfl] at hbss
  unfold commit
  dsimp only [bind, Except.bind]
  rw [read8_of_lt (by omega)]
  dsimp only
  rw [prepare_eq h]
  dsimp only
  rw [Buffer.copy, if_pos ⟨by omega, le_rfl⟩]
  dsimp only
  by_cases hfix : plan.fixmask.getLsbD 3 = true
  · rw [if_pos hfix, Buffer.clear]
    have hlength : ((plan.sections 3).2 - (plan.sections 3).1).toNat =
        (plan.sections 3).2.toNat - (plan.sections 3).1.toNat :=
      BitVec.toNat_sub_of_le (BitVec.le_def.mpr horder)
    rw [hlength, if_pos (by dsimp only; omega)]
    congr 2
    funext j
    by_cases hzero : dldioffset.toNat ≤ j ∧ plan.Zeroed (j - dldioffset.toNat)
    · obtain ⟨hle, -, hstart, hstop⟩ := hzero
      rw [if_pos (by omega), if_pos ⟨hle, hfix, hstart, hstop⟩]
    · have hout : ¬(dldioffset.toNat + (plan.sections 3).1.toNat ≤ j ∧
          j < dldioffset.toNat + (plan.sections 3).1.toNat +
            ((plan.sections 3).2.toNat - (plan.sections 3).1.toNat)) := by
        intro hin
        exact hzero ⟨by omega, hfix, by omega, by omega⟩
      rw [if_neg hout, if_neg hzero]
  · rw [if_neg hfix]
    refine congrArg Except.ok (congrArg (Buffer.mk binary.size) (funext fun j => ?_))
    rw [if_neg fun hzero : _ ∧ plan.Zeroed (j - dldioffset.toNat) => hfix hzero.2.1]

/-! ## A patch applied again -/

theorem Plan.Sound.image_header (h : plan.Sound patch readonly) (binary : Buffer)
    (dldioffset : U32) {i : ℕ} (hi : i < 0x80) :
    (plan.image binary dldioffset patch readonly).bytes (dldioffset.toNat + i) =
      plan.driver patch readonly (binary.bytes (dldioffset.toNat + 0x0F)) i := by
  have hheader := h.header
  have hsub : dldioffset.toNat + i - dldioffset.toNat = i := Nat.add_sub_cancel_left ..
  have hzero : ¬(dldioffset.toNat ≤ dldioffset.toNat + i ∧
      plan.Zeroed (dldioffset.toNat + i - dldioffset.toNat)) := by
    rw [hsub]
    rintro ⟨-, -, hstart, hstop⟩
    have hne : (plan.sections 3).1 ≠ (plan.sections 3).2 := fun heq => by
      rw [heq] at hstart
      omega
    have := (h.sections 3).behindHeader (by decide) hne
    omega
  simp only [Plan.image]
  rw [if_neg hzero, if_pos (by omega), hsub]

theorem Plan.Sound.driver_header (h : plan.Sound patch readonly) (slotSize : U8) {i : ℕ}
    (hi : i < 0x80) (hslot : i ≠ 0x0F) (hfeatures : i ≠ 0x64) :
    plan.driver patch readonly slotSize i = plan.relocated patch i := by
  have hstub : ¬(readonly = true ∧ plan.writesec.toNat ≤ i ∧ i < plan.writesec.toNat + 8) := by
    rintro ⟨hreadonly, hle, -⟩
    have := (h.write hreadonly).2.1
    omega
  rw [Plan.driver, if_neg hslot, if_neg hstub, if_neg fun hin => hfeatures hin.2]

/-- A word of the header that is no address of the driver. -/
theorem Plan.relocated_of_not_inside {k : ℕ} (hk : k < 16)
    (h : ¬plan.Inside (wordAt patch.bytes (4 * k))) {i : ℕ} (hi : i / 4 = k) :
    plan.relocated patch i = patch.bytes i := by
  have hout : 4 * k ∉ plan.moved patch := by
    intro hmem
    rcases List.mem_append.mp hmem with hheader | hfixes
    · have hall : ∀ a ∈ headerWords, 0x40 ≤ a := by decide
      have := hall _ hheader
      omega
    · have hfix : ∀ i : Fin 4, 4 * k ∉ plan.fixes patch i := by
        intro i hmem
        unfold Plan.fixes at hmem
        split_ifs at hmem
        · exact h (of_decide_eq_true (List.mem_filter.mp hmem).2)
        · cases hmem
      rw [List.mem_append, List.mem_append] at hfixes
      rcases hfixes with (h0 | h1) | h2
      · exact hfix 0 h0
      · exact hfix 1 h1
      · exact hfix 2 h2
  rw [Plan.relocated, hi, if_neg hout]

theorem Plan.Sound.image_base (h : plan.Sound patch readonly) (binary : Buffer)
    (dldioffset : U32) :
    wordAt (plan.image binary dldioffset patch readonly).bytes (dldioffset.toNat + 0x40) =
      plan.memaddr := by
  apply wordAt_of_bytes
  intro i hi
  have hmem : 0x40 ∈ plan.moved patch := List.mem_append_left _ (by decide)
  rw [Nat.add_assoc, h.image_header binary dldioffset (by omega),
    h.driver_header _ (by omega) (by omega) (by omega), Plan.relocated,
    show 4 * ((0x40 + i) / 4) = 0x40 by omega, if_pos hmem, ← h.base,
    show (0x40 + i) % 4 = i by omega, add_sub_cancel]

theorem slotBase_of_ne {binary : Buffer} {target : ℕ} (hroom : target + 0x44 ≤ binary.size.toNat)
    (h : wordAt binary.bytes (target + 0x40) ≠ 0) :
    slotBase binary target = .ok (wordAt binary.bytes (target + 0x40)) := by
  unfold slotBase
  rw [read32_of_le (by omega)]
  dsimp only [bind, Except.bind]
  rw [if_neg h]
  rfl

theorem identify_congr {b b' : Buffer} {target : ℕ} (hsize : b'.size = b.size)
    (htarget : target + 0x80 ≤ b.size.toNat)
    (h : ∀ i < 0x10, i < 0x0D ∨ i = 0x0F → b'.bytes (target + i) = b.bytes (target + i)) :
    identify b' target patch = identify b target patch := by
  have hmagic : hasMagic b' target = hasMagic b target := by
    rw [hasMagic_eq (by rw [hsize]; omega), hasMagic_eq (by omega)]
    congr 2
    refine List.map_congr_left fun i hi => ?_
    rw [List.mem_range] at hi
    exact h i (by omega) (.inl (by omega))
  unfold identify
  rw [hmagic, read8_of_lt (b := b') (by rw [hsize]; omega), read8_of_lt (b := b) (by omega),
    read8_of_lt (b := b') (by rw [hsize]; omega), read8_of_lt (b := b) (by omega),
    h 0x0C (by decide) (.inl (by decide)), h 0x0F (by decide) (.inr rfl)]

theorem SlotFound.room {binary : Buffer} {dldioffset : U32}
    (hslot : SlotFound binary dldioffset patch plan) (h : plan.Sound patch readonly) :
    dldioffset.toNat + 0x80 ≤ binary.size.toNat := by
  have := h.header
  have := hslot.patchFits
  have := hslot.driverFits
  have := hslot.slotFits
  omega

/-- The checks find in the output what they found in the input. -/
theorem check_image {binary : Buffer} {dldioffset : U32}
    (h : check binary dldioffset patch readonly = .ok plan)
    (hbase : wordAt binary.bytes (dldioffset.toNat + 0x40) ≠ 0)
    (hheader : ∀ k < 16, ¬plan.Inside (wordAt patch.bytes (4 * k))) :
    check (plan.image binary dldioffset patch readonly) dldioffset patch readonly = .ok plan := by
  obtain ⟨hsound, hslot⟩ := check_sound h
  have hroom := hslot.room hsound
  have hbytes : ∀ i < 0x10, i < 0x0D ∨ i = 0x0F →
      (plan.image binary dldioffset patch readonly).bytes (dldioffset.toNat + i) =
        binary.bytes (dldioffset.toNat + i) := by
    intro i hi hread
    rw [hsound.image_header binary dldioffset (by omega)]
    by_cases hsize : i = 0x0F
    · rw [Plan.driver, if_pos hsize, hsize]
    · rw [hsound.driver_header _ (by omega) hsize (by omega),
        Plan.relocated_of_not_inside (show i / 4 < 16 by omega) (hheader _ (by omega)) rfl]
      rcases Nat.lt_or_ge i 12 with hmagic | hversion
      · exact (hslot.magic i hmagic).symm
      · obtain rfl : i = 0x0C := by omega
        exact hslot.version.symm
  have hmemaddr := hslot.memaddr
  rw [slotBase_of_ne (by omega) hbase] at hmemaddr
  have hword : wordAt binary.bytes (dldioffset.toNat + 0x40) = plan.memaddr :=
    Except.ok.inj hmemaddr
  have himage := hsound.image_base binary dldioffset
  have hidentify : identify (plan.image binary dldioffset patch readonly) dldioffset.toNat patch =
      identify binary dldioffset.toNat patch := identify_congr rfl hroom hbytes
  have hslotBase : slotBase (plan.image binary dldioffset patch readonly) dldioffset.toNat =
      slotBase binary dldioffset.toNat := by
    rw [slotBase_of_ne (by omega) hbase, slotBase_of_ne (by exact (by omega :
      dldioffset.toNat + 0x44 ≤ binary.size.toNat)) (by rw [himage, ← hword]; exact hbase), himage,
      hword]
  rw [← h]
  unfold check
  rw [hidentify, hslotBase]
  rfl

theorem image_image (h : plan.Sound patch readonly) (binary : Buffer) (dldioffset : U32) :
    plan.image (plan.image binary dldioffset patch readonly) dldioffset patch readonly =
      plan.image binary dldioffset patch readonly := by
  have hslot : (plan.image binary dldioffset patch readonly).bytes (dldioffset.toNat + 0x0F) =
      binary.bytes (dldioffset.toNat + 0x0F) := by
    rw [h.image_header binary dldioffset (by decide), Plan.driver, if_pos rfl]
  refine congrArg (Buffer.mk binary.size) (funext fun j => ?_)
  rw [hslot]
  simp only [Plan.image]
  split_ifs <;> rfl

/-! ## The patch and the search -/

/-- The patch is in the slot, which lies in the binary; nothing else has changed. Each word moved
is a whole word of the patch, and the same patch leaves the output as it is. -/
structure Applied (binary : Buffer) (dldioffset : U32) (patch : Buffer) (readonly : Bool)
    (plan : Plan) (capacity : ℕ) : Prop where
  size : capacity = 2 ^ (binary.bytes (dldioffset.toNat + 0x0F)).toNat
  slot : dldioffset.toNat + capacity ≤ binary.size.toNat
  driver : 0x80 ≤ patch.size.toNat ∧ patch.size.toNat ≤ capacity
  inSlot : ∀ j, (plan.image binary dldioffset patch readonly).bytes j ≠ binary.bytes j →
    dldioffset.toNat ≤ j ∧ j < dldioffset.toNat + capacity
  words : ∀ a ∈ plan.moved patch, a % 4 = 0 ∧ a + 4 ≤ patch.size.toNat
  again : wordAt binary.bytes (dldioffset.toNat + 0x40) ≠ 0 →
    (∀ k < 16, ¬plan.Inside (wordAt patch.bytes (4 * k))) →
    applyDLDIPatchAt (plan.image binary dldioffset patch readonly) dldioffset patch readonly =
      .ok (true, plan.image binary dldioffset patch readonly)

theorem applyDLDIPatchAt_of_check {binary : Buffer} {dldioffset : U32}
    (h : check binary dldioffset patch readonly = .ok plan) :
    applyDLDIPatchAt binary dldioffset patch readonly =
      .ok (true, plan.image binary dldioffset patch readonly) := by
  obtain ⟨hsound, hslot⟩ := check_sound h
  unfold applyDLDIPatchAt
  rw [h]
  dsimp only
  rw [commit_eq hsound hslot]
  rfl

theorem applied_of_check {binary : Buffer} {dldioffset : U32}
    (h : check binary dldioffset patch readonly = .ok plan) :
    Applied binary dldioffset patch readonly plan
      (2 ^ (binary.bytes (dldioffset.toNat + 0x0F)).toNat) := by
  obtain ⟨hsound, hslot⟩ := check_sound h
  have hpatch := hslot.patchFits
  have hdriver := hslot.driverFits
  refine ⟨rfl, hslot.slotFits, ⟨hsound.header, hpatch.trans hdriver⟩, fun j hj => ?_,
    fun a ha => hsound.mem_moved ha, fun hbase hheader => ?_⟩
  · have hbss := (hsound.sections 3).inside
    rw [if_pos rfl] at hbss
    simp only [Plan.image] at hj
    split_ifs at hj with hzero hin
    · obtain ⟨hle, -, -, hstop⟩ := hzero
      omega
    · omega
    · exact absurd rfl hj
  · have hagain := applyDLDIPatchAt_of_check (check_image h hbase hheader)
    rwa [image_image hsound] at hagain

theorem applyDLDIPatchAt_spec (binary : Buffer) (dldioffset : U32) (patch : Buffer)
    (readonly : Bool) :
    applyDLDIPatchAt binary dldioffset patch readonly = .ok (false, binary) ∨
      ∃ plan capacity, applyDLDIPatchAt binary dldioffset patch readonly =
          .ok (true, plan.image binary dldioffset patch readonly) ∧
        Applied binary dldioffset patch readonly plan capacity := by
  cases hcheck : check binary dldioffset patch readonly with
  | error e =>
    cases e with
    | fault => exact absurd hcheck (check_ne_fault binary dldioffset patch readonly)
    | invalid =>
      unfold applyDLDIPatchAt
      rw [hcheck]
      exact .inl rfl
  | ok plan => exact .inr ⟨plan, _, applyDLDIPatchAt_of_check hcheck, applied_of_check hcheck⟩

/-- One place of the search: how far it goes on, and that the binary keeps its size. -/
theorem tryPatch_spec (patch : Buffer) (readonly : Bool) {i : U32} {binary : Buffer}
    (hi : i.toNat + 0x80 ≤ binary.size.toNat) :
    ∃ applied out, tryPatch patch readonly i binary = .ok (applied, out) ∧
      out.size = binary.size ∧
      (applied = true → 0x80 ≤ patch.size.toNat ∧
        i.toNat + patch.size.toNat ≤ binary.size.toNat) := by
  unfold tryPatch
  rw [hasMagic_eq (by omega)]
  dsimp only [bind, Except.bind]
  split_ifs
  · rcases applyDLDIPatchAt_spec binary i patch readonly with hrun | ⟨plan, capacity, hrun, h⟩
    · exact ⟨false, binary, hrun, rfl, nofun⟩
    · have := h.slot
      have := h.driver
      exact ⟨true, _, hrun, rfl, fun _ => ⟨h.driver.1, by omega⟩⟩
  · exact ⟨false, binary, rfl, rfl, nofun⟩

theorem scan_ends (patch : Buffer) (readonly : Bool) (turns : ℕ) (i : U32) (binary : Buffer)
    (hbinary : 0x80 ≤ binary.size.toNat) (hturns : 0 < turns)
    (hroom : binary.size.toNat - 0x80 + 2 ≤ i.toNat + turns) :
    ∃ out, scan patch readonly turns i binary = .ok (some out) ∧ out.size = binary.size := by
  induction turns generalizing i binary with
  | zero => omega
  | succ turns ih =>
    have hlast : (binary.size - 0x80).toNat = binary.size.toNat - 0x80 :=
      BitVec.toNat_sub_of_le (BitVec.le_def.mpr hbinary)
    rw [scan]
    by_cases hi : i ≤ binary.size - 0x80
    · rw [if_pos hi]
      rw [BitVec.le_def, hlast] at hi
      obtain ⟨applied, out, hrun, hsize, happlied⟩ := tryPatch_spec patch readonly
        (show i.toNat + 0x80 ≤ binary.size.toNat by omega)
      dsimp only [bind, Except.bind]
      rw [hrun]
      dsimp only
      have hstep : i.toNat + 1 ≤ (if applied then i + patch.size else i + 1).toNat := by
        cases applied with
        | true =>
          have := happlied rfl
          have := binary.size.isLt
          rw [if_pos rfl, BitVec.toNat_add, Nat.mod_eq_of_lt (by omega)]
          omega
        | false =>
          have := binary.size.isLt
          rw [if_neg (by decide), BitVec.toNat_add, Nat.mod_eq_of_lt]
          · exact le_rfl
          · change i.toNat + 1 < _
            omega
      generalize (if applied then i + patch.size else i + 1) = next at hstep
      obtain ⟨last, hscan, hsame⟩ := ih next out (hsize ▸ hbinary) (by omega)
        (by rw [hsize]; omega)
      exact ⟨last, hscan, hsame.trans hsize⟩
    · rw [if_neg hi]
      exact ⟨binary, rfl, rfl⟩

/-- The search ends with a ROM of the same size, and only the ARM9 binary in it has changed. -/
theorem applyDLDIPatch_spec (rom patch : Buffer) (readonly : Bool) :
    ∃ out, applyDLDIPatch rom patch readonly = .ok (some out) ∧ out.size = rom.size ∧
      ∀ j, out.bytes j ≠ rom.bytes j →
        (wordAt rom.bytes 0x20).toNat ≤ j ∧
        j < (wordAt rom.bytes 0x20).toNat + (wordAt rom.bytes 0x2C).toNat ∧
        (wordAt rom.bytes 0x20).toNat + (wordAt rom.bytes 0x2C).toNat ≤ rom.size.toNat := by
  have hsame : ∃ out, (.ok (some rom) : Except Stop (Option Buffer)) = .ok (some out) ∧
      out.size = rom.size ∧ ∀ j, out.bytes j ≠ rom.bytes j →
        (wordAt rom.bytes 0x20).toNat ≤ j ∧
        j < (wordAt rom.bytes 0x20).toNat + (wordAt rom.bytes 0x2C).toNat ∧
        (wordAt rom.bytes 0x20).toNat + (wordAt rom.bytes 0x2C).toNat ≤ rom.size.toNat :=
    ⟨rom, rfl, rfl, fun j hj => absurd rfl hj⟩
  unfold applyDLDIPatch
  by_cases hpatch : patch.size < 0x80
  · rw [if_pos hpatch]
    exact hsame
  have hheader : 0x80 ≤ patch.size.toNat := toNat_le_of_not_lt hpatch
  rw [if_neg hpatch, hasMagic_eq (by omega), read8_of_lt (by omega)]
  dsimp only [bind, Except.bind]
  split_ifs with hmagic hrom
  · exact hsame
  · exact hsame
  have hromsize : 0x30 ≤ rom.size.toNat := toNat_le_of_not_lt hrom
  rw [read32_of_le (by omega), read32_of_le (by omega)]
  dsimp only
  split_ifs with hrange hsmall
  · exact hsame
  · exact hsame
  push Not at hrange
  have hoffset : wordAt rom.bytes 0x20 ≤ rom.size := BitVec.not_lt.mp hrange.2.1
  have hroom := toNat_le_of_not_lt hrange.2.2
  have hle := BitVec.le_def.mp hoffset
  rw [BitVec.toNat_sub_of_le hoffset] at hroom
  have hsize : 0x80 ≤ (wordAt rom.bytes 0x2C).toNat := toNat_le_of_not_lt hsmall
  obtain ⟨out, hscan, hout⟩ := scan_ends patch readonly (wordAt rom.bytes 0x2C).toNat 0
    (rom.part (wordAt rom.bytes 0x20) (wordAt rom.bytes 0x2C)) hsize (by omega)
    (by simp only [Buffer.part]; change _ ≤ 0 + _; omega)
  rw [hscan]
  refine ⟨rom.withPart (wordAt rom.bytes 0x20) out, rfl, rfl, fun j hj => ?_⟩
  simp only [Buffer.withPart, hout] at hj
  split_ifs at hj with hin
  · exact ⟨hin.1, hin.2, by omega⟩
  · exact absurd rfl hj

end MelonDS.NDSCart.DLDI

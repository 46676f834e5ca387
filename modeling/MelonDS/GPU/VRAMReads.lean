import MelonDS.GPU.VRAMCoherence

/-!
# Reads and the mapping

Where several banks are mapped at one address they are read together, ORed. A region read is
compared with that OR over the banks the VRAMCNT registers place at the address, for every
address of the bus, through the fast pointer or through the tests of single mask bits. The read
of the object extended palettes of engine A tests the bits of other banks.
-/

namespace MelonDS.GPU
open VRAMState

/-! ## All banks of a mask -/

/-- A byte of every bank of the mask, ORed. -/
def orMapped (vram : ℕ → Mem) (mask : U32) (place : ℕ → ℕ) : U8 :=
  (List.range 9).foldl
    (fun acc b => if mask.getLsbD b then acc ||| vram b (place b) else acc) 0

theorem getLsbD_orMapped (vram : ℕ → Mem) (mask : U32) (place : ℕ → ℕ) (t : ℕ) :
    (orMapped vram mask place).getLsbD t =
      (List.range 9).any fun b => mask.getLsbD b && (vram b (place b)).getLsbD t := by
  have hfold (bs : List ℕ) (acc : U8) :
      (bs.foldl (fun acc b => if mask.getLsbD b then acc ||| vram b (place b) else acc) acc).getLsbD
          t =
        (acc.getLsbD t || bs.any fun b => mask.getLsbD b && (vram b (place b)).getLsbD t) := by
    induction bs generalizing acc with
    | nil => simp
    | cons b bs ih =>
      rw [List.foldl_cons, ih, List.any_cons]
      cases mask.getLsbD b
      · simp
      · simp [Bool.or_assoc]
  rw [orMapped, hfold]
  simp

/-- One bank alone is what that bank holds. -/
theorem orMapped_unique {vram : ℕ → Mem} {mask : U32} {b : ℕ} (hu : uniqueBank mask = some b)
    (hb : b < 9) (place : ℕ → ℕ) : orMapped vram mask place = vram b (place b) := by
  have hbit := uniqueBank_eq_some.mp hu
  apply BitVec.eq_of_getLsbD_eq
  intro t _
  rw [getLsbD_orMapped, Bool.eq_iff_iff, List.any_eq_true]
  constructor
  · rintro ⟨c, -, h⟩
    rw [Bool.and_eq_true, hbit, decide_eq_true_eq] at h
    obtain ⟨rfl, ht⟩ := h
    exact ht
  · intro ht
    refine ⟨b, List.mem_range.mpr hb, ?_⟩
    rw [Bool.and_eq_true]
    exact ⟨uniqueBank_mem hu, ht⟩

theorem orMapped_congr {vram : ℕ → Mem} {mask : U32} {place place' : ℕ → ℕ}
    (h : ∀ b < 9, place b = place' b) : orMapped vram mask place = orMapped vram mask place' := by
  refine List.foldl_ext _ _ _ fun acc b hb => ?_
  rw [h b (List.mem_range.mp hb)]

/-- Byte `k` of what the banks placed at the address hold, a bank repeating every `bankSize`. -/
def mappedByte (X : TrackingSet) (cnt : ℕ → U8) (vram : ℕ → Mem) (addr : U32) (k : ℕ) : U8 :=
  let off := addr.toNat % X.size
  orMapped vram (placedMask cnt X.region (off / X.mappingGranularity)) fun b => off % bankSize b + k

/-! ## Mirrors of a region -/

theorem and_of_mirror {m : U32} {j size : ℕ} (hm : m.toNat = 2 ^ j - 1) (hdvd : 2 ^ j ∣ size)
    (hsize : size ≤ 2 ^ 19) (hpos : 0 < size) (addr : U32) :
    BitVec.ofNat 32 (addr.toNat % size) &&& m = addr &&& m := by
  have hlt := Nat.mod_lt addr.toNat hpos
  have h32 : addr.toNat % size % 2 ^ 32 = addr.toNat % size := Nat.mod_eq_of_lt (by omega)
  apply BitVec.eq_of_toNat_eq
  rw [toNat_and_mask hm, toNat_and_mask hm, BitVec.toNat_ofNat, h32, Nat.mod_mod_of_dvd _ hdvd]

theorem shift_of_mirror {m : U32} {j d : ℕ} (hm : m.toNat = 2 ^ j - 1)
    (hsize : 2 ^ (d + j) ≤ 2 ^ 19) (addr : U32) :
    (BitVec.ofNat 32 (addr.toNat % 2 ^ (d + j)) >>> d) &&& m = (addr >>> d) &&& m := by
  have hlt := Nat.mod_lt addr.toNat (Nat.two_pow_pos (d + j))
  have h32 : addr.toNat % 2 ^ (d + j) % 2 ^ 32 = addr.toNat % 2 ^ (d + j) :=
    Nat.mod_eq_of_lt (by omega)
  apply BitVec.eq_of_toNat_eq
  rw [toNat_and_mask hm, toNat_and_mask hm, BitVec.toNat_ushiftRight, BitVec.toNat_ushiftRight,
    BitVec.toNat_ofNat, h32, Nat.shiftRight_eq_div_pow, Nat.shiftRight_eq_div_pow, Nat.pow_add,
    Nat.mod_mul_right_div_self, Nat.mod_mod]

theorem orBanks_of_masks {n : ℕ} {vram : ℕ → Mem} {mask addr addr' : U32} {reads : List BankAccess}
    (h : ∀ r ∈ reads, addr &&& r.addrMask = addr' &&& r.addrMask) :
    orBanks n vram mask addr reads = orBanks n vram mask addr' reads := by
  funext k
  refine orBanks_congr fun r hr _ => ?_
  rw [h r hr]

theorem reads_of_mirror (X : TrackingSet) (addr : U32) :
    ∀ r ∈ X.reads,
      BitVec.ofNat 32 (addr.toNat % X.size) &&& r.addrMask = addr &&& r.addrMask := by
  have hall : ∀ r ∈ X.reads,
      ∃ j : Fin 20, r.addrMask.toNat = 2 ^ j.val - 1 ∧ 2 ^ j.val ∣ X.size := by
    cases X <;> decide
  intro r hr
  obtain ⟨j, hm, hdvd⟩ := hall r hr
  exact and_of_mirror hm hdvd X.size_le (by cases X <;> decide) addr

theorem readEngine_of_mirror (n : ℕ) (s : VRAMState) (r : Region) {slotMask : U32} {j : ℕ}
    (hm : slotMask.toNat = 2 ^ j - 1) (hsize : 2 ^ (14 + j) ≤ 2 ^ 19) (addr : U32)
    {reads : List BankAccess}
    (hreads : ∀ a ∈ reads,
      BitVec.ofNat 32 (addr.toNat % 2 ^ (14 + j)) &&& a.addrMask = addr &&& a.addrMask) :
    s.readEngine n r slotMask (BitVec.ofNat 32 (addr.toNat % 2 ^ (14 + j))) reads =
      s.readEngine n r slotMask addr reads := by
  have hlow : BitVec.ofNat 32 (addr.toNat % 2 ^ (14 + j)) &&& (0x3FFF : U32) =
      addr &&& (0x3FFF : U32) :=
    and_of_mirror (j := 14) rfl (Nat.pow_dvd_pow 2 (Nat.le_add_right 14 j)) hsize
      (Nat.two_pow_pos _) addr
  simp only [readEngine, shift_of_mirror hm hsize, hlow, orBanks_of_masks hreads]

theorem readVRAM_of_mirror (n : ℕ) (s : VRAMState) (X : TrackingSet) (addr : U32) :
    s.readVRAM n X (BitVec.ofNat 32 (addr.toNat % X.size)) = s.readVRAM n X addr := by
  have hreads := reads_of_mirror X addr
  cases X with
  | abg => exact readEngine_of_mirror n s .abg (j := 5) rfl (by decide) addr hreads
  | bbg => exact readEngine_of_mirror n s .bbg (j := 3) rfl (by decide) addr hreads
  | aobj => exact readEngine_of_mirror n s .aobj (j := 4) rfl (by decide) addr hreads
  | bobj => exact readEngine_of_mirror n s .bobj (j := 3) rfl (by decide) addr hreads
  | abgExtPal =>
    have hslot := shift_of_mirror (m := 0x3) (j := 2) (d := 13) rfl (by decide) addr
    have hsize : TrackingSet.abgExtPal.size = 2 ^ (13 + 2) := rfl
    rw [hsize] at hreads ⊢
    simp only [readVRAM, readVRAM_ABGExtPal, hslot]
    exact orBanks_of_masks hreads
  | bbgExtPal =>
    have hslot := shift_of_mirror (m := 0x3) (j := 2) (d := 13) rfl (by decide) addr
    have hsize : TrackingSet.bbgExtPal.size = 2 ^ (13 + 2) := rfl
    rw [hsize] at hreads ⊢
    simp only [readVRAM, readVRAM_BBGExtPal, hslot]
    exact orBanks_of_masks hreads
  | aobjExtPal => exact orBanks_of_masks hreads
  | bobjExtPal => exact orBanks_of_masks hreads
  | texture =>
    have hslot := shift_of_mirror (m := 0x3) (j := 2) (d := 17) rfl (by decide) addr
    have hsize : TrackingSet.texture.size = 2 ^ (17 + 2) := rfl
    rw [hsize] at hreads ⊢
    simp only [readVRAM, readVRAM_Texture, hslot]
    exact orBanks_of_masks hreads
  | texPal =>
    have hslot := shift_of_mirror (m := 0x7) (j := 3) (d := 14) rfl (by decide) addr
    have hsize : TrackingSet.texPal.size = 2 ^ (14 + 3) := rfl
    rw [hsize] at hreads ⊢
    simp only [readVRAM, readVRAM_TexPal, hslot]
    exact orBanks_of_masks hreads

/-! ## Reads against the mapping -/

section
variable {s : VRAMState} (hv : Coherent s.map) {X : TrackingSet} {off : ℕ} (hoff : off < X.size)
include hv hoff

/-- The tests of single bits, where each bank is read under its own. -/
theorem orBanks_eq_orMapped (hX : X ≠ .aobjExtPal) {n : ℕ} (k : Fin n) :
    orBanks n s.vram (s.mask X (off / X.mappingGranularity)) (BitVec.ofNat 32 off) X.reads k =
      orMapped s.vram (s.mask X (off / X.mappingGranularity)) fun b => off % bankSize b + k := by
  have hlegal := hv.legal X (off / X.mappingGranularity)
  rw [← mask] at hlegal
  apply BitVec.eq_of_getLsbD_eq
  intro t _
  rw [getLsbD_orBanks, getLsbD_orMapped, Bool.eq_iff_iff, List.any_eq_true, List.any_eq_true]
  constructor
  · rintro ⟨r, hr, h⟩
    rw [TrackingSet.reads_test hX hr, TrackingSet.reads_addr hr hoff] at h
    exact ⟨r.bank, List.mem_range.mpr (TrackingSet.lt_of_mem_banks (List.mem_map_of_mem hr)), h⟩
  · rintro ⟨b, -, h⟩
    have hb := (Bool.and_eq_true _ _).mp h
    obtain ⟨r, hr, rfl⟩ := List.mem_map.mp (hlegal b hb.1)
    refine ⟨r, hr, ?_⟩
    rw [TrackingSet.reads_test hX hr, TrackingSet.reads_addr hr hoff]
    exact h

/-- The fast pointer of a slot belongs to the only bank mapped there. -/
theorem load_ptr_eq_orMapped {p : BankPtr} (n : ℕ) (k : Fin n)
    (hp : (s.map.slot X.region (off / X.mappingGranularity)).ptr = some p) :
    (s.vram p.bank).load n (p.offset.toNat + off % 2 ^ 14) k =
      orMapped s.vram (s.mask X (off / X.mappingGranularity)) fun b => off % bankSize b + k := by
  have hlegal := hv.legal X (off / X.mappingGranularity)
  rw [hv.ptr] at hp
  by_cases hr : X.region.hasPtr = true
  · rw [if_pos hr, getUniqueBankPtr_eq] at hp
    obtain ⟨b, hu, rfl⟩ := Option.map_eq_some_iff.mp hp
    have hb : b < 9 := TrackingSet.lt_of_mem_banks (hlegal b (uniqueBank_mem hu))
    have hgran : X.mappingGranularity = 2 ^ 14 := by
      cases X <;> first | rfl | cases hr
    have hsize := X.size_le
    have h32 : off / 2 ^ 14 * 2 ^ 14 % 2 ^ 32 = off / 2 ^ 14 * 2 ^ 14 :=
      Nat.mod_eq_of_lt (by omega)
    rw [mask, orMapped_unique hu hb, hgran]
    change s.vram b (_ + _ + k) = _
    rw [toNat_and_vramMask hb, BitVec.toNat_ofNat, Nat.shiftLeft_eq, h32,
      mod_add_of_dvd (dvd_bankSize hb (dvd_refl _)) (Nat.dvd_mul_left _ _)
        (Nat.mod_lt _ (by decide)), Nat.div_add_mod']
  · rw [if_neg hr] at hp
    exact absurd hp (Option.some_ne_none p).symm

theorem readVRAM_eq_orMapped (hX : X ≠ .aobjExtPal) {n : ℕ} (k : Fin n) :
    s.readVRAM n X (BitVec.ofNat 32 off) k =
      orMapped s.vram (s.mask X (off / X.mappingGranularity)) fun b => off % bankSize b + k := by
  rw [readVRAM_eq hv n X hoff]
  cases hp : (s.map.slot X.region (off / X.mappingGranularity)).ptr with
  | some p => exact load_ptr_eq_orMapped hv hoff n k hp
  | none => exact orBanks_eq_orMapped hv hoff hX k

end

/-! ## The object extended palettes of engine A -/

section
variable {s : VRAMState} (hv : Coherent s.map) {off : ℕ} (hoff : off < 0x2000)
include hv hoff

/-- Bank G is read under the bit of bank F. -/
theorem readVRAM_AOBJExtPal_eq {n : ℕ} (k : Fin n) :
    s.readVRAM n .aobjExtPal (BitVec.ofNat 32 off) k =
      if (s.mask .aobjExtPal 0).getLsbD 5 then s.vram 6 (off + k) else 0 := by
  have h4 : (s.mask .aobjExtPal 0).getLsbD 4 = false := by
    by_contra h4
    rw [Bool.not_eq_false] at h4
    exact absurd (hv.legal .aobjExtPal 0 4 h4) (by decide)
  have haddr := TrackingSet.reads_addr (X := .aobjExtPal) (r := ⟨5, 6, 0x1FFF⟩) (by decide) hoff
  have hsmall : off % bankSize 6 = off := Nat.mod_eq_of_lt (hoff.trans (by decide))
  dsimp only at haddr
  rw [hsmall] at haddr
  change orBanks n s.vram (s.mask .aobjExtPal 0) (BitVec.ofNat 32 off)
    TrackingSet.aobjExtPal.reads k = _
  rw [orBanks_apply]
  simp only [TrackingSet.reads, List.foldl_cons, List.foldl_nil, h4, Bool.false_eq_true, if_false,
    haddr]
  split_ifs
  · exact BitVec.zero_or
  · rfl

theorem orMapped_AOBJExtPal (k : ℕ) :
    (orMapped s.vram (s.mask .aobjExtPal 0) fun b => off % bankSize b + k) =
      (if (s.mask .aobjExtPal 0).getLsbD 5 then s.vram 5 (off + k) else 0) |||
        if (s.mask .aobjExtPal 0).getLsbD 6 then s.vram 6 (off + k) else 0 := by
  have hlegal := hv.legal .aobjExtPal 0
  rw [← mask] at hlegal
  generalize s.mask .aobjExtPal 0 = mask at hlegal ⊢
  have hother (j : ℕ) (h5 : j ≠ 5) (h6 : j ≠ 6) : mask.getLsbD j = false := by
    by_contra hj
    rw [Bool.not_eq_false] at hj
    rcases List.mem_pair.mp (hlegal j hj) with hj5 | hj6
    · exact h5 hj5
    · exact h6 hj6
  have hsmall (b : ℕ) (hb : b = 5 ∨ b = 6) : off % bankSize b = off := by
    refine Nat.mod_eq_of_lt (hoff.trans ?_)
    rcases hb with rfl | rfl <;> decide
  have hrange : List.range 9 = [0, 1, 2, 3, 4, 5, 6, 7, 8] := rfl
  rw [orMapped, hrange]
  simp only [List.foldl_cons, List.foldl_nil, hother 0 (by decide) (by decide),
    hother 1 (by decide) (by decide), hother 2 (by decide) (by decide),
    hother 3 (by decide) (by decide), hother 4 (by decide) (by decide),
    hother 7 (by decide) (by decide), hother 8 (by decide) (by decide), Bool.false_eq_true,
    if_false, hsmall 5 (.inl rfl), hsmall 6 (.inr rfl)]
  cases mask.getLsbD 5 <;> cases mask.getLsbD 6 <;> simp

end

/-- Bank `b` is mapped as object extended palette of engine A. -/
def asObjPal (cnt : ℕ → U8) (b : ℕ) : Prop := (Region.aobjExtPal, 0) ∈ placement b (cnt b)

/-- What the banks must hold at a place for the read that takes bank G under bank F's bit
to show their OR there. -/
structure PaletteHides (cnt : ℕ → U8) (vram : ℕ → Mem) (place : ℕ) : Prop where
  only_F : asObjPal cnt 5 → ¬ asObjPal cnt 6 → vram 6 place = vram 5 place
  only_G : ¬ asObjPal cnt 5 → asObjPal cnt 6 → vram 6 place = 0
  both : asObjPal cnt 5 → asObjPal cnt 6 → vram 5 place ||| vram 6 place = vram 6 place

theorem hides_iff {s : VRAMState} (hv : Coherent s.map) (place : ℕ) :
    (if (s.mask .aobjExtPal 0).getLsbD 5 then s.vram 6 place else 0) =
        ((if (s.mask .aobjExtPal 0).getLsbD 5 then s.vram 5 place else 0) |||
          if (s.mask .aobjExtPal 0).getLsbD 6 then s.vram 6 place else 0) ↔
      PaletteHides s.map.vramCNT s.vram place := by
  have hbit (b : ℕ) : (s.mask .aobjExtPal 0).getLsbD b = true ↔ asObjPal s.map.vramCNT b := by
    rw [mask, hv.mask_getLsbD, decide_eq_true_eq]
    rfl
  by_cases h5 : asObjPal s.map.vramCNT 5 <;> by_cases h6 : asObjPal s.map.vramCNT 6
  · rw [if_pos ((hbit 5).mpr h5), if_pos ((hbit 5).mpr h5), if_pos ((hbit 6).mpr h6)]
    exact ⟨fun h => ⟨fun _ hn => absurd h6 hn, fun hn => absurd h5 hn, fun _ _ => h.symm⟩,
      fun h => (h.both h5 h6).symm⟩
  · rw [if_pos ((hbit 5).mpr h5), if_pos ((hbit 5).mpr h5), if_neg fun h => h6 ((hbit 6).mp h),
      show s.vram 5 place ||| 0 = s.vram 5 place from BitVec.or_zero]
    exact ⟨fun h => ⟨fun _ _ => h, fun hn => absurd h5 hn, fun _ h => absurd h h6⟩,
      fun h => h.only_F h5 h6⟩
  · rw [if_neg fun h => h5 ((hbit 5).mp h), if_neg fun h => h5 ((hbit 5).mp h),
      if_pos ((hbit 6).mpr h6), show (0 : U8) ||| s.vram 6 place = s.vram 6 place from
        BitVec.zero_or]
    exact ⟨fun h => ⟨fun h' => absurd h' h5, fun _ _ => h.symm, fun h' => absurd h' h5⟩,
      fun h => (h.only_G h5 h6).symm⟩
  · rw [if_neg fun h => h5 ((hbit 5).mp h), if_neg fun h => h5 ((hbit 5).mp h),
      if_neg fun h => h6 ((hbit 6).mp h)]
    exact ⟨fun _ => ⟨fun h => absurd h h5, fun _ h => absurd h h6, fun h => absurd h h5⟩,
      fun _ => rfl⟩

/-! ## Aligned accesses -/

/-- The bytes of an aligned access are those at its addresses. -/
theorem mappedByte_aligned (X : TrackingSet) (cnt : ℕ → U8) (vram : ℕ → Mem) {addr : U32} {n k : ℕ}
    (hn : n ∣ 8) (ha : n ∣ addr.toNat) (hk : k < n) :
    mappedByte X cnt vram addr k = mappedByte X cnt vram (addr + BitVec.ofNat 32 k) 0 := by
  have h8 : n ≤ 8 := Nat.le_of_dvd (by decide) hn
  have hsize : 8 ∣ X.size := by cases X <;> decide
  have hgran : 8 ∣ X.mappingGranularity := by cases X <;> decide
  have hadd : (addr + BitVec.ofNat 32 k).toNat = addr.toNat + k := by
    have hlt := addr.isLt
    have h32 := mod_add_of_dvd (hn.trans (show 8 ∣ 2 ^ 32 by decide)) ha hk
    rw [Nat.mod_eq_of_lt hlt] at h32
    rw [BitVec.toNat_add, BitVec.toNat_ofNat, Nat.mod_eq_of_lt (show k < 2 ^ 32 by omega)]
    exact h32.symm
  have hoff := mod_add_of_dvd (hn.trans hsize) ha hk
  have hdvd : n ∣ addr.toNat % X.size := (Nat.dvd_mod_iff (hn.trans hsize)).mpr ha
  have hslot : (addr.toNat % X.size + k) / X.mappingGranularity =
      addr.toNat % X.size / X.mappingGranularity := by
    have hrem := mod_add_of_dvd (hn.trans hgran) hdvd hk
    have hpos : 0 < X.mappingGranularity := by cases X <;> decide
    have hlt := Nat.mod_lt (addr.toNat % X.size + k) hpos
    have h1 := Nat.div_add_mod (addr.toNat % X.size + k) X.mappingGranularity
    have h2 := Nat.div_add_mod (addr.toNat % X.size) X.mappingGranularity
    refine Nat.eq_of_mul_eq_mul_left hpos ?_
    omega
  simp only [mappedByte, hadd, ← hoff, hslot, Nat.add_zero]
  refine orMapped_congr fun b hb => ?_
  exact mod_add_of_dvd (dvd_bankSize hb (hn.trans (show 8 ∣ 2 ^ 14 by decide))) hdvd hk

/-! ## Every region -/

/-- One read, at any address of the bus. -/
theorem readVRAM_iff {s : VRAMState} (hv : Coherent s.map) {n : ℕ} (X : TrackingSet) (addr : U32)
    (k : Fin n) :
    s.readVRAM n X addr k = mappedByte X s.map.vramCNT s.vram addr k ↔
      (X = .aobjExtPal → PaletteHides s.map.vramCNT s.vram (addr.toNat % 0x2000 + k)) := by
  have hpos : 0 < X.size := by cases X <;> decide
  have hoff : addr.toNat % X.size < X.size := Nat.mod_lt _ hpos
  have hmapped : mappedByte X s.map.vramCNT s.vram addr k =
      orMapped s.vram (s.mask X (addr.toNat % X.size / X.mappingGranularity))
        fun b => addr.toNat % X.size % bankSize b + k := by
    rw [mappedByte, mask, hv.slot, canonical_mask]
  rw [← readVRAM_of_mirror n s X addr, hmapped]
  by_cases hX : X = .aobjExtPal
  · subst hX
    have hslot : addr.toNat % TrackingSet.aobjExtPal.size /
        TrackingSet.aobjExtPal.mappingGranularity = 0 := Nat.div_eq_of_lt hoff
    rw [hslot, readVRAM_AOBJExtPal_eq hv hoff k, orMapped_AOBJExtPal hv hoff k]
    exact (hides_iff hv _).trans ⟨fun h _ => h, fun h => h rfl⟩
  · exact ⟨fun _ h => absurd h hX, fun _ => readVRAM_eq_orMapped hv hoff hX k⟩

/-- What a read needs of the registers to be right whatever the banks hold. -/
theorem readVRAM_always_iff {s : VRAMState} (hv : Coherent s.map) (X : TrackingSet) :
    (∀ (vram : ℕ → Mem) (n : ℕ) (addr : U32) (k : Fin n),
      ({ s with vram := vram } : VRAMState).readVRAM n X addr k =
        mappedByte X s.map.vramCNT vram addr k) ↔
      (X = .aobjExtPal → ¬ asObjPal s.map.vramCNT 5 ∧ ¬ asObjPal s.map.vramCNT 6) := by
  constructor
  · rintro h rfl
    have hbank (bank : ℕ) : PaletteHides s.map.vramCNT
        (fun b _ => if b = bank then 1 else 0) 0 :=
      (readVRAM_iff (s := { s with vram := fun b _ => if b = bank then 1 else 0 }) hv
        .aobjExtPal 0 (0 : Fin 1)).mp (h _ 1 0 0) rfl
    have h5 : ¬ asObjPal s.map.vramCNT 5 := by
      intro h5
      by_cases h6 : asObjPal s.map.vramCNT 6
      · exact absurd ((hbank 5).both h5 h6) (by decide)
      · exact absurd ((hbank 5).only_F h5 h6) (by decide)
    exact ⟨h5, fun h6 => absurd ((hbank 6).only_G h5 h6) (by decide)⟩
  · intro h vram n addr k
    refine (readVRAM_iff (s := { s with vram := vram }) hv X addr k).mpr fun hX => ?_
    obtain ⟨h5, h6⟩ := h hX
    exact ⟨fun h => absurd h h5, fun _ h => absurd h h6, fun h => absurd h h5⟩

/-- In every state the VRAMCNT registers can reach, each byte a region read returns is the OR
over the banks placed at the address, but for `ReadVRAM_AOBJExtPal`, which returns it exactly
where the contents of banks F and G hide that it takes G under F's bit. -/
theorem vramReads_iff (history : List (Fin 9 × U8)) (s : VRAMState) :
    let t : VRAMState := { s with map := VRAMMap.reset.run history }
    (∀ (n : ℕ) (X : TrackingSet) (addr : U32) (k : Fin n),
      t.readVRAM n X addr k = mappedByte X t.map.vramCNT t.vram addr k ↔
        (X = .aobjExtPal → PaletteHides t.map.vramCNT t.vram (addr.toNat % 0x2000 + k))) ∧
    (∀ X : TrackingSet,
      (∀ (vram : ℕ → Mem) (n : ℕ) (addr : U32) (k : Fin n),
        ({ t with vram := vram } : VRAMState).readVRAM n X addr k =
          mappedByte X t.map.vramCNT vram addr k) ↔
        (X = .aobjExtPal → ¬ asObjPal t.map.vramCNT 5 ∧ ¬ asObjPal t.map.vramCNT 6)) ∧
    ∀ (X : TrackingSet) (addr : U32) (n k : ℕ), n ∣ 8 → n ∣ addr.toNat → k < n →
      mappedByte X t.map.vramCNT t.vram addr k =
        mappedByte X t.map.vramCNT t.vram (addr + BitVec.ofNat 32 k) 0 := by
  intro t
  have hv : Coherent t.map := coherent_reset.run history
  exact ⟨fun n X addr k => readVRAM_iff hv X addr k, readVRAM_always_iff hv,
    fun X addr n k hn ha hk => mappedByte_aligned X _ _ hn ha hk⟩

theorem vramReads_iff_shared :
    mappedByte .aobj (VRAMMap.reset.run [(5, 0x82), (6, 0x82)]).vramCNT (fun _ _ => 1) 2 1 =
      mappedByte .aobj (VRAMMap.reset.run [(5, 0x82), (6, 0x82)]).vramCNT (fun _ _ => 1)
        (2 + BitVec.ofNat 32 1) 0 :=
  (vramReads_iff [(5, 0x82), (6, 0x82)] { VRAMState.reset with vram := fun _ _ => 1 }).2.2
    .aobj 2 2 1 (by decide) (by decide) (by decide)

/-- Banks F and G both as object extended palettes, a byte set in F alone: the read returns
what G holds. -/
theorem vramReads_drop_F :
    ¬ ∀ (history : List (Fin 9 × U8)) (vram : ℕ → Mem) (X : TrackingSet) (addr : U32),
      ({ VRAMState.reset with map := VRAMMap.reset.run history, vram := vram } :
          VRAMState).readVRAM 1 X addr 0 =
        mappedByte X (VRAMMap.reset.run history).vramCNT vram addr 0 := by
  intro h
  exact absurd (h [(5, 0x85), (6, 0x85)] (fun b _ => if b = 5 then 1 else 0) .aobjExtPal 0)
    (by decide +kernel)

end MelonDS.GPU

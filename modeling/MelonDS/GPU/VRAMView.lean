import MelonDS.GPU.VRAMPlacement
import MelonDS.GPU.VRAMTracking

/-!
# What a region shows at an offset

`viewByte` is the byte a refreshed flat copy holds at an offset of a region under a
mapping: the byte of the only bank mapped there, or the OR the slow access makes.
Away from the object extended palettes of engine A it is the byte the region reads.
-/

namespace MelonDS.GPU
open VRAMState

/-! ## Address arithmetic -/

theorem toNat_and_mask {m : U32} {j : ℕ} (hm : m.toNat = 2 ^ j - 1) (addr : U32) :
    (addr &&& m).toNat = addr.toNat % 2 ^ j := by
  rw [BitVec.toNat_and, hm, Nat.and_two_pow_sub_one_eq_mod]

theorem toNat_shift_and {m : U32} {off shift j : ℕ} (hm : m.toNat = 2 ^ j - 1)
    (h : off < 2 ^ (shift + j)) (hj : shift + j ≤ 32) :
    ((BitVec.ofNat 32 off >>> shift) &&& m).toNat = off / 2 ^ shift := by
  have h32 : off < 2 ^ 32 := h.trans_le (Nat.pow_le_pow_right (by decide) hj)
  rw [toNat_and_mask hm, BitVec.toNat_ushiftRight, BitVec.toNat_ofNat, Nat.mod_eq_of_lt h32,
    Nat.shiftRight_eq_div_pow, Nat.mod_eq_of_lt]
  apply Nat.div_lt_of_lt_mul
  rwa [← Nat.pow_add]

def bankSize (bank : ℕ) : ℕ := (vramMask bank).toNat + 1

/-- Bank sizes are powers of two of at least 16 KB. -/
theorem bankSize_eq {bank : ℕ} (h : bank < 9) :
    ∃ j, 14 ≤ j ∧ j ≤ 17 ∧ bankSize bank = 2 ^ j ∧ (vramMask bank).toNat = 2 ^ j - 1 := by
  have hall : ∀ b : Fin 9, ∃ j : Fin 18,
      14 ≤ j.val ∧ bankSize b = 2 ^ j.val ∧ (vramMask b).toNat = 2 ^ j.val - 1 := by decide
  obtain ⟨j, h14, hsize, hmask⟩ := hall ⟨bank, h⟩
  exact ⟨j, h14, Nat.le_of_lt_succ j.isLt, hsize, hmask⟩

theorem toNat_and_vramMask {bank : ℕ} (h : bank < 9) (addr : U32) :
    (addr &&& vramMask bank).toNat = addr.toNat % bankSize bank := by
  obtain ⟨j, -, -, hsize, hmask⟩ := bankSize_eq h
  rw [toNat_and_mask hmask, hsize]

/-! ## The unique bank of a mask -/

def uniqueBank (mask : U32) : Option ℕ :=
  if mask = 0 ∨ mask &&& (mask - 1) ≠ 0 then none else some mask.ctz.toNat

theorem getUniqueBankPtr_eq (mask offset : U32) :
    getUniqueBankPtr mask offset =
      (uniqueBank mask).map fun b => ⟨b, offset &&& vramMask b⟩ := by
  simp only [getUniqueBankPtr, uniqueBank]
  split_ifs <;> rfl

theorem isPowerOfTwo_iff_unique {mask : U32} (h : mask ≠ 0) :
    mask &&& (mask - 1) = 0 ↔ ∃ b, ∀ j, mask.getLsbD j = decide (j = b) := by
  have hpos : mask.toNat ≠ 0 := fun h0 => h (BitVec.eq_of_toNat_eq h0)
  have hsub : (mask - 1).toNat = mask.toNat - 1 := by
    have hone : (1 : U32).toNat = 1 := rfl
    have := mask.isLt
    rw [BitVec.toNat_sub, hone]
    omega
  have hzero : mask &&& (mask - 1) = 0 ↔ mask.toNat &&& (mask.toNat - 1) = 0 := by
    rw [← hsub, ← BitVec.toNat_and]
    exact ⟨fun h => by rw [h]; rfl, fun h => BitVec.eq_of_toNat_eq h⟩
  rw [hzero, Nat.and_sub_one_eq_zero_iff_isPowerOfTwo hpos]
  constructor
  · rintro ⟨b, hb⟩
    refine ⟨b, fun j => ?_⟩
    rw [BitVec.getLsbD, hb, Nat.testBit_two_pow]
    exact decide_eq_decide.mpr eq_comm
  · rintro ⟨b, hb⟩
    refine ⟨b, Nat.eq_of_testBit_eq fun j => ?_⟩
    rw [Nat.testBit_two_pow, ← BitVec.getLsbD, hb]
    exact decide_eq_decide.mpr eq_comm

theorem uniqueBank_eq_some {mask : U32} {b : ℕ} :
    uniqueBank mask = some b ↔ ∀ j, mask.getLsbD j = decide (j = b) := by
  have hctz (h : mask ≠ 0) : mask.getLsbD mask.ctz.toNat = true :=
    BitVec.getLsbD_true_ctz_of_ne_zero h
  constructor
  · intro hb
    unfold uniqueBank at hb
    split_ifs at hb with hc
    obtain ⟨hne, hand⟩ : mask ≠ 0 ∧ mask &&& (mask - 1) = 0 := by
      simpa only [not_or, not_not] using hc
    obtain ⟨b', hb'⟩ := (isPowerOfTwo_iff_unique hne).mp hand
    have : mask.ctz.toNat = b' := by
      have h := hctz hne
      rw [hb'] at h
      exact of_decide_eq_true h
    rwa [← Option.some.inj hb, this]
  · intro hb
    have hne : mask ≠ 0 := by
      intro h0
      have := hb b
      simp [h0] at this
    have hand := (isPowerOfTwo_iff_unique hne).mpr ⟨b, hb⟩
    have hb' := hctz hne
    rw [hb] at hb'
    unfold uniqueBank
    rw [if_neg (not_or.mpr ⟨hne, not_not_intro hand⟩), of_decide_eq_true hb']

theorem uniqueBank_mem {mask : U32} {b : ℕ} (h : uniqueBank mask = some b) :
    mask.getLsbD b = true := by
  rw [uniqueBank_eq_some.mp h, decide_eq_true rfl]

/-! ## The banks of a region -/

namespace TrackingSet

def reads : TrackingSet → List BankAccess
  | abg => accessABG
  | bbg => accessBBG
  | aobj => accessAOBJ
  | bobj => accessBOBJ
  | abgExtPal => [⟨4, 4, 0x7FFF⟩, ⟨5, 5, 0x3FFF⟩, ⟨6, 6, 0x3FFF⟩]
  | bbgExtPal => [⟨7, 7, 0x7FFF⟩]
  | aobjExtPal => [⟨4, 5, 0x1FFF⟩, ⟨5, 6, 0x1FFF⟩]
  | bobjExtPal => [⟨8, 8, 0x1FFF⟩]
  | texture => [⟨0, 0, 0x1FFFF⟩, ⟨1, 1, 0x1FFFF⟩, ⟨2, 2, 0x1FFFF⟩, ⟨3, 3, 0x1FFFF⟩]
  | texPal => [⟨4, 4, 0xFFFF⟩, ⟨5, 5, 0x3FFF⟩, ⟨6, 6, 0x3FFF⟩]

def banks (X : TrackingSet) : List ℕ := X.reads.map BankAccess.bank

/-- A mask that names banks of the region only. -/
def Legal (X : TrackingSet) (mask : U32) : Prop := ∀ b, mask.getLsbD b = true → b ∈ X.banks

theorem lt_of_mem_banks {X : TrackingSet} {b : ℕ} (h : b ∈ X.banks) : b < 9 := by
  have hall : ∀ b ∈ X.banks, b < 9 := by cases X <;> decide
  exact hall b h

theorem size_le (X : TrackingSet) : X.size ≤ 2 ^ 19 := by cases X <;> decide

/-- Below the size of the region an address mask cuts where the bank ends. -/
theorem reads_addr {X : TrackingSet} {r : BankAccess} (hr : r ∈ X.reads) {off : ℕ}
    (hoff : off < X.size) :
    (BitVec.ofNat 32 off &&& r.addrMask).toNat = off % bankSize r.bank := by
  have hall : ∀ r ∈ X.reads, ∃ j : Fin 18, r.addrMask.toNat = 2 ^ j.val - 1 ∧
      (bankSize r.bank = 2 ^ j.val ∨ X.size ≤ 2 ^ j.val ∧ 2 ^ j.val ≤ bankSize r.bank) := by
    cases X <;> decide
  obtain ⟨j, hmask, hsize⟩ := hall r hr
  have h32 : off < 2 ^ 32 := by
    have := X.size_le
    omega
  rw [toNat_and_mask hmask, BitVec.toNat_ofNat, Nat.mod_eq_of_lt h32]
  rcases hsize with heq | ⟨hlow, hhigh⟩
  · rw [heq]
  · rw [Nat.mod_eq_of_lt (hoff.trans_le hlow), Nat.mod_eq_of_lt (hoff.trans_le (hlow.trans hhigh))]

/-- Outside the object palettes of engine A each bank is read under its own map bit. -/
theorem reads_test {X : TrackingSet} (hX : X ≠ aobjExtPal) {r : BankAccess} (hr : r ∈ X.reads) :
    r.test = r.bank := by
  have hall : ∀ r ∈ X.reads, r.test = r.bank := by
    cases X
    case aobjExtPal => exact absurd rfl hX
    all_goals decide
  exact hall r hr

/-- A bank the slow access reads is mapped, unless the mask names a single bank. -/
theorem bank_mapped {X : TrackingSet} {mask : U32} (hlegal : X.Legal mask)
    (hu : uniqueBank mask = none) {r : BankAccess} (hr : r ∈ X.reads)
    (htest : mask.getLsbD r.test = true) : mask.getLsbD r.bank = true := by
  by_cases hX : X = aobjExtPal
  · subst hX
    rcases List.mem_pair.mp hr with rfl | rfl
    · exact absurd (hlegal 4 htest) (by decide)
    · by_contra h6
      have hnone : uniqueBank mask ≠ some 5 := by
        rw [hu]
        exact (Option.some_ne_none 5).symm
      refine hnone (uniqueBank_eq_some.mpr fun j => ?_)
      by_cases hj : mask.getLsbD j = true
      · rcases List.mem_pair.mp (hlegal j hj) with rfl | rfl
        · exact hj
        · exact absurd hj h6
      · have h5 : j ≠ 5 := by
          rintro rfl
          exact hj htest
        rw [decide_eq_false h5, Bool.not_eq_true _ |>.mp hj]
  · rwa [← reads_test hX hr]

end TrackingSet

/-! ## ORed banks -/

theorem orBanks_apply {n : ℕ} (vram : ℕ → Mem) (mask addr : U32) (reads : List BankAccess)
    (k : Fin n) :
    orBanks n vram mask addr reads k =
      reads.foldl
        (fun acc r =>
          if mask.getLsbD r.test then acc ||| vram r.bank ((addr &&& r.addrMask).toNat + k) else acc)
        0 := by
  refine (List.foldl_hom (fun v : Bytes n => v k) fun v r => ?_).symm
  split_ifs <;> rfl

/-- Two slow accesses agree on a byte when they agree on every bank they read. -/
theorem orBanks_congr {n m : ℕ} {vram vram' : ℕ → Mem} {mask addr addr' : U32}
    {reads : List BankAccess} {k : Fin n} {l : Fin m}
    (h : ∀ r ∈ reads, mask.getLsbD r.test = true →
      vram r.bank ((addr &&& r.addrMask).toNat + k) =
        vram' r.bank ((addr' &&& r.addrMask).toNat + l)) :
    orBanks n vram mask addr reads k = orBanks m vram' mask addr' reads l := by
  rw [orBanks_apply, orBanks_apply]
  refine List.foldl_ext _ _ _ fun acc r hr => ?_
  split_ifs with htest
  · rw [h r hr htest]
  · rfl

theorem getLsbD_orBanks {n : ℕ} (vram : ℕ → Mem) (mask addr : U32) (reads : List BankAccess)
    (k : Fin n) (t : ℕ) :
    (orBanks n vram mask addr reads k).getLsbD t =
      reads.any fun r => mask.getLsbD r.test &&
        (vram r.bank ((addr &&& r.addrMask).toNat + k)).getLsbD t := by
  rw [orBanks_apply]
  have hfold (acc : U8) :
      (reads.foldl
        (fun acc r =>
          if mask.getLsbD r.test then acc ||| vram r.bank ((addr &&& r.addrMask).toNat + k) else acc)
        acc).getLsbD t =
      (acc.getLsbD t || reads.any fun r => mask.getLsbD r.test &&
        (vram r.bank ((addr &&& r.addrMask).toNat + k)).getLsbD t) := by
    induction reads generalizing acc with
    | nil => simp
    | cons r rs ih =>
      rw [List.foldl_cons, ih, List.any_cons]
      cases mask.getLsbD r.test
      · simp
      · simp [Bool.or_assoc]
  rw [hfold 0]
  simp

/-! ## The byte of a refreshed copy -/

def viewByte (X : TrackingSet) (vram : ℕ → Mem) (mask : U32) (off : ℕ) : U8 :=
  match uniqueBank mask with
  | some b => vram b (off % bankSize b)
  | none => orBanks 1 vram mask (BitVec.ofNat 32 off) X.reads 0

theorem viewByte_unique {X : TrackingSet} {vram : ℕ → Mem} {mask : U32} {b : ℕ}
    (h : uniqueBank mask = some b) (off : ℕ) :
    viewByte X vram mask off = vram b (off % bankSize b) := by
  rw [viewByte, h]

theorem viewByte_shared {X : TrackingSet} {vram : ℕ → Mem} {mask : U32}
    (h : uniqueBank mask = none) (off : ℕ) :
    viewByte X vram mask off = orBanks 1 vram mask (BitVec.ofNat 32 off) X.reads 0 := by
  rw [viewByte, h]

/-- Only mapped banks show. -/
theorem viewByte_congr {X : TrackingSet} {vram vram' : ℕ → Mem} {mask : U32}
    (hlegal : X.Legal mask) {off : ℕ} (hoff : off < X.size)
    (h : ∀ b, mask.getLsbD b = true → vram b (off % bankSize b) = vram' b (off % bankSize b)) :
    viewByte X vram mask off = viewByte X vram' mask off := by
  rcases hu : uniqueBank mask with _ | b
  · rw [viewByte_shared hu, viewByte_shared hu]
    refine orBanks_congr fun r hr htest => ?_
    rw [TrackingSet.reads_addr hr hoff]
    exact h r.bank (TrackingSet.bank_mapped hlegal hu hr htest)
  · rw [viewByte_unique hu, viewByte_unique hu]
    exact h b (uniqueBank_mem hu)

/-! ## Accesses of several bytes -/

theorem mod_add_of_dvd {d m a c : ℕ} (hm : d ∣ m) (ha : d ∣ a) (hc : c < d) :
    a % m + c = (a + c) % m := by
  rcases Nat.eq_zero_or_pos m with rfl | hpos
  · simp
  · have hroom : a % m + d ≤ m := by
      obtain ⟨x, hx⟩ := (Nat.dvd_mod_iff hm).mpr ha
      obtain ⟨y, hy⟩ := hm
      have hlt : a % m < m := Nat.mod_lt a hpos
      have hxy : x < y := by
        rw [hx, hy] at hlt
        exact Nat.lt_of_mul_lt_mul_left hlt
      calc a % m + d = d * (x + 1) := by rw [hx, Nat.mul_succ]
        _ ≤ d * y := Nat.mul_le_mul_left d hxy
        _ = m := hy.symm
    have hlt : a % m + c < m := by omega
    exact (Nat.mod_eq_of_lt hlt).symm.trans (Nat.mod_add_mod a m c)

theorem dvd_bankSize {bank d : ℕ} (h : bank < 9) (hd : d ∣ 2 ^ 14) : d ∣ bankSize bank := by
  obtain ⟨j, h14, -, hsize, -⟩ := bankSize_eq h
  rw [hsize]
  exact hd.trans (Nat.pow_dvd_pow 2 h14)

/-- Bytes behind a bank pointer taken at an aligned offset. -/
theorem viewByte_of_ptr {X : TrackingSet} (vram : ℕ → Mem) {mask : U32} {off c d : ℕ} {p : BankPtr}
    (hlegal : X.Legal mask) (hp : getUniqueBankPtr mask (BitVec.ofNat 32 off) = some p)
    (h32 : off < 2 ^ 32) (hd : d ∣ 2 ^ 14) (ha : d ∣ off) (hc : c < d) :
    vram p.bank (p.offset.toNat + c) = viewByte X vram mask (off + c) := by
  rw [getUniqueBankPtr_eq] at hp
  obtain ⟨b, hu, rfl⟩ := Option.map_eq_some_iff.mp hp
  have hb : b < 9 := TrackingSet.lt_of_mem_banks (hlegal b (uniqueBank_mem hu))
  rw [viewByte_unique hu]
  dsimp only
  rw [toNat_and_vramMask hb, BitVec.toNat_ofNat, Nat.mod_eq_of_lt h32,
    mod_add_of_dvd (dvd_bankSize hb hd) ha hc]

/-- An aligned slow access of up to eight bytes. -/
theorem orBanks_eq_viewByte {X : TrackingSet} {vram : ℕ → Mem} {mask : U32} {n off : ℕ}
    (hu : uniqueBank mask = none) (hn : n ∣ 8) (ha : n ∣ off) (hsize : off + n ≤ X.size)
    (k : Fin n) :
    orBanks n vram mask (BitVec.ofNat 32 off) X.reads k = viewByte X vram mask (off + k) := by
  rw [viewByte_shared hu]
  refine orBanks_congr fun r hr _ => ?_
  have hk := k.isLt
  have hb : r.bank < 9 := TrackingSet.lt_of_mem_banks (List.mem_map_of_mem hr)
  rw [TrackingSet.reads_addr hr (by omega), TrackingSet.reads_addr hr (by omega),
    mod_add_of_dvd (dvd_bankSize hb (hn.trans (by decide))) ha hk]
  rfl

/-! ## Reading a region -/

theorem Coherent.ptr {v : VRAMMap} (hv : Coherent v) (r : Region) (i : ℕ) :
    (v.slot r i).ptr =
      if r.hasPtr then getUniqueBankPtr (v.slot r i).mask (BitVec.ofNat 32 (i <<< 14)) else none := by
  rw [hv.slot r i, canonical_mask]
  unfold canonical
  split_ifs <;> rfl

theorem readVRAM_eq {s : VRAMState} (hv : Coherent s.map) (n : ℕ) (X : TrackingSet) {off : ℕ}
    (hoff : off < X.size) :
    s.readVRAM n X (BitVec.ofNat 32 off) =
      match (s.map.slot X.region (off / X.mappingGranularity)).ptr with
      | some p => (s.vram p.bank).load n (p.offset.toNat + off % 2 ^ 14)
      | none =>
        orBanks n s.vram (s.mask X (off / X.mappingGranularity)) (BitVec.ofNat 32 off) X.reads := by
  have hlow : ((BitVec.ofNat 32 off : U32) &&& 0x3FFF).toNat = off % 2 ^ 14 := by
    have h32 : off < 2 ^ 32 := by
      have := X.size_le
      omega
    rw [toNat_and_mask (j := 14) rfl, BitVec.toNat_ofNat, Nat.mod_eq_of_lt h32]
  cases X
  case abg =>
    simp only [readVRAM, readVRAM_ABG, readEngine, hlow]
    rw [toNat_shift_and (j := 5) rfl hoff (by decide)]
    rfl
  case aobj =>
    simp only [readVRAM, readVRAM_AOBJ, readEngine, hlow]
    rw [toNat_shift_and (j := 4) rfl hoff (by decide)]
    rfl
  case bbg =>
    simp only [readVRAM, readVRAM_BBG, readEngine, hlow]
    rw [toNat_shift_and (j := 3) rfl hoff (by decide)]
    rfl
  case bobj =>
    simp only [readVRAM, readVRAM_BOBJ, readEngine, hlow]
    rw [toNat_shift_and (j := 3) rfl hoff (by decide)]
    rfl
  case abgExtPal =>
    rw [hv.ptr]
    simp only [readVRAM, readVRAM_ABGExtPal]
    rw [toNat_shift_and (j := 2) rfl hoff (by decide)]
    rfl
  case bbgExtPal =>
    rw [hv.ptr]
    simp only [readVRAM, readVRAM_BBGExtPal]
    rw [toNat_shift_and (j := 2) rfl hoff (by decide)]
    rfl
  case aobjExtPal =>
    have hslot : off / TrackingSet.aobjExtPal.mappingGranularity = 0 := Nat.div_eq_of_lt hoff
    rw [hv.ptr, hslot]
    rfl
  case bobjExtPal =>
    have hslot : off / TrackingSet.bobjExtPal.mappingGranularity = 0 := Nat.div_eq_of_lt hoff
    rw [hv.ptr, hslot]
    rfl
  case texture =>
    rw [hv.ptr]
    simp only [readVRAM, readVRAM_Texture]
    rw [toNat_shift_and (j := 2) rfl hoff (by decide)]
    rfl
  case texPal =>
    rw [hv.ptr]
    simp only [readVRAM, readVRAM_TexPal]
    rw [toNat_shift_and (j := 3) rfl hoff (by decide)]
    rfl

/-- The slow access of `CopyLinearVRAM` fills in the bytes of the view. -/
theorem readVRAM_shared {s : VRAMState} (hv : Coherent s.map) {X : TrackingSet} {n off : ℕ}
    (hu : uniqueBank (s.mask X (off / X.mappingGranularity)) = none) (hn : n ∣ 8) (ha : n ∣ off)
    (hpos : 0 < n) (hsize : off + n ≤ X.size) (k : Fin n) :
    s.readVRAM n X (BitVec.ofNat 32 off) k =
      viewByte X s.vram (s.mask X (off / X.mappingGranularity)) (off + k) := by
  have hptr : (s.map.slot X.region (off / X.mappingGranularity)).ptr = none := by
    rw [hv.ptr, getUniqueBankPtr_eq]
    change (if _ then Option.map _ (uniqueBank (s.mask X (off / X.mappingGranularity))) else none) = none
    rw [hu, Option.map_none, ite_self]
  rw [readVRAM_eq hv n X (by omega), hptr]
  exact orBanks_eq_viewByte hu hn ha hsize k

/-- With one bank mapped the slow access reads that bank. -/
theorem orBanks_unique {X : TrackingSet} (hX : X ≠ .aobjExtPal) {vram : ℕ → Mem} {mask : U32}
    {b off : ℕ} (hlegal : X.Legal mask) (hu : uniqueBank mask = some b) (hoff : off < X.size) :
    orBanks 1 vram mask (BitVec.ofNat 32 off) X.reads 0 = vram b (off % bankSize b) := by
  have hbit := uniqueBank_eq_some.mp hu
  apply BitVec.eq_of_getLsbD_eq
  intro t _
  rw [getLsbD_orBanks, Bool.eq_iff_iff, List.any_eq_true]
  constructor
  · rintro ⟨r, hr, h⟩
    rw [Bool.and_eq_true, hbit, decide_eq_true_eq, TrackingSet.reads_test hX hr,
      TrackingSet.reads_addr hr hoff] at h
    obtain ⟨rfl, ht⟩ := h
    exact ht
  · intro ht
    obtain ⟨r, hr, rfl⟩ := List.mem_map.mp (hlegal b (uniqueBank_mem hu))
    refine ⟨r, hr, ?_⟩
    rw [Bool.and_eq_true, TrackingSet.reads_test hX hr, TrackingSet.reads_addr hr hoff]
    exact ⟨uniqueBank_mem hu, ht⟩

/-- Away from the object palettes of engine A a region reads as its view. -/
theorem readVRAM_eq_viewByte {s : VRAMState} (hv : Coherent s.map) {X : TrackingSet}
    (hX : X ≠ .aobjExtPal) {off : ℕ} (hoff : off < X.size)
    (hlegal : X.Legal (s.mask X (off / X.mappingGranularity))) :
    s.readVRAM 1 X (BitVec.ofNat 32 off) 0 =
      viewByte X s.vram (s.mask X (off / X.mappingGranularity)) off := by
  rcases hu : uniqueBank (s.mask X (off / X.mappingGranularity)) with _ | b
  · exact readVRAM_shared hv hu (by decide) (Nat.one_dvd off) Nat.one_pos hoff 0
  · rw [readVRAM_eq hv 1 X hoff, hv.ptr]
    by_cases hr : X.region.hasPtr = true
    · -- the fast pointer is taken at the start of the 16 KB slot
      have hgran : X.mappingGranularity = 2 ^ 14 := by
        cases X <;> first | rfl | cases hr
      have h32 : off < 2 ^ 32 := by
        have := X.size_le
        omega
      rw [hgran] at hu hlegal ⊢
      have hp := getUniqueBankPtr_eq (s.mask X (off / 2 ^ 14))
        (BitVec.ofNat 32 ((off / 2 ^ 14) * 2 ^ 14))
      rw [hu, Option.map_some] at hp
      have hview := viewByte_of_ptr (c := off % 2 ^ 14) s.vram hlegal hp
        (by omega) (dvd_refl _) (Nat.dvd_mul_left _ _) (Nat.mod_lt _ (by decide))
      rw [Nat.div_add_mod'] at hview
      rw [← mask, if_pos hr, Nat.shiftLeft_eq, hp]
      exact hview
    · rw [if_neg hr, viewByte_unique hu]
      exact orBanks_unique hX hlegal hu hoff

end MelonDS.GPU

import MelonDS.GPU.VRAMDerive
import MelonDS.Library.MarkedCells
import Mathlib.Tactic.IntervalCases

/-!
# Flat copies agree with their regions

Entries are the pages of the flat copies and cells the pages of the banks: a flat page
uses the bank pages its remembered mapping shows there. Every step keeps the copies up
to date except a refresh that clears the last dirty bit another region waits for.
-/

namespace MelonDS.GPU
open VRAMState

/-! ## Where banks can be mapped -/

/-- All slots lie in one region, which is one of `rs`. -/
def InOneOf (rs : List Region) (ps : List (Region × ℕ)) : Prop :=
  ∃ r₀ ∈ rs, ∀ p ∈ ps, p.1 = r₀

theorem inOneOf_map {rs : List Region} {r : Region} (h : r ∈ rs) (is : List ℕ) :
    InOneOf rs (is.map fun i => (r, i)) := by
  refine ⟨r, h, fun p hp => ?_⟩
  obtain ⟨i, -, rfl⟩ := List.mem_map.mp hp
  rfl

theorem inOneOf_pair {rs : List Region} {r : Region} (h : r ∈ rs) (base : ℕ) :
    InOneOf rs (slotPair r base) := inOneOf_map h [base, base + 2]

theorem inOneOf_one {rs : List Region} {r : Region} (h : r ∈ rs) (i : ℕ) :
    InOneOf rs [(r, i)] := inOneOf_map h [i]

theorem inOneOf_nil {rs : List Region} {r : Region} (h : r ∈ rs) : InOneOf rs [] :=
  inOneOf_map h []

def bankRegions : ℕ → List Region
  | 0 | 1 => [.lcdc, .abg, .aobj, .texture]
  | 2 => [.lcdc, .abg, .arm7, .texture, .bbg]
  | 3 => [.lcdc, .abg, .arm7, .texture, .bobj]
  | 4 => [.lcdc, .abg, .aobj, .texPal, .abgExtPal]
  | 5 | 6 => [.lcdc, .abg, .aobj, .texPal, .abgExtPal, .aobjExtPal]
  | 7 => [.lcdc, .bbg, .bbgExtPal]
  | 8 => [.lcdc, .bbg, .bobj, .bobjExtPal]
  | _ => []

theorem placementAB_region (c : U8) : InOneOf (bankRegions 0) (placementAB c) := by
  unfold placementAB
  split
  · exact inOneOf_one (by decide) _
  · exact inOneOf_map (by decide) _
  · exact inOneOf_map (by decide) _
  · exact inOneOf_one (by decide) _
  · exact inOneOf_nil (r := .lcdc) (by decide)

theorem placementCD_region {b : ℕ} (hb : b = 2 ∨ b = 3) (c : U8) :
    InOneOf (bankRegions b) (placementCD b c) := by
  unfold placementCD
  rcases hb with rfl | rfl <;> split
  any_goals exact inOneOf_one (by decide) _
  any_goals exact inOneOf_map (by decide) _
  any_goals exact inOneOf_nil (r := .lcdc) (by decide)

theorem placementE_region (c : U8) : InOneOf (bankRegions 4) (placementE c) := by
  unfold placementE
  split
  · exact inOneOf_one (by decide) _
  any_goals exact inOneOf_map (by decide) _
  · exact inOneOf_nil (r := .lcdc) (by decide)

theorem placementFG_region (c : U8) : InOneOf (bankRegions 5) (placementFG c) := by
  unfold placementFG
  split
  · exact inOneOf_one (by decide) _
  · exact inOneOf_pair (by decide) _
  · exact inOneOf_pair (by decide) _
  · exact inOneOf_one (by decide) _
  · exact inOneOf_map (by decide) _
  · exact inOneOf_one (by decide) _
  · exact inOneOf_nil (r := .lcdc) (by decide)

theorem placementH_region (c : U8) : InOneOf (bankRegions 7) (placementH c) := by
  unfold placementH
  split
  · exact inOneOf_one (by decide) _
  · exact inOneOf_map (by decide) _
  · exact inOneOf_map (by decide) _
  · exact inOneOf_nil (r := .lcdc) (by decide)

theorem placementI_region (c : U8) : InOneOf (bankRegions 8) (placementI c) := by
  unfold placementI
  split
  · exact inOneOf_one (by decide) _
  · exact inOneOf_map (by decide) _
  · exact inOneOf_map (by decide) _
  · exact inOneOf_one (by decide) _
  · exact inOneOf_nil (r := .lcdc) (by decide)

/-- A control byte maps its bank to one region, and only to regions of the bank. -/
theorem placement_region {b : ℕ} (hb : b < 9) (c : U8) :
    InOneOf (bankRegions b) (placement b c) := by
  unfold placement
  split_ifs
  · interval_cases b
    · exact placementAB_region c
    · exact placementAB_region c
    · exact placementCD_region (.inl rfl) c
    · exact placementCD_region (.inr rfl) c
    · exact placementE_region c
    · exact placementFG_region c
    · exact placementFG_region c
    · exact placementH_region c
    · exact placementI_region c
  · interval_cases b <;> exact inOneOf_nil (r := .lcdc) (by decide)

theorem Coherent.mask_getLsbD {v : VRAMMap} (hv : Coherent v) (r : Region) (i b : ℕ) :
    (v.slot r i).mask.getLsbD b = decide ((r, i) ∈ placement b (v.vramCNT b)) := by
  rw [hv.slot, canonical_mask, placedMask_getLsbD]

theorem Coherent.lt_of_mask {v : VRAMMap} (hv : Coherent v) {r : Region} {i b : ℕ}
    (h : (v.slot r i).mask.getLsbD b = true) : b < 9 := by
  by_contra hb
  rw [hv.mask_getLsbD, placement_of_ge (Nat.le_of_not_lt hb)] at h
  exact absurd h (by simp)

theorem Coherent.legal {v : VRAMMap} (hv : Coherent v) (X : TrackingSet) (i : ℕ) :
    X.Legal (v.slot X.region i).mask := by
  intro b hb
  have h9 := hv.lt_of_mask hb
  obtain ⟨r₀, hr₀, hall⟩ := placement_region h9 (v.vramCNT b)
  rw [hv.mask_getLsbD, decide_eq_true_eq] at hb
  have hr : X.region = r₀ := hall _ hb
  have htable : ∀ b : Fin 9, X.region ∈ bankRegions b → b.val ∈ X.banks := by
    cases X <;> decide
  exact htable ⟨b, h9⟩ (hr ▸ hr₀)

/-- A bank is visible in one region at a time. -/
theorem Coherent.one_region {v : VRAMMap} (hv : Coherent v) {r r' : Region} {i i' b : ℕ}
    (h : (v.slot r i).mask.getLsbD b = true) (h' : (v.slot r' i').mask.getLsbD b = true) :
    r = r' := by
  obtain ⟨r₀, -, hall⟩ := placement_region (hv.lt_of_mask h) (v.vramCNT b)
  rw [hv.mask_getLsbD, decide_eq_true_eq] at h h'
  exact (hall _ h).trans (hall _ h').symm

/-! ## The invariant -/

namespace VRAMState

/-- Bank pages with their dirty bit set. -/
def dirtyCells (s : VRAMState) : Set (ℕ × ℕ) := {c | (s.vramDirty c.1).getLsbD c.2 = true}

/-- The bank pages page `q` of a flat copy was last known to show. -/
def uses (s : VRAMState) (e : TrackingSet × ℕ) : Set (ℕ × ℕ) :=
  {c | (s.mapping e.1 (e.2 / e.1.vramBitsPerMapping)).getLsbD c.1 = true ∧
    c.2 = bankPage c.1 e.2}

/-- The pages that show what their remembered mapping shows; a slot never derived has
nothing to show. -/
def fresh (s : VRAMState) : Set (TrackingSet × ℕ) :=
  {e | s.mapping e.1 (e.2 / e.1.vramBitsPerMapping) ≠ 0x8000 →
    ∀ off < e.1.size, off / 512 = e.2 →
      s.flat e.1 off =
        viewByte e.1 s.vram ((s.mapping e.1 (e.2 / e.1.vramBitsPerMapping)).setWidth 32) off}

structure Tracked (s : VRAMState) : Prop where
  coherent : Coherent s.map
  seen : ∀ X i, s.mapping X i = 0x8000 ∨ X.Legal ((s.mapping X i).setWidth 32)
  upToDate : DirtyFlags.UpToDate s.dirtyCells s.uses s.fresh
  -- writes through the ARM7 window leave no mark, so its banks are marked throughout
  arm7 : ∀ i b, (s.map.slot .arm7 i).mask.getLsbD b = true →
    ∀ p < 256, (s.vramDirty b).getLsbD p = true

theorem tracked_reset : Tracked reset where
  coherent := coherent_reset
  seen _ _ := .inl rfl
  upToDate _ _ := fun h => absurd rfl h
  arm7 i b h := by
    have h0 : (0 : U32).getLsbD b = true := h
    simp at h0

/-! ## Writes -/

/-- VRAM may change where the dirty bit is set, and dirty bits are only added. -/
structure Marks (s s' : VRAMState) : Prop where
  map : s'.map = s.map
  mapping : s'.mapping = s.mapping
  flat : s'.flat = s.flat
  more : ∀ b p, (s.vramDirty b).getLsbD p = true → (s'.vramDirty b).getLsbD p = true
  written : ∀ b x, (s'.vramDirty b).getLsbD (x / 512) = true ∨ s'.vram b x = s.vram b x

theorem Marks.refl (s : VRAMState) : Marks s s :=
  ⟨rfl, rfl, rfl, fun _ _ h => h, fun _ _ => .inr rfl⟩

theorem Marks.trans {s t u : VRAMState} (h : Marks s t) (h' : Marks t u) : Marks s u where
  map := h'.map.trans h.map
  mapping := h'.mapping.trans h.mapping
  flat := h'.flat.trans h.flat
  more b p hp := h'.more b p (h.more b p hp)
  written b x := by
    rcases h'.written b x with hd | hx
    · exact .inl hd
    · rcases h.written b x with hd | hx'
      · exact .inl (h'.more b _ hd)
      · exact .inr (hx.trans hx')

theorem Marks.foldl {α : Type} {f : VRAMState → α → VRAMState} {l : List α}
    (h : ∀ s, ∀ a ∈ l, Marks s (f s a)) (s : VRAMState) : Marks s (l.foldl f s) := by
  induction l generalizing s with
  | nil => exact Marks.refl s
  | cons a l ih =>
    exact (h s a (List.mem_cons_self ..)).trans
      (ih (fun s b hb => h s b (List.mem_cons_of_mem a hb)) (f s a))

/-- An aligned access stays in one page. -/
theorem store_page {n off x : ℕ} (hn : n = 1 ∨ n = 2 ∨ n = 4) (hoff : n ∣ off)
    (hx : ¬(x < off ∨ off + n ≤ x)) : x / 512 = off / 512 := by
  rcases hn with rfl | rfl | rfl <;> omega

theorem Store.dvd_and {w : Store} {m : U32} {j : ℕ} (hm : m.toNat = 2 ^ j - 1) (hj : 2 ≤ j) :
    w.size ∣ (w.addr &&& m).toNat := by
  rw [toNat_and_mask hm]
  refine (Nat.dvd_mod_iff ?_).mpr w.aligned
  refine Nat.dvd_trans ?_ (Nat.pow_dvd_pow 2 hj)
  rcases w.size_ok with h | h | h <;> rw [h] <;> decide

/-- A store with the dirty bit of its page. -/
theorem marks_store (s : VRAMState) (bank : ℕ) {off : U32} (w : Store)
    (ha : w.size ∣ off.toNat) (hoff : off.toNat < 2 ^ 17) :
    Marks s ((s.setDirty bank off).storeBank bank off w.val) where
  map := rfl
  mapping := rfl
  flat := rfl
  more b p hp := by
    change (Function.update s.vramDirty bank _ b).getLsbD p = true
    by_cases hb : b = bank
    · subst hb
      rw [Function.update_self, NonStupidBitField.set, BitVec.getLsbD_or, hp, Bool.true_or]
    · rwa [Function.update_of_ne hb]
  written b x := by
    change (Function.update s.vramDirty bank _ b).getLsbD (x / 512) = true ∨
      Function.update s.vram bank _ b x = s.vram b x
    by_cases hb : b = bank
    · subst hb
      rw [Function.update_self, Function.update_self]
      by_cases hx : x < off.toNat ∨ off.toNat + w.size ≤ x
      · exact .inr (Mem.store_of_not_mem _ _ hx)
      · have hpage := store_page w.size_ok ha hx
        left
        rw [NonStupidBitField.set, BitVec.getLsbD_or, getLsbD_bit, hpage]
        have h256 : off.toNat / 512 < 256 := by omega
        simp [h256]
    · right
      rw [Function.update_of_ne hb]

theorem marks_writeEngine {r : Region} {slotMask : U32} {banks : List BankAccess}
    (hbanks : ∀ a ∈ banks, ∃ j : Fin 18, 2 ≤ j.val ∧ a.addrMask.toNat = 2 ^ j.val - 1)
    (s : VRAMState) (w : Store) : Marks s (writeEngine r slotMask banks s w) := by
  refine Marks.foldl (fun s a ha => ?_) s
  split_ifs
  · obtain ⟨j, hj, hmask⟩ := hbanks a ha
    refine marks_store s a.bank w (Store.dvd_and hmask hj) ?_
    rw [toNat_and_mask hmask]
    exact (Nat.mod_lt _ (Nat.two_pow_pos _)).trans_le
      (Nat.pow_le_pow_right (by decide) (Nat.le_of_lt_succ j.isLt))
  · exact Marks.refl s

theorem marks_writeVRAM_LCDC (s : VRAMState) (w : Store) : Marks s (s.writeVRAM_LCDC w) := by
  unfold writeVRAM_LCDC
  split
  · exact Marks.refl s
  · rename_i bank m hc
    have hmask : ∀ c ∈ lcdcCases, ∃ j : Fin 18, 2 ≤ j.val ∧ c.2.2.toNat = 2 ^ j.val - 1 := by
      decide
    obtain ⟨j, hj, hm⟩ := hmask _ (List.mem_of_find?_eq_some hc)
    split_ifs
    · refine marks_store s bank w (Store.dvd_and hm hj) ?_
      rw [toNat_and_mask hm]
      exact (Nat.mod_lt _ (Nat.two_pow_pos _)).trans_le
        (Nat.pow_le_pow_right (by decide) (Nat.le_of_lt_succ j.isLt))
    · exact Marks.refl s

/-- A store without a dirty bit, into a bank that is dirty throughout. -/
theorem marks_storeBank {s : VRAMState} {bank : ℕ}
    (h : ∀ p < 256, (s.vramDirty bank).getLsbD p = true) {off : U32} (w : Store)
    (ha : w.size ∣ off.toNat) (hoff : off.toNat < 2 ^ 17) :
    Marks s (s.storeBank bank off w.val) where
  map := rfl
  mapping := rfl
  flat := rfl
  more _ _ hp := hp
  written b x := by
    change (s.vramDirty b).getLsbD (x / 512) = true ∨
      Function.update s.vram bank _ b x = s.vram b x
    by_cases hb : b = bank
    · subst hb
      rw [Function.update_self]
      by_cases hx : x < off.toNat ∨ off.toNat + w.size ≤ x
      · exact .inr (Mem.store_of_not_mem _ _ hx)
      · have hpage := store_page w.size_ok ha hx
        exact .inl (h _ (by omega))
    · right
      rw [Function.update_of_ne hb]

theorem Tracked.marks_writeVRAM_ARM7 {s : VRAMState} (h : Tracked s) (w : Store) :
    Marks s (s.writeVRAM_ARM7 w) := by
  have hm : (0x1FFFF : U32).toNat = 2 ^ 17 - 1 := rfl
  have ha := Store.dvd_and (w := w) hm (by decide)
  have hoff : (w.addr &&& 0x1FFFF).toNat < 2 ^ 17 := by
    rw [toNat_and_mask hm]
    exact Nat.mod_lt _ (by decide)
  unfold writeVRAM_ARM7
  generalize hmask : (s.map.slot .arm7 ((w.addr >>> 17) &&& 0x1).toNat).mask = mask
  have h2 : Marks s
      (if mask.getLsbD 2 = true then s.storeBank 2 (w.addr &&& 0x1FFFF) w.val else s) := by
    split_ifs with hbit
    · exact marks_storeBank (h.arm7 _ 2 (hmask ▸ hbit)) w ha hoff
    · exact Marks.refl s
  generalize hs : (if mask.getLsbD 2 = true then s.storeBank 2 (w.addr &&& 0x1FFFF) w.val else s) =
    s₂ at h2
  dsimp only
  rw [hs]
  split_ifs with hbit
  · refine h2.trans (marks_storeBank (fun p hp => h2.more 3 p ?_) w ha hoff)
    exact h.arm7 _ 3 (hmask ▸ hbit) p hp
  · exact h2

theorem Tracked.marks_writeVRAM {s : VRAMState} (h : Tracked s) (target : WriteTarget)
    (w : Store) : Marks s (s.writeVRAM target w) := by
  cases target with
  | lcdc => exact marks_writeVRAM_LCDC s w
  | abg => exact marks_writeEngine (by decide) s w
  | aobj => exact marks_writeEngine (by decide) s w
  | bbg => exact marks_writeEngine (by decide) s w
  | bobj => exact marks_writeEngine (by decide) s w
  | arm7 => exact h.marks_writeVRAM_ARM7 w

theorem Tracked.marks {s s' : VRAMState} (h : Tracked s) (hm : Marks s s') : Tracked s' where
  coherent := hm.map ▸ h.coherent
  seen X i := by
    rw [hm.mapping]
    exact h.seen X i
  upToDate := by
    have huses : s'.uses = s.uses := by
      unfold uses
      rw [hm.mapping]
    rw [huses]
    refine h.upToDate.mark (fun c hc => hm.more c.1 c.2 hc) fun ⟨X, q⟩ hfresh hclean hseen => ?_
    intro off hoff hq
    rw [hm.mapping] at hseen ⊢
    rw [hm.flat, hfresh hseen off hoff hq]
    have hlegal := (h.seen X (q / X.vramBitsPerMapping)).resolve_left hseen
    refine viewByte_congr hlegal hoff fun b hb => ?_
    have hb9 := TrackingSet.lt_of_mem_banks (hlegal b hb)
    rw [BitVec.getLsbD_setWidth, Bool.and_eq_true] at hb
    have hpage : bankPage b q = off % bankSize b / 512 := by
      dsimp only at hq
      rw [← hq, bankPage_eq hb9]
    rcases hm.written b (off % bankSize b) with hd | hsame
    · rw [← hpage] at hd
      exact absurd hd (hclean (b, bankPage b q) ⟨hb.2, rfl⟩)
    · exact hsame.symm
  arm7 i b hbit p hp := by
    rw [hm.map] at hbit
    exact hm.more b p (h.arm7 i b hbit p hp)

/-! ## VRAMCNT writes -/

theorem placement_arm7 {b i : ℕ} {c : U8} (h : (.arm7, i) ∈ placement b c) :
    (b = 2 ∨ b = 3) ∧ c.getLsbD 7 = true ∧ (c &&& 0x7).toNat = 2 := by
  have h9 : b < 9 := by
    by_contra hb
    rw [placement_of_ge (Nat.le_of_not_lt hb)] at h
    exact absurd h (by simp)
  have hb : b = 2 ∨ b = 3 := by
    obtain ⟨r₀, hr₀, hall⟩ := placement_region h9 c
    have hr : Region.arm7 = r₀ := hall _ h
    have htable : ∀ b : Fin 9, .arm7 ∈ bankRegions b → b.val = 2 ∨ b.val = 3 := by decide
    exact htable ⟨b, h9⟩ (hr ▸ hr₀)
  refine ⟨hb, ?_⟩
  have hcd : placement b c = if c.getLsbD 7 then placementCD b c else [] := by
    rcases hb with rfl | rfl <;> rfl
  rw [hcd] at h
  split_ifs at h with h7
  · refine ⟨h7, ?_⟩
    unfold placementCD at h
    split at h
    case h_3 hmode => exact hmode
    all_goals simp [slots] at h
    split_ifs at h <;> simp at h
  · exact absurd h (by simp)

theorem Tracked.writeVRAMCNT {s : VRAMState} (h : Tracked s) (bank : Fin 9) (cnt : U8) :
    Tracked (s.writeVRAMCNT bank cnt) := by
  obtain ⟨hco, hcnt⟩ := h.coherent.writeVRAMCNT bank cnt
  have hmore (b p : ℕ) (hd : (s.vramDirty b).getLsbD p = true) :
      ((s.writeVRAMCNT bank cnt).vramDirty b).getLsbD p = true := by
    unfold VRAMState.writeVRAMCNT
    dsimp only
    split_ifs
    · by_cases hb : b = bank
      · rw [hb, Function.update_self, BitVec.getLsbD_allOnes]
        exact decide_eq_true (BitVec.lt_of_getLsbD hd)
      · rwa [Function.update_of_ne hb]
    · exact hd
  refine ⟨hco, h.seen, h.upToDate.mark (fun c hc => hmore c.1 c.2 hc) fun e he _ => he, ?_⟩
  intro i b hbit p hp
  have hplace : (.arm7, i) ∈ placement b (Function.update s.map.vramCNT bank (cnt &&& cntMask bank) b) := by
    rw [← hcnt]
    exact of_decide_eq_true (hco.mask_getLsbD .arm7 i b ▸ hbit)
  by_cases hold : (.arm7, i) ∈ placement b (s.map.vramCNT b)
  · refine hmore b p (h.arm7 i b ?_ p hp)
    rw [h.coherent.mask_getLsbD, decide_eq_true hold]
  · -- the bank has just been given to the ARM7
    have hb : b = bank := by
      by_contra hne
      rw [Function.update_of_ne hne] at hplace
      exact hold hplace
    subst hb
    rw [Function.update_self] at hplace
    obtain ⟨hcd, h7, hmode⟩ := placement_arm7 hplace
    have hmask : cntMask bank = 0x9F := by
      rcases hcd with hcd | hcd <;> rw [hcd] <;> rfl
    rw [hmask] at hplace h7 hmode
    have henters : (bank = 2 ∨ bank = 3) ∧ s.map.vramCNT bank ≠ cnt &&& 0x9F ∧
        cnt.getLsbD 7 ∧ (cnt &&& 0x7).toNat = 2 := by
      refine ⟨hcd.imp Fin.ext Fin.ext, fun heq => hold (heq ▸ hplace), ?_, ?_⟩
      · rw [BitVec.getLsbD_and, Bool.and_eq_true] at h7
        exact h7.1
      · rwa [BitVec.and_assoc] at hmode
    unfold VRAMState.writeVRAMCNT
    dsimp only
    rw [if_pos henters, Function.update_self, BitVec.getLsbD_allOnes, decide_eq_true hp]

/-! ## Refreshing -/

/-- Page `q` of the copy of `Y` has yet to copy what was written to bank `b`. -/
def waitsFor (s : VRAMState) (Y : TrackingSet) (q b : ℕ) : Bool :=
  (s.mapping Y (q / Y.vramBitsPerMapping)).getLsbD b && (s.vramDirty b).getLsbD (bankPage b q)

/-- A refresh of `X` leaves a dirty bit to every page of another region that waits for
one, in a bank that is not mapped to `X` now. -/
def KeepsFlags (s : VRAMState) (X : TrackingSet) : Prop :=
  ∀ Y, Y ≠ X → ∀ q < Y.pages, (∃ b : Fin 9, s.waitsFor Y q b = true) →
    ∃ b : Fin 9, s.waitsFor Y q b = true ∧ ∀ i < X.slots, (s.mask X i).getLsbD b = false

instance : Fintype TrackingSet where
  elems := {.abg, .bbg, .aobj, .bobj, .abgExtPal, .bbgExtPal, .aobjExtPal, .bobjExtPal, .texture, .texPal}
  complete X := by cases X <;> decide

instance (s : VRAMState) (X : TrackingSet) : Decidable (KeepsFlags s X) :=
  inferInstanceAs (Decidable (∀ Y, Y ≠ X → ∀ q < Y.pages,
    (∃ b : Fin 9, s.waitsFor Y q b = true) →
      ∃ b : Fin 9, s.waitsFor Y q b = true ∧ ∀ i < X.slots, (s.mask X i).getLsbD b = false))

/-- Without dirty bits there is none to lose. -/
theorem keepsFlags_of_clean {s : VRAMState} (h : ∀ b, s.vramDirty b = 0) (X : TrackingSet) :
    KeepsFlags s X := by
  rintro Y - q - ⟨b, hb⟩
  rw [waitsFor, h b] at hb
  simp at hb

section
variable {s : VRAMState} (h : Tracked s) (X : TrackingSet)
include h

theorem Tracked.legal (i : ℕ) : X.Legal (s.mask X i) := h.coherent.legal X i

theorem Tracked.makeVRAMFlat_mapping (i : ℕ) :
    (makeVRAMFlat X s).mapping X i =
      if i < X.slots then (s.mask X i).setWidth 16 else s.mapping X i := by
  change Function.update s.mapping X (derived X s).mapping X i = _
  rw [Function.update_self]
  exact (derived_upTo (h.legal X)).mapping i

theorem Tracked.makeVRAMFlat_dirty {b : ℕ} (hb : b < 16) :
    (makeVRAMFlat X s).vramDirty b =
      if ∃ i < X.slots, (s.mask X i).getLsbD b = true then 0 else s.vramDirty b := by
  change (setBits (derived X s).banksToBeZeroed).foldl _ s.vramDirty b = _
  rw [foldl_clear]
  simp only [mem_setBits, (derived_upTo (h.legal X)).banks b hb]

/-- After a refresh every byte of the copy is the byte of the view. -/
theorem Tracked.makeVRAMFlat_flat {off : ℕ} (hoff : off < X.size) :
    (makeVRAMFlat X s).flat X off =
      viewByte X s.vram (s.mask X (off / X.mappingGranularity)) off := by
  have hpage := TrackingSet.page_lt hoff
  have hslot := TrackingSet.slot_lt hpage
  have hlegal := h.legal X
  change Function.update s.flat X (copyLinearVRAM X (deriveState X s).2 (derived X s).result) X off = _
  rw [Function.update_self, copyLinearVRAM_apply (s := (deriveState X s).2) h.coherent _ hoff
    (hlegal _), (derived_upTo hlegal).result _ hpage, decide_eq_true hslot, Bool.true_and]
  split_ifs with hflag
  · rfl
  · -- not flagged: the slot shows what it showed, and no bank of it is dirty here
    rw [Bool.not_eq_true, flagged, Bool.or_eq_false_iff, decide_eq_false_iff_not, not_not] at hflag
    obtain ⟨hsame, hclean⟩ := hflag
    have hseen : s.mapping X (off / 512 / X.vramBitsPerMapping) ≠ 0x8000 := by
      intro h15
      have hbit : (s.mask X (off / 512 / X.vramBitsPerMapping)).getLsbD 15 = true := by
        rw [hsame, h15]
        rfl
      exact absurd (TrackingSet.lt_of_mem_banks (hlegal _ 15 hbit)) (by decide)
    have hfresh : (X, off / 512) ∈ s.fresh := by
      refine h.upToDate _ fun c hc hd => ?_
      rw [List.any_eq_false] at hclean
      have hmem := mem_setBits.mpr hc.1
      refine hclean c.1 hmem ?_
      rw [← hc.2]
      exact hd
    rw [X.slot_of_page] at hsame
    have hbyte := hfresh hseen off hoff rfl
    dsimp only at hbyte
    rw [X.slot_of_page, ← hsame] at hbyte
    exact hbyte

theorem Tracked.remembered {i : ℕ} (hi : i < X.slots) :
    ((makeVRAMFlat X s).mapping X i).setWidth 32 = s.mask X i := by
  rw [h.makeVRAMFlat_mapping X i, if_pos hi]
  apply BitVec.eq_of_getLsbD_eq
  intro b hb
  rw [BitVec.getLsbD_setWidth, BitVec.getLsbD_setWidth, decide_eq_true hb, Bool.true_and]
  by_cases hbit : (s.mask X i).getLsbD b = true
  · have := TrackingSet.lt_of_mem_banks (h.legal X i b hbit)
    rw [decide_eq_true (by omega), Bool.true_and]
  · rw [Bool.not_eq_true] at hbit
    rw [hbit, Bool.and_false]

/-- A refresh that keeps the flags of the other regions keeps every copy up to date. -/
theorem Tracked.makeVRAMFlat (hkeeps : KeepsFlags s X) : Tracked (makeVRAMFlat X s) where
  coherent := h.coherent
  seen Y i := by
    by_cases hY : Y = X
    · subst hY
      by_cases hi : i < Y.slots
      · right
        rw [h.remembered Y hi]
        exact h.legal Y i
      · rw [h.makeVRAMFlat_mapping Y i, if_neg hi]
        exact h.seen Y i
    · change Function.update s.mapping X _ Y i = _ ∨ Y.Legal ((Function.update s.mapping X _ Y i).setWidth 32)
      rw [Function.update_of_ne hY]
      exact h.seen Y i
  upToDate := by
    have hmapping (Y : TrackingSet) (hY : Y ≠ X) :
        (VRAMState.makeVRAMFlat X s).mapping Y = s.mapping Y := Function.update_of_ne hY _ _
    have hflat (Y : TrackingSet) (hY : Y ≠ X) :
        (VRAMState.makeVRAMFlat X s).flat Y = s.flat Y := Function.update_of_ne hY _ _
    refine h.upToDate.refresh
      {e | e.1 = X ∨ e.1.pages ≤ e.2 ∨ s.mapping e.1 (e.2 / e.1.vramBitsPerMapping) = 0x8000}
      ?_ ?_ ?_
    · rintro ⟨Y, q⟩ hrefreshed hseen off hoff hq
      dsimp only at hrefreshed hseen hoff hq ⊢
      have hpage := TrackingSet.page_lt hoff
      by_cases hY : Y = X
      · subst hY
        rw [h.makeVRAMFlat_flat Y hoff, ← hq, h.remembered Y (TrackingSet.slot_lt hpage),
          Y.slot_of_page]
        rfl
      · rcases hrefreshed with hX | hlast | hunseen
        · exact absurd hX hY
        · exact absurd (hq ▸ hpage) (Nat.not_lt.mpr hlast)
        · rw [hmapping Y hY] at hseen
          exact absurd hunseen hseen
    · rintro ⟨Y, q⟩ hold
      have hY : Y ≠ X := fun hY => hold (.inl hY)
      refine ⟨?_, fun hfresh => ?_⟩
      · simp only [uses, hmapping Y hY]
      · intro hseen
        dsimp only at hseen ⊢
        rw [hmapping Y hY] at hseen ⊢
        rw [hflat Y hY]
        exact hfresh hseen
    · rintro ⟨Y, q⟩ hold ⟨b, p⟩ ⟨hbit, hp⟩ hdirty
      obtain ⟨hY, hq, hseen⟩ : Y ≠ X ∧ q < Y.pages ∧
          s.mapping Y (q / Y.vramBitsPerMapping) ≠ 0x8000 := by
        simpa only [Set.mem_ofPred_eq, not_or, Nat.not_le] using hold
      dsimp only at hbit hp
      have hb : b < 9 := by
        refine TrackingSet.lt_of_mem_banks ((h.seen Y _).resolve_left hseen b ?_)
        have := BitVec.lt_of_getLsbD hbit
        rw [BitVec.getLsbD_setWidth, hbit, decide_eq_true (by omega), Bool.true_and]
      have hwait : s.waitsFor Y q b = true := by
        rw [waitsFor, hbit, Bool.true_and, ← hp]
        exact hdirty
      obtain ⟨b', hwait', hunmapped⟩ := hkeeps Y hY q hq ⟨⟨b, hb⟩, hwait⟩
      rw [waitsFor, Bool.and_eq_true] at hwait'
      refine ⟨(b', bankPage b' q), ⟨hwait'.1, rfl⟩, ?_⟩
      change ((VRAMState.makeVRAMFlat X s).vramDirty b').getLsbD _ = true
      rw [h.makeVRAMFlat_dirty X (by omega), if_neg]
      · exact hwait'.2
      · rintro ⟨i, hi, hbit'⟩
        rw [hunmapped i hi] at hbit'
        exact Bool.false_ne_true hbit'
  arm7 i b hbit p hp := by
    have hb := h.coherent.lt_of_mask hbit
    rw [h.makeVRAMFlat_dirty X (by omega), if_neg]
    · exact h.arm7 i b hbit p hp
    · rintro ⟨j, -, hmapped⟩
      have hregion : X.region = .arm7 := h.coherent.one_region hmapped hbit
      cases X <;> cases hregion

end

/-! ## The object palettes of engine A -/

/-- The bytes `ReadVRAM_AOBJExtPal` shows agree with the mapped banks: it takes bank F
for bank E's bit and bank G for bank F's. -/
def PalettesAgree (s : VRAMState) : Prop :=
  let mask := s.mask .aobjExtPal 0
  ∀ off < 0x2000,
    (mask.getLsbD 5 = true → mask.getLsbD 6 = false → s.vram 5 off = s.vram 6 off) ∧
      (mask.getLsbD 5 = false → mask.getLsbD 6 = true → s.vram 6 off = 0)

section
variable {s : VRAMState} (h : Tracked s) {off : ℕ} (hoff : off < 0x2000)
include h hoff

theorem Tracked.orBanks_AOBJExtPal :
    orBanks 1 s.vram (s.mask .aobjExtPal 0) (BitVec.ofNat 32 off) TrackingSet.aobjExtPal.reads 0 =
      if (s.mask .aobjExtPal 0).getLsbD 5 then s.vram 6 off else 0 := by
  have h4 : (s.mask .aobjExtPal 0).getLsbD 4 = false := by
    by_contra h4
    rw [Bool.not_eq_false] at h4
    exact absurd (h.legal .aobjExtPal 0 4 h4) (by decide)
  have haddr := TrackingSet.reads_addr (X := .aobjExtPal) (r := ⟨5, 6, 0x1FFF⟩) (by decide) hoff
  have hsmall : off % bankSize 6 = off := Nat.mod_eq_of_lt (hoff.trans (by decide))
  dsimp only at haddr
  rw [hsmall] at haddr
  rw [orBanks_apply]
  simp only [TrackingSet.reads, List.foldl_cons, List.foldl_nil, h4, Bool.false_eq_true, if_false,
    haddr]
  split_ifs
  · exact BitVec.zero_or
  · rfl

theorem Tracked.readVRAM_AOBJExtPal :
    s.readVRAM 1 .aobjExtPal (BitVec.ofNat 32 off) 0 =
      if (s.mask .aobjExtPal 0).getLsbD 5 then s.vram 6 off else 0 :=
  h.orBanks_AOBJExtPal hoff

theorem Tracked.viewByte_AOBJExtPal :
    viewByte .aobjExtPal s.vram (s.mask .aobjExtPal 0) off =
      match (s.mask .aobjExtPal 0).getLsbD 5, (s.mask .aobjExtPal 0).getLsbD 6 with
      | true, false => s.vram 5 off
      | _, true => s.vram 6 off
      | false, false => 0 := by
  have hlegal := h.legal .aobjExtPal 0
  have hor := h.orBanks_AOBJExtPal hoff
  generalize s.mask .aobjExtPal 0 = mask at hlegal hor ⊢
  have hother (j : ℕ) (h5 : j ≠ 5) (h6 : j ≠ 6) : mask.getLsbD j = false := by
    by_contra hj
    rw [Bool.not_eq_false] at hj
    rcases List.mem_pair.mp (hlegal j hj) with hj5 | hj6
    · exact h5 hj5
    · exact h6 hj6
  have hsmall (b : ℕ) (hb : b = 5 ∨ b = 6) : off % bankSize b = off := by
    refine Nat.mod_eq_of_lt (hoff.trans ?_)
    rcases hb with rfl | rfl <;> decide
  -- the view is one bank's when exactly one of F and G is mapped
  have hone (b b' : ℕ) (hb : b = 5 ∧ b' = 6 ∨ b = 6 ∧ b' = 5) (hbit : mask.getLsbD b = true)
      (hbit' : mask.getLsbD b' = false) : viewByte .aobjExtPal s.vram mask off = s.vram b off := by
    have hu : uniqueBank mask = some b := by
      refine uniqueBank_eq_some.mpr fun j => ?_
      by_cases hj : j = b
      · rw [hj, hbit, decide_eq_true rfl]
      · rw [decide_eq_false hj]
        by_cases hj' : j = b'
        · rw [hj', hbit']
        · exact hother j (by omega) (by omega)
    rw [viewByte_unique hu, hsmall b (by omega)]
  have hmany (heq : mask.getLsbD 5 = mask.getLsbD 6) : uniqueBank mask = none := by
    rcases hu : uniqueBank mask with _ | b
    · rfl
    · have hbit := uniqueBank_eq_some.mp hu
      have hmem := uniqueBank_mem hu
      rw [hbit, hbit, decide_eq_decide] at heq
      have hb : b = 5 ∨ b = 6 := List.mem_pair.mp (hlegal b hmem)
      omega
  cases h5 : mask.getLsbD 5 <;> cases h6 : mask.getLsbD 6
  · rw [viewByte_shared (hmany (h5.trans h6.symm)), hor, h5]
    rfl
  · exact hone 6 5 (.inr ⟨rfl, rfl⟩) h6 h5
  · exact hone 5 6 (.inl ⟨rfl, rfl⟩) h5 h6
  · rw [viewByte_shared (hmany (h5.trans h6.symm)), hor, h5]
    rfl

end

/-! ## Runs -/

/-- The step takes no last flag from a region it does not refresh. -/
def StepKeepsFlags (s : VRAMState) : Action → Prop
  | .makeVRAMFlat X => KeepsFlags s X
  | _ => True

def RunKeepsFlags : VRAMState → List Action → Prop
  | _, [] => True
  | s, a :: as => StepKeepsFlags s a ∧ RunKeepsFlags (s.step a) as

instance (s : VRAMState) (a : Action) : Decidable (StepKeepsFlags s a) :=
  match a with
  | .writeVRAMCNT _ _ => isTrue trivial
  | .writeVRAM _ _ => isTrue trivial
  | .makeVRAMFlat X => inferInstanceAs (Decidable (KeepsFlags s X))

instance decidableRunKeepsFlags : (s : VRAMState) → (acts : List Action) →
    Decidable (RunKeepsFlags s acts)
  | _, [] => isTrue trivial
  | s, a :: as =>
    have := decidableRunKeepsFlags (s.step a) as
    inferInstanceAs (Decidable (StepKeepsFlags s a ∧ RunKeepsFlags (s.step a) as))

theorem Tracked.step {s : VRAMState} (h : Tracked s) (a : Action) (hkeeps : StepKeepsFlags s a) :
    Tracked (step s a) := by
  cases a with
  | writeVRAMCNT bank cnt => exact h.writeVRAMCNT bank cnt
  | writeVRAM target w => exact h.marks (h.marks_writeVRAM target w)
  | makeVRAMFlat X => exact h.makeVRAMFlat X hkeeps

theorem Tracked.run {s : VRAMState} (h : Tracked s) (acts : List Action)
    (hkeeps : RunKeepsFlags s acts) : Tracked (s.run acts) := by
  induction acts generalizing s with
  | nil => exact h
  | cons a acts ih => exact ih (h.step a hkeeps.1) hkeeps.2

/-- **A refreshed copy is what its region reads.** After any run of VRAMCNT writes, CPU
writes and refreshes in which no refresh takes the last dirty bit another region waits
for, refreshing any region makes its copy equal at every offset to what the region
reads; for the object palettes of engine A this holds exactly when the bytes its read
function picks agree. -/
theorem run_makeVRAMFlat (acts : List Action) (hkeeps : RunKeepsFlags reset acts)
    (X : TrackingSet) :
    let s := reset.run acts
    (∀ off < X.size, (makeVRAMFlat X s).flat X off =
      (makeVRAMFlat X s).readVRAM 1 X (BitVec.ofNat 32 off) 0) ↔
    (X = .aobjExtPal → PalettesAgree s) := by
  intro s
  have h : Tracked s := tracked_reset.run acts hkeeps
  have hread (off : ℕ) : (VRAMState.makeVRAMFlat X s).readVRAM 1 X (BitVec.ofNat 32 off) =
      s.readVRAM 1 X (BitVec.ofNat 32 off) := by
    cases X <;> rfl
  by_cases hX : X = .aobjExtPal
  · subst hX
    have hbyte (off : ℕ) (hoff : off < 0x2000) :
        ((VRAMState.makeVRAMFlat .aobjExtPal s).flat .aobjExtPal off =
          (VRAMState.makeVRAMFlat .aobjExtPal s).readVRAM 1 .aobjExtPal (BitVec.ofNat 32 off) 0) ↔
        ((s.mask .aobjExtPal 0).getLsbD 5 = true → (s.mask .aobjExtPal 0).getLsbD 6 = false →
          s.vram 5 off = s.vram 6 off) ∧
        ((s.mask .aobjExtPal 0).getLsbD 5 = false → (s.mask .aobjExtPal 0).getLsbD 6 = true →
          s.vram 6 off = 0) := by
      have hslot : off / TrackingSet.aobjExtPal.mappingGranularity = 0 := Nat.div_eq_of_lt hoff
      rw [h.makeVRAMFlat_flat .aobjExtPal hoff, hslot, hread, h.viewByte_AOBJExtPal hoff,
        h.readVRAM_AOBJExtPal hoff]
      cases (s.mask .aobjExtPal 0).getLsbD 5 <;> cases (s.mask .aobjExtPal 0).getLsbD 6 <;> simp
    exact ⟨fun hall _ off hoff => (hbyte off hoff).mp (hall off hoff),
      fun hagree off hoff => (hbyte off hoff).mpr (hagree rfl off hoff)⟩
  · refine ⟨fun _ hX' => absurd hX' hX, fun _ off hoff => ?_⟩
    rw [h.makeVRAMFlat_flat X hoff, hread, readVRAM_eq_viewByte h.coherent hX hoff (h.legal X _)]

/-- Bank I is written while the CPU owns it, after the object palettes of engine B have
been copied from it. -/
def paletteWrite : List Action :=
  [.writeVRAMCNT 8 0x83, .makeVRAMFlat .bobjExtPal, .writeVRAMCNT 8 0x80,
    .writeVRAM .lcdc ⟨4, 0x068A0000, fun _ => 1, .inr (.inr rfl), by decide⟩]

theorem run_makeVRAMFlat_paletteWrite :
    RunKeepsFlags reset (paletteWrite ++ [.writeVRAMCNT 8 0x83]) ∧
      ∀ off < TrackingSet.bobjExtPal.size,
        (makeVRAMFlat .bobjExtPal (reset.run (paletteWrite ++ [.writeVRAMCNT 8 0x83]))).flat
          .bobjExtPal off =
        (makeVRAMFlat .bobjExtPal (reset.run (paletteWrite ++ [.writeVRAMCNT 8 0x83]))).readVRAM 1
          .bobjExtPal (BitVec.ofNat 32 off) 0 := by
  have hkeeps : RunKeepsFlags reset (paletteWrite ++ [.writeVRAMCNT 8 0x83]) := by
    simp only [paletteWrite, List.cons_append, List.nil_append, RunKeepsFlags, StepKeepsFlags,
      true_and, and_true]
    exact keepsFlags_of_clean (fun _ => rfl) _
  have hpalette : TrackingSet.bobjExtPal ≠ .aobjExtPal := by decide
  exact ⟨hkeeps, (run_makeVRAMFlat _ hkeeps .bobjExtPal).mpr fun h => absurd h hpalette⟩

/-- The same run with a refresh of the backgrounds of engine B in between, bank I mapped
there: it clears the dirty bit, and the palettes keep the old byte. -/
theorem run_paletteWrite_stale :
    ¬∀ (acts : List Action) (X : TrackingSet), ∀ off < X.size,
      (makeVRAMFlat X (reset.run acts)).flat X off =
        (makeVRAMFlat X (reset.run acts)).readVRAM 1 X (BitVec.ofNat 32 off) 0 := by
  intro hall
  have hstale := hall (paletteWrite ++
    [.writeVRAMCNT 8 0x81, .makeVRAMFlat .bbg, .writeVRAMCNT 8 0x83]) .bobjExtPal 0 (by decide)
  exact absurd hstale (by decide +kernel)

end VRAMState
end MelonDS.GPU

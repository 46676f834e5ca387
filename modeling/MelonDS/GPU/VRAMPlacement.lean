import MelonDS.GPU.VRAMMap
import Mathlib.Data.Fintype.Basic
import Mathlib.Data.List.FinRange
import Mathlib.Logic.Equiv.Fin.Basic
import Mathlib.Tactic.FinCases

/-!
# The VRAM map is a function of the VRAMCNT registers

`placement` says where a control byte puts a bank. A map is coherent when every
slot's mask consists of the banks placed there by the current registers, with the
pointers that belong to that mask. Leaving and entering each act on exactly the
slots of a placement, so every VRAMCNT write keeps coherence, and a coherent map
is determined by its registers.
-/

namespace MelonDS.GPU
open VRAMMap

/-- `n` consecutive slots of a region. -/
def slots (r : Region) (base n : ℕ) : List (Region × ℕ) :=
  (List.range' base n).map fun i => (r, i)

def slotPair (r : Region) (base : ℕ) : List (Region × ℕ) := [(r, base), (r, base + 2)]

def placementAB (cnt : U8) : List (Region × ℕ) :=
  match (cnt &&& 0x3).toNat with
  | 0 => [(.lcdc, 0)]
  | 1 => slots .abg (ofs cnt 0x3 <<< 3) 8
  | 2 => slots .aobj ((ofs cnt 0x3 &&& 1) <<< 3) 8
  | 3 => [(.texture, ofs cnt 0x3)]
  | _ => []

def placementCD (bank : ℕ) (cnt : U8) : List (Region × ℕ) :=
  match (cnt &&& 0x7).toNat with
  | 0 => [(.lcdc, 0)]
  | 1 => slots .abg (ofs cnt 0x7 <<< 3) 8
  | 2 => [(.arm7, ofs cnt 0x7 &&& 1)]
  | 3 => [(.texture, ofs cnt 0x7)]
  | 4 => if bank = 2 then slots .bbg 0 8 else slots .bobj 0 8
  | _ => []

def placementE (cnt : U8) : List (Region × ℕ) :=
  match (cnt &&& 0x7).toNat with
  | 0 => [(.lcdc, 0)]
  | 1 => slots .abg 0 4
  | 2 => slots .aobj 0 4
  | 3 => slots .texPal 0 4
  | 4 => slots .abgExtPal 0 4
  | _ => []

def placementFG (cnt : U8) : List (Region × ℕ) :=
  match (cnt &&& 0x7).toNat with
  | 0 => [(.lcdc, 0)]
  | 1 => slotPair .abg (baseFG (ofs cnt 0x7))
  | 2 => slotPair .aobj (baseFG (ofs cnt 0x7))
  | 3 => [(.texPal, baseFG (ofs cnt 0x7))]
  | 4 => slots .abgExtPal ((ofs cnt 0x7 &&& 1) <<< 1) 2
  | 5 => [(.aobjExtPal, 0)]
  | _ => []

def placementH (cnt : U8) : List (Region × ℕ) :=
  match (cnt &&& 0x3).toNat with
  | 0 => [(.lcdc, 0)]
  | 1 => [0, 1, 4, 5].map fun i => (.bbg, i)
  | 2 => slots .bbgExtPal 0 4
  | _ => []

def placementI (cnt : U8) : List (Region × ℕ) :=
  match (cnt &&& 0x3).toNat with
  | 0 => [(.lcdc, 0)]
  | 1 => [2, 3, 6, 7].map fun i => (.bbg, i)
  | 2 => slots .bobj 0 8
  | 3 => [(.bobjExtPal, 0)]
  | _ => []

/-- The slots a bank is visible in under a control byte. -/
def placement (bank : ℕ) (cnt : U8) : List (Region × ℕ) :=
  if cnt.getLsbD 7 then
    match bank with
    | 0 | 1 => placementAB cnt
    | 2 | 3 => placementCD bank cnt
    | 4 => placementE cnt
    | 5 | 6 => placementFG cnt
    | 7 => placementH cnt
    | 8 => placementI cnt
    | _ => []
  else []

/-- The bits of a control byte its register keeps. -/
def cntMask (bank : ℕ) : U8 :=
  match bank with
  | 0 | 1 => 0x9B
  | 2 | 3 => 0x9F
  | 4 => 0x87
  | 5 | 6 => 0x9F
  | _ => 0x83

/-- The banks the registers place in a slot. -/
def placedMask (cnt : ℕ → U8) (r : Region) (i : ℕ) : U32 :=
  (List.range 9).foldl
    (fun m b => if (r, i) ∈ placement b (cnt b) then m ||| bankMask b else m) 0

/-- A slot with the pointers its mask determines. -/
def canonical (r : Region) (i : ℕ) (mask : U32) : Slot :=
  if r.hasPtr then (⟨mask, none, none⟩ : Slot).setPtr i |>.setCBF i else ⟨mask, none, none⟩

@[simp] theorem canonical_mask (r : Region) (i : ℕ) (mask : U32) :
    (canonical r i mask).mask = mask := by
  unfold canonical
  split_ifs <;> rfl

/-- Bank C or D is given to the ARM7. -/
def toARM7 (cnt : U8) : Bool := cnt.getLsbD 7 && decide ((cnt &&& 0x7).toNat = 2)

/-- `VRAMSTAT` as the registers of banks C and D set it. -/
def placedSTAT (cnt : ℕ → U8) : U8 :=
  (if toARM7 (cnt 2) then bit 8 0 else 0) ||| (if toARM7 (cnt 3) then bit 8 1 else 0)

structure Coherent (v : VRAMMap) : Prop where
  slot : ∀ r i, v.slot r i = canonical r i (placedMask v.vramCNT r i)
  stat : v.vramSTAT = placedSTAT v.vramCNT
  masked : ∀ b, v.vramCNT b &&& cntMask b = v.vramCNT b

/-- A coherent map is determined by its registers. -/
theorem Coherent.ext {v w : VRAMMap} (hv : Coherent v) (hw : Coherent w)
    (h : v.vramCNT = w.vramCNT) : v = w := by
  obtain ⟨vc, vs, vt⟩ := v
  obtain ⟨wc, ws, wt⟩ := w
  dsimp only at h
  subst h
  congr 1
  · exact hv.stat.trans hw.stat.symm
  · funext r i
    exact (hv.slot r i).trans (hw.slot r i).symm

/-! ## What leaving and entering do -/

/-- `v'` is `v` with the masks of the listed slots changed by `f` and their
pointers recomputed, everything else unchanged. -/
structure Acts (f : U32 → U32) (ps : List (Region × ℕ)) (v v' : VRAMMap) : Prop where
  cnt : v'.vramCNT = v.vramCNT
  slot : (∀ r i, v.slot r i = canonical r i (v.slot r i).mask) →
    ∀ r i, v'.slot r i =
      if (r, i) ∈ ps then canonical r i (f (v.slot r i).mask) else v.slot r i

/-- `g` changes a slot's mask by `f` and nothing else. -/
def OnMask (g : Slot → Slot) (f : U32 → U32) : Prop := ∀ s, g s = { s with mask := f s.mask }

theorem onMask_map (bank : ℕ) : OnMask (Slot.map bank) (· ||| bankMask bank) := fun _ => rfl
theorem onMask_unmap (bank : ℕ) : OnMask (Slot.unmap bank) (· &&& ~~~bankMask bank) := fun _ => rfl

theorem mem_slots {r r' : Region} {base n i : ℕ} :
    (r', i) ∈ slots r base n ↔ r' = r ∧ i ∈ List.range' base n := by
  simp only [slots, List.mem_map, Prod.mk.injEq]
  constructor
  · rintro ⟨j, hj, rfl, rfl⟩
    exact ⟨rfl, hj⟩
  · rintro ⟨rfl, hi⟩
    exact ⟨i, hi, rfl, rfl⟩

theorem onSlots_cnt (v : VRAMMap) (r : Region) (is : List ℕ) (g : ℕ → Slot → Slot) :
    (v.onSlots r is g).vramCNT = v.vramCNT := by
  induction is generalizing v with
  | nil => rfl
  | cons i is ih => exact ih (v.onSlot r i (g i))

theorem onSlots_stat (v : VRAMMap) (r : Region) (is : List ℕ) (g : ℕ → Slot → Slot) :
    (v.onSlots r is g).vramSTAT = v.vramSTAT := by
  induction is generalizing v with
  | nil => rfl
  | cons i is ih => exact ih (v.onSlot r i (g i))

theorem onSlot_slot (v : VRAMMap) (r r' : Region) (i i' : ℕ) (g : Slot → Slot) :
    (v.onSlot r i g).slot r' i' =
      if r' = r ∧ i' = i then g (v.slot r' i') else v.slot r' i' := by
  simp only [onSlot]
  split_ifs with h
  · rw [h.1, h.2]
  · rfl

theorem onSlots_slot (v : VRAMMap) {r r' : Region} {is : List ℕ} {i' : ℕ} (g : ℕ → Slot → Slot)
    (hnd : is.Nodup) :
    (v.onSlots r is g).slot r' i' =
      if r' = r ∧ i' ∈ is then g i' (v.slot r' i') else v.slot r' i' := by
  induction is generalizing v with
  | nil => simp [onSlots]
  | cons i is ih =>
    obtain ⟨hi, hnd⟩ := List.nodup_cons.mp hnd
    change ((v.onSlot r i (g i)).onSlots r is g).slot r' i' = _
    rw [ih _ hnd, onSlot_slot]
    by_cases hr : r' = r
    · by_cases he : i' = i
      · subst he
        simp [hr, hi]
      · simp [hr, he]
    · simp [hr]

theorem acts_nil (f : U32 → U32) (v : VRAMMap) : Acts f [] v v :=
  ⟨rfl, fun _ _ _ => by simp⟩

section
variable {g : Slot → Slot} {f : U32 → U32} (hg : OnMask g f)
include hg

/-- On a region without pointer tables the assignment to the mask is all there is. -/
theorem onMask_canonical {r : Region} (hr : r.hasPtr = false) {s : Slot} {i : ℕ}
    (hs : s = canonical r i s.mask) : g s = canonical r i (f s.mask) := by
  rw [hg, hs]
  simp [canonical, hr]

/-- On an engine region the two pointer assignments restore the canonical slot. -/
theorem onMask_setPtr_setCBF {r : Region} (hr : r.hasPtr = true) (s : Slot) (i : ℕ) :
    ((g s).setPtr i).setCBF i = canonical r i (f s.mask) := by
  rw [hg]
  simp [canonical, hr, Slot.setPtr, Slot.setCBF]

theorem acts_onSlot {r : Region} (hr : r.hasPtr = false) (i : ℕ) (v : VRAMMap) :
    Acts f [(r, i)] v (v.onSlot r i g) := by
  refine ⟨rfl, fun hs r' i' => ?_⟩
  rw [onSlot_slot]
  simp only [List.mem_singleton, Prod.mk.injEq]
  split_ifs with h
  · obtain ⟨rfl, rfl⟩ := h
    exact onMask_canonical hg hr (hs _ _)
  · rfl

theorem acts_range {r : Region} (hr : r.hasPtr = false) (base n : ℕ) (v : VRAMMap) :
    Acts f (slots r base n) v (v.onSlots r (List.range' base n) fun _ => g) := by
  refine ⟨onSlots_cnt _ _ _ _, fun hs r' i' => ?_⟩
  rw [onSlots_slot _ _ List.nodup_range']
  simp only [mem_slots]
  split_ifs with h
  · obtain ⟨rfl, -⟩ := h
    exact onMask_canonical hg hr (hs _ _)
  · rfl

/-- `MAP_RANGE_PTR` or `UNMAP_RANGE_PTR`, then `SET_RANGE_CBF`, which covers at
least the slots mapped and recomputes what is already there on the others. -/
theorem acts_rangePtr {r : Region} (hr : r.hasPtr = true) (base : ℕ) {n : ℕ} (hn : n ≤ 8)
    (v : VRAMMap) :
    Acts f (slots r base n) v
      (setRangeCBF r base (v.onSlots r (List.range' base n) fun i s => (g s).setPtr i)) := by
  refine ⟨by rw [setRangeCBF, onSlots_cnt, onSlots_cnt], fun hs r' i' => ?_⟩
  rw [setRangeCBF, onSlots_slot _ _ List.nodup_range', onSlots_slot _ _ List.nodup_range']
  simp only [mem_slots]
  by_cases hrr : r' = r
  · subst hrr
    simp only [true_and]
    by_cases hin : i' ∈ List.range' base n
    · have h8 : i' ∈ List.range' base 8 := by
        rw [List.mem_range'_1] at hin ⊢
        omega
      rw [if_pos h8, if_pos hin, if_pos hin]
      exact onMask_setPtr_setCBF hg hr _ _
    · rw [if_neg hin, if_neg hin]
      split_ifs
      · rw [hs r' i']
        simp [canonical, hr, Slot.setPtr, Slot.setCBF]
      · rfl
  · simp [hrr]

theorem acts_pairPtr {r : Region} (hr : r.hasPtr = true) (base : ℕ) (v : VRAMMap) :
    Acts f (slotPair r base) v (pairPtr g r base v) := by
  refine ⟨rfl, fun _ r' i' => ?_⟩
  simp only [pairPtr, onSlot_slot, slotPair, List.mem_cons, List.not_mem_nil, Prod.mk.injEq, or_false]
  by_cases hrr : r' = r
  · subst hrr
    simp only [true_and]
    by_cases h0 : i' = base
    · subst h0
      simp [onMask_setPtr_setCBF hg hr]
    · by_cases h2 : i' = base + 2
      · subst h2
        simp [onMask_setPtr_setCBF hg hr]
      · simp [h0, h2]
  · simp [hrr]

theorem acts_eachPtr {r : Region} (hr : r.hasPtr = true) {is : List ℕ} (hnd : is.Nodup)
    (v : VRAMMap) : Acts f (is.map fun i => (r, i)) v (eachPtr g r is v) := by
  refine ⟨onSlots_cnt _ _ _ _, fun _ r' i' => ?_⟩
  rw [eachPtr, onSlots_slot _ _ hnd]
  have hm : (r', i') ∈ is.map (fun i => (r, i)) ↔ r' = r ∧ i' ∈ is := by
    simp only [List.mem_map, Prod.mk.injEq]
    constructor
    · rintro ⟨j, hj, rfl, rfl⟩
      exact ⟨rfl, hj⟩
    · rintro ⟨rfl, hi⟩
      exact ⟨i', hi, rfl, rfl⟩
  simp only [hm]
  split_ifs with h
  · obtain ⟨rfl, -⟩ := h
    exact onMask_setPtr_setCBF hg hr _ _
  · rfl

theorem acts_two {r : Region} (hr : r.hasPtr = false) (base : ℕ) (v : VRAMMap) :
    Acts f (slots r base 2) v ((v.onSlot r base g).onSlot r (base + 1) g) := by
  have h := acts_range hg hr base 2 v
  rwa [List.range'_succ, List.range'_succ] at h

end

/-- A switch taken only when bit 7 of the control byte is set acts on the placement
of that control byte as soon as its cases do. -/
theorem Acts.enabled {f : U32 → U32} {cnt : U8} {ps : List (Region × ℕ)} {v v' : VRAMMap}
    (h : Acts f ps v v') :
    Acts f (if cnt.getLsbD 7 then ps else []) v (if cnt.getLsbD 7 then v' else v) := by
  split_ifs
  · exact h
  · exact acts_nil f v

/-! Each switch acts on the placement of its control byte, case by case. -/

theorem acts_leaveAB (bank : ℕ) (cnt : U8) (v : VRAMMap) :
    Acts (· &&& ~~~bankMask bank) (if cnt.getLsbD 7 then placementAB cnt else []) v
      (leaveAB bank cnt v) := by
  apply Acts.enabled
  have hg := onMask_unmap bank
  unfold placementAB
  generalize (cnt &&& 0x3).toNat = mode
  rcases mode with _ | _ | _ | _ | _
  · exact acts_onSlot hg rfl _ v
  · exact acts_rangePtr hg rfl _ le_rfl v
  · exact acts_rangePtr hg rfl _ le_rfl v
  · exact acts_onSlot hg rfl _ v
  · exact acts_nil _ v

theorem acts_enterAB (bank : ℕ) (cnt : U8) (v : VRAMMap) :
    Acts (· ||| bankMask bank) (if cnt.getLsbD 7 then placementAB cnt else []) v
      (enterAB bank cnt v) := by
  apply Acts.enabled
  have hg := onMask_map bank
  unfold placementAB
  generalize (cnt &&& 0x3).toNat = mode
  rcases mode with _ | _ | _ | _ | _
  · exact acts_onSlot hg rfl _ v
  · exact acts_rangePtr hg rfl _ le_rfl v
  · exact acts_rangePtr hg rfl _ le_rfl v
  · exact acts_onSlot hg rfl _ v
  · exact acts_nil _ v

theorem acts_leaveCD (bank : ℕ) (cnt : U8) (v : VRAMMap) :
    Acts (· &&& ~~~bankMask bank) (if cnt.getLsbD 7 then placementCD bank cnt else []) v
      (leaveCD bank cnt v) := by
  apply Acts.enabled
  have hg := onMask_unmap bank
  unfold placementCD
  generalize (cnt &&& 0x7).toNat = mode
  rcases mode with _ | _ | _ | _ | _ | _
  · exact acts_onSlot hg rfl _ v
  · exact acts_rangePtr hg rfl _ le_rfl v
  · exact acts_onSlot hg rfl _ v
  · exact acts_onSlot hg rfl _ v
  · by_cases hb : bank = 2
    · simp only [hb, if_true]
      exact acts_rangePtr (hb ▸ hg) rfl _ le_rfl v
    · simp only [hb, if_false]
      exact acts_rangePtr hg rfl _ le_rfl v
  · exact acts_nil _ v

/-- `VRAMSTAT` is outside the slots, so the case that sets its bit acts as if it did not. -/
theorem Acts.withSTAT {f : U32 → U32} {ps : List (Region × ℕ)} {v v' : VRAMMap} {stat : U8}
    (h : Acts f ps v v') : Acts f ps v { v' with vramSTAT := stat } :=
  ⟨h.cnt, h.slot⟩

theorem acts_enterCD (bank : ℕ) (cnt : U8) (v : VRAMMap) :
    Acts (· ||| bankMask bank) (if cnt.getLsbD 7 then placementCD bank cnt else []) v
      (enterCD bank cnt v) := by
  apply Acts.enabled
  have hg := onMask_map bank
  unfold placementCD
  generalize (cnt &&& 0x7).toNat = mode
  rcases mode with _ | _ | _ | _ | _ | _
  · exact acts_onSlot hg rfl _ v
  · exact acts_rangePtr hg rfl _ le_rfl v
  · exact (acts_onSlot hg rfl _ v).withSTAT
  · exact acts_onSlot hg rfl _ v
  · by_cases hb : bank = 2
    · simp only [hb, if_true]
      exact acts_rangePtr (hb ▸ hg) rfl _ le_rfl v
    · simp only [hb, if_false]
      exact acts_rangePtr hg rfl _ le_rfl v
  · exact acts_nil _ v

theorem acts_leaveE (bank : ℕ) (cnt : U8) (v : VRAMMap) :
    Acts (· &&& ~~~bankMask bank) (if cnt.getLsbD 7 then placementE cnt else []) v
      (leaveE bank cnt v) := by
  apply Acts.enabled
  have hg := onMask_unmap bank
  unfold placementE
  generalize (cnt &&& 0x7).toNat = mode
  rcases mode with _ | _ | _ | _ | _ | _
  · exact acts_onSlot hg rfl _ v
  · exact acts_rangePtr hg rfl _ (by omega) v
  · exact acts_rangePtr hg rfl _ (by omega) v
  · exact acts_range hg rfl _ _ v
  · exact acts_range hg rfl _ _ v
  · exact acts_nil _ v

theorem acts_enterE (bank : ℕ) (cnt : U8) (v : VRAMMap) :
    Acts (· ||| bankMask bank) (if cnt.getLsbD 7 then placementE cnt else []) v
      (enterE bank cnt v) := by
  apply Acts.enabled
  have hg := onMask_map bank
  unfold placementE
  generalize (cnt &&& 0x7).toNat = mode
  rcases mode with _ | _ | _ | _ | _ | _
  · exact acts_onSlot hg rfl _ v
  · exact acts_rangePtr hg rfl _ (by omega) v
  · exact acts_rangePtr hg rfl _ (by omega) v
  · exact acts_range hg rfl _ _ v
  · exact acts_range hg rfl _ _ v
  · exact acts_nil _ v

theorem acts_leaveFG (bank : ℕ) (cnt : U8) (v : VRAMMap) :
    Acts (· &&& ~~~bankMask bank) (if cnt.getLsbD 7 then placementFG cnt else []) v
      (leaveFG bank cnt v) := by
  apply Acts.enabled
  have hg := onMask_unmap bank
  unfold placementFG
  generalize (cnt &&& 0x7).toNat = mode
  rcases mode with _ | _ | _ | _ | _ | _ | _
  · exact acts_onSlot hg rfl _ v
  · exact acts_pairPtr hg rfl _ v
  · exact acts_pairPtr hg rfl _ v
  · exact acts_onSlot hg rfl _ v
  · exact acts_two hg rfl _ v
  · exact acts_onSlot hg rfl _ v
  · exact acts_nil _ v

theorem acts_enterFG (bank : ℕ) (cnt : U8) (v : VRAMMap) :
    Acts (· ||| bankMask bank) (if cnt.getLsbD 7 then placementFG cnt else []) v
      (enterFG bank cnt v) := by
  apply Acts.enabled
  have hg := onMask_map bank
  unfold placementFG
  generalize (cnt &&& 0x7).toNat = mode
  rcases mode with _ | _ | _ | _ | _ | _ | _
  · exact acts_onSlot hg rfl _ v
  · exact acts_pairPtr hg rfl _ v
  · exact acts_pairPtr hg rfl _ v
  · exact acts_onSlot hg rfl _ v
  · exact acts_two hg rfl _ v
  · exact acts_onSlot hg rfl _ v
  · exact acts_nil _ v

theorem acts_leaveH (bank : ℕ) (cnt : U8) (v : VRAMMap) :
    Acts (· &&& ~~~bankMask bank) (if cnt.getLsbD 7 then placementH cnt else []) v
      (leaveH bank cnt v) := by
  apply Acts.enabled
  have hg := onMask_unmap bank
  unfold placementH
  generalize (cnt &&& 0x3).toNat = mode
  rcases mode with _ | _ | _ | _
  · exact acts_onSlot hg rfl _ v
  · exact acts_eachPtr hg rfl (by decide) v
  · exact acts_range hg rfl _ _ v
  · exact acts_nil _ v

theorem acts_enterH (bank : ℕ) (cnt : U8) (v : VRAMMap) :
    Acts (· ||| bankMask bank) (if cnt.getLsbD 7 then placementH cnt else []) v
      (enterH bank cnt v) := by
  apply Acts.enabled
  have hg := onMask_map bank
  unfold placementH
  generalize (cnt &&& 0x3).toNat = mode
  rcases mode with _ | _ | _ | _
  · exact acts_onSlot hg rfl _ v
  · exact acts_eachPtr hg rfl (by decide) v
  · exact acts_range hg rfl _ _ v
  · exact acts_nil _ v

theorem acts_leaveI (bank : ℕ) (cnt : U8) (v : VRAMMap) :
    Acts (· &&& ~~~bankMask bank) (if cnt.getLsbD 7 then placementI cnt else []) v
      (leaveI bank cnt v) := by
  apply Acts.enabled
  have hg := onMask_unmap bank
  unfold placementI
  generalize (cnt &&& 0x3).toNat = mode
  rcases mode with _ | _ | _ | _ | _
  · exact acts_onSlot hg rfl _ v
  · exact acts_eachPtr hg rfl (by decide) v
  · exact acts_rangePtr hg rfl _ le_rfl v
  · exact acts_onSlot hg rfl _ v
  · exact acts_nil _ v

theorem acts_enterI (bank : ℕ) (cnt : U8) (v : VRAMMap) :
    Acts (· ||| bankMask bank) (if cnt.getLsbD 7 then placementI cnt else []) v
      (enterI bank cnt v) := by
  apply Acts.enabled
  have hg := onMask_map bank
  unfold placementI
  generalize (cnt &&& 0x3).toNat = mode
  rcases mode with _ | _ | _ | _ | _
  · exact acts_onSlot hg rfl _ v
  · exact acts_eachPtr hg rfl (by decide) v
  · exact acts_rangePtr hg rfl _ le_rfl v
  · exact acts_onSlot hg rfl _ v
  · exact acts_nil _ v

/-! ## Coherence along a run -/

theorem foldl_bankMask (p : ℕ → Prop) [DecidablePred p] (bs : List ℕ) (m : U32) (j : ℕ) :
    (bs.foldl (fun m b => if p b then m ||| bankMask b else m) m).getLsbD j =
      (m.getLsbD j || (decide (j ∈ bs ∧ p j) && decide (j < 32))) := by
  induction bs generalizing m with
  | nil => simp
  | cons b bs ih =>
    rw [List.foldl_cons, ih]
    by_cases hp : p b
    · simp only [hp, if_true, BitVec.getLsbD_or, bankMask, getLsbD_bit, List.mem_cons]
      by_cases hb : j = b
      · subst hb
        by_cases h32 : j < 32 <;> simp [hp, h32]
      · simp [hb, Ne.symm hb]
    · simp only [hp, if_false, List.mem_cons]
      by_cases hb : j = b
      · subst hb
        simp [hp]
      · simp [hb]

theorem placement_of_ge {bank : ℕ} (h : 9 ≤ bank) (cnt : U8) : placement bank cnt = [] := by
  obtain ⟨k, rfl⟩ := Nat.exists_eq_add_of_le' h
  unfold placement
  split_ifs <;> rfl

theorem placedMask_getLsbD (cnt : ℕ → U8) (r : Region) (i j : ℕ) :
    (placedMask cnt r i).getLsbD j = decide ((r, i) ∈ placement j (cnt j)) := by
  rw [placedMask, foldl_bankMask]
  by_cases hj : j < 9
  · simp [hj, show j < 32 by omega]
  · simp [placement_of_ge (Nat.le_of_not_lt hj)]

theorem placedMask_getElem (cnt : ℕ → U8) (r : Region) (i : ℕ) {j : ℕ} (hj : j < 32) :
    (placedMask cnt r i)[j] = decide ((r, i) ∈ placement j (cnt j)) := by
  rw [← BitVec.getLsbD_eq_getElem, placedMask_getLsbD]

/-- Taking a bank out of its old placement and putting it into the new one turns the
masks of the old registers into those of the new. -/
theorem placedMask_update (cnt : ℕ → U8) {bank : ℕ} (hb : bank < 9) (c : U8) (r : Region) (i : ℕ) :
    (let m := placedMask cnt r i
     let m := if (r, i) ∈ placement bank (cnt bank) then m &&& ~~~bankMask bank else m
     if (r, i) ∈ placement bank c then m ||| bankMask bank else m) =
      placedMask (Function.update cnt bank c) r i := by
  apply BitVec.eq_of_getLsbD_eq
  intro j hj
  rw [placedMask_getLsbD]
  by_cases hjb : j = bank
  · subst hjb
    rw [Function.update_self]
    dsimp only
    split_ifs with h1 h2 h2 <;> simp [placedMask_getElem, bankMask, hj, h1, h2]
  · rw [Function.update_of_ne hjb]
    dsimp only
    split_ifs <;> simp [placedMask_getElem, bankMask, hj, Ne.symm hjb]

/-- Both switches of a `MapVRAM_*` call, seen from the registers. -/
theorem Coherent.remap {v w v' : VRAMMap} {bank : ℕ} {c : U8} (h : Coherent v) (hb : bank < 9)
    (hc : c &&& cntMask bank = c) {stat : U8}
    (hl : Acts (· &&& ~~~bankMask bank) (placement bank (v.vramCNT bank))
      { v with vramCNT := Function.update v.vramCNT bank c, vramSTAT := stat } w)
    (he : Acts (· ||| bankMask bank) (placement bank c) w v')
    (hs : v'.vramSTAT = placedSTAT (Function.update v.vramCNT bank c)) :
    Coherent v' ∧ v'.vramCNT = Function.update v.vramCNT bank c := by
  have hcnt : v'.vramCNT = Function.update v.vramCNT bank c := by rw [he.cnt, hl.cnt]
  have hv (r : Region) (i : ℕ) : v.slot r i = canonical r i (v.slot r i).mask := by
    rw [h.slot r i, canonical_mask]
  have hw := hl.slot hv
  dsimp only at hw
  have hw' (r : Region) (i : ℕ) : w.slot r i = canonical r i (w.slot r i).mask := by
    rw [hw r i]
    split_ifs
    · rw [canonical_mask]
    · exact hv r i
  refine ⟨⟨fun r i => ?_, by rw [hcnt, hs], fun b => ?_⟩, hcnt⟩
  · rw [he.slot hw' r i, hw r i, hcnt, ← placedMask_update _ hb, h.slot r i]
    dsimp only
    split_ifs <;> simp
  · rw [hcnt]
    by_cases hbb : b = bank
    · subst hbb
      rw [Function.update_self, hc]
    · rw [Function.update_of_ne hbb, h.masked]

/-! Only `MapVRAM_CD` touches `VRAMSTAT`. -/

@[simp] theorem onSlot_stat (v : VRAMMap) (r : Region) (i : ℕ) (g : Slot → Slot) :
    (v.onSlot r i g).vramSTAT = v.vramSTAT := rfl

@[simp] theorem mapRange_stat (bank : ℕ) (r : Region) (base n : ℕ) (v : VRAMMap) :
    (mapRange bank r base n v).vramSTAT = v.vramSTAT := onSlots_stat _ _ _ _

@[simp] theorem unmapRange_stat (bank : ℕ) (r : Region) (base n : ℕ) (v : VRAMMap) :
    (unmapRange bank r base n v).vramSTAT = v.vramSTAT := onSlots_stat _ _ _ _

@[simp] theorem mapRangePtr_stat (bank : ℕ) (r : Region) (base n : ℕ) (v : VRAMMap) :
    (mapRangePtr bank r base n v).vramSTAT = v.vramSTAT := onSlots_stat _ _ _ _

@[simp] theorem unmapRangePtr_stat (bank : ℕ) (r : Region) (base n : ℕ) (v : VRAMMap) :
    (unmapRangePtr bank r base n v).vramSTAT = v.vramSTAT := onSlots_stat _ _ _ _

@[simp] theorem setRangeCBF_stat (r : Region) (base : ℕ) (v : VRAMMap) :
    (setRangeCBF r base v).vramSTAT = v.vramSTAT := onSlots_stat _ _ _ _

@[simp] theorem pairPtr_stat (g : Slot → Slot) (r : Region) (base : ℕ) (v : VRAMMap) :
    (pairPtr g r base v).vramSTAT = v.vramSTAT := rfl

@[simp] theorem eachPtr_stat (g : Slot → Slot) (r : Region) (is : List ℕ) (v : VRAMMap) :
    (eachPtr g r is v).vramSTAT = v.vramSTAT := onSlots_stat _ _ _ _

theorem leaveAB_stat (bank : ℕ) (cnt : U8) (v : VRAMMap) :
    (leaveAB bank cnt v).vramSTAT = v.vramSTAT := by
  unfold leaveAB
  repeat' split
  all_goals simp

theorem enterAB_stat (bank : ℕ) (cnt : U8) (v : VRAMMap) :
    (enterAB bank cnt v).vramSTAT = v.vramSTAT := by
  unfold enterAB
  repeat' split
  all_goals simp

theorem leaveCD_stat (bank : ℕ) (cnt : U8) (v : VRAMMap) :
    (leaveCD bank cnt v).vramSTAT = v.vramSTAT := by
  unfold leaveCD
  repeat' split
  all_goals simp

theorem enterCD_stat (bank : ℕ) (cnt : U8) (v : VRAMMap) :
    (enterCD bank cnt v).vramSTAT =
      v.vramSTAT ||| (if toARM7 cnt then bit 8 (bank - 2) else 0) := by
  unfold enterCD toARM7
  cases cnt.getLsbD 7
  · simp
  · simp only [if_true, Bool.true_and, decide_eq_true_eq]
    generalize (cnt &&& 0x7).toNat = mode
    rcases mode with _ | _ | _ | _ | _ | _
    · simp
    · simp
    · simp
    · simp
    · by_cases hb : bank = 2 <;> simp [hb]
    · simp

theorem leaveE_stat (bank : ℕ) (cnt : U8) (v : VRAMMap) :
    (leaveE bank cnt v).vramSTAT = v.vramSTAT := by
  unfold leaveE
  repeat' split
  all_goals simp

theorem enterE_stat (bank : ℕ) (cnt : U8) (v : VRAMMap) :
    (enterE bank cnt v).vramSTAT = v.vramSTAT := by
  unfold enterE
  repeat' split
  all_goals simp

theorem leaveFG_stat (bank : ℕ) (cnt : U8) (v : VRAMMap) :
    (leaveFG bank cnt v).vramSTAT = v.vramSTAT := by
  unfold leaveFG
  dsimp only
  repeat' split
  all_goals simp

theorem enterFG_stat (bank : ℕ) (cnt : U8) (v : VRAMMap) :
    (enterFG bank cnt v).vramSTAT = v.vramSTAT := by
  unfold enterFG
  dsimp only
  repeat' split
  all_goals simp

theorem leaveH_stat (bank : ℕ) (cnt : U8) (v : VRAMMap) :
    (leaveH bank cnt v).vramSTAT = v.vramSTAT := by
  unfold leaveH
  repeat' split
  all_goals simp

theorem enterH_stat (bank : ℕ) (cnt : U8) (v : VRAMMap) :
    (enterH bank cnt v).vramSTAT = v.vramSTAT := by
  unfold enterH
  repeat' split
  all_goals simp

theorem leaveI_stat (bank : ℕ) (cnt : U8) (v : VRAMMap) :
    (leaveI bank cnt v).vramSTAT = v.vramSTAT := by
  unfold leaveI
  repeat' split
  all_goals simp

theorem enterI_stat (bank : ℕ) (cnt : U8) (v : VRAMMap) :
    (enterI bank cnt v).vramSTAT = v.vramSTAT := by
  unfold enterI
  repeat' split
  all_goals simp

theorem placedSTAT_update {cnt : ℕ → U8} {bank : ℕ} (h2 : bank ≠ 2) (h3 : bank ≠ 3) (c : U8) :
    placedSTAT (Function.update cnt bank c) = placedSTAT cnt := by
  simp [placedSTAT, Function.update_of_ne h2.symm, Function.update_of_ne h3.symm]

/-- Clearing the status bit of bank C or D and setting it again when the new control
byte gives the bank to the ARM7. -/
theorem placedSTAT_update_CD (cnt : ℕ → U8) {bank : ℕ} (hb : bank = 2 ∨ bank = 3) (c : U8) :
    (placedSTAT cnt &&& ~~~bit 8 (bank - 2)) ||| (if toARM7 c then bit 8 (bank - 2) else 0) =
      placedSTAT (Function.update cnt bank c) := by
  have h0 : bit 8 0 = 1 := rfl
  have h1 : bit 8 1 = 2 := rfl
  rcases hb with rfl | rfl
  · simp only [placedSTAT, Function.update_self, Function.update_of_ne (by decide : (3 : ℕ) ≠ 2)]
    rw [h0, h1]
    split_ifs <;> rfl
  · simp only [placedSTAT, Function.update_self, Function.update_of_ne (by decide : (2 : ℕ) ≠ 3)]
    rw [h0, h1]
    split_ifs <;> rfl

/-- A write that leaves the register as it is leaves the map as it is. -/
theorem Coherent.same {v : VRAMMap} {bank : ℕ} {c : U8} (h : Coherent v)
    (hc : v.vramCNT bank = c) : Coherent { v with vramCNT := Function.update v.vramCNT bank c } := by
  subst hc
  rw [Function.update_eq_self]
  exact h

theorem and_cntMask (bank : ℕ) (c : U8) :
    (c &&& cntMask bank) &&& cntMask bank = c &&& cntMask bank := by
  rw [BitVec.and_assoc, BitVec.and_self]

theorem Coherent.mapVRAM_AB {v : VRAMMap} (h : Coherent v) {bank : ℕ} (hb : bank = 0 ∨ bank = 1)
    (c : U8) :
    Coherent (v.mapVRAM_AB bank c) ∧
      (v.mapVRAM_AB bank c).vramCNT = Function.update v.vramCNT bank (c &&& cntMask bank) := by
  have hm := and_cntMask bank c
  rcases hb with rfl | rfl <;>
  · dsimp only [VRAMMap.mapVRAM_AB]
    split_ifs with hsame
    · exact ⟨h.same hsame, rfl⟩
    · refine h.remap (by decide) hm (acts_leaveAB _ _ _) (acts_enterAB _ _ _) ?_
      rw [enterAB_stat, leaveAB_stat, placedSTAT_update (by decide) (by decide), h.stat]

theorem Coherent.mapVRAM_CD {v : VRAMMap} (h : Coherent v) {bank : ℕ} (hb : bank = 2 ∨ bank = 3)
    (c : U8) :
    Coherent (v.mapVRAM_CD bank c) ∧
      (v.mapVRAM_CD bank c).vramCNT = Function.update v.vramCNT bank (c &&& cntMask bank) := by
  have hm := and_cntMask bank c
  have hs := placedSTAT_update_CD v.vramCNT hb (c &&& cntMask bank)
  rcases hb with rfl | rfl <;>
  · dsimp only [VRAMMap.mapVRAM_CD]
    split_ifs with hsame
    · exact ⟨h, (Function.update_eq_self_iff.mpr hsame.symm).symm⟩
    · refine h.remap (by decide) hm (acts_leaveCD _ _ _) (acts_enterCD _ _ _) ?_
      rw [enterCD_stat, leaveCD_stat, h.stat]
      exact hs

theorem Coherent.mapVRAM_E {v : VRAMMap} (h : Coherent v) (c : U8) :
    Coherent (v.mapVRAM_E 4 c) ∧
      (v.mapVRAM_E 4 c).vramCNT = Function.update v.vramCNT 4 (c &&& cntMask 4) := by
  dsimp only [VRAMMap.mapVRAM_E]
  split_ifs with hsame
  · exact ⟨h.same hsame, rfl⟩
  · refine h.remap (by decide) (and_cntMask 4 c) (acts_leaveE _ _ _) (acts_enterE _ _ _) ?_
    rw [enterE_stat, leaveE_stat, placedSTAT_update (by decide) (by decide), h.stat]

theorem Coherent.mapVRAM_FG {v : VRAMMap} (h : Coherent v) {bank : ℕ} (hb : bank = 5 ∨ bank = 6)
    (c : U8) :
    Coherent (v.mapVRAM_FG bank c) ∧
      (v.mapVRAM_FG bank c).vramCNT = Function.update v.vramCNT bank (c &&& cntMask bank) := by
  have hm := and_cntMask bank c
  rcases hb with rfl | rfl <;>
  · dsimp only [VRAMMap.mapVRAM_FG]
    split_ifs with hsame
    · exact ⟨h.same hsame, rfl⟩
    · refine h.remap (by decide) hm (acts_leaveFG _ _ _) (acts_enterFG _ _ _) ?_
      rw [enterFG_stat, leaveFG_stat, placedSTAT_update (by decide) (by decide), h.stat]

theorem Coherent.mapVRAM_H {v : VRAMMap} (h : Coherent v) (c : U8) :
    Coherent (v.mapVRAM_H 7 c) ∧
      (v.mapVRAM_H 7 c).vramCNT = Function.update v.vramCNT 7 (c &&& cntMask 7) := by
  dsimp only [VRAMMap.mapVRAM_H]
  split_ifs with hsame
  · exact ⟨h.same hsame, rfl⟩
  · refine h.remap (by decide) (and_cntMask 7 c) (acts_leaveH _ _ _) (acts_enterH _ _ _) ?_
    rw [enterH_stat, leaveH_stat, placedSTAT_update (by decide) (by decide), h.stat]

theorem Coherent.mapVRAM_I {v : VRAMMap} (h : Coherent v) (c : U8) :
    Coherent (v.mapVRAM_I 8 c) ∧
      (v.mapVRAM_I 8 c).vramCNT = Function.update v.vramCNT 8 (c &&& cntMask 8) := by
  dsimp only [VRAMMap.mapVRAM_I]
  split_ifs with hsame
  · exact ⟨h.same hsame, rfl⟩
  · refine h.remap (by decide) (and_cntMask 8 c) (acts_leaveI _ _ _) (acts_enterI _ _ _) ?_
    rw [enterI_stat, leaveI_stat, placedSTAT_update (by decide) (by decide), h.stat]

/-- Every VRAMCNT write keeps coherence and stores the register's bits. -/
theorem Coherent.writeVRAMCNT {v : VRAMMap} (h : Coherent v) (bank : Fin 9) (c : U8) :
    Coherent (v.writeVRAMCNT bank c) ∧
      (v.writeVRAMCNT bank c).vramCNT =
        Function.update v.vramCNT bank (c &&& cntMask bank) := by
  fin_cases bank
  · exact h.mapVRAM_AB (.inl rfl) c
  · exact h.mapVRAM_AB (.inr rfl) c
  · exact h.mapVRAM_CD (.inl rfl) c
  · exact h.mapVRAM_CD (.inr rfl) c
  · exact h.mapVRAM_E c
  · exact h.mapVRAM_FG (.inl rfl) c
  · exact h.mapVRAM_FG (.inr rfl) c
  · exact h.mapVRAM_H c
  · exact h.mapVRAM_I c

theorem coherent_reset : Coherent VRAMMap.reset where
  slot := by
    intro r i
    have hp (b : ℕ) : placement b 0#8 = [] := if_neg (by decide)
    have hm : placedMask VRAMMap.reset.vramCNT r i = 0 := by
      apply BitVec.eq_of_getLsbD_eq
      intro j _
      rw [placedMask_getLsbD]
      simp [VRAMMap.reset, hp]
    rw [hm]
    unfold canonical
    split_ifs <;> rfl
  stat := rfl
  masked := fun _ => BitVec.zero_and

theorem Coherent.run {v : VRAMMap} (h : Coherent v) (writes : List (Fin 9 × U8)) :
    Coherent (v.run writes) := by
  induction writes generalizing v with
  | nil => exact h
  | cons w ws ih => exact ih (h.writeVRAMCNT w.1 w.2).1

/-- Writing registers with given values, in some order, leaves those values. -/
theorem Coherent.run_registers {v : VRAMMap} (h : Coherent v) (c : ℕ → U8)
    (hc : ∀ b, c b &&& cntMask b = c b) (banks : List (Fin 9)) :
    (v.run (banks.map fun b => (b, c b))).vramCNT =
      fun b => if ∃ x ∈ banks, x.val = b then c b else v.vramCNT b := by
  induction banks generalizing v with
  | nil => simp [VRAMMap.run]
  | cons x xs ih =>
    obtain ⟨hco, hcnt⟩ := h.writeVRAMCNT x (c x)
    change ((v.writeVRAMCNT x (c x)).run (xs.map fun b => (b, c b))).vramCNT = _
    rw [ih hco, hcnt, hc]
    funext b
    by_cases hb : x.val = b
    · subst hb
      simp
    · simp [hb, Function.update_of_ne (Ne.symm hb)]

/-- **The VRAM map is a function of the nine registers.** After any writes from
reset the whole map (every mask, fast pointer, capture flag pointer and `VRAMSTAT`)
is the one a fresh reset reaches by writing each register's final value once, in any
order; two histories are told apart by nothing but their registers; and a bank is
visible exactly where its register places it. -/
theorem vramMap_of_registers (history : List (Fin 9 × U8)) :
    let v := VRAMMap.reset.run history
    (∀ order : Equiv.Perm (Fin 9),
      VRAMMap.reset.run ((List.finRange 9).map fun i => (order i, v.vramCNT (order i))) = v) ∧
    (∀ history' : List (Fin 9 × U8),
      VRAMMap.reset.run history' = v ↔
        ∀ b : Fin 9, (VRAMMap.reset.run history').vramCNT b = v.vramCNT b) ∧
    (∀ r i (b : Fin 9),
      (v.slot r i).mask.getLsbD b = decide ((r, i) ∈ placement b (v.vramCNT b))) := by
  intro v
  have hv : Coherent v := coherent_reset.run history
  have beyond (ws : List (Fin 9 × U8)) (b : ℕ) (hb : 9 ≤ b) :
      (VRAMMap.reset.run ws).vramCNT b = 0 := by
    induction ws using List.reverseRecOn with
    | nil => rfl
    | append_singleton ws w ih =>
      have hrun : VRAMMap.reset.run (ws ++ [w]) = (VRAMMap.reset.run ws).writeVRAMCNT w.1 w.2 := by
        simp [VRAMMap.run]
      rw [hrun, ((coherent_reset.run ws).writeVRAMCNT w.1 w.2).2,
        Function.update_of_ne (by have := w.1.isLt; omega), ih]
  refine ⟨fun order => ?_, fun history' => ⟨fun h b => by rw [h], fun h => ?_⟩, fun r i b => ?_⟩
  · apply (coherent_reset.run _).ext hv
    have hmap : ((List.finRange 9).map fun i => (order i, v.vramCNT (order i))) =
        ((List.finRange 9).map order).map fun b : Fin 9 => (b, v.vramCNT b) := by
      rw [List.map_map]
      rfl
    rw [hmap, coherent_reset.run_registers _ hv.masked]
    funext b
    split_ifs with hb
    · rfl
    · have h9 : 9 ≤ b := by
        by_contra hlt
        refine hb ⟨⟨b, by omega⟩, List.mem_map.mpr ⟨order.symm ⟨b, by omega⟩, ?_, ?_⟩, rfl⟩
        · exact List.mem_finRange _
        · exact order.apply_symm_apply _
      exact (beyond history b h9).symm
  · apply (coherent_reset.run _).ext hv
    funext b
    by_cases hb : b < 9
    · exact h ⟨b, hb⟩
    · rw [beyond _ _ (Nat.le_of_not_lt hb)]
      exact (beyond history b (Nat.le_of_not_lt hb)).symm
  · rw [hv.slot r i, canonical_mask, placedMask_getLsbD]

end MelonDS.GPU

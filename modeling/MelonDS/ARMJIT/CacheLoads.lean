import Mathlib.Data.Finset.Card
import MelonDS.ARMJIT.RegisterCache

/-!
# Loading and unloading in the register cache

`Wired` is the shape of the cache: which native register belongs to which guest register.
`Valued` compares it with the values last written, apart from registers that are stale: loaded
without their value because the next instruction overwrites them.
-/

namespace MelonDS.ARMJIT
open BitSet
namespace RegisterCache

/-- Loaded registers have native registers of their own, and dirty ones are loaded. -/
structure Wired (c : RegisterCache) : Prop where
  loaded : ∀ reg : Fin 16, c.loadedRegs.getLsbD reg = (c.mapping reg).isSome
  injective : ∀ reg reg' native, c.mapping reg = some native → c.mapping reg' = some native →
    reg = reg'
  used : ∀ native : Fin 32, c.nativeRegsUsed.getLsbD native = true ↔
    ∃ reg, c.mapping reg = some native
  dirty : ∀ reg : Fin 16, c.dirtyRegs.getLsbD reg = true →
    c.loadedRegs.getLsbD reg = true ∧ reg ≠ 15

/-- Native registers hold the last values, and so does the file unless a register is dirty. -/
structure Valued (truth : Fin 16 → U32) (stale : Fin 16 → Prop) (c : RegisterCache) : Prop where
  native : ∀ reg native, reg ≠ 15 → ¬ stale reg → c.mapping reg = some native →
    c.machine.native native = truth reg
  stored : ∀ reg : Fin 16, reg ≠ 15 → c.dirtyRegs.getLsbD reg = false →
    c.machine.r reg = truth reg

/-- The literals and the remaining uses are left alone. -/
structure SameRest (c c' : RegisterCache) : Prop where
  literalsLoaded : c'.literalsLoaded = c.literalsLoaded
  literalValues : c'.literalValues = c.literalValues
  suffixNeeded : c'.suffixNeeded = c.suffixNeeded
  suffixCursor : c'.suffixCursor = c.suffixCursor
  suffixLastUse : c'.suffixLastUse = c.suffixLastUse

theorem SameRest.refl (c : RegisterCache) : SameRest c c := ⟨rfl, rfl, rfl, rfl, rfl⟩

theorem SameRest.trans {c c' c'' : RegisterCache} (h : SameRest c c') (h' : SameRest c' c'') :
    SameRest c c'' :=
  ⟨h'.literalsLoaded.trans h.literalsLoaded, h'.literalValues.trans h.literalValues,
    h'.suffixNeeded.trans h.suffixNeeded, h'.suffixCursor.trans h.suffixCursor,
    h'.suffixLastUse.trans h.suffixLastUse⟩

/-- Nothing is stale. -/
structure Sound (truth : Fin 16 → U32) (c : RegisterCache) : Prop where
  wired : c.Wired
  valued : c.Valued truth fun _ => False

variable {c : RegisterCache} {truth : Fin 16 → U32} {stale : Fin 16 → Prop}

theorem Wired.mapped (h : c.Wired) {reg : Fin 16} (hreg : c.loadedRegs.getLsbD reg = true) :
    ∃ native, c.mapping reg = some native := by
  rw [h.loaded] at hreg
  exact Option.isSome_iff_exists.mp hreg

theorem Wired.unmapped (h : c.Wired) {reg : Fin 16} (hreg : c.loadedRegs.getLsbD reg = false) :
    c.mapping reg = none := by
  rw [h.loaded] at hreg
  exact Option.not_isSome_iff_eq_none.mp (by rw [hreg]; decide)

/-! ## Unloading -/

/-- The cache without a register, its value saved if it is dirty. -/
theorem unloadRegister_spec (h : c.Sound truth) {reg : Fin 16}
    (hreg : c.loadedRegs.getLsbD reg = true) :
    ∃ c', c.unloadRegister reg = some c' ∧ c'.Sound truth ∧ SameRest c c' ∧
      c'.loadedRegs = c.loadedRegs &&& ~~~single reg := by
  obtain ⟨native, hmap⟩ := h.wired.mapped hreg
  generalize hsaved : (if c.dirtyRegs.getLsbD reg then c.saveReg reg native else c) = d
  have hd : d = { c with machine := d.machine } ∧ d.machine.native = c.machine.native ∧
      (∀ r, r ≠ reg → d.machine.r r = c.machine.r r) ∧ (reg ≠ 15 → d.machine.r reg = truth reg) := by
    rw [← hsaved]
    split_ifs with hdirty
    · refine ⟨rfl, rfl, fun r hr => Function.update_of_ne hr _ _, fun hne => ?_⟩
      exact (Function.update_self _ _ _).trans (h.valued.native reg native hne not_false hmap)
    · refine ⟨rfl, rfl, fun _ _ => rfl, fun hne => ?_⟩
      exact h.valued.stored reg hne (Bool.eq_false_iff.mpr hdirty)
  obtain ⟨hsame, hnative, hothers, hself⟩ := hd
  refine ⟨{ c with
      machine := d.machine
      dirtyRegs := c.dirtyRegs &&& ~~~single reg
      loadedRegs := c.loadedRegs &&& ~~~single reg
      nativeRegsUsed := c.nativeRegsUsed &&& ~~~single native
      mapping := Function.update c.mapping reg none }, ?_, ⟨⟨?_, ?_, ?_, ?_⟩, ⟨?_, ?_⟩⟩,
    ⟨rfl, rfl, rfl, rfl, rfl⟩, rfl⟩
  · rw [unloadRegister, hmap]
    dsimp only
    rw [hsaved, hsame]
  · intro r
    change (c.loadedRegs &&& ~~~single reg).getLsbD r = (Function.update c.mapping reg none r).isSome
    rw [getLsbD_erase]
    by_cases hr : r = reg
    · rw [hr, Function.update_self, decide_eq_true rfl, Bool.not_true, Bool.and_false]
      rfl
    · rw [Function.update_of_ne hr, decide_eq_false hr, Bool.not_false, Bool.and_true]
      exact h.wired.loaded r
  · intro r r' n hr hr'
    have hkeep {r : Fin 16} (hr : Function.update c.mapping reg none r = some n) :
        c.mapping r = some n := by
      rw [Function.update_apply] at hr
      split_ifs at hr
      exact hr
    exact h.wired.injective r r' n (hkeep hr) (hkeep hr')
  · intro n
    change (c.nativeRegsUsed &&& ~~~single native).getLsbD n = true ↔
      ∃ r, Function.update c.mapping reg none r = some n
    rw [getLsbD_erase, Bool.and_eq_true, Bool.not_eq_true', decide_eq_false_iff_not, h.wired.used]
    constructor
    · rintro ⟨⟨r, hr⟩, hn⟩
      refine ⟨r, ?_⟩
      rw [Function.update_of_ne, hr]
      rintro rfl
      exact hn (Option.some.inj (hr.symm.trans hmap))
    · rintro ⟨r, hr⟩
      rw [Function.update_apply] at hr
      split_ifs at hr with hne
      refine ⟨⟨r, hr⟩, ?_⟩
      rintro rfl
      exact hne (h.wired.injective r reg n hr hmap)
  · intro r hr
    change (c.dirtyRegs &&& ~~~single reg).getLsbD r = true at hr
    change (c.loadedRegs &&& ~~~single reg).getLsbD r = true ∧ r ≠ 15
    rw [getLsbD_erase, Bool.and_eq_true] at hr ⊢
    exact ⟨⟨(h.wired.dirty r hr.1).1, hr.2⟩, (h.wired.dirty r hr.1).2⟩
  · intro r n hne hfresh hr
    change Function.update c.mapping reg none r = some n at hr
    rw [Function.update_apply] at hr
    split_ifs at hr
    change d.machine.native n = truth r
    rw [hnative]
    exact h.valued.native r n hne hfresh hr
  · intro r hne hclean
    change (c.dirtyRegs &&& ~~~single reg).getLsbD r = false at hclean
    change d.machine.r r = truth r
    by_cases hr : r = reg
    · rw [hr]
      rw [hr] at hne
      exact hself hne
    · rw [getLsbD_erase, decide_eq_false hr, Bool.not_false, Bool.and_true] at hclean
      rw [hothers r hr]
      exact h.valued.stored r hne hclean

/-- A list of loaded registers is unloaded one by one. -/
theorem foldlM_unload_spec (h : c.Sound truth) {regs : List (Fin 16)} (hnodup : regs.Nodup)
    (hregs : ∀ reg ∈ regs, c.loadedRegs.getLsbD reg = true) :
    ∃ c', regs.foldlM unloadRegister c = some c' ∧ c'.Sound truth ∧ SameRest c c' ∧
      ∀ reg : Fin 16, c'.loadedRegs.getLsbD reg =
        (c.loadedRegs.getLsbD reg && !decide (reg ∈ regs)) := by
  induction regs generalizing c with
  | nil =>
    refine ⟨c, rfl, h, .refl c, fun reg => ?_⟩
    rw [decide_eq_false List.not_mem_nil, Bool.not_false, Bool.and_true]
  | cons reg regs ih =>
    obtain ⟨hnot, hnodup⟩ := List.nodup_cons.mp hnodup
    obtain ⟨c', hunload, hsound, hrest, hloaded⟩ :=
      unloadRegister_spec h (hregs reg List.mem_cons_self)
    have hstill (r : Fin 16) (hr : r ∈ regs) : c'.loadedRegs.getLsbD r = true := by
      have hne : r ≠ reg := by
        rintro rfl
        exact hnot hr
      rw [hloaded, getLsbD_erase, hregs r (List.mem_cons_of_mem _ hr), decide_eq_false hne]
      rfl
    obtain ⟨c'', hfold, hsound', hrest', hloaded'⟩ := ih hsound hnodup hstill
    refine ⟨c'', ?_, hsound', hrest.trans hrest', fun r => ?_⟩
    · rw [List.foldlM_cons, hunload]
      exact hfold
    · rw [hloaded', hloaded, getLsbD_erase, Bool.and_assoc, ← Bool.not_or, ← Bool.decide_or]
      simp only [List.mem_cons]

theorem unloadAll_spec (h : c.Sound truth) (mask : U16)
    (hmask : ∀ reg : Fin 16, mask.getLsbD reg = true → c.loadedRegs.getLsbD reg = true) :
    ∃ c', c.unloadAll mask = some c' ∧ c'.Sound truth ∧ SameRest c c' ∧
      ∀ reg : Fin 16, c'.loadedRegs.getLsbD reg =
        (c.loadedRegs.getLsbD reg && !mask.getLsbD reg) := by
  obtain ⟨c', hfold, hsound, hrest, hloaded⟩ := foldlM_unload_spec h (nodup_members mask)
    fun reg hreg => hmask reg (mem_members.mp hreg)
  refine ⟨c', hfold, hsound, hrest, fun reg => ?_⟩
  rw [hloaded]
  simp only [mem_members, Bool.decide_eq_true]

/-! ## Loading -/

/-- With fewer registers loaded than there are native ones, one of these is free. -/
theorem Wired.freeReg (h : c.Wired) {cfg : CacheConfig}
    (hroom : count c.loadedRegs < cfg.nativeRegsAvailable) :
    ∃ native, c.freeReg cfg.nativeRegAllocOrder = some native ∧
      c.nativeRegsUsed.getLsbD native = false := by
  cases hfree : c.freeReg cfg.nativeRegAllocOrder with
  | some native =>
    have hfound := List.find?_some hfree
    exact ⟨native, rfl, by rwa [Bool.not_eq_true'] at hfound⟩
  | none =>
    -- then each of them belongs to a loaded register, and there are too many
    have hall := List.find?_eq_none.mp hfree
    have howner (native : Fin 32) (hnative : native ∈ cfg.nativeRegAllocOrder) :
        ∃ reg, c.mapping reg = some native := by
      have hused := hall native hnative
      rw [Bool.not_eq_true', Bool.not_eq_false] at hused
      exact (h.used native).mp hused
    have hsub : (cfg.nativeRegAllocOrder.map some).toFinset ⊆
        (members c.loadedRegs).toFinset.image c.mapping := by
      intro value hvalue
      obtain ⟨native, hnative, rfl⟩ := List.mem_map.mp (List.mem_toFinset.mp hvalue)
      obtain ⟨reg, hreg⟩ := howner native hnative
      refine Finset.mem_image.mpr ⟨reg, List.mem_toFinset.mpr (mem_members.mpr ?_), hreg⟩
      rw [h.loaded, hreg]
      rfl
    have hcard := (Finset.card_le_card hsub).trans Finset.card_image_le
    rw [List.toFinset_card_of_nodup (cfg.nodup.map (Option.some_injective _)),
      List.toFinset_card_of_nodup (nodup_members _), List.length_map] at hcard
    exact absurd hcard (not_le.mpr hroom)

/-- A register gets a native one; without its value it is stale. -/
theorem loadRegister_spec {cfg : CacheConfig} (hwired : c.Wired) (hvalued : c.Valued truth stale)
    (loadValue : Fin 16 → Bool) {reg : Fin 16} (hreg : c.loadedRegs.getLsbD reg = false)
    (hroom : count c.loadedRegs < cfg.nativeRegsAvailable) :
    ∃ c', loadRegister cfg.nativeRegAllocOrder loadValue c reg = some c' ∧ c'.Wired ∧
      c'.Valued truth (fun r => stale r ∨ r = reg ∧ loadValue reg = false) ∧ SameRest c c' ∧
      c'.loadedRegs = c.loadedRegs ||| single reg ∧ c'.dirtyRegs = c.dirtyRegs := by
  obtain ⟨native, hfree, hunused⟩ := hwired.freeReg hroom
  have hmap := hwired.unmapped hreg
  have hnot (r : Fin 16) : c.mapping r ≠ some native := fun hr => by
    rw [(hwired.used native).mpr ⟨r, hr⟩] at hunused
    exact absurd hunused (by decide)
  have hclean : c.dirtyRegs.getLsbD reg = false := by
    rw [Bool.eq_false_iff]
    intro hdirty
    rw [(hwired.dirty reg hdirty).1] at hreg
    exact absurd hreg (by decide)
  obtain ⟨m, hload, hstored, hothers, hvalue⟩ : ∃ m : Machine,
      loadRegister cfg.nativeRegAllocOrder loadValue c reg = some
        { c with
          machine := m
          mapping := Function.update c.mapping reg (some native)
          nativeRegsUsed := c.nativeRegsUsed ||| single native
          loadedRegs := c.loadedRegs ||| single reg } ∧
      m.r = c.machine.r ∧ (∀ n, n ≠ native → m.native n = c.machine.native n) ∧
      (reg ≠ 15 → loadValue reg = true → m.native native = truth reg) := by
    rw [loadRegister, if_neg (not_not.mpr hmap), hfree]
    dsimp only
    cases hload : loadValue reg with
    | true =>
      refine ⟨_, rfl, rfl, fun n hn => Function.update_of_ne hn _ _, fun hne _ => ?_⟩
      refine (Function.update_self _ _ _).trans ?_
      rw [if_neg hne]
      exact hvalued.stored reg hne hclean
    | false => exact ⟨c.machine, rfl, rfl, fun _ _ => rfl, fun _ h => absurd h (by decide)⟩
  refine ⟨_, hload, ⟨?_, ?_, ?_, ?_⟩, ⟨?_, ?_⟩, ⟨rfl, rfl, rfl, rfl, rfl⟩, rfl, rfl⟩
  · intro r
    change (c.loadedRegs ||| single reg).getLsbD r =
      (Function.update c.mapping reg (some native) r).isSome
    rw [getLsbD_insert]
    by_cases hr : r = reg
    · rw [hr, Function.update_self, decide_eq_true rfl, Bool.or_true]
      rfl
    · rw [Function.update_of_ne hr, decide_eq_false hr, Bool.or_false]
      exact hwired.loaded r
  · intro r r' n hr hr'
    dsimp only at hr hr'
    rw [Function.update_apply] at hr hr'
    split_ifs at hr hr' with h1 h2
    · exact h1.trans h2.symm
    · exact absurd (hr'.trans (congrArg some (Option.some.inj hr)).symm) (hnot r')
    · rename_i h2
      exact absurd (hr.trans (congrArg some (Option.some.inj hr')).symm) (hnot r)
    · exact hwired.injective r r' n hr hr'
  · intro n
    change (c.nativeRegsUsed ||| single native).getLsbD n = true ↔
      ∃ r, Function.update c.mapping reg (some native) r = some n
    rw [getLsbD_insert, Bool.or_eq_true, decide_eq_true_eq, hwired.used]
    constructor
    · rintro (⟨r, hr⟩ | rfl)
      · refine ⟨r, ?_⟩
        rw [Function.update_of_ne, hr]
        rintro rfl
        exact absurd (hmap.symm.trans hr).symm (Option.some_ne_none n)
      · exact ⟨reg, Function.update_self _ _ _⟩
    · rintro ⟨r, hr⟩
      rw [Function.update_apply] at hr
      split_ifs at hr
      · exact .inr (Option.some.inj hr).symm
      · exact .inl ⟨r, hr⟩
  · intro r hr
    change (c.loadedRegs ||| single reg).getLsbD r = true ∧ r ≠ 15
    rw [getLsbD_insert, (hwired.dirty r hr).1]
    exact ⟨rfl, (hwired.dirty r hr).2⟩
  · intro r n hne hfresh hr
    rw [not_or] at hfresh
    dsimp only at hr ⊢
    rw [Function.update_apply] at hr
    split_ifs at hr with hself
    · rw [← Option.some.inj hr, hself]
      rw [hself] at hne
      refine hvalue hne ?_
      by_contra hno
      exact hfresh.2 ⟨hself, Bool.eq_false_iff.mpr hno⟩
    · rw [hothers n fun hn => hnot r (hn ▸ hr)]
      exact hvalued.native r n hne hfresh.1 hr
  · intro r hne hclean
    change m.r r = truth r
    rw [hstored]
    exact hvalued.stored r hne hclean

/-- A list of registers is loaded as long as there is room for all of them. -/
theorem foldlM_load_spec {cfg : CacheConfig} (hwired : c.Wired) (hvalued : c.Valued truth stale)
    (loadValue : Fin 16 → Bool) {regs : List (Fin 16)} (hnodup : regs.Nodup)
    (hregs : ∀ reg ∈ regs, c.loadedRegs.getLsbD reg = false)
    (hroom : count c.loadedRegs + regs.length ≤ cfg.nativeRegsAvailable) :
    ∃ c', regs.foldlM (loadRegister cfg.nativeRegAllocOrder loadValue) c = some c' ∧ c'.Wired ∧
      c'.Valued truth (fun r => stale r ∨ r ∈ regs ∧ loadValue r = false) ∧ SameRest c c' ∧
      (∀ reg : Fin 16, c'.loadedRegs.getLsbD reg =
        (c.loadedRegs.getLsbD reg || decide (reg ∈ regs))) ∧
      c'.dirtyRegs = c.dirtyRegs ∧ count c'.loadedRegs = count c.loadedRegs + regs.length := by
  induction regs generalizing c stale with
  | nil =>
    refine ⟨c, rfl, hwired, ⟨fun r n hne hfresh hr => ?_, hvalued.stored⟩, .refl c, fun reg => ?_,
      rfl, rfl⟩
    · exact hvalued.native r n hne (fun hs => hfresh (.inl hs)) hr
    · rw [decide_eq_false List.not_mem_nil, Bool.or_false]
  | cons reg regs ih =>
    obtain ⟨hnot, hnodup⟩ := List.nodup_cons.mp hnodup
    rw [List.length_cons] at hroom
    have hreg := hregs reg List.mem_cons_self
    obtain ⟨c', hload, hwired', hvalued', hrest, hloaded, hdirty⟩ :=
      loadRegister_spec hwired hvalued loadValue hreg (by omega : _ < cfg.nativeRegsAvailable)
    have hcount : count c'.loadedRegs = count c.loadedRegs + 1 := by
      rw [hloaded, count_insert hreg]
    have hstill (r : Fin 16) (hr : r ∈ regs) : c'.loadedRegs.getLsbD r = false := by
      have hne : r ≠ reg := by
        rintro rfl
        exact hnot hr
      rw [hloaded, getLsbD_insert, hregs r (List.mem_cons_of_mem _ hr), decide_eq_false hne]
      rfl
    obtain ⟨c'', hfold, hwired'', hvalued'', hrest', hloaded', hdirty', hcount'⟩ :=
      ih hwired' hvalued' hnodup hstill (by omega)
    refine ⟨c'', ?_, hwired'', ⟨fun r n hne hfresh hr => ?_, hvalued''.stored⟩, hrest.trans hrest',
      fun r => ?_, hdirty'.trans hdirty, by rw [hcount', hcount, List.length_cons]; omega⟩
    · rw [List.foldlM_cons, hload]
      exact hfold
    · refine hvalued''.native r n hne (fun hs => hfresh ?_) hr
      rcases hs with (hs | ⟨rfl, hvalue⟩) | ⟨hmem, hvalue⟩
      · exact .inl hs
      · exact .inr ⟨List.mem_cons_self, hvalue⟩
      · exact .inr ⟨List.mem_cons_of_mem _ hmem, hvalue⟩
    · rw [hloaded', hloaded, getLsbD_insert, Bool.or_assoc, ← Bool.decide_or]
      simp only [List.mem_cons]

end RegisterCache
end MelonDS.ARMJIT

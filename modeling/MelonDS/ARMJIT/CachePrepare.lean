import MelonDS.ARMJIT.CacheLoads

/-!
# Preparing an instruction

`Prepare` drops what the rest of the block does not use, makes room for what the instruction
cannot do without and loads it, and fills the room that is left.
-/

namespace MelonDS.ARMJIT
open BitSet

/-- The instruction at `j` uses the register. -/
def Uses (instrs : List InstrUses) (j : ℕ) (reg : Fin 16) : Prop :=
  ∃ x, instrs[j]? = some x ∧ x.uses.getLsbD reg = true

namespace RegisterCache
variable {c : RegisterCache} {truth : Fin 16 → U32} {stale : Fin 16 → Prop}
  {instrs : List InstrUses}

/-! ## The remaining uses -/

/-- The mask holds what is used from `k` on, and the last use of each register is known. -/
structure Ahead (instrs : List InstrUses) (k : ℕ) (c : RegisterCache) : Prop where
  needed : ∀ reg : Fin 16, c.suffixNeeded.getLsbD reg = true ↔ ∃ j, k ≤ j ∧ Uses instrs j reg
  last : ∀ reg j, Uses instrs j reg →
    j ≤ (c.suffixLastUse reg).toNat ∧ Uses instrs (c.suffixLastUse reg).toNat reg

def Suffixed (instrs : List InstrUses) (c : RegisterCache) : Prop :=
  ∀ k, c.suffixCursor = some k → c.Ahead instrs k

/-- Only the remaining uses change. -/
def SameCache (c c' : RegisterCache) : Prop :=
  c' =
    { c with
      suffixNeeded := c'.suffixNeeded
      suffixCursor := c'.suffixCursor
      suffixLastUse := c'.suffixLastUse }

theorem SameCache.trans {c' c'' : RegisterCache} (h : SameCache c c') (h' : SameCache c' c'') :
    SameCache c c'' := by
  rw [SameCache] at h h' ⊢
  rw [h', h]

theorem Sound.sameCache {c' : RegisterCache} (h : c.Sound truth) (hsame : SameCache c c') :
    c'.Sound truth := by
  rw [hsame]
  exact ⟨⟨h.wired.loaded, h.wired.injective, h.wired.used, h.wired.dirty⟩,
    ⟨h.valued.native, h.valued.stored⟩⟩

theorem Suffixed.sameRest {c' : RegisterCache} (h : c.Suffixed instrs) (hrest : SameRest c c') :
    c'.Suffixed instrs := by
  intro k hk
  rw [hrest.suffixCursor] at hk
  have hahead := h k hk
  refine ⟨?_, ?_⟩
  · rw [hrest.suffixNeeded]
    exact hahead.needed
  · rw [hrest.suffixLastUse]
    exact hahead.last

/-- The pass over the first `n` instructions. -/
theorem foldl_addSuffixUses (hlen : instrs.length ≤ 256) (n : ℕ) (hn : n ≤ instrs.length) :
    let c' := (List.range n).foldl (addSuffixUses instrs) { c with suffixNeeded := 0 }
    SameCache c c' ∧
      (∀ reg : Fin 16, c'.suffixNeeded.getLsbD reg = true ↔ ∃ j, j < n ∧ Uses instrs j reg) ∧
      ∀ reg j, j < n → Uses instrs j reg →
        j ≤ (c'.suffixLastUse reg).toNat ∧ Uses instrs (c'.suffixLastUse reg).toNat reg := by
  induction n with
  | zero =>
    refine ⟨rfl, fun reg => ⟨fun h => ?_, ?_⟩, fun _ j hj => absurd hj (Nat.not_lt_zero j)⟩
    · exact absurd (h.symm.trans BitVec.getLsbD_zero) (by decide)
    · rintro ⟨j, hj, -⟩
      exact absurd hj (Nat.not_lt_zero j)
  | succ n ih =>
    obtain ⟨hsame, hneeded, hlast⟩ := ih (Nat.le_of_succ_le hn)
    rw [List.range_succ, List.foldl_append, List.foldl_cons, List.foldl_nil]
    generalize (List.range n).foldl (addSuffixUses instrs) { c with suffixNeeded := 0 } = d at *
    have hget : instrs[n]? = some instrs[n] := List.getElem?_eq_getElem hn
    generalize instrs[n] = x at hget
    have huses (reg : Fin 16) : Uses instrs n reg ↔ x.uses.getLsbD reg = true := by
      constructor
      · rintro ⟨y, hy, hreg⟩
        rwa [Option.some.inj (hget.symm.trans hy)]
      · exact fun hreg => ⟨x, hget, hreg⟩
    have hadd : d.addSuffixUses instrs n =
        { d with
          suffixLastUse := fun reg =>
            if x.uses.getLsbD reg then BitVec.ofNat 8 n else d.suffixLastUse reg
          suffixNeeded := d.suffixNeeded ||| x.uses } := by
      rw [addSuffixUses, hget]
    have hbyte : (BitVec.ofNat 8 n).toNat = n := by
      rw [BitVec.toNat_ofNat]
      exact Nat.mod_eq_of_lt (by omega)
    dsimp only
    rw [hadd]
    refine ⟨hsame.trans rfl, fun reg => ?_, fun reg j hj hreg => ?_⟩
    · change (d.suffixNeeded ||| x.uses).getLsbD reg = true ↔ _
      rw [BitVec.getLsbD_or, Bool.or_eq_true, hneeded, ← huses]
      constructor
      · rintro (⟨j, hj, hreg⟩ | hreg)
        · exact ⟨j, Nat.lt_succ_of_lt hj, hreg⟩
        · exact ⟨n, Nat.lt_succ_self n, hreg⟩
      · rintro ⟨j, hj, hreg⟩
        rcases Nat.lt_succ_iff_lt_or_eq.mp hj with hj | rfl
        · exact .inl ⟨j, hj, hreg⟩
        · exact .inr hreg
    · dsimp only
      split_ifs with hx
      · rw [hbyte]
        exact ⟨Nat.lt_succ_iff.mp hj, (huses reg).mpr hx⟩
      · rcases Nat.lt_succ_iff_lt_or_eq.mp hj with hj | rfl
        · exact hlast reg j hj hreg
        · exact absurd ((huses reg).mp hreg) hx

theorem initSuffix_spec (hlen : instrs.length ≤ 256) (h : c.Suffixed instrs) :
    SameCache c (c.initSuffix instrs) ∧
      (c.initSuffix instrs).suffixCursor = some (c.suffixCursor.getD 0) ∧
      (c.initSuffix instrs).Ahead instrs (c.suffixCursor.getD 0) := by
  cases hcursor : c.suffixCursor with
  | some k =>
    have hinit : c.initSuffix instrs = c := by rw [initSuffix, hcursor]
    rw [hinit]
    exact ⟨rfl, hcursor, h k hcursor⟩
  | none =>
    obtain ⟨hsame, hneeded, hlast⟩ := foldl_addSuffixUses (c := c) hlen instrs.length le_rfl
    have hinit : c.initSuffix instrs =
        { (List.range instrs.length).foldl (addSuffixUses instrs) { c with suffixNeeded := 0 } with
          suffixCursor := some 0 } := by
      rw [initSuffix, hcursor]
    have hbound {j : ℕ} {reg : Fin 16} (hreg : Uses instrs j reg) : j < instrs.length := by
      obtain ⟨x, hx, -⟩ := hreg
      exact (List.getElem?_eq_some_iff.mp hx).1
    rw [hinit]
    refine ⟨hsame.trans rfl, rfl, fun reg => (hneeded reg).trans ?_, fun reg j hreg => ?_⟩
    · exact ⟨fun ⟨j, _, hreg⟩ => ⟨j, Nat.zero_le j, hreg⟩, fun ⟨j, _, hreg⟩ => ⟨j, hbound hreg, hreg⟩⟩
    · exact hlast reg j (hbound hreg) hreg

/-- A register stays in the mask until its last use. -/
theorem Ahead.drop {k : ℕ} (h : c.Ahead instrs k) :
    SameCache c (c.dropSuffixUses instrs k) ∧ (c.dropSuffixUses instrs k).Ahead instrs (k + 1) := by
  cases hget : instrs[k]? with
  | none =>
    have hdrop : c.dropSuffixUses instrs k = c := by rw [dropSuffixUses, hget]
    rw [hdrop]
    refine ⟨rfl, fun reg => (h.needed reg).trans ⟨?_, ?_⟩, h.last⟩
    · rintro ⟨j, hj, x, hx, hreg⟩
      refine ⟨j, Nat.lt_of_le_of_ne hj ?_, x, hx, hreg⟩
      rintro rfl
      exact absurd (hget.symm.trans hx).symm (Option.some_ne_none x)
    · exact fun ⟨j, hj, hreg⟩ => ⟨j, Nat.le_of_succ_le hj, hreg⟩
  | some x =>
    have hdrop : c.dropSuffixUses instrs k =
        { c with
          suffixNeeded :=
            ((members x.uses).filter fun reg => (c.suffixLastUse reg).toNat = k).foldl
              (fun needed reg => needed &&& ~~~single reg) c.suffixNeeded } := by
      rw [dropSuffixUses, hget]
    rw [hdrop]
    refine ⟨rfl, fun reg => ?_, h.last⟩
    dsimp only
    rw [getLsbD_foldl_erase, Bool.and_eq_true, h.needed, Bool.not_eq_true', decide_eq_false_iff_not,
      List.mem_filter, mem_members, decide_eq_true_eq]
    constructor
    · rintro ⟨⟨j, hj, hreg⟩, hlater⟩
      rcases Nat.lt_or_eq_of_le hj with hj | rfl
      · exact ⟨j, hj, hreg⟩
      · -- used here, but not for the last time
        obtain ⟨hle, huse⟩ := h.last reg _ hreg
        obtain ⟨y, hy, hbit⟩ := hreg
        rw [← Option.some.inj (hget.symm.trans hy)] at hbit
        exact ⟨_, Nat.lt_of_le_of_ne hle fun heq => hlater ⟨hbit, heq.symm⟩, huse⟩
    · rintro ⟨j, hj, hreg⟩
      refine ⟨⟨j, Nat.le_of_succ_le hj, hreg⟩, fun hlast => ?_⟩
      have hle := (h.last reg j hreg).1
      omega

theorem Ahead.foldl_drop {k : ℕ} (h : c.Ahead instrs k) (n : ℕ) :
    SameCache c ((List.range' k n).foldl (dropSuffixUses instrs) c) ∧
      ((List.range' k n).foldl (dropSuffixUses instrs) c).Ahead instrs (k + n) := by
  induction n generalizing c k with
  | zero => exact ⟨rfl, h⟩
  | succ n ih =>
    obtain ⟨hsame, hahead⟩ := h.drop
    obtain ⟨hsame', hahead'⟩ := ih hahead
    rw [List.range'_succ, List.foldl_cons]
    refine ⟨hsame.trans hsame', ?_⟩
    rw [Nat.add_comm n 1, ← Nat.add_assoc]
    exact hahead'

theorem advanceSuffix_spec (hlen : instrs.length ≤ 256) (h : c.Suffixed instrs) {i : ℕ}
    (hi : c.suffixCursor.getD 0 ≤ i) :
    ∃ c', c.advanceSuffix instrs i = some c' ∧ SameCache c c' ∧ c'.suffixCursor = some i ∧
      c'.Ahead instrs i := by
  obtain ⟨hsame, hcursor, hahead⟩ := initSuffix_spec hlen h
  obtain ⟨hsame', hahead'⟩ := hahead.foldl_drop (i - c.suffixCursor.getD 0)
  rw [Nat.add_sub_cancel' hi] at hahead'
  have hadvance : c.advanceSuffix instrs i = some
      { (List.range' (c.suffixCursor.getD 0) (i - c.suffixCursor.getD 0)).foldl
          (dropSuffixUses instrs) (c.initSuffix instrs) with suffixCursor := some i } := by
    rw [advanceSuffix, hcursor, Option.getD_some, if_neg (not_lt.mpr hi)]
  generalize (List.range' (c.suffixCursor.getD 0) (i - c.suffixCursor.getD 0)).foldl
    (dropSuffixUses instrs) (c.initSuffix instrs) = d at *
  exact ⟨_, hadvance, (hsame.trans hsame').trans rfl, rfl, hahead'.needed, hahead'.last⟩

/-! ## Making room -/

theorem foldl_victim {rank : Fin 16 → ℕ} {necessary : U16} {P : Fin 16 → Prop}
    {regs : List (Fin 16)} (hP : ∀ reg ∈ regs, necessary.getLsbD reg = false → P reg)
    (hrank : ∀ reg, rank reg < 1000) {best : Option (Fin 16) × ℕ}
    (h : (∃ reg, best.1 = some reg ∧ P reg) ∨
      best = (none, 1000) ∧ ∃ reg ∈ regs, necessary.getLsbD reg = false) :
    ∃ reg, (regs.foldl
      (fun (best : Option (Fin 16) × ℕ) (reg : Fin 16) =>
        if necessary.getLsbD reg = false ∧ rank reg < best.2 then (some reg, rank reg) else best)
      best).1 = some reg ∧ P reg := by
  induction regs generalizing best with
  | nil =>
    rcases h with h | ⟨-, reg, hreg, -⟩
    · exact h
    · exact absurd hreg List.not_mem_nil
  | cons r regs ih =>
    have hP' : ∀ reg ∈ regs, necessary.getLsbD reg = false → P reg :=
      fun reg hreg => hP reg (List.mem_cons_of_mem _ hreg)
    rw [List.foldl_cons]
    split_ifs with hbetter
    · exact ih hP' (.inl ⟨r, rfl, hP r List.mem_cons_self hbetter.1⟩)
    · refine ih hP' (h.imp id fun ⟨hbest, reg, hreg, hfree⟩ => ⟨hbest, ?_⟩)
      rcases List.mem_cons.mp hreg with rfl | hreg
      · rw [hbest] at hbetter
        exact absurd ⟨hfree, hrank reg⟩ hbetter
      · exact ⟨reg, hreg, hfree⟩

theorem victim_spec {rank : Fin 16 → ℕ} {necessary loaded : U16} (hrank : ∀ reg, rank reg < 1000)
    (h : ∃ reg : Fin 16, loaded.getLsbD reg = true ∧ necessary.getLsbD reg = false) :
    ∃ reg, victim rank necessary loaded = some reg ∧ loaded.getLsbD reg = true ∧
      necessary.getLsbD reg = false := by
  obtain ⟨reg, hloaded, hfree⟩ := h
  exact foldl_victim (P := fun reg : Fin 16 => loaded.getLsbD reg = true ∧
      necessary.getLsbD reg = false)
    (fun reg hreg hfree => ⟨mem_members.mp hreg, hfree⟩) hrank
    (.inr ⟨rfl, reg, mem_members.mpr hloaded, hfree⟩)

/-- Registers are given up until the ones that are needed fit, and only such as are not. -/
theorem evict_spec {available : ℕ} {rank : Fin 16 → ℕ} (hrank : ∀ reg, rank reg < 1000)
    {necessary need : U16} (hfits : count necessary ≤ available)
    (hneed : ∀ reg : Fin 16, need.getLsbD reg = true → necessary.getLsbD reg = true)
    (h : c.Sound truth)
    (hdisjoint : ∀ reg : Fin 16, need.getLsbD reg = true → c.loadedRegs.getLsbD reg = false)
    {rounds : ℕ} (hrounds : count c.loadedRegs ≤ rounds) :
    ∃ c', evict available rank necessary (count need) rounds c = some c' ∧ c'.Sound truth ∧
      SameRest c c' ∧ count c'.loadedRegs + count need ≤ available ∧
      (∀ reg : Fin 16, c'.loadedRegs.getLsbD reg = true → c.loadedRegs.getLsbD reg = true) ∧
      ∀ reg : Fin 16, c.loadedRegs.getLsbD reg = true → necessary.getLsbD reg = true →
        c'.loadedRegs.getLsbD reg = true := by
  induction rounds generalizing c with
  | zero =>
    have hmost := count_mono hneed
    exact ⟨c, rfl, h, .refl c, by omega, fun _ => id, fun _ hreg _ => hreg⟩
  | succ rounds ih =>
    rw [evict]
    split_ifs with hfull
    · have hspare : ∃ reg : Fin 16, c.loadedRegs.getLsbD reg = true ∧
          necessary.getLsbD reg = false := by
        by_contra hnone
        push Not at hnone
        have hall (reg : Fin 16) (hreg : c.loadedRegs.getLsbD reg = true) :
            necessary.getLsbD reg = true := by
          have hnot := hnone reg hreg
          rwa [Ne, Bool.not_eq_false] at hnot
        have hsum := count_add_le hall fun reg hreg => ⟨hneed reg hreg, hdisjoint reg hreg⟩
        omega
      obtain ⟨reg, hvictim, hloaded, hfree⟩ := victim_spec hrank hspare
      obtain ⟨d, hunload, hsound, hrest, hless⟩ := unloadRegister_spec h hloaded
      have hcount := count_erase hloaded
      rw [← hless] at hcount
      have hsub (r : Fin 16) (hr : d.loadedRegs.getLsbD r = true) :
          c.loadedRegs.getLsbD r = true := by
        rw [hless, getLsbD_erase, Bool.and_eq_true] at hr
        exact hr.1
      obtain ⟨c', hevict, hsound', hrest', hroom, hsub', hkeep⟩ := ih hsound
        (fun r hr => Bool.eq_false_iff.mpr fun hd =>
          absurd ((hdisjoint r hr).symm.trans (hsub r hd)) (by decide)) (by omega)
      refine ⟨c', ?_, hsound', hrest.trans hrest', hroom, fun r hr => hsub r (hsub' r hr),
        fun r hr hnec => hkeep r ?_ hnec⟩
      · rw [hvictim]
        change (c.unloadRegister reg).bind _ = _
        rw [hunload]
        exact hevict
      · have hne : r ≠ reg := by
          rintro rfl
          exact absurd (hfree.symm.trans hnec) (by decide)
        rw [hless, getLsbD_erase, hr, decide_eq_false hne]
        rfl
    · exact ⟨c, rfl, h, .refl c, by omega, fun _ => id, fun _ hreg _ => hreg⟩

/-! ## Prepare -/

theorem ranking_lt (hlen : instrs.length ≤ 256) (i : ℕ) (reg : Fin 16) :
    ranking instrs i reg < 1000 := by
  have hcount := List.countP_le_length (l := instrs.drop i)
    (p := fun x => (x.uses &&& ~~~x.notStrictlyNeeded).getLsbD reg)
  rw [List.length_drop] at hcount
  rw [ranking]
  omega

/-- Everything the instruction cannot do without is loaded. -/
theorem loadNecessary_spec {cfg : CacheConfig} (hlen : cfg.instrs.length ≤ 256) {x : InstrUses}
    (hfits : count (cfg.necessaryRegs x) ≤ cfg.nativeRegsAvailable) (h : c.Sound truth)
    (thumb : Bool) (i : ℕ) :
    ∃ c', c.loadNecessary cfg thumb i x = some c' ∧ c'.Wired ∧
      c'.Valued truth (fun r => (cfg.necessaryRegs x).getLsbD r = true ∧
        valueNeeded thumb x r = false) ∧
      SameRest c c' ∧
      ∀ reg : Fin 16, c'.loadedRegs.getLsbD reg = true →
        c.loadedRegs.getLsbD reg = true ∨ (cfg.necessaryRegs x).getLsbD reg = true := by
  rw [loadNecessary]
  generalize hnecessary : cfg.necessaryRegs x = necessary at hfits ⊢
  generalize hneed : necessary &&& ~~~c.loadedRegs = need
  have hbit (reg : Fin 16) : need.getLsbD reg = true ↔
      necessary.getLsbD reg = true ∧ c.loadedRegs.getLsbD reg = false := by
    rw [← hneed, getLsbD_diff, Bool.and_eq_true, Bool.not_eq_true']
  split_ifs with hnone
  · exact ⟨c, rfl, h.wired, ⟨fun reg n hne _ hr => h.valued.native reg n hne not_false hr,
      h.valued.stored⟩, .refl c, fun reg hreg => .inl hreg⟩
  · have hsixteen : count c.loadedRegs ≤ 16 :=
      (List.length_filter_le _ _).trans_eq List.length_finRange
    obtain ⟨d, hevict, hsound, hrest, hroom, hsub, -⟩ := evict_spec
      (ranking_lt hlen i) hfits (fun reg hreg => ((hbit reg).mp hreg).1) h
      (fun reg hreg => ((hbit reg).mp hreg).2) hsixteen
    have hmissing (reg : Fin 16) (hreg : reg ∈ members need) : d.loadedRegs.getLsbD reg = false := by
      have hnot := ((hbit reg).mp (mem_members.mp hreg)).2
      rw [Bool.eq_false_iff]
      intro hd
      exact absurd (hnot.symm.trans (hsub reg hd)) (by decide)
    obtain ⟨c', hload, hwired, hvalued, hrest', hloaded, -, -⟩ := foldlM_load_spec hsound.wired
      hsound.valued (valueNeeded thumb x) (nodup_members need) hmissing hroom
    refine ⟨c', ?_, hwired, ⟨fun reg n hne hfresh hr => ?_, hvalued.stored⟩, hrest.trans hrest',
      fun reg hreg => ?_⟩
    · rw [hevict]
      exact hload
    · refine hvalued.native reg n hne (fun hs => ?_) hr
      rcases hs with hs | ⟨hmem, hvalue⟩
      · exact hs
      · exact hfresh ⟨((hbit reg).mp (mem_members.mp hmem)).1, hvalue⟩
    · rw [hloaded, Bool.or_eq_true, decide_eq_true_eq, mem_members, hbit] at hreg
      exact hreg.imp (hsub reg) fun hreg => hreg.1

/-- The room that is left goes to registers the instruction may use. -/
theorem loadOptional_spec (cfg : CacheConfig) (x : InstrUses) (hwired : c.Wired)
    (hvalued : c.Valued truth stale) (thumb : Bool) (futureNeeded : U16) :
    ∃ c', c.loadOptional cfg thumb futureNeeded x = some c' ∧ c'.Wired ∧
      c'.Valued truth (fun r => stale r ∨ x.notStrictlyNeeded.getLsbD r = true ∧
        valueNeeded thumb x r = false) ∧
      SameRest c c' ∧ c'.dirtyRegs = c.dirtyRegs ∧
      ∀ reg : Fin 16, c.loadedRegs.getLsbD reg = true → c'.loadedRegs.getLsbD reg = true := by
  rw [loadOptional]
  generalize hregs : (members ((x.notStrictlyNeeded &&& futureNeeded) &&& ~~~c.loadedRegs)).take
    (cfg.nativeRegsAvailable - count c.loadedRegs) = regs
  have hmem (reg : Fin 16) (hreg : reg ∈ regs) :
      x.notStrictlyNeeded.getLsbD reg = true ∧ c.loadedRegs.getLsbD reg = false := by
    rw [← hregs] at hreg
    have hbit := mem_members.mp (List.mem_of_mem_take hreg)
    rw [getLsbD_diff, BitVec.getLsbD_and, Bool.and_eq_true, Bool.and_eq_true,
      Bool.not_eq_true'] at hbit
    exact ⟨hbit.1.1, hbit.2⟩
  have hnodup : regs.Nodup := by
    rw [← hregs]
    exact (nodup_members _).sublist (List.take_sublist _ _)
  by_cases hfull : cfg.nativeRegsAvailable ≤ count c.loadedRegs
  · have hnil : regs = [] := by rw [← hregs, Nat.sub_eq_zero_of_le hfull, List.take_zero]
    rw [hnil]
    exact ⟨c, rfl, hwired, ⟨fun reg n hne hfresh hr => hvalued.native reg n hne
      (fun hs => hfresh (.inl hs)) hr, hvalued.stored⟩, .refl c, rfl, fun _ => id⟩
  · have hlength : regs.length ≤ cfg.nativeRegsAvailable - count c.loadedRegs := by
      rw [← hregs]
      exact List.length_take_le _ _
    obtain ⟨c', hload, hwired', hvalued', hrest, hloaded, hdirty, -⟩ := foldlM_load_spec hwired
      hvalued (valueNeeded thumb x) hnodup (fun reg hreg => (hmem reg hreg).2)
      (by omega : _ ≤ cfg.nativeRegsAvailable)
    refine ⟨c', hload, hwired', ⟨fun reg n hne hfresh hr => ?_, hvalued'.stored⟩, hrest, hdirty,
      fun reg hreg => ?_⟩
    · refine hvalued'.native reg n hne (fun hs => hfresh (hs.imp id fun hs => ?_)) hr
      exact ⟨(hmem reg hs.1).1, hs.2⟩
    · rw [hloaded, hreg]
      rfl

/-- The block as the decoder describes it: it is short, each instruction fits, and what it does
not strictly need it still uses. -/
structure Decoded (cfg : CacheConfig) : Prop where
  short : cfg.instrs.length ≤ 256
  fits : ∀ x ∈ cfg.instrs, count (cfg.necessaryRegs x) ≤ cfg.nativeRegsAvailable
  optional : ∀ x ∈ cfg.instrs, ∀ reg : Fin 16, x.notStrictlyNeeded.getLsbD reg = true →
    x.srcRegs.getLsbD reg = true ∨ x.dstRegs.getLsbD reg = true

/-- What the instruction does not read and is always going to write. -/
def Overwritten (thumb : Bool) (x : InstrUses) (reg : Fin 16) : Prop :=
  always thumb x = true ∧ x.srcRegs.getLsbD reg = false ∧ x.dstRegs.getLsbD reg = true

theorem overwritten {cfg : CacheConfig} {thumb : Bool} {x : InstrUses} {reg : Fin 16}
    (hoptional : x.notStrictlyNeeded.getLsbD reg = true →
      x.srcRegs.getLsbD reg = true ∨ x.dstRegs.getLsbD reg = true)
    (h : (cfg.necessaryRegs x).getLsbD reg = true ∧ valueNeeded thumb x reg = false ∨
      x.notStrictlyNeeded.getLsbD reg = true ∧ valueNeeded thumb x reg = false) :
    Overwritten thumb x reg := by
  have hvalue : valueNeeded thumb x reg = false := h.elim (fun h => h.2) fun h => h.2
  rw [valueNeeded, Bool.or_eq_false_iff, Bool.not_eq_false'] at hvalue
  refine ⟨hvalue.1, hvalue.2, ?_⟩
  have hused : x.srcRegs.getLsbD reg = true ∨ x.dstRegs.getLsbD reg = true := by
    rcases h with ⟨hnecessary, -⟩ | ⟨hoption, -⟩
    · rw [CacheConfig.necessaryRegs, getLsbD_diff, BitVec.getLsbD_or, BitVec.getLsbD_and,
        Bool.and_eq_true, Bool.or_eq_true, Bool.and_eq_true] at hnecessary
      exact hnecessary.1.imp (fun hsrc => hsrc.1) id
    · exact hoptional hoption
  exact hused.resolve_left fun hsrc => absurd (hvalue.2.symm.trans hsrc) (by decide)

/-- The cache before instruction `i` runs. -/
structure Prepared (cfg : CacheConfig) (truth : Fin 16 → U32) (thumb : Bool) (i : ℕ)
    (x : InstrUses) (c c' : RegisterCache) : Prop where
  wired : c'.Wired
  valued : c'.Valued truth (Overwritten thumb x)
  dirty : ∀ reg : Fin 16, reg ≠ 15 → c'.loadedRegs.getLsbD reg = true →
    x.dstRegs.getLsbD reg = true → c'.dirtyRegs.getLsbD reg = true
  suffixed : c'.Suffixed cfg.instrs
  cursor : c'.suffixCursor = some i
  literalsLoaded : c'.literalsLoaded =
    c.literalsLoaded &&& ~~~(c.literalsLoaded &&& x.dstRegs)
  literalValues : c'.literalValues = c.literalValues

theorem unloadPC_spec (h : c.Sound truth) :
    ∃ c', c.unloadPC = some c' ∧ c'.Sound truth ∧ SameRest c c' := by
  rw [unloadPC]
  split_ifs with hpc
  · obtain ⟨c', hunload, hsound, hrest, -⟩ := unloadRegister_spec h
      (show c.loadedRegs.getLsbD (15 : Fin 16) = true from hpc)
    exact ⟨c', hunload, hsound, hrest⟩
  · exact ⟨c, rfl, h, .refl c⟩

theorem markDirty_wired {x : InstrUses} (h : c.Wired) : (c.markDirty x).Wired := by
  refine ⟨h.loaded, h.injective, h.used, fun reg hreg => ?_⟩
  change (c.dirtyRegs ||| ((c.loadedRegs &&& x.dstRegs) &&& ~~~single (15 : Fin 16))).getLsbD reg =
    true at hreg
  rw [BitVec.getLsbD_or, getLsbD_erase, BitVec.getLsbD_and, Bool.or_eq_true, Bool.and_eq_true,
    Bool.and_eq_true, Bool.not_eq_true', decide_eq_false_iff_not] at hreg
  exact hreg.elim (h.dirty reg) fun hreg => ⟨hreg.1.1, hreg.2⟩

theorem prepare_spec {cfg : CacheConfig} (hcfg : Decoded cfg) (h : c.Sound truth)
    (hsuffix : c.Suffixed cfg.instrs) {i : ℕ} {x : InstrUses} (hx : cfg.instrs[i]? = some x)
    (hi : c.suffixCursor.getD 0 ≤ i) (thumb : Bool) :
    ∃ c', c.prepare cfg thumb i = some c' ∧ Prepared cfg truth thumb i x c c' := by
  have hmem := List.mem_of_getElem? hx
  obtain ⟨c₁, hpc, hsound₁, hrest₁⟩ := unloadPC_spec h
  have hliterals : (c₁.unloadLiterals (c₁.literalsLoaded &&& x.dstRegs)).Sound truth :=
    ⟨⟨hsound₁.wired.loaded, hsound₁.wired.injective, hsound₁.wired.used, hsound₁.wired.dirty⟩,
      ⟨hsound₁.valued.native, hsound₁.valued.stored⟩⟩
  have hsuffix₁ := hsuffix.sameRest hrest₁
  obtain ⟨c₂, hadvance, hsame, hcursor, hahead⟩ :=
    advanceSuffix_spec (c := c₁.unloadLiterals (c₁.literalsLoaded &&& x.dstRegs)) hcfg.short
      (fun k hk => ⟨(hsuffix₁ k hk).needed, (hsuffix₁ k hk).last⟩)
      (by
        change c₁.suffixCursor.getD 0 ≤ i
        rw [hrest₁.suffixCursor]
        exact hi)
  have hsound₂ := hliterals.sameCache hsame
  obtain ⟨c₃, hunload, hsound₃, hrest₃, -⟩ :=
    unloadAll_spec hsound₂ (c₂.loadedRegs &&& ~~~c₂.suffixNeeded) fun reg hreg => by
      rw [getLsbD_diff, Bool.and_eq_true] at hreg
      exact hreg.1
  obtain ⟨c₄, hload, hwired₄, hvalued₄, hrest₄, -⟩ :=
    loadNecessary_spec hcfg.short (hcfg.fits x hmem) hsound₃ thumb i
  obtain ⟨c₅, hoption, hwired₅, hvalued₅, hrest₅, -, -⟩ :=
    loadOptional_spec cfg x hwired₄ hvalued₄ thumb c₂.suffixNeeded
  have hrest := (hrest₃.trans hrest₄).trans hrest₅
  have hfinal : (c₅.markDirty x).suffixCursor = some i := hrest.suffixCursor.trans hcursor
  refine ⟨c₅.markDirty x, ?_, markDirty_wired hwired₅, ⟨fun reg n hne hfresh hr => ?_,
    fun reg hne hclean => ?_⟩, fun reg hne hloaded hdst => ?_, fun k hk => ?_, hfinal, ?_, ?_⟩
  · rw [prepare, hx]
    change (c.unloadPC.bind _) = _
    rw [hpc]
    change (RegisterCache.advanceSuffix _ _ _).bind _ = _
    rw [hadvance]
    change (RegisterCache.unloadAll _ _).bind _ = _
    rw [hunload]
    change (RegisterCache.loadNecessary _ _ _ _ _).bind _ = _
    rw [hload]
    change (RegisterCache.loadOptional _ _ _ _ _).bind _ = _
    rw [hoption]
    rfl
  · exact hvalued₅.native reg n hne
      (fun hs => hfresh (overwritten (hcfg.optional x hmem reg) hs)) hr
  · refine hvalued₅.stored reg hne ?_
    change (c₅.dirtyRegs ||| _).getLsbD reg = false at hclean
    rw [BitVec.getLsbD_or, Bool.or_eq_false_iff] at hclean
    exact hclean.1
  · change (c₅.dirtyRegs ||| ((c₅.loadedRegs &&& x.dstRegs) &&& ~~~single (15 : Fin 16))).getLsbD
      reg = true
    have hload₅ : c₅.loadedRegs.getLsbD reg = true := hloaded
    rw [BitVec.getLsbD_or, getLsbD_erase, BitVec.getLsbD_and, hload₅, hdst, decide_eq_false hne]
    exact Bool.or_true _
  · rw [hfinal] at hk
    rw [← Option.some.inj hk]
    refine ⟨?_, ?_⟩
    · change ∀ reg : Fin 16, c₅.suffixNeeded.getLsbD reg = true ↔ _
      rw [hrest.suffixNeeded]
      exact hahead.needed
    · change ∀ reg j, _ → j ≤ (c₅.suffixLastUse reg).toNat ∧ Uses _ (c₅.suffixLastUse reg).toNat reg
      rw [hrest.suffixLastUse]
      exact hahead.last
  · change c₅.literalsLoaded = _
    rw [hrest.literalsLoaded, hsame]
    change c₁.literalsLoaded &&& ~~~(c₁.literalsLoaded &&& x.dstRegs) = _
    rw [hrest₁.literalsLoaded]
  · change c₅.literalValues = _
    rw [hrest.literalValues, hsame]
    exact hrest₁.literalValues

end RegisterCache
end MelonDS.ARMJIT

import MelonDS.ARMJIT.CachePrepare

/-!
# The register cache over a block

The compiler prepares each instruction it compiles and flushes the cache for one it leaves to
the interpreter. Next to the machine the session keeps the values last written, which every
operand read has to agree with. R15 is not among the registers the cache keeps: the compiled
code reads it as a constant and writes it by a jump.
-/

namespace MelonDS.ARMJIT
open BitSet

/-- The cache, the values last written, and the operands read, each next to the value last
written. -/
structure Session where
  cache : RegisterCache
  truth : Fin 16 → U32
  reads : List (Fin 16 × U32 × U32)

inductive CacheOp
  | compiled (thumb : Bool) (i : ℕ) (pc : U32) (passes : Bool) (values : Fin 16 → U32)
  | interpreted (i : ℕ) (passes : Bool) (values : Fin 16 → U32)
  | flush
  | unload (reg : Fin 16)
  | putLiteral (reg : Fin 16) (val : U32)
  | prepareExit (mask : U16)

namespace Session

def create (m : Machine) : Session := ⟨.create m, m.r, []⟩

def readOperands (mask : U16) (s : Session) : Session :=
  { s with reads := s.reads ++ (members mask).map fun reg => (reg, s.cache.read reg, s.truth reg) }

def result (values : Fin 16 → U32) (s : Session) (reg : Fin 16) : Session :=
  { s with
    cache := s.cache.write reg (values reg)
    truth := Function.update s.truth reg (values reg) }

/-- An instruction reads its operands and, if its condition passes, writes its results. -/
def runInstr (x : InstrUses) (passes : Bool) (values : Fin 16 → U32) (s : Session) : Session :=
  let s := s.readOperands x.srcRegs
  if passes then (members x.dstRegs).foldl (result values) s else s

def setPC (pc : U32) (c : RegisterCache) : RegisterCache :=
  { c with machine := { c.machine with pc := pc } }

def step (cfg : CacheConfig) (s : Session) : CacheOp → Option Session
  | .compiled thumb i pc passes values => do
    let x ← cfg.instrs[i]?
    let c ← (setPC pc s.cache).prepare cfg thumb i
    some ({ s with cache := c }.runInstr x (RegisterCache.always thumb x || passes) values)
  | .interpreted i passes values => do
    let x ← cfg.instrs[i]?
    let c ← s.cache.flush
    some ({ s with cache := c }.runInstr x passes values)
  | .flush => do
    let c ← s.cache.flush
    some { s with cache := c }
  | .unload reg => do
    let c ← s.cache.unloadRegister reg
    some { s with cache := c }
  | .putLiteral reg val => some { s with cache := s.cache.putLiteral reg val }
  | .prepareExit mask => some { s with cache := s.cache.prepareExit mask }

/-- The compiler goes forward through the block, unloads what is loaded, and puts as a literal
the value a register has just got. -/
def Allowed (cfg : CacheConfig) (s : Session) : CacheOp → Prop
  | .compiled _ i _ _ _ => i < cfg.instrs.length ∧ s.cache.suffixCursor.getD 0 ≤ i
  | .interpreted i _ _ => i < cfg.instrs.length
  | .unload reg => s.cache.loadedRegs.getLsbD reg = true
  | .putLiteral reg val => val = s.truth reg
  | .flush | .prepareExit _ => True

def AllowedRun (cfg : CacheConfig) : Session → List CacheOp → Prop
  | _, [] => True
  | s, op :: ops => s.Allowed cfg op ∧ ∀ s', s.step cfg op = some s' → AllowedRun cfg s' ops

instance (cfg : CacheConfig) (s : Session) (op : CacheOp) : Decidable (s.Allowed cfg op) :=
  match op with
  | .compiled _ _ _ _ _ => inferInstanceAs (Decidable (_ ∧ _))
  | .interpreted _ _ _ => inferInstanceAs (Decidable (_ < _))
  | .unload _ => inferInstanceAs (Decidable (_ = true))
  | .putLiteral _ _ => inferInstanceAs (Decidable (_ = _))
  | .flush | .prepareExit _ => .isTrue trivial

theorem allowed_cons {cfg : CacheConfig} {s s' : Session} {op : CacheOp} {ops : List CacheOp}
    (hop : s.Allowed cfg op) (hstep : s.step cfg op = some s') (hrest : AllowedRun cfg s' ops) :
    AllowedRun cfg s (op :: ops) :=
  ⟨hop, fun t ht => by rwa [← Option.some.inj (hstep.symm.trans ht)]⟩

theorem allowed_stuck {cfg : CacheConfig} {s : Session} {op : CacheOp} {ops : List CacheOp}
    (hop : s.Allowed cfg op) (hstep : s.step cfg op = none) : AllowedRun cfg s (op :: ops) :=
  ⟨hop, fun t ht => absurd (hstep.symm.trans ht).symm (Option.some_ne_none t)⟩

instance decidableAllowedRun (cfg : CacheConfig) : (s : Session) → (ops : List CacheOp) →
    Decidable (AllowedRun cfg s ops)
  | _, [] => .isTrue trivial
  | s, op :: ops =>
    match hstep : s.step cfg op with
    | none => decidable_of_iff (s.Allowed cfg op) ⟨fun h => allowed_stuck h hstep, fun h => h.1⟩
    | some s' =>
      have := decidableAllowedRun cfg s' ops
      decidable_of_iff (s.Allowed cfg op ∧ AllowedRun cfg s' ops)
        ⟨fun h => allowed_cons h.1 hstep h.2, fun h => ⟨h.1, h.2 s' hstep⟩⟩

/-- What the cache promises; R15 is not promised anything. -/
structure Coherent (cfg : CacheConfig) (s : Session) : Prop where
  reads : ∀ p ∈ s.reads, p.1 ≠ 15 → p.2.1 = p.2.2
  injective : ∀ reg reg' : Fin 16, s.cache.loadedRegs.getLsbD reg = true →
    s.cache.loadedRegs.getLsbD reg' = true → s.cache.mapping reg = s.cache.mapping reg' → reg = reg'
  used : ∀ native : Fin 32, s.cache.nativeRegsUsed.getLsbD native = true ↔
    ∃ reg : Fin 16, s.cache.loadedRegs.getLsbD reg = true ∧ s.cache.mapping reg = some native
  dirty : ∀ reg : Fin 16, s.cache.dirtyRegs.getLsbD reg = true →
    s.cache.loadedRegs.getLsbD reg = true
  suffix : ∀ k, s.cache.suffixCursor = some k → ∀ reg : Fin 16,
    s.cache.suffixNeeded.getLsbD reg = true ↔ ∃ j, k ≤ j ∧ Uses cfg.instrs j reg
  literals : ∀ reg, s.cache.isLiteral reg = true → s.cache.literalValues reg = s.truth reg
  flush : ∃ c, s.cache.flush = some c ∧ ∀ reg, reg ≠ 15 → c.machine.r reg = s.truth reg
  exit : ∀ (mask : U16) (reg : Fin 16), reg ≠ 15 → mask.getLsbD reg = true →
    (s.cache.prepareExit mask).machine.r reg = s.truth reg

end Session

namespace RegisterCache
variable {c : RegisterCache} {truth : Fin 16 → U32} {stale : Fin 16 → Prop}

/-! ## Leaving the block -/

theorem flush_spec (h : c.Sound truth) :
    ∃ c', c.flush = some c' ∧ c'.Sound truth ∧ c'.literalsLoaded = 0 ∧
      c'.suffixNeeded = c.suffixNeeded ∧ c'.suffixCursor = c.suffixCursor ∧
      c'.suffixLastUse = c.suffixLastUse ∧ ∀ reg : Fin 16, c'.loadedRegs.getLsbD reg = false := by
  obtain ⟨d, hunload, hsound, hrest, hloaded⟩ :=
    unloadAll_spec h c.loadedRegs fun _ hreg => hreg
  refine ⟨{ d with literalsLoaded := 0 }, ?_, ⟨⟨hsound.wired.loaded, hsound.wired.injective,
    hsound.wired.used, hsound.wired.dirty⟩, ⟨hsound.valued.native, hsound.valued.stored⟩⟩, rfl,
    hrest.suffixNeeded, hrest.suffixCursor, hrest.suffixLastUse, fun reg => ?_⟩
  · rw [flush]
    change (c.unloadAll c.loadedRegs).bind _ = _
    rw [hunload]
    rfl
  · change d.loadedRegs.getLsbD reg = false
    rw [hloaded, Bool.and_not_self]

/-- Without loaded registers the stored file has every value. -/
theorem Sound.stored (h : c.Sound truth) {reg : Fin 16} (hne : reg ≠ 15)
    (hreg : c.loadedRegs.getLsbD reg = false) : c.machine.r reg = truth reg := by
  refine h.valued.stored reg hne ?_
  rw [Bool.eq_false_iff]
  intro hdirty
  exact absurd (hreg.symm.trans (h.wired.dirty reg hdirty).1) (by decide)

/-- Saving a dirty register brings its place in the file up to date. -/
theorem saveMapped_spec (h : c.Sound truth) {reg : Fin 16} (hdirty : c.dirtyRegs.getLsbD reg = true) :
    (c.saveMapped reg).Sound truth ∧ SameRest c (c.saveMapped reg) ∧
      (c.saveMapped reg).dirtyRegs = c.dirtyRegs ∧
      ∀ r, (c.saveMapped reg).machine.r r = if r = reg then truth reg else c.machine.r r := by
  obtain ⟨hloaded, hne⟩ := h.wired.dirty reg hdirty
  obtain ⟨native, hmap⟩ := h.wired.mapped hloaded
  have hvalue := h.valued.native reg native hne not_false hmap
  have hsave : c.saveMapped reg = c.saveReg reg native := by rw [saveMapped, hmap]
  have hr (r : Fin 16) : (c.saveReg reg native).machine.r r =
      if r = reg then truth reg else c.machine.r r := by
    change Function.update c.machine.r reg (c.machine.native native) r = _
    rw [hvalue, Function.update_apply]
  rw [hsave]
  refine ⟨⟨⟨h.wired.loaded, h.wired.injective, h.wired.used, h.wired.dirty⟩,
    ⟨h.valued.native, fun r hr15 hclean => ?_⟩⟩, ⟨rfl, rfl, rfl, rfl, rfl⟩, rfl, hr⟩
  rw [hr]
  split_ifs with hself
  · rw [hself]
  · exact h.valued.stored r hr15 hclean

theorem foldl_saveMapped_spec (h : c.Sound truth) (regs : List (Fin 16))
    (hregs : ∀ reg ∈ regs, c.dirtyRegs.getLsbD reg = true) :
    (regs.foldl saveMapped c).Sound truth ∧ SameRest c (regs.foldl saveMapped c) ∧
      ∀ r, r ∈ regs ∨ c.machine.r r = truth r → (regs.foldl saveMapped c).machine.r r = truth r := by
  induction regs generalizing c with
  | nil => exact ⟨h, .refl c, fun r hr => hr.resolve_left List.not_mem_nil⟩
  | cons reg regs ih =>
    obtain ⟨hsound, hrest, hdirty, hr⟩ := saveMapped_spec h (hregs reg List.mem_cons_self)
    obtain ⟨hsound', hrest', hr'⟩ := ih hsound fun r hmem => by
      rw [hdirty]
      exact hregs r (List.mem_cons_of_mem _ hmem)
    refine ⟨hsound', hrest.trans hrest', fun r hmem => hr' r ?_⟩
    rw [hr]
    by_cases hself : r = reg
    · exact .inr (by rw [if_pos hself, hself])
    · rw [if_neg hself]
      rcases hmem with hmem | hmem
      · exact .inl ((List.mem_cons.mp hmem).resolve_left hself)
      · exact .inr hmem

theorem prepareExit_spec (h : c.Sound truth) (mask : U16) :
    (c.prepareExit mask).Sound truth ∧ SameRest c (c.prepareExit mask) ∧
      ∀ reg : Fin 16, reg ≠ 15 → mask.getLsbD reg = true →
        (c.prepareExit mask).machine.r reg = truth reg := by
  obtain ⟨hsound, hrest, hr⟩ := foldl_saveMapped_spec h (members (c.dirtyRegs &&& mask))
    fun reg hreg => by
      rw [mem_members, BitVec.getLsbD_and, Bool.and_eq_true] at hreg
      exact hreg.1
  refine ⟨hsound, hrest, fun reg hne hmask => hr reg ?_⟩
  cases hdirty : c.dirtyRegs.getLsbD reg with
  | true =>
    refine .inl (mem_members.mpr ?_)
    rw [BitVec.getLsbD_and, hdirty, hmask]
    rfl
  | false => exact .inr (h.valued.stored reg hne hdirty)

/-! ## Operands and results -/

theorem read_spec (hwired : c.Wired) (hvalued : c.Valued truth stale) {reg : Fin 16}
    (hne : reg ≠ 15) (hfresh : ¬ stale reg) : c.read reg = truth reg := by
  rw [read]
  cases hmap : c.mapping reg with
  | some native => exact hvalued.native reg native hne hfresh hmap
  | none =>
    dsimp only
    rw [if_neg hne]
    refine hvalued.stored reg hne ?_
    rw [Bool.eq_false_iff]
    intro hdirty
    obtain ⟨native, hsome⟩ := hwired.mapped (hwired.dirty reg hdirty).1
    exact absurd (hmap.symm.trans hsome).symm (Option.some_ne_none native)

/-- A result goes to the native register of a dirty register, or to the file. -/
theorem write_spec (hwired : c.Wired) (hvalued : c.Valued truth stale) {reg : Fin 16} (val : U32)
    (hdirty : reg ≠ 15 → c.loadedRegs.getLsbD reg = true → c.dirtyRegs.getLsbD reg = true) :
    c.write reg val = { c with machine := (c.write reg val).machine } ∧
      (c.write reg val).Valued (Function.update truth reg val) fun r => stale r ∧ r ≠ reg := by
  rw [write]
  cases hmap : c.mapping reg with
  | some native =>
    have hloaded : c.loadedRegs.getLsbD reg = true := by
      rw [hwired.loaded, hmap]
      rfl
    refine ⟨rfl, ⟨fun r n hne hfresh hr => ?_, fun r hne hclean => ?_⟩⟩
    · change Function.update c.machine.native native val n = _
      by_cases hself : r = reg
      · rw [hself] at hr ⊢
        rw [Option.some.inj (hr.symm.trans hmap), Function.update_self, Function.update_self]
      · have hn : n ≠ native := by
          rintro rfl
          exact hself (hwired.injective r reg n hr hmap)
        rw [Function.update_of_ne hn, Function.update_of_ne hself]
        exact hvalued.native r n hne (fun hs => hfresh ⟨hs, hself⟩) hr
    · have hself : r ≠ reg := by
        rintro rfl
        exact absurd (hclean.symm.trans (hdirty hne hloaded)) (by decide)
      rw [Function.update_of_ne hself]
      exact hvalued.stored r hne hclean
  | none =>
    refine ⟨rfl, ⟨fun r n hne hfresh hr => ?_, fun r hne hclean => ?_⟩⟩
    · have hself : r ≠ reg := by
        rintro rfl
        exact absurd (hmap.symm.trans hr).symm (Option.some_ne_none n)
      rw [Function.update_of_ne hself]
      exact hvalued.native r n hne (fun hs => hfresh ⟨hs, hself⟩) hr
    · change Function.update c.machine.r reg val r = _
      by_cases hself : r = reg
      · rw [hself, Function.update_self, Function.update_self]
      · rw [Function.update_of_ne hself, Function.update_of_ne hself]
        exact hvalued.stored r hne hclean

theorem Wired.machine (h : c.Wired) (m : Machine) : Wired { c with machine := m } :=
  ⟨h.loaded, h.injective, h.used, h.dirty⟩

end RegisterCache

namespace Session
open RegisterCache
variable {cfg : CacheConfig} {s : Session} {stale : Fin 16 → Prop}

/-! ## One instruction -/

/-- Results are written one by one, and what has been written is no longer stale. -/
theorem foldl_result_spec (values : Fin 16 → U32) (hwired : s.cache.Wired)
    (hvalued : s.cache.Valued s.truth stale) (regs : List (Fin 16))
    (hdirty : ∀ reg ∈ regs, reg ≠ 15 → s.cache.loadedRegs.getLsbD reg = true →
      s.cache.dirtyRegs.getLsbD reg = true) :
    let s' := regs.foldl (result values) s
    s'.cache = { s.cache with machine := s'.cache.machine } ∧ s'.reads = s.reads ∧
      (∀ reg, reg ∉ regs → s'.truth reg = s.truth reg) ∧
      s'.cache.Valued s'.truth fun r => stale r ∧ r ∉ regs := by
  induction regs generalizing s stale with
  | nil =>
    exact ⟨rfl, rfl, fun _ _ => rfl, ⟨fun r n hne hfresh hr => hvalued.native r n hne
      (fun hs => hfresh ⟨hs, List.not_mem_nil⟩) hr, hvalued.stored⟩⟩
  | cons reg regs ih =>
    obtain ⟨hsame, hvalued'⟩ :=
      write_spec hwired hvalued (values reg) (hdirty reg List.mem_cons_self)
    have hwired' : (s.result values reg).cache.Wired := by
      change (s.cache.write reg (values reg)).Wired
      rw [hsame]
      exact hwired.machine _
    obtain ⟨hsame', hreads, htruth, hvalued''⟩ :=
      ih (s := s.result values reg) hwired' hvalued' fun r hr hne hloaded => by
        change (s.cache.write reg (values reg)).dirtyRegs.getLsbD r = true
        change (s.cache.write reg (values reg)).loadedRegs.getLsbD r = true at hloaded
        rw [hsame] at hloaded ⊢
        exact hdirty r (List.mem_cons_of_mem _ hr) hne hloaded
    dsimp only at hsame' hreads htruth hvalued'' ⊢
    rw [List.foldl_cons]
    refine ⟨?_, hreads, fun r hr => ?_, ⟨fun r n hne hfresh hr => ?_, hvalued''.stored⟩⟩
    · have hresult : (s.result values reg).cache =
          { s.cache with machine := (s.cache.write reg (values reg)).machine } := hsame
      refine hsame'.trans ?_
      rw [hresult]
    · obtain ⟨hself, hother⟩ := not_or.mp fun h => hr (List.mem_cons.mpr h)
      rw [htruth r hother]
      exact Function.update_of_ne hself _ _
    · refine hvalued''.native r n hne (fun hs => hfresh ?_) hr
      exact ⟨hs.1.1, fun hmem => (List.mem_cons.mp hmem).elim hs.1.2 hs.2⟩

/-- What holds between two operations. -/
structure Good (cfg : CacheConfig) (s : Session) : Prop where
  sound : s.cache.Sound s.truth
  suffixed : s.cache.Suffixed cfg.instrs
  literals : ∀ reg, s.cache.isLiteral reg = true → s.cache.literalValues reg = s.truth reg
  reads : ∀ p ∈ s.reads, p.1 ≠ 15 → p.2.1 = p.2.2

/-- An instruction on a cache where everything it does not overwrite is fresh. -/
theorem good_runInstr {x : InstrUses} (passes : Bool) (values : Fin 16 → U32)
    (hwired : s.cache.Wired) (hvalued : s.cache.Valued s.truth stale)
    (hsource : ∀ reg : Fin 16, x.srcRegs.getLsbD reg = true → ¬ stale reg)
    (hstale : ∀ reg : Fin 16, stale reg → passes = true ∧ x.dstRegs.getLsbD reg = true)
    (hdirty : ∀ reg : Fin 16, reg ≠ 15 → s.cache.loadedRegs.getLsbD reg = true →
      x.dstRegs.getLsbD reg = true → s.cache.dirtyRegs.getLsbD reg = true)
    (hsuffixed : s.cache.Suffixed cfg.instrs)
    (hliterals : ∀ reg : Fin 16, s.cache.isLiteral reg = true →
      s.cache.literalValues reg = s.truth reg ∧ x.dstRegs.getLsbD reg = false)
    (hreads : ∀ p ∈ s.reads, p.1 ≠ 15 → p.2.1 = p.2.2) :
    (s.runInstr x passes values).Good cfg := by
  have hread : ∀ p ∈ (s.readOperands x.srcRegs).reads, p.1 ≠ 15 → p.2.1 = p.2.2 := by
    intro p hp hne
    rcases List.mem_append.mp hp with hp | hp
    · exact hreads p hp hne
    · obtain ⟨reg, hreg, rfl⟩ := List.mem_map.mp hp
      exact read_spec hwired hvalued hne (hsource reg (mem_members.mp hreg))
  rw [runInstr]
  cases passes with
  | false =>
    refine ⟨⟨hwired, ⟨fun r n hne _ hr => hvalued.native r n hne (fun hs => ?_) hr,
      hvalued.stored⟩⟩, hsuffixed, fun reg hreg => (hliterals reg hreg).1, hread⟩
    exact absurd (hstale r hs).1 (by decide)
  | true =>
    obtain ⟨hsame, hsamereads, htruth, hvalued'⟩ :=
      foldl_result_spec (s := s.readOperands x.srcRegs) values hwired hvalued
        (members x.dstRegs)
        fun reg hreg hne hloaded => hdirty reg hne hloaded (mem_members.mp hreg)
    dsimp only at hsame hsamereads htruth hvalued' ⊢
    rw [if_pos rfl]
    generalize (members x.dstRegs).foldl (result values) (s.readOperands x.srcRegs) = t at *
    refine ⟨⟨?_, ⟨fun r n hne _ hr => hvalued'.native r n hne (fun hs => ?_) hr,
      hvalued'.stored⟩⟩, ?_, fun reg hreg => ?_, ?_⟩
    · rw [hsame]
      exact hwired.machine _
    · exact hs.2 (mem_members.mpr (hstale r hs.1).2)
    · intro k hk
      rw [hsame] at hk ⊢
      exact ⟨(hsuffixed k hk).needed, (hsuffixed k hk).last⟩
    · rw [hsame] at hreg ⊢
      obtain ⟨hvalue, hnot⟩ := hliterals reg hreg
      rw [htruth reg fun hmem => absurd (hnot.symm.trans (mem_members.mp hmem)) (by decide)]
      exact hvalue
    · rw [hsamereads]
      exact hread

/-! ## Steps -/

theorem good_create (cfg : CacheConfig) (m : Machine) : (create m).Good cfg := by
  have hzero (i : ℕ) : (0 : U16).getLsbD i = true → False := fun h =>
    absurd (h.symm.trans BitVec.getLsbD_zero) (by decide)
  refine ⟨⟨⟨fun reg => BitVec.getLsbD_zero, fun _ _ _ h => ?_, fun native => ⟨fun h => ?_, ?_⟩,
    fun reg h => (hzero reg h).elim⟩, ⟨fun _ _ _ _ h => ?_, fun _ _ _ => rfl⟩⟩, fun _ h => ?_,
    fun reg h => (hzero reg h).elim, fun _ hp => absurd hp List.not_mem_nil⟩
  · exact absurd h.symm (Option.some_ne_none _)
  · exact absurd (h.symm.trans BitVec.getLsbD_zero) (by decide)
  · rintro ⟨_, h⟩
    exact absurd h.symm (Option.some_ne_none _)
  · exact absurd h.symm (Option.some_ne_none _)
  · exact absurd h.symm (Option.some_ne_none _)

theorem Good.compiled (hcfg : Decoded cfg) (h : s.Good cfg) (thumb : Bool) {i : ℕ} (pc : U32)
    (passes : Bool) (values : Fin 16 → U32) (hi : i < cfg.instrs.length)
    (hcursor : s.cache.suffixCursor.getD 0 ≤ i) :
    ∃ s', s.step cfg (.compiled thumb i pc passes values) = some s' ∧ s'.Good cfg := by
  have hx : cfg.instrs[i]? = some cfg.instrs[i] := List.getElem?_eq_getElem hi
  generalize cfg.instrs[i] = x at hx
  have hsound : (setPC pc s.cache).Sound s.truth :=
    ⟨⟨h.sound.wired.loaded, h.sound.wired.injective, h.sound.wired.used, h.sound.wired.dirty⟩,
      ⟨h.sound.valued.native, h.sound.valued.stored⟩⟩
  obtain ⟨c, hprepare, hprepared⟩ := prepare_spec hcfg hsound
    (fun k hk => ⟨(h.suffixed k hk).needed, (h.suffixed k hk).last⟩) hx hcursor thumb
  refine ⟨{ s with cache := c }.runInstr x (always thumb x || passes) values, ?_, ?_⟩
  · rw [step, hx]
    change ((setPC pc s.cache).prepare cfg thumb i).bind _ = _
    rw [hprepare]
    rfl
  · refine good_runInstr _ values hprepared.wired hprepared.valued (fun reg hsrc hs => ?_)
      (fun reg hs => ⟨?_, hs.2.2⟩) hprepared.dirty hprepared.suffixed (fun reg hreg => ?_) h.reads
    · exact absurd (hs.2.1.symm.trans hsrc) (by decide)
    · rw [hs.1, Bool.true_or]
    · change c.literalsLoaded.getLsbD reg = true at hreg
      rw [hprepared.literalsLoaded, getLsbD_diff, BitVec.getLsbD_and, Bool.and_eq_true] at hreg
      obtain ⟨hliteral, hnot⟩ := hreg
      rw [hliteral, Bool.true_and, Bool.not_eq_true'] at hnot
      refine ⟨?_, hnot⟩
      change c.literalValues reg = _
      rw [hprepared.literalValues]
      exact h.literals reg hliteral

theorem Good.step (hcfg : Decoded cfg) (h : s.Good cfg) {op : CacheOp} (hop : s.Allowed cfg op) :
    ∃ s', s.step cfg op = some s' ∧ s'.Good cfg := by
  obtain ⟨c, hflush, hsound, hliterals, hneeded, hcursor, hlast, hempty⟩ := flush_spec h.sound
  have hsuffixed : c.Suffixed cfg.instrs := by
    intro k hk
    rw [hcursor] at hk
    exact ⟨by rw [hneeded]; exact (h.suffixed k hk).needed, by rw [hlast]; exact (h.suffixed k hk).last⟩
  have hnone (reg : Fin 16) : c.isLiteral reg = true → False := by
    rw [isLiteral, hliterals]
    exact fun hreg => absurd (hreg.symm.trans BitVec.getLsbD_zero) (by decide)
  cases op with
  | compiled thumb i pc passes values => exact h.compiled hcfg thumb pc passes values hop.1 hop.2
  | interpreted i passes values =>
    have hx : cfg.instrs[i]? = some cfg.instrs[i] := List.getElem?_eq_getElem hop
    refine ⟨{ s with cache := c }.runInstr cfg.instrs[i] passes values, ?_, ?_⟩
    · rw [Session.step, hx]
      change s.cache.flush.bind _ = _
      rw [hflush]
      rfl
    · refine good_runInstr passes values hsound.wired hsound.valued (fun _ _ => not_false)
        (fun _ => False.elim) (fun reg _ hloaded => ?_) hsuffixed
        (fun reg hreg => (hnone reg hreg).elim) h.reads
      exact absurd ((hempty reg).symm.trans hloaded) (by decide)
  | flush =>
    refine ⟨{ s with cache := c }, ?_, hsound, hsuffixed, fun reg hreg => (hnone reg hreg).elim,
      h.reads⟩
    rw [Session.step]
    change s.cache.flush.bind _ = _
    rw [hflush]
    rfl
  | unload reg =>
    obtain ⟨d, hunload, hsound', hrest, -⟩ := unloadRegister_spec h.sound hop
    refine ⟨{ s with cache := d }, ?_, hsound', h.suffixed.sameRest hrest, fun r hr => ?_, h.reads⟩
    · rw [Session.step]
      change (s.cache.unloadRegister reg).bind _ = _
      rw [hunload]
      rfl
    · change d.literalsLoaded.getLsbD r = true at hr
      change d.literalValues r = _
      rw [hrest.literalsLoaded] at hr
      rw [hrest.literalValues]
      exact h.literals r hr
  | putLiteral reg val =>
    refine ⟨_, rfl, ⟨⟨h.sound.wired.loaded, h.sound.wired.injective, h.sound.wired.used,
      h.sound.wired.dirty⟩, ⟨h.sound.valued.native, h.sound.valued.stored⟩⟩,
      fun k hk => ⟨(h.suffixed k hk).needed, (h.suffixed k hk).last⟩, fun r hr => ?_, h.reads⟩
    change (s.cache.literalsLoaded ||| single reg).getLsbD r = true at hr
    change Function.update s.cache.literalValues reg val r = s.truth r
    rw [Function.update_apply]
    split_ifs with hself
    · rw [hself]
      exact hop
    · rw [getLsbD_insert, decide_eq_false hself, Bool.or_false] at hr
      exact h.literals r hr
  | prepareExit mask =>
    obtain ⟨hsound', hrest, -⟩ := prepareExit_spec h.sound mask
    refine ⟨_, rfl, hsound', h.suffixed.sameRest hrest, fun r hr => ?_, h.reads⟩
    change (s.cache.prepareExit mask).literalsLoaded.getLsbD r = true at hr
    change (s.cache.prepareExit mask).literalValues r = _
    rw [hrest.literalsLoaded] at hr
    rw [hrest.literalValues]
    exact h.literals r hr

theorem Good.coherent (h : s.Good cfg) : s.Coherent cfg where
  reads := h.reads
  injective := by
    intro reg reg' hreg _ hsame
    obtain ⟨native, hmap⟩ := h.sound.wired.mapped hreg
    exact h.sound.wired.injective reg reg' native hmap (hsame.symm.trans hmap)
  used := by
    intro native
    rw [h.sound.wired.used]
    refine ⟨fun ⟨reg, hreg⟩ => ⟨reg, ?_, hreg⟩, fun ⟨reg, _, hreg⟩ => ⟨reg, hreg⟩⟩
    rw [h.sound.wired.loaded, hreg]
    rfl
  dirty := fun reg hreg => (h.sound.wired.dirty reg hreg).1
  suffix := fun k hk => (h.suffixed k hk).needed
  literals := h.literals
  flush := by
    obtain ⟨c, hflush, hsound, -, -, -, -, hempty⟩ := flush_spec h.sound
    exact ⟨c, hflush, fun reg hne => hsound.stored hne (hempty reg)⟩
  exit := fun mask => (prepareExit_spec h.sound mask).2.2

theorem Good.run (hcfg : Decoded cfg) (h : s.Good cfg) {ops : List CacheOp}
    (hops : AllowedRun cfg s ops) :
    ∃ s', ops.foldlM (Session.step cfg) s = some s' ∧ s'.Good cfg := by
  induction ops generalizing s with
  | nil => exact ⟨s, rfl, h⟩
  | cons op ops ih =>
    obtain ⟨s', hstep, hgood⟩ := h.step hcfg hops.1
    obtain ⟨s'', hrest, hgood'⟩ := ih hgood (hops.2 s' hstep)
    refine ⟨s'', ?_, hgood'⟩
    rw [List.foldlM_cons, hstep]
    exact hrest

/-- In every block the decoder describes, going through it in order, no assertion fails, every
operand read of R0 to R14 is the value last written, and leaving brings the file up to date. -/
theorem register_cache_coherent (hcfg : Decoded cfg) (m : Machine) (ops : List CacheOp)
    (hops : AllowedRun cfg (create m) ops) :
    ∃ s, ops.foldlM (step cfg) (create m) = some s ∧ s.Coherent cfg := by
  obtain ⟨s, hrun, hgood⟩ := (good_create cfg m).run hcfg hops
  exact ⟨s, hrun, hgood.coherent⟩

def zeroed : Machine := ⟨fun _ => 0, fun _ => 0, 0⟩

/-- Three instructions on two native registers, the last of them conditional. -/
def smallBlock : CacheConfig where
  nativeRegAllocOrder := [3, 5]
  nodup := by decide
  pcAllocatableAsSrc := false
  instrs := [⟨0, 0x0001, 0, 0xE⟩, ⟨0x0001, 0x0002, 0, 0xE⟩, ⟨0x0002, 0x0004, 0, 0x0⟩]

def smallRun : List CacheOp :=
  [.compiled false 0 8 true fun _ => 7, .putLiteral 0 7, .compiled false 1 12 true fun _ => 9,
    .prepareExit 0xFFFF, .compiled false 2 16 false fun _ => 11, .flush]

theorem register_cache_coherent_smallRun :
    ∃ s, smallRun.foldlM (step smallBlock) (create zeroed) = some s ∧ s.Coherent smallBlock :=
  register_cache_coherent ⟨by decide, by decide +kernel, by decide +kernel⟩ zeroed smallRun
    (by decide +kernel)

/-! ## Blocks the decoder does not describe -/

/-- The strictly needed registers of each instruction fit. -/
def Fits (cfg : CacheConfig) : Prop :=
  ∀ x ∈ cfg.instrs, count (cfg.necessaryRegs x) ≤ cfg.nativeRegsAvailable

instance (cfg : CacheConfig) : Decidable (Fits cfg) :=
  inferInstanceAs (Decidable (∀ x ∈ cfg.instrs, _))

/-- The second instruction lists R0 as optional without using it. -/
def strayBlock : CacheConfig where
  nativeRegAllocOrder := [3, 5]
  nodup := by decide
  pcAllocatableAsSrc := false
  instrs := [⟨0, 0x0001, 0, 0xE⟩, ⟨0, 0, 0x0001, 0xE⟩, ⟨0x0001, 0, 0, 0xE⟩]

def strayRun : List CacheOp :=
  [.interpreted 0 true fun _ => 7, .compiled false 1 12 true fun _ => 0,
    .compiled false 2 16 true fun _ => 0]

/-- The first instruction writes R15, which the second reads. -/
def jumpBlock : CacheConfig where
  nativeRegAllocOrder := [3, 5]
  nodup := by decide
  pcAllocatableAsSrc := false
  instrs := [⟨0, 0x8000, 0, 0xE⟩, ⟨0x8000, 0, 0, 0xE⟩]

def jumpRun : List CacheOp :=
  [.compiled false 0 8 true fun _ => 7, .compiled false 1 12 true fun _ => 0]

/-- R0 is used by the first and the last of 257 instructions. -/
def longBlock : CacheConfig where
  nativeRegAllocOrder := [3, 5]
  nodup := by decide
  pcAllocatableAsSrc := false
  instrs := (List.range 257).map fun j => if j % 256 = 0 then ⟨0x0001, 0, 0, 0xE⟩ else ⟨0, 0, 0, 0xE⟩

def longRun : List CacheOp := [.compiled false 1 12 true fun _ => 0]

theorem uses_longBlock : Uses longBlock.instrs 256 0 :=
  ⟨⟨0x0001, 0, 0, 0xE⟩, by decide +kernel, by decide⟩

theorem runs_stray : (strayRun.foldlM (step strayBlock) (create zeroed)).isSome = true := by
  decide +kernel

theorem runs_jump : (jumpRun.foldlM (step jumpBlock) (create zeroed)).isSome = true := by
  decide +kernel

theorem runs_long : (longRun.foldlM (step longBlock) (create zeroed)).isSome = true := by
  decide +kernel

/-- A register listed as optional only is loaded without its value; R15 does not read back; and
the last use of a register is kept in a byte. -/
theorem register_cache_exceptions :
    (¬ ∀ cfg, Fits cfg → ∀ m ops, AllowedRun cfg (create m) ops →
        ∀ s, ops.foldlM (step cfg) (create m) = some s → ∀ p ∈ s.reads, p.1 ≠ 15 → p.2.1 = p.2.2) ∧
      (¬ ∀ cfg, Fits cfg → ∀ m ops, AllowedRun cfg (create m) ops →
        ∀ s, ops.foldlM (step cfg) (create m) = some s → ∀ p ∈ s.reads, p.2.1 = p.2.2) ∧
      ¬ ∀ cfg, Fits cfg → ∀ m ops, AllowedRun cfg (create m) ops →
        ∀ s, ops.foldlM (step cfg) (create m) = some s → ∀ k, s.cache.suffixCursor = some k →
          ∀ reg : Fin 16, (∃ j, k ≤ j ∧ Uses cfg.instrs j reg) →
            s.cache.suffixNeeded.getLsbD reg = true := by
  refine ⟨fun h => ?_, fun h => ?_, fun h => ?_⟩
  · have hread := h strayBlock (by decide +kernel) zeroed strayRun (by decide +kernel) _
      (Option.some_get runs_stray).symm (0, 0, 7) (by decide +kernel) (by decide)
    exact absurd hread (by decide)
  · have hread := h jumpBlock (by decide +kernel) zeroed jumpRun (by decide +kernel) _
      (Option.some_get runs_jump).symm (15, 12, 7) (by decide +kernel)
    exact absurd hread (by decide)
  · have hneeded := h longBlock (by decide +kernel) zeroed longRun (by decide +kernel) _
      (Option.some_get runs_long).symm 1 (by decide +kernel) 0 ⟨256, by decide, uses_longBlock⟩
    exact absurd hneeded (by decide +kernel)

end Session
end MelonDS.ARMJIT

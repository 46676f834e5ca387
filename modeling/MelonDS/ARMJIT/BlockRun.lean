import MelonDS.ARMJIT.BlockInvariant
import MelonDS.ARMJIT.Traced

/-!
# Runs of the block index

Storing, remapping, resetting and compiling keep the invariant as long as a block
is only restored where it was compiled. `RetireJitBlock` keeps a block with its
local address, and the checks before a restore do not compare it.
-/

namespace MelonDS.ARMJIT
namespace State

variable {s t : State}

/-- The invariant does not depend on the literals and the writes seen. -/
theorem Sound.of_same (hs : s.Sound) (hj : t.jitBlocks = s.jitBlocks) (hc : t.codeMem = s.codeMem)
    (hl : t.fastBlockLookup = s.fastBlockLookup)
    (hr : ∀ h b, t.restoreCandidates h = some b → s.restoreCandidates h = some b)
    (hcomp : ∀ c, t.compiling = some c → ∀ b ∈ s.jitBlocks c.num, b.key ≠ c.key) : t.Sound := by
  have hlive : ∀ b, t.Live b ↔ s.Live b := fun b => by rw [Live, Live, hj]
  refine ⟨⟨?_, ?_, ?_, ?_, ?_, ?_, ?_⟩, ?_⟩
  · rw [hj]
    exact hs.indexed.num
  · rw [hj]
    exact hs.indexed.keys
  · intro line b
    rw [hc, hlive]
    exact hs.indexed.listed line b
  · rw [hc]
    exact hs.indexed.once
  · intro slot htag
    rw [hl] at htag ⊢
    obtain ⟨b, hb, h⟩ := hs.indexed.lookups slot htag
    exact ⟨b, (hlive b).mpr hb, h⟩
  · intro h b hb
    rw [hlive]
    exact hs.indexed.candidates h b (hr h b hb)
  · rw [hj]
    exact hcomp
  · intro line b hb mask hm
    rw [hc] at hb ⊢
    exact hs.covered line b hb mask hm

@[simp] theorem logWrite_jitBlocks (s : State) (localAddr : U32) :
    (s.logWrite localAddr).jitBlocks = s.jitBlocks := by
  unfold logWrite
  split_ifs <;> rfl

@[simp] theorem logWrite_codeMem (s : State) (localAddr : U32) :
    (s.logWrite localAddr).codeMem = s.codeMem := by
  unfold logWrite
  split_ifs <;> rfl

theorem logWrite_sound (hs : s.Sound) (localAddr : U32) : (s.logWrite localAddr).Sound := by
  unfold logWrite
  split_ifs
  · exact hs.of_same rfl rfl rfl (fun _ _ h => h) hs.indexed.compiling
  · exact hs

theorem checkAndInvalidate_sound (hs : s.Sound) (localAddr : U32) :
    (s.checkAndInvalidate localAddr).Sound := by
  have hwrite := logWrite_sound hs localAddr
  simp only [checkAndInvalidate]
  split_ifs
  · exact (invalidateByAddr_spec hwrite localAddr).1
  · exact hwrite

theorem beginTrace_sound (hs : s.Sound) {c : Compiling}
    (hc : ∀ b ∈ s.jitBlocks c.num, b.key ≠ c.key) : (s.beginTrace c).Sound := by
  refine hs.of_same rfl rfl rfl (fun _ _ h => h) ?_
  intro c' hc'
  cases hc'
  exact hc

theorem updateEach_empty {ps : List (U32 × U32)} {m : U32 → AddressRange} {line : U32}
    (h : line ∈ ps.map Prod.fst ∨ m line = ⟨[], 0⟩) :
    updateEach (fun _ _ _ => ⟨[], 0⟩) ps m line = (⟨[], 0⟩ : AddressRange) := by
  induction ps generalizing m with
  | nil =>
    rcases h with h | h
    · exact absurd h List.not_mem_nil
    · exact h
  | cons p ps ih =>
    refine ih ?_
    by_cases hp : line = p.1
    · exact .inr (hp ▸ Function.update_self _ _ _)
    · rw [List.map_cons, List.mem_cons] at h
      rw [Function.update_of_ne hp]
      exact h.imp_left fun h => h.resolve_left hp

/-- A reset empties every list: a block in any of them is in use and names the line. -/
theorem resetBlockCache_blocks (hs : s.Indexed) (line : U32) :
    (s.resetBlockCache.codeMem line).blocks = [] := by
  simp only [resetBlockCache]
  by_cases hline : line ∈ ((s.jitBlocks 0 ++ s.jitBlocks 1).flatMap JitBlock.addresses).map Prod.fst
  · rw [updateEach_empty (.inl hline)]
  · rw [updateEach_of_not_mem _ hline, List.eq_nil_iff_forall_not_mem]
    intro b hb
    obtain ⟨hlive, hmem⟩ := (hs.listed line b).mp hb
    obtain ⟨mask, hm⟩ := JitBlock.mem_lines.mp hmem
    refine hline (List.mem_map.mpr ⟨_, List.mem_flatMap.mpr ⟨b, ?_, hm⟩, rfl⟩)
    rw [Live] at hlive
    rw [List.mem_append]
    have htwo : ∀ n : Fin 2, n = 0 ∨ n = 1 := by decide
    rcases htwo b.num with hnum | hnum
    · exact .inl (hnum ▸ hlive)
    · exact .inr (hnum ▸ hlive)

theorem resetBlockCache_sound (hs : s.Indexed) : s.resetBlockCache.Sound := by
  refine ⟨⟨fun _ _ h => absurd h List.not_mem_nil, fun _ _ h => absurd h List.not_mem_nil, ?_, ?_, ?_,
    nofun, fun _ _ _ h => absurd h List.not_mem_nil⟩, ?_⟩
  · intro line b
    rw [resetBlockCache_blocks hs]
    exact ⟨fun h => absurd h List.not_mem_nil, fun h => absurd h.1 List.not_mem_nil⟩
  · intro line
    rw [resetBlockCache_blocks hs]
    exact List.nodup_nil
  · intro slot htag
    exact absurd rfl htag
  · intro line b hb
    rw [resetBlockCache_blocks hs] at hb
    exact absurd hb List.not_mem_nil

end State

theorem blockKey_inj {addr addr' : U32} {thumb thumb' : Bool} (h : blockKey addr thumb = blockKey addr' thumb')
    (h0 : addr.getLsbD 0 = false) (h0' : addr'.getLsbD 0 = false) : addr = addr' ∧ thumb = thumb' := by
  have hthumb : ∀ t, ∀ i < 32, (boolBit t).getLsbD i = (t && decide (i = 0)) := by decide
  have hbit (i : ℕ) (hi : i < 32) : (addr.getLsbD i || (thumb && decide (i = 0))) =
      (addr'.getLsbD i || (thumb' && decide (i = 0))) := by
    have hb := congrArg (fun x : U32 => x.getLsbD i) h
    simpa only [blockKey, BitVec.getLsbD_or, hthumb _ i hi] using hb
  constructor
  · apply BitVec.eq_of_getLsbD_eq
    intro i hi
    by_cases hi0 : i = 0
    · rw [hi0, h0, h0']
    · have hb := hbit i hi
      rwa [decide_eq_false hi0, Bool.and_false, Bool.and_false, Bool.or_false, Bool.or_false] at hb
  · have hb := hbit 0 (by omega)
    rwa [h0, h0', Bool.false_or, Bool.false_or, decide_eq_true rfl, Bool.and_true, Bool.and_true] at hb

/-- A block stands where a call looks for it, and was made from that address. -/
structure JitBlock.At (b : JitBlock) (c : Compiling) : Prop where
  num : b.num = c.num
  thumb : b.thumb = c.thumb
  startAddr : b.startAddr = c.blockAddr
  startAddrLocal : b.startAddrLocal = c.localAddr

theorem JitBlock.At.key {b : JitBlock} {c : Compiling} (h : b.At c) : b.key = c.key := by
  rw [JitBlock.key, Compiling.key, h.startAddr, h.thumb]

namespace State

theorem setLookup_eq {s : State} {b : JitBlock} {c : Compiling} (h : b.At c) :
    s.setLookup c b = Function.update s.fastBlockLookup b.slot b.entry := by
  rw [setLookup, JitBlock.slot, JitBlock.entry, h.startAddrLocal, h.startAddr, h.num, h.thumb]

variable {s : State} {b : JitBlock} {c : Compiling}

theorem register_codeMem_of_mem {line mask : U32} (hm : (line, mask) ∈ b.addresses) :
    (s.register c b).codeMem line =
      ⟨(s.codeMem line).blocks ++ [b], (s.codeMem line).code ||| mask⟩ :=
  updateEach_of_mem _ b.distinct hm

theorem register_codeMem_of_not_mem {line : U32} (hline : line ∉ b.lines) :
    (s.register c b).codeMem line = s.codeMem line :=
  updateEach_of_not_mem _ hline

/-- Entering a block that is in no table, under a key nothing has, where it stands. -/
theorem register_sound (hs : s.Sound) (hat : b.At c) (hkeys : ∀ b' ∈ s.jitBlocks c.num, b'.key ≠ c.key)
    (hcand : ∀ h, s.restoreCandidates h ≠ some b) (hcomp : s.compiling = none) :
    (s.register c b).Sound := by
  have hblocks : (s.register c b).jitBlocks =
      Function.update s.jitBlocks c.num (s.jitBlocks c.num ++ [b]) := by
    have hfilter : (s.jitBlocks c.num).filter (fun b' : JitBlock => b'.key ≠ c.key) =
        s.jitBlocks c.num :=
      List.filter_eq_self.mpr fun b' hb' => decide_eq_true (hkeys b' hb')
    rw [register, hfilter]
  have hmem : ∀ n b', b' ∈ (s.register c b).jitBlocks n ↔
      b' ∈ s.jitBlocks n ∨ (n = c.num ∧ b' = b) := by
    intro n b'
    rw [hblocks]
    by_cases hn : n = c.num
    · subst hn
      rw [Function.update_self, List.mem_append, List.mem_singleton]
      simp
    · rw [Function.update_of_ne hn]
      simp [hn]
  have hnot : ¬s.Live b := by
    intro hl
    rw [Live, hat.num] at hl
    exact hkeys b hl hat.key
  have hlive : ∀ b', (s.register c b).Live b' ↔ s.Live b' ∨ b' = b := by
    intro b'
    rw [Live, hmem, Live]
    refine or_congr_right ⟨fun h => h.2, ?_⟩
    rintro rfl
    exact ⟨hat.num, rfl⟩
  have hunlisted : ∀ line, b ∉ (s.codeMem line).blocks := fun line h =>
    hnot ((hs.indexed.listed line b).mp h).1
  refine ⟨⟨?_, ?_, ?_, ?_, ?_, ?_, ?_⟩, ?_⟩
  · intro n b' hb'
    rcases (hmem n b').mp hb' with h | ⟨rfl, rfl⟩
    · exact hs.indexed.num n b' h
    · exact hat.num
  · intro n b₁ h₁ b₂ h₂ hkey
    rcases (hmem n b₁).mp h₁ with h₁ | ⟨hn, he₁⟩ <;>
      rcases (hmem _ b₂).mp h₂ with h₂ | ⟨hn', he₂⟩
    · exact hs.indexed.keys n b₁ h₁ b₂ h₂ hkey
    · exact absurd (hkey.trans (he₂ ▸ hat.key)) (hkeys b₁ (hn' ▸ h₁))
    · exact absurd (hkey.symm.trans (he₁ ▸ hat.key)) (hkeys b₂ (hn ▸ h₂))
    · rw [he₁, he₂]
  · intro line b'
    rw [hlive]
    have hold := hs.indexed.listed line b'
    by_cases hline : line ∈ b.lines
    · obtain ⟨mask, hm⟩ := JitBlock.mem_lines.mp hline
      rw [register_codeMem_of_mem hm, List.mem_append, List.mem_singleton, hold, or_and_right]
      exact or_congr_right ⟨fun h => ⟨h, h ▸ hline⟩, fun h => h.1⟩
    · rw [register_codeMem_of_not_mem hline, hold, or_and_right]
      exact ⟨.inl, fun h => h.resolve_right fun h => hline (h.1 ▸ h.2)⟩
  · intro line
    by_cases hline : line ∈ b.lines
    · obtain ⟨mask, hm⟩ := JitBlock.mem_lines.mp hline
      rw [register_codeMem_of_mem hm]
      refine List.nodup_append.mpr ⟨hs.indexed.once line, List.nodup_singleton b, ?_⟩
      rintro b₁ h₁ b₂ h₂ rfl
      exact hunlisted line (List.mem_singleton.mp h₂ ▸ h₁)
    · rw [register_codeMem_of_not_mem hline]
      exact hs.indexed.once line
  · intro slot
    change (s.setLookup c b slot).tag ≠ _ → ∃ b', _ ∧ _ ∧ s.setLookup c b slot = _
    rw [setLookup_eq hat]
    by_cases hslot : slot = b.slot
    · subst hslot
      rw [Function.update_self]
      exact fun _ => ⟨b, (hlive b).mpr (.inr rfl), rfl, rfl⟩
    · rw [Function.update_of_ne hslot]
      intro htag
      obtain ⟨b', hb', h⟩ := hs.indexed.lookups slot htag
      exact ⟨b', (hlive b').mpr (.inl hb'), h⟩
  · intro h b' hb'
    obtain ⟨hh, hnl⟩ := hs.indexed.candidates h b' hb'
    refine ⟨hh, fun hl => ?_⟩
    rcases (hlive b').mp hl with hl | rfl
    · exact hnl hl
    · exact hcand h hb'
  · intro c' hc'
    exact absurd (hcomp.symm.trans hc') (Option.some_ne_none c').symm
  · intro line b' hb' mask' hm'
    by_cases hline : line ∈ b.lines
    · obtain ⟨mask, hm⟩ := JitBlock.mem_lines.mp hline
      rw [register_codeMem_of_mem hm] at hb' ⊢
      rcases List.mem_append.mp hb' with hb' | hb'
      · exact covers_or_left (hs.covered line b' hb' mask' hm') _
      · rw [List.mem_singleton] at hb'
        subst hb'
        rw [← JitBlock.maskAt_eq hm', JitBlock.maskAt_eq hm]
        exact covers_or_right _ _
    · rw [register_codeMem_of_not_mem hline] at hb' ⊢
      exact hs.covered line b' hb' mask' hm'

/-- The block of a key that a call finds in the way or switches in again. -/
theorem compileStart_sound (hs : s.Sound) (c : Compiling) : (s.compileStart c).Sound := by
  unfold compileStart
  cases hfind : (s.jitBlocks c.num).find? fun b => b.key = c.key with
  | none =>
    refine beginTrace_sound hs fun b hb hkey => ?_
    exact absurd (List.find?_eq_none.mp hfind b hb) (by simp [hkey])
  | some b =>
    have hmem := List.mem_of_find?_eq_some hfind
    have hkey : b.key = c.key := by simpa using List.find?_some hfind
    have hnum := hs.indexed.num _ b hmem
    have hlive : s.Live b := by rwa [Live, hnum]
    simp only
    split_ifs with hlocal
    · obtain ⟨hstart, hthumb⟩ := blockKey_inj hkey b.even c.even
      have hat : b.At c := ⟨hnum, hthumb, hstart, hlocal.symm⟩
      have hi := hs.indexed
      refine ⟨⟨hi.num, hi.keys, hi.listed, hi.once, ?_, hi.candidates, hi.compiling⟩, hs.covered⟩
      intro slot
      change (s.setLookup c b slot).tag ≠ _ → ∃ b', s.Live b' ∧ _ ∧ s.setLookup c b slot = _
      rw [setLookup_eq hat]
      by_cases hslot : slot = b.slot
      · subst hslot
        rw [Function.update_self]
        exact fun _ => ⟨b, hlive, rfl, rfl⟩
      · rw [Function.update_of_ne hslot]
        exact hi.lookups slot
    · refine beginTrace_sound (removeBlock_sound hs hlive) fun b' hb' hkey' => ?_
      have hl : (s.removeBlock b).Live b' := by
        rw [Live, (removeBlock_sound hs hlive).indexed.num _ b' hb']
        exact hb'
      obtain ⟨hl', hne⟩ := ((removeBlock_detached hs.indexed b).live hs.indexed hlive b').mp hl
      rw [Live, (removeBlock_sound hs hlive).indexed.num _ b' hb'] at hl'
      exact hne (hs.indexed.keys _ b' hl' b hmem (hkey'.trans hkey.symm))

theorem takeCandidate_sound (hs : s.Sound) (t : Traced) : (s.takeCandidate t).Sound := by
  refine hs.of_same rfl rfl rfl (fun h b hb => ?_) nofun
  change Function.update s.restoreCandidates t.instrHash none h = some b at hb
  by_cases hh : h = t.instrHash
  · subst hh
    rw [Function.update_self] at hb
    exact absurd hb nofun
  · rwa [Function.update_of_ne hh] at hb

/-- No candidate is left under the hash of the trace. -/
theorem takeCandidate_ne (hs : s.Indexed) {t : Traced} (hb : b.instrHash = t.instrHash) (h : U64) :
    (s.takeCandidate t).restoreCandidates h ≠ some b := by
  intro hc
  change Function.update s.restoreCandidates t.instrHash none h = some b at hc
  by_cases hh : h = t.instrHash
  · subst hh
    rw [Function.update_self] at hc
    exact absurd hc nofun
  · rw [Function.update_of_ne hh] at hc
    exact hh ((hs.candidates h b hc).1.symm.trans hb)

/-- What the restored block of a step must satisfy: it stands where the call looks. -/
def RestoresInPlace (s : State) : Action → Prop
  | .compileFinish t => ∀ c b, s.compiling = some c → s.restorable c t = some b →
      b.startAddrLocal = c.localAddr
  | _ => True

instance (s : State) : (a : Action) → Decidable (s.RestoresInPlace a)
  | .compileFinish t =>
    match hc : s.compiling with
    | none => isTrue fun _ _ h => absurd (hc.symm.trans h) nofun
    | some c =>
      match hr : s.restorable c t with
      | none => isTrue (by
          intro c' b' h h'
          cases hc.symm.trans h
          exact absurd (hr.symm.trans h') nofun)
      | some b => decidable_of_iff (b.startAddrLocal = c.localAddr) (by
          constructor
          · intro he c' b' h h'
            cases hc.symm.trans h
            cases hr.symm.trans h'
            exact he
          · intro h
            exact h c b hc hr)
  | .compileStart _ | .compileAbandon | .store _ | .invalidateByAddr _ | .remap _ | .resetBlockCache =>
    isTrue trivial

theorem compileFinish_sound (hs : s.Sound) (t : Traced)
    (hplace : s.RestoresInPlace (.compileFinish t)) : (s.compileFinish t).Sound := by
  cases hc : s.compiling with
  | none =>
    simp only [compileFinish, hc]
    exact hs
  | some c =>
    have htaken := takeCandidate_sound hs t
    have hkeys := hs.indexed.compiling c hc
    cases hr : s.restorable c t with
    | some b =>
      obtain ⟨hcand, hmay⟩ := Option.filter_eq_some_iff.mp hr
      obtain ⟨hnum, hthumb, hstart, -, -⟩ : MayRestore c t b := by simpa using hmay
      let b' : JitBlock := { b with hasRemapDependency := t.hasRemapDependency }
      have hat : b'.At c := ⟨hnum, hthumb, hstart, hplace c b hc hr⟩
      have hhash : b'.instrHash = t.instrHash := (hs.indexed.candidates _ b hcand).1
      simp only [compileFinish, hc, hr]
      exact replayWrites_sound
        (register_sound htaken hat hkeys (takeCandidate_ne hs.indexed hhash) rfl)
    | none =>
      have hat : (newBlock c t).At c := ⟨rfl, rfl, rfl, rfl⟩
      have hhash : (newBlock c t).instrHash = t.instrHash := rfl
      simp only [compileFinish, hc, hr]
      split_ifs
      · exact replayWrites_sound (register_sound (resetBlockCache_sound htaken.indexed) hat
          (fun _ h => absurd h List.not_mem_nil) nofun rfl)
      · exact replayWrites_sound
          (register_sound htaken hat hkeys (takeCandidate_ne hs.indexed hhash) rfl)

theorem step_sound (hs : s.Sound) {a : Action} (hplace : s.RestoresInPlace a) : (s.step a).Sound := by
  cases a with
  | compileStart c =>
    simp only [step]
    split_ifs
    · exact hs
    · exact compileStart_sound hs c
  | compileAbandon => exact hs.of_same rfl rfl rfl (fun _ _ h => h) nofun
  | compileFinish t => exact compileFinish_sound hs t hplace
  | store localAddr => exact checkAndInvalidate_sound hs localAddr
  | invalidateByAddr localAddr => exact (invalidateByAddr_spec hs localAddr).1
  | remap consoleType => exact invalidateRemappedCode_sound hs consoleType
  | resetBlockCache => exact resetBlockCache_sound hs.indexed

theorem init_sound : init.Sound := by
  refine ⟨⟨fun _ _ h => absurd h List.not_mem_nil, fun _ _ h => absurd h List.not_mem_nil,
    fun _ _ => ⟨fun h => absurd h List.not_mem_nil, fun h => absurd h.1 List.not_mem_nil⟩,
    fun _ => List.nodup_nil, fun _ h => absurd rfl h, nofun, nofun⟩,
    fun _ _ h => absurd h List.not_mem_nil⟩

end State

/-- Every step of the run restores blocks in place. -/
def RunsInPlace (s : State) : List Action → Prop
  | [] => True
  | a :: acts => s.RestoresInPlace a ∧ RunsInPlace (s.step a) acts

instance (s : State) : (acts : List Action) → Decidable (RunsInPlace s acts)
  | [] => isTrue trivial
  | a :: acts =>
    have := instDecidableRunsInPlace (s.step a) acts
    inferInstanceAs (Decidable (_ ∧ _))

theorem run_sound {s : State} (hs : s.Sound) (acts : List Action) (h : RunsInPlace s acts) :
    (run s acts).Sound := by
  induction acts generalizing s with
  | nil => exact hs
  | cons a acts ih => exact ih (State.step_sound hs h.1) h.2

namespace State

variable {s : State} {b : JitBlock}

/-- What the lookup table finds under a valid tag is in use at the address. -/
theorem Sound.lookUpBlock (hs : s.Sound) {num : Fin 2} {localAddr addr entry : U32} {thumb : Bool}
    (htag : makeLookupTag addr num thumb ≠ invalidTag) (heven : addr.getLsbD 0 = false)
    (hhalf : localAddr.getLsbD 1 = addr.getLsbD 1)
    (h : s.lookUpBlock num localAddr addr thumb = some entry) :
    ∃ b ∈ s.jitBlocks num, b.startAddr = addr ∧ b.thumb = thumb ∧ b.entryPoint = entry := by
  simp only [State.lookUpBlock] at h
  split_ifs at h with hfound
  obtain ⟨b, hb, hslot, hentry⟩ := hs.indexed.lookups _ (hfound ▸ htag)
  rw [hentry] at h hfound
  have hbit : b.startAddr.getLsbD 1 = addr.getLsbD 1 := by
    have hlow := congrArg (fun x : U32 => x.getLsbD 0) hslot
    simp only [JitBlock.slot, slotOf, BitVec.getLsbD_ushiftRight] at hlow
    rw [← b.sameHalfword, ← hhalf]
    exact hlow
  obtain ⟨haddr, hnum, hthumb⟩ := eq_of_makeLookupTag hfound (b.even.trans heven.symm) hbit
  rw [Live, hnum] at hb
  exact ⟨b, hb, haddr, hthumb, Option.some_inj.mp h⟩

/-- A store where a block has code takes it out of use. -/
theorem Sound.not_live_store (hs : s.Sound) {localAddr mask : U32} (hb : s.Live b)
    (hm : (lineOf localAddr, mask) ∈ b.addresses) (hmask : mask &&& unitBit localAddr ≠ 0) :
    ¬(s.checkAndInvalidate localAddr).Live b ∧
      ∀ b', (s.checkAndInvalidate localAddr).Live b' → s.Live b' := by
  have hlisted := (hs.indexed.listed _ b).mpr ⟨hb, JitBlock.mem_lines.mpr ⟨mask, hm⟩⟩
  have hcovers := hs.covered _ b hlisted mask hm
  have hcode : (s.logWrite localAddr).hasCode localAddr = true := by
    rw [hasCode, logWrite_codeMem, bne_iff_ne]
    intro hzero
    refine hmask (BitVec.eq_of_getLsbD_eq fun i _ => ?_)
    have hbit := congrArg (fun x : U32 => x.getLsbD i) hzero
    simp only [BitVec.getLsbD_and] at hbit ⊢
    cases hmi : mask.getLsbD i with
    | false => simp
    | true => rwa [hcovers i hmi] at hbit
  obtain ⟨-, hsub, hnone⟩ := invalidateByAddr_spec (logWrite_sound hs localAddr) localAddr
  simp only [checkAndInvalidate]
  rw [if_pos hcode]
  refine ⟨fun hl => hmask (hnone b hl mask hm), fun b' hb' => ?_⟩
  have hl := hsub b' hb'
  rwa [Live, logWrite_jitBlocks] at hl

end State

/-- A hash of opcodes to run examples with. -/
def foldHash (values : List U32) : U64 :=
  values.foldl (fun h v => h * 0x100000001B3 ^^^ v.setWidth 64) 0xCBF29CE484222325

/-- The start of a block in the first window, where it is mapped to `localAddr`. -/
def windowStart (swapped : Bool) : Compiling where
  num := 1
  thumb := false
  blockAddr := 0x03000000
  localAddr := if swapped then 0x80008000 else 0x80000000
  even := by decide
  sameHalfword := by cases swapped <;> decide

/-- The block is compiled, taken out by a store to data next to its code, and found again. -/
def windowRun (swapped : Bool) : List Action :=
  [.compileStart (windowStart swapped), .compileFinish (windowTrace foldHash swapped)]

def retiredRun : List Action := windowRun false ++ [.store 0x8000000C]

theorem run_append (s : State) (acts acts' : List Action) :
    run s (acts ++ acts') = run (run s acts) acts' :=
  List.foldl_append

theorem run_remap {s : State} (hs : s.Sound) (h : ∀ n, s.jitBlocks n = []) (consoleType : ℕ) :
    run s [.remap consoleType] = s := by
  simp only [run, List.foldl_cons, List.foldl_nil, State.step]
  exact State.invalidateRemappedCode_eq_self hs.indexed h consoleType

end MelonDS.ARMJIT

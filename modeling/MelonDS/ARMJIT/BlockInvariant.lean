import MelonDS.ARMJIT.BlockIndex

/-!
# The index invariant

The blocks of the two maps are in use. Each is listed once in every line it names
and nowhere else, a line's code covers the masks of its blocks, and what the
lookup table finds is in use at the address looked up. Every removal has one
effect on these tables, `Detached`, and keeps the invariant.
-/

namespace MelonDS.ARMJIT

theorem getLsbD_lineOf (x : U32) (i : ℕ) : (lineOf x).getLsbD i = (x.getLsbD i && decide (9 ≤ i)) := by
  have hmask : ∀ i < 32, (0x1FF : U32).getLsbD i = decide (i < 9) := by decide
  by_cases hi : i < 32
  · rw [lineOf, BitVec.getLsbD_and, BitVec.getLsbD_not, hmask i hi]
    by_cases h : i < 9 <;> simp [h, hi, Nat.not_le.mpr, Nat.not_lt.mp]
  · rw [BitVec.getLsbD_of_ge _ _ (Nat.not_lt.mp hi), BitVec.getLsbD_of_ge _ _ (Nat.not_lt.mp hi)]
    rfl

theorem lineOf_eq_shift (x : U32) : lineOf x = x >>> 9 <<< 9 := by
  apply BitVec.eq_of_getLsbD_eq
  intro i hi
  rw [getLsbD_lineOf, BitVec.getLsbD_shiftLeft, BitVec.getLsbD_ushiftRight]
  by_cases h : 9 ≤ i
  · have hadd : 9 + (i - 9) = i := by omega
    simp [h, hi, hadd, Nat.not_lt.mpr h]
  · simp [h, Nat.not_le.mp h]

theorem lineOf_shift (x : U32) : lineOf x >>> 9 = x >>> 9 := by
  apply BitVec.eq_of_getLsbD_eq
  intro i _
  rw [BitVec.getLsbD_ushiftRight, BitVec.getLsbD_ushiftRight, getLsbD_lineOf]
  simp

theorem eq_lineOf_iff {a : U32} (ha : lineOf a = a) (x : U32) : a >>> 9 = x >>> 9 ↔ a = lineOf x := by
  constructor
  · intro h
    rw [← ha, lineOf_eq_shift, h, ← lineOf_eq_shift]
  · intro h
    rw [h, lineOf_shift]

theorem getLsbD_makeLookupTag (addr : U32) (num : Fin 2) (thumb : Bool) {i : ℕ} (hi : i < 32) :
    (makeLookupTag addr num thumb).getLsbD i =
      if i = 0 then thumb else if i = 1 then decide (num = 1) else addr.getLsbD i := by
  have hlow : ∀ i < 32, (3 : U32).getLsbD i = decide (i < 2) := by decide
  have hnum : ∀ num : Fin 2, ∀ i < 32,
      (BitVec.ofNat 32 num <<< 1).getLsbD i = decide (i = 1 ∧ num = 1) := by decide
  have hthumb : ∀ t, ∀ i < 32, (boolBit t).getLsbD i = (t && decide (i = 0)) := by decide
  rw [makeLookupTag, BitVec.getLsbD_or, BitVec.getLsbD_or, BitVec.getLsbD_and, BitVec.getLsbD_not,
    hlow i hi, hnum num i hi, hthumb thumb i hi]
  rcases Nat.lt_trichotomy i 1 with h | rfl | h
  · obtain rfl : i = 0 := by omega
    simp
  · simp
  · have h0 : i ≠ 0 := by omega
    have h1 : i ≠ 1 := by omega
    have h2 : ¬i < 2 := by omega
    simp [h0, h1, h2, hi]

/-- The bits the tag leaves out of an address are the alignment and the one the
table index keeps. -/
theorem eq_of_makeLookupTag {addr addr' : U32} {num num' : Fin 2} {thumb thumb' : Bool}
    (h : makeLookupTag addr num thumb = makeLookupTag addr' num' thumb')
    (h0 : addr.getLsbD 0 = addr'.getLsbD 0) (h1 : addr.getLsbD 1 = addr'.getLsbD 1) :
    addr = addr' ∧ num = num' ∧ thumb = thumb' := by
  have hbit (i : ℕ) : (makeLookupTag addr num thumb).getLsbD i =
      (makeLookupTag addr' num' thumb').getLsbD i := by rw [h]
  refine ⟨?_, ?_, ?_⟩
  · apply BitVec.eq_of_getLsbD_eq
    intro i hi
    have hb := hbit i
    rw [getLsbD_makeLookupTag _ _ _ hi, getLsbD_makeLookupTag _ _ _ hi] at hb
    split_ifs at hb with hi0 hi1
    · rw [hi0, h0]
    · rw [hi1, h1]
    · exact hb
  · have hb := hbit 1
    rw [getLsbD_makeLookupTag _ _ _ (by omega), getLsbD_makeLookupTag _ _ _ (by omega)] at hb
    have hn : (num = 1) ↔ (num' = 1) := by simpa using hb
    omega
  · have hb := hbit 0
    rwa [getLsbD_makeLookupTag _ _ _ (by omega), getLsbD_makeLookupTag _ _ _ (by omega)] at hb

/-- Every bit of the mask is in the code. -/
def Covers (code mask : U32) : Prop := ∀ i, mask.getLsbD i = true → code.getLsbD i = true

theorem covers_or_left {code mask : U32} (h : Covers code mask) (x : U32) :
    Covers (code ||| x) mask := by
  intro i hi
  rw [BitVec.getLsbD_or, h i hi, Bool.true_or]

theorem covers_or_right (code mask : U32) : Covers (code ||| mask) mask := by
  intro i hi
  rw [BitVec.getLsbD_or, hi, Bool.or_true]

section Fold
variable {α : Type*}

/-- A fold that only ORs into the code keeps what the code covers. -/
theorem covers_foldl {f : U32 → α → U32} (hf : ∀ code a mask, Covers code mask → Covers (f code a) mask)
    (l : List α) {code mask : U32} (h : Covers code mask) : Covers (l.foldl f code) mask := by
  induction l generalizing code with
  | nil => exact h
  | cons a l ih => exact ih (hf code a mask h)

theorem covers_foldl_of_mem {f : U32 → α → U32}
    (hf : ∀ code a mask, Covers code mask → Covers (f code a) mask) {l : List α} {a : α} (ha : a ∈ l)
    {mask : U32} (h : ∀ code, Covers (f code a) mask) (code : U32) : Covers (l.foldl f code) mask := by
  induction l generalizing code with
  | nil => exact absurd ha List.not_mem_nil
  | cons b l ih =>
    rcases List.mem_cons.mp ha with rfl | ha
    · exact covers_foldl hf l (h code)
    · exact ih ha _

end Fold

theorem codeOf_covers {line mask : U32} {blocks : List JitBlock} {b : JitBlock} (hb : b ∈ blocks)
    (hm : (line, mask) ∈ b.addresses) : Covers (codeOf line blocks) mask := by
  have hinner : ∀ (code : U32) (a : U32 × U32) (mask : U32), Covers code mask →
      Covers (if a.1 = line then code ||| a.2 else code) mask := by
    intro code a mask h
    split_ifs
    · exact covers_or_left h _
    · exact h
  refine covers_foldl_of_mem (fun code b mask h => covers_foldl hinner b.addresses h) hb ?_ 0
  refine covers_foldl_of_mem hinner hm ?_
  intro code
  rw [if_pos rfl]
  exact covers_or_right _ _

theorem JitBlock.maskAt_eq {b : JitBlock} {line mask : U32} (h : (line, mask) ∈ b.addresses) :
    b.maskAt line = mask := by
  cases hfind : b.addresses.find? fun a => a.1 = line with
  | none => exact absurd (List.find?_eq_none.mp hfind _ h) (by simp)
  | some a =>
    have hline : a.1 = line := by simpa using List.find?_some hfind
    have ha := List.mem_of_find?_eq_some hfind
    have heq : a = (line, mask) := List.inj_on_of_nodup_map b.distinct ha h hline
    rw [JitBlock.maskAt, hfind, heq]
    rfl

theorem JitBlock.mem_lines {b : JitBlock} {line : U32} :
    line ∈ b.lines ↔ ∃ mask, (line, mask) ∈ b.addresses := by
  rw [JitBlock.lines, List.mem_map]
  constructor
  · rintro ⟨⟨l, mask⟩, hm, rfl⟩
    exact ⟨mask, hm⟩
  · rintro ⟨mask, hm⟩
    exact ⟨_, hm, rfl⟩

namespace State

structure Indexed (s : State) : Prop where
  num : ∀ n, ∀ b ∈ s.jitBlocks n, b.num = n
  keys : ∀ n, ∀ b ∈ s.jitBlocks n, ∀ c ∈ s.jitBlocks n, b.key = c.key → b = c
  listed : ∀ line b, b ∈ (s.codeMem line).blocks ↔ s.Live b ∧ line ∈ b.lines
  once : ∀ line, (s.codeMem line).blocks.Nodup
  lookups : ∀ slot, (s.fastBlockLookup slot).tag ≠ invalidTag →
    ∃ b, s.Live b ∧ b.slot = slot ∧ s.fastBlockLookup slot = b.entry
  candidates : ∀ h b, s.restoreCandidates h = some b → b.instrHash = h ∧ ¬s.Live b
  compiling : ∀ c, s.compiling = some c → ∀ b ∈ s.jitBlocks c.num, b.key ≠ c.key

/-- The code of a line covers the masks of some of its blocks. -/
def Covered (s : State) (line : U32) (blocks : List JitBlock) : Prop :=
  ∀ b ∈ blocks, ∀ mask, (line, mask) ∈ b.addresses → Covers (s.codeMem line).code mask

structure Sound (s : State) : Prop where
  indexed : s.Indexed
  covered : ∀ line, s.Covered line (s.codeMem line).blocks

/-- What taking a block out of the index does to the tables but the codes. -/
structure Detached (s t : State) (b : JitBlock) : Prop where
  jitBlocks : t.jitBlocks =
    Function.update s.jitBlocks b.num ((s.jitBlocks b.num).filter fun c => c.key ≠ b.key)
  blocks : ∀ line, (t.codeMem line).blocks.Perm ((s.codeMem line).blocks.erase b)
  lookup : ∀ slot, (t.fastBlockLookup slot).tag ≠ invalidTag →
    t.fastBlockLookup slot = s.fastBlockLookup slot ∧ ¬(slot = b.slot ∧ s.fastBlockLookup slot = b.entry)
  candidates : ∀ h c, t.restoreCandidates h = some c →
    (c = b ∧ h = b.instrHash) ∨ s.restoreCandidates h = some c
  compiling : t.compiling = s.compiling

variable {s t : State} {b : JitBlock}

theorem Detached.live (hd : s.Detached t b) (hs : s.Indexed) (hb : s.Live b) (c : JitBlock) :
    t.Live c ↔ s.Live c ∧ c ≠ b := by
  rw [Live, Live, hd.jitBlocks]
  by_cases hn : c.num = b.num
  · rw [hn, Function.update_self, List.mem_filter, decide_eq_true_eq]
    refine and_congr_right fun hc => not_congr ⟨fun hk => hs.keys _ c hc b hb hk, ?_⟩
    rintro rfl
    rfl
  · rw [Function.update_of_ne hn]
    exact ⟨fun h => ⟨h, fun he => hn (congrArg _ he)⟩, fun h => h.1⟩

theorem Indexed.detached (hs : s.Indexed) (hb : s.Live b) (hd : s.Detached t b) : t.Indexed := by
  have hlive := hd.live hs hb
  have hsub : ∀ n, ∀ c ∈ t.jitBlocks n, c ∈ s.jitBlocks n := by
    intro n c hc
    rw [hd.jitBlocks] at hc
    by_cases hn : n = b.num
    · subst hn
      rw [Function.update_self] at hc
      exact List.mem_of_mem_filter hc
    · rwa [Function.update_of_ne hn] at hc
  refine ⟨fun n c hc => hs.num n c (hsub n c hc),
    fun n c hc c' hc' => hs.keys n c (hsub n c hc) c' (hsub n c' hc'), ?_, ?_, ?_, ?_, ?_⟩
  · intro line c
    rw [(hd.blocks line).mem_iff, (hs.once line).mem_erase_iff, hs.listed, hlive]
    exact ⟨fun h => ⟨⟨h.2.1, h.1⟩, h.2.2⟩, fun h => ⟨h.1.2, h.1.1, h.2⟩⟩
  · intro line
    exact (hd.blocks line).nodup_iff.mpr ((hs.once line).erase b)
  · intro slot htag
    obtain ⟨hsame, hother⟩ := hd.lookup slot htag
    rw [hsame] at htag ⊢
    obtain ⟨c, hc, hslot, hentry⟩ := hs.lookups slot htag
    refine ⟨c, (hlive c).mpr ⟨hc, ?_⟩, hslot, hentry⟩
    rintro rfl
    exact hother ⟨hslot.symm, hentry⟩
  · intro h c hc
    rcases hd.candidates h c hc with ⟨rfl, rfl⟩ | hc
    · exact ⟨rfl, fun hl => ((hlive c).mp hl).2 rfl⟩
    · obtain ⟨hh, hnot⟩ := hs.candidates h c hc
      exact ⟨hh, fun hl => hnot ((hlive c).mp hl).1⟩
  · intro c hc c' hc'
    rw [hd.compiling] at hc
    exact hs.compiling c hc c' (hsub _ c' hc')

/-! ## Removing blocks -/

theorem retireJitBlock_eq {h : U64} {c : JitBlock} (hc : s.retireJitBlock b h = some c) :
    (c = b ∧ h = b.instrHash) ∨ s.restoreCandidates h = some c := by
  rw [retireJitBlock] at hc
  by_cases hh : h = b.instrHash
  · subst hh
    rw [Function.update_self, Option.some_inj] at hc
    exact .inl ⟨hc.symm, rfl⟩
  · rw [Function.update_of_ne hh] at hc
    exact .inr hc

/-- A table change that takes the block out of each of its lines takes it out of all. -/
theorem Indexed.perm_erase (hs : s.Indexed) {m : U32 → AddressRange}
    (hin : ∀ a ∈ b.addresses, (m a.1).blocks.Perm ((s.codeMem a.1).blocks.erase b))
    (hout : ∀ line, line ∉ b.lines → m line = s.codeMem line) (line : U32) :
    (m line).blocks.Perm ((s.codeMem line).blocks.erase b) := by
  by_cases hline : line ∈ b.lines
  · obtain ⟨mask, hm⟩ := JitBlock.mem_lines.mp hline
    exact hin _ hm
  · rw [hout line hline, List.erase_of_not_mem]
    exact fun hmem => hline ((hs.listed line b).mp hmem).2

/-- A slot set to the invalid entry finds nothing; the others are as before. -/
theorem lookup_of_invalidated {slot : U32} (b : JitBlock)
    (h : (Function.update s.fastBlockLookup b.slot .invalid slot).tag ≠ invalidTag) :
    Function.update s.fastBlockLookup b.slot .invalid slot = s.fastBlockLookup slot ∧
      ¬(slot = b.slot ∧ s.fastBlockLookup slot = b.entry) := by
  have hslot : slot ≠ b.slot := by
    rintro rfl
    rw [Function.update_self] at h
    exact h rfl
  exact ⟨Function.update_of_ne hslot _ _, fun he => hslot he.1⟩

theorem removeBlock_codeMem (s : State) (b : JitBlock) : (s.removeBlock b).codeMem =
    updateEach (fun line _ r => r.unlist b line) b.addresses s.codeMem := rfl

theorem removeBlock_lookup (s : State) (b : JitBlock) : (s.removeBlock b).fastBlockLookup =
    if s.fastBlockLookup b.slot = b.entry then Function.update s.fastBlockLookup b.slot .invalid
    else s.fastBlockLookup := rfl

theorem removeBlock_detached (hs : s.Indexed) (b : JitBlock) : s.Detached (s.removeBlock b) b := by
  refine ⟨rfl, ?_, ?_, fun _ _ => retireJitBlock_eq, rfl⟩
  · refine hs.perm_erase ?_ fun l hl => updateEach_of_not_mem _ hl
    intro a ha
    rw [removeBlock_codeMem, updateEach_of_mem _ b.distinct ha]
    exact removeByValue_perm _ _
  · intro slot htag
    rw [removeBlock_lookup] at htag ⊢
    split_ifs at htag ⊢ with hentry
    · exact lookup_of_invalidated b htag
    · exact ⟨rfl, fun h => hentry (h.1 ▸ h.2)⟩

theorem removeBlock_sound (hs : s.Sound) (hb : s.Live b) : (s.removeBlock b).Sound := by
  refine ⟨hs.indexed.detached hb (removeBlock_detached hs.indexed b), ?_⟩
  intro line c hc mask hm
  rw [removeBlock_codeMem] at hc ⊢
  by_cases hline : line ∈ b.lines
  · obtain ⟨m, ha⟩ := JitBlock.mem_lines.mp hline
    rw [updateEach_of_mem _ b.distinct ha] at hc ⊢
    exact codeOf_covers hc hm
  · rw [updateEach_of_not_mem _ hline] at hc ⊢
    exact hs.covered line c hc mask hm

/-- The lines after `InvalidateByAddr` has removed a block. -/
theorem invalidateBlock_codeMem (s : State) (b : JitBlock) (localAddr : U32) (i : ℕ) (line : U32) :
    (s.invalidateBlock b localAddr i).codeMem line =
      if line = lineOf localAddr then
        ⟨swapRemove (s.codeMem line).blocks i, (s.codeMem line).code⟩
      else if line ∈ b.lines then
        ⟨removeByValue (s.codeMem line).blocks b,
          if (removeByValue (s.codeMem line).blocks b).isEmpty then 0 else (s.codeMem line).code⟩
      else s.codeMem line := by
  simp only [invalidateBlock]
  by_cases hline : line ∈ b.lines
  · obtain ⟨mask, ha⟩ := JitBlock.mem_lines.mp hline
    have heq := eq_lineOf_iff (b.aligned line hline) localAddr
    rw [updateEach_of_mem _ b.distinct ha, if_pos hline]
    by_cases h : line = lineOf localAddr
    · rw [if_pos (heq.mpr h), if_pos h, h, Function.update_self]
    · rw [if_neg (mt heq.mp h), if_neg h, Function.update_of_ne h]
  · rw [updateEach_of_not_mem _ hline, if_neg hline]
    by_cases h : line = lineOf localAddr
    · rw [if_pos h, h, Function.update_self]
    · rw [if_neg h, Function.update_of_ne h]

theorem invalidateBlock_detached (hs : s.Indexed) {localAddr : U32} {i : ℕ}
    (hi : (s.codeMem (lineOf localAddr)).blocks[i]? = some b) :
    s.Detached (s.invalidateBlock b localAddr i) b := by
  obtain ⟨hlt, hget⟩ := List.getElem?_eq_some_iff.mp hi
  refine ⟨rfl, ?_, fun slot htag => lookup_of_invalidated b htag, ?_, rfl⟩
  · intro line
    rw [invalidateBlock_codeMem]
    by_cases h : line = lineOf localAddr
    · subst h
      rw [if_pos rfl, swapRemove_eq (hs.once _) hlt, hget]
      exact removeByValue_perm _ _
    · rw [if_neg h]
      by_cases hline : line ∈ b.lines
      · rw [if_pos hline]
        exact removeByValue_perm _ _
      · rw [if_neg hline, List.erase_of_not_mem]
        exact fun hmem => hline ((hs.listed line b).mp hmem).2
  · intro h c hc
    simp only [invalidateBlock] at hc
    split_ifs at hc
    · exact .inr hc
    · exact retireJitBlock_eq hc

/-- The codes of the other lines still cover their blocks. -/
theorem invalidateBlock_covered {localAddr : U32} {i : ℕ} {line : U32} (h : line ≠ lineOf localAddr)
    (hc : s.Covered line (s.codeMem line).blocks) :
    (s.invalidateBlock b localAddr i).Covered line
      ((s.invalidateBlock b localAddr i).codeMem line).blocks := by
  intro c hmem mask hm
  rw [invalidateBlock_codeMem, if_neg h] at hmem ⊢
  by_cases hline : line ∈ b.lines
  · rw [if_pos hline] at hmem ⊢
    have hne : (removeByValue (s.codeMem line).blocks b).isEmpty = false :=
      List.isEmpty_eq_false_iff.mpr (List.ne_nil_of_mem hmem)
    have hold := (removeByValue_perm _ _).subset hmem
    simp only [hne, if_neg Bool.false_ne_true]
    exact hc c (List.mem_of_mem_erase hold) mask hm
  · rw [if_neg hline] at hmem ⊢
    exact hc c hmem mask hm

theorem setCode_codeMem (s : State) (line code : U32) (line' : U32) :
    (s.setCode line code).codeMem line' =
      if line' = line then ⟨(s.codeMem line').blocks, code⟩ else s.codeMem line' := by
  by_cases h : line' = line
  · subst h
    rw [if_pos rfl]
    exact Function.update_self _ _ _
  · rw [if_neg h]
    exact Function.update_of_ne h _ _

@[simp] theorem setCode_blocks (s : State) (line code : U32) (line' : U32) :
    ((s.setCode line code).codeMem line').blocks = (s.codeMem line').blocks := by
  rw [setCode_codeMem]
  split_ifs <;> rfl

theorem setCode_indexed (hs : s.Indexed) (line code : U32) : (s.setCode line code).Indexed := by
  refine ⟨hs.num, hs.keys, ?_, ?_, hs.lookups, hs.candidates, hs.compiling⟩
  · intro line' b
    rw [setCode_blocks]
    exact hs.listed line' b
  · intro line'
    rw [setCode_blocks]
    exact hs.once line'

/-- The loop of `InvalidateByAddr` at index `i`: the other lines are covered, and of
its own line the blocks passed, none of which covers the address. -/
structure Invalidating (s : State) (localAddr : U32) (i : ℕ) : Prop where
  indexed : s.Indexed
  others : ∀ line ≠ lineOf localAddr, s.Covered line (s.codeMem line).blocks
  passed : s.Covered (lineOf localAddr) ((s.codeMem (lineOf localAddr)).blocks.take i)
  kept : ∀ b ∈ (s.codeMem (lineOf localAddr)).blocks.take i,
    b.maskAt (lineOf localAddr) &&& unitBit localAddr = 0

theorem Invalidating.keep {localAddr : U32} {i : ℕ} (h : s.Invalidating localAddr i)
    (hi : (s.codeMem (lineOf localAddr)).blocks[i]? = some b)
    (hmask : b.maskAt (lineOf localAddr) &&& unitBit localAddr = 0) :
    (s.setCode (lineOf localAddr)
      ((s.codeMem (lineOf localAddr)).code ||| b.maskAt (lineOf localAddr))).Invalidating
        localAddr (i + 1) := by
  obtain ⟨hlt, hget⟩ := List.getElem?_eq_some_iff.mp hi
  have htake : (s.codeMem (lineOf localAddr)).blocks.take (i + 1) =
      (s.codeMem (lineOf localAddr)).blocks.take i ++ [b] := by
    rw [List.take_add_one, hi]
    rfl
  refine ⟨setCode_indexed h.indexed _ _, ?_, ?_, ?_⟩
  · intro line hline c hc mask hm
    rw [setCode_codeMem, if_neg hline] at hc ⊢
    exact h.others line hline c hc mask hm
  · intro c hc mask hm
    rw [setCode_blocks, htake] at hc
    rw [setCode_codeMem, if_pos rfl]
    rcases List.mem_append.mp hc with hc | hc
    · exact covers_or_left (h.passed c hc mask hm) _
    · rw [List.mem_singleton] at hc
      subst hc
      rw [JitBlock.maskAt_eq hm]
      exact covers_or_right _ _
  · intro c hc
    rw [setCode_blocks, htake] at hc
    rcases List.mem_append.mp hc with hc | hc
    · exact h.kept c hc
    · rwa [List.mem_singleton.mp hc]

theorem Invalidating.remove {localAddr : U32} {i : ℕ} (h : s.Invalidating localAddr i)
    (hi : (s.codeMem (lineOf localAddr)).blocks[i]? = some b) :
    (s.invalidateBlock b localAddr i).Invalidating localAddr i := by
  obtain ⟨hlt, hget⟩ := List.getElem?_eq_some_iff.mp hi
  have hlive : s.Live b := ((h.indexed.listed _ b).mp (List.mem_of_getElem? hi)).1
  have hblocks := invalidateBlock_codeMem s b localAddr i (lineOf localAddr)
  rw [if_pos rfl] at hblocks
  have htake : ((s.invalidateBlock b localAddr i).codeMem (lineOf localAddr)).blocks.take i =
      (s.codeMem (lineOf localAddr)).blocks.take i := by
    rw [hblocks]
    exact take_swapRemove hlt
  refine ⟨h.indexed.detached hlive (invalidateBlock_detached h.indexed hi),
    fun line hline => invalidateBlock_covered hline (h.others line hline), ?_, ?_⟩
  · intro c hc mask hm
    rw [htake] at hc
    rw [hblocks]
    exact h.passed c hc mask hm
  · intro c hc
    rw [htake] at hc
    exact h.kept c hc

/-- With enough turns for the rest of the list, the loop ends with no block that
covers the address, and with none in use that was not before. -/
theorem Invalidating.run {localAddr : U32} (fuel : ℕ) {i : ℕ} (h : s.Invalidating localAddr i)
    (hfuel : (s.codeMem (lineOf localAddr)).blocks.length ≤ i + fuel) :
    let t := invalidateFrom localAddr fuel i s
    t.Sound ∧ (∀ b, t.Live b → s.Live b) ∧
      ∀ b ∈ (t.codeMem (lineOf localAddr)).blocks,
        b.maskAt (lineOf localAddr) &&& unitBit localAddr = 0 := by
  have hdone : ∀ {s : State} {i : ℕ}, s.Invalidating localAddr i →
      (s.codeMem (lineOf localAddr)).blocks.length ≤ i →
      s.Sound ∧ (∀ b, s.Live b → s.Live b) ∧ ∀ b ∈ (s.codeMem (lineOf localAddr)).blocks,
        b.maskAt (lineOf localAddr) &&& unitBit localAddr = 0 := by
    intro s i h hlen
    have hpassed := h.passed
    have hkept := h.kept
    rw [List.take_of_length_le hlen] at hpassed hkept
    refine ⟨⟨h.indexed, fun line => ?_⟩, fun _ hb => hb, hkept⟩
    by_cases hline : line = lineOf localAddr
    · rwa [hline]
    · exact h.others line hline
  induction fuel generalizing s i with
  | zero => exact hdone h hfuel
  | succ fuel ih =>
    simp only [invalidateFrom]
    cases hi : (s.codeMem (lineOf localAddr)).blocks[i]? with
    | none => exact hdone h (List.getElem?_eq_none_iff.mp hi)
    | some b =>
      simp only
      have hlt := (List.getElem?_eq_some_iff.mp hi).1
      split_ifs with hmask
      · refine ih (h.keep hi hmask) ?_
        rw [setCode_blocks]
        omega
      · have hblocks := invalidateBlock_codeMem s b localAddr i (lineOf localAddr)
        rw [if_pos rfl] at hblocks
        obtain ⟨hsound, hlive, hkept⟩ := ih (h.remove hi) (by
          rw [hblocks]
          change (swapRemove _ i).length ≤ _
          rw [length_swapRemove hlt]
          omega)
        refine ⟨hsound, fun c hc => ?_, hkept⟩
        have hb : s.Live b := ((h.indexed.listed _ b).mp (List.mem_of_getElem? hi)).1
        exact (((invalidateBlock_detached h.indexed hi).live h.indexed hb c).mp (hlive c hc)).1

/-- `InvalidateByAddr` leaves no block in use that has code at the address. -/
theorem invalidateByAddr_spec (hs : s.Sound) (localAddr : U32) :
    (s.invalidateByAddr localAddr).Sound ∧
      (∀ b, (s.invalidateByAddr localAddr).Live b → s.Live b) ∧
      ∀ b, (s.invalidateByAddr localAddr).Live b → ∀ mask, (lineOf localAddr, mask) ∈ b.addresses →
        mask &&& unitBit localAddr = 0 := by
  have hstart : (s.setCode (lineOf localAddr) 0).Invalidating localAddr 0 := by
    refine ⟨setCode_indexed hs.indexed _ _, ?_, fun _ hb => absurd hb List.not_mem_nil,
      fun _ hb => absurd hb List.not_mem_nil⟩
    intro line hline b hb mask hm
    rw [setCode_codeMem, if_neg hline] at hb ⊢
    exact hs.covered line b hb mask hm
  obtain ⟨hsound, hlive, hkept⟩ := hstart.run (s.codeMem (lineOf localAddr)).blocks.length (by
    rw [setCode_blocks, Nat.zero_add])
  refine ⟨hsound, hlive, fun b hb mask hm => ?_⟩
  have hlisted := (hsound.indexed.listed (lineOf localAddr) b).mpr
    ⟨hb, JitBlock.mem_lines.mpr ⟨mask, hm⟩⟩
  have hmask := hkept b hlisted
  rwa [JitBlock.maskAt_eq hm] at hmask

theorem removeDependents_sound (region line : U32) (fuel : ℕ) {i : ℕ} (hs : s.Sound) :
    (removeDependents region line fuel i s).Sound := by
  induction fuel generalizing s i with
  | zero => exact hs
  | succ fuel ih =>
    simp only [removeDependents]
    cases hi : (s.codeMem line).blocks[i]? with
    | none => exact hs
    | some b =>
      simp only
      split_ifs
      · exact ih (removeBlock_sound hs ((hs.indexed.listed _ b).mp (List.mem_of_getElem? hi)).1)
      · exact ih hs

theorem foldl_sound {α : Type*} {f : State → α → State} (hf : ∀ s a, s.Sound → (f s a).Sound)
    (l : List α) (hs : s.Sound) : (l.foldl f s).Sound := by
  induction l generalizing s with
  | nil => exact hs
  | cons a l ih => exact ih (hf s a hs)

theorem invalidateRemappedCode_sound (hs : s.Sound) (consoleType : ℕ) :
    (s.invalidateRemappedCode consoleType).Sound :=
  foldl_sound (fun _ _ hs => foldl_sound (fun _ _ hs => removeDependents_sound _ _ _ hs) _ hs) _ hs

theorem foldl_eq_self {α : Type*} {f : State → α → State} (hf : ∀ a, f s a = s) (l : List α) :
    l.foldl f s = s := by
  induction l with
  | nil => rfl
  | cons a l ih => rw [List.foldl_cons, hf, ih]

/-- With no block in use there is nothing to remove. -/
theorem invalidateRemappedCode_eq_self (hs : s.Indexed) (h : ∀ n, s.jitBlocks n = [])
    (consoleType : ℕ) : s.invalidateRemappedCode consoleType = s := by
  have hline : ∀ line, (s.codeMem line).blocks = [] := by
    intro line
    rw [List.eq_nil_iff_forall_not_mem]
    intro b hb
    have hlive := ((hs.listed line b).mp hb).1
    rw [Live, h] at hlive
    exact absurd hlive List.not_mem_nil
  unfold invalidateRemappedCode
  refine foldl_eq_self (fun region => ?_) _
  refine foldl_eq_self (fun i => ?_) _
  simp only [hline, List.length_nil]
  rfl

theorem replayWrites_sound (hs : s.Sound) : s.replayWrites.Sound := by
  refine foldl_sound (fun s addr hs => ?_) _ hs
  split_ifs
  · exact (invalidateByAddr_spec hs addr).1
  · exact hs

end State
end MelonDS.ARMJIT

import Mathlib.Data.Fintype.Basic
import MelonDS.GPU.DisplayCapture
import MelonDS.Library.MarkedCells

/-!
# The blocks of a capture stay together

The flags of a block name the capture it belongs to. Every operation writes either
one value to all blocks of one capture or, after all captures in its way were given
up, the flags of a new capture to all of its blocks.
-/

namespace MelonDS.GPU

/-- The blocks of the capture that the flags belong to. -/
def groupOf (flags : U16) : Set (Fin 4) :=
  {k | k ∈ blocksFrom (captureStart flags) (captureLen flags)}

def IsLive (flags : U16) : Prop := isCapture flags = true

/-- The flags of a bank's blocks form captures, each of as many blocks as its size says. -/
structure BankConsistent (cbflags : Fin 4 → U16) : Prop where
  grouped : Grouped IsLive groupOf cbflags
  len : ∀ b, IsLive (cbflags b) →
    captureLen (cbflags b) = blocksOfSize (blockOf (cbflags b >>> 6))

def CaptureState.Consistent (s : CaptureState) : Prop :=
  ∀ bank, BankConsistent (s.captureBlockFlags bank)

/-! ### Flag words -/

theorem captureLen_lt (flags : U16) : captureLen flags < 4 := (blockOf (flags >>> 4)).isLt

theorem blocksFrom_nodup (start : Fin 4) {len : ℕ} (h : len < 4) : (blocksFrom start len).Nodup := by
  have hall : ∀ (start len : Fin 4), (blocksFrom start len).Nodup := by decide
  exact hall start ⟨len, h⟩

theorem mem_groupOf {flags : U16} {k : Fin 4} :
    k ∈ groupOf flags ↔ k ∈ blocksFrom (captureStart flags) (captureLen flags) := Iff.rfl

/-- Marks that leave the capture the flags name as it is. -/
structure IsMark (val : U16) : Prop where
  start : val &&& 3 = 0
  len : val >>> 4 &&& 3 = 0
  size : val >>> 6 &&& 3 = 0

theorem isMark_complete : IsMark CBFlag_Complete := ⟨by decide, by decide, by decide⟩

theorem isMark_synced : IsMark CBFlag_Synced := ⟨by decide, by decide, by decide⟩

theorem blockOf_or {x val : U16} (h : val &&& 3 = 0) : blockOf (x ||| val) = blockOf x := by
  have hand : (x ||| val) &&& 3 = x &&& 3 := by
    rw [BitVec.and_or_distrib_right, h]
    exact BitVec.or_zero
  exact Fin.ext (congrArg BitVec.toNat hand : ((x ||| val) &&& 3).toNat = (x &&& 3).toNat)

theorem IsMark.groupOf {val : U16} (h : IsMark val) (flags : U16) :
    groupOf (flags ||| val) = MelonDS.GPU.groupOf flags := by
  have hlen : captureLen (flags ||| val) = captureLen flags := by
    rw [captureLen, BitVec.ushiftRight_or_distrib, blockOf_or h.len, captureLen]
  have hstart : captureStart (flags ||| val) = captureStart flags := blockOf_or h.start
  ext k
  rw [mem_groupOf, mem_groupOf, hstart, hlen]

theorem not_isLive_zero : ¬IsLive 0 := by
  rw [IsLive]
  decide

theorem newFlags_fields (bank off size : Fin 4) :
    captureStart (newFlags bank off size) = off ∧
      captureLen (newFlags bank off size) = blocksOfSize size ∧
      blockOf (newFlags bank off size >>> 6) = size := by
  have hall : ∀ bank off size : Fin 4, captureStart (newFlags bank off size) = off ∧
      captureLen (newFlags bank off size) = blocksOfSize size ∧
      blockOf (newFlags bank off size >>> 6) = size := by decide
  exact hall bank off size

/-! ### One assignment -/

theorem foldl_update_apply {blocks : List (Fin 4)} (hnodup : blocks.Nodup) (g : U16 → U16)
    (f : Fin 4 → U16) (k : Fin 4) :
    blocks.foldl (fun f b => Function.update f b (g (f b))) f k =
      if k ∈ blocks then g (f k) else f k := by
  induction blocks generalizing f with
  | nil => rfl
  | cons b blocks ih =>
    obtain ⟨hb, hrest⟩ := List.nodup_cons.mp hnodup
    rw [List.foldl_cons, ih hrest]
    by_cases hk : k = b
    · subst hk
      rw [if_neg hb, Function.update_self, if_pos List.mem_cons_self]
    · rw [Function.update_of_ne hk]
      simp only [List.mem_cons, hk, false_or]

namespace CaptureState

theorem onBlocks_apply (s : CaptureState) (bank : Fin 4) {blocks : List (Fin 4)}
    (hnodup : blocks.Nodup) (g : U16 → U16) (bank' k : Fin 4) :
    (s.onBlocks bank blocks g).captureBlockFlags bank' k =
      if bank' = bank ∧ k ∈ blocks then g (s.captureBlockFlags bank k)
      else s.captureBlockFlags bank' k := by
  simp only [onBlocks]
  by_cases hbank : bank' = bank
  · subst hbank
    rw [Function.update_self, foldl_update_apply hnodup]
    simp only [true_and]
  · rw [Function.update_of_ne hbank, if_neg fun h => hbank h.1]

/-- One value on all blocks of a list, if no capture sticks out of it. -/
theorem Consistent.onBlocks {s : CaptureState} (h : s.Consistent) {bank : Fin 4}
    {blocks : List (Fin 4)} (hnodup : blocks.Nodup) {g : U16 → U16} {v : U16}
    (hg : ∀ k ∈ blocks, g (s.captureBlockFlags bank k) = v)
    (hold : ∀ k ∈ blocks, IsLive (s.captureBlockFlags bank k) →
      groupOf (s.captureBlockFlags bank k) = {k | k ∈ blocks})
    (hnew : IsLive v → groupOf v = {k | k ∈ blocks} ∧
      captureLen v = blocksOfSize (blockOf (v >>> 6))) :
    (s.onBlocks bank blocks g).Consistent := by
  intro bank'
  by_cases hbank : bank' = bank
  · subst hbank
    have heq : (s.onBlocks bank' blocks g).captureBlockFlags bank' =
        fun k => if k ∈ {k | k ∈ blocks} then v else s.captureBlockFlags bank' k := by
      funext k
      rw [onBlocks_apply s bank' hnodup]
      by_cases hk : k ∈ blocks
      · rw [if_pos ⟨rfl, hk⟩, hg k hk]
        exact (if_pos hk).symm
      · rw [if_neg fun h => hk h.2]
        exact (if_neg hk).symm
    rw [heq]
    refine ⟨(h bank').grouped.assign hold fun hv => (hnew hv).1, fun b hb => ?_⟩
    by_cases hbS : b ∈ {k | k ∈ blocks}
    · rw [if_pos hbS] at hb ⊢
      exact (hnew hb).2
    · rw [if_neg hbS] at hb ⊢
      exact (h bank').len b hb
  · have heq : (s.onBlocks bank blocks g).captureBlockFlags bank' = s.captureBlockFlags bank' := by
      funext k
      rw [onBlocks_apply s bank hnodup, if_neg fun h => hbank h.1]
    rw [heq]
    exact h bank'

/-- A capture as a whole gets one value. -/
theorem Consistent.onCapture {s : CaptureState} (h : s.Consistent) {bank b : Fin 4}
    (hb : IsLive (s.captureBlockFlags bank b)) {g : U16 → U16}
    (hnew : IsLive (g (s.captureBlockFlags bank b)) →
      groupOf (g (s.captureBlockFlags bank b)) = groupOf (s.captureBlockFlags bank b) ∧
      captureLen (g (s.captureBlockFlags bank b)) =
        blocksOfSize (blockOf (g (s.captureBlockFlags bank b) >>> 6))) :
    (s.onBlocks bank (blocksFrom (captureStart (s.captureBlockFlags bank b))
      (captureLen (s.captureBlockFlags bank b))) g).Consistent := by
  have hsame := (h bank).grouped.same b hb
  refine h.onBlocks (blocksFrom_nodup _ (captureLen_lt _)) (v := g (s.captureBlockFlags bank b))
    (fun k hk => by rw [hsame k hk]) (fun k hk _ => ?_) hnew
  rw [hsame k hk]
  rfl

/-- The first block of a capture carries the capture's flags. -/
theorem Consistent.start {s : CaptureState} (h : s.Consistent) {bank b : Fin 4}
    (hb : IsLive (s.captureBlockFlags bank b)) :
    s.captureBlockFlags bank (captureStart (s.captureBlockFlags bank b)) =
      s.captureBlockFlags bank b := by
  refine (h bank).grouped.same b hb _ ?_
  have hlen := (h bank).len b hb
  have hpos : 0 < captureLen (s.captureBlockFlags bank b) := by
    rw [hlen, blocksOfSize]
    split_ifs with hzero
    · exact Nat.one_pos
    · exact Fin.pos_iff_ne_zero.mpr hzero
  exact List.mem_map.mpr ⟨0, List.mem_range.mpr hpos, by simp⟩

theorem Consistent.tell {s : CaptureState} (h : s.Consistent) (call : RendererCall) :
    (s.tell call).Consistent := h

theorem Consistent.vramCBFlagsClear {s : CaptureState} (h : s.Consistent) {bank b : Fin 4}
    (hb : IsLive (s.captureBlockFlags bank b)) :
    (s.vramCBFlagsClear bank (captureStart (s.captureBlockFlags bank b))).Consistent := by
  rw [CaptureState.vramCBFlagsClear]
  simp only [h.start hb]
  exact (h.tell _).onCapture hb fun hzero => absurd hzero not_isLive_zero

theorem Consistent.vramCBFlagsOr {s : CaptureState} (h : s.Consistent) {bank b : Fin 4}
    (hb : IsLive (s.captureBlockFlags bank b)) {val : U16} (hval : IsMark val) :
    (s.vramCBFlagsOr bank (captureStart (s.captureBlockFlags bank b)) val).Consistent := by
  rw [CaptureState.vramCBFlagsOr]
  simp only [h.start hb]
  refine h.onCapture hb fun _ => ⟨hval.groupOf _, ?_⟩
  have hlen := (h bank).len b hb
  rw [captureLen] at hlen ⊢
  rw [BitVec.ushiftRight_or_distrib, BitVec.ushiftRight_or_distrib, blockOf_or hval.len,
    blockOf_or hval.size, hlen]

/-! ### Operations -/

/-- Blocks whose capture, if any, is the one about to be written again. -/
def IsFree (off size : Fin 4) (flags : U16) : Prop :=
  IsLive flags → captureStart flags = off ∧ blockOf (flags >>> 6) = size

theorem vramCBFlagsClear_apply (s : CaptureState) (bank b : Fin 4) (bank' k : Fin 4) :
    (s.vramCBFlagsClear bank b).captureBlockFlags bank' k = 0 ∨
      (s.vramCBFlagsClear bank b).captureBlockFlags bank' k = s.captureBlockFlags bank' k := by
  rw [CaptureState.vramCBFlagsClear, onBlocks_apply _ _ (blocksFrom_nodup _ (captureLen_lt _))]
  split_ifs
  · exact Or.inl rfl
  · exact Or.inr rfl

theorem invalidateOld_spec {s : CaptureState} (h : s.Consistent) (bank off size b : Fin 4) :
    (invalidateOld bank off size s b).Consistent ∧
      IsFree off size ((invalidateOld bank off size s b).captureBlockFlags bank b) ∧
      ∀ k, IsFree off size (s.captureBlockFlags bank k) →
        IsFree off size ((invalidateOld bank off size s b).captureBlockFlags bank k) := by
  rw [invalidateOld]
  by_cases hb : isCapture (s.captureBlockFlags bank b) = true
  case neg =>
    rw [if_pos hb]
    exact ⟨h, fun hb' => absurd hb' hb, fun k hk => hk⟩
  rw [if_neg (not_not.mpr hb)]
  split_ifs with hsame
  · exact ⟨h, fun _ => ⟨hsame.1, Fin.ext hsame.2⟩, fun k hk => hk⟩
  · refine ⟨(h.tell _).vramCBFlagsClear hb, fun hafter => ?_, fun k hk hafter => ?_⟩
    · -- the block is one of those that were cleared
      exfalso
      rw [CaptureState.vramCBFlagsClear] at hafter
      simp only [CaptureState.tell, h.start hb] at hafter
      rw [onBlocks_apply _ _ (blocksFrom_nodup _ (captureLen_lt _)),
        if_pos ⟨rfl, (h bank).grouped.mem b hb⟩] at hafter
      exact not_isLive_zero hafter
    · rcases vramCBFlagsClear_apply _ bank _ bank k with hzero | hkeep
      · rw [hzero] at hafter
        exact absurd hafter not_isLive_zero
      · rw [hkeep] at hafter ⊢
        exact hk hafter

theorem foldl_invalidateOld {s : CaptureState} (h : s.Consistent) (bank off size : Fin 4)
    (blocks : List (Fin 4)) :
    (blocks.foldl (invalidateOld bank off size) s).Consistent ∧
      ∀ k, k ∈ blocks ∨ IsFree off size (s.captureBlockFlags bank k) →
        IsFree off size ((blocks.foldl (invalidateOld bank off size) s).captureBlockFlags bank k) := by
  induction blocks generalizing s with
  | nil => exact ⟨h, fun k hk => hk.resolve_left List.not_mem_nil⟩
  | cons b blocks ih =>
    obtain ⟨hnext, hself, hkeep⟩ := invalidateOld_spec h bank off size b
    obtain ⟨hlast, hfree⟩ := ih hnext
    refine ⟨hlast, fun k hk => hfree k ?_⟩
    rcases hk with hmem | hk
    · rcases List.mem_cons.mp hmem with rfl | hmem
      · exact Or.inr hself
      · exact Or.inl hmem
    · exact Or.inr (hkeep k hk)

theorem Consistent.checkCaptureStart {s : CaptureState} (h : s.Consistent) :
    s.checkCaptureStart.Consistent := by
  rw [CaptureState.checkCaptureStart]
  simp only
  split_ifs
  · exact h
  · obtain ⟨hold, hfree⟩ := foldl_invalidateOld h s.dstBank s.dstOff s.dstSize
      (blocksFrom s.dstOff (blocksOfSize s.dstSize))
    obtain ⟨hstart, hlen, hsize⟩ := newFlags_fields s.dstBank s.dstOff s.dstSize
    refine Consistent.tell ?_ _
    rw [vramCBFlagsSet, hlen]
    have hlt : blocksOfSize s.dstSize < 4 := hlen ▸ captureLen_lt _
    refine hold.onBlocks (blocksFrom_nodup _ hlt) (fun _ _ => rfl) (fun k hk hk' => ?_)
      (fun _ => ⟨?_, by rw [hlen, hsize]⟩)
    · obtain ⟨hoff, hsize'⟩ := hfree k (Or.inl hk) hk'
      ext j
      rw [mem_groupOf, hoff, (hold s.dstBank).len k hk', hsize']
      rfl
    · ext j
      rw [mem_groupOf, hstart, hlen]
      rfl

theorem Consistent.checkCaptureEnd {s : CaptureState} (h : s.Consistent) :
    s.checkCaptureEnd.Consistent := by
  rw [CaptureState.checkCaptureEnd]
  by_cases hb : isCapture (s.captureBlockFlags s.dstBank s.dstOff) = true
  case neg =>
    rw [if_pos hb]
    exact h
  rw [if_neg (not_not.mpr hb)]
  split_ifs with hother
  · exact h
  · have hstart : s.dstOff = captureStart (s.captureBlockFlags s.dstBank s.dstOff) :=
      not_not.mp fun hne => hother (Or.inl hne)
    have hor := h.vramCBFlagsOr hb isMark_complete
    rwa [← hstart] at hor

theorem Consistent.syncVRAMCaptureBlock {s : CaptureState} (h : s.Consistent) (bank block : Fin 4)
    (write : Bool) : (s.syncVRAMCaptureBlock bank block write).Consistent := by
  rw [CaptureState.syncVRAMCaptureBlock]
  by_cases hb : isCapture (s.captureBlockFlags bank block) = true
  case neg =>
    rw [if_pos hb]
    exact h
  rw [if_neg (not_not.mpr hb)]
  split_ifs
  · exact h.vramCBFlagsClear hb
  · exact h
  · exact (h.tell _).vramCBFlagsClear hb
  · exact (h.tell _).vramCBFlagsOr hb isMark_synced

theorem Consistent.syncAndClear {s : CaptureState} (h : s.Consistent) (bank block : Fin 4) :
    (s.syncAndClear bank block).Consistent := by
  rw [CaptureState.syncAndClear]
  by_cases hb : isCapture (s.captureBlockFlags bank block) = true
  case neg =>
    rw [if_pos hb]
    exact h
  rw [if_neg (not_not.mpr hb)]
  split_ifs
  · exact (h.tell _).vramCBFlagsClear hb
  · exact h.vramCBFlagsClear hb

theorem Consistent.foldl {β : Type} {f : CaptureState → β → CaptureState}
    (hf : ∀ s b, s.Consistent → (f s b).Consistent) (bs : List β) {s : CaptureState}
    (h : s.Consistent) : (bs.foldl f s).Consistent := by
  induction bs generalizing s with
  | nil => exact h
  | cons b bs ih => exact ih (hf s b h)

theorem Consistent.writeVRAMCNT {s : CaptureState} (h : s.Consistent) (bank : Fin 9) (cnt : U8) :
    (s.writeVRAMCNT bank cnt).Consistent := by
  simp only [CaptureState.writeVRAMCNT]
  change (if _ then _ else _ : CaptureState).Consistent
  split_ifs
  · exact Consistent.foldl (fun s b hs => hs.syncVRAMCaptureBlock _ b true) _ h
  · exact h
  · exact h

theorem Consistent.step {s : CaptureState} (h : s.Consistent) (a : Action) :
    (s.step a).Consistent := by
  cases a with
  | writeCaptureCnt val => exact h
  | checkCaptureStart => exact h.checkCaptureStart
  | checkCaptureEnd => exact h.checkCaptureEnd
  | syncVRAMCaptureBlock bank block write => exact h.syncVRAMCaptureBlock bank block write
  | syncAllVRAMCaptures =>
    exact Consistent.foldl (fun s b hs => hs.syncAndClear _ _) _ h
  | writeVRAMCNT bank cnt => exact h.writeVRAMCNT bank cnt

theorem reset_consistent : reset.Consistent := fun _ =>
  ⟨⟨fun _ hb => absurd hb not_isLive_zero, fun _ hb => absurd hb not_isLive_zero⟩,
    fun _ hb => absurd hb not_isLive_zero⟩

/-- After any sequence of captures, synchronisations and remaps, a flagged block is one of
the consecutive blocks its flags name, all of these carry the same flags, and two groups
that meet are one. -/
theorem run_grouped (actions : List Action) (bank : Fin 4) :
    let cbflags := (run actions).captureBlockFlags bank
    (∀ b, isCapture (cbflags b) →
      b ∈ blocksFrom (captureStart (cbflags b)) (captureLen (cbflags b)) ∧
      ∀ k ∈ blocksFrom (captureStart (cbflags b)) (captureLen (cbflags b)),
        isCapture (cbflags k) ∧ captureStart (cbflags k) = captureStart (cbflags b) ∧
        captureLen (cbflags k) = captureLen (cbflags b) ∧
        captureSize (cbflags k) = captureSize (cbflags b)) ∧
    ∀ b c k, isCapture (cbflags b) → isCapture (cbflags c) →
      k ∈ blocksFrom (captureStart (cbflags b)) (captureLen (cbflags b)) →
      k ∈ blocksFrom (captureStart (cbflags c)) (captureLen (cbflags c)) →
      captureStart (cbflags b) = captureStart (cbflags c) ∧
      captureLen (cbflags b) = captureLen (cbflags c) := by
  have hconsistent : (run actions).Consistent :=
    Consistent.foldl (fun s a hs => hs.step a) actions reset_consistent
  have hgrouped := (hconsistent bank).grouped
  refine ⟨fun b hb => ⟨hgrouped.mem b hb, fun k hk => ?_⟩, fun b c k hb hc hkb hkc => ?_⟩
  · rw [hgrouped.same b hb k hk]
    exact ⟨hb, rfl, rfl, rfl⟩
  · rw [hgrouped.eq_of_mem hb hc hkb hkc]
    exact ⟨rfl, rfl⟩

end CaptureState
end MelonDS.GPU

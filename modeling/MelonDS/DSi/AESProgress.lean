import MelonDS.DSi.AES
import MelonDS.Library.Trace

/-!
# Progress of the AES engine

`Update` leaves the engine waiting for input or for room in the output FIFO. Every access to a
running engine ends with it, except the write that starts an operation whose tag is not in the
input FIFO.
-/

namespace MelonDS.DSi.AES

variable (encrypt : Block → Block → Block)

/-- Blocks of either kind remain. -/
def Remaining (s : AES) : Prop := 0 < s.remBlocks ∨ 0 < s.remExtra

/-- No block can be processed: the input is short, or a payload block has no room. -/
def Waits (s : AES) : Prop :=
  s.inputFIFO.level < 4 ∨ s.remExtra = 0 ∧ 12 < s.outputFIFO.level

/-- The engine does not stall with work to do. -/
def Progress (s : AES) : Prop := s.running → s.Remaining → s.Waits

instance (s : AES) : Decidable s.Remaining := inferInstanceAs (Decidable (_ ∨ _))
instance (s : AES) : Decidable s.Waits := inferInstanceAs (Decidable (_ ∨ _ ∧ _))
instance (s : AES) : Decidable s.Progress := inferInstanceAs (Decidable (_ → _ → _))

theorem progress_of_idle {s : AES} (h : s.running = false) : s.Progress :=
  fun hrun => absurd (h.symm.trans hrun) Bool.false_ne_true

theorem running_stop (s : AES) : s.stop.running = false := by
  simp [stop, running]

/-! ## The loops -/

/-- What the registers of an operation keep while its blocks are processed. -/
structure SameControl (s r : AES) : Prop where
  cnt : r.cnt = s.cnt
  aesMode : r.aesMode = s.aesMode
  key : r.ctx.key = s.ctx.key
  mac : r.mac = s.mac
  outputMACDue : r.outputMACDue = s.outputMACDue
  outputMAC : r.outputMAC = s.outputMAC

namespace SameControl

variable {s r t : AES}

theorem refl (s : AES) : SameControl s s := ⟨rfl, rfl, rfl, rfl, rfl, rfl⟩

theorem trans (h : SameControl s r) (h' : SameControl r t) : SameControl s t :=
  ⟨h'.cnt.trans h.cnt, h'.aesMode.trans h.aesMode, h'.key.trans h.key, h'.mac.trans h.mac,
    h'.outputMACDue.trans h.outputMACDue, h'.outputMAC.trans h.outputMAC⟩

theorem running (h : SameControl s r) : r.running = s.running := by
  rw [AES.running, AES.running, h.cnt]

theorem fifoTag (h : SameControl s r) : r.fifoTag ↔ s.fifoTag := by
  rw [AES.fifoTag, AES.fifoTag, h.cnt, h.aesMode]

end SameControl

theorem processBlock_control (s : AES) : SameControl s (s.processBlock encrypt) := by
  unfold processBlock
  split_ifs
  · exact ⟨rfl, rfl, rfl, rfl, rfl, rfl⟩
  · exact ⟨rfl, rfl, rfl, rfl, rfl, rfl⟩
  · exact ⟨rfl, rfl, rfl, rfl, rfl, rfl⟩

theorem processBlock_counts (s : AES) : (s.processBlock encrypt).remExtra = s.remExtra ∧
    (s.processBlock encrypt).remBlocks = s.remBlocks := by
  unfold processBlock
  split_ifs
  · exact ⟨rfl, rfl⟩
  · exact ⟨rfl, rfl⟩
  · exact ⟨rfl, rfl⟩

/-- The extra blocks stop for lack of input only. -/
theorem extraLoop_waits (n : ℕ) (s : AES) (hn : s.remExtra = n) :
    (s.extraLoop encrypt n).remExtra = 0 ∨ (s.extraLoop encrypt n).inputFIFO.level < 4 := by
  induction n generalizing s with
  | zero => exact .inl hn
  | succ n ih =>
    unfold extraLoop
    split_ifs with hlevel
    · exact ih ((s.processBlockCCMExtra encrypt).setRemExtra n) rfl
    · exact .inr (not_le.mp hlevel)

theorem payloadLoop_control (n : ℕ) (s : AES) : SameControl s (s.payloadLoop encrypt n) ∧
    (s.payloadLoop encrypt n).remExtra = s.remExtra := by
  induction n generalizing s with
  | zero => exact ⟨.refl s, rfl⟩
  | succ n ih =>
    unfold payloadLoop
    split_ifs
    · obtain ⟨hcontrol, hextra⟩ := ih ((s.processBlock encrypt).setRemBlocks n)
      have hcount : SameControl (s.processBlock encrypt) ((s.processBlock encrypt).setRemBlocks n) :=
        ⟨rfl, rfl, rfl, rfl, rfl, rfl⟩
      exact ⟨((s.processBlock_control encrypt).trans hcount).trans hcontrol,
        hextra.trans (s.processBlock_counts encrypt).1⟩
    · exact ⟨.refl s, rfl⟩

/-- The payload stops for lack of input or of room. -/
theorem payloadLoop_waits (n : ℕ) (s : AES) (hn : s.remBlocks = n) :
    (s.payloadLoop encrypt n).remBlocks = 0 ∨ (s.payloadLoop encrypt n).inputFIFO.level < 4 ∨
      12 < (s.payloadLoop encrypt n).outputFIFO.level := by
  induction n generalizing s with
  | zero => exact .inl hn
  | succ n ih =>
    unfold payloadLoop
    split_ifs with hlevel
    · exact ih ((s.processBlock encrypt).setRemBlocks n) rfl
    · right
      omega

/-! ## Register accesses -/

/-- The blocks that `Update` processes before it looks for the end. -/
def processed (s : AES) : AES :=
  let s := s.extraLoop encrypt s.remExtra
  if s.remExtra = 0 then s.payloadLoop encrypt s.remBlocks else s

theorem processed_waits (s : AES) : (s.processed encrypt).Remaining → (s.processed encrypt).Waits := by
  have hextra := s.extraLoop_waits encrypt s.remExtra rfl
  unfold processed
  dsimp only
  split_ifs with hzero
  · have hpayload := payloadLoop_waits encrypt _ (s.extraLoop encrypt s.remExtra) rfl
    have hkept := (payloadLoop_control encrypt (s.extraLoop encrypt s.remExtra).remBlocks
      (s.extraLoop encrypt s.remExtra)).2
    unfold Remaining Waits
    omega
  · intro _
    exact .inl (hextra.resolve_left hzero)

theorem update_of_running {s : AES} (h : s.running) :
    s.update encrypt =
      if (s.processed encrypt).remBlocks = 0 ∧ (s.processed encrypt).remExtra = 0 then
        if (s.processed encrypt).fifoTag ∧ (s.processed encrypt).inputFIFO.level < 4 then
          s.processed encrypt
        else (s.processed encrypt).finish encrypt
      else s.processed encrypt := by
  rw [update, if_pos h]
  rfl

theorem update_of_idle {s : AES} (h : s.running = false) : s.update encrypt = s := by
  rw [update, if_neg (Bool.eq_false_iff.mp h)]

theorem running_finish (s : AES) : (s.finish encrypt).running = false := running_stop _

theorem update_progress (s : AES) : (s.update encrypt).Progress := by
  cases hrun : s.running with
  | false =>
    rw [update_of_idle encrypt hrun]
    exact progress_of_idle hrun
  | true =>
    rw [update_of_running encrypt hrun]
    split_ifs
    · exact fun _ => s.processed_waits encrypt
    · exact progress_of_idle (running_finish encrypt _)
    · exact fun _ => s.processed_waits encrypt

/-- The payload blocks that a start finds in `BlkCnt`. -/
def startBlocks (s : AES) : ℕ := (s.blkCnt.extractLsb' 16 16).toNat

/-- The extra blocks of a start; only CCM has them. -/
def startExtra (val : U32) (s : AES) : ℕ :=
  if (val.extractLsb' 28 2).toNat < 2 then (s.blkCnt.extractLsb' 0 16).toNat else 0

/-- The write starts an operation. -/
def Starts (val : U32) (s : AES) : Prop := s.running = false ∧ val.getLsbD 31

/-- The start has blocks to process. -/
def StartsWork (val : U32) (s : AES) : Prop := 0 < s.startBlocks ∨ 0 < s.startExtra val

/-- The operation takes its tag from the input FIFO. -/
def TagInFIFO (val : U32) : Prop := val.extractLsb' 28 2 = 0 ∧ val.getLsbD 20 = false

/-- A start that finds a block in the input FIFO and could process it, in an operation whose
tag does not come from that FIFO. -/
def StallingStart (val : U32) (s : AES) : Prop :=
  s.Starts val ∧ s.StartsWork val ∧ ¬ TagInFIFO val ∧
    4 ≤ s.inputFIFO.level ∧ (0 < s.startExtra val ∨ s.outputFIFO.level ≤ 12)

instance (val : U32) (s : AES) : Decidable (s.Starts val) := inferInstanceAs (Decidable (_ ∧ _))
instance (val : U32) (s : AES) : Decidable (s.StartsWork val) :=
  inferInstanceAs (Decidable (_ ∨ _))
instance (val : U32) : Decidable (TagInFIFO val) := inferInstanceAs (Decidable (_ ∧ _))
instance (val : U32) (s : AES) : Decidable (s.StallingStart val) :=
  inferInstanceAs (Decidable (_ ∧ _ ∧ _ ∧ _ ∧ _))

/-- The state of a start before the cipher is set up. -/
def startCounts (val : U32) (s : AES) : AES := (s.setCnt val).loadCounts

theorem getLsbD_setCnt (val : U32) (i : ℕ) (hi : (0xFC1FF000 : U32).getLsbD i) (s : AES) :
    (s.setCnt val).cnt.getLsbD i = val.getLsbD i := by
  rw [setCnt, BitVec.getLsbD_and, hi, Bool.and_true]

theorem running_setCnt (val : U32) (s : AES) : (s.setCnt val).running = val.getLsbD 31 :=
  s.getLsbD_setCnt val 31 (by decide)

theorem fifoTag_setCnt (val : U32) (s : AES) : (s.setCnt val).fifoTag ↔ TagInFIFO val := by
  rw [fifoTag, TagInFIFO, s.getLsbD_setCnt val 20 (by decide)]
  rfl

theorem writeCnt_of_starts {val : U32} {s : AES} (h : s.Starts val) :
    s.writeCnt encrypt val =
      if s.StartsWork val then
        if TagInFIFO val then ((s.startCounts val).initCtx encrypt val).update encrypt
        else (s.startCounts val).initCtx encrypt val
      else (s.startCounts val).stop := by
  have hinit : ∀ t : AES, (t.initCtx encrypt val).fifoTag ↔ t.fifoTag := by
    intro t
    unfold initCtx
    split_ifs
    · exact Iff.rfl
    · exact Iff.rfl
  rw [writeCnt, if_pos ⟨Bool.eq_false_iff.mp h.1, h.2⟩, start]
  simp only [hinit]
  have htag : (s.setCnt val).loadCounts.fifoTag ↔ TagInFIFO val := s.fifoTag_setCnt val
  simp only [htag]
  rfl

theorem writeCnt_of_not_starts {val : U32} {s : AES} (h : ¬ s.Starts val) :
    s.writeCnt encrypt val = s.setCnt val := by
  rw [writeCnt, if_neg]
  rwa [Starts, ← Bool.not_eq_true] at h

theorem initCtx_counts (val : U32) (s : AES) :
    (s.initCtx encrypt val).cnt = s.cnt ∧
      ((s.initCtx encrypt val).Remaining ↔ s.Remaining) ∧
      ((s.initCtx encrypt val).Waits ↔ s.Waits) := by
  unfold initCtx
  split_ifs
  · exact ⟨rfl, Iff.rfl, Iff.rfl⟩
  · exact ⟨rfl, Iff.rfl, Iff.rfl⟩

/-- A start makes progress unless it stalls. -/
theorem start_progress {val : U32} {s : AES} (h : s.Starts val) :
    (s.writeCnt encrypt val).Progress ↔ ¬ s.StallingStart val := by
  rw [writeCnt_of_starts encrypt h]
  by_cases hwork : s.StartsWork val
  · rw [if_pos hwork]
    by_cases htag : TagInFIFO val
    · rw [if_pos htag]
      exact iff_of_true (update_progress encrypt _) fun hstall => hstall.2.2.1 htag
    · obtain ⟨hcnt, hremaining, hwaits⟩ := initCtx_counts encrypt val (s.startCounts val)
      have hrun : ((s.startCounts val).initCtx encrypt val).running = true := by
        rw [running, hcnt]
        exact (s.running_setCnt val).trans h.2
      have hwork' : (s.startCounts val).Remaining := hwork
      have hextra : (s.startCounts val).remExtra = s.startExtra val := rfl
      rw [if_neg htag, Progress, hremaining, hwaits, StallingStart, Waits, hextra]
      change (_ → _ → s.inputFIFO.level < 4 ∨ s.startExtra val = 0 ∧ 12 < s.outputFIFO.level) ↔ _
      constructor
      · intro hprogress hstall
        have := hprogress hrun hwork'
        omega
      · intro hno _ _
        have : ¬ (4 ≤ s.inputFIFO.level ∧ (0 < s.startExtra val ∨ s.outputFIFO.level ≤ 12)) :=
          fun hboth => hno ⟨h, hwork, htag, hboth⟩
        omega
  · rw [if_neg hwork]
    exact iff_of_true (progress_of_idle (running_stop _)) fun hstall => hwork hstall.2.1

theorem checkInputDMA_progress {s : AES} (h : ¬ s.Remaining → s.Progress) :
    (s.checkInputDMA encrypt).Progress := by
  unfold checkInputDMA
  split_ifs with hrun hdone
  · refine h fun hremaining => ?_
    have := hdone.1
    have := hdone.2.1
    unfold Remaining at hremaining
    omega
  · exact s.update_progress encrypt
  · exact progress_of_idle (Bool.eq_false_iff.mpr hrun)

theorem flushMAC_running (s : AES) : s.flushMAC.running = s.running := by
  unfold flushMAC
  split_ifs
  · rfl
  · rfl

theorem not_remaining_progress {s : AES} (h : ¬ s.Remaining) : s.Progress :=
  fun _ hremaining => absurd hremaining h

/-- The only access that can stall the engine is a start. -/
theorem step_progress {s : AES} (h : s.Progress) (call : Call)
    (hstart : ∀ val, call = .writeCnt val → ¬ s.StallingStart val) :
    (s.step encrypt call).Progress := by
  cases call with
  | writeCnt val =>
    by_cases hs : s.Starts val
    · exact (start_progress encrypt hs).mpr (hstart val rfl)
    · change (s.writeCnt encrypt val).Progress
      rw [writeCnt_of_not_starts encrypt hs]
      intro hrun
      rw [running_setCnt] at hrun
      cases hidle : s.running with
      | false => exact absurd ⟨hidle, hrun⟩ hs
      | true => exact h hidle
  | writeInputFIFO val =>
    change (s.writeInputFIFO encrypt val).Progress
    unfold writeInputFIFO
    dsimp only
    split_ifs with hrun
    · exact update_progress encrypt _
    · exact progress_of_idle (Bool.eq_false_iff.mpr hrun)
  | readOutputFIFO =>
    change (s.readOutputFIFO encrypt).2.Progress
    unfold readOutputFIFO
    dsimp only
    split_ifs with hrun
    · exact checkInputDMA_progress encrypt not_remaining_progress
    · exact progress_of_idle ((flushMAC_running _).trans (Bool.eq_false_iff.mpr hrun))
  | checkInputDMA => exact checkInputDMA_progress encrypt fun _ => h
  | writeBlkCnt val => exact h
  | writeIV offset val mask => exact h
  | writeMAC offset val mask => exact h
  | writeKeyNormal slot offset val mask => exact h
  | writeKeyX slot offset val mask => exact h
  | writeKeyY slot offset val mask => exact h

/-- A call of `WriteCnt` that stalls the engine. -/
def Call.Stalls (s : AES) : Call → Prop
  | .writeCnt val => s.StallingStart val
  | _ => False

/-- The engine never stalls with work to do exactly when no start finds a block waiting that
it could process at once. -/
theorem never_stalls_iff (consoleid : U64) (bios : Block) (ctx : Ctx) (calls : List Call) :
    (∀ p ∈ trace (step encrypt) (reset consoleid bios ctx) calls,
        (step encrypt p.1 p.2).Progress) ↔
      ∀ p ∈ trace (step encrypt) (reset consoleid bios ctx) calls, ¬ p.2.Stalls p.1 := by
  constructor
  · intro hprogress p hp hstall
    cases hcall : p.2 with
    | writeCnt val =>
      rw [hcall] at hstall
      have hafter := hprogress p hp
      rw [hcall] at hafter
      exact (start_progress encrypt hstall.1).mp hafter hstall
    | _ =>
      rw [hcall] at hstall
      exact hstall
  · intro hno p hp
    have hkeep : ∀ (s : AES) (call : Call), s.Progress → ¬ call.Stalls s →
        (s.step encrypt call).Progress := by
      intro s call hs hcall
      refine step_progress encrypt hs call ?_
      rintro val rfl
      exact hcall
    have hreset : (reset consoleid bios ctx).Progress :=
      progress_of_idle (by simp [running, reset])
    have hfound := trace_invariant hkeep hreset hno p hp
    exact hkeep p.1 p.2 hfound.1 hfound.2

/-- A block written before a start in counter mode waits for another access. -/
theorem counterMode_start_stalls :
    ¬ ∀ (encrypt : Block → Block → Block) (consoleid : U64) (bios : Block) (ctx : Ctx)
      (calls : List Call), ∀ p ∈ trace (step encrypt) (reset consoleid bios ctx) calls,
        (step encrypt p.1 p.2).Progress := by
  intro h
  have hall := h (fun _ b => b) 0 Block.zero ⟨Block.zero, Block.zero⟩
    [.writeBlkCnt 0x10000, .writeInputFIFO 1, .writeInputFIFO 2, .writeInputFIFO 3,
      .writeInputFIFO 4, .writeCnt 0xA0000000]
  revert hall
  decide +kernel

end MelonDS.DSi.AES

import MelonDS.DSi.AESBlocks
import MelonDS.DSi.AESProgress
import MelonDS.Library.CounterMode

/-!
# The words of an AES operation

An operation takes extra blocks, payload blocks and perhaps a tag from the input FIFO, in this
order, and gives the payload in counter mode, followed by the MAC when it encrypts with CCM.
The invariant names the blocks taken so far; a step lemma for each access carries it through
a run.
-/

namespace MelonDS.DSi

/-! ## Operations -/

/-- What a start fixes for its operation. -/
structure Operation where
  mode : BitVec 2
  extra : ℕ
  blocks : ℕ
  macRegister : Bool
  maclen : BitVec 3
  key : Block
  counter : Block
  header : Block
  mac : Block
  blocks_lt : blocks < 0x10000
  counter_ccm : mode.toNat < 2 → ∃ iv : Block, counter = iv.ccmCounter

namespace Operation

variable (encrypt : Block → Block → Block) (op : Operation)

def ccm : Prop := op.mode.toNat < 2

/-- The tag comes through the input FIFO. -/
def fifoTag : Prop := op.mode = 0 ∧ op.macRegister = false

instance : Decidable op.ccm := inferInstanceAs (Decidable (_ < _))
instance : Decidable op.fifoTag := inferInstanceAs (Decidable (_ ∧ _))

/-- The payload in counter mode, as it leaves the engine in every mode. -/
def transform (payload : List Block) : List Block :=
  counterMode (encrypt op.key) Block.increment Block.xor op.counter payload

/-- The blocks that the MAC covers after the extra ones: the decrypted payload. -/
def plain (payload : List Block) : List Block :=
  if op.mode = 0 then op.transform encrypt payload else payload

variable {encrypt} in
theorem transform_concat (payload : List Block) (b : Block) :
    op.transform encrypt (payload ++ [b]) = op.transform encrypt payload ++
      [b.xor (encrypt op.key (Block.increment^[payload.length] op.counter))] :=
  counterMode_concat op.counter payload b

def cbc (extra payload : List Block) : Block :=
  chain (encrypt op.key) Block.xor (encrypt op.key op.header) (extra ++ op.plain encrypt payload)

def tagLength : ℕ := if op.maclen.toNat * 2 + 2 < 4 then 4 else op.maclen.toNat * 2 + 2

/-- The MAC of the operation, in the byte order of the cipher. -/
def tag (extra payload : List Block) : Block :=
  ((op.cbc encrypt extra payload).xor
    (encrypt op.key (op.counter.setCounter 0 0 0))).truncate op.tagLength

/-- The words that follow the payload. -/
def macWords (extra payload : List Block) : List U32 :=
  if op.mode = 1 then stream [op.tag encrypt extra payload] else []

/-- The tag that a decryption is given. -/
def suppliedTag (tag : List Block) : List Block :=
  if op.fifoTag then tag else [op.mac.bswap128]

end Operation

namespace AES

/-- Four words leave the input FIFO as one block. -/
theorem readBlock_contents {s : AES} (h : 4 ≤ s.inputFIFO.level) :
    s.inputFIFO.contents = s.readBlock.1.words ++ s.readBlock.2.inputFIFO.contents := by
  rw [FIFO.level_eq_length] at h
  match hc : s.inputFIFO.contents with
  | w0 :: w1 :: w2 :: w3 :: rest =>
    obtain ⟨h0, hc⟩ := s.inputFIFO.read_of_contents_cons hc
    obtain ⟨h1, hc⟩ := s.inputFIFO.read.2.read_of_contents_cons hc
    obtain ⟨h2, hc⟩ := s.inputFIFO.read.2.read.2.read_of_contents_cons hc
    obtain ⟨h3, hc⟩ := s.inputFIFO.read.2.read.2.read.2.read_of_contents_cons hc
    have hblock : s.readBlock.1.words = [w0, w1, w2, w3] := by
      rw [← h0, ← h1, ← h2, ← h3]
      exact Block.words_ofWords _
    have hrest : s.readBlock.2.inputFIFO.contents = rest := hc
    rw [hblock, hrest]
    rfl
  | [] | [_] | [_, _] | [_, _, _] =>
    rw [hc] at h
    exact absurd h (by simp)

theorem writeBlock_contents {s : AES} (h : s.outputFIFO.level ≤ 12) (data : Block) :
    (s.writeBlock data).outputFIFO.contents = s.outputFIFO.contents ++ data.words := by
  rw [FIFO.level_eq_length] at h
  refine s.outputFIFO.write_all data.words ?_
  rw [Block.length_words]
  omega

/-- The operation that a write to `Cnt` starts. -/
def operation (val : U32) (s : AES) : Operation where
  mode := val.extractLsb' 28 2
  extra := s.startExtra val
  blocks := s.startBlocks
  macRegister := val.getLsbD 20
  maclen := val.extractLsb' 16 3
  key := (s.setCnt val).curKey.bswap128
  counter := if (val.extractLsb' 28 2).toNat < 2 then s.iv.bswap128.ccmCounter else s.iv.bswap128
  header := (s.startCounts val).ccmHeader val
  mac := s.mac
  blocks_lt := (s.blkCnt.extractLsb' 16 16).isLt
  counter_ccm h := ⟨s.iv.bswap128, if_pos h⟩

/-- The MAC words that wait for room in the output FIFO. -/
def parked (s : AES) : List U32 := if s.outputMACDue then s.outputMAC.words else []

variable (encrypt : Block → Block → Block)

/-- The operation is under way: `ins` have been supplied and `got` read, and `left` were in the
output FIFO before. -/
structure Processing (op : Operation) (left ins got : List U32) (extra payload : List Block)
    (s : AES) : Prop where
  running : s.running
  mode : s.aesMode = op.mode
  macRegister : s.cnt.getLsbD 20 = op.macRegister
  maclen : s.cnt.extractLsb' 16 3 = op.maclen
  extra_count : extra.length + s.remExtra = op.extra
  blocks_count : payload.length + s.remBlocks = op.blocks
  ordered : 0 < s.remExtra → payload = []
  key : s.ctx.key = op.key
  counter : s.ctx.iv = Block.increment^[payload.length] op.counter
  cbc : op.ccm → s.curMAC = op.cbc encrypt extra payload
  mac : op.mode = 0 → ¬ op.fifoTag → s.mac = op.mac
  due : s.outputMACDue = false
  input : ins = stream (extra ++ payload) ++ s.inputFIFO.contents
  output : got ++ s.outputFIFO.contents = left ++ stream (op.transform encrypt payload)

/-- The operation is over. -/
structure Finished (op : Operation) (left ins got : List U32) (extra payload tag : List Block)
    (s : AES) : Prop where
  idle : s.running = false
  extra_count : extra.length = op.extra
  blocks_count : payload.length = op.blocks
  tag_count : tag.length = if op.fifoTag then 1 else 0
  input : ins = stream (extra ++ payload ++ tag) ++ s.inputFIFO.contents
  output : got ++ s.outputFIFO.contents ++ s.parked =
    left ++ stream (op.transform encrypt payload) ++ op.macWords encrypt extra payload
  verified : op.mode = 0 →
    (s.cnt.getLsbD 21 ↔ op.suppliedTag tag = [op.tag encrypt extra payload])
  waiting : s.outputMACDue → 12 < s.outputFIFO.level

/-- The engine has an operation under way or over. -/
def Operates (op : Operation) (left ins got : List U32) (s : AES) : Prop :=
  (∃ extra payload, s.Processing encrypt op left ins got extra payload) ∨
    ∃ extra payload tag, s.Finished encrypt op left ins got extra payload tag

variable {encrypt} {op : Operation} {left ins got : List U32} {extra payload tag : List Block}
  {s : AES}

/-! ## One block -/

theorem Processing.extraBlock (h : s.Processing encrypt op left ins got extra payload) {n : ℕ}
    (hn : s.remExtra = n + 1) (hlevel : 4 ≤ s.inputFIFO.level) :
    ((s.processBlockCCMExtra encrypt).setRemExtra n).Processing encrypt op left ins got
      (extra ++ [s.readBlock.1.bswap128]) payload := by
  have hpayload : payload = [] := h.ordered (by omega)
  subst hpayload
  have hinput : s.inputFIFO.contents = s.readBlock.1.words ++ s.readBlock.2.inputFIFO.contents :=
    readBlock_contents hlevel
  exact
    { running := h.running
      mode := h.mode
      macRegister := h.macRegister
      maclen := h.maclen
      extra_count := by
        have hcount := h.extra_count
        rw [List.length_append, List.length_singleton]
        change extra.length + 1 + n = op.extra
        omega
      blocks_count := h.blocks_count
      ordered := fun _ => rfl
      key := h.key
      counter := h.counter
      cbc := by
        intro hccm
        have hplain : op.plain encrypt [] = [] := by
          unfold Operation.plain
          split_ifs
          · rfl
          · rfl
        have hcbc := h.cbc hccm
        rw [Operation.cbc, hplain, List.append_nil] at hcbc ⊢
        rw [chain_concat, ← hcbc, ← h.key]
        rfl
      mac := h.mac
      due := h.due
      input := by
        rw [h.input, hinput, List.append_nil, List.append_nil, stream_append, stream_singleton,
          Block.bswap128_bswap128, List.append_assoc]
        rfl
      output := h.output }

/-- A payload block leaves the engine in counter mode, whatever the mode; the modes differ in
what enters the MAC. -/
theorem processBlock_fields (encrypt : Block → Block → Block) (s : AES) :
    (s.processBlock encrypt).inputFIFO = s.readBlock.2.inputFIFO ∧
      (s.processBlock encrypt).outputFIFO =
        (s.writeBlock (s.readBlock.1.bswap128.xor
          (encrypt s.ctx.key s.ctx.iv)).bswap128).outputFIFO ∧
      (s.processBlock encrypt).ctx = { key := s.ctx.key, iv := s.ctx.iv.increment } ∧
      (s.aesMode = 0 → (s.processBlock encrypt).curMAC = encrypt s.ctx.key
        (s.curMAC.xor (s.readBlock.1.bswap128.xor (encrypt s.ctx.key s.ctx.iv)))) ∧
      (s.aesMode = 1 → (s.processBlock encrypt).curMAC =
        encrypt s.ctx.key (s.curMAC.xor s.readBlock.1.bswap128)) := by
  unfold processBlock
  split_ifs with hzero hone
  · exact ⟨rfl, rfl, rfl, fun _ => rfl, fun hone => absurd (hzero.symm.trans hone) (by decide)⟩
  · exact ⟨rfl, rfl, rfl, fun hzero' => absurd hzero' hzero, fun _ => rfl⟩
  · exact ⟨rfl, rfl, rfl, fun hzero' => absurd hzero' hzero, fun hone' => absurd hone' hone⟩

theorem ccm_iff (mode : BitVec 2) : mode.toNat < 2 ↔ mode = 0 ∨ mode = 1 := by
  revert mode
  decide

theorem Processing.payloadBlock (h : s.Processing encrypt op left ins got extra payload) {n : ℕ}
    (hextra : s.remExtra = 0) (hn : s.remBlocks = n + 1) (hlevel : 4 ≤ s.inputFIFO.level)
    (hroom : s.outputFIFO.level ≤ 12) :
    ((s.processBlock encrypt).setRemBlocks n).Processing encrypt op left ins got extra
      (payload ++ [s.readBlock.1.bswap128]) := by
  obtain ⟨hinputFIFO, houtputFIFO, hctx, hzero, hone⟩ := s.processBlock_fields encrypt
  have hcontrol := s.processBlock_control encrypt
  have hcounts := s.processBlock_counts encrypt
  have hinput := readBlock_contents hlevel
  have houtput := writeBlock_contents hroom
    (s.readBlock.1.bswap128.xor (encrypt s.ctx.key s.ctx.iv)).bswap128
  have hblock : s.readBlock.1.bswap128.xor (encrypt s.ctx.key s.ctx.iv) =
      s.readBlock.1.bswap128.xor
        (encrypt op.key (Block.increment^[payload.length] op.counter)) := by
    rw [h.key, h.counter]
  exact
    { running := hcontrol.running.trans h.running
      mode := hcontrol.aesMode.trans h.mode
      macRegister := (congrArg (BitVec.getLsbD · 20) hcontrol.cnt).trans h.macRegister
      maclen := (congrArg (BitVec.extractLsb' 16 3) hcontrol.cnt).trans h.maclen
      extra_count := by
        change extra.length + (s.processBlock encrypt).remExtra = op.extra
        rw [hcounts.1]
        exact h.extra_count
      blocks_count := by
        have hcount := h.blocks_count
        rw [List.length_append, List.length_singleton]
        change payload.length + 1 + n = op.blocks
        omega
      ordered := by
        intro hpos
        change 0 < (s.processBlock encrypt).remExtra at hpos
        rw [hcounts.1, hextra] at hpos
        exact absurd hpos (Nat.lt_irrefl 0)
      key := hcontrol.key.trans h.key
      counter := by
        change (s.processBlock encrypt).ctx.iv = _
        rw [hctx, List.length_append, List.length_singleton, Function.iterate_succ_apply',
          ← h.counter]
      cbc := by
        intro hccm
        change (s.processBlock encrypt).curMAC = _
        have hcbc := h.cbc hccm
        rcases (ccm_iff op.mode).mp hccm with hmode | hmode
        · rw [hzero (h.mode.trans hmode), hblock, hcbc, h.key]
          simp only [Operation.cbc, Operation.plain, if_pos hmode, Operation.transform_concat]
          rw [← List.append_assoc, chain_concat]
        · have hne : ¬ op.mode = 0 := by
            rw [hmode]
            decide
          rw [hone (h.mode.trans hmode), hcbc, h.key]
          simp only [Operation.cbc, Operation.plain, if_neg hne]
          rw [← List.append_assoc, chain_concat]
      mac := fun hmode htag => hcontrol.mac.trans (h.mac hmode htag)
      due := hcontrol.outputMACDue.trans h.due
      input := by
        change ins = _ ++ (s.processBlock encrypt).inputFIFO.contents
        rw [h.input, hinput, hinputFIFO, ← List.append_assoc extra, stream_append (extra ++ payload),
          stream_singleton, Block.bswap128_bswap128, List.append_assoc]
      output := by
        change got ++ (s.processBlock encrypt).outputFIFO.contents = _
        rw [houtputFIFO, houtput, ← List.append_assoc, h.output, hblock,
          Operation.transform_concat, stream_append, stream_singleton, List.append_assoc] }

/-! ## Update -/

theorem Processing.extraLoop (h : s.Processing encrypt op left ins got extra payload) (n : ℕ)
    (hn : s.remExtra = n) : ∃ extra',
      (s.extraLoop encrypt n).Processing encrypt op left ins got extra' payload := by
  induction n generalizing s extra with
  | zero => exact ⟨extra, h⟩
  | succ n ih =>
    unfold AES.extraLoop
    split_ifs with hlevel
    · exact ih (h.extraBlock hn hlevel) rfl
    · exact ⟨extra, h⟩

theorem Processing.payloadLoop (h : s.Processing encrypt op left ins got extra payload) (n : ℕ)
    (hn : s.remBlocks = n) (hextra : s.remExtra = 0) : ∃ payload',
      (s.payloadLoop encrypt n).Processing encrypt op left ins got extra payload' := by
  induction n generalizing s payload with
  | zero => exact ⟨payload, h⟩
  | succ n ih =>
    unfold AES.payloadLoop
    split_ifs with hlevel
    · exact ih (h.payloadBlock hextra hn hlevel.1 hlevel.2) rfl
        ((s.processBlock_counts encrypt).1.trans hextra)
    · exact ⟨payload, h⟩

theorem Processing.processed (h : s.Processing encrypt op left ins got extra payload) :
    ∃ extra' payload',
      (s.processed encrypt).Processing encrypt op left ins got extra' payload' := by
  obtain ⟨extra', h'⟩ := h.extraLoop s.remExtra rfl
  unfold AES.processed
  dsimp only
  split_ifs with hzero
  · obtain ⟨payload', h''⟩ := h'.payloadLoop _ rfl hzero
    exact ⟨extra', payload', h''⟩
  · exact ⟨extra', payload, h'⟩

/-! ## The end of an operation -/

theorem verified_stop (verified : Bool) (s : AES) :
    (s.setVerified verified).stop.cnt.getLsbD 21 = verified := by
  cases verified with
  | false => simp [setVerified, stop]
  | true => simp [setVerified, stop]

/-- The comparison runs over the MAC in reversed byte order. -/
theorem verify_iff (tag : Block) (s : AES) :
    (s.verify tag).stop.cnt.getLsbD 21 ↔ tag.bswap128 = s.curMAC := by
  rw [verify, verified_stop, decide_eq_true_iff]
  constructor
  · intro h
    funext i
    have hi := h i.rev
    rw [Fin.rev_rev] at hi
    exact hi.symm
  · rintro h i
    rw [← h, Block.bswap128, Fin.rev_rev]

theorem Processing.finishMAC_eq (h : s.Processing encrypt op left ins got extra payload)
    (hblocks : s.remBlocks = 0) (hccm : op.ccm) :
    (s.finishMAC encrypt).curMAC = op.tag encrypt extra payload := by
  have hlength : payload.length < 0x10000 := by
    have hcount := h.blocks_count
    have hlt := op.blocks_lt
    omega
  obtain ⟨iv, hiv⟩ := op.counter_ccm hccm
  have hcounter : s.ctx.iv.setCounter 0 0 0 = op.counter.setCounter 0 0 0 := by
    rw [h.counter, hiv]
    exact Block.setCounter_iterate iv hlength
  have hmac : (s.finishMAC encrypt).curMAC =
      (s.curMAC.xor (encrypt s.ctx.key (s.ctx.iv.setCounter 0 0 0))).truncate
        (if (s.cnt.extractLsb' 16 3).toNat * 2 + 2 < 4 then 4
          else (s.cnt.extractLsb' 16 3).toNat * 2 + 2) := rfl
  rw [hmac, hcounter, h.key, h.cbc hccm, h.maclen]
  rfl

theorem finish_of_ccm {s : AES} (hccm : s.ccm) : s.finish encrypt =
    (if s.aesMode = 0 then
      if s.fifoTag then
        (s.finishMAC encrypt).readBlock.2.verify (s.finishMAC encrypt).readBlock.1
      else (s.finishMAC encrypt).verify s.mac
    else (s.finishMAC encrypt).emitMAC.setVerified false).stop := by
  rw [finish, if_pos hccm, useMAC]
  have hone : ¬ s.aesMode = 0 → s.aesMode = 1 := ((ccm_iff s.aesMode).mp hccm).resolve_left
  change (if s.aesMode = 0 then if s.fifoTag then _ else (s.finishMAC encrypt).verify s.mac
    else if s.aesMode = 1 then _ else _).stop = _
  by_cases hzero : s.aesMode = 0
  · rw [if_pos hzero, if_pos hzero]
  · rw [if_neg hzero, if_neg hzero, if_pos (hone hzero)]

theorem emitMAC_contents (s : AES) (hdue : s.outputMACDue = false) :
    s.emitMAC.outputFIFO.contents ++ s.emitMAC.parked =
      s.outputFIFO.contents ++ s.curMAC.bswap128.words := by
  unfold emitMAC
  dsimp only
  split_ifs with hroom
  · have hwrite := writeBlock_contents (s := { s with outputMAC := s.curMAC.bswap128 }) hroom
      s.curMAC.bswap128
    have hparked : AES.parked (writeBlock s.curMAC.bswap128
        { s with outputMAC := s.curMAC.bswap128 }) = [] := by
      change (if s.outputMACDue then _ else _) = _
      rw [hdue]
      rfl
    rw [hparked, List.append_nil]
    exact hwrite
  · rfl

theorem emitMAC_waiting {s : AES} (hdue : s.outputMACDue = false) :
    s.emitMAC.outputMACDue → 12 < s.emitMAC.outputFIFO.level := by
  unfold emitMAC
  dsimp only
  split_ifs with hroom
  · exact fun h => absurd (hdue.symm.trans h) Bool.false_ne_true
  · exact fun _ => not_le.mp hroom

theorem Processing.fifoTag_iff (h : s.Processing encrypt op left ins got extra payload) :
    s.fifoTag ↔ op.fifoTag := by
  rw [AES.fifoTag, Operation.fifoTag, h.mode, h.macRegister]

theorem Processing.parked (h : s.Processing encrypt op left ins got extra payload) :
    s.parked = [] := by
  rw [AES.parked, h.due]
  rfl

theorem Processing.finish (h : s.Processing encrypt op left ins got extra payload)
    (hblocks : s.remBlocks = 0) (hextra : s.remExtra = 0)
    (htag : s.fifoTag → 4 ≤ s.inputFIFO.level) :
    ∃ tag, (s.finish encrypt).Finished encrypt op left ins got extra payload tag := by
  have hextra_count : extra.length = op.extra := by
    have := h.extra_count
    omega
  have hblocks_count : payload.length = op.blocks := by
    have := h.blocks_count
    omega
  have hparked := h.parked
  by_cases hccm : op.ccm
  · have hmac := h.finishMAC_eq hblocks hccm
    have hccm' : s.ccm := by
      rw [AES.ccm, h.mode]
      exact hccm
    rw [finish_of_ccm hccm']
    rcases (ccm_iff op.mode).mp hccm with hmode | hmode
    · have hwords : op.macWords encrypt extra payload = [] := by
        rw [Operation.macWords, if_neg (by rw [hmode]; decide)]
      have houtput : got ++ s.outputFIFO.contents ++ s.parked =
          left ++ stream (op.transform encrypt payload) ++ op.macWords encrypt extra payload := by
        rw [hparked, List.append_nil, hwords, List.append_nil, h.output]
      rw [if_pos (h.mode.trans hmode)]
      by_cases htag' : s.fifoTag
      · have hread : s.inputFIFO.contents = (s.finishMAC encrypt).readBlock.1.words ++
            (s.finishMAC encrypt).readBlock.2.inputFIFO.contents :=
          readBlock_contents (s := s.finishMAC encrypt) (htag htag')
        have hop := h.fifoTag_iff.mp htag'
        rw [if_pos htag']
        exact ⟨[(s.finishMAC encrypt).readBlock.1.bswap128],
          { idle := running_stop _
            extra_count := hextra_count
            blocks_count := hblocks_count
            tag_count := (if_pos hop).symm
            input := by
              rw [h.input, hread, stream_append (extra ++ payload), stream_singleton,
                Block.bswap128_bswap128, List.append_assoc]
              rfl
            output := houtput
            verified := by
              intro _
              rw [Operation.suppliedTag, if_pos hop, List.cons.injEq, verify_iff, ← hmac]
              exact (and_iff_left rfl).symm
            waiting := fun hdue => absurd (h.due.symm.trans hdue) Bool.false_ne_true }⟩
      · have hop : ¬ op.fifoTag := fun hop => htag' (h.fifoTag_iff.mpr hop)
        rw [if_neg htag']
        exact ⟨[],
          { idle := running_stop _
            extra_count := hextra_count
            blocks_count := hblocks_count
            tag_count := (if_neg hop).symm
            input := by
              rw [List.append_nil]
              exact h.input
            output := houtput
            verified := by
              intro _
              rw [Operation.suppliedTag, if_neg hop, List.cons.injEq, verify_iff, ← hmac,
                h.mac hmode hop]
              exact (and_iff_left rfl).symm
            waiting := fun hdue => absurd (h.due.symm.trans hdue) Bool.false_ne_true }⟩
    · have hne : ¬ op.mode = 0 := by
        rw [hmode]
        decide
      have hop : ¬ op.fifoTag := fun hop => hne hop.1
      rw [if_neg (by rw [h.mode]; exact hne)]
      exact ⟨[],
        { idle := running_stop _
          extra_count := hextra_count
          blocks_count := hblocks_count
          tag_count := (if_neg hop).symm
          input := by
            rw [List.append_nil]
            have hkept : ((s.finishMAC encrypt).emitMAC.setVerified false).stop.inputFIFO =
                s.inputFIFO := by
              change (s.finishMAC encrypt).emitMAC.inputFIFO = s.inputFIFO
              unfold emitMAC
              dsimp only
              split_ifs
              · rfl
              · rfl
            rw [hkept]
            exact h.input
          output := by
            have hemit := emitMAC_contents (s.finishMAC encrypt) h.due
            change got ++ (s.finishMAC encrypt).emitMAC.outputFIFO.contents ++
              (s.finishMAC encrypt).emitMAC.parked = _
            rw [List.append_assoc, hemit, ← List.append_assoc, Operation.macWords, if_pos hmode,
              stream_singleton, hmac]
            exact congrArg (· ++ _) h.output
          verified := fun hzero => absurd hzero hne
          waiting := emitMAC_waiting (s := s.finishMAC encrypt) h.due }⟩
  · have hccm' : ¬ s.ccm := by
      rw [AES.ccm, h.mode]
      exact hccm
    have hzero : ¬ op.mode = 0 := fun hzero => hccm ((ccm_iff op.mode).mpr (.inl hzero))
    have hone : ¬ op.mode = 1 := fun hone => hccm ((ccm_iff op.mode).mpr (.inr hone))
    have hop : ¬ op.fifoTag := fun hop => hzero hop.1
    have hfinish : s.finish encrypt = (s.setVerified false).stop := by
      rw [AES.finish, if_neg hccm', useMAC, if_neg (by rw [h.mode]; exact hzero),
        if_neg (by rw [h.mode]; exact hone)]
    rw [hfinish]
    exact ⟨[],
      { idle := running_stop _
        extra_count := hextra_count
        blocks_count := hblocks_count
        tag_count := (if_neg hop).symm
        input := by
          rw [List.append_nil]
          exact h.input
        output := by
          change got ++ s.outputFIFO.contents ++ s.parked = _
          rw [hparked, List.append_nil, Operation.macWords, if_neg hone, List.append_nil, h.output]
        verified := fun hzero' => absurd hzero' hzero
        waiting := fun hdue => absurd (h.due.symm.trans hdue) Bool.false_ne_true }⟩

theorem Processing.update (h : s.Processing encrypt op left ins got extra payload) :
    (s.update encrypt).Operates encrypt op left ins got := by
  obtain ⟨extra', payload', h'⟩ := h.processed
  rw [update_of_running encrypt h.running]
  split_ifs with hdone htag
  · exact .inl ⟨extra', payload', h'⟩
  · obtain ⟨tag, hfinished⟩ := h'.finish hdone.1 hdone.2
      fun htag' => not_lt.mp fun hlevel => htag ⟨htag', hlevel⟩
    exact .inr ⟨extra', payload', tag, hfinished⟩
  · exact .inl ⟨extra', payload', h'⟩

/-! ## Accesses during an operation -/

/-- The word that a call brings to the input FIFO. -/
def Call.supplied : Call → List U32
  | .writeInputFIFO val => [val]
  | _ => []

/-- The word that a call takes from the output FIFO. -/
def Call.taken (encrypt : Block → Block → Block) (s : AES) : Call → List U32
  | .readOutputFIFO => [(s.readOutputFIFO encrypt).1]
  | _ => []

/-- The accesses of one operation: FIFO writes while there is room, FIFO reads while there are
words, and register writes that do not change its mode, its MAC or the tag it compares with. -/
def Call.Within (op : Operation) (s : AES) : Call → Prop
  | .writeCnt val =>
    s.running ∧ val.getLsbD 31 ∧ val.extractLsb' 28 2 = op.mode ∧
      val.getLsbD 20 = op.macRegister ∧ val.extractLsb' 16 3 = op.maclen
  | .writeInputFIFO _ => s.inputFIFO.isFull = false
  | .readOutputFIFO => s.outputFIFO.isEmpty = false
  | .writeMAC _ _ _ => op.mode = 0 → ¬ op.fifoTag → s.running = false
  | _ => True

instance (op : Operation) (s : AES) : DecidablePred (Call.Within op s)
  | .writeCnt _ => inferInstanceAs (Decidable (_ ∧ _ ∧ _ ∧ _ ∧ _))
  | .writeInputFIFO _ | .readOutputFIFO => inferInstanceAs (Decidable (_ = _))
  | .writeMAC _ _ _ => inferInstanceAs (Decidable (_ → _ → _))
  | .writeBlkCnt _ | .checkInputDMA | .writeIV _ _ _ | .writeKeyNormal _ _ _ _
  | .writeKeyX _ _ _ _ | .writeKeyY _ _ _ _ => inferInstanceAs (Decidable True)

theorem maclen_setCnt (val : U32) (s : AES) :
    (s.setCnt val).cnt.extractLsb' 16 3 = val.extractLsb' 16 3 := by
  ext i hi
  have hmask : ∀ i < 3, (0xFC1FF000 : U32).getLsbD (16 + i) := by decide
  rw [BitVec.getElem_extractLsb', BitVec.getElem_extractLsb', s.getLsbD_setCnt val _ (hmask i hi)]

theorem write_of_not_full {f : FIFO U32 16} (h : f.isFull = false) (val : U32) :
    (f.write val).contents = f.contents ++ [val] := by
  refine f.write_contents_of_lt val ?_
  have hle := f.contents_length_le
  have hne : ¬ f.contents.length = 16 := fun heq =>
    Bool.eq_false_iff.mp h (f.isFull_iff.mpr heq)
  omega

theorem read_of_not_empty {f : FIFO U32 16} (h : f.isEmpty = false) :
    f.contents = f.read.1 :: f.read.2.contents := by
  cases hc : f.contents with
  | nil => exact absurd (f.isEmpty_iff.mpr hc) (Bool.eq_false_iff.mp h)
  | cons a rest =>
    obtain ⟨hhead, hrest⟩ := f.read_of_contents_cons hc
    rw [hhead, hrest]

theorem flushMAC_contents (s : AES) :
    s.flushMAC.outputFIFO.contents ++ s.flushMAC.parked = s.outputFIFO.contents ++ s.parked := by
  unfold flushMAC
  split_ifs with h
  · have hwrite := writeBlock_contents h.2 s.outputMAC
    rw [parked, parked, if_pos h.1, if_neg Bool.false_ne_true, List.append_nil]
    exact hwrite
  · rfl

theorem flushMAC_waiting (s : AES) :
    s.flushMAC.outputMACDue → 12 < s.flushMAC.outputFIFO.level := by
  unfold flushMAC
  split_ifs with h
  · exact False.elim
  · exact fun hdue => not_le.mp fun hroom => h ⟨hdue, hroom⟩

theorem flushMAC_fields (s : AES) : s.flushMAC.cnt = s.cnt ∧ s.flushMAC.inputFIFO = s.inputFIFO := by
  unfold flushMAC
  split_ifs
  · exact ⟨rfl, rfl⟩
  · exact ⟨rfl, rfl⟩

theorem Processing.checkInputDMA (h : s.Processing encrypt op left ins got extra payload) :
    (s.checkInputDMA encrypt).Operates encrypt op left ins got := by
  unfold AES.checkInputDMA
  rw [if_neg (not_not_intro h.running)]
  split_ifs
  · exact .inl ⟨extra, payload, h⟩
  · exact h.update

theorem Processing.setCnt (h : s.Processing encrypt op left ins got extra payload) {val : U32}
    (hval : (Call.writeCnt val).Within op s) :
    (s.setCnt val).Processing encrypt op left ins got extra payload :=
  { running := (s.running_setCnt val).trans hval.2.1
    mode := hval.2.2.1
    macRegister := (s.getLsbD_setCnt val 20 (by decide)).trans hval.2.2.2.1
    maclen := (s.maclen_setCnt val).trans hval.2.2.2.2
    extra_count := h.extra_count
    blocks_count := h.blocks_count
    ordered := h.ordered
    key := h.key
    counter := h.counter
    cbc := h.cbc
    mac := h.mac
    due := h.due
    input := h.input
    output := h.output }

theorem Processing.writeInputFIFO (h : s.Processing encrypt op left ins got extra payload)
    (hroom : s.inputFIFO.isFull = false) (val : U32) :
    (s.writeInputFIFO encrypt val).Operates encrypt op left (ins ++ [val]) got := by
  have hwritten : ({ s with inputFIFO := s.inputFIFO.write val } : AES).Processing encrypt op left
      (ins ++ [val]) got extra payload :=
    { h with
      input := by
        rw [h.input, List.append_assoc]
        exact congrArg _ (write_of_not_full hroom val).symm }
  unfold AES.writeInputFIFO
  exact (congrArg _ (if_pos hwritten.running)).mpr hwritten.update

theorem Processing.readOutputFIFO (h : s.Processing encrypt op left ins got extra payload)
    (hwords : s.outputFIFO.isEmpty = false) :
    (s.readOutputFIFO encrypt).2.Operates encrypt op left ins
      (got ++ [(s.readOutputFIFO encrypt).1]) := by
  have hread : ({ s with outputFIFO := s.outputFIFO.read.2 } : AES).Processing encrypt op left ins
      (got ++ [s.outputFIFO.read.1]) extra payload :=
    { h with
      output := by
        rw [← h.output, read_of_not_empty hwords, List.append_assoc]
        rfl }
  unfold AES.readOutputFIFO
  exact (congrArg _ (if_pos hread.running)).mpr hread.checkInputDMA

theorem Finished.step (h : s.Finished encrypt op left ins got extra payload tag) {call : Call}
    (hcall : call.Within op s) :
    (s.step encrypt call).Finished encrypt op left (ins ++ call.supplied)
      (got ++ call.taken encrypt s) extra payload tag := by
  have hidle := Bool.eq_false_iff.mp h.idle
  cases call with
  | writeCnt val => exact absurd hcall.1 hidle
  | writeInputFIFO val =>
    have hstep : s.step encrypt (.writeInputFIFO val) =
        { s with inputFIFO := s.inputFIFO.write val } := if_neg hidle
    rw [hstep]
    simp only [Call.taken, List.append_nil]
    exact
      { h with
        input := by
          rw [h.input, List.append_assoc]
          exact congrArg _ (write_of_not_full hcall val).symm }
  | readOutputFIFO =>
    have hstep : s.step encrypt .readOutputFIFO =
        ({ s with outputFIFO := s.outputFIFO.read.2 } : AES).flushMAC := if_neg hidle
    obtain ⟨hcnt, hinput⟩ := flushMAC_fields { s with outputFIFO := s.outputFIFO.read.2 }
    rw [hstep]
    simp only [Call.supplied, List.append_nil]
    exact
      { idle := (flushMAC_running _).trans h.idle
        extra_count := h.extra_count
        blocks_count := h.blocks_count
        tag_count := h.tag_count
        input := by
          rw [hinput]
          exact h.input
        output := by
          rw [← h.output, List.append_assoc _ _ (AES.parked _), flushMAC_contents,
            read_of_not_empty hcall, List.append_assoc, List.append_assoc]
          rfl
        verified := by
          rw [hcnt]
          exact h.verified
        waiting := flushMAC_waiting _ }
  | checkInputDMA =>
    have hstep : s.step encrypt .checkInputDMA = s := if_pos hidle
    rw [hstep]
    simp only [Call.supplied, Call.taken, List.append_nil]
    exact h
  | writeBlkCnt val =>
    simp only [Call.supplied, Call.taken, List.append_nil]
    exact { h with }
  | writeIV offset val mask =>
    simp only [Call.supplied, Call.taken, List.append_nil]
    exact { h with }
  | writeMAC offset val mask =>
    simp only [Call.supplied, Call.taken, List.append_nil]
    exact { h with }
  | writeKeyNormal slot offset val mask =>
    simp only [Call.supplied, Call.taken, List.append_nil]
    exact { h with }
  | writeKeyX slot offset val mask =>
    simp only [Call.supplied, Call.taken, List.append_nil]
    exact { h with }
  | writeKeyY slot offset val mask =>
    simp only [Call.supplied, Call.taken, List.append_nil]
    exact { h with }

theorem Processing.step (h : s.Processing encrypt op left ins got extra payload) {call : Call}
    (hcall : call.Within op s) :
    (s.step encrypt call).Operates encrypt op left (ins ++ call.supplied)
      (got ++ call.taken encrypt s) := by
  cases call with
  | writeCnt val =>
    have hstep : s.step encrypt (.writeCnt val) = s.setCnt val :=
      writeCnt_of_not_starts encrypt fun hstart =>
        Bool.eq_false_iff.mp hstart.1 h.running
    rw [hstep]
    simp only [Call.supplied, Call.taken, List.append_nil]
    exact .inl ⟨extra, payload, h.setCnt hcall⟩
  | writeInputFIFO val =>
    simp only [Call.taken, List.append_nil]
    exact h.writeInputFIFO hcall val
  | readOutputFIFO =>
    simp only [Call.supplied, List.append_nil]
    exact h.readOutputFIFO hcall
  | checkInputDMA =>
    simp only [Call.supplied, Call.taken, List.append_nil]
    exact h.checkInputDMA
  | writeMAC offset val mask =>
    simp only [Call.supplied, Call.taken, List.append_nil]
    exact .inl ⟨extra, payload,
      { h with mac := fun hmode htag =>
          absurd h.running (Bool.eq_false_iff.mp (hcall hmode htag)) }⟩
  | writeBlkCnt val =>
    simp only [Call.supplied, Call.taken, List.append_nil]
    exact .inl ⟨extra, payload, { h with }⟩
  | writeIV offset val mask =>
    simp only [Call.supplied, Call.taken, List.append_nil]
    exact .inl ⟨extra, payload, { h with }⟩
  | writeKeyNormal slot offset val mask =>
    simp only [Call.supplied, Call.taken, List.append_nil]
    exact .inl ⟨extra, payload, { h with }⟩
  | writeKeyX slot offset val mask =>
    simp only [Call.supplied, Call.taken, List.append_nil]
    exact .inl ⟨extra, payload, { h with }⟩
  | writeKeyY slot offset val mask =>
    simp only [Call.supplied, Call.taken, List.append_nil]
    exact .inl ⟨extra, payload, { h with }⟩

theorem Operates.step (h : s.Operates encrypt op left ins got) {call : Call}
    (hcall : call.Within op s) :
    (s.step encrypt call).Operates encrypt op left (ins ++ call.supplied)
      (got ++ call.taken encrypt s) := by
  rcases h with ⟨extra, payload, h⟩ | ⟨extra, payload, tag, h⟩
  · exact h.step hcall
  · exact .inr ⟨extra, payload, tag, h.step hcall⟩

/-! ## Runs -/

/-- The words that a run brings to the input FIFO. -/
def supplied (calls : List Call) : List U32 := calls.flatMap Call.supplied

/-- The words that a run takes from the output FIFO. -/
def taken (encrypt : Block → Block → Block) (s : AES) (calls : List Call) : List U32 :=
  (trace (step encrypt) s calls).flatMap fun p => p.2.taken encrypt p.1

theorem Operates.run (h : s.Operates encrypt op left ins got) {calls : List Call}
    (hcalls : ∀ p ∈ trace (AES.step encrypt) s calls, p.2.Within op p.1) :
    (calls.foldl (AES.step encrypt) s).Operates encrypt op left (ins ++ supplied calls)
      (got ++ taken encrypt s calls) := by
  induction calls generalizing s ins got with
  | nil =>
    have hins : ins ++ supplied [] = ins := List.append_nil ins
    have hgot : got ++ taken encrypt s [] = got := List.append_nil got
    rw [hins, hgot]
    exact h
  | cons call calls ih =>
    obtain ⟨hcall, hrest⟩ := List.forall_mem_cons.mp hcalls
    have hnext := ih (h.step hcall) hrest
    rw [List.append_assoc, List.append_assoc] at hnext
    exact hnext

theorem initCtx_processing (encrypt : Block → Block → Block) {s : AES} {val : U32}
    (hrun : val.getLsbD 31) : ((s.startCounts val).initCtx encrypt val).Processing encrypt
      (s.operation val) s.outputFIFO.contents s.inputFIFO.contents [] [] [] := by
  have hrunning : (s.startCounts val).running := (s.running_setCnt val).trans hrun
  have hregister : (s.startCounts val).cnt.getLsbD 20 = val.getLsbD 20 :=
    s.getLsbD_setCnt val 20 (by decide)
  have hmaclen : (s.startCounts val).cnt.extractLsb' 16 3 = val.extractLsb' 16 3 :=
    s.maclen_setCnt val
  have hnone : s.outputFIFO.contents =
      s.outputFIFO.contents ++ stream ((s.operation val).transform encrypt []) :=
    (List.append_nil _).symm
  unfold initCtx
  split_ifs with hccm
  · have hcbc : (s.operation val).cbc encrypt [] [] =
        encrypt (s.operation val).key (s.operation val).header := by
      unfold Operation.cbc Operation.plain
      split_ifs
      · rfl
      · rfl
    exact ⟨hrunning, rfl, hregister, hmaclen, Nat.zero_add _, Nat.zero_add _, fun _ => rfl, rfl,
      (if_pos hccm).symm, fun _ => hcbc.symm, fun _ _ => rfl, rfl, rfl, hnone⟩
  · exact ⟨hrunning, rfl, hregister, hmaclen, Nat.zero_add _, Nat.zero_add _, fun _ => rfl, rfl,
      (if_neg hccm).symm, fun h => absurd h hccm, fun _ _ => rfl, rfl, rfl, hnone⟩

theorem Finished.parked_waiting (h : s.Finished encrypt op left ins got extra payload tag)
    (hparked : s.parked ≠ []) : 12 < s.outputFIFO.level := by
  refine h.waiting ?_
  by_contra hdue
  exact hparked (if_neg hdue)

/-- A start with blocks to process sets the operation up. -/
theorem start_operates (encrypt : Block → Block → Block) {s : AES} {val : U32}
    (hstart : s.Starts val) (hwork : s.StartsWork val) :
    (s.writeCnt encrypt val).Operates encrypt (s.operation val) s.outputFIFO.contents
      s.inputFIFO.contents [] := by
  have hinit := s.initCtx_processing encrypt hstart.2
  rw [writeCnt_of_starts encrypt hstart, if_pos hwork]
  split_ifs
  · exact hinit.update
  · exact .inl ⟨[], [], hinit⟩

/-- What an operation has taken and given: while it runs, a part of its blocks; at its end all
of them, the tag if it comes through the input FIFO, and the MAC words if it encrypts. -/
theorem operation_stream (encrypt : Block → Block → Block) (s : AES) (val : U32)
    (hstart : s.Starts val) (hwork : s.StartsWork val) (calls : List Call)
    (hcalls : ∀ p ∈ trace (step encrypt) (s.writeCnt encrypt val) calls,
      p.2.Within (s.operation val) p.1) :
    let op := s.operation val
    let r := calls.foldl (step encrypt) (s.writeCnt encrypt val)
    r.inputFIFO.level ≤ 16 ∧ r.outputFIFO.level ≤ 16 ∧
      (r.parked ≠ [] → 12 < r.outputFIFO.level) ∧
      ∃ extra payload tag : List Block,
        s.inputFIFO.contents ++ supplied calls =
          stream (extra ++ payload ++ tag) ++ r.inputFIFO.contents ∧
        taken encrypt (s.writeCnt encrypt val) calls ++ r.outputFIFO.contents ++ r.parked =
          s.outputFIFO.contents ++ stream (op.transform encrypt payload) ++
            (if r.running then [] else op.macWords encrypt extra payload) ∧
        if r.running then
          extra.length + r.remExtra = op.extra ∧ payload.length + r.remBlocks = op.blocks ∧
            tag = []
        else
          extra.length = op.extra ∧ payload.length = op.blocks ∧
            tag.length = if op.fifoTag then 1 else 0 := by
  intro op r
  refine ⟨r.inputFIFO.occupied_le, r.outputFIFO.occupied_le, ?_⟩
  have hrun := (start_operates encrypt hstart hwork).run hcalls
  rcases hrun with ⟨extra, payload, h⟩ | ⟨extra, payload, tag, h⟩
  · refine ⟨fun hparked => absurd h.parked hparked, extra, payload, [], ?_, ?_, ?_⟩
    · rw [List.append_nil]
      exact h.input
    · rw [if_pos h.running, List.append_nil, show r.parked = [] from h.parked, List.append_nil]
      exact h.output
    · rw [if_pos h.running]
      exact ⟨h.extra_count, h.blocks_count, rfl⟩
  · have hidle := Bool.eq_false_iff.mp h.idle
    refine ⟨h.parked_waiting, extra, payload, tag, h.input, ?_, ?_⟩
    · rw [if_neg hidle]
      exact h.output
    · rw [if_neg hidle]
      exact ⟨h.extra_count, h.blocks_count, h.tag_count⟩

/-- One block encrypted: four words in, the first of eight out. -/
theorem operation_stream_oneBlock :
    let s := (reset 0 Block.zero ⟨Block.zero, Block.zero⟩).writeBlkCnt 0x10000
    let start := s.writeCnt (fun _ b => b) 0x90000000
    ∃ extra payload : List Block, payload.length = 1 ∧
      taken (fun _ b => b) start [.writeInputFIFO 1, .writeInputFIFO 2, .writeInputFIFO 3,
          .writeInputFIFO 4, .readOutputFIFO] ++
        ([.writeInputFIFO 1, .writeInputFIFO 2, .writeInputFIFO 3, .writeInputFIFO 4,
          .readOutputFIFO].foldl (step fun _ b => b) start).outputFIFO.contents =
        stream ((s.operation 0x90000000).transform (fun _ b => b) payload) ++
          (s.operation 0x90000000).macWords (fun _ b => b) extra payload := by
  intro s start
  obtain ⟨-, -, hparked, extra, payload, tag, -, hout, hcount⟩ :=
    operation_stream (fun _ b => b) s 0x90000000 (by decide) (by decide)
      [.writeInputFIFO 1, .writeInputFIFO 2, .writeInputFIFO 3, .writeInputFIFO 4,
        .readOutputFIFO] (by decide +kernel)
  have hidle : ([.writeInputFIFO 1, .writeInputFIFO 2, .writeInputFIFO 3, .writeInputFIFO 4,
      .readOutputFIFO].foldl (step fun _ b => b) start).running = false := by decide +kernel
  have hlevel : ([.writeInputFIFO 1, .writeInputFIFO 2, .writeInputFIFO 3, .writeInputFIFO 4,
      .readOutputFIFO].foldl (step fun _ b => b) start).outputFIFO.level ≤ 12 := by decide +kernel
  have hnone := not_not.mp (mt hparked (not_lt.mpr hlevel))
  rw [if_neg (Bool.eq_false_iff.mp hidle)] at hcount hout
  rw [hnone, List.append_nil] at hout
  exact ⟨extra, payload, hcount.2.1.trans (by decide), hout⟩

/-- A start without blocks ends at once and gives no MAC. -/
theorem empty_operation_no_mac :
    ¬ ∀ (encrypt : Block → Block → Block) (s : AES) (val : U32), s.Starts val →
      ∀ calls : List Call, (∀ p ∈ trace (step encrypt) (s.writeCnt encrypt val) calls,
        p.2.Within (s.operation val) p.1) →
      let op := s.operation val
      let r := calls.foldl (step encrypt) (s.writeCnt encrypt val)
      r.running = false → ∃ extra payload : List Block,
        extra.length = op.extra ∧ payload.length = op.blocks ∧
        taken encrypt (s.writeCnt encrypt val) calls ++ r.outputFIFO.contents ++ r.parked =
          s.outputFIFO.contents ++ stream (op.transform encrypt payload) ++
            op.macWords encrypt extra payload := by
  intro h
  obtain ⟨extra, payload, -, -, hout⟩ := h (fun _ b => b)
    (reset 0 Block.zero ⟨Block.zero, Block.zero⟩) 0x90000000 (by decide) []
    (List.forall_mem_nil _) (by decide)
  have hlength := congrArg List.length hout
  rw [Operation.macWords, if_pos (by decide)] at hlength
  simp only [List.length_append, length_stream, List.length_singleton] at hlength
  have hempty : ((reset 0 Block.zero ⟨Block.zero, Block.zero⟩).writeCnt (fun _ b => b)
      0x90000000).outputFIFO.contents.length = 0 ∧ ((reset 0 Block.zero
        ⟨Block.zero, Block.zero⟩).writeCnt (fun _ b => b) 0x90000000).parked.length = 0 := by
    decide
  have htaken : taken (fun _ b => b) ((reset 0 Block.zero ⟨Block.zero, Block.zero⟩).writeCnt
    (fun _ b => b) 0x90000000) [] = [] := rfl
  rw [htaken] at hlength
  simp only [List.foldl_nil, hempty.1, hempty.2, List.length_nil] at hlength
  omega

end AES
end MelonDS.DSi

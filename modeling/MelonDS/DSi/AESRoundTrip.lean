import MelonDS.DSi.AESStream

/-!
# CCM there and back

An operation that does not stall, is given its words and has its output read comes to its end.
Encryption and decryption with the same settings then run the same counter and authenticate the
same payload.
-/

namespace MelonDS.DSi

/-! ## Matching operations -/

/-- The settings that an encryption and a decryption share. -/
structure Operation.Matches (e d : Operation) : Prop where
  encrypts : e.mode = 1
  decrypts : d.mode = 0
  key : d.key = e.key
  counter : d.counter = e.counter
  header : d.header = e.header
  maclen : d.maclen = e.maclen

namespace Operation.Matches

variable (encrypt : Block → Block → Block) {e d : Operation}

theorem transform_transform (h : e.Matches d) (payload : List Block) :
    d.transform encrypt (e.transform encrypt payload) = payload := by
  rw [Operation.transform, Operation.transform, h.key, h.counter]
  exact counterMode_involutive Block.xor_xor_cancel e.counter payload

/-- Both MACs cover the decrypted payload. -/
theorem tag_eq (h : e.Matches d) (extra payload : List Block) :
    d.tag encrypt extra (e.transform encrypt payload) = e.tag encrypt extra payload := by
  have hne : ¬ e.mode = 0 := by
    rw [h.encrypts]
    decide
  have hplain : d.plain encrypt (e.transform encrypt payload) = e.plain encrypt payload := by
    rw [Operation.plain, Operation.plain, if_pos h.decrypts, if_neg hne, h.transform_transform encrypt]
  rw [Operation.tag, Operation.tag, Operation.cbc, Operation.cbc, hplain, h.key, h.counter,
    h.header, Operation.tagLength, Operation.tagLength, h.maclen]

end Operation.Matches

namespace AES

/-! ## Completion -/

/-- A running engine waits, and has something to wait for. -/
def Active (s : AES) : Prop := s.running → s.Waits ∧ (s.Remaining ∨ s.fifoTag)

variable {encrypt : Block → Block → Block} {op : Operation} {left ins got : List U32} {s : AES}

theorem active_of_idle (h : s.running = false) : s.Active :=
  fun hrun => absurd (h.symm.trans hrun) Bool.false_ne_true

theorem update_active (encrypt : Block → Block → Block) (s : AES) :
    (s.update encrypt).Active := by
  cases hrun : s.running with
  | false =>
    rw [update_of_idle encrypt hrun]
    exact active_of_idle hrun
  | true =>
    rw [update_of_running encrypt hrun]
    split_ifs with hdone htag
    · exact fun _ => ⟨.inl htag.2, .inr htag.1⟩
    · exact active_of_idle (running_finish encrypt _)
    · intro _
      have hremaining : (s.processed encrypt).Remaining := by
        unfold Remaining
        omega
      exact ⟨s.processed_waits encrypt hremaining, .inl hremaining⟩

theorem checkInputDMA_active (h : s.Remaining ∨ s.fifoTag) :
    (s.checkInputDMA encrypt).Active := by
  unfold checkInputDMA
  split_ifs with hrun hdone
  · rcases h with h | h
    · unfold Remaining at h
      omega
    · exact absurd h hdone.2.2
  · exact update_active encrypt s
  · exact active_of_idle (Bool.eq_false_iff.mpr hrun)

theorem start_active (encrypt : Block → Block → Block) {val : U32} (hstart : s.Starts val)
    (hwork : s.StartsWork val) (hstall : ¬ s.StallingStart val) :
    (s.writeCnt encrypt val).Active := by
  have hprogress := (start_progress encrypt hstart).mpr hstall
  rw [writeCnt_of_starts encrypt hstart, if_pos hwork] at hprogress ⊢
  split_ifs at hprogress ⊢ with htag
  · exact update_active encrypt _
  · intro hrun
    have hremaining : ((s.startCounts val).initCtx encrypt val).Remaining :=
      (initCtx_counts encrypt val (s.startCounts val)).2.1.mpr hwork
    exact ⟨hprogress hrun hremaining, .inl hremaining⟩

theorem Processing.fifoTag_setCnt {extra payload : List Block}
    (h : s.Processing encrypt op left ins got extra payload) {val : U32}
    (hval : (Call.writeCnt val).Within op s) : (s.setCnt val).fifoTag ↔ s.fifoTag :=
  ((h.setCnt hval).fifoTag_iff).trans h.fifoTag_iff.symm

theorem Active.apply (h : s.Active) (hop : s.Operates encrypt op left ins got) {call : Call}
    (hcall : call.Within op s) : (s.step encrypt call).Active := by
  cases call with
  | writeCnt val =>
    rcases hop with ⟨extra, payload, hop⟩ | ⟨extra, payload, tag, hop⟩
    · have hstep : s.step encrypt (.writeCnt val) = s.setCnt val :=
        writeCnt_of_not_starts encrypt fun hstart =>
          Bool.eq_false_iff.mp hstart.1 hop.running
      rw [hstep, Active, hop.fifoTag_setCnt hcall]
      exact fun _ => h hop.running
    · exact absurd hcall.1 (Bool.eq_false_iff.mp hop.idle)
  | writeInputFIFO val =>
    change (s.writeInputFIFO encrypt val).Active
    unfold AES.writeInputFIFO
    dsimp only
    split_ifs with hrun
    · exact update_active encrypt _
    · exact active_of_idle (Bool.eq_false_iff.mpr hrun)
  | readOutputFIFO =>
    change (s.readOutputFIFO encrypt).2.Active
    unfold AES.readOutputFIFO
    dsimp only
    split_ifs with hrun
    · exact checkInputDMA_active (s := { s with outputFIFO := s.outputFIFO.read.2 }) (h hrun).2
    · exact active_of_idle ((flushMAC_running _).trans (Bool.eq_false_iff.mpr hrun))
  | checkInputDMA =>
    cases hrun : s.running with
    | false =>
      have hstep : s.step encrypt .checkInputDMA = s := if_pos (Bool.eq_false_iff.mp hrun)
      rw [hstep]
      exact h
    | true => exact checkInputDMA_active (h hrun).2
  | writeBlkCnt val => exact h
  | writeIV offset val mask => exact h
  | writeMAC offset val mask => exact h
  | writeKeyNormal slot offset val mask => exact h
  | writeKeyX slot offset val mask => exact h
  | writeKeyY slot offset val mask => exact h

theorem Active.run (h : s.Active) (hop : s.Operates encrypt op left ins got) {calls : List Call}
    (hcalls : ∀ p ∈ trace (AES.step encrypt) s calls, p.2.Within op p.1) :
    (calls.foldl (AES.step encrypt) s).Active := by
  induction calls generalizing s ins got with
  | nil => exact h
  | cons call calls ih =>
    obtain ⟨hcall, hrest⟩ := List.forall_mem_cons.mp hcalls
    exact ih (h.apply hop hcall) (hop.step hcall) hrest

/-- With all its words supplied and room for its output, an operation is over. -/
theorem Operates.finished (h : s.Operates encrypt op left ins got) (hactive : s.Active)
    (hroom : s.outputFIFO.level ≤ 12)
    (hins : 4 * (op.extra + op.blocks + if op.fifoTag then 1 else 0) ≤ ins.length) :
    ∃ extra payload tag, s.Finished encrypt op left ins got extra payload tag := by
  rcases h with ⟨extra, payload, h⟩ | h
  · obtain ⟨hwaits, hlive⟩ := hactive h.running
    have hlength := congrArg List.length h.input
    have hextra := h.extra_count
    have hblocks := h.blocks_count
    rw [List.length_append, length_stream, List.length_append, ← FIFO.level_eq_length] at hlength
    unfold Waits at hwaits
    rw [h.fifoTag_iff, Remaining] at hlive
    split_ifs at hins with htag
    · omega
    · have hremaining := hlive.resolve_right htag
      omega
  · exact h

/-- A run of one operation: the start does not stall, the accesses belong to the operation, and
at the end there is room in the output FIFO. -/
structure Drained (encrypt : Block → Block → Block) (s : AES) (val : U32) (calls : List Call) :
    Prop where
  starts : s.Starts val
  work : s.StartsWork val
  unstalled : ¬ s.StallingStart val
  within : ∀ p ∈ trace (AES.step encrypt) (s.writeCnt encrypt val) calls,
    p.2.Within (s.operation val) p.1
  room : (calls.foldl (AES.step encrypt) (s.writeCnt encrypt val)).outputFIFO.level ≤ 12

/-- The operation ends with the blocks it was supplied with. -/
theorem Drained.ends {val : U32} {calls : List Call} (h : Drained encrypt s val calls)
    {extra payload tag : List Block} {rest : List U32}
    (hextra : extra.length = (s.operation val).extra)
    (hpayload : payload.length = (s.operation val).blocks)
    (htag : tag.length = if (s.operation val).fifoTag then 1 else 0)
    (hins : s.inputFIFO.contents ++ supplied calls = stream (extra ++ payload ++ tag) ++ rest) :
    (calls.foldl (AES.step encrypt) (s.writeCnt encrypt val)).Finished encrypt (s.operation val)
      s.outputFIFO.contents (s.inputFIFO.contents ++ supplied calls)
      (taken encrypt (s.writeCnt encrypt val) calls) extra payload tag := by
  have hop := start_operates encrypt h.starts h.work
  have hactive := (start_active encrypt h.starts h.work h.unstalled).run hop h.within
  have hfed : 4 * ((s.operation val).extra + (s.operation val).blocks +
      if (s.operation val).fifoTag then 1 else 0) ≤
      (s.inputFIFO.contents ++ supplied calls).length := by
    rw [hins, List.length_append, length_stream, List.length_append, List.length_append, hextra,
      hpayload, htag]
    omega
  obtain ⟨extra', payload', tag', hfinished⟩ := (hop.run h.within).finished hactive h.room hfed
  have hcounts := hfinished.extra_count
  have hsame : stream (extra' ++ payload' ++ tag') = stream (extra ++ payload ++ tag) := by
    refine (List.append_inj (hfinished.input.symm.trans hins) ?_).1
    simp only [length_stream, List.length_append]
    rw [hfinished.extra_count, hfinished.blocks_count, hfinished.tag_count, hextra, hpayload, htag]
  obtain ⟨hboth, rfl⟩ := List.append_inj (stream_injective hsame) (by
    simp only [List.length_append]
    rw [hfinished.extra_count, hfinished.blocks_count, hextra, hpayload])
  obtain ⟨rfl, rfl⟩ := List.append_inj hboth (hfinished.extra_count.trans hextra.symm)
  exact hfinished

theorem Finished.output_of_room {extra payload tag : List Block}
    (h : s.Finished encrypt op left ins got extra payload tag) (hroom : s.outputFIFO.level ≤ 12) :
    got ++ s.outputFIFO.contents =
      left ++ stream (op.transform encrypt payload) ++ op.macWords encrypt extra payload := by
  have hnone : s.parked = [] := by
    by_contra hparked
    exact absurd (h.parked_waiting hparked) (not_lt.mpr hroom)
  have hout := h.output
  rwa [hnone, List.append_nil] at hout

/-! ## The round trip -/

/-- The settings that a decryption repeats from the encryption. -/
structure SameSettings (e d : AES) (valE valD : U32) : Prop where
  encrypts : valE.extractLsb' 28 2 = 1
  decrypts : valD.extractLsb' 28 2 = 0
  key : (d.setCnt valD).curKey = (e.setCnt valE).curKey
  iv : d.iv = e.iv
  blkCnt : d.blkCnt = e.blkCnt
  maclen : valD.extractLsb' 16 3 = valE.extractLsb' 16 3

theorem SameSettings.matches {e d : AES} {valE valD : U32} (h : SameSettings e d valE valD) :
    (e.operation valE).Matches (d.operation valD) where
  encrypts := h.encrypts
  decrypts := h.decrypts
  key := congrArg Block.bswap128 h.key
  counter := by
    have hE : (valE.extractLsb' 28 2).toNat < 2 := (ccm_iff _).mpr (.inr h.encrypts)
    have hD : (valD.extractLsb' 28 2).toNat < 2 := (ccm_iff _).mpr (.inl h.decrypts)
    change (if _ then _ else _) = (if _ then _ else _)
    rw [if_pos hE, if_pos hD, h.iv]
  header := by
    change (d.startCounts valD).ccmHeader valD = (e.startCounts valE).ccmHeader valE
    have hiv : (d.startCounts valD).iv = (e.startCounts valE).iv := h.iv
    have hblk : (d.startCounts valD).blkCnt = (e.startCounts valE).blkCnt := h.blkCnt
    have hblocks : (d.startCounts valD).remBlocks = (e.startCounts valE).remBlocks := by
      change (d.blkCnt.extractLsb' 16 16).toNat = (e.blkCnt.extractLsb' 16 16).toNat
      rw [h.blkCnt]
    rw [ccmHeader, ccmHeader, hiv, hblk, hblocks, h.maclen]
  maclen := h.maclen

theorem SameSettings.counts {e d : AES} {valE valD : U32} (h : SameSettings e d valE valD) :
    (d.operation valD).extra = (e.operation valE).extra ∧
      (d.operation valD).blocks = (e.operation valE).blocks := by
  have hE : (valE.extractLsb' 28 2).toNat < 2 := (ccm_iff _).mpr (.inr h.encrypts)
  have hD : (valD.extractLsb' 28 2).toNat < 2 := (ccm_iff _).mpr (.inl h.decrypts)
  constructor
  · change d.startExtra valD = e.startExtra valE
    rw [startExtra, startExtra, if_pos hE, if_pos hD, h.blkCnt]
  · change d.startBlocks = e.startBlocks
    rw [startBlocks, startBlocks, h.blkCnt]

/-- The tag in the MAC register, or after the ciphertext in the input FIFO. -/
def Supplies (d : AES) (valD : U32) (calls : List Call) (blocks : List Block) (tag : Block)
    (rest : List U32) : Prop :=
  if valD.getLsbD 20 then
    d.mac = tag.bswap128 ∧ d.inputFIFO.contents ++ supplied calls = stream blocks ++ rest
  else d.inputFIFO.contents ++ supplied calls = stream (blocks ++ [tag]) ++ rest

/-- An encryption gives a ciphertext and a MAC such that every decryption with the same
settings and extra blocks ends with the payload, and verifies the tag exactly when it is the
MAC. -/
theorem ccm_roundTrip (encrypt : Block → Block → Block) {e d : AES} {valE valD : U32}
    {callsE callsD : List Call} (hE : Drained encrypt e valE callsE)
    (hD : Drained encrypt d valD callsD) (hsame : SameSettings e d valE valD)
    (extra plain : List Block) {restE : List U32} (hextra : extra.length = e.startExtra valE)
    (hplain : plain.length = e.startBlocks)
    (hfed : e.inputFIFO.contents ++ supplied callsE = stream (extra ++ plain) ++ restE) :
    ∃ (cipher : List Block) (mac : Block),
      taken encrypt (e.writeCnt encrypt valE) callsE ++
          (callsE.foldl (AES.step encrypt) (e.writeCnt encrypt valE)).outputFIFO.contents =
        e.outputFIFO.contents ++ stream (cipher ++ [mac]) ∧
      cipher.length = plain.length ∧
      ∀ (tag : Block) (restD : List U32), d.Supplies valD callsD (extra ++ cipher) tag restD →
        let r := callsD.foldl (AES.step encrypt) (d.writeCnt encrypt valD)
        r.running = false ∧
          taken encrypt (d.writeCnt encrypt valD) callsD ++ r.outputFIFO.contents =
            d.outputFIFO.contents ++ stream plain ∧
          (r.cnt.getLsbD 21 ↔ tag = mac) := by
  have hmatch := hsame.matches
  obtain ⟨hextraD, hblocksD⟩ := hsame.counts
  have htagE : ¬ (e.operation valE).fifoTag := fun h => by
    have hzero := hmatch.encrypts.symm.trans h.1
    exact absurd hzero (by decide)
  have hfedE : e.inputFIFO.contents ++ supplied callsE = stream (extra ++ plain ++ []) ++ restE := by
    rw [List.append_nil (extra ++ plain)]
    exact hfed
  have hendE := hE.ends hextra hplain (if_neg htagE).symm hfedE
  have houtE := hendE.output_of_room hE.room
  rw [Operation.macWords, if_pos hmatch.encrypts, List.append_assoc, ← stream_append] at houtE
  refine ⟨_, _, houtE, length_counterMode _ _, ?_⟩
  intro tag restD hsupply r
  have hcipher : ((e.operation valE).transform encrypt plain).length =
      (d.operation valD).blocks := by
    rw [hblocksD]
    exact (length_counterMode _ _).trans hplain
  have hextra' := hextra.trans hextraD.symm
  have hmac := hmatch.tag_eq encrypt extra plain
  have hback := hmatch.transform_transform encrypt plain
  have hnoMAC : ∀ payload, (d.operation valD).macWords encrypt extra payload = [] := by
    intro payload
    rw [Operation.macWords, if_neg]
    rw [hmatch.decrypts]
    decide
  cases hregister : valD.getLsbD 20 with
  | true =>
    rw [Supplies, if_pos hregister] at hsupply
    have htagD : ¬ (d.operation valD).fifoTag := fun h =>
      absurd (h.2.symm.trans hregister) Bool.false_ne_true
    have hfedD : d.inputFIFO.contents ++ supplied callsD =
        stream (extra ++ (e.operation valE).transform encrypt plain ++ []) ++ restD := by
      rw [List.append_nil (extra ++ _)]
      exact hsupply.2
    have hendD := hD.ends hextra' hcipher (if_neg htagD).symm hfedD
    have houtD := hendD.output_of_room hD.room
    rw [hnoMAC, List.append_nil, hback] at houtD
    refine ⟨hendD.idle, houtD, ?_⟩
    have hregmac : (d.operation valD).mac = tag.bswap128 := hsupply.1
    rw [hendD.verified hmatch.decrypts, Operation.suppliedTag, if_neg htagD, hmac, hregmac,
      Block.bswap128_bswap128, List.cons.injEq]
    exact and_iff_left rfl
  | false =>
    rw [Supplies, if_neg (Bool.eq_false_iff.mp hregister)] at hsupply
    have htagD : (d.operation valD).fifoTag := ⟨hmatch.decrypts, hregister⟩
    have hendD := hD.ends hextra' hcipher (if_pos htagD).symm hsupply
    have houtD := hendD.output_of_room hD.room
    rw [hnoMAC, List.append_nil, hback] at houtD
    refine ⟨hendD.idle, houtD, ?_⟩
    rw [hendD.verified hmatch.decrypts, Operation.suppliedTag, if_pos htagD, hmac,
      List.cons.injEq]
    exact and_iff_left rfl

/-- One block, encrypted and decrypted with the tag in the input FIFO. -/
theorem ccm_roundTrip_oneBlock :
    let s := (reset 0 Block.zero ⟨Block.zero, Block.zero⟩).writeBlkCnt 0x10000
    let outs := (([1, 2, 3, 4].map Call.writeInputFIFO).foldl (step fun _ b => b.bswap128)
      (s.writeCnt (fun _ b => b.bswap128) 0x90000000)).outputFIFO.contents
    ((outs.map Call.writeInputFIFO).foldl (step fun _ b => b.bswap128)
      (s.writeCnt (fun _ b => b.bswap128) 0x80000000)).cnt.getLsbD 21 = true := by
  intro s outs
  have hE : Drained (fun _ b => b.bswap128) s 0x90000000 ([1, 2, 3, 4].map Call.writeInputFIFO) :=
    ⟨by decide, by decide, by decide, by decide +kernel, by decide +kernel⟩
  have hD : Drained (fun _ b => b.bswap128) s 0x80000000 (outs.map Call.writeInputFIFO) :=
    ⟨by decide, by decide, by decide, by decide +kernel, by decide +kernel⟩
  have hplain : s.inputFIFO.contents ++ supplied ([1, 2, 3, 4].map Call.writeInputFIFO) =
      stream ([] ++ [(Block.ofWords ![1, 2, 3, 4]).bswap128]) ++ [] := by decide +kernel
  obtain ⟨cipher, mac, hout, -, hback⟩ := ccm_roundTrip (fun _ b => b.bswap128) hE hD
    ⟨by decide, by decide, rfl, rfl, rfl, by decide⟩ []
    [(Block.ofWords ![1, 2, 3, 4]).bswap128] (by decide) (by decide) hplain
  have hwords : s.inputFIFO.contents ++ supplied (outs.map Call.writeInputFIFO) = outs := by
    decide +kernel
  have houts : outs = stream (cipher ++ [mac]) := hout
  have hsupply : s.Supplies 0x80000000 (outs.map Call.writeInputFIFO) ([] ++ cipher) mac [] := by
    rw [Supplies, if_neg (by decide), hwords, houts, List.append_nil]
    rfl
  exact (hback mac [] hsupply).2.2.mpr rfl

/-- Without blocks nothing is authenticated: no MAC comes out, and no tag verifies. -/
theorem ccm_roundTrip_empty :
    ¬ ∀ (encrypt : Block → Block → Block) (e d : AES) (valE valD : U32)
      (callsE callsD : List Call) (extra plain : List Block) (restE : List U32),
      e.Starts valE → d.Starts valD → SameSettings e d valE valD →
      (∀ p ∈ trace (step encrypt) (e.writeCnt encrypt valE) callsE,
        p.2.Within (e.operation valE) p.1) →
      (∀ p ∈ trace (step encrypt) (d.writeCnt encrypt valD) callsD,
        p.2.Within (d.operation valD) p.1) →
      extra.length = e.startExtra valE → plain.length = e.startBlocks →
      e.inputFIFO.contents ++ supplied callsE = stream (extra ++ plain) ++ restE →
      ∃ (cipher : List Block) (mac : Block),
        taken encrypt (e.writeCnt encrypt valE) callsE ++
            (callsE.foldl (AES.step encrypt) (e.writeCnt encrypt valE)).outputFIFO.contents =
          e.outputFIFO.contents ++ stream (cipher ++ [mac]) ∧
        ∀ (tag : Block) (restD : List U32), d.Supplies valD callsD (extra ++ cipher) tag restD →
          ((callsD.foldl (AES.step encrypt) (d.writeCnt encrypt valD)).cnt.getLsbD 21 ↔
            tag = mac) := by
  intro h
  obtain ⟨cipher, mac, hout, -⟩ := h (fun _ b => b)
    (reset 0 Block.zero ⟨Block.zero, Block.zero⟩) (reset 0 Block.zero ⟨Block.zero, Block.zero⟩)
    0x90000000 0x80000000 [] [] [] [] [] (by decide) (by decide)
    ⟨by decide, by decide, rfl, rfl, rfl, by decide⟩ (List.forall_mem_nil _)
    (List.forall_mem_nil _) (by decide) (by decide) rfl
  have hlength := congrArg List.length hout
  have hnone : (taken (fun _ b => b) ((reset 0 Block.zero ⟨Block.zero, Block.zero⟩).writeCnt
      (fun _ b => b) 0x90000000) [] ++ ([].foldl (step fun _ b => b)
        ((reset 0 Block.zero ⟨Block.zero, Block.zero⟩).writeCnt
          (fun _ b => b) 0x90000000)).outputFIFO.contents).length = 0 := by
    decide
  rw [hnone, List.length_append, length_stream, List.length_append, List.length_singleton] at hlength
  omega

end AES
end MelonDS.DSi

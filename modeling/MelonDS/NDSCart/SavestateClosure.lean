import MelonDS.Library.Trace
import MelonDS.NDSCart.RetailSavestate
import MelonDS.NDSCart.WriteProtection

/-!
# A retail cartridge reads back its own savestates

The checks of the loader are facts about sound states, one lemma for each. A state is lost
in two ways only: a byte that continues a page program while the chip writes the page, and
a select that leaves an open power command in the latch of a chip that is awake.
-/

namespace MelonDS.NDSCart

/-- The save type that the loader finds by the length. -/
def typeOfLength (length : ℕ) : ℕ := (saveTypeForLength length).getD 0

theorem media_types : ∀ m ∈ media, saveTypeForLength m.2.2 = some (typeOfLength m.2.2) ∧
    saveProtocol (if m.2.1 != 0 then m.2.1 else typeOfLength m.2.2) = m.1 ∧
    (m.2.1 ≠ 0 → 11 ≤ m.2.1 ∧ m.2.1 < saveLengths.length ∧ saveLengths.getD m.2.1 0 = m.2.2) ∧
    (m.2.1 = 0 → typeOfLength m.2.2 < 11) ∧ (saveProtocol (typeOfLength m.2.2) = 4 ↔ m.1 = 4) ∧
    m.2.2 < 2 ^ 28 ∧ m.2.1 < 2 ^ 28 := by decide

theorem code_ofCode (p : FlashPower) : FlashPower.ofCode p.code = p := by
  cases p <;> rfl

namespace RetailRecord

variable {r : RetailRecord}

/-- The flags do not disturb the length, nor each other. -/
theorem lengthWord_bits (h : r.saveLen < 2 ^ 28) :
    r.lengthWord < 2 ^ 32 ∧ r.lengthWord % 2 ^ 28 = r.saveLen ∧
      r.lengthWord.testBit 31 = r.pending ∧ r.lengthWord.testBit 30 = r.hasProfile ∧
      r.lengthWord.testBit 29 = r.writing ∧ r.lengthWord.testBit 28 = r.powered := by
  have hbit (i : ℕ) (hi : 28 ≤ i) : r.saveLen.testBit i = false :=
    Nat.testBit_lt_two_pow (h.trans_le (Nat.pow_le_pow_right (by decide) hi))
  have hflag (b : Bool) (k i : ℕ) : (if b then 2 ^ k else 0).testBit i = (b && decide (k = i)) := by
    cases b
    · simp
    · simp [Nat.testBit_two_pow]
  have hlt (b : Bool) {k : ℕ} (hk : k < 32) : (if b then 2 ^ k else 0) < 2 ^ 32 := by
    cases b
    · exact Nat.two_pow_pos 32
    · exact Nat.pow_lt_pow_right (by decide) hk
  have hzero (b : Bool) {k : ℕ} (hk : 28 ≤ k) : (if b then 2 ^ k else 0) % 2 ^ 28 = 0 := by
    cases b
    · rfl
    · exact Nat.mod_eq_zero_of_dvd (Nat.pow_dvd_pow 2 hk)
  refine ⟨?_, ?_, ?_, ?_, ?_, ?_⟩
  · exact Nat.or_lt_two_pow (Nat.or_lt_two_pow (Nat.or_lt_two_pow (Nat.or_lt_two_pow
      (h.trans (by decide)) (hlt _ (by decide))) (hlt _ (by decide))) (hlt _ (by decide)))
      (hlt _ (by decide))
  · rw [lengthWord, Nat.or_mod_two_pow, Nat.or_mod_two_pow, Nat.or_mod_two_pow,
      Nat.or_mod_two_pow, hzero _ (by decide), hzero _ (by decide), hzero _ (by decide),
      hzero _ (by decide), Nat.mod_eq_of_lt h]
    simp
  all_goals
    simp only [lengthWord, Nat.testBit_or, hflag]
    rw [hbit _ (by decide)]
    simp

end RetailRecord

namespace CartRetail

variable {c : CartRetail} {v : StateVersion}

/-! ## The version the writer asks for -/

theorem prepareSavestate_profile (h : c.sramProfile ≠ 0) : 7 ≤ c.prepareSavestate 0 := by
  unfold prepareSavestate
  dsimp only
  split_ifs <;> decide

theorem prepareSavestate_flash (h : isFlashProfile c.sramProfile) :
    11 ≤ c.prepareSavestate 0 := by
  rw [prepareSavestate, if_pos h]
  dsimp only
  split_ifs <;> decide

theorem prepareSavestate_writing (h : c.writeDelay ≠ 0) : 10 ≤ c.prepareSavestate 0 := by
  by_cases hprof : isFlashProfile c.sramProfile
  · exact (by decide : 10 ≤ 11).trans (prepareSavestate_flash hprof)
  · rw [prepareSavestate, if_neg hprof, if_pos (.inl h)]

theorem prepareSavestate_extended (hprof : isFlashProfile c.sramProfile)
    (h : c.writeDelay ≠ 0 ∧ isExtendedErase c.writeCommand ∨
      c.sramPos ≠ 0 ∧ isExtendedErase c.sramCmd) : 12 ≤ c.prepareSavestate 0 := by
  rw [prepareSavestate, if_pos hprof]
  dsimp only
  rw [if_pos (or_assoc.mp (.inl h))]
  split_ifs <;> decide

theorem prepareSavestate_power (hprof : isFlashProfile c.sramProfile)
    (h : c.powerState ≠ .awake ∨ c.powerBlocked ∨ c.sramPos ≠ 0 ∧ isPowerCommand c.sramCmd) :
    13 ≤ c.prepareSavestate 0 := by
  rw [prepareSavestate, if_pos hprof]
  dsimp only
  rw [if_pos]
  rcases h with h | h | h
  · exact .inl h
  · exact .inr (.inl h)
  · exact .inr (.inr (.inl h))

theorem prepareSavestate_pending (hs : c.Sound) (h : c.pagePending) :
    (if c.sramType = 1 then 10 else if c.sramType = 3 then 6 else 7) ≤ c.prepareSavestate 0 := by
  have hp := hs.pending h
  by_cases hprof : c.sramProfile = 0
  · have hflash : isFlashProfile c.sramProfile = false := by
      rw [hprof]
      rfl
    have hstatus : ¬(c.sramPos ≠ 0 ∧ isStatusCommand c.sramType c.sramCmd c.sramProfile) :=
      fun hno => Bool.false_ne_true ((hs.statusCmd hno.2).2.2.symm.trans h)
    have hno : ¬isFlashProfile c.sramProfile = true := by
      rw [hflash]
      exact Bool.false_ne_true
    by_cases hone : c.sramType = 1
    · rw [if_pos hone, prepareSavestate, if_neg hno, if_pos (.inr ⟨hone, h⟩)]
    · have hthree : c.sramType = 3 := by
        by_contra hne
        exact hp.latch (by rw [pageSize, if_neg hone, if_neg hne, hprof]; rfl)
      rw [if_neg hone, if_pos hthree, prepareSavestate, if_neg hno,
        if_neg (by simp [hp.idle, hone]), if_neg hstatus, if_neg (not_not.mpr hprof), if_pos h]
  · by_cases hone : c.sramType = 1
    · have hmedia := hs.media
      simp only [medium, media, hone, List.mem_cons, Prod.mk.injEq, List.not_mem_nil,
        or_false] at hmedia
      omega
    · have hseven := prepareSavestate_profile hprof
      rw [if_neg hone]
      split_ifs <;> omega

/-- The file has a version the writer of this cart was content with. -/
structure Written (v : StateVersion) (c : CartRetail) : Prop where
  major : v.major = 14
  minor : c.prepareSavestate 0 ≤ v.minor

theorem Written.atLeast (h : Written v c) {n : ℕ} (hn : n ≤ c.prepareSavestate 0) :
    v.atLeast 14 n = true := by
  rw [StateVersion.atLeast, h.major, decide_eq_true (hn.trans h.minor)]
  rfl

/-! ## The checks -/

theorem Sound.protocol (h : c.Sound) :
    c.record.protocol (typeOfLength c.sramLength) = c.sramType :=
  (media_types c.medium h.media).2.1

theorem Sound.profile_accepted (h : c.Sound) (hv : Written v c) :
    c.record.profileRejected v (typeOfLength c.sramLength) = false := by
  obtain ⟨-, -, hprof, hplain, -⟩ := media_types c.medium h.media
  rw [RetailRecord.profileRejected]
  by_cases hp : c.sramProfile = 0
  · rw [if_neg (by simp [record, hp])]
    exact decide_eq_false (not_le.mpr (hplain hp))
  · obtain ⟨hlo, hhi, hlen⟩ := hprof hp
    rw [if_pos (by simp [record, hp]), hv.atLeast (prepareSavestate_profile hp)]
    change (!true || decide (c.sramProfile < 11) ||
      decide (c.sramProfile ≥ saveLengths.length) ||
        saveLengths.getD c.sramProfile 0 != c.sramLength) = false
    have hlen' : saveLengths.getD c.sramProfile 0 = c.sramLength := hlen
    have hlo' : 11 ≤ c.sramProfile := hlo
    have hhi' : c.sramProfile < saveLengths.length := hhi
    rw [hlen', bne_self_eq_false, decide_eq_false (by omega), decide_eq_false (by omega)]
    rfl

theorem Sound.status_masked (h : c.Sound) :
    c.sramStatus &&& ~~~(statusMask c.sramType c.sramProfile ||| 3) = 0 := by
  refine BitVec.eq_of_getLsbD_eq fun i hi => ?_
  rw [BitVec.getLsbD_and, BitVec.getLsbD_not, BitVec.getLsbD_or, decide_eq_true hi, Bool.true_and]
  cases hbit : c.sramStatus.getLsbD i with
  | false => exact (Bool.false_and _).trans BitVec.getLsbD_zero.symm
  | true =>
    rcases Nat.lt_or_ge i 2 with hlt | hge
    · have hthree : (3 : U8).getLsbD i = true := by interval_cases i <;> rfl
      rw [hthree, Bool.or_true]
      exact BitVec.getLsbD_zero.symm
    · rw [h.status i hge hbit, Bool.true_or]
      exact BitVec.getLsbD_zero.symm

theorem Sound.locks_masked (h : c.Sound) (i : Fin 16) :
    (c.flashLocks i &&& (if i.val < c.sramLength / 65536 then ~~~3 else ~~~0)) = 0 := by
  have hsmall : ∀ x : U8, x.toNat < 4 → x &&& ~~~3 = 0 := by decide
  by_cases hzero : c.flashLocks i = 0
  · rw [hzero]
    exact BitVec.zero_and
  · obtain ⟨-, hlt, hval⟩ := h.locks i hzero
    rw [if_pos hlt]
    exact hsmall _ hval

theorem Sound.locks_accepted (h : c.Sound) (hv : Written v c) :
    c.record.locksRejected v c.sramType = false := by
  rw [RetailRecord.locksRejected, Bool.and_eq_false_iff, or_iff_not_imp_left, Bool.not_eq_false]
  intro hprof
  have hlocks : (List.finRange 16).any (fun i =>
      c.flashLocks i &&& (if i.val < c.sramLength / 65536 then ~~~3 else ~~~0) != 0) = false := by
    rw [List.any_eq_false]
    intro i _
    rw [h.locks_masked i, bne_self_eq_false]
    exact Bool.false_ne_true
  have hlock : (c.sramCmd == 0xE5 &&
      (c.pagePending || decide (c.sramSaveLen > 0xFF) || decide (c.sramAddr > 0xFFFFFF))) =
        false := by
    rw [Bool.and_eq_false_iff, or_iff_not_imp_left, Bool.not_eq_false, beq_iff_eq]
    intro hcmd
    obtain ⟨hlen, hclosed, haddr⟩ := h.lockCmd hprof hcmd
    rw [hclosed, decide_eq_false (by omega), decide_eq_false (by omega)]
    rfl
  rw [hv.atLeast (prepareSavestate_flash hprof)]
  change (!true || c.sramStatus &&& ~~~(statusMask c.sramType c.sramProfile ||| 3) != 0 ||
    (List.finRange 16).any (fun i => c.flashLocks i &&&
      (if i.val < c.sramLength / 65536 then ~~~3 else ~~~0) != 0) ||
    (c.sramCmd == 0xE5 && (c.pagePending || decide (c.sramSaveLen > 0xFF) ||
      decide (c.sramAddr > 0xFFFFFF)))) = false
  rw [h.status_masked, hlocks, hlock, bne_self_eq_false]
  rfl

theorem Sound.status_accepted (h : c.Sound)
    (hcmd : isStatusCommand c.sramType c.sramCmd c.sramProfile) :
    c.record.statusRejected v = false := by
  obtain ⟨hlen, haddr, hclosed⟩ := h.statusCmd hcmd
  change (v.atLeast 14 8 && (c.pagePending || c.sramSaveLen != 0 ||
    c.sramCmd == 0x01 && decide (c.sramAddr > 0xFF))) = false
  rw [hlen, hclosed, decide_eq_false (not_lt.mpr haddr), Bool.and_false]
  exact Bool.and_false _

/-- An erase of a subsector needs a flash profile. -/
theorem flash_of_extended {command : U8} (he : isExtendedErase command)
    (hsize : c.eraseSize command ≠ 0) : isFlashProfile c.sramProfile := by
  by_contra hno
  refine hsize ?_
  rw [isExtendedErase, Bool.or_eq_true, beq_iff_eq, beq_iff_eq] at he
  rw [eraseSize]
  split
  · rw [flashEraseSize, if_neg (by rcases he with hc | hc <;> rw [hc] <;> decide),
      if_neg (by rcases he with hc | hc <;> rw [hc] <;> decide),
      if_pos (by rw [(Bool.not_eq_true _).mp hno]; rfl)]
  · rfl

theorem Sound.page_accepted (h : c.Sound) (hv : Written v c) (hp : c.pagePending) :
    c.record.pageRejected v c.sramType = false := by
  have hpend := h.pending hp
  have hextended : (isExtendedErase c.sramCmd && !v.atLeast 14 12) = false := by
    rw [Bool.and_eq_false_iff, or_iff_not_imp_left, Bool.not_eq_false]
    intro he
    have hpos : c.sramPos ≠ 0 ∧ c.eraseSize c.sramCmd ≠ 0 := by
      rcases hpend.kind with ⟨hname, -⟩ | ⟨-, hne, hpos, -⟩
      · rcases eq_of_isPageCommand hname with hc | hc <;> rw [hc] at he <;>
          exact absurd he (by decide)
      · exact ⟨by omega, hne⟩
    rw [hv.atLeast (prepareSavestate_extended (flash_of_extended he hpos.2) (.inr ⟨hpos.1, he⟩))]
    rfl
  have hkind : (if isPageCommand c.sramType c.sramCmd then
      decide (c.sramPos ≥ c.addrBytes + 2) && decide (c.sramSaveLen > 0) &&
        decide (c.sramSaveLen ≤ c.pageSize)
      else c.eraseSize c.sramCmd != 0 && c.sramCmd != 0xC7 && c.sramPos == 4 &&
        c.sramSaveLen == c.eraseSize c.sramCmd) = true := by
    rcases hpend.kind with ⟨hname, hpos, hlen, hle⟩ | ⟨hname, hne, hpos, hlen⟩
    · rw [if_pos hname, decide_eq_true hpos, decide_eq_true hlen, decide_eq_true hle]
      rfl
    · have hother : isPageCommand c.sramType c.sramCmd = false := by
        by_contra hno
        have hpage := not_isErase_of_page ((Bool.not_eq_false _).mp hno)
        exact Bool.false_ne_true (hpage.symm.trans hname)
      have hbulk : (c.sramCmd != 0xC7) = true := by
        rcases eq_of_isErase hname with hc | hc | hc <;> rw [hc] <;> decide
      rw [hother, if_neg Bool.false_ne_true, hbulk, bne_iff_ne.mpr hne, beq_iff_eq.mpr hpos,
        beq_iff_eq.mpr hlen]
      rfl
  change (!v.atLeast 14 (if c.sramType = 1 then 10 else if c.sramType = 3 then 6 else 7) ||
    c.pageSize == 0 || !c.wel ||
    decide (c.sramSaveAddr ≥ if c.sramType = 1 then 512 else 256 ^ c.addrBytes) ||
    !(if isPageCommand c.sramType c.sramCmd then
        decide (c.sramPos ≥ c.addrBytes + 2) && decide (c.sramSaveLen > 0) &&
          decide (c.sramSaveLen ≤ c.pageSize)
      else c.eraseSize c.sramCmd != 0 && c.sramCmd != 0xC7 && c.sramPos == 4 &&
        c.sramSaveLen == c.eraseSize c.sramCmd) ||
    (isExtendedErase c.sramCmd && !v.atLeast 14 12)) = false
  rw [hextended, hkind, hv.atLeast (prepareSavestate_pending h hp), hpend.wel,
    beq_eq_false_iff_ne.mpr hpend.latch, decide_eq_false (not_le.mpr h.saveAddr)]
  rfl

theorem isExtendedErase_of_page {protocol : ℕ} {command : U8} (h : isPageCommand protocol command) :
    isExtendedErase command = false := by
  rcases eq_of_isPageCommand h with hc | hc <;> rw [hc] <;> decide

/-- The span of the write, as the loader checks it. -/
theorem valid_span {address span length : ℕ} (hspan : span ≠ 0) (hdvd : span ∣ address)
    (hfits : address + span ≤ length) :
    (span != 0 && decide (address < length) && address % span == 0 &&
      decide (span ≤ length - address)) = true := by
  rw [bne_iff_ne.mpr hspan, decide_eq_true (by omega), decide_eq_true (by omega),
    Nat.mod_eq_zero_of_dvd hdvd]
  rfl

theorem StatusWrite.masked (hk : c.StatusWrite) : BitVec.ofNat 32 c.writeAddress &&&
    ~~~((statusMask c.sramType c.sramProfile).setWidth 32) = 0 := by
  obtain ⟨-, -, ⟨status, haddr, hmask⟩, -⟩ := hk
  refine BitVec.eq_of_getLsbD_eq fun i hi => ?_
  rw [haddr, BitVec.ofNat_toNat, BitVec.getLsbD_and, BitVec.getLsbD_not, BitVec.getLsbD_setWidth,
    BitVec.getLsbD_setWidth, decide_eq_true hi, Bool.true_and, Bool.true_and]
  cases hbit : status.getLsbD i with
  | false => exact (Bool.false_and _).trans BitVec.getLsbD_zero.symm
  | true =>
    rw [hmask i hbit]
    exact BitVec.getLsbD_zero.symm

theorem Writing.span (hw : c.Writing) : (if (c.sramType ≠ 3 ∨ isFlashProfile c.sramProfile) ∧
      c.writeCommand = 0x01 then
    BitVec.ofNat 32 c.writeAddress &&&
        ~~~((statusMask c.sramType c.sramProfile).setWidth 32) == 0 &&
      c.writeFirst == 0 && c.writeLength == 0
  else if isPageCommand c.sramType c.writeCommand then
    (c.spanSize != 0 && decide (c.writeAddress < c.sramLength) &&
      c.writeAddress % c.spanSize == 0 && decide (c.spanSize ≤ c.sramLength - c.writeAddress)) &&
      decide (c.writeFirst < c.pageSize) && decide (c.writeLength > 0) &&
      decide (c.writeLength ≤ c.pageSize)
  else c.eraseSize c.writeCommand != 0 &&
    (c.spanSize != 0 && decide (c.writeAddress < c.sramLength) &&
      c.writeAddress % c.spanSize == 0 && decide (c.spanSize ≤ c.sramLength - c.writeAddress)) &&
      c.writeFirst == 0 && c.writeLength == c.spanSize) = true := by
  rcases hw.kind with hk | ⟨hname, hdvd, hfits, hfirst, hlen, hle⟩ | ⟨hsize, hdvd, hfits, hfirst, hlen⟩
  · obtain ⟨hcmd, htype, -, hfirst, hlen⟩ := id hk
    rw [if_pos ⟨or_iff_not_imp_left.mpr fun hno => htype (not_not.mp hno), hcmd⟩, hk.masked,
      hfirst, hlen]
    rfl
  · have hone : c.writeCommand ≠ 0x01 := by
      rcases eq_of_isPageCommand hname with hc | hc <;> rw [hc] <;> decide
    have hspan : c.spanSize = c.pageSize := if_neg (not_not.mpr (eraseSize_of_page hname))
    rw [if_neg (fun hno => hone hno.2), if_pos hname, hspan, valid_span hw.latch hdvd hfits,
      decide_eq_true hfirst, decide_eq_true hlen, decide_eq_true hle]
    rfl
  · have hone : c.writeCommand ≠ 0x01 := fun hc => hsize (by rw [hc]; exact eraseSize_status c)
    have hname : isPageCommand c.sramType c.writeCommand = false := by
      by_contra hno
      exact hsize (eraseSize_of_page ((Bool.not_eq_false _).mp hno))
    have hspan : c.spanSize = c.eraseSize c.writeCommand := if_pos hsize
    rw [if_neg (fun hno => hone hno.2), hname, if_neg Bool.false_ne_true, hspan,
      valid_span hsize hdvd hfits, hfirst, hlen, bne_iff_ne.mpr hsize]
    simp

theorem Sound.write_accepted (h : c.Sound) (hv : Written v c) (hd : c.writeDelay ≠ 0) :
    c.record.writeRejected v c.sramType = false := by
  have hw := h.writing hd
  have hextended : (c.eraseSize c.writeCommand != 0 && isExtendedErase c.writeCommand) =
      isExtendedErase c.writeCommand := by
    rw [Bool.and_eq_right_iff_imp, bne_iff_ne]
    intro he
    rcases hw.kind with hk | hk | hk
    · rw [hk.1] at he
      exact absurd he (by decide)
    · exact absurd ((isExtendedErase_of_page hk.1).symm.trans he) Bool.false_ne_true
    · exact hk.1
  have hbits : ∀ s : U8, s.getLsbD 0 = true → ∀ e, s.getLsbD 1 = !e →
      s &&& 3 = if e then 1 else 3 := by decide
  have hstatus := hbits c.sramStatus (h.wip.trans (decide_eq_true hd)) _ hw.wel
  have hminor : (isExtendedErase c.writeCommand && !v.atLeast 14 12) = false := by
    rw [Bool.and_eq_false_iff, or_iff_not_imp_left, Bool.not_eq_false]
    intro he
    have hsize : c.eraseSize c.writeCommand ≠ 0 := by
      rw [he, Bool.and_true, bne_iff_ne] at hextended
      exact hextended
    rw [hv.atLeast (prepareSavestate_extended (flash_of_extended he hsize) (.inl ⟨hd, he⟩))]
    rfl
  change (!v.atLeast 14 10 || c.pageSize == 0 || c.pagePending ||
    c.sramStatus &&& 3 != (if (c.eraseSize c.writeCommand != 0 &&
      isExtendedErase c.writeCommand) then 1 else 3) || c.sramSaveLen != 0 ||
    (c.eraseSize c.writeCommand != 0 && isExtendedErase c.writeCommand) && !v.atLeast 14 12 ||
    c.writeDelay != writeCycles c.sramType c.writeCommand c.writeLength || !_) = false
  rw [hextended, hminor, hstatus, hv.atLeast (prepareSavestate_writing hd),
    beq_eq_false_iff_ne.mpr hw.latch, hw.pending, hw.saveLen, ← hw.delay, bne_self_eq_false,
    bne_self_eq_false, bne_self_eq_false]
  exact congrArg (! ·) hw.span

theorem Sound.idle_accepted (h : c.Sound) (hd : c.writeDelay = 0) :
    c.record.idleRejected v c.sramType = false := by
  have hbit : c.sramStatus.getLsbD 0 = false := h.wip.trans (decide_eq_false (not_not.mpr hd))
  change (v.atLeast 14 10 && decide (c.sramType < 4) && c.sramStatus.getLsbD 0) = false
  rw [hbit, Bool.and_false]

theorem Sound.power_accepted (h : c.Sound) (hv : Written v c) (hp : c.Powered) :
    c.record.powerRejected v = false := by
  obtain ⟨hprof, hclosed, hidle, hlen, -⟩ := h.powered hp
  have hmin := prepareSavestate_power hprof (hp.imp_right .inl)
  have hblocked := h.blocked
  have hdelay := h.powerDelay
  rw [RetailRecord.powerRejected, hv.atLeast hmin]
  change (!true || !isFlashProfile c.sramProfile || decide (3 < c.powerState.code) ||
    decide (1 < (if c.powerBlocked then 1 else 0 : U8)) || c.writeDelay != 0 || c.pagePending ||
    c.sramSaveLen != 0 ||
    (c.powerState.code == 0 && (if c.powerBlocked then 1 else 0 : U8) == 0) ||
    ((if c.powerBlocked then 1 else 0 : U8) != 0 && c.sramCmd != 0) ||
    c.powerDelay != if (c.powerState.code == 1 || c.powerState.code == 3) then
      powerCycles (c.powerState.code == 3) else 0) = false
  rw [hprof, hclosed, hidle, hlen, hdelay, transitioning]
  rw [Powered] at hp
  cases hb : c.powerBlocked with
  | true =>
    rw [hblocked hb]
    cases c.powerState <;> rfl
  | false =>
    rw [hb] at hp
    cases hs : c.powerState with
    | awake => exact absurd hs (hp.resolve_right Bool.false_ne_true)
    | entering => rfl
    | asleep => rfl
    | waking => rfl

/-! ## The two directions -/

/-- No power command is left in the latch of an awake chip by a select. -/
def Tidy (c : CartRetail) : Prop :=
  isFlashProfile c.sramProfile → c.sramPos = 0 → isPowerCommand c.sramCmd → c.powerState = .asleep

theorem saving_accepted (h : c.Sound) (hv : Written v c) :
    c.savingDoSavestate v = some c.stateBytes := by
  have htype : saveTypeForLength c.record.length = some (typeOfLength c.sramLength) :=
    (media_types c.medium h.media).1
  have hpage : (c.record.pending && c.record.pageRejected v c.sramType) = false := by
    rw [Bool.and_eq_false_iff, or_iff_not_imp_left, Bool.not_eq_false]
    exact h.page_accepted hv
  have hwrite : (if c.record.writing then c.record.writeRejected v c.sramType
      else c.record.idleRejected v c.sramType) = false := by
    split_ifs with hd
    · exact h.write_accepted hv (bne_iff_ne.mp hd)
    · exact h.idle_accepted (by_contra fun hno => hd (bne_iff_ne.mpr hno))
  have hpower : (c.record.powered && c.record.powerRejected v) = false := by
    rw [Bool.and_eq_false_iff, or_iff_not_imp_left, Bool.not_eq_false]
    intro hp
    refine h.power_accepted hv ?_
    change (c.powerState != .awake || c.powerBlocked) = true at hp
    rw [Bool.or_eq_true, bne_iff_ne] at hp
    exact hp
  rw [savingDoSavestate, htype, Option.bind_some, h.protocol, h.profile_accepted hv,
    h.locks_accepted hv, hpage, hwrite, hpower]
  rfl

/-- The record as the loader has it, on its way: what is still to be read is blank. -/
def blank (old : CartRetail) (c : CartRetail) : RetailRecord :=
  { c.record with
    profile := 0
    locks := fun _ => 0
    pageBuffer := old.pageBuffer
    writeDelay := 0
    writeCommand := 0
    writeAddress := 0
    writeFirst := 0
    writeLength := 0
    writeBuffer := fun _ => 0
    powerState := 0
    powerDelay := 0
    powerBlocked := 0 }

theorem loadFields_bytes (h : c.Sound) (hv : v.major = 14) (old : CartRetail) (rest : List U8) :
    old.loadFields v c.sramLength (c.record.fieldBytes ++ rest) = some (blank old c, rest) := by
  obtain ⟨hword, hlen, hpending, hprofile, hwriting, hpowered⟩ :=
    RetailRecord.lengthWord_bits (r := c.record) h.saveLen
  have hsave : c.record.saveAddr < 2 ^ 32 := by
    refine h.saveAddr.trans_le ?_
    have hb := addrBytes_bounds c
    split
    · decide
    · exact (Nat.pow_le_pow_right (by decide) hb.2).trans (by decide)
  have hno : ¬v.major = 13 := by omega
  rw [loadFields, RetailRecord.fieldBytes]
  simp only [hno, if_false, decide_false, Bool.not_false, Bool.true_and, List.append_assoc,
    fetch8_append, fetch32_append (show c.record.pos < 2 ^ 32 from h.pos),
    fetch32_append (show c.record.addr < 2 ^ 32 from h.addr), fetch32_append hsave,
    fetch32_append hword, Option.bind_eq_bind, Option.bind_some, hlen, hpending, hprofile,
    hwriting, hpowered]
  rfl

theorem loadProfile_bytes (h : c.Sound) (hv : Written v c) (old : CartRetail) (rest : List U8) :
    (blank old c).loadProfile v (typeOfLength c.sramLength) (c.record.profileBytes ++ rest) =
      some ({ blank old c with profile := c.sramProfile }, rest) := by
  have hcheck := h.profile_accepted hv
  have hsmall : c.sramProfile < 2 ^ 32 :=
    (media_types c.medium h.media).2.2.2.2.2.2.trans (by decide)
  have hread : (if (blank old c).hasProfile then fetch32 (c.record.profileBytes ++ rest)
      else some (0, c.record.profileBytes ++ rest)) = some (c.sramProfile, rest) := by
    rw [RetailRecord.profileBytes]
    by_cases hp : c.sramProfile = 0
    · have hflag : (blank old c).hasProfile = false := by simp [blank, record, hp]
      rw [hflag, if_neg Bool.false_ne_true, if_neg (by simp [record, hp]), hp]
      rfl
    · have hflag : (blank old c).hasProfile = true := by simp [blank, record, hp]
      rw [hflag, if_pos rfl, if_pos (by simp [record, hp])]
      exact fetch32_append hsmall rest
  rw [RetailRecord.loadProfile, hread, Option.bind_some]
  exact if_neg (by
    rw [Bool.not_eq_true]
    exact hcheck)

theorem Sound.locks_zero (h : c.Sound) (hprof : isFlashProfile c.sramProfile = false) :
    c.flashLocks = fun _ => 0 := by
  refine funext fun i => by_contra fun hno => ?_
  exact Bool.false_ne_true (hprof.symm.trans (h.locks i hno).1)

theorem loadLocks_bytes (h : c.Sound) (hv : Written v c) (ht : c.Tidy) (old : CartRetail)
    (rest : List U8) :
    ({ blank old c with profile := c.sramProfile } : RetailRecord).loadLocks v c.sramType
        (c.record.lockBytes ++ rest) =
      some ({ blank old c with profile := c.sramProfile, locks := c.flashLocks }, rest) := by
  have hcheck := h.locks_accepted hv
  have hread : (if isFlashProfile c.sramProfile then fetchBuffer 16 (c.record.lockBytes ++ rest)
      else some (fun _ => 0, c.record.lockBytes ++ rest)) = some (c.flashLocks, rest) := by
    rw [RetailRecord.lockBytes]
    cases hp : isFlashProfile c.sramProfile with
    | true =>
      rw [if_pos rfl, if_pos (show isFlashProfile c.record.profile = true from hp)]
      exact fetchBuffer_append c.flashLocks rest
    | false =>
      have hno : ¬isFlashProfile c.record.profile = true := fun hno =>
        Bool.false_ne_true (hp.symm.trans hno)
      rw [if_neg Bool.false_ne_true, if_neg hno, h.locks_zero hp]
      rfl
  have hkept : (isFlashProfile c.sramProfile && !v.atLeast 14 13 && isPowerCommand c.sramCmd) =
      false := by
    rw [Bool.and_eq_false_iff, or_iff_not_imp_right, Bool.not_eq_false]
    intro hcmd
    rw [Bool.and_eq_false_iff, or_iff_not_imp_left, Bool.not_eq_false]
    intro hp
    have hmin : 13 ≤ c.prepareSavestate 0 := by
      refine prepareSavestate_power hp ?_
      by_cases hpos : c.sramPos = 0
      · exact .inl (by rw [ht hp hpos hcmd]; decide)
      · exact .inr (.inr ⟨hpos, hcmd⟩)
    rw [hv.atLeast hmin]
    rfl
  rw [RetailRecord.loadLocks]
  dsimp only
  rw [hread, Option.bind_some, if_neg (by
    rw [Bool.not_eq_true]
    exact hcheck)]
  exact if_neg (by
    rw [Bool.not_eq_true]
    exact hkept)

/-- The record with everything before the page read. -/
def opened (old : CartRetail) (c : CartRetail) : RetailRecord :=
  { blank old c with profile := c.sramProfile, locks := c.flashLocks }

/-- The page buffer is stored with a pending page only. -/
def paged (old : CartRetail) (c : CartRetail) : RetailRecord :=
  { opened old c with pageBuffer := if c.pagePending then c.pageBuffer else old.pageBuffer }

def buffered (old : CartRetail) (c : CartRetail) : RetailRecord :=
  { paged old c with
    writeDelay := c.writeDelay
    writeCommand := c.writeCommand
    writeAddress := c.writeAddress
    writeFirst := c.writeFirst
    writeLength := c.writeLength
    writeBuffer := if c.writeDelay ≠ 0 then c.writeBuffer else fun _ => 0 }

def restored (old : CartRetail) (c : CartRetail) : RetailRecord :=
  { buffered old c with
    powerState := c.powerState.code
    powerDelay := c.powerDelay
    powerBlocked := if c.powerBlocked then 1 else 0 }

theorem loadStatus_opened (h : c.Sound) (hv : v.major = 14) (old : CartRetail) :
    (opened old c).loadStatus v c.sramType = some (opened old c) := by
  rw [RetailRecord.loadStatus]
  split
  · next hcmd =>
    rw [if_neg (by omega)]
    refine if_neg ?_
    rw [Bool.not_eq_true]
    exact h.status_accepted hcmd
  · rfl

theorem loadPage_bytes (h : c.Sound) (hv : Written v c) (old : CartRetail) (rest : List U8) :
    (opened old c).loadPage v c.sramType (c.record.pageBytes ++ rest) =
      some (paged old c, rest) := by
  rw [RetailRecord.loadPage, RetailRecord.pageBytes, paged]
  cases hp : c.pagePending with
  | true =>
    have hcheck : (opened old c).pageRejected v c.sramType = false := h.page_accepted hv hp
    have hread := fetchBuffer_append c.record.pageBuffer rest
    rw [if_pos (show (opened old c).pending = true from hp), hcheck, if_neg Bool.false_ne_true,
      if_pos (show c.record.pending = true from hp), hread]
    rfl
  | false =>
    have hno (r : RetailRecord) (hr : r.pending = c.pagePending) : ¬r.pending = true := fun hno =>
      Bool.false_ne_true (hp.symm.trans (hr.symm.trans hno))
    rw [if_neg (hno _ rfl), if_neg (hno c.record rfl)]
    rfl

theorem writeCycles_lt {protocol : ℕ} {command : U8} {length : ℕ} (h : length ≤ 256 ∨ command ≠ 0x02) :
    writeCycles protocol command length < 2 ^ 32 := by
  have hsmall {n : ℕ} (hn : n ≤ 10000000) : cycles n < 2 ^ 32 := by
    rw [cycles]
    omega
  refine hsmall ?_
  rcases h with h | h
  · split_ifs <;> omega
  · split_ifs <;> omega

theorem Writing.bounds (hw : c.Writing) (hs : c.Sound) : c.writeDelay < 2 ^ 32 ∧
    c.writeAddress < 2 ^ 32 ∧ c.writeFirst < 2 ^ 32 ∧ c.writeLength < 2 ^ 32 := by
  have hlen := sramLength_lt hs.media
  have hpage := pageSize_le c
  rw [hw.delay]
  rcases hw.kind with ⟨hcmd, -, ⟨status, haddr, -⟩, hfirst, hlength⟩ |
      ⟨-, -, hfits, hfirst, -, hle⟩ | ⟨hsize, -, hfits, hfirst, hlength⟩
  · have hstatus := status.isLt
    refine ⟨writeCycles_lt (.inr (by rw [hcmd]; decide)), ?_, ?_, ?_⟩ <;> omega
  · refine ⟨writeCycles_lt (.inl (by omega)), ?_, ?_, ?_⟩ <;> omega
  · have hno : c.writeCommand ≠ 0x02 := fun hc => hsize (eraseSize_of_program (.inl hc))
    refine ⟨writeCycles_lt (.inr hno), ?_, ?_, ?_⟩ <;> omega

theorem loadWrite_bytes (h : c.Sound) (hv : Written v c) (old : CartRetail) (rest : List U8) :
    (paged old c).loadWrite v c.sramType (c.record.writeBytes ++ rest) =
      some (buffered old c, rest) := by
  by_cases hd : c.writeDelay = 0
  · have hflag : ¬c.record.writing = true := by simp [record, hd]
    have hnil : c.record.writeBytes = [] := if_neg hflag
    have hcheck : (paged old c).idleRejected v c.sramType = false := h.idle_accepted hd
    obtain ⟨hcmd, haddr, hfirst, hlen⟩ := h.idle hd
    have hsame : buffered old c = paged old c := by
      simp only [buffered, paged, opened, blank, hd, hcmd, haddr, hfirst, hlen, ne_eq,
        not_true_eq_false, if_false]
    rw [RetailRecord.loadWrite, if_neg (show ¬(paged old c).writing = true from hflag), hcheck,
      if_neg Bool.false_ne_true, hnil, List.nil_append, hsame]
  · have hflag : c.record.writing = true := by simp [record, hd]
    have hcheck : (buffered old c).writeRejected v c.sramType = false := h.write_accepted hv hd
    obtain ⟨hdelay, haddr, hfirst, hlen⟩ := (h.writing hd).bounds h
    have hbytes : c.record.writeBytes = toBytes 4 c.writeDelay ++ (toBytes 1 c.writeCommand.toNat ++
        (toBytes 4 c.writeAddress ++ (toBytes 4 c.writeFirst ++ (toBytes 4 c.writeLength ++
          List.ofFn c.writeBuffer)))) := if_pos hflag
    have hsame : buffered old c =
        { paged old c with
          writeDelay := c.writeDelay
          writeCommand := c.writeCommand
          writeAddress := c.writeAddress
          writeFirst := c.writeFirst
          writeLength := c.writeLength
          writeBuffer := c.writeBuffer } := by
      rw [buffered, if_pos hd]
    rw [RetailRecord.loadWrite, if_pos (show (paged old c).writing = true from hflag), hbytes]
    simp only [List.append_assoc, fetch8_append, fetch32_append hdelay, fetch32_append haddr,
      fetch32_append hfirst, fetch32_append hlen, fetchBuffer_append, Option.bind_eq_bind,
      Option.bind_some]
    rw [← hsame, hcheck]
    exact if_neg Bool.false_ne_true

theorem loadPower_bytes (h : c.Sound) (hv : Written v c) (old : CartRetail) (rest : List U8) :
    (buffered old c).loadPower v (c.record.powerBytes ++ rest) = some (restored old c, rest) := by
  by_cases hp : c.Powered
  · have hflag : c.record.powered = true := by
      rw [record, Bool.or_eq_true, bne_iff_ne]
      exact hp
    have hcheck : (restored old c).powerRejected v = false := h.power_accepted hv hp
    have hdelay : c.powerDelay < 2 ^ 32 := by
      rw [h.powerDelay]
      split
      · cases c.powerState == .waking <;> decide
      · decide
    have hbytes : c.record.powerBytes = toBytes 1 c.powerState.code.toNat ++
        (toBytes 4 c.powerDelay ++
          toBytes 1 (if c.powerBlocked then 1 else 0 : U8).toNat) := if_pos hflag
    rw [RetailRecord.loadPower, if_pos (show (buffered old c).powered = true from hflag), hbytes]
    simp only [List.append_assoc, fetch8_append, fetch32_append hdelay, Option.bind_eq_bind,
      Option.bind_some]
    change (if (restored old c).powerRejected v = true then none
      else some (restored old c, rest)) = _
    rw [hcheck]
    rfl
  · have hno := not_or.mp hp
    have hawake := not_not.mp hno.1
    have hflag : ¬c.record.powered = true := by
      rw [record, Bool.or_eq_true, bne_iff_ne]
      exact hp
    have hnil : c.record.powerBytes = [] := if_neg hflag
    have hdelay : c.powerDelay = 0 := by
      rw [h.powerDelay, transitioning_of_awake hawake, if_neg Bool.false_ne_true]
    have hsame : restored old c = buffered old c := by
      simp only [restored, buffered, paged, opened, blank, hawake, hdelay, hno.2, FlashPower.code,
        if_false, Bool.false_eq_true]
    rw [RetailRecord.loadPower, if_neg (show ¬(buffered old c).powered = true from hflag), hnil,
      List.nil_append, hsame]

theorem loading_accepted (h : c.Sound) (hv : Written v c) (ht : c.Tidy) {old : CartRetail}
    (htype : old.sramType = 4 ↔ c.sramType = 4) (beyond : ℕ) (rest : List U8) :
    old.loadingDoSavestate v beyond (c.stateBytes ++ rest) =
      some (old.restore c.common ((List.range c.sramLength).map c.sram) c.sramType (restored old c),
        rest) := by
  obtain ⟨hfound, -, -, -, hfour, hlen, -⟩ := media_types c.medium h.media
  have hfound' : saveTypeForLength c.sramLength = some (typeOfLength c.sramLength) := hfound
  have hsram : ((List.range c.sramLength).map c.sram).length = c.sramLength := by
    rw [List.length_map, List.length_range]
  have hsize : c.sramLength < 2 ^ 32 := lt_trans (show c.sramLength < 2 ^ 28 from hlen) (by decide)
  have hgo : ¬(decide (old.sramType = 4) ≠ decide (saveProtocol (typeOfLength c.sramLength) = 4) ∨
      c.sramLength > (((List.range c.sramLength).map c.sram) ++ (c.record.fieldBytes ++
        (c.record.profileBytes ++ (c.record.lockBytes ++ (c.record.pageBytes ++
          (c.record.writeBytes ++ (c.record.powerBytes ++ rest))))))).length + beyond) := by
    rw [not_or, not_not, decide_eq_decide, htype]
    refine ⟨hfour.symm, ?_⟩
    rw [List.length_append, hsram]
    omega
  have hprotocol : RetailRecord.protocol (typeOfLength c.sramLength)
      { blank old c with profile := c.sramProfile } = c.sramType := h.protocol
  rw [loadingDoSavestate, stateBytes, RetailRecord.bytes]
  simp only [List.append_assoc, CartCommon.loading_bytes hv.major, Option.bind_eq_bind,
    Option.bind_some, show c.record.length = c.sramLength from rfl, fetch32_append hsize, hfound']
  rw [if_neg hgo]
  simp only [fetch_append hsram, Option.bind_some, loadFields_bytes h hv.major,
    loadProfile_bytes h hv, hprotocol, loadLocks_bytes h hv ht]
  change ((opened old c).loadStatus v c.sramType).bind _ = _
  simp only [loadStatus_opened h hv.major, Option.bind_some, loadPage_bytes h hv,
    loadWrite_bytes h hv, loadPower_bytes h hv]

/-- The cart `d` is the cart `c` as far as a savestate goes: the buffers count only while
they are in use. -/
structure Restored (c d : CartRetail) : Prop where
  common : d.common = c.common
  medium : d.medium = c.medium
  sram : ∀ i < c.sramLength, d.sram i = c.sram i
  status : d.sramStatus = c.sramStatus
  command : d.sramCmd = c.sramCmd
  address : d.sramAddr = c.sramAddr
  position : d.sramPos = c.sramPos
  start : d.sramSaveAddr = c.sramSaveAddr
  count : d.sramSaveLen = c.sramSaveLen
  pending : d.pagePending = c.pagePending
  page : c.pagePending → d.pageBuffer = c.pageBuffer
  delay : d.writeDelay = c.writeDelay
  write : d.writeCommand = c.writeCommand ∧ d.writeAddress = c.writeAddress ∧
    d.writeFirst = c.writeFirst ∧ d.writeLength = c.writeLength
  buffer : c.writeDelay ≠ 0 → d.writeBuffer = c.writeBuffer
  locks : d.flashLocks = c.flashLocks
  power : d.powerState = c.powerState ∧ d.powerDelay = c.powerDelay ∧
    d.powerBlocked = c.powerBlocked

theorem restored_restore (old c : CartRetail) : Restored c
    (old.restore c.common ((List.range c.sramLength).map c.sram) c.sramType (restored old c)) := by
  have hsram (i : ℕ) (hi : i < c.sramLength) : (if i < c.sramLength then
      ((List.range c.sramLength).map c.sram).getD i 0 else old.sram i) = c.sram i := by
    rw [if_pos hi, List.getD_eq_getElem _ _ (by rw [List.length_map, List.length_range]; exact hi),
      List.getElem_map, List.getElem_range]
  have hblocked : ((if c.powerBlocked then 1 else 0 : U8) != 0) = c.powerBlocked := by
    cases c.powerBlocked <;> rfl
  unfold restore
  dsimp only
  split <;> exact
    { common := rfl
      medium := rfl
      sram := hsram
      status := rfl
      command := rfl
      address := rfl
      position := rfl
      start := rfl
      count := rfl
      pending := rfl
      page := fun hp => if_pos hp
      delay := rfl
      write := ⟨rfl, rfl, rfl, rfl⟩
      buffer := fun hd => if_pos hd
      locks := rfl
      power := ⟨code_ofCode _, rfl, hblocked⟩ }

/-! ## Runs -/

theorem Tidy.of_zero {d : CartRetail} (h : d.sramCmd = 0) : d.Tidy := fun _ _ hcmd =>
  absurd hcmd (by rw [h]; decide)

theorem Tidy.congr {d : CartRetail} (h : c.Tidy) (hprof : d.sramProfile = c.sramProfile)
    (hpos : d.sramPos = c.sramPos) (hcmd : d.sramCmd = c.sramCmd)
    (hstate : d.powerState = c.powerState) : d.Tidy := by
  rw [Tidy, hprof, hpos, hcmd, hstate]
  exact h

/-- A power command is under way on a chip that is awake. -/
def Stray (c : CartRetail) : Prop :=
  isFlashProfile c.sramProfile ∧ c.powerState = .awake ∧ c.sramPos ≠ 0 ∧ isPowerCommand c.sramCmd

instance (c : CartRetail) : Decidable c.Stray := inferInstanceAs (Decidable (_ ∧ _))

theorem Tidy.spiSelect (h : c.Tidy) (hno : ¬c.Stray) : c.spiSelect.Tidy := by
  intro hprof _ hcmd
  change isPowerCommand (if c.transitioning then 0 else c.sramCmd) at hcmd
  cases ht : c.transitioning with
  | true =>
    rw [ht, if_pos rfl] at hcmd
    exact absurd hcmd (by decide)
  | false =>
    rw [ht, if_neg Bool.false_ne_true] at hcmd
    by_cases hpos : c.sramPos = 0
    · exact h hprof hpos hcmd
    · have hstate : c.powerState ≠ .awake := fun ha => hno ⟨hprof, ha, hpos, hcmd⟩
      change c.powerState = .asleep
      rw [CartRetail.transitioning] at ht
      cases hs : c.powerState with
      | awake => exact absurd hs hstate
      | asleep => rfl
      | entering =>
        rw [hs] at ht
        exact absurd ht (by decide)
      | waking =>
        rw [hs] at ht
        exact absurd ht (by decide)

/-- A byte that leaves the position at the start leaves the command or clears it. -/
theorem sramPos_spiTransmitReceive (val : U8) (h : (c.spiTransmitReceive val).2.sramPos = 0) :
    c.sramPos = 0 ∧ ((c.spiTransmitReceive val).2.sramCmd = c.sramCmd ∨
      (c.spiTransmitReceive val).2.sramCmd = 0) := by
  revert h
  rw [CartRetail.spiTransmitReceive]
  by_cases h0 : c.sramType = 0
  · rw [if_pos h0]
    exact fun h => ⟨h, .inl rfl⟩
  rw [if_neg h0]
  by_cases hb : c.powerBlocked = true
  · rw [if_pos hb]
    exact fun h => ⟨h, .inl rfl⟩
  rw [if_neg hb]
  by_cases hpos : c.sramPos = 0
  · rw [if_pos hpos]
    split
    · exact fun _ => ⟨hpos, .inr rfl⟩
    · exact fun h => absurd h (sramPos_countByte_ne_zero _)
  rw [if_neg hpos]
  by_cases hcmd : c.sramCmd = 0
  · rw [if_pos hcmd]
    exact fun h => absurd h hpos
  rw [if_neg hcmd]
  split
  · exact fun h => absurd h (sramPos_countByte_ne_zero _)
  · exact fun h => absurd h (sramPos_countByte_ne_zero _)

theorem Tidy.spiTransmitReceive (h : c.Tidy) (val : U8) : (c.spiTransmitReceive val).2.Tidy := by
  intro hprof hpos hcmd
  have hchip := chip_spiTransmitReceive val c
  obtain ⟨hpos', hsame | hzero⟩ := sramPos_spiTransmitReceive val hpos
  · have hprof' : isFlashProfile c.sramProfile :=
      congrArg (fun chip => isFlashProfile chip.medium.2.1) hchip ▸ hprof
    exact (congrArg Chip.powerState hchip).trans (h hprof' hpos' (hsame ▸ hcmd))
  · rw [hzero] at hcmd
    exact absurd hcmd (by decide)

theorem Tidy.spiRelease (h : c.Tidy) : c.spiRelease.Tidy := by
  refine spiRelease_cases c (fun _ => .of_zero rfl) h (fun _ _ _ => .of_zero ?_)
    (fun _ _ _ _ => .of_zero rfl) (fun _ _ _ _ => .of_zero rfl) (fun _ _ _ _ => .of_zero rfl)
    (fun _ _ _ => ?_) (fun _ _ _ => ?_)
  · rw [CartRetail.releasePower]
    dsimp only
    split_ifs <;> rfl
  · cases he : isExtendedErase c.sramCmd with
    | true =>
      refine .of_zero ?_
      rw [CartRetail.releasePage]
      dsimp only
      rw [he]
      rfl
    | false =>
      refine h.congr ?_ ?_ ?_ ?_ <;>
        · rw [CartRetail.releasePage]
          dsimp only
          rw [he]
          rfl
  · refine h.congr ?_ ?_ ?_ ?_ <;>
      · unfold CartRetail.releaseDirty publishDirty
        split_ifs <;> rfl

theorem Tidy.completeSave (h : c.Tidy) (hs : c.Sound) : c.completeSave.Tidy := by
  rw [CartRetail.completeSave]
  by_cases hp : c.powerDelay ≠ 0
  · rw [if_pos hp]
    intro hprof hpos hcmd
    have hasleep := h hprof hpos hcmd
    have htransit := hs.transitioning_iff.mp hp
    rw [CartRetail.transitioning, hasleep] at htransit
    exact absurd htransit (by decide)
  rw [if_neg hp]
  by_cases hd : c.writeDelay = 0
  · rw [if_pos hd]
    exact h
  · rw [if_neg hd]
    refine h.congr ?_ ?_ ?_ ?_ <;>
      · unfold completeWrite
        split_ifs <;> rfl

theorem medium_apply (op : CartOp) (c : CartRetail) : (op.apply c).medium = c.medium := by
  cases op with
  | spiSelect => rfl
  | spiTransmitReceive val => exact congrArg Chip.medium (chip_spiTransmitReceive val c)
  | spiRelease => exact (c.spiRelease_keeps).2.1
  | completeSave => exact (c.completeSave_keeps).1
  | cancelSave powerOff => rfl
  | setSaveMemory savedata =>
    rw [CartOp.apply, CartRetail.setSaveMemory]
    dsimp only
    split <;> rfl
  | reset => rfl

end CartRetail

/-- The two calls after which a state can no longer be saved as it is: a byte of a page
program that was released and is being written, and a select over an open power command. -/
def CartOp.Breaks (c : CartRetail) : CartOp → Prop
  | .spiTransmitReceive _ => c.Appends
  | .spiSelect => c.Stray
  | _ => False

instance (c : CartRetail) : (op : CartOp) → Decidable (op.Breaks c)
  | .spiTransmitReceive _ => inferInstanceAs (Decidable c.Appends)
  | .spiSelect => inferInstanceAs (Decidable c.Stray)
  | .spiRelease | .completeSave | .cancelSave _ | .setSaveMemory _ | .reset =>
    inferInstanceAs (Decidable False)

namespace CartRetail

theorem Tidy.apply {c : CartRetail} (h : c.Tidy) (hs : c.Sound) {op : CartOp}
    (hno : ¬op.Breaks c) : (op.apply c).Tidy := by
  cases op with
  | spiSelect => exact h.spiSelect hno
  | spiTransmitReceive val => exact h.spiTransmitReceive val
  | spiRelease => exact h.spiRelease
  | completeSave => exact h.completeSave hs
  | cancelSave powerOff => exact .of_zero rfl
  | setSaveMemory savedata =>
    refine .of_zero ?_
    rw [CartOp.apply, CartRetail.setSaveMemory]
    dsimp only
    split <;> rfl
  | reset => exact .of_zero rfl

/-- The cart after calls on a new one. -/
def after (resetState : Bool) (saveMemType : ℕ) (sram : Option (List U8)) (ops : List CartOp) :
    CartRetail :=
  ops.foldl (fun c op => op.apply c) (build resetState saveMemType sram)

/-- A state is written, accepted by a new cart of the same type and restored. -/
theorem savestate_closure (resetState resetState' : Bool) (saveMemType : ℕ)
    (sram sram' : Option (List U8)) (ops : List CartOp)
    (hops : ∀ p ∈ trace (fun c op => CartOp.apply c op) (build resetState saveMemType sram) ops,
      ¬p.2.Breaks p.1)
    (v : StateVersion) (hv : Written v (after resetState saveMemType sram ops))
    (beyond : ℕ) (rest : List U8) :
    (after resetState saveMemType sram ops).savingDoSavestate v =
        some (after resetState saveMemType sram ops).stateBytes ∧
      ∃ d, (build resetState' saveMemType sram').loadingDoSavestate v beyond
          ((after resetState saveMemType sram ops).stateBytes ++ rest) = some (d, rest) ∧
        Restored (after resetState saveMemType sram ops) d := by
  have hkept : (after resetState saveMemType sram ops).Sound ∧
      (after resetState saveMemType sram ops).Tidy ∧
      (after resetState saveMemType sram ops).medium =
        (build resetState saveMemType sram).medium := by
    refine foldl_invariant (P := fun c => c.Sound ∧ c.Tidy ∧
      c.medium = (build resetState saveMemType sram).medium)
      (C := fun c op => ¬CartOp.Breaks c op) (fun c op h hno => ⟨?_, ?_, ?_⟩)
      ⟨sound_build resetState saveMemType sram, .of_zero rfl, rfl⟩ hops
    · exact CartOp.sound h.1 op fun val hop happ => hno (hop ▸ happ)
    · exact h.2.1.apply h.1 hno
    · exact (medium_apply op c).trans h.2.2
  obtain ⟨hs, ht, hmedium⟩ := hkept
  have htype : (build resetState' saveMemType sram').sramType = 4 ↔
      (after resetState saveMemType sram ops).sramType = 4 := by
    have hsame : (after resetState saveMemType sram ops).sramType =
        (build resetState saveMemType sram).sramType := congrArg Prod.fst hmedium
    rw [hsame]
    rfl
  exact ⟨saving_accepted hs hv, _, loading_accepted hs hv ht htype beyond rest,
    restored_restore _ _⟩

/-- A page program of one byte, released if the flag says so. -/
def programByte (released : Bool) : List CartOp :=
  [.spiSelect, .spiTransmitReceive 0x06, .spiRelease, .spiSelect, .spiTransmitReceive 0x02,
    .spiTransmitReceive 0, .spiTransmitReceive 0, .spiTransmitReceive 0, .spiTransmitReceive 0x55] ++
    if released then [.spiRelease] else []

theorem savestate_closure_programByte :
    ((∀ p ∈ trace (fun c op => CartOp.apply c op) (build false 15 none) (programByte true),
      ¬p.2.Breaks p.1) ∧ Written ⟨14, 11⟩ (after false 15 none (programByte true))) ∧
      ∃ d, (build true 15 none).loadingDoSavestate ⟨14, 11⟩ 0
          ((after false 15 none (programByte true)).stateBytes ++ []) = some (d, []) ∧
        Restored (after false 15 none (programByte true)) d := by
  have hops : ∀ p ∈ trace (fun c op => CartOp.apply c op) (build false 15 none)
      (programByte true), ¬p.2.Breaks p.1 := by decide
  have hv : Written ⟨14, 11⟩ (after false 15 none (programByte true)) := ⟨rfl, by decide⟩
  exact ⟨⟨hops, hv⟩, (savestate_closure false true 15 none none _ hops _ hv 0 []).2⟩

/-- Another byte of the page while the chip writes it: the state is not even written. -/
theorem savestate_rejected :
    (after false 5 none (programByte true ++ [.spiTransmitReceive 0xAA])).prepareSavestate 0 = 10 ∧
      (after false 5 none (programByte true ++ [.spiTransmitReceive 0xAA])).savingDoSavestate
        ⟨14, 10⟩ = none := by
  exact ⟨by decide, by decide⟩

end CartRetail
end MelonDS.NDSCart

import MelonDS.NDSCart.SoundBytes

/-!
# Releasing the chip keeps it sound

The end of a transaction may start an internal write, change the power state, or only
end the command; `Sound.began` and `Sound.ended` are the two shapes of the state after it.
-/

namespace MelonDS.NDSCart
namespace CartRetail

variable {c : CartRetail}

theorem cycles_ne_zero {n : ℕ} (h : 0 < n) : cycles n ≠ 0 := by
  rw [cycles]
  omega

theorem writeCycles_ne_zero (protocol : ℕ) {command : U8} {length : ℕ} (h : 0 < length ∨ command = 0x01) :
    writeCycles protocol command length ≠ 0 := by
  refine cycles_ne_zero ?_
  rcases h with h | h
  · split_ifs <;> omega
  · rw [h, if_pos rfl]
    split <;> decide

/-- The state after a command that has ended without starting a write. -/
theorem Sound.ended (h : c.Sound) (hidle : c.writeDelay = 0) (hclosed : c.pagePending = false)
    {status : U8} {locks : Fin 16 → U8} {len : ℕ} {blocked : Bool} (hlen : len = 0)
    (hstatus : ∀ i, i ≠ 1 → status.getLsbD i → c.sramStatus.getLsbD i ∨
      (statusMask c.sramType c.sramProfile).getLsbD i)
    (hlocks : ∀ i, locks i ≠ 0 → isFlashProfile c.sramProfile ∧
      i.val < c.sramLength / 65536 ∧ (locks i).toNat < 4)
    (hblocked : blocked → c.powerBlocked) :
    Sound
      { c with
        sramPos := 0
        sramCmd := 0
        sramStatus := status
        flashLocks := locks
        sramSaveLen := len
        powerBlocked := blocked } := by
  have hno : isStatusCommand c.sramType 0 c.sramProfile = false := not_isStatusCommand (by decide)
  exact
    { h with
      status := fun i hi hs => (hstatus i (by omega) hs).elim (h.status i hi) id
      wip := by
        rw [decide_eq_false (not_not.mpr hidle)]
        by_contra hbit
        rcases hstatus 0 (by decide) ((Bool.not_eq_false _).mp hbit) with hb | hb
        · have hw := h.wip
          rw [hb, decide_eq_false (not_not.mpr hidle)] at hw
          exact Bool.false_ne_true hw.symm
        · exact Bool.false_ne_true ((statusMask_getLsbD_zero _ _).symm.trans hb)
      writing := absurd hidle
      pending := fun hp => absurd (hclosed.symm.trans hp) Bool.false_ne_true
      pos := Nat.two_pow_pos 32
      shifted := absurd rfl
      saveLen := hlen ▸ Nat.two_pow_pos 28
      fresh := fun _ _ => hlen
      statusCmd := fun hs => absurd (hno.symm.trans hs) Bool.false_ne_true
      samePage := fun _ _ _ hlt => absurd hlt (Nat.not_lt_zero _)
      lockCmd := fun _ hc => absurd hc (by decide : ¬(0 : U8) = 0xE5)
      locks := hlocks
      powered := fun hp => by
        have hpow := h.powered (hp.imp_right hblocked)
        exact ⟨hpow.1, hclosed, hidle, hlen, absurd rfl⟩
      blocked := fun _ => rfl }

/-- The state after an internal write has begun. -/
theorem Sound.began (h : c.Sound) (hawake : c.powerState = .awake)
    (hblocked : c.powerBlocked = false) (hwel : c.wel) (hpage : c.pageSize ≠ 0)
    {command cmd : U8} {address first length pos start len : ℕ} {pending : Bool}
    (hlen : len = 0) (hpending : pending = false) (hpos : pos < 2 ^ 32)
    (hshift : pos ≠ 0 → pos ≤ c.addrBytes + 1 → c.sramAddr < 256 ^ (pos - 1))
    (hstart : start < if c.sramType = 1 then 512 else 256 ^ c.addrBytes)
    (hcmd : cmd = 0 ∨ isPageCommand c.sramType cmd ∨ (isErase cmd ∧ 4 ≤ pos))
    (hcycles : 0 < length ∨ command = 0x01)
    (hkind : (c.beginSave command address first length).StatusWrite ∨
      (c.beginSave command address first length).PageWrite ∨
      (c.beginSave command address first length).EraseWrite) :
    Sound
      { c.beginSave command address first length with
        sramPos := pos
        sramCmd := cmd
        pagePending := pending
        sramSaveAddr := start
        sramSaveLen := len } := by
  have hother : cmd ≠ 0xE5 ∧ isStatusCommand c.sramType cmd c.sramProfile = false := by
    rcases hcmd with hc | hc | hc
    · rw [hc]
      exact ⟨by decide, not_isStatusCommand (by decide)⟩
    · exact ⟨(isArray_of_page hc).1, not_isStatusCommand (isArray_of_page hc).2.2.2⟩
    · exact ⟨(isArray_of_erase hc.1).1, not_isStatusCommand (isArray_of_erase hc.1).2.2.2⟩
  have hd : writeCycles c.sramType command length ≠ 0 := writeCycles_ne_zero _ hcycles
  have hbit (i : ℕ) : (c.beginSave command address first length).sramStatus.getLsbD i =
      ((c.sramStatus.getLsbD i || i == 0) && (!isExtendedErase command || i != 1)) := by
    rw [beginSave]
    cases isExtendedErase command with
    | true =>
      rw [if_pos rfl, getLsbD_clearWel, getLsbD_setWip, Bool.not_true, Bool.false_or]
    | false =>
      rw [if_neg Bool.false_ne_true, getLsbD_setWip, Bool.not_false, Bool.true_or, Bool.and_true]
  exact
    { h with
      status := fun i hi hs => by
        have hs' := (hbit i).symm.trans hs
        rw [Bool.and_eq_true, Bool.or_eq_true, beq_iff_eq] at hs'
        exact h.status i hi (hs'.1.resolve_right (by omega))
      wip := by
        refine (hbit 0).trans (Eq.trans ?_ (decide_eq_true hd).symm)
        simp
      writing := fun _ =>
        { latch := hpage
          pending := hpending
          saveLen := hlen
          awake := hawake
          blocked := hblocked
          delay := rfl
          wel := by
            have hw : c.sramStatus.getLsbD 1 = true := hwel
            refine (hbit 1).trans ?_
            rw [hw, Bool.true_or, Bool.true_and, bne_self_eq_false, Bool.or_false]
            rfl
          kind := hkind
          command := fun _ => hcmd.imp_right .inr }
      idle := fun hno => absurd hno hd
      pending := fun hp => absurd (hpending.symm.trans hp) Bool.false_ne_true
      pos := hpos
      shifted := hshift
      saveAddr := hstart
      saveLen := hlen ▸ Nat.two_pow_pos 28
      fresh := fun _ _ => hlen
      statusCmd := fun hs => absurd (hother.2.symm.trans hs) Bool.false_ne_true
      samePage := fun _ _ _ _ _ hno => absurd hno hd
      lockCmd := fun _ hc => absurd hc hother.1
      powered := fun hp => by
        rcases hp with hp | hp
        · exact absurd hawake hp
        · exact absurd (hblocked.symm.trans hp) Bool.false_ne_true
      blocked := fun hp => absurd (hblocked.symm.trans hp) Bool.false_ne_true }

theorem Sound.releaseBlocked (h : c.Sound) (hb : c.powerBlocked = true) :
    Sound { c.endCommand with powerBlocked := false } := by
  obtain ⟨hprof, hclosed, hidle, hlen, -⟩ := h.powered (.inr hb)
  exact h.ended hidle hclosed hlen (fun _ _ hs => .inl hs) h.locks fun hno =>
    absurd hno Bool.false_ne_true

theorem isPowerCommand_iff {command : U8} :
    isPowerCommand command ↔ command = 0xB9 ∨ command = 0xAB := by
  rw [isPowerCommand, Bool.or_eq_true, beq_iff_eq, beq_iff_eq]

theorem Sound.releasePower (h : c.Sound) (hidle : c.writeDelay = 0)
    (hprof : isFlashProfile c.sramProfile) (hcmd : isPowerCommand c.sramCmd) :
    c.releasePower.Sound := by
  have hclosed : c.pagePending = false := by
    by_contra hno
    have hother : IsArray c.sramCmd := (h.pending ((Bool.not_eq_false _).mp hno)).command.elim
      isArray_of_page isArray_of_erase
    rcases isPowerCommand_iff.mp hcmd with hc | hc
    · rcases (h.pending ((Bool.not_eq_false _).mp hno)).command with hn | hn
      · rcases eq_of_isPageCommand hn with hv | hv <;> exact absurd (hv.symm.trans hc) (by decide)
      · rcases eq_of_isErase hn with hv | hv | hv <;> exact absurd (hv.symm.trans hc) (by decide)
    · exact hother.2.1 hc
  have hended (len : ℕ) (hlen : len = 0) :=
    h.ended hidle hclosed hlen (fun _ _ hs => .inl hs) h.locks (id : c.powerBlocked → _)
  rw [CartRetail.releasePower]
  by_cases hgo : c.sramPos = 1 ∧ c.powerState = if (c.sramCmd == 0xAB) = true then .asleep else .awake
  · rw [if_pos hgo]
    exact
      { hended 0 rfl with
        writing := absurd hidle
        pending := fun hp => absurd (hclosed.symm.trans hp) Bool.false_ne_true
        powered := fun _ => ⟨hprof, hclosed, hidle, rfl, absurd rfl⟩
        powerDelay := by
          rw [transitioning]
          cases c.sramCmd == 0xAB <;> rfl }
  · rw [if_neg hgo]
    exact hended 0 rfl

theorem Sound.releaseStatus (h : c.Sound) (hidle : c.writeDelay = 0) (hawake : c.powerState = .awake)
    (hblocked : c.powerBlocked = false)
    (hcmd : isStatusCommand c.sramType c.sramCmd c.sramProfile) : c.releaseStatus.endCommand.Sound := by
  obtain ⟨hlen, haddr, hclosed⟩ := h.statusCmd hcmd
  have hended (status : U8) (hstatus : ∀ i, i ≠ 1 → status.getLsbD i → c.sramStatus.getLsbD i ∨
      (statusMask c.sramType c.sramProfile).getLsbD i) :=
    h.ended hidle hclosed hlen hstatus h.locks (id : c.powerBlocked → _)
  rw [CartRetail.releaseStatus]
  by_cases hset : c.sramCmd = 0x06 ∧ c.sramPos = 1
  · rw [if_pos hset]
    refine hended _ fun i hi hs => .inl ?_
    rw [getLsbD_setWel, Bool.or_eq_true, beq_iff_eq] at hs
    exact hs.resolve_right hi
  rw [if_neg hset]
  by_cases hclear : c.sramCmd = 0x04 ∧ c.sramPos = 1
  · rw [if_pos hclear]
    refine hended _ fun i _ hs => .inl ?_
    rw [getLsbD_clearWel, Bool.and_eq_true] at hs
    exact hs.1
  rw [if_neg hclear]
  by_cases hwrite : c.sramCmd = 0x01 ∧ c.sramPos = 2 ∧ c.wel
  · rw [if_pos hwrite]
    have hmask (i : ℕ) (hs : (BitVec.ofNat 8 c.sramAddr &&&
        statusMask c.sramType c.sramProfile).getLsbD i) :
        (statusMask c.sramType c.sramProfile).getLsbD i := by
      rw [BitVec.getLsbD_and, Bool.and_eq_true] at hs
      exact hs.2
    by_cases hlatch : c.sramType = 1 ∨ eepromPageSize c.sramProfile ≠ 0 ∨
        isFlashProfile c.sramProfile
    · change (if _ then _ else _ : CartRetail).endCommand.Sound
      rw [if_pos hlatch]
      have hpage : c.pageSize ≠ 0 := by
        rcases hlatch with hl | hl | hl
        · rw [pageSize, if_pos hl]
          decide
        · unfold pageSize
          split_ifs
          · decide
          · decide
          · exact hl
        · exact pageSize_of_profile h.media hl
      refine h.began hawake hblocked hwrite.2.2 hpage hlen hclosed (Nat.two_pow_pos 32)
        (absurd rfl) h.saveAddr (.inl rfl) (.inr rfl) (.inl ⟨rfl, fun hthree => ?_, ⟨_, rfl, hmask⟩,
          rfl, rfl⟩)
      have hthree' : c.sramType = 3 := hthree
      rw [isStatusCommand, hthree', hwrite.1] at hcmd
      have hprof : isFlashProfile c.sramProfile = true := by simpa using hcmd
      exact hprof
    · change (if _ then _ else _ : CartRetail).endCommand.Sound
      rw [if_neg hlatch]
      exact hended _ fun i _ hs => .inr (hmask i hs)
  · rw [if_neg hwrite]
    exact hended _ fun _ _ hs => .inl hs

theorem Sound.releaseLock (h : c.Sound) (hidle : c.writeDelay = 0)
    (hprof : isFlashProfile c.sramProfile) (hcmd : c.sramCmd = 0xE5) :
    Sound { c.releaseLock.endCommand with sramSaveLen := 0 } := by
  obtain ⟨-, hclosed, -⟩ := h.lockCmd hprof hcmd
  rw [CartRetail.releaseLock]
  by_cases hset : c.sramPos = 5 ∧ c.wel ∧
      (c.flashLocks (Fin.ofNat 16 (c.sramAddr % c.sramLength / 65536))).getLsbD 1 = false
  · rw [if_pos hset]
    refine h.ended hidle hclosed rfl (fun i _ hs => .inl ?_) (fun i hi => ?_) id
    · change (c.sramStatus &&& ~~~2).getLsbD i = true at hs
      rw [getLsbD_clearWel, Bool.and_eq_true] at hs
      exact hs.1
    · change Function.update c.flashLocks _ (BitVec.ofNat 8 c.sramSaveLen &&& 3) i ≠ 0 at hi
      change _ ∧ _ ∧ (Function.update c.flashLocks _ (BitVec.ofNat 8 c.sramSaveLen &&& 3) i).toNat < 4
      by_cases hsector : i = Fin.ofNat 16 (c.sramAddr % c.sramLength / 65536)
      · rw [hsector, Function.update_self]
        refine ⟨hprof, ?_, ?_⟩
        · rw [Fin.val_ofNat]
          rcases length_of_profile h.media hprof with hl | hl | hl <;> rw [hl] <;> omega
        · rw [BitVec.toNat_and]
          exact Nat.lt_succ_of_le Nat.and_le_right
      · rw [Function.update_of_ne hsector] at hi ⊢
        exact h.locks i hi
  · rw [if_neg hset]
    exact h.ended hidle hclosed rfl (fun _ _ hs => .inl hs) h.locks id

theorem Sound.releaseBulkErase (h : c.Sound) (hidle : c.writeDelay = 0)
    (hawake : c.powerState = .awake) (hblocked : c.powerBlocked = false)
    (hprof : isFlashProfile c.sramProfile) (hcmd : c.sramCmd = 0xC7) :
    Sound { c.releaseBulkErase.endCommand with sramSaveLen := 0 } := by
  have hclosed : c.pagePending = false := by
    by_contra hno
    rcases (h.pending ((Bool.not_eq_false _).mp hno)).command with hn | hn
    · rcases eq_of_isPageCommand hn with hv | hv <;> exact absurd (hv.symm.trans hcmd) (by decide)
    · rcases eq_of_isErase hn with hv | hv | hv <;> exact absurd (hv.symm.trans hcmd) (by decide)
  have hsize : c.eraseSize 0xC7 = c.sramLength := by
    rw [eraseSize, if_pos (three_of_profile h.media hprof), flashEraseSize_bulk _ hprof]
  have hlength : 0 < c.sramLength := by
    rcases length_of_profile h.media hprof with hl | hl | hl <;> rw [hl] <;> decide
  rw [CartRetail.releaseBulkErase]
  by_cases hgo : c.sramPos = 1 ∧ c.wel ∧ c.sramStatus &&& 0x1C = 0 ∧ c.anyLocked = false
  · rw [if_pos hgo]
    have hkind : (c.beginSave 0xC7 0 0 c.sramLength).EraseWrite := by
      change c.eraseSize 0xC7 ≠ 0 ∧ c.eraseSize 0xC7 ∣ 0 ∧ 0 + c.eraseSize 0xC7 ≤ c.sramLength ∧
        0 = 0 ∧ c.sramLength = c.eraseSize 0xC7
      rw [hsize]
      exact ⟨hlength.ne', Nat.dvd_zero _, (Nat.zero_add _).le, rfl, rfl⟩
    exact h.began hawake hblocked hgo.2.1 (pageSize_of_profile h.media hprof) rfl hclosed
      (Nat.two_pow_pos 32) (absurd rfl) h.saveAddr (.inl rfl) (.inl hlength) (.inr (.inr hkind))
  · rw [if_neg hgo]
    exact h.ended hidle hclosed rfl (fun _ _ hs => .inl hs) h.locks id

theorem eraseSize_of_page {command : U8} (hname : isPageCommand c.sramType command) :
    c.eraseSize command = 0 := by
  unfold eraseSize flashEraseSize
  rcases eq_of_isPageCommand hname with hc | hc <;> rw [hc] <;> split_ifs <;>
    first | rfl | exact absurd ‹_› (by decide)

/-- Pages and spans divide the array. -/
theorem pageSize_dvd_length (hmedia : c.medium ∈ media) (hpage : c.pageSize ≠ 0) :
    c.pageSize ∣ c.sramLength ∧ 0 < c.sramLength := by
  simp only [medium, media, List.mem_cons, Prod.mk.injEq, List.not_mem_nil, or_false] at hmedia
  revert hpage
  unfold pageSize eepromPageSize
  split_ifs <;> intro hpage <;> omega

theorem eraseSize_dvd_length (hmedia : c.medium ∈ media) {command : U8}
    (hsize : c.eraseSize command ≠ 0) : c.eraseSize command ∣ c.sramLength ∧ 0 < c.sramLength := by
  simp only [medium, media, List.mem_cons, Prod.mk.injEq, List.not_mem_nil, or_false] at hmedia
  have hcases : c.eraseSize command = 256 ∨ c.eraseSize command = 65536 ∨
      c.eraseSize command = 4096 ∨ c.eraseSize command = c.sramLength := by
    revert hsize
    unfold eraseSize flashEraseSize
    split_ifs <;> omega
  have hthree : c.sramType = 3 := by
    by_contra hno
    exact hsize (eraseSize_of_ne_three hno _)
  rcases hcases with he | he | he | he <;> rw [he] <;> first | omega | exact ⟨Nat.dvd_refl _, by omega⟩

theorem span_fits {a size length : ℕ} (hdvd : size ∣ length)
    (hlength : 0 < length) : a % length / size * size + size ≤ length := by
  obtain ⟨k, rfl⟩ := hdvd
  have hq : a % (size * k) / size < k := Nat.div_lt_of_lt_mul (Nat.mod_lt _ hlength)
  calc a % (size * k) / size * size + size = (a % (size * k) / size + 1) * size := by
        rw [Nat.add_mul, Nat.one_mul]
    _ ≤ k * size := Nat.mul_le_mul_right _ hq
    _ = size * k := Nat.mul_comm _ _

theorem Sound.releasePage (h : c.Sound) (hp : c.pagePending) : c.releasePage.Sound := by
  have hpend := h.pending hp
  have hb := addrBytes_bounds c
  have hstart : 0 < if c.sramType = 1 then 512 else 256 ^ c.addrBytes := by
    split
    · decide
    · exact Nat.pow_pos (by decide)
  rw [CartRetail.releasePage]
  rcases hpend.kind with ⟨hname, hpos, hlen, hle⟩ | ⟨hname, hsize, hpos, hlen⟩
  · have hext : isExtendedErase c.sramCmd = false := by
      rcases eq_of_isPageCommand hname with hc | hc <;> rw [hc] <;> decide
    obtain ⟨hdvd, hlength⟩ := pageSize_dvd_length h.media hpend.latch
    simp only [hext, eraseSize_of_page hname, ne_eq, not_true_eq_false, if_false,
      Bool.false_eq_true]
    refine h.began hpend.awake hpend.blocked hpend.wel hpend.latch rfl rfl h.pos h.shifted hstart
      (.inr (.inl hname)) (.inl hlen) (.inr (.inl ?_))
    exact ⟨hname, Nat.dvd_mul_left _ _, span_fits hdvd hlength,
      Nat.mod_lt _ (Nat.pos_of_ne_zero hpend.latch), hlen, hle⟩
  · obtain ⟨hdvd, hlength⟩ := eraseSize_dvd_length h.media hsize
    have hlen' : 0 < c.sramSaveLen := by omega
    simp only [hsize, ne_eq, not_false_eq_true, if_true]
    have hkind (status : U8) : EraseWrite
        { c.beginSave c.sramCmd (c.sramSaveAddr % c.sramLength / c.eraseSize c.sramCmd *
          c.eraseSize c.sramCmd) 0 c.sramSaveLen with sramStatus := status } :=
      ⟨hsize, Nat.dvd_mul_left _ _, span_fits hdvd hlength, rfl, hlen⟩
    cases hext : isExtendedErase c.sramCmd with
    | true =>
      rw [if_pos rfl]
      exact h.began hpend.awake hpend.blocked hpend.wel hpend.latch rfl rfl (Nat.two_pow_pos 32)
        (absurd rfl) hstart (.inl rfl) (.inl hlen') (.inr (.inr (hkind _)))
    | false =>
      rw [if_neg Bool.false_ne_true]
      exact h.began hpend.awake hpend.blocked hpend.wel hpend.latch rfl rfl h.pos h.shifted hstart
        (.inr (.inr ⟨hname, hpos.ge⟩)) (.inl hlen') (.inr (.inr (hkind _)))

theorem Sound.releaseDirty (h : c.Sound) (hidle : c.writeDelay = 0) (hclosed : c.pagePending = false) :
    c.releaseDirty.Sound := by
  have hclear (i : ℕ) (hi : i ≠ 1) (s : U8) : (s &&& ~~~2).getLsbD i = s.getLsbD i := by
    rw [getLsbD_clearWel, bne_iff_ne.mpr hi, Bool.and_true]
  have hone (s : U8) : (s &&& ~~~2).getLsbD 1 = false := by
    rw [getLsbD_clearWel, bne_self_eq_false, Bool.and_false]
  /- Both branches may only clear the latch, and drop the dirty range. -/
  have hquiet {d : CartRetail} (hd : d.Sound) (hidle : d.writeDelay = 0)
      (hclosed : d.pagePending = false) : Sound { d with sramStatus := d.sramStatus &&& ~~~2 } :=
    { hd with
      status := fun i hi hs => hd.status i hi ((hclear i (by omega) d.sramStatus).symm.trans hs)
      wip := (hclear 0 (by decide) d.sramStatus).trans hd.wip
      writing := absurd hidle
      pending := fun hp => absurd (hclosed.symm.trans hp) Bool.false_ne_true
      samePage := fun _ _ _ _ hwel => absurd ((hone d.sramStatus).symm.trans hwel)
        Bool.false_ne_true }
  have hfirst : c.publishDirty.Sound ∧ c.publishDirty.writeDelay = 0 ∧
      c.publishDirty.pagePending = false := by
    rw [publishDirty]
    split
    · have hq := hquiet h hidle hclosed
      refine ⟨?_, hidle, hclosed⟩
      exact
        { hq with
          writing := absurd hidle
          pending := fun hp => absurd (hclosed.symm.trans hp) Bool.false_ne_true
          saveAddr := (Nat.zero_le _).trans_lt h.saveAddr
          saveLen := Nat.two_pow_pos 28
          fresh := fun _ _ => rfl
          statusCmd := fun hs => ⟨rfl, (h.statusCmd hs).2⟩
          samePage := fun _ _ _ _ hwel => absurd ((hone c.sramStatus).symm.trans hwel)
            Bool.false_ne_true
          lockCmd := fun hprof hc => ⟨Nat.zero_le _, (h.lockCmd hprof hc).2⟩
          powered := fun hp => by
            have hpow := h.powered hp
            exact ⟨hpow.1, hclosed, hidle, rfl, hpow.2.2.2.2⟩ }
    · exact ⟨h, hidle, hclosed⟩
  rw [CartRetail.releaseDirty]
  split
  · exact hquiet hfirst.1 hfirst.2.1 hfirst.2.2
  · exact hfirst.1

/-- The chip is neither writing nor changing its power state, and takes part in transactions. -/
def Idle (c : CartRetail) : Prop :=
  c.powerBlocked = false ∧ c.writeDelay = 0 ∧ c.powerDelay = 0

/-- What a release can do, with the guards that lead there. -/
theorem spiRelease_cases (c : CartRetail) {P : CartRetail → Prop}
    (blocked : c.powerBlocked = true → P { c.endCommand with powerBlocked := false })
    (none : P c)
    (power : c.Idle → isFlashProfile c.sramProfile → isPowerCommand c.sramCmd → P c.releasePower)
    (status : c.Idle → c.powerState = .awake → c.sramPos ≠ 0 →
      isStatusCommand c.sramType c.sramCmd c.sramProfile → P c.releaseStatus.endCommand)
    (lock : c.Idle → c.powerState = .awake → isFlashProfile c.sramProfile → c.sramCmd = 0xE5 →
      P { c.releaseLock.endCommand with sramSaveLen := 0 })
    (bulk : c.Idle → c.powerState = .awake → isFlashProfile c.sramProfile → c.sramCmd = 0xC7 →
      P { c.releaseBulkErase.endCommand with sramSaveLen := 0 })
    (page : c.Idle → c.powerState = .awake → c.pagePending = true → P c.releasePage)
    (dirty : c.Idle → c.powerState = .awake → c.pagePending = false → P c.releaseDirty) :
    P c.spiRelease := by
  rw [CartRetail.spiRelease]
  by_cases hblocked : c.powerBlocked = true
  · rw [if_pos hblocked]
    exact blocked hblocked
  rw [if_neg hblocked]
  by_cases hbusy : c.writeDelay ≠ 0 ∨ c.powerDelay ≠ 0
  · rw [if_pos hbusy]
    exact none
  have hidle : c.Idle := ⟨(Bool.not_eq_true _).mp hblocked, by omega, by omega⟩
  rw [if_neg hbusy]
  by_cases hpower : isFlashProfile c.sramProfile ∧ c.sramPos ≠ 0 ∧ isPowerCommand c.sramCmd
  · rw [if_pos hpower]
    exact power hidle hpower.1 hpower.2.2
  rw [if_neg hpower]
  by_cases hawake : c.powerState ≠ .awake
  · rw [if_pos hawake]
    exact none
  have hawake' := not_not.mp hawake
  rw [if_neg hawake]
  by_cases hstatus : c.sramPos ≠ 0 ∧ isStatusCommand c.sramType c.sramCmd c.sramProfile
  · rw [if_pos hstatus]
    exact status hidle hawake' hstatus.1 hstatus.2
  rw [if_neg hstatus]
  by_cases hlock : isFlashProfile c.sramProfile ∧ c.sramCmd = 0xE5
  · rw [if_pos hlock]
    exact lock hidle hawake' hlock.1 hlock.2
  rw [if_neg hlock]
  by_cases hbulk : isFlashProfile c.sramProfile ∧ c.sramCmd = 0xC7
  · rw [if_pos hbulk]
    exact bulk hidle hawake' hbulk.1 hbulk.2
  rw [if_neg hbulk]
  by_cases hpage : c.pagePending = true
  · rw [if_pos hpage]
    exact page hidle hawake' hpage
  · rw [if_neg hpage]
    exact dirty hidle hawake' ((Bool.not_eq_true _).mp hpage)

theorem Sound.spiRelease (h : c.Sound) : c.spiRelease.Sound :=
  spiRelease_cases c h.releaseBlocked h
    (fun hidle hprof hcmd => h.releasePower hidle.2.1 hprof hcmd)
    (fun hidle hawake _ hcmd => h.releaseStatus hidle.2.1 hawake hidle.1 hcmd)
    (fun hidle _ hprof hcmd => h.releaseLock hidle.2.1 hprof hcmd)
    (fun hidle hawake hprof hcmd => h.releaseBulkErase hidle.2.1 hawake hidle.1 hprof hcmd)
    (fun _ _ hp => h.releasePage hp)
    (fun hidle _ hp => h.releaseDirty hidle.2.1 hp)

end CartRetail

theorem CartOp.sound {c : CartRetail} (h : c.Sound) (op : CartOp)
    (hop : ∀ val, op = .spiTransmitReceive val → ¬c.Appends) : (op.apply c).Sound := by
  cases op with
  | spiSelect => exact h.spiSelect
  | spiTransmitReceive val => exact h.spiTransmitReceive val (hop val rfl)
  | spiRelease => exact h.spiRelease
  | completeSave => exact h.completeSave
  | cancelSave powerOff => exact h.cancelSave powerOff
  | setSaveMemory savedata => exact h.setSaveMemory savedata
  | reset => exact h.reset

end MelonDS.NDSCart

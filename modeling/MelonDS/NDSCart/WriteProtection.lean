import MelonDS.Library.Trace
import MelonDS.NDSCart.SoundRelease

/-!
# Write protection of a save chip

A byte of the array changes only through a byte written to it directly or through an
internal write, and both need the write-enable latch and an address that is not
protected. `Untouched` is what a refused command leaves behind.
-/

namespace MelonDS.NDSCart

/-- What a byte of a command never changes. -/
structure Chip where
  medium : ℕ × ℕ × ℕ
  fileLength : ℕ
  status : U8
  writeDelay : ℕ
  writeCommand : U8
  writeAddress : ℕ
  writeFirst : ℕ
  writeLength : ℕ
  writeBuffer : Fin 256 → U8
  flashLocks : Fin 16 → U8
  powerState : FlashPower
  powerDelay : ℕ
  calls : List SaveCall

namespace CartRetail

variable {c : CartRetail}

def chip (c : CartRetail) : Chip where
  medium := c.medium
  fileLength := c.sramFileLength
  status := c.sramStatus
  writeDelay := c.writeDelay
  writeCommand := c.writeCommand
  writeAddress := c.writeAddress
  writeFirst := c.writeFirst
  writeLength := c.writeLength
  writeBuffer := c.writeBuffer
  flashLocks := c.flashLocks
  powerState := c.powerState
  powerDelay := c.powerDelay
  calls := c.calls

/-- Nothing the chip keeps beyond a transaction differs. -/
def Untouched (c c' : CartRetail) : Prop :=
  c'.chip = c.chip ∧ c'.sram = c.sram ∧ c'.pagePending = c.pagePending

theorem chip_effect {val : U8} {c' : CartRetail} (he : ByteEffect val c c') : c'.chip = c.chip := by
  cases he with
  | latch addr hname hlt hpage =>
    obtain ⟨buffer, len, heq, -, -⟩ := latched_eq val hpage
    rw [heq]
    rfl
  | _ => rfl

theorem chip_startCommand (val : U8) (c : CartRetail) : (c.startCommand val).chip = c.chip := by
  obtain ⟨start, len, heq, -⟩ := startCommand_eq val c
  rw [heq]
  rfl

theorem chip_spiTransmitReceive (val : U8) (c : CartRetail) :
    (c.spiTransmitReceive val).2.chip = c.chip := by
  unfold spiTransmitReceive
  split_ifs
  · rfl
  · rfl
  · rfl
  · exact chip_startCommand val c
  · exact chip_startCommand val c
  · rfl
  · rfl
  · rfl
  · exact (chip_effect (sramWrite_effect val c) :)

/-- The only byte that reaches the array itself is one for a chip without a page latch. -/
theorem sram_effect {val : U8} {c' : CartRetail} (he : ByteEffect val c c') :
    c'.sram = c.sram ∨
      c.addrBytes < c.sramPos ∧ c.sramCmd = 0x02 ∧ c.sramType = 2 ∧ c.pageSize = 0 ∧ c.wel ∧
        c.isWriteProtected c.sramAddr = false ∧ c' = (c.writeDirect val).nextAddress := by
  cases he with
  | latch addr hname hlt hpage =>
    obtain ⟨buffer, len, heq, -, -⟩ := latched_eq val hpage
    rw [heq]
    exact .inl rfl
  | direct hname htype hlt hpage hwel hfree =>
    exact .inr ⟨hlt, hname, htype, hpage, hwel, hfree, rfl⟩
  | _ => exact .inl rfl

theorem sram_startCommand (val : U8) (c : CartRetail) : (c.startCommand val).sram = c.sram := by
  obtain ⟨start, len, heq, -⟩ := startCommand_eq val c
  rw [heq]

theorem sram_spiTransmitReceive (val : U8) (c : CartRetail) :
    (c.spiTransmitReceive val).2.sram = c.sram ∨
      c.addrBytes < c.sramPos ∧ c.sramCmd = 0x02 ∧ c.sramType = 2 ∧ c.pageSize = 0 ∧ c.wel ∧
        c.isWriteProtected c.sramAddr = false ∧
        (c.spiTransmitReceive val).2 = (c.writeDirect val).nextAddress.countByte := by
  unfold spiTransmitReceive
  split_ifs
  · exact .inl rfl
  · exact .inl rfl
  · exact .inl rfl
  · exact .inl (sram_startCommand val c)
  · exact .inl (sram_startCommand val c)
  · exact .inl rfl
  · exact .inl rfl
  · exact .inl rfl
  · rcases sram_effect (sramWrite_effect val c) with
      heq | ⟨hpos, hcmd, htype, hpage, hwel, hfree, heq⟩
    · exact .inl heq
    · exact .inr ⟨hpos, hcmd, htype, hpage, hwel, hfree, congrArg countByte heq⟩

theorem spiRelease_keeps (c : CartRetail) :
    c.spiRelease.sram = c.sram ∧ c.spiRelease.medium = c.medium ∧
      c.spiRelease.sramFileLength = c.sramFileLength := by
  refine spiRelease_cases c (P := fun d => d.sram = c.sram ∧ d.medium = c.medium ∧
      d.sramFileLength = c.sramFileLength) (fun _ => ⟨rfl, rfl, rfl⟩) ⟨rfl, rfl, rfl⟩
    (fun _ _ _ => ?_) (fun _ _ _ _ => ?_) (fun _ _ _ _ => ?_) (fun _ _ _ _ => ?_)
    (fun _ _ _ => ?_) (fun _ _ _ => ?_)
  · rw [releasePower]
    dsimp only
    split_ifs <;> exact ⟨rfl, rfl, rfl⟩
  · unfold releaseStatus
    dsimp only
    split_ifs <;> exact ⟨rfl, rfl, rfl⟩
  · unfold releaseLock
    dsimp only
    split_ifs <;> exact ⟨rfl, rfl, rfl⟩
  · unfold releaseBulkErase
    split <;> exact ⟨rfl, rfl, rfl⟩
  · unfold releasePage
    dsimp only
    split_ifs <;> exact ⟨rfl, rfl, rfl⟩
  · unfold releaseDirty publishDirty
    split_ifs <;> exact ⟨rfl, rfl, rfl⟩

theorem isWriteProtected_mod (a : ℕ) (c : CartRetail) :
    c.isWriteProtected (a % c.sramLength) = c.isWriteProtected a := by
  rw [isWriteProtected, isWriteProtected, Nat.mod_mod]

/-! ## Where an internal write goes -/

/-- The page or the span an internal write is for. -/
def spanSize (c : CartRetail) : ℕ :=
  if c.eraseSize c.writeCommand ≠ 0 then c.eraseSize c.writeCommand else c.pageSize

def InSpan (c : CartRetail) (i : ℕ) : Prop :=
  c.writeAddress ≤ i ∧ i < c.writeAddress + c.spanSize

theorem foldl_update_of_ne {α : Type*} (f : (ℕ → α) → ℕ → α) (p : ℕ → ℕ) (ks : List ℕ)
    (sram : ℕ → α) {i : ℕ} (hi : ∀ k ∈ ks, i ≠ p k) :
    ks.foldl (fun sram k => Function.update sram (p k) (f sram k)) sram i = sram i := by
  induction ks generalizing sram with
  | nil => rfl
  | cons k ks ih =>
    obtain ⟨hk, hks⟩ := List.forall_mem_cons.mp hi
    rw [List.foldl_cons, ih _ hks, Function.update_of_ne hk]

theorem eraseSize_of_program (h : c.writeCommand = 0x02 ∨ c.writeCommand = 0x0A) :
    c.eraseSize c.writeCommand = 0 := by
  unfold eraseSize flashEraseSize
  rcases h with hc | hc <;> rw [hc] <;> split_ifs <;>
    first | rfl | exact absurd ‹_› (by decide)

/-- A write leaves everything outside the range it publishes alone. -/
theorem written_of_not_range (hpage : c.pageSize ≠ 0) {i : ℕ}
    (hi : ¬(c.writtenRange.1 ≤ i ∧ i < c.writtenRange.1 + c.writtenRange.2)) :
    c.written i = c.sram i := by
  rw [written]
  by_cases hprogram : c.writeCommand = 0x02 ∨ c.writeCommand = 0x0A
  · rw [if_pos hprogram]
    refine foldl_update_of_ne _ (fun k => c.writeAddress + (c.writeFirst + k) % c.pageSize) _ _
      fun k hk heq => hi ?_
    have hlt := Nat.mod_lt (c.writeFirst + k) (Nat.pos_of_ne_zero hpage)
    have hkl := List.mem_range.mp hk
    rw [writtenRange, if_neg (not_not.mpr (eraseSize_of_program hprogram))]
    by_cases hfits : c.writeLength ≤ c.pageSize - c.writeFirst
    · rw [if_pos ⟨hprogram, hfits⟩]
      rw [Nat.mod_eq_of_lt (by omega)] at heq
      dsimp only
      omega
    · rw [if_neg (fun hno => hfits hno.2)]
      dsimp only
      omega
  · rw [if_neg hprogram]
    rw [writtenRange, if_neg (fun hno => hprogram hno.1)] at hi
    exact if_neg hi

/-- A write stays in its page or its span. -/
theorem written_of_not_inSpan (hfirst : c.writeFirst < c.pageSize) {i : ℕ} (hi : ¬c.InSpan i) :
    c.written i = c.sram i := by
  refine written_of_not_range (by omega) fun hno => hi ?_
  rw [InSpan, spanSize]
  rw [writtenRange] at hno
  by_cases hprogram : (c.writeCommand = 0x02 ∨ c.writeCommand = 0x0A) ∧
      c.writeLength ≤ c.pageSize - c.writeFirst
  · rw [if_pos hprogram] at hno
    rw [if_neg (not_not.mpr (eraseSize_of_program hprogram.1))]
    dsimp only at hno
    omega
  · rw [if_neg hprogram] at hno
    exact hno

theorem Writing.first_lt (h : c.Writing) : c.writeFirst < c.pageSize := by
  have hpage := h.latch
  rcases h.kind with hs | hp | he
  · rw [hs.2.2.2.1]
    omega
  · exact hp.2.2.2.1
  · rw [he.2.2.2.1]
    omega

/-- Pages of an EEPROM are protected as a whole. -/
theorem isWriteProtected_page (hmedia : c.medium ∈ media) (htype : c.sramType ≠ 3)
    (hpage : c.pageSize ≠ 0) {a b : ℕ} (hab : a / c.pageSize = b / c.pageSize) :
    c.isWriteProtected a = c.isWriteProtected b := by
  by_cases htwo : c.sramType = 2
  · exact isWriteProtected_congr hmedia htwo hpage hab
  · simp only [medium, media, List.mem_cons, Prod.mk.injEq, List.not_mem_nil, or_false] at hmedia
    have hone : c.sramType = 1 ∧ c.sramLength = 512 := by
      by_contra hno
      refine hpage ?_
      rw [pageSize, if_neg (by omega), if_neg htype, eepromPageSize, if_neg (by omega),
        if_neg (by omega), if_neg (by omega)]
    rw [pageSize, if_pos hone.1] at hab
    rw [isWriteProtected, isWriteProtected, if_neg htype, if_neg htype, decide_eq_decide, hone.2]
    generalize ((c.sramStatus >>> 2) &&& 3).toNat = bp
    split_ifs <;> omega

theorem isWriteProtected_flash (htype : c.sramType = 3) (hprof : isFlashProfile c.sramProfile)
    (a : ℕ) : c.isWriteProtected a =
      ((c.flashLocks (Fin.ofNat 16 (a % c.sramLength / 65536))).getLsbD 0 ||
        decide (a % c.sramLength ≥ c.sramLength -
          if ((c.sramStatus >>> 2) &&& 7).toNat = 0 then 0
          else min c.sramLength (65536 * 2 ^ (((c.sramStatus >>> 2) &&& 7).toNat - 1)))) := by
  rw [isWriteProtected, if_pos htype, if_neg (by rw [hprof]; decide)]
  dsimp only
  rw [Nat.shiftLeft_eq]
  cases (c.flashLocks (Fin.ofNat 16 (a % c.sramLength / 65536))).getLsbD 0 <;> rfl

/-- Sectors of a flash memory are protected as a whole. -/
theorem isWriteProtected_sector (hmedia : c.medium ∈ media) (htype : c.sramType = 3) {a b : ℕ}
    (hab : a % c.sramLength / 65536 = b % c.sramLength / 65536) :
    c.isWriteProtected a = c.isWriteProtected b := by
  by_cases hprof : isFlashProfile c.sramProfile
  · rw [isWriteProtected_flash htype hprof, isWriteProtected_flash htype hprof, hab]
    congr 1
    rw [decide_eq_decide]
    generalize ((c.sramStatus >>> 2) &&& 7).toNat = bp
    generalize 2 ^ (bp - 1) = k
    rcases length_of_profile hmedia hprof with hl | hl | hl <;> rw [hl] at hab ⊢ <;>
      split_ifs <;> omega
  · rw [isWriteProtected, isWriteProtected, if_pos htype, if_pos htype,
      (Bool.not_eq_true _).mp hprof]
    rfl

theorem div_eq_of_span {a i size : ℕ} (hlo : a / size * size ≤ i)
    (hhi : i < a / size * size + size) : i / size = a / size := by
  refine Nat.div_eq_of_lt_le hlo ?_
  rw [Nat.add_mul, Nat.one_mul]
  exact hhi

/-- What the release of a page or an erase finds unprotected is its whole span. -/
theorem unprotected_span (hs : c.Sound) (hp : c.Pending) {i : ℕ}
    (hlo : c.sramSaveAddr % c.sramLength /
      (if c.eraseSize c.sramCmd ≠ 0 then c.eraseSize c.sramCmd else c.pageSize) *
        (if c.eraseSize c.sramCmd ≠ 0 then c.eraseSize c.sramCmd else c.pageSize) ≤ i)
    (hhi : i < c.sramSaveAddr % c.sramLength /
      (if c.eraseSize c.sramCmd ≠ 0 then c.eraseSize c.sramCmd else c.pageSize) *
        (if c.eraseSize c.sramCmd ≠ 0 then c.eraseSize c.sramCmd else c.pageSize) +
          (if c.eraseSize c.sramCmd ≠ 0 then c.eraseSize c.sramCmd else c.pageSize)) :
    c.isWriteProtected i = false := by
  rw [← hp.free, ← isWriteProtected_mod c.sramSaveAddr]
  by_cases htype : c.sramType = 3
  · refine isWriteProtected_sector hs.media htype ?_
    rw [Nat.mod_mod]
    have hsize : (if c.eraseSize c.sramCmd ≠ 0 then c.eraseSize c.sramCmd else c.pageSize) = 256 ∨
        (if c.eraseSize c.sramCmd ≠ 0 then c.eraseSize c.sramCmd else c.pageSize) = 4096 ∨
        (if c.eraseSize c.sramCmd ≠ 0 then c.eraseSize c.sramCmd else c.pageSize) = 65536 := by
      rcases hp.kind with ⟨hname, -⟩ | ⟨hname, hne, -⟩
      · rw [if_neg (not_not.mpr (eraseSize_of_page hname)), pageSize_of_three htype]
        exact .inl rfl
      · rw [if_pos hne]
        rw [eraseSize, if_pos htype] at hne ⊢
        rcases eq_of_isErase hname with hc | hc | hc <;> rw [hc] at hne ⊢
        · unfold flashEraseSize at hne ⊢
          split_ifs <;> simp_all
        · exact .inr (.inr (flashEraseSize_sector _ _))
        · exact .inl (flashEraseSize_page _ _)
    have hlen : c.sramLength % 65536 = 0 ∧ 0 < c.sramLength := by
      have hmedia := hs.media
      simp only [medium, media, List.mem_cons, Prod.mk.injEq, List.not_mem_nil, or_false] at hmedia
      omega
    have hlt := Nat.mod_lt c.sramSaveAddr hlen.2
    generalize c.sramSaveAddr % c.sramLength = a at hlo hhi hlt ⊢
    have hi : i < c.sramLength := by
      rcases hsize with he | he | he <;> rw [he] at hlo hhi <;> omega
    rw [Nat.mod_eq_of_lt hi]
    rcases hsize with he | he | he <;> rw [he] at hlo hhi <;> omega
  · have hzero := eraseSize_of_ne_three htype c.sramCmd
    rw [if_neg (not_not.mpr hzero)] at hlo hhi
    exact isWriteProtected_page hs.media htype hp.latch
      (div_eq_of_span hlo hhi)

/-- What a release of the page latch puts down as the place of the write. -/
theorem writeAddress_releasePage (c : CartRetail) : c.releasePage.writeAddress =
    c.sramSaveAddr % c.sramLength /
      (if c.eraseSize c.sramCmd ≠ 0 then c.eraseSize c.sramCmd else c.pageSize) *
        (if c.eraseSize c.sramCmd ≠ 0 then c.eraseSize c.sramCmd else c.pageSize) := by
  unfold releasePage
  cases isExtendedErase c.sramCmd <;> rfl

theorem spanSize_releasePage (c : CartRetail) : c.releasePage.spanSize =
    if c.eraseSize c.sramCmd ≠ 0 then c.eraseSize c.sramCmd else c.pageSize := by
  unfold releasePage
  cases isExtendedErase c.sramCmd <;> rfl

theorem isWriteProtected_of_unlocked (hmedia : c.medium ∈ media)
    (hprof : isFlashProfile c.sramProfile) (hbp : c.sramStatus &&& 0x1C = 0)
    (hlocks : c.anyLocked = false) {i : ℕ} (hi : i < c.sramLength) :
    c.isWriteProtected i = false := by
  have hzero : ∀ s : U8, s &&& 0x1C = 0 → ((s >>> 2) &&& 7).toNat = 0 := by decide
  have hsector : (c.flashLocks (Fin.ofNat 16 (i / 65536))).getLsbD 0 = false := by
    rw [anyLocked, List.any_eq_false] at hlocks
    refine (Bool.not_eq_true _).mp (hlocks (i / 65536) (List.mem_range.mpr ?_))
    rcases length_of_profile hmedia hprof with hl | hl | hl <;> rw [hl] at hi ⊢ <;> omega
  rw [isWriteProtected_flash (three_of_profile hmedia hprof) hprof, Nat.mod_eq_of_lt hi, hsector,
    Bool.false_or, hzero _ hbp, if_pos rfl]
  exact decide_eq_false (by omega)

/-- The bytes that the command about to be released is for: a page, or an erase span, each
with the latched address in it, or the whole chip. -/
def Covers (c : CartRetail) (i : ℕ) : Prop :=
  (isPageCommand c.sramType c.sramCmd ∧
    i / c.pageSize = c.sramSaveAddr % c.sramLength / c.pageSize) ∨
  (isErase c.sramCmd ∧
    i / c.eraseSize c.sramCmd = c.sramSaveAddr % c.sramLength / c.eraseSize c.sramCmd) ∨
  (c.sramCmd = 0xC7 ∧ i < c.sramLength)

theorem Pending.covers (hp : c.Pending) {i : ℕ}
    (hi : i / (if c.eraseSize c.sramCmd ≠ 0 then c.eraseSize c.sramCmd else c.pageSize) =
      c.sramSaveAddr % c.sramLength /
        (if c.eraseSize c.sramCmd ≠ 0 then c.eraseSize c.sramCmd else c.pageSize)) :
    c.Covers i := by
  rcases hp.kind with ⟨hname, -⟩ | ⟨hname, hne, -⟩
  · rw [if_neg (not_not.mpr (eraseSize_of_page hname))] at hi
    exact .inl ⟨hname, hi⟩
  · rw [if_pos hne] at hi
    exact .inr (.inl ⟨hname, hi⟩)

/-- A release that begins a write finds the latch set and nothing of its span protected. -/
theorem Sound.release_begins (h : c.Sound) (hd : c.writeDelay = 0)
    (hne : c.spiRelease.writeDelay ≠ 0) : c.wel ∧
      (c.spiRelease.writeCommand = 0x01 ∨
        ∀ i, c.spiRelease.InSpan i → c.isWriteProtected i = false ∧ c.Covers i) := by
  revert hne
  refine spiRelease_cases c (P := fun d => d.writeDelay ≠ 0 → c.wel ∧
    (d.writeCommand = 0x01 ∨ ∀ i, d.InSpan i → c.isWriteProtected i = false ∧ c.Covers i))
    (fun _ hne => absurd hd hne) (fun hne => absurd hd hne) (fun _ _ _ hne => ?_)
    (fun _ _ _ _ => ?_) (fun _ _ _ _ hne => ?_) (fun _ _ hprof hcmd => ?_) (fun _ _ hp => ?_)
    (fun _ _ _ hne => ?_)
  · refine absurd hd ?_
    rw [CartRetail.releasePower] at hne
    dsimp only at hne
    split_ifs at hne <;> exact hne
  · unfold CartRetail.releaseStatus
    dsimp only
    split_ifs with h1 h2 h3 h4
    · exact fun hne => absurd hd hne
    · exact fun hne => absurd hd hne
    · exact fun _ => ⟨h3.2.2, .inl rfl⟩
    · exact fun hne => absurd hd hne
    · exact fun hne => absurd hd hne
  · refine absurd hd ?_
    rw [CartRetail.releaseLock] at hne
    dsimp only at hne
    split_ifs at hne <;> exact hne
  · unfold CartRetail.releaseBulkErase
    split_ifs with hgo
    · refine fun _ => ⟨hgo.2.1, .inr fun i hi => ?_⟩
      refine (fun hlt => ⟨isWriteProtected_of_unlocked h.media hprof hgo.2.2.1 hgo.2.2.2 hlt,
        .inr (.inr ⟨hcmd, hlt⟩)⟩) ?_
      have hsize : c.eraseSize 0xC7 = c.sramLength := by
        rw [eraseSize, if_pos (three_of_profile h.media hprof), flashEraseSize_bulk _ hprof]
      have hhi : i < 0 + if c.eraseSize 0xC7 ≠ 0 then c.eraseSize 0xC7 else c.pageSize := hi.2
      rw [hsize, Nat.zero_add] at hhi
      split_ifs at hhi with hlen
      · exact hhi
      · rcases length_of_profile h.media hprof with hl | hl | hl <;> omega
    · exact fun hne => absurd hd hne
  · have hpend := h.pending hp
    refine fun _ => ⟨hpend.wel, .inr fun i hi => ?_⟩
    rw [InSpan, writeAddress_releasePage, spanSize_releasePage] at hi
    exact ⟨unprotected_span h hpend hi.1 hi.2, hpend.covers (div_eq_of_span hi.1 hi.2)⟩
  · refine absurd hd ?_
    unfold CartRetail.releaseDirty publishDirty at hne
    split_ifs at hne <;> exact hne

theorem Sound.begins_pos (h : c.Sound) (hd : c.writeDelay = 0)
    (hne : c.spiRelease.writeDelay ≠ 0) : c.sramPos ≠ 0 := by
  revert hne
  refine spiRelease_cases c (P := fun d => d.writeDelay ≠ 0 → c.sramPos ≠ 0)
    (fun _ hne => absurd hd hne) (fun hne => absurd hd hne) (fun _ _ _ hne => ?_)
    (fun _ _ hpos _ _ => hpos) (fun _ _ _ _ hne => ?_) (fun _ _ _ _ hne hpos => ?_)
    (fun _ _ hp _ => ?_) (fun _ _ _ hne => ?_)
  · refine absurd hd ?_
    rw [CartRetail.releasePower] at hne
    dsimp only at hne
    split_ifs at hne <;> exact hne
  · refine absurd hd ?_
    rw [CartRetail.releaseLock] at hne
    dsimp only at hne
    split_ifs at hne <;> exact hne
  · unfold CartRetail.releaseBulkErase at hne
    rw [if_neg (by omega)] at hne
    exact hne hd
  · rcases (h.pending hp).kind with ⟨-, hpos, -⟩ | ⟨-, -, hpos, -⟩ <;> omega
  · refine absurd hd ?_
    unfold CartRetail.releaseDirty publishDirty at hne
    split_ifs at hne <;> exact hne

/-- A page or an erase that is pending is accepted at the release. -/
theorem Sound.begins (h : c.Sound) (hp : c.pagePending) : c.spiRelease.writeDelay ≠ 0 := by
  have hpend := h.pending hp
  have hcmd : c.sramCmd = 0x02 ∨ c.sramCmd = 0x0A ∨
      c.sramCmd = 0x20 ∨ c.sramCmd = 0xD8 ∨ c.sramCmd = 0xDB := by
    rcases hpend.command with hc | hc
    · exact (eq_of_isPageCommand hc).imp_right .inl
    · exact .inr (.inr (eq_of_isErase hc))
  have hother : isPowerCommand c.sramCmd = false ∧ c.sramCmd ≠ 0xE5 ∧ c.sramCmd ≠ 0xC7 ∧
      c.sramCmd ≠ 0x01 ∧ c.sramCmd ≠ 0x04 ∧ c.sramCmd ≠ 0x06 := by
    rcases hcmd with hc | hc | hc | hc | hc <;> rw [hc] <;> decide
  have hpower : c.powerDelay = 0 := by
    rw [h.powerDelay, transitioning_of_awake hpend.awake, if_neg Bool.false_ne_true]
  have hlen : 0 < c.sramSaveLen := by
    rcases hpend.kind with ⟨-, -, hlen, -⟩ | ⟨-, hne, -, hlen⟩ <;> omega
  rw [CartRetail.spiRelease, if_neg (by rw [hpend.blocked]; decide),
    if_neg (not_or.mpr ⟨not_not.mpr hpend.idle, not_not.mpr hpower⟩),
    if_neg (by rw [hother.1]; exact fun hno => absurd hno.2.2 Bool.false_ne_true),
    if_neg (not_not.mpr hpend.awake),
    if_neg (by
      rw [not_isStatusCommand hother.2.2.2]
      exact fun hno => absurd hno.2 Bool.false_ne_true),
    if_neg (fun hno => hother.2.1 hno.2), if_neg (fun hno => hother.2.2.1 hno.2), if_pos hp]
  unfold CartRetail.releasePage
  cases isExtendedErase c.sramCmd <;> exact writeCycles_ne_zero _ (.inl hlen)

/-- The release of a command that was never taken. -/
theorem untouched_spiRelease (hclosed : c.pagePending = false) (hlen : c.sramSaveLen = 0)
    (hcmd : c.powerBlocked ∨ c.sramCmd = 0 ∨ c.sramCmd = 0x05) : Untouched c c.spiRelease := by
  have hidle : c.Idle → c.sramCmd = 0 ∨ c.sramCmd = 0x05 := fun hi =>
    hcmd.resolve_left (by rw [hi.1]; exact Bool.false_ne_true)
  refine spiRelease_cases c (P := Untouched c) (fun _ => ⟨rfl, rfl, rfl⟩) ⟨rfl, rfl, rfl⟩
    (fun hi _ hc => ?_) (fun hi _ _ hc => ?_) (fun hi _ _ hc => ?_) (fun hi _ _ hc => ?_)
    (fun _ _ hp => absurd (hclosed.symm.trans hp) Bool.false_ne_true) (fun hi _ _ => ?_)
  · rcases hidle hi with h0 | h0 <;> rw [h0] at hc <;> exact absurd hc (by decide)
  · refine absurd hc (Bool.not_eq_true _ ▸ not_isStatusCommand ?_)
    rcases hidle hi with h0 | h0 <;> rw [h0] <;> decide
  · rcases hidle hi with h0 | h0 <;> rw [h0] at hc <;> exact absurd hc (by decide)
  · rcases hidle hi with h0 | h0 <;> rw [h0] at hc <;> exact absurd hc (by decide)
  · have hquiet : c.publishDirty = c := if_neg (by omega)
    rw [CartRetail.releaseDirty, hquiet, if_neg]
    · exact ⟨rfl, rfl, rfl⟩
    · rintro ⟨-, hc, -⟩
      rcases hidle hi with h0 | h0 <;> rw [h0] at hc <;> exact absurd hc (by decide)

theorem Sound.spiRelease_writing (h : c.Sound) (hd : c.writeDelay ≠ 0) : c.spiRelease = c := by
  rw [CartRetail.spiRelease, if_neg (by rw [(h.writing hd).blocked]; decide), if_pos (.inl hd)]

theorem Sound.writeDelay_completeSave (h : c.Sound) : c.completeSave.writeDelay = 0 := by
  rw [CartRetail.completeSave]
  by_cases hp : c.powerDelay ≠ 0
  · rw [if_pos hp]
    exact h.idle_of_transitioning (h.transitioning_iff.mp hp)
  rw [if_neg hp]
  by_cases hd : c.writeDelay = 0
  · rw [if_pos hd]
    exact hd
  · rw [if_neg hd]
    change ({ c with writeDelay := 0 } : CartRetail).completeWrite.writeDelay = 0
    unfold completeWrite
    split_ifs <;> rfl

theorem completeSave_keeps (c : CartRetail) : c.completeSave.medium = c.medium ∧
    c.completeSave.sramFileLength = c.sramFileLength := by
  unfold CartRetail.completeSave completeWrite
  dsimp only
  split_ifs <;> exact ⟨rfl, rfl⟩

/-- A completion makes the write in progress and publishes it, or leaves the array alone. -/
theorem completeSave_cases (c : CartRetail) :
    (c.completeSave.sram = c.sram ∧ c.completeSave.calls = c.calls) ∨
      (c.writeDelay ≠ 0 ∧ c.writeCommand ≠ 0x01 ∧ c.completeSave.sram = c.written ∧
        c.completeSave.calls = c.calls ++
          [⟨c.written, c.sramFileLength, c.writtenRange.1, c.writtenRange.2⟩]) := by
  rw [CartRetail.completeSave]
  by_cases hp : c.powerDelay ≠ 0
  · rw [if_pos hp]
    exact .inl ⟨rfl, rfl⟩
  rw [if_neg hp]
  by_cases hd : c.writeDelay = 0
  · rw [if_pos hd]
    exact .inl ⟨rfl, rfl⟩
  rw [if_neg hd]
  by_cases hcmd : c.writeCommand = 0x01
  · rw [completeWrite, if_pos hcmd]
    exact .inl ⟨rfl, rfl⟩
  · rw [completeWrite, if_neg hcmd]
    exact .inr ⟨hd, hcmd, rfl, rfl⟩

theorem Sound.completeSave_changed (h : c.Sound) {i : ℕ} (hi : c.completeSave.sram i ≠ c.sram i) :
    c.writeCommand ≠ 0x01 ∧ c.InSpan i := by
  rcases c.completeSave_cases with ⟨hsram, -⟩ | ⟨hd, hcmd, hsram, -⟩
  · exact absurd (congrFun hsram i) hi
  · refine ⟨hcmd, by_contra fun hno => hi ?_⟩
    exact (congrFun hsram i).trans (written_of_not_inSpan (h.writing hd).first_lt hno)

/-! ## Bytes of a refused command -/

theorem spiTransmitReceive_barred (hb : c.powerBlocked) (val : U8) :
    (c.spiTransmitReceive val).2 = c := by
  rw [spiTransmitReceive]
  by_cases h0 : c.sramType = 0
  · rw [if_pos h0]
  · rw [if_neg h0, if_pos hb]

theorem sramWrite_readStatus (hcmd : c.sramCmd = 0x05) (val : U8) : (c.sramWrite val).2 = c := by
  rw [sramWrite]
  split_ifs
  · rw [sramWriteEEPROMTiny, if_pos hcmd]
  · rw [sramWriteEEPROM, if_pos hcmd]
  · rw [sramWriteFLASH, if_pos hcmd]
  · rfl

theorem spiTransmitReceive_ignored (hpos : c.sramPos ≠ 0) (hcmd : c.sramCmd = 0 ∨ c.sramCmd = 0x05)
    (val : U8) : (c.spiTransmitReceive val).2 = c ∨ (c.spiTransmitReceive val).2 = c.countByte := by
  rw [spiTransmitReceive]
  by_cases h0 : c.sramType = 0
  · exact .inl (by rw [if_pos h0])
  rw [if_neg h0]
  by_cases hb : c.powerBlocked = true
  · exact .inl (by rw [if_pos hb])
  rw [if_neg hb, if_neg hpos]
  rcases hcmd with hc | hc
  · exact .inl (by rw [if_pos hc])
  · have hno : isStatusCommand c.sramType c.sramCmd c.sramProfile = false :=
      not_isStatusCommand (by rw [hc]; decide)
    rw [if_neg (by rw [hc]; decide), if_neg (by rw [hno]; exact Bool.false_ne_true)]
    exact .inr (congrArg countByte (sramWrite_readStatus hc val))

theorem completeSave_congr {d : CartRetail} (hchip : c.chip = d.chip) (hsram : c.sram = d.sram) :
    c.completeSave.chip = d.completeSave.chip ∧ c.completeSave.sram = d.completeSave.sram := by
  simp only [chip, medium, Chip.mk.injEq, Prod.mk.injEq] at hchip
  obtain ⟨⟨h1, h2, h3⟩, h4, h5, h6, h7, h8, h9, h10, h11, h12, h13, h14, h15⟩ := hchip
  cases c
  cases d
  simp only at *
  subst_vars
  unfold completeSave completeWrite
  dsimp only
  split_ifs <;> exact ⟨rfl, rfl⟩

end CartRetail
end MelonDS.NDSCart

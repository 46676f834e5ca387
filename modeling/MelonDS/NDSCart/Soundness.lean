import Mathlib.Tactic.IntervalCases
import MelonDS.NDSCart.ByteEffect

/-!
# The reachable states of a retail cartridge

`Sound` relates the fields of the serial save machine. Every call keeps it, with one
exception: a byte added to a page program that was already released, while the chip is
writing the page, opens the page latch again (`Appends`).
-/

namespace MelonDS.NDSCart

/-! ## The status register -/

theorem getLsbD_of_ge {s : U8} {i : ℕ} (h : 8 ≤ i) : s.getLsbD i = false :=
  BitVec.getLsbD_of_ge s i h

theorem getLsbD_setWel (s : U8) (i : ℕ) : (s ||| 2).getLsbD i = (s.getLsbD i || i == 1) := by
  rcases Nat.lt_or_ge i 8 with h | h
  · rw [BitVec.getLsbD_or]
    congr 1
    interval_cases i <;> rfl
  · rw [getLsbD_of_ge h, getLsbD_of_ge h, Bool.false_or, eq_comm, beq_eq_false_iff_ne]
    omega

theorem getLsbD_setWip (s : U8) (i : ℕ) : (s ||| 1).getLsbD i = (s.getLsbD i || i == 0) := by
  rcases Nat.lt_or_ge i 8 with h | h
  · rw [BitVec.getLsbD_or]
    congr 1
    interval_cases i <;> rfl
  · rw [getLsbD_of_ge h, getLsbD_of_ge h, Bool.false_or, eq_comm, beq_eq_false_iff_ne]
    omega

theorem getLsbD_clearWel (s : U8) (i : ℕ) : (s &&& ~~~2).getLsbD i = (s.getLsbD i && i != 1) := by
  rcases Nat.lt_or_ge i 8 with h | h
  · rw [BitVec.getLsbD_and]
    congr 1
    interval_cases i <;> rfl
  · rw [getLsbD_of_ge h, getLsbD_of_ge h, Bool.false_and]

theorem getLsbD_clearBusy (s : U8) (i : ℕ) :
    (s &&& ~~~3).getLsbD i = (s.getLsbD i && decide (2 ≤ i)) := by
  rcases Nat.lt_or_ge i 8 with h | h
  · rw [BitVec.getLsbD_and]
    congr 1
    interval_cases i <;> rfl
  · rw [getLsbD_of_ge h, getLsbD_of_ge h, Bool.false_and]

theorem statusMask_getLsbD_zero (protocol profile : ℕ) :
    (statusMask protocol profile).getLsbD 0 = false := by
  unfold statusMask
  split_ifs <;> rfl

theorem statusMask_getLsbD_one (protocol profile : ℕ) :
    (statusMask protocol profile).getLsbD 1 = false := by
  unfold statusMask
  split_ifs <;> rfl

/-- Types, profiles and lengths of the chips the constructor can make. -/
def media : List (ℕ × ℕ × ℕ) :=
  [(0, 0, 0), (1, 0, 512), (2, 0, 8192), (2, 0, 65536), (2, 0, 131072), (3, 0, 262144),
    (3, 0, 524288), (3, 0, 1048576), (4, 0, 8388608), (4, 0, 16777216), (4, 0, 67108864),
    (2, 11, 8192), (2, 12, 65536), (2, 13, 131072), (2, 14, 32768), (3, 15, 262144),
    (3, 16, 524288), (3, 17, 1048576)]

namespace CartRetail

variable {c : CartRetail}

def medium (c : CartRetail) : ℕ × ℕ × ℕ := (c.sramType, c.sramProfile, c.sramLength)

/-! What an internal write may be: a new status, a page, or a span to erase. -/

def StatusWrite (c : CartRetail) : Prop :=
  c.writeCommand = 0x01 ∧ (c.sramType = 3 → isFlashProfile c.sramProfile) ∧
    (∃ status : U8, c.writeAddress = status.toNat ∧
      ∀ i, status.getLsbD i → (statusMask c.sramType c.sramProfile).getLsbD i) ∧
    c.writeFirst = 0 ∧ c.writeLength = 0

def PageWrite (c : CartRetail) : Prop :=
  isPageCommand c.sramType c.writeCommand ∧ c.pageSize ∣ c.writeAddress ∧
    c.writeAddress + c.pageSize ≤ c.sramLength ∧ c.writeFirst < c.pageSize ∧
    0 < c.writeLength ∧ c.writeLength ≤ c.pageSize

def EraseWrite (c : CartRetail) : Prop :=
  c.eraseSize c.writeCommand ≠ 0 ∧ c.eraseSize c.writeCommand ∣ c.writeAddress ∧
    c.writeAddress + c.eraseSize c.writeCommand ≤ c.sramLength ∧ c.writeFirst = 0 ∧
    c.writeLength = c.eraseSize c.writeCommand

/-- What holds while the chip is writing. -/
structure Writing (c : CartRetail) : Prop where
  latch : c.pageSize ≠ 0
  pending : c.pagePending = false
  saveLen : c.sramSaveLen = 0
  awake : c.powerState = .awake
  blocked : c.powerBlocked = false
  delay : c.writeDelay = writeCycles c.sramType c.writeCommand c.writeLength
  wel : c.wel = !isExtendedErase c.writeCommand
  kind : c.StatusWrite ∨ c.PageWrite ∨ c.EraseWrite
  command : c.sramPos ≠ 0 → c.sramCmd = 0 ∨ c.sramCmd = 0x05 ∨
    isPageCommand c.sramType c.sramCmd ∨ (isErase c.sramCmd ∧ 4 ≤ c.sramPos)

/-- What holds while a page or an erase waits for its release. -/
structure Pending (c : CartRetail) : Prop where
  idle : c.writeDelay = 0
  awake : c.powerState = .awake
  blocked : c.powerBlocked = false
  wel : c.wel
  latch : c.pageSize ≠ 0
  free : c.isWriteProtected c.sramSaveAddr = false
  kind :
    (isPageCommand c.sramType c.sramCmd ∧ c.addrBytes + 2 ≤ c.sramPos ∧
      0 < c.sramSaveLen ∧ c.sramSaveLen ≤ c.pageSize) ∨
    (isErase c.sramCmd ∧ c.eraseSize c.sramCmd ≠ 0 ∧ c.sramPos = 4 ∧
      c.sramSaveLen = c.eraseSize c.sramCmd)

/-- The chip is asleep, on its way there or back, or still refusing a transaction. -/
def Powered (c : CartRetail) : Prop := c.powerState ≠ .awake ∨ c.powerBlocked = true

structure Sound (c : CartRetail) : Prop where
  media : c.medium ∈ media
  status : ∀ i, 2 ≤ i → c.sramStatus.getLsbD i →
    (statusMask c.sramType c.sramProfile).getLsbD i
  wip : c.sramStatus.getLsbD 0 = decide (c.writeDelay ≠ 0)
  writing : c.writeDelay ≠ 0 → c.Writing
  idle : c.writeDelay = 0 →
    c.writeCommand = 0 ∧ c.writeAddress = 0 ∧ c.writeFirst = 0 ∧ c.writeLength = 0
  pending : c.pagePending → c.Pending
  pos : c.sramPos < 2 ^ 32
  addr : c.sramAddr < 2 ^ 32
  shifted : c.sramPos ≠ 0 → c.sramPos ≤ c.addrBytes + 1 → c.sramAddr < 256 ^ (c.sramPos - 1)
  saveAddr : c.sramSaveAddr < if c.sramType = 1 then 512 else 256 ^ c.addrBytes
  saveLen : c.sramSaveLen < 2 ^ 28
  fresh : c.sramPos = 0 → c.pageSize ≠ 0 → c.sramSaveLen = 0
  statusCmd : isStatusCommand c.sramType c.sramCmd c.sramProfile →
    c.sramSaveLen = 0 ∧ c.sramAddr ≤ 0xFF ∧ c.pagePending = false
  samePage : c.sramType = 2 → c.pageSize ≠ 0 → isPageCommand c.sramType c.sramCmd →
    c.addrBytes < c.sramPos → c.wel → c.writeDelay = 0 →
    c.sramAddr / c.pageSize = c.sramSaveAddr / c.pageSize
  lockCmd : isFlashProfile c.sramProfile → c.sramCmd = 0xE5 →
    c.sramSaveLen ≤ 0xFF ∧ c.pagePending = false ∧ c.sramAddr < 2 ^ 24
  locks : ∀ i, c.flashLocks i ≠ 0 →
    isFlashProfile c.sramProfile ∧ i.val < c.sramLength / 65536 ∧ (c.flashLocks i).toNat < 4
  powered : c.Powered → isFlashProfile c.sramProfile ∧ c.pagePending = false ∧ c.writeDelay = 0 ∧
    c.sramSaveLen = 0 ∧ (c.sramPos ≠ 0 → c.sramCmd = 0 ∨ c.sramCmd = 0xAB)
  powerDelay : c.powerDelay =
    if c.transitioning then powerCycles (c.powerState == .waking) else 0
  blocked : c.powerBlocked → c.sramCmd = 0

/-- A byte that continues a page program which was released and is being written. -/
def Appends (c : CartRetail) : Prop :=
  c.writeDelay ≠ 0 ∧ c.sramPos ≠ 0 ∧ isPageCommand c.sramType c.sramCmd

instance (c : CartRetail) : Decidable c.Appends := inferInstanceAs (Decidable (_ ∧ _))

theorem sound_build (resetState : Bool) (t : ℕ) (sram : Option (List U8)) :
    (build resetState t sram).Sound where
  media := by
    rcases Nat.lt_or_ge t saveLengths.length with h | h
    · have h18 : t < 18 := h
      simp only [medium, build, if_pos h]
      interval_cases t <;> decide
    · simp only [medium, build, if_neg (not_lt.mpr h)]
      decide
  status i _ hi := absurd (BitVec.getLsbD_zero.symm.trans hi) Bool.false_ne_true
  wip := BitVec.getLsbD_zero
  writing h := absurd rfl h
  idle _ := ⟨rfl, rfl, rfl, rfl⟩
  pending h := absurd h Bool.false_ne_true
  pos := Nat.two_pow_pos 32
  addr := Nat.two_pow_pos 32
  shifted h := absurd rfl h
  saveAddr := by
    change 0 < _
    split
    · decide
    · exact Nat.pow_pos (by decide)
  saveLen := Nat.two_pow_pos 28
  fresh _ _ := rfl
  statusCmd _ := ⟨rfl, Nat.zero_le _, rfl⟩
  samePage _ _ h := absurd h (by rw [isPageCommand]; simp [build])
  lockCmd _ _ := ⟨Nat.zero_le _, rfl, Nat.two_pow_pos 24⟩
  locks _ h := absurd rfl h
  powered h := by
    rcases h with h | h
    · exact absurd rfl h
    · exact absurd h Bool.false_ne_true
  powerDelay := rfl
  blocked h := absurd h Bool.false_ne_true

theorem Powered.of_transitioning (h : c.transitioning) : c.Powered := by
  refine .inl fun hawake => ?_
  rw [transitioning, hawake] at h
  exact absurd h (by decide)

theorem transitioning_of_awake (h : c.powerState = .awake) : c.transitioning = false := by
  rw [transitioning, h]
  rfl

theorem Sound.idle_of_transitioning (h : c.Sound) (ht : c.transitioning) : c.writeDelay = 0 :=
  (h.powered (.of_transitioning ht)).2.2.1

theorem sramSaveLen_spiSelect_le (c : CartRetail) : c.spiSelect.sramSaveLen ≤ c.sramSaveLen := by
  change (if _ then 0 else c.sramSaveLen) ≤ _
  split
  · exact Nat.zero_le _
  · exact Nat.le_refl _

theorem sramSaveLen_spiSelect (hpage : c.pageSize ≠ 0) : c.spiSelect.sramSaveLen = 0 := by
  refine if_pos ?_
  by_contra hno
  rw [not_or, not_or, not_ne_iff] at hno
  refine hpage ?_
  rw [pageSize, if_neg hno.1, if_neg hno.2.1]
  exact hno.2.2

theorem sramCmd_spiSelect (c : CartRetail) :
    c.spiSelect.sramCmd = if c.transitioning then 0 else c.sramCmd := rfl

theorem Powered.of_spiSelect (h : c.spiSelect.Powered) : c.Powered := by
  rcases h with h | h
  · exact .inl h
  · exact .of_transitioning h

theorem Sound.spiSelect (h : c.Sound) : c.spiSelect.Sound where
  media := h.media
  status := h.status
  wip := h.wip
  writing hd := by
    have hw := h.writing hd
    exact ⟨hw.latch, rfl, sramSaveLen_spiSelect hw.latch, hw.awake, transitioning_of_awake hw.awake,
      hw.delay, hw.wel, hw.kind, absurd rfl⟩
  idle := h.idle
  pending hp := absurd hp Bool.false_ne_true
  pos := Nat.two_pow_pos 32
  addr := h.addr
  shifted := absurd rfl
  saveAddr := h.saveAddr
  saveLen := (sramSaveLen_spiSelect_le c).trans_lt h.saveLen
  fresh _ hpage := sramSaveLen_spiSelect hpage
  statusCmd hcmd := by
    rw [sramCmd_spiSelect] at hcmd
    cases ht : c.transitioning with
    | true =>
      rw [ht, if_pos rfl, isStatusCommand] at hcmd
      simp at hcmd
    | false =>
      rw [ht, if_neg Bool.false_ne_true] at hcmd
      obtain ⟨hlen, haddr, -⟩ := h.statusCmd hcmd
      exact ⟨Nat.le_zero.mp (hlen ▸ sramSaveLen_spiSelect_le c), haddr, rfl⟩
  samePage _ _ _ hpos := absurd hpos (Nat.not_lt_zero _)
  lockCmd hprof hcmd := by
    rw [sramCmd_spiSelect] at hcmd
    cases ht : c.transitioning with
    | true =>
      rw [ht, if_pos rfl] at hcmd
      exact absurd hcmd (by decide)
    | false =>
      rw [ht, if_neg Bool.false_ne_true] at hcmd
      obtain ⟨hlen, -, haddr⟩ := h.lockCmd hprof hcmd
      exact ⟨(sramSaveLen_spiSelect_le c).trans hlen, rfl, haddr⟩
  locks := h.locks
  powered hp := by
    obtain ⟨hprof, -, hidle, hlen, -⟩ := h.powered hp.of_spiSelect
    exact ⟨hprof, rfl, hidle, Nat.le_zero.mp (hlen ▸ sramSaveLen_spiSelect_le c), absurd rfl⟩
  powerDelay := h.powerDelay
  blocked ht := if_pos ht

theorem Sound.cancelSave (h : c.Sound) (powerOff : Bool) : (c.cancelSave powerOff).Sound where
  media := h.media
  status i hi hs := by
    change (c.sramStatus &&& ~~~3).getLsbD i = true at hs
    rw [getLsbD_clearBusy, Bool.and_eq_true] at hs
    exact h.status i hi hs.1
  wip := by
    change (c.sramStatus &&& ~~~3).getLsbD 0 = false
    rw [getLsbD_clearBusy]
    exact Bool.and_false _
  writing := absurd rfl
  idle _ := ⟨rfl, rfl, rfl, rfl⟩
  pending hp := absurd hp Bool.false_ne_true
  pos := Nat.two_pow_pos 32
  addr := h.addr
  shifted := absurd rfl
  saveAddr := (Nat.zero_le _).trans_lt h.saveAddr
  saveLen := Nat.two_pow_pos 28
  fresh _ _ := rfl
  statusCmd hcmd := by
    have hcmd' : isStatusCommand c.sramType 0 c.sramProfile = true := hcmd
    simp [isStatusCommand] at hcmd'
  samePage _ _ _ hpos := absurd hpos (Nat.not_lt_zero _)
  lockCmd _ hcmd := by
    have hcmd' : (0 : U8) = 0xE5 := hcmd
    exact absurd hcmd' (by decide)
  locks i := by
    cases powerOff with
    | true => exact absurd rfl
    | false => exact h.locks i
  powered hp := by
    cases powerOff with
    | true =>
      rcases hp with hp | hp
      · exact absurd rfl hp
      · exact absurd hp Bool.false_ne_true
    | false => exact ⟨(h.powered hp).1, rfl, rfl, rfl, absurd rfl⟩
  powerDelay := by
    cases powerOff with
    | true => rfl
    | false => exact h.powerDelay
  blocked _ := rfl

theorem Sound.reset (h : c.Sound) : c.reset.Sound := by
  have hc := h.cancelSave true
  exact
    { media := hc.media
      status := fun i hi hs => by
        change ((_ : U8) &&& statusMask c.sramType c.sramProfile).getLsbD i = true at hs
        rw [BitVec.getLsbD_and, Bool.and_eq_true] at hs
        exact hs.2
      wip := by
        change ((_ : U8) &&& statusMask c.sramType c.sramProfile).getLsbD 0 = false
        rw [BitVec.getLsbD_and, statusMask_getLsbD_zero, Bool.and_false]
      writing := absurd rfl
      idle := hc.idle
      pending := fun hp => absurd hp Bool.false_ne_true
      pos := Nat.two_pow_pos 32
      addr := Nat.two_pow_pos 32
      shifted := absurd rfl
      saveAddr := hc.saveAddr
      saveLen := hc.saveLen
      fresh := hc.fresh
      statusCmd := fun hcmd => absurd (hc.statusCmd hcmd) fun _ => by
        have hcmd' : isStatusCommand c.sramType 0 c.sramProfile = true := hcmd
        simp [isStatusCommand] at hcmd'
      samePage := fun _ _ _ hpos => absurd hpos (Nat.not_lt_zero _)
      lockCmd := fun hprof hcmd => absurd hcmd (by exact fun h => absurd h (by decide : ¬(0 : U8) = 0xE5))
      locks := hc.locks
      powered := hc.powered
      powerDelay := hc.powerDelay
      blocked := hc.blocked }

theorem Sound.setSaveMemory (h : c.Sound) (savedata : List U8) : (c.setSaveMemory savedata).Sound := by
  have hc := h.cancelSave false
  rw [CartRetail.setSaveMemory]
  by_cases hfile : (c.cancelSave false).sramFileLength = 0
  · rw [if_pos hfile]
    exact hc
  · rw [if_neg hfile]
    exact { hc with
      writing := absurd rfl
      pending := fun hp => absurd hp Bool.false_ne_true }

/-! ## Completion -/

theorem flashEraseSize_status (length profile : ℕ) : flashEraseSize 0x01 length profile = 0 := by
  rw [flashEraseSize, if_neg (by decide), if_neg (by decide)]
  split <;> rfl

theorem eraseSize_status (c : CartRetail) : c.eraseSize 0x01 = 0 := by
  rw [eraseSize, flashEraseSize_status]
  exact ite_self 0

theorem Writing.statusWrite (h : c.Writing) (hcmd : c.writeCommand = 0x01) : c.StatusWrite := by
  rcases h.kind with hs | hp | he
  · exact hs
  · have hpage := hp.1
    rw [hcmd, isPageCommand] at hpage
    simp at hpage
  · exact absurd (hcmd ▸ eraseSize_status c) he.1

theorem Sound.transitioning_iff (h : c.Sound) : c.powerDelay ≠ 0 ↔ c.transitioning := by
  have hd := h.powerDelay
  cases ht : c.transitioning with
  | true =>
    rw [ht, if_pos rfl] at hd
    rw [hd]
    cases c.powerState == .waking <;> decide
  | false =>
    rw [ht, if_neg Bool.false_ne_true] at hd
    rw [hd]
    decide

/-- The chip after an internal write, whatever it wrote. -/
theorem Sound.settle (h : c.Sound) (hd : c.writeDelay ≠ 0) {status : U8} (sram : ℕ → U8)
    (calls : List SaveCall) (hstatus : ∀ i, status.getLsbD i →
      (statusMask c.sramType c.sramProfile).getLsbD i) :
    Sound
      { c with
        sram := sram
        sramStatus := status
        calls := calls
        writeDelay := 0
        writeCommand := 0
        writeAddress := 0
        writeFirst := 0
        writeLength := 0 } := by
  have hw := h.writing hd
  have hwel : status.getLsbD 1 = false := by
    by_contra hno
    have hmask := hstatus 1 ((Bool.not_eq_false _).mp hno)
    rw [statusMask_getLsbD_one] at hmask
    exact Bool.false_ne_true hmask
  exact
    { h with
      status := fun i _ hs => hstatus i hs
      wip := by
        by_contra hno
        have hmask := hstatus 0 ((Bool.not_eq_false _).mp hno)
        rw [statusMask_getLsbD_zero] at hmask
        exact Bool.false_ne_true hmask
      writing := absurd rfl
      idle := fun _ => ⟨rfl, rfl, rfl, rfl⟩
      pending := fun hp => absurd (hw.pending.symm.trans hp) Bool.false_ne_true
      samePage := fun _ _ _ _ hwel' => absurd (hwel.symm.trans hwel') Bool.false_ne_true
      powered := fun hp => absurd (h.powered hp).2.2.1 hd }

theorem Sound.completeSave (h : c.Sound) : c.completeSave.Sound := by
  rw [CartRetail.completeSave]
  by_cases hpower : c.powerDelay ≠ 0
  · rw [if_pos hpower]
    have ht := h.transitioning_iff.mp hpower
    have hpow := h.powered (.of_transitioning ht)
    exact
      { h with
        writing := absurd hpow.2.2.1
        pending := fun hp => absurd (hpow.2.1.symm.trans hp) Bool.false_ne_true
        powered := fun _ => hpow
        powerDelay := by
          rw [transitioning]
          change 0 = if ((if c.powerState = .entering then FlashPower.asleep else .awake) ==
            .entering || _) = true then _ else _
          split <;> rfl }
  · rw [if_neg hpower]
    by_cases hd : c.writeDelay = 0
    · rw [if_pos hd]
      exact h
    · rw [if_neg hd, completeWrite]
      by_cases hcmd : c.writeCommand = 0x01
      · rw [if_pos hcmd]
        obtain ⟨-, -, ⟨status, haddr, hmask⟩, -, -⟩ := (h.writing hd).statusWrite hcmd
        refine h.settle hd c.sram c.calls ?_
        rw [haddr, BitVec.ofNat_toNat, BitVec.setWidth_eq]
        exact hmask
      · rw [if_neg hcmd]
        refine h.settle hd _ _ fun i hs => ?_
        change (c.sramStatus &&& ~~~3).getLsbD i = true at hs
        rw [getLsbD_clearBusy, Bool.and_eq_true, decide_eq_true_iff] at hs
        exact h.status i hs.2 hs.1

end CartRetail
end MelonDS.NDSCart

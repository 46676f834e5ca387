import MelonDS.NDSCart.Soundness

/-!
# Bytes keep a retail cartridge sound

One lemma for each effect a byte can have, and from them the lemma about a byte sent at
any point of a transaction.
-/

namespace MelonDS.NDSCart
namespace CartRetail

variable {c : CartRetail}

theorem addrBytes_bounds (c : CartRetail) : 1 ≤ c.addrBytes ∧ c.addrBytes ≤ 3 := by
  rw [addrBytes, addressBytes]
  split_ifs <;> decide

theorem not_isStatusCommand {protocol profile : ℕ} {command : U8}
    (h : command ≠ 0x01 ∧ command ≠ 0x04 ∧ command ≠ 0x06) :
    isStatusCommand protocol command profile = false := by
  rw [isStatusCommand, beq_false_of_ne h.1, beq_false_of_ne h.2.1, beq_false_of_ne h.2.2]
  simp

theorem Pending.command (h : c.Pending) : isPageCommand c.sramType c.sramCmd ∨ isErase c.sramCmd :=
  h.kind.imp And.left And.left

/-- A chip that takes part in a transaction whose command is not the wake-up one is awake. -/
theorem Sound.not_powered (h : c.Sound) (hpos : c.sramPos ≠ 0) (hcmd : c.sramCmd ≠ 0)
    (hwake : c.sramCmd ≠ 0xAB) : ¬c.Powered := fun hp =>
  ((h.powered hp).2.2.2.2 hpos).elim hcmd hwake

theorem Sound.awake (h : c.Sound) (hpos : c.sramPos ≠ 0) (hcmd : c.sramCmd ≠ 0)
    (hwake : c.sramCmd ≠ 0xAB) : c.powerState = .awake ∧ c.powerBlocked = false := by
  have hno := not_or.mp (h.not_powered hpos hcmd hwake)
  exact ⟨not_not.mp hno.1, (Bool.not_eq_true _).mp hno.2⟩

theorem sramPos_countByte_eq (c : CartRetail) : c.countByte.sramPos =
    if c.sramPos = 0xFFFFFFFF then c.sramPos else c.sramPos + 1 := rfl

theorem le_sramPos_countByte (c : CartRetail) : c.sramPos ≤ c.countByte.sramPos := by
  rw [sramPos_countByte_eq]
  split <;> omega

theorem sramPos_countByte_ne_zero (c : CartRetail) : c.countByte.sramPos ≠ 0 := by
  rw [sramPos_countByte_eq]
  split <;> omega

theorem sramPos_countByte (h : c.sramPos ≤ 4) : c.countByte.sramPos = c.sramPos + 1 :=
  if_neg (by omega)

theorem sramPos_countByte_lt (h : c.sramPos < 2 ^ 32) : c.countByte.sramPos < 2 ^ 32 := by
  rw [sramPos_countByte_eq]
  split <;> omega

theorem lt_sramPos_countByte {n : ℕ} (h : n < c.sramPos) (hn : n ≤ 4) :
    n + 1 < c.countByte.sramPos := by
  rw [sramPos_countByte_eq]
  split <;> omega

theorem le_of_sramPos_countByte {n : ℕ} (h : c.countByte.sramPos ≤ n + 1) (hn : n ≤ 4) :
    c.sramPos ≤ n := by
  by_contra hno
  have := lt_sramPos_countByte (not_le.mp hno) hn
  omega

/-- Counting a byte that is only answered. -/
theorem Sound.count (h : c.Sound) (hpos : c.sramPos ≠ 0)
    (hpage : c.sramType = 2 → isPageCommand c.sramType c.sramCmd → c.addrBytes < c.sramPos)
    (herase : isErase c.sramCmd → c.eraseSize c.sramCmd = 0) : c.countByte.Sound :=
  { h with
    writing := fun hd =>
      { h.writing hd with
        command := fun _ => ((h.writing hd).command hpos).imp_right fun hc =>
          hc.imp_right fun hc => hc.imp_right fun hc => hc.imp_right
            fun hle => hle.trans (le_sramPos_countByte c) }
    pending := fun hp =>
      { h.pending hp with
        kind := by
          rcases (h.pending hp).kind with hk | hk
          · exact .inl ⟨hk.1, hk.2.1.trans (le_sramPos_countByte c), hk.2.2⟩
          · exact absurd (herase hk.1) hk.2.1 }
    pos := sramPos_countByte_lt h.pos
    shifted := fun _ hle => by
      have hb := addrBytes_bounds c
      have hle' : c.countByte.sramPos ≤ c.addrBytes + 1 := hle
      have hlt := h.shifted hpos ((le_of_sramPos_countByte hle' (by omega)).trans (by omega))
      refine hlt.trans_le (Nat.pow_le_pow_right (by decide) ?_)
      exact Nat.sub_le_sub_right (le_sramPos_countByte c) 1
    fresh := fun hzero => absurd hzero (sramPos_countByte_ne_zero c)
    samePage := fun htype hps hc _ => h.samePage htype hps hc (hpage htype hc)
    powered := fun hp => by
      have hpow := h.powered hp
      exact ⟨hpow.1, hpow.2.1, hpow.2.2.1, hpow.2.2.2.1, fun _ => hpow.2.2.2.2 hpos⟩ }

/-- The page that `IsWriteProtected` is asked about decides its answer. -/
theorem isWriteProtected_congr (hmedia : c.medium ∈ media) (htype : c.sramType = 2)
    (hpage : c.pageSize ≠ 0) {a b : ℕ} (hab : a / c.pageSize = b / c.pageSize) :
    c.isWriteProtected a = c.isWriteProtected b := by
  have hsize := pageSize_of_two htype
  rw [isWriteProtected, isWriteProtected, if_neg (by omega), if_neg (by omega)]
  simp only [medium, media, List.mem_cons, Prod.mk.injEq, List.not_mem_nil, or_false] at hmedia
  rw [decide_eq_decide]
  have hcases : (c.pageSize = 32 ∧ c.sramLength = 8192) ∨ (c.pageSize = 128 ∧ c.sramLength = 65536) ∨
      (c.pageSize = 256 ∧ c.sramLength = 131072) := by
    unfold eepromPageSize at hsize
    split_ifs at hsize <;> omega
  generalize ((c.sramStatus >>> 2) &&& 3).toNat = bp
  rcases hcases with ⟨hp, hl⟩ | ⟨hp, hl⟩ | ⟨hp, hl⟩ <;> rw [hp] at hab <;> rw [hl] <;>
    split_ifs <;> omega

/-- A page latch that takes a byte is open, and counts at most a page. -/
theorem latched_eq (val : U8) (hpage : c.pageSize ≠ 0) : ∃ buffer len,
    c.latched val = { c with pageBuffer := buffer, pagePending := true, sramSaveLen := len } ∧
      0 < len ∧ len ≤ c.pageSize := by
  have hmin (n : ℕ) : 0 < min (n + 1) c.pageSize ∧ min (n + 1) c.pageSize ≤ c.pageSize := by omega
  rw [latched, openTinyPage, openPage]
  split
  · cases hp : c.pagePending with
    | true => exact ⟨_, _, by rw [if_pos rfl, latchByte, hp], hmin _⟩
    | false => exact ⟨_, _, by rw [if_neg Bool.false_ne_true, latchByte], hmin _⟩
  · cases hp : c.pagePending with
    | true => exact ⟨_, _, by rw [if_pos rfl, latchByte, hp], hmin _⟩
    | false => exact ⟨_, _, by rw [if_neg Bool.false_ne_true, latchByte], hmin _⟩

theorem pageSize_of_three (h : c.sramType = 3) : c.pageSize = 256 := by
  rw [pageSize, h]
  rfl

theorem pageSize_le (c : CartRetail) : c.pageSize ≤ 256 := by
  unfold pageSize eepromPageSize
  split_ifs <;> omega

theorem pageSize_dvd (hpage : c.pageSize ≠ 0) : c.pageSize ∣ 2 ^ 32 := by
  revert hpage
  unfold pageSize eepromPageSize
  split_ifs <;> intro h <;> first | exact absurd rfl h | decide

theorem sramLength_lt (hmedia : c.medium ∈ media) : c.sramLength < 2 ^ 28 := by
  simp only [medium, media, List.mem_cons, Prod.mk.injEq, List.not_mem_nil, or_false] at hmedia
  omega

theorem three_of_profile (hmedia : c.medium ∈ media) (hprof : isFlashProfile c.sramProfile) :
    c.sramType = 3 := by
  simp only [medium, media, List.mem_cons, Prod.mk.injEq, List.not_mem_nil, or_false] at hmedia
  rw [isFlashProfile, Bool.and_eq_true, decide_eq_true_iff, decide_eq_true_iff] at hprof
  omega

theorem length_of_profile (hmedia : c.medium ∈ media) (hprof : isFlashProfile c.sramProfile) :
    c.sramLength = 262144 ∨ c.sramLength = 524288 ∨ c.sramLength = 1048576 := by
  simp only [medium, media, List.mem_cons, Prod.mk.injEq, List.not_mem_nil, or_false] at hmedia
  rw [isFlashProfile, Bool.and_eq_true, decide_eq_true_iff, decide_eq_true_iff] at hprof
  omega

theorem pageSize_of_profile (hmedia : c.medium ∈ media) (hprof : isFlashProfile c.sramProfile) :
    c.pageSize ≠ 0 := by
  rw [pageSize_of_three (three_of_profile hmedia hprof)]
  decide

theorem eraseSize_lt (hmedia : c.medium ∈ media) (command : U8) : c.eraseSize command < 2 ^ 28 := by
  have := sramLength_lt hmedia
  unfold eraseSize flashEraseSize
  split_ifs <;> omega

/-- Another address in the same page is an address. -/
theorem lt_of_div_eq {a b size : ℕ} (hsize : size ≠ 0) (hdvd : size ∣ 2 ^ 32)
    (hab : a / size = b / size) (hb : b < 2 ^ 32) : a < 2 ^ 32 := by
  obtain ⟨k, hk⟩ := hdvd
  rw [hk] at hb ⊢
  have hq : a / size < k := hab ▸ Nat.div_lt_of_lt_mul hb
  exact Nat.mul_comm k size ▸ (Nat.div_lt_iff_lt_mul (Nat.pos_of_ne_zero hsize)).mp hq

/-- Neither a status command nor one that locks, wakes the chip or reads its status. -/
def IsArray (command : U8) : Prop :=
  command ≠ 0xE5 ∧ command ≠ 0xAB ∧ command ≠ 0x05 ∧
    command ≠ 0x01 ∧ command ≠ 0x04 ∧ command ≠ 0x06

theorem isArray_of_page {protocol : ℕ} {command : U8} (h : isPageCommand protocol command) :
    IsArray command := by
  rw [IsArray]
  rcases eq_of_isPageCommand h with hc | hc <;> rw [hc] <;> decide

theorem isArray_of_erase {command : U8} (h : isErase command) : IsArray command := by
  rw [IsArray]
  rcases eq_of_isErase h with hc | hc | hc <;> rw [hc] <;> decide

theorem not_isErase_of_page {protocol : ℕ} {command : U8} (h : isPageCommand protocol command) :
    isErase command = false := by
  rcases eq_of_isPageCommand h with hc | hc <;> rw [hc] <;> decide

theorem shifted_past {a : ℕ} (hle : c.countByte.sramPos ≤ c.addrBytes + 1)
    (hlt : c.addrBytes < c.sramPos) : a < 256 ^ (c.countByte.sramPos - 1) := by
  have hb := addrBytes_bounds c
  exact absurd (lt_sramPos_countByte hlt (by omega)) (not_lt.mpr hle)

section Effects
variable (h : c.Sound) (hpos : c.sramPos ≠ 0) (hcmd : c.sramCmd ≠ 0) {val : U8}
include h hpos

theorem Sound.pow_le (hle : c.sramPos ≤ c.addrBytes) :
    c.sramAddr < 256 ^ (c.sramPos - 1) ∧ 256 ^ c.sramPos ≤ 256 ^ c.addrBytes ∧
      256 ^ c.addrBytes ≤ 2 ^ 24 := by
  refine ⟨h.shifted hpos (by omega), Nat.pow_le_pow_right (by decide) hle, ?_⟩
  calc 256 ^ c.addrBytes ≤ 256 ^ 3 := Nat.pow_le_pow_right (by decide) (addrBytes_bounds c).2
    _ = 2 ^ 24 := by decide

include hcmd

/-- An address for a read. -/
theorem Sound.read {addr : ℕ} (hread : c.sramCmd = 0x03 ∨ c.sramCmd = 0x0B) (hlt : addr < 2 ^ 32)
    (haddr : c.sramPos ≤ c.addrBytes → c.sramPos ≠ 0 → c.sramAddr < 256 ^ (c.sramPos - 1) →
      addr < 256 ^ c.sramPos) : ({ c with sramAddr := addr } : CartRetail).countByte.Sound := by
  have hpage : isPageCommand c.sramType c.sramCmd = false := by
    by_contra hno
    rcases eq_of_isPageCommand ((Bool.not_eq_false _).mp hno) with hp | hp <;>
      rcases hread with hr | hr <;> exact absurd (hp.symm.trans hr) (by decide)
  have herase : isErase c.sramCmd = false := by
    rcases hread with hr | hr <;> rw [hr] <;> decide
  have hother : c.sramCmd ≠ 0x05 ∧ c.sramCmd ≠ 0xE5 ∧ c.sramCmd ≠ 0xAB ∧ c.sramCmd ≠ 0x01 ∧
      c.sramCmd ≠ 0x04 ∧ c.sramCmd ≠ 0x06 := by
    rcases hread with hr | hr <;> rw [hr] <;> decide
  have hb := addrBytes_bounds c
  exact
    { h with
      writing := fun hd => by
        rcases (h.writing hd).command hpos with hc | hc | hc | hc
        · exact absurd hc hcmd
        · exact absurd hc hother.1
        · exact absurd (hpage.symm.trans hc) Bool.false_ne_true
        · exact absurd (herase.symm.trans hc.1) Bool.false_ne_true
      pending := fun hp => by
        rcases (h.pending hp).command with hc | hc
        · exact absurd (hpage.symm.trans hc) Bool.false_ne_true
        · exact absurd (herase.symm.trans hc) Bool.false_ne_true
      pos := sramPos_countByte_lt h.pos
      addr := hlt
      shifted := fun _ hle => by
        have hle' : c.sramPos ≤ c.addrBytes := le_of_sramPos_countByte hle (by omega)
        have hlt' := haddr hle' hpos (h.pow_le hpos hle').1
        exact (sramPos_countByte (c := c) (by omega)).symm ▸ hlt'
      fresh := fun hzero => absurd hzero (sramPos_countByte_ne_zero c)
      statusCmd := fun hs => absurd ((not_isStatusCommand hother.2.2.2).symm.trans hs)
        Bool.false_ne_true
      samePage := fun _ _ hc => absurd (hpage.symm.trans hc) Bool.false_ne_true
      lockCmd := fun _ hc => absurd hc hother.2.1
      powered := fun hp => absurd hp (h.not_powered hpos hcmd hother.2.2.1) }

theorem Sound.start {addr first : ℕ} (happ : ¬c.Appends)
    (hname : isPageCommand c.sramType c.sramCmd ∨ isErase c.sramCmd)
    (hle : c.sramPos ≤ c.addrBytes) (htiny : c.sramType ≠ 1 → first = addr)
    (haddr : c.sramPos ≠ 0 → c.sramAddr < 256 ^ (c.sramPos - 1) → addr < 256 ^ c.sramPos)
    (hfirst : c.sramType = 1 → first < 512) :
    ({ c with sramAddr := addr, sramSaveAddr := first, sramSaveLen := 0 } :
      CartRetail).countByte.Sound := by
  obtain ⟨hold, hpow, hpow24⟩ := h.pow_le hpos hle
  have hlt := haddr hpos hold
  have hb := addrBytes_bounds c
  have hother : IsArray c.sramCmd := hname.elim isArray_of_page isArray_of_erase
  have hidle : c.writeDelay = 0 := by
    by_contra hd
    rcases (h.writing hd).command hpos with hc | hc | hc | hc
    · exact hcmd hc
    · exact hother.2.2.1 hc
    · exact happ ⟨hd, hpos, hc⟩
    · omega
  have hclosed : c.pagePending = false := by
    by_contra hno
    rcases (h.pending ((Bool.not_eq_false _).mp hno)).kind with hk | hk <;> omega
  exact
    { h with
      writing := absurd hidle
      pending := fun hp => absurd (hclosed.symm.trans hp) Bool.false_ne_true
      pos := sramPos_countByte_lt h.pos
      addr := hlt.trans (by omega)
      shifted := fun _ _ => (sramPos_countByte (c := c) (by omega)).symm ▸ hlt
      saveAddr := by
        change first < if c.sramType = 1 then 512 else 256 ^ c.addrBytes
        split
        next h1 => exact hfirst h1
        next h1 =>
          rw [htiny h1]
          exact hlt.trans_le hpow
      saveLen := Nat.two_pow_pos 28
      fresh := fun hzero => absurd hzero (sramPos_countByte_ne_zero c)
      statusCmd := fun hs => absurd ((not_isStatusCommand hother.2.2.2).symm.trans hs)
        Bool.false_ne_true
      samePage := fun htype _ _ _ _ _ => by
        have htype' : c.sramType = 2 := htype
        rw [htiny (by omega)]
        rfl
      lockCmd := fun _ hc => absurd hc hother.1
      powered := fun hp => absurd hp (h.not_powered hpos hcmd hother.2.1) }

theorem Sound.latch {addr : ℕ} (happ : ¬c.Appends) (hname : isPageCommand c.sramType c.sramCmd)
    (hlt : c.addrBytes < c.sramPos) (hpage : c.pageSize ≠ 0) (hwel : c.wel)
    (hfree : c.isWriteProtected (if c.sramType = 2 then c.sramAddr else c.sramSaveAddr) = false)
    (hsame : c.sramType ≠ 1 → addr / c.pageSize = c.sramAddr / c.pageSize)
    (haddr : c.sramType = 1 → addr < 2 ^ 32) :
    ({ c.latched val with sramAddr := addr } : CartRetail).countByte.Sound := by
  have hother := isArray_of_page hname
  obtain ⟨hawake, hblocked⟩ := h.awake hpos hcmd hother.2.1
  have hidle : c.writeDelay = 0 := by
    by_contra hd
    exact happ ⟨hd, hpos, hname⟩
  have hstart : c.isWriteProtected c.sramSaveAddr = false := by
    by_cases htype : c.sramType = 2
    · rw [if_pos htype] at hfree
      rw [← isWriteProtected_congr h.media htype hpage
        (h.samePage htype hpage hname hlt hwel hidle)]
      exact hfree
    · rw [if_neg htype] at hfree
      exact hfree
  have hb := addrBytes_bounds c
  have hcount : c.addrBytes + 2 ≤ c.countByte.sramPos := lt_sramPos_countByte hlt (by omega)
  obtain ⟨buffer, len, heq, hlen, hle⟩ := latched_eq val hpage
  rw [heq]
  exact
    { h with
      writing := absurd hidle
      pending := fun _ =>
        { idle := hidle
          awake := hawake
          blocked := hblocked
          wel := hwel
          latch := hpage
          free := hstart
          kind := .inl ⟨hname, hcount, hlen, hle⟩ }
      pos := sramPos_countByte_lt h.pos
      addr := by
        by_cases htype : c.sramType = 1
        · exact haddr htype
        · exact lt_of_div_eq hpage (pageSize_dvd hpage) (hsame htype) h.addr
      shifted := fun _ hpos' => shifted_past hpos' hlt
      saveLen := by
        have := pageSize_le c
        change len < _
        omega
      fresh := fun hzero => absurd hzero (sramPos_countByte_ne_zero c)
      statusCmd := fun hs => absurd ((not_isStatusCommand hother.2.2.2).symm.trans hs)
        Bool.false_ne_true
      samePage := fun htype _ _ _ _ _ => by
        have htype' : c.sramType = 2 := htype
        exact (hsame (by omega)).trans (h.samePage htype hpage hname hlt hwel hidle)
      lockCmd := fun _ hc => absurd hc hother.1
      powered := fun hp => absurd hp (h.not_powered hpos hcmd hother.2.1) }

omit hcmd in
theorem Sound.skip {addr : ℕ} (happ : ¬c.Appends) (hname : isPageCommand c.sramType c.sramCmd)
    (hlt : c.addrBytes < c.sramPos)
    (hsame : c.sramType ≠ 1 → c.pageSize ≠ 0 → addr / c.pageSize = c.sramAddr / c.pageSize)
    (hwel : c.sramType = 2 → c.wel = false)
    (haddr : c.sramType = 1 ∨ c.pageSize = 0 → addr < 2 ^ 32) :
    ({ c with sramAddr := addr } : CartRetail).countByte.Sound := by
  have hother := isArray_of_page hname
  have hcount := h.count hpos (fun _ _ => hlt) fun he =>
    absurd ((not_isErase_of_page hname).symm.trans he) Bool.false_ne_true
  exact
    { hcount with
      writing := fun hd => absurd ⟨hd, hpos, hname⟩ happ
      pending := fun hp => { hcount.pending hp with kind := (hcount.pending hp).kind }
      addr := by
        by_cases hfree : c.sramType = 1 ∨ c.pageSize = 0
        · exact haddr hfree
        · obtain ⟨htype, hpage⟩ := not_or.mp hfree
          exact lt_of_div_eq hpage (pageSize_dvd hpage) (hsame htype hpage) h.addr
      shifted := fun _ hpos' => shifted_past hpos' hlt
      statusCmd := fun hs => absurd ((not_isStatusCommand hother.2.2.2).symm.trans hs)
        Bool.false_ne_true
      samePage := fun htype _ _ _ hwel' => absurd ((hwel htype).symm.trans hwel') Bool.false_ne_true
      lockCmd := fun _ hc => absurd hc hother.1 }

theorem Sound.direct (happ : ¬c.Appends) (hname : c.sramCmd = 0x02)
    (hlt : c.addrBytes < c.sramPos) (hpage : c.pageSize = 0) :
    (c.writeDirect val).nextAddress.countByte.Sound := by
  have hcommand : isPageCommand c.sramType c.sramCmd = true := by
    rw [hname]
    rfl
  have hother := isArray_of_page hcommand
  have hlen := sramLength_lt h.media
  exact
    { h with
      writing := fun hd => absurd ⟨hd, hpos, hcommand⟩ happ
      pending := fun hp => absurd hpage (h.pending hp).latch
      pos := sramPos_countByte_lt h.pos
      addr := Nat.mod_lt _ (Nat.two_pow_pos 32)
      shifted := fun _ hpos' => shifted_past hpos' hlt
      saveLen := (Nat.min_le_right _ _).trans_lt hlen
      fresh := fun hzero => absurd hzero (sramPos_countByte_ne_zero c)
      statusCmd := fun hs => absurd ((not_isStatusCommand hother.2.2.2).symm.trans hs)
        Bool.false_ne_true
      samePage := fun _ hps => absurd hpage hps
      lockCmd := fun _ hc => absurd hc hother.1
      powered := fun hp => absurd hp (h.not_powered hpos hcmd hother.2.1) }

/-- The other commands of a flash memory have bytes neither for a page nor for a status. -/
theorem Sound.lock {addr len : ℕ} (hlock : c.sramCmd = 0xE5 ∨ c.sramCmd = 0xE8)
    (htype : c.sramType = 3) (haddr : addr < 2 ^ 24) (hlen : len ≤ 0xFF)
    (hshift : c.sramPos ≤ 3 → addr < 256 ^ c.sramPos) :
    ({ c with sramAddr := addr, sramSaveLen := len } : CartRetail).countByte.Sound := by
  have hpage : isPageCommand c.sramType c.sramCmd = false := by
    rw [htype]
    rcases hlock with hc | hc <;> rw [hc] <;> decide
  have herase : isErase c.sramCmd = false := by
    rcases hlock with hc | hc <;> rw [hc] <;> decide
  have hother : c.sramCmd ≠ 0x05 ∧ c.sramCmd ≠ 0xAB ∧ c.sramCmd ≠ 0x01 ∧
      c.sramCmd ≠ 0x04 ∧ c.sramCmd ≠ 0x06 := by
    rcases hlock with hc | hc <;> rw [hc] <;> decide
  have hclosed : c.pagePending = false := by
    by_contra hno
    rcases (h.pending ((Bool.not_eq_false _).mp hno)).command with hc | hc
    · exact Bool.false_ne_true (hpage.symm.trans hc)
    · exact Bool.false_ne_true (herase.symm.trans hc)
  have hbytes : c.addrBytes = 3 := by rw [addrBytes, addressBytes, htype]; rfl
  exact
    { h with
      writing := fun hd => by
        rcases (h.writing hd).command hpos with hc | hc | hc | hc
        · exact absurd hc hcmd
        · exact absurd hc hother.1
        · exact absurd (hpage.symm.trans hc) Bool.false_ne_true
        · exact absurd (herase.symm.trans hc.1) Bool.false_ne_true
      pending := fun hp => absurd (hclosed.symm.trans hp) Bool.false_ne_true
      pos := sramPos_countByte_lt h.pos
      addr := haddr.trans (by decide)
      shifted := fun _ hle => by
        have hle' : c.sramPos ≤ 3 := hbytes ▸ le_of_sramPos_countByte hle (by omega)
        exact (sramPos_countByte (c := c) (by omega)).symm ▸ hshift hle'
      saveLen := by
        change len < _
        omega
      fresh := fun hzero => absurd hzero (sramPos_countByte_ne_zero c)
      statusCmd := fun hs => absurd ((not_isStatusCommand hother.2.2).symm.trans hs)
        Bool.false_ne_true
      samePage := fun htwo => absurd htwo (by change c.sramType ≠ 2; omega)
      lockCmd := fun _ _ => ⟨hlen, hclosed, haddr⟩
      powered := fun hp => absurd hp (h.not_powered hpos hcmd hother.2.1) }

/-- The bytes of an erase leave it pending or not. -/
theorem Sound.erase {addr first len : ℕ} {pending : Bool} {buffer : Fin 256 → U8}
    (hname : isErase c.sramCmd) (htype : c.sramType = 3) (hidle : c.writeDelay = 0)
    (haddr : addr < 2 ^ 32) (hfirst : first < 2 ^ 24) (hlen : len < 2 ^ 28)
    (hshift : c.sramPos ≤ 3 → addr < 256 ^ c.sramPos)
    (hpending : pending → c.wel ∧ c.isWriteProtected first = false ∧ c.sramPos = 3 ∧
      c.eraseSize c.sramCmd ≠ 0 ∧ len = c.eraseSize c.sramCmd) :
    ({ c with
      sramAddr := addr
      sramSaveAddr := first
      pagePending := pending
      pageBuffer := buffer
      sramSaveLen := len } : CartRetail).countByte.Sound := by
  have hother := isArray_of_erase hname
  obtain ⟨hawake, hblocked⟩ := h.awake hpos hcmd hother.2.1
  have hbytes : c.addrBytes = 3 := by rw [addrBytes, addressBytes, htype]; rfl
  exact
    { h with
      writing := absurd hidle
      pending := fun hp => by
        obtain ⟨hwel, hfree, hthree, hsize, hlen'⟩ := hpending hp
        refine ⟨hidle, hawake, hblocked, hwel, ?_, hfree, .inr ⟨hname, hsize, ?_, hlen'⟩⟩
        · change c.pageSize ≠ 0
          rw [pageSize_of_three htype]
          decide
        · exact (sramPos_countByte (c := c) (by omega)).trans (by rw [hthree])
      pos := sramPos_countByte_lt h.pos
      addr := haddr
      shifted := fun _ hle => by
        have hle' : c.sramPos ≤ 3 := hbytes ▸ le_of_sramPos_countByte hle (by omega)
        exact (sramPos_countByte (c := c) (by omega)).symm ▸ hshift hle'
      saveAddr := by
        change first < if c.sramType = 1 then 512 else 256 ^ c.addrBytes
        rw [if_neg (by omega), hbytes]
        exact hfirst
      saveLen := hlen
      fresh := fun hzero => absurd hzero (sramPos_countByte_ne_zero c)
      statusCmd := fun hs => absurd ((not_isStatusCommand hother.2.2.2).symm.trans hs)
        Bool.false_ne_true
      samePage := fun htwo => absurd htwo (by change c.sramType ≠ 2; omega)
      lockCmd := fun _ hc => absurd hc hother.1
      powered := fun hp => absurd hp (h.not_powered hpos hcmd hother.2.1) }

theorem Sound.cancelErase (hname : isErase c.sramCmd) (htype : c.sramType = 3) :
    ({ c with pagePending := false, sramSaveLen := 0 } : CartRetail).countByte.Sound := by
  have hother := isArray_of_erase hname
  exact
    { h with
      writing := fun hd =>
        { h.writing hd with
          pending := rfl
          saveLen := rfl
          command := fun _ => ((h.writing hd).command hpos).imp_right fun hc =>
            hc.imp_right fun hc => hc.imp_right fun hc => hc.imp_right
              fun hle => hle.trans (le_sramPos_countByte c) }
      pending := fun hp => absurd hp Bool.false_ne_true
      pos := sramPos_countByte_lt h.pos
      shifted := fun _ hle => by
        have hb := addrBytes_bounds c
        have hle' : c.countByte.sramPos ≤ c.addrBytes + 1 := hle
        have hlt := h.shifted hpos ((le_of_sramPos_countByte hle' (by omega)).trans (by omega))
        refine hlt.trans_le (Nat.pow_le_pow_right (by decide) ?_)
        exact Nat.sub_le_sub_right (le_sramPos_countByte c) 1
      saveLen := Nat.two_pow_pos 28
      fresh := fun hzero => absurd hzero (sramPos_countByte_ne_zero c)
      statusCmd := fun hs => absurd ((not_isStatusCommand hother.2.2.2).symm.trans hs)
        Bool.false_ne_true
      samePage := fun htwo => absurd htwo (by change c.sramType ≠ 2; omega)
      lockCmd := fun _ hc => absurd hc hother.1
      powered := fun hp => absurd hp (h.not_powered hpos hcmd hother.2.1) }

theorem Sound.effect (happ : ¬c.Appends) {c' : CartRetail} (he : ByteEffect val c c') : c'.countByte.Sound := by
  cases he with
  | answer hpage herase => exact h.count hpos hpage herase
  | read addr hread hlt haddr => exact h.read hpos hcmd hread hlt haddr
  | start addr first hname hle htiny haddr hfirst =>
    exact h.start hpos hcmd happ hname hle htiny haddr hfirst
  | latch addr hname hlt hpage hwel hfree hsame haddr =>
    exact h.latch hpos hcmd happ hname hlt hpage hwel hfree hsame haddr
  | skip addr hname hlt hsame hwel haddr => exact h.skip hpos happ hname hlt hsame hwel haddr
  | direct hname htype hlt hpage hwel hfree => exact h.direct hpos hcmd happ hname hlt hpage
  | lockAddress addr hlock hle htype haddr =>
    have hbytes : c.addrBytes = 3 := by rw [addrBytes, addressBytes, htype]; rfl
    have hlt := haddr hpos (h.shifted hpos (by omega))
    have hpow : 256 ^ c.sramPos ≤ 256 ^ 3 := Nat.pow_le_pow_right (by decide) hle
    exact h.lock hpos hcmd hlock htype (by omega) (Nat.zero_le _) fun _ => hlt
  | lockValue hlock htype hfour =>
    have hbytes : c.addrBytes = 3 := by rw [addrBytes, addressBytes, htype]; rfl
    have hlt := h.shifted hpos (by omega)
    rw [hfour] at hlt
    exact h.lock hpos hcmd (.inl hlock) htype hlt (Nat.le_of_lt_succ val.isLt) (by omega)
  | erase addr hname htype hthree hwel hfree hsize haddr =>
    have hbytes : c.addrBytes = 3 := by rw [addrBytes, addressBytes, htype]; rfl
    have hold := h.shifted hpos (by omega)
    rw [hthree] at hold
    have hlt := haddr hold
    have hidle : c.writeDelay = 0 := by
      by_contra hd
      have hother := isArray_of_erase hname
      rcases (h.writing hd).command hpos with hc | hc | hc | hc
      · exact hcmd hc
      · exact hother.2.2.1 hc
      · exact happ ⟨hd, hpos, hc⟩
      · omega
    refine h.erase hpos hcmd hname htype hidle (by omega) (by omega) ?_ (fun _ => hthree ▸ hlt)
      fun _ => ⟨hwel, hfree, hthree, hsize, rfl⟩
    exact eraseSize_lt h.media _
  | cancelErase hname htype => exact h.cancelErase hpos hcmd hname htype

end Effects

theorem Sound.refuse (h : c.Sound) (hpos : c.sramPos = 0) (hp : c.Powered) :
    Sound { c with powerBlocked := true, sramCmd := 0 } := by
  have hpow := h.powered hp
  have hstatus : isStatusCommand c.sramType 0 c.sramProfile = false :=
    not_isStatusCommand (by decide)
  exact
    { h with
      writing := absurd hpow.2.2.1
      pending := fun hq => absurd (hpow.2.1.symm.trans hq) Bool.false_ne_true
      statusCmd := fun hs => absurd (hstatus.symm.trans hs) Bool.false_ne_true
      samePage := fun _ _ _ hlt => absurd hpos (Nat.ne_of_gt (Nat.zero_lt_of_lt hlt))
      lockCmd := fun _ hc => absurd hc (by decide : ¬(0 : U8) = 0xE5)
      powered := fun _ => ⟨hpow.1, hpow.2.1, hpow.2.2.1, hpow.2.2.2.1, fun hne => absurd hpos hne⟩
      blocked := fun _ => rfl }

theorem startCommand_eq (val : U8) (c : CartRetail) : ∃ start len, c.startCommand val =
    { c with
      sramCmd := if c.writeDelay ≠ 0 ∧ val ≠ 0x05 then 0 else val
      sramAddr := 0
      sramSaveAddr := start
      sramSaveLen := len } ∧ start ≤ c.sramSaveAddr ∧ len ≤ c.sramSaveLen ∧
      (isStatusCommand c.sramType val c.sramProfile → len = 0) := by
  rw [startCommand]
  cases hs : isStatusCommand c.sramType val c.sramProfile with
  | true => exact ⟨0, 0, if_pos rfl, Nat.zero_le _, Nat.zero_le _, fun _ => rfl⟩
  | false =>
    exact ⟨_, _, if_neg Bool.false_ne_true, Nat.le_refl _, Nat.le_refl _,
      fun h => absurd h Bool.false_ne_true⟩

theorem Sound.startCommand (h : c.Sound) (hpos : c.sramPos = 0) (val : U8)
    (hblocked : c.powerBlocked = false) (hawake : c.powerState ≠ .awake → val = 0xAB) :
    (c.startCommand val).countByte.Sound := by
  obtain ⟨start, len, heq, hstart, hlen, hstatus⟩ := startCommand_eq val c
  have hclosed : c.pagePending = false := by
    by_contra hno
    rcases (h.pending ((Bool.not_eq_false _).mp hno)).kind with hk | hk <;> omega
  have hb := addrBytes_bounds c
  have hcmd : (if c.writeDelay ≠ 0 ∧ val ≠ 0x05 then 0 else val) = 0 ∨
      (if c.writeDelay ≠ 0 ∧ val ≠ 0x05 then 0 else val) = val := by
    split
    · exact .inl rfl
    · exact .inr rfl
  have hone : c.countByte.sramPos = 1 := by
    rw [sramPos_countByte (by omega), hpos]
  rw [heq]
  exact
    { h with
      writing := fun hd =>
        { h.writing hd with
          saveLen := Nat.le_zero.mp ((h.writing hd).saveLen ▸ hlen)
          command := fun _ => by
            by_cases hval : val = 0x05
            · exact .inr (.inl ((if_neg fun hno => hno.2 hval).trans hval))
            · exact .inl (if_pos ⟨hd, hval⟩) }
      pending := fun hp => absurd (hclosed.symm.trans hp) Bool.false_ne_true
      pos := by
        change c.countByte.sramPos < _
        omega
      addr := Nat.two_pow_pos 32
      shifted := fun _ _ => Nat.pow_pos (by decide)
      saveAddr := hstart.trans_lt h.saveAddr
      saveLen := hlen.trans_lt h.saveLen
      fresh := fun hzero => absurd hzero (sramPos_countByte_ne_zero c)
      statusCmd := fun hs => by
        refine ⟨?_, Nat.zero_le _, hclosed⟩
        rcases hcmd with hc | hc
        · have hs' : isStatusCommand c.sramType 0 c.sramProfile = true := hc ▸ hs
          exact absurd ((not_isStatusCommand (by decide)).symm.trans hs') Bool.false_ne_true
        · exact hstatus (hc ▸ hs)
      samePage := fun _ _ _ hlt => by
        have hlt' : c.addrBytes < c.countByte.sramPos := hlt
        omega
      lockCmd := fun hprof _ => by
        refine ⟨?_, hclosed, Nat.two_pow_pos 24⟩
        have hzero : c.sramSaveLen = 0 := h.fresh hpos (pageSize_of_profile h.media hprof)
        exact (Nat.le_zero.mp (hzero ▸ hlen)).le.trans (Nat.zero_le _)
      powered := fun hp => by
        have hpow := h.powered hp
        refine ⟨hpow.1, hpow.2.1, hpow.2.2.1, Nat.le_zero.mp (hpow.2.2.2.1 ▸ hlen), fun _ => ?_⟩
        rcases hp with hp | hp
        · exact hcmd.imp_right fun hc => hc.trans (hawake hp)
        · exact absurd (hblocked.symm.trans hp) Bool.false_ne_true
      blocked := fun hp => absurd (hblocked.symm.trans hp) Bool.false_ne_true }

theorem Sound.statusByte (h : c.Sound) (hpos : c.sramPos ≠ 0) (val : U8)
    (hstatus : isStatusCommand c.sramType c.sramCmd c.sramProfile) :
    (if c.sramCmd = 0x01 ∧ c.sramPos = 1 then { c with sramAddr := val.toNat }
      else c).countByte.Sound := by
  have hval : val.toNat < 256 := val.isLt
  have hname : c.sramCmd = 0x01 ∨ c.sramCmd = 0x04 ∨ c.sramCmd = 0x06 := by
    by_contra hno
    rw [not_or, not_or] at hno
    exact Bool.false_ne_true ((not_isStatusCommand hno).symm.trans hstatus)
  have hpage : isPageCommand c.sramType c.sramCmd = false := by
    rw [isPageCommand]
    rcases hname with hc | hc | hc <;> rw [hc] <;> simp
  have herase : isErase c.sramCmd = false := by
    rcases hname with hc | hc | hc <;> rw [hc] <;> decide
  have hcount := h.count hpos
    (fun _ hp => absurd (hpage.symm.trans hp) Bool.false_ne_true)
    fun he => absurd (herase.symm.trans he) Bool.false_ne_true
  by_cases hfirst : c.sramCmd = 0x01 ∧ c.sramPos = 1
  · rw [if_pos hfirst]
    exact
      { hcount with
        writing := fun hd => { hcount.writing hd with kind := (hcount.writing hd).kind }
        pending := fun hp => { hcount.pending hp with kind := (hcount.pending hp).kind }
        addr := hval.trans (by decide)
        shifted := fun _ _ => by
          change val.toNat < 256 ^ (c.countByte.sramPos - 1)
          rw [sramPos_countByte (by omega), hfirst.2]
          exact hval
        statusCmd := fun hs => ⟨(hcount.statusCmd hs).1, Nat.le_of_lt_succ hval,
          (hcount.statusCmd hs).2.2⟩
        samePage := fun _ _ hc => absurd (hpage.symm.trans hc) Bool.false_ne_true
        lockCmd := fun _ hc => absurd (hfirst.1.symm.trans hc) (by decide) }
  · rw [if_neg hfirst]
    exact hcount

theorem Sound.spiTransmitReceive (h : c.Sound) (val : U8) (happ : ¬c.Appends) :
    (c.spiTransmitReceive val).2.Sound := by
  rw [CartRetail.spiTransmitReceive]
  by_cases htype : c.sramType = 0
  · rw [if_pos htype]
    exact h
  rw [if_neg htype]
  by_cases hblocked : c.powerBlocked = true
  · rw [if_pos hblocked]
    exact h
  rw [if_neg hblocked]
  by_cases hpos : c.sramPos = 0
  · rw [if_pos hpos]
    by_cases hrefuse : c.powerState ≠ .awake ∧ ¬(c.powerState = .asleep ∧ val = 0xAB)
    · rw [if_pos hrefuse]
      exact h.refuse hpos (.inl hrefuse.1)
    · rw [if_neg hrefuse]
      exact h.startCommand hpos val ((Bool.not_eq_true _).mp hblocked) fun hne =>
        (not_not.mp fun hno => hrefuse ⟨hne, hno⟩).2
  rw [if_neg hpos]
  by_cases hcmd : c.sramCmd = 0
  · rw [if_pos hcmd]
    exact h
  rw [if_neg hcmd]
  by_cases hstatus : isStatusCommand c.sramType c.sramCmd c.sramProfile = true
  · rw [if_pos hstatus]
    exact h.statusByte hpos val hstatus
  · rw [if_neg hstatus]
    exact h.effect hpos hcmd happ (sramWrite_effect val c)

end CartRetail
end MelonDS.NDSCart

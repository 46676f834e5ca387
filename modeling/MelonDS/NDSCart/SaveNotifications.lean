import MelonDS.NDSCart.Transactions

/-!
# What the save file is told

`image` is a copy of the array kept up to date from the platform calls alone. A part with
a page latch publishes every write when it completes. A part without one writes to the
array byte by byte and publishes one range at the release: until then `Unpublished` says
which bytes the copy may lack. A reset or an import in the middle of such a write forgets
the range (`Discards`), and the copy never hears of those bytes again.
-/

namespace MelonDS.NDSCart

namespace SaveCall

def Inside (call : SaveCall) : Prop := call.writeoffset + call.writelen ≤ call.savelen

instance (call : SaveCall) : Decidable call.Inside := inferInstanceAs (Decidable (_ ≤ _))

/-- A copy of the array takes the bytes of a call. -/
def copy (image : ℕ → U8) (call : SaveCall) : ℕ → U8 := fun i =>
  if call.writeoffset ≤ i ∧ i < call.writeoffset + call.writelen then call.savedata i else image i

end SaveCall

namespace CartRetail

variable {c : CartRetail}

def image (file : ℕ → U8) (c : CartRetail) : ℕ → U8 := c.calls.foldl SaveCall.copy file

/-- A chip that takes the bytes of a write straight into the array. -/
def Direct (c : CartRetail) : Prop := c.sramType = 2 ∧ c.pageSize = 0

instance (c : CartRetail) : Decidable c.Direct := inferInstanceAs (Decidable (_ ∧ _))

def Unpublished (c : CartRetail) (i : ℕ) : Prop :=
  c.Direct ∧ ∃ k < c.sramSaveLen, i = (c.sramSaveAddr + k) % c.sramLength

/-- How a direct write counts the bytes it has not published. -/
structure Counted (c : CartRetail) : Prop where
  early : c.Direct → c.sramPos ≤ c.addrBytes → c.sramSaveLen = 0
  command : c.Direct → c.sramSaveLen ≠ 0 → c.wel ∧ c.sramCmd = 0x02
  next : c.Direct → c.sramCmd = 0x02 → c.addrBytes < c.sramPos → c.wel →
    c.sramAddr ≡ c.sramSaveAddr + c.sramSaveLen [MOD c.sramLength] ∨ c.sramSaveLen = c.sramLength

theorem Counted.empty (hlen : c.sramSaveLen = 0) (hend : c.sramPos ≤ c.addrBytes) : c.Counted where
  early _ _ := hlen
  command _ hno := absurd hlen hno
  next _ _ hlt := absurd hlt (not_lt.mpr hend)

theorem Counted.indirect (hd : ¬c.Direct) : c.Counted :=
  ⟨fun h => absurd h hd, fun h => absurd h hd, fun h => absurd h hd⟩

theorem direct_of_medium {c' : CartRetail} (h : c'.medium = c.medium) : c'.Direct ↔ c.Direct := by
  rw [medium, medium, Prod.mk.injEq, Prod.mk.injEq] at h
  rw [Direct, Direct, pageSize, pageSize, h.1, h.2.1]

theorem direct_of_chip {c' : CartRetail} (h : c'.chip = c.chip) : c'.Direct ↔ c.Direct :=
  direct_of_medium (congrArg Chip.medium h)

theorem Direct.length (hd : c.Direct) (hs : c.Sound) :
    c.sramLength ∣ 2 ^ 32 ∧ 0 < c.sramLength := by
  have hmedia := hs.media
  simp only [medium, media, hd.1, List.mem_cons, Prod.mk.injEq, List.not_mem_nil,
    or_false] at hmedia
  have hlen : c.sramLength = 2 ^ 13 ∨ c.sramLength = 2 ^ 16 ∨ c.sramLength = 2 ^ 17 ∨
      c.sramLength = 2 ^ 15 := by omega
  rcases hlen with hl | hl | hl | hl <;> rw [hl] <;>
    exact ⟨Nat.pow_dvd_pow 2 (by decide), Nat.two_pow_pos _⟩

theorem Direct.not_flash (hd : c.Direct) (hs : c.Sound) : isFlashProfile c.sramProfile = false := by
  by_contra hno
  have htype := three_of_profile hs.media ((Bool.not_eq_false _).mp hno)
  exact absurd (hd.1.symm.trans htype) (by decide)

/-- A chip without a page latch is always awake and never busy. -/
theorem Direct.idle (hd : c.Direct) (hs : c.Sound) : c.powerBlocked = false ∧ c.writeDelay = 0 ∧
    c.powerDelay = 0 ∧ c.powerState = .awake ∧ c.pagePending = false := by
  have hpow : ¬c.Powered := fun hp => by
    have hflash := (hs.powered hp).1
    rw [hd.not_flash hs] at hflash
    exact Bool.false_ne_true hflash
  rw [Powered, not_or, not_not, Bool.not_eq_true] at hpow
  refine ⟨hpow.2, by_contra fun hno => (hs.writing hno).latch hd.2, ?_, hpow.1, ?_⟩
  · rw [hs.powerDelay, transitioning_of_awake hpow.1, if_neg Bool.false_ne_true]
  · by_contra hno
    exact (hs.pending ((Bool.not_eq_false _).mp hno)).latch hd.2

/-! ## A byte -/

theorem Counted.zero (h : c.Counted) (hd : c.Direct) (hno : c.sramCmd ≠ 0x02) :
    c.sramSaveLen = 0 := by
  by_contra hne
  exact hno (h.command hd hne).2

theorem addrBytes_lt_of_countByte (h : c.countByte.sramPos ≤ c.addrBytes) :
    c.sramPos ≤ c.addrBytes :=
  (le_sramPos_countByte c).trans h

theorem direct_addr {a start len size : ℕ} (hdvd : size ∣ 2 ^ 32)
    (h : a ≡ start + len [MOD size] ∨ len = size) :
    (a + 1) % 2 ^ 32 ≡ start + min (len + 1) size [MOD size] ∨ min (len + 1) size = size := by
  rcases h with h | h
  · rcases Nat.lt_or_ge len size with hlt | hge
    · left
      rw [Nat.min_eq_left hlt]
      exact ((Nat.mod_mod_of_dvd _ hdvd : _).trans (h.add_right 1) :)
    · exact .inr (Nat.min_eq_right (by omega))
  · exact .inr (Nat.min_eq_right (by omega))

theorem Counted.effect (h : c.Counted) (hs : c.Sound) (hd : c.Direct) {val : U8} {c' : CartRetail}
    (he : ByteEffect val c c') : c'.countByte.Counted := by
  have htwo (hno : c.sramType = 3) : False := absurd (hd.1.symm.trans hno) (by decide)
  cases he with
  | answer hpage herase =>
    exact
      { early := fun _ hle => h.early hd (addrBytes_lt_of_countByte hle)
        command := h.command
        next := fun _ hcmd _ hwel => h.next hd hcmd (hpage hd.1 (by
          rw [show c.sramCmd = 0x02 from hcmd]
          rfl)) hwel }
  | read addr hcmd hlt haddr =>
    have hno : c.sramCmd ≠ 0x02 := by
      rcases hcmd with hc | hc <;> rw [hc] <;> decide
    exact
      { early := fun _ _ => h.zero hd hno
        command := fun _ hne => absurd (h.zero hd hno) hne
        next := fun _ hc => absurd hc hno }
  | start addr first hcmd hpos htiny haddr hfirst =>
    have heq : first = addr := htiny (by rw [hd.1]; decide)
    exact
      { early := fun _ _ => rfl
        command := fun _ hne => absurd rfl hne
        next := fun _ _ _ _ => .inl (by
          change addr ≡ first + 0 [MOD c.sramLength]
          rw [heq]
          exact Nat.ModEq.refl addr) }
  | latch addr hcmd hpos hpage => exact absurd hd.2 hpage
  | skip addr hcmd hpos hsame hwel hlt =>
    have hno : c.wel = false := hwel hd.1
    have hzero : c.sramSaveLen = 0 := by
      by_contra hne
      exact Bool.false_ne_true (hno.symm.trans (h.command hd hne).1)
    exact
      { early := fun _ _ => hzero
        command := fun _ hne => absurd hzero hne
        next := fun _ _ _ hw => absurd (hno.symm.trans hw) Bool.false_ne_true }
  | direct hcmd htype hpos hpage hwel hfree =>
    exact
      { early := fun _ hle => absurd (addrBytes_lt_of_countByte (c := c) hle) (not_le.mpr hpos)
        command := fun _ _ => ⟨hwel, hcmd⟩
        next := fun _ _ _ _ => direct_addr (hd.length hs).1 (h.next hd hcmd hpos hwel) }
  | lockAddress addr hcmd hpos htype => exact (htwo htype).elim
  | lockValue hcmd htype => exact (htwo htype).elim
  | erase addr hcmd htype => exact (htwo htype).elim
  | cancelErase hcmd htype => exact (htwo htype).elim

theorem Counted.spiTransmitReceive (h : c.Counted) (hs : c.Sound) (val : U8) :
    (c.spiTransmitReceive val).2.Counted := by
  by_cases hd : c.Direct
  swap
  · exact .indirect (mt (direct_of_chip (chip_spiTransmitReceive val c)).mp hd)
  rw [CartRetail.spiTransmitReceive]
  by_cases h0 : c.sramType = 0
  · rw [if_pos h0]
    exact h
  rw [if_neg h0]
  by_cases hb : c.powerBlocked = true
  · rw [if_pos hb]
    exact h
  rw [if_neg hb]
  by_cases hpos : c.sramPos = 0
  · have hzero := h.early hd (by omega)
    have haddr := addrBytes_bounds c
    rw [if_pos hpos]
    split
    · exact .empty hzero (by change c.sramPos ≤ c.addrBytes; omega)
    · obtain ⟨start, len, heq, -, hlen, -⟩ := startCommand_eq val c
      have hcount := sramPos_countByte (c := c) (by omega)
      rw [heq]
      refine .empty (Nat.le_zero.mp (hzero ▸ hlen)) ?_
      change c.countByte.sramPos ≤ c.addrBytes
      omega
  rw [if_neg hpos]
  by_cases hcmd : c.sramCmd = 0
  · rw [if_pos hcmd]
    exact h
  rw [if_neg hcmd]
  cases hstatus : isStatusCommand c.sramType c.sramCmd c.sramProfile with
  | true =>
    have hno : c.sramCmd ≠ 0x02 := fun hc =>
      absurd ((not_isStatusCommand (by rw [hc]; decide)).symm.trans hstatus) Bool.false_ne_true
    have hzero := h.zero hd hno
    rw [if_pos rfl]
    split <;>
      exact ⟨fun _ _ => hzero, fun _ hne => absurd hzero hne, fun _ hc => absurd hc hno⟩
  | false =>
    rw [if_neg Bool.false_ne_true]
    exact h.effect hs hd (sramWrite_effect val c)

/-- A byte for a chip without a page latch is counted if it reaches the array; any other
byte leaves what is unpublished alone. -/
theorem Counted.byte (h : c.Counted) (hs : c.Sound) (hd : c.Direct) (val : U8) :
    ((c.spiTransmitReceive val).2.sram = c.sram ∧ (c.sramSaveLen = 0 ∨
      (c.spiTransmitReceive val).2.sramSaveAddr = c.sramSaveAddr ∧
        (c.spiTransmitReceive val).2.sramSaveLen = c.sramSaveLen)) ∨
    ((c.spiTransmitReceive val).2 = (c.writeDirect val).nextAddress.countByte ∧
      (c.sramAddr ≡ c.sramSaveAddr + c.sramSaveLen [MOD c.sramLength] ∨
        c.sramSaveLen = c.sramLength)) := by
  by_cases hlen : c.sramSaveLen = 0
  · rcases sram_spiTransmitReceive val c with heq | ⟨hpos, hcmd, -, -, hwel, -, heq⟩
    · exact .inl ⟨heq, .inl hlen⟩
    · exact .inr ⟨heq, h.next hd hcmd hpos hwel⟩
  obtain ⟨hwel, hcmd⟩ := h.command hd hlen
  have hpos : c.addrBytes < c.sramPos := by
    by_contra hno
    exact hlen (h.early hd (by omega))
  have hstatus : isStatusCommand c.sramType c.sramCmd c.sramProfile = false :=
    not_isStatusCommand (by rw [hcmd]; decide)
  have hbyte : (c.spiTransmitReceive val).2 = (c.sramWrite val).2.countByte := by
    rw [CartRetail.spiTransmitReceive, if_neg (by rw [hd.1]; decide),
      if_neg (by rw [(hd.idle hs).1]; decide), if_neg (by omega), if_neg (by rw [hcmd]; decide),
      if_neg (by rw [hstatus]; decide)]
  rw [hbyte]
  have htwo (hno : c.sramType = 3) : False := absurd (hd.1.symm.trans hno) (by decide)
  have he := sramWrite_effect val c
  generalize (c.sramWrite val).2 = c' at he ⊢
  cases he with
  | answer => exact .inl ⟨rfl, .inr ⟨rfl, rfl⟩⟩
  | read => exact .inl ⟨rfl, .inr ⟨rfl, rfl⟩⟩
  | start addr first hname hle => omega
  | latch addr hname hlt hpage => exact absurd hd.2 hpage
  | skip => exact .inl ⟨rfl, .inr ⟨rfl, rfl⟩⟩
  | direct => exact .inr ⟨rfl, h.next hd hcmd hpos hwel⟩
  | lockAddress addr hname hle htype => exact (htwo htype).elim
  | lockValue hname htype => exact (htwo htype).elim
  | erase addr hname htype => exact (htwo htype).elim
  | cancelErase hname htype => exact (htwo htype).elim

theorem Unpublished.byte {i : ℕ} (hi : c.Unpublished i) (h : c.Counted) (hs : c.Sound) (val : U8) :
    (c.spiTransmitReceive val).2.Unpublished i := by
  obtain ⟨hd, k, hk, rfl⟩ := hi
  have hchip := chip_spiTransmitReceive val c
  have hlen : (c.spiTransmitReceive val).2.sramLength = c.sramLength :=
    congrArg (fun chip => chip.medium.2.2) hchip
  refine ⟨(direct_of_chip hchip).mpr hd, ?_⟩
  rcases h.byte hs hd val with ⟨-, hzero | ⟨haddr, hsame⟩⟩ | ⟨heq, -⟩
  · omega
  · exact ⟨k, hsame ▸ hk, by rw [haddr, hlen]⟩
  · have hle := Nat.mod_le k c.sramLength
    rw [heq]
    exact ⟨k % c.sramLength, lt_min (by omega) (Nat.mod_lt _ (hd.length hs).2),
      (Nat.add_mod_mod ..).symm⟩

theorem exists_offset {n : ℕ} (hn : 0 < n) (start a : ℕ) : ∃ k < n, (start + k) % n = a % n := by
  refine ⟨(a + (n - start % n)) % n, Nat.mod_lt _ hn, ?_⟩
  have hdiv := Nat.div_add_mod start n
  have hlt := Nat.mod_lt start hn
  calc (start + (a + (n - start % n)) % n) % n
      = (start + (a + (n - start % n))) % n := Nat.add_mod_mod ..
    _ = (a + n * (start / n + 1)) % n := by
        congr 1
        rw [Nat.mul_add, Nat.mul_one]
        omega
    _ = a % n := Nat.add_mul_mod_self_left ..

theorem Counted.changed {i : ℕ} (h : c.Counted) (hs : c.Sound) (hd : c.Direct) {val : U8}
    (hi : (c.spiTransmitReceive val).2.sram i ≠ c.sram i) :
    (c.spiTransmitReceive val).2.Unpublished i := by
  refine ⟨(direct_of_chip (chip_spiTransmitReceive val c)).mpr hd, ?_⟩
  rcases h.byte hs hd val with ⟨hsram, -⟩ | ⟨heq, hnext⟩
  · exact absurd (congrFun hsram i) hi
  rw [heq] at hi ⊢
  have hia : i = c.sramAddr % c.sramLength := by
    by_contra hno
    exact hi (Function.update_of_ne hno _ _)
  have hpos := (hd.length hs).2
  rw [hia]
  rcases hnext with hnext | hfull
  · have hle := Nat.mod_le c.sramSaveLen c.sramLength
    exact ⟨c.sramSaveLen % c.sramLength, lt_min (by omega) (Nat.mod_lt _ hpos),
      Eq.trans hnext (Nat.add_mod_mod ..).symm⟩
  · obtain ⟨k, hk, heq⟩ := exists_offset hpos c.sramSaveAddr c.sramAddr
    exact ⟨k, lt_min (by omega) hk, heq.symm⟩

/-! ## A release -/

theorem calls_publishDirty (c : CartRetail) : c.publishDirty.calls = c.calls ∨
    c.sramLength ≠ 0 ∧ c.publishDirty.calls =
      c.calls ++ [⟨c.sram, c.sramFileLength, c.dirtyRange.1, c.dirtyRange.2⟩] := by
  rw [publishDirty]
  split_ifs with hgo
  · exact .inr ⟨hgo.1, rfl⟩
  · exact .inl rfl

theorem calls_releaseDirty (c : CartRetail) : c.releaseDirty.calls = c.publishDirty.calls := by
  rw [CartRetail.releaseDirty]
  split <;> rfl

theorem calls_spiRelease (c : CartRetail) : c.spiRelease.calls = c.calls ∨
    c.sramLength ≠ 0 ∧ c.spiRelease.calls =
      c.calls ++ [⟨c.sram, c.sramFileLength, c.dirtyRange.1, c.dirtyRange.2⟩] := by
  refine spiRelease_cases c (P := fun d => d.calls = c.calls ∨ c.sramLength ≠ 0 ∧ d.calls =
      c.calls ++ [⟨c.sram, c.sramFileLength, c.dirtyRange.1, c.dirtyRange.2⟩])
    (fun _ => .inl rfl) (.inl rfl) (fun _ _ _ => .inl ?_) (fun _ _ _ _ => .inl ?_)
    (fun _ _ _ _ => .inl ?_) (fun _ _ _ _ => .inl ?_) (fun _ _ _ => .inl ?_) (fun _ _ _ => ?_)
  · rw [CartRetail.releasePower]
    dsimp only
    split_ifs <;> rfl
  · unfold CartRetail.releaseStatus
    dsimp only
    split_ifs <;> rfl
  · unfold CartRetail.releaseLock
    dsimp only
    split_ifs <;> rfl
  · unfold CartRetail.releaseBulkErase
    split <;> rfl
  · unfold CartRetail.releasePage
    dsimp only
    split_ifs <;> rfl
  · rw [calls_releaseDirty]
    exact c.calls_publishDirty

theorem dirtyRange_inside (hs : c.Sound) (hlen : c.sramLength ≠ 0) :
    c.dirtyRange.1 + c.dirtyRange.2 ≤ c.sramLength := by
  have hoffset : (if c.sramType = 1 then c.sramSaveAddr % 512 / 16 * 16
      else c.sramSaveAddr % c.sramLength) ≤ c.sramLength := by
    split_ifs with htype
    · have hmedia := hs.media
      simp only [medium, media, htype, List.mem_cons, Prod.mk.injEq, List.not_mem_nil,
        or_false] at hmedia
      omega
    · exact (Nat.mod_lt _ (Nat.pos_of_ne_zero hlen)).le
  rw [dirtyRange]
  split_ifs at hoffset ⊢ with h1 h2 <;> dsimp only <;> omega

theorem Unpublished.inRange {i : ℕ} (hi : c.Unpublished i) (hs : c.Sound) :
    c.dirtyRange.1 ≤ i ∧ i < c.dirtyRange.1 + c.dirtyRange.2 := by
  obtain ⟨hd, k, hk, rfl⟩ := hi
  have hpos := (hd.length hs).2
  have hlt := Nat.mod_lt c.sramSaveAddr hpos
  have hi := Nat.mod_lt (c.sramSaveAddr + k) hpos
  have hsum : (c.sramSaveAddr + k) % c.sramLength =
      (c.sramSaveAddr % c.sramLength + k) % c.sramLength := (Nat.mod_add_mod ..).symm
  have htype : ¬c.sramType = 1 := by rw [hd.1]; decide
  simp only [dirtyRange, if_neg htype]
  split_ifs with hwraps
  · exact ⟨Nat.zero_le _, by dsimp only; omega⟩
  · rw [hsum] at hi ⊢
    dsimp only
    generalize c.sramSaveAddr % c.sramLength = offset at *
    rcases Nat.lt_or_ge (offset + k) c.sramLength with hfits | hno
    · rw [Nat.mod_eq_of_lt hfits]
      omega
    · have hzero : offset = 0 := by omega
      subst hzero
      omega

theorem Direct.spiRelease (hd : c.Direct) (hs : c.Sound) : c.spiRelease =
    if c.sramPos ≠ 0 ∧ isStatusCommand c.sramType c.sramCmd c.sramProfile then
      c.releaseStatus.endCommand
    else c.releaseDirty := by
  obtain ⟨hblocked, hidle, hpower, hawake, hclosed⟩ := hd.idle hs
  have hflash (p : Prop) : ¬(isFlashProfile c.sramProfile = true ∧ p) := fun hno =>
    Bool.false_ne_true ((hd.not_flash hs).symm.trans hno.1)
  rw [CartRetail.spiRelease, if_neg (by rw [hblocked]; decide),
    if_neg (not_or.mpr ⟨not_not.mpr hidle, not_not.mpr hpower⟩), if_neg (hflash _),
    if_neg (not_not.mpr hawake), if_neg (hflash (c.sramCmd = 0xE5)),
    if_neg (hflash (c.sramCmd = 0xC7)),
    if_neg (by rw [hclosed]; decide : ¬c.pagePending = true)]

theorem sramSaveLen_releaseStatus (c : CartRetail) :
    c.releaseStatus.sramSaveLen = c.sramSaveLen := by
  unfold CartRetail.releaseStatus
  dsimp only
  split_ifs <;> rfl

/-- The latch is clear after a publication, so nothing more is counted. -/
theorem Counted.publishDirty (h : c.Counted) (hs : c.Sound) (hd : c.Direct) :
    c.publishDirty.Counted ∧ c.publishDirty.sramSaveLen = 0 ∧
      (c.sramSaveLen = 0 ∨ c.publishDirty.calls =
        c.calls ++ [⟨c.sram, c.sramFileLength, c.dirtyRange.1, c.dirtyRange.2⟩]) := by
  have hpos := (hd.length hs).2
  rw [CartRetail.publishDirty]
  split_ifs with hgo
  · refine ⟨⟨fun _ _ => rfl, fun _ hne => absurd rfl hne, fun _ _ _ hw => ?_⟩, rfl, .inr rfl⟩
    refine absurd ((getLsbD_clearWel c.sramStatus 1).symm.trans hw) ?_
    rw [bne_self_eq_false, Bool.and_false]
    exact Bool.false_ne_true
  · have hlen : c.sramSaveLen = 0 := by
      by_contra hne
      exact hgo ⟨by omega, (h.command hd hne).1, by omega⟩
    exact ⟨h, hlen, .inl hlen⟩

theorem Counted.release (h : c.Counted) (hs : c.Sound) (hd : c.Direct) : c.spiRelease.Counted ∧
    c.spiRelease.sramSaveLen = 0 ∧ (c.sramSaveLen = 0 ∨ c.spiRelease.calls =
      c.calls ++ [⟨c.sram, c.sramFileLength, c.dirtyRange.1, c.dirtyRange.2⟩]) := by
  rw [hd.spiRelease hs]
  split_ifs with hstatus
  · have hlen := (hs.statusCmd hstatus.2).1
    have hlen' := (sramSaveLen_releaseStatus c).trans hlen
    exact ⟨.empty hlen' (Nat.zero_le _), hlen', .inl hlen⟩
  · obtain ⟨hcount, hlen, hcalls⟩ := h.publishDirty hs hd
    rw [CartRetail.releaseDirty]
    split_ifs
    · refine ⟨⟨fun _ _ => hlen, fun _ hne => absurd hlen hne, fun _ _ _ hw => ?_⟩, hlen, hcalls⟩
      refine absurd ((getLsbD_clearWel c.publishDirty.sramStatus 1).symm.trans hw) ?_
      rw [bne_self_eq_false, Bool.and_false]
      exact Bool.false_ne_true
    · exact ⟨hcount, hlen, hcalls⟩

/-! ## A completion -/

theorem writtenRange_inside (hw : c.Writing) (hcmd : c.writeCommand ≠ 0x01) :
    c.writtenRange.1 + c.writtenRange.2 ≤ c.sramLength := by
  rcases hw.kind with hstatus | hpage | herase
  · exact absurd hstatus.1 hcmd
  · obtain ⟨hname, -, hfits, hfirst, -, hle⟩ := hpage
    rw [writtenRange, if_neg (not_not.mpr (eraseSize_of_program (eq_of_isPageCommand hname)))]
    split_ifs with hshort <;> dsimp only <;> omega
  · obtain ⟨hsize, -, hfits, -⟩ := herase
    have hno : ¬(c.writeCommand = 0x02 ∨ c.writeCommand = 0x0A) := fun hprogram =>
      hsize (eraseSize_of_program hprogram)
    rw [writtenRange, if_pos hsize, if_neg (fun h => hno h.1)]
    exact hfits

theorem Direct.completeSave (hd : c.Direct) (hs : c.Sound) : c.completeSave = c := by
  obtain ⟨-, hidle, hpower, -⟩ := hd.idle hs
  rw [CartRetail.completeSave, if_neg (not_not.mpr hpower), if_pos hidle]

/-! ## Bytes while the chip writes -/

/-- While the chip writes, the transaction under way has no command, or reads the status. -/
def Quiet (c : CartRetail) : Prop :=
  c.writeDelay ≠ 0 → c.sramPos = 0 ∨ c.sramCmd = 0 ∨ c.sramCmd = 0x05

theorem Quiet.not_appends (h : c.Quiet) : ¬c.Appends := by
  rintro ⟨hd, hpos, hpage⟩
  rcases h hd with h0 | hc | hc
  · exact hpos h0
  · rcases eq_of_isPageCommand hpage with hp | hp <;> exact absurd (hc.symm.trans hp) (by decide)
  · rcases eq_of_isPageCommand hpage with hp | hp <;> exact absurd (hc.symm.trans hp) (by decide)

theorem Quiet.spiTransmitReceive (h : c.Quiet) (hs : c.Sound) (val : U8) :
    (c.spiTransmitReceive val).2.Quiet := by
  intro hd
  have hd' : c.writeDelay ≠ 0 := fun h0 =>
    hd ((congrArg Chip.writeDelay (chip_spiTransmitReceive val c)).trans h0)
  have hw := hs.writing hd'
  by_cases hpos : c.sramPos = 0
  · rw [CartRetail.spiTransmitReceive]
    by_cases h0 : c.sramType = 0
    · rw [if_pos h0]
      exact .inl hpos
    rw [if_neg h0, if_neg (by rw [hw.blocked]; decide), if_pos hpos,
      if_neg (fun hno => hno.1 hw.awake)]
    obtain ⟨start, len, heq, -⟩ := startCommand_eq val c
    rw [heq]
    right
    change (if c.writeDelay ≠ 0 ∧ val ≠ 0x05 then 0 else val) = 0 ∨
      (if c.writeDelay ≠ 0 ∧ val ≠ 0x05 then 0 else val) = 0x05
    by_cases hval : val = 0x05
    · exact .inr (by rw [if_neg (fun hno => hno.2 hval), hval])
    · exact .inl (if_pos ⟨hd', hval⟩)
  · have hcmd := (h hd').resolve_left hpos
    rcases spiTransmitReceive_ignored hpos hcmd val with heq | heq <;> rw [heq]
    · exact .inr hcmd
    · exact .inr hcmd

end CartRetail

/-! ## Runs -/

inductive TransferStep
  | byte (val : U8)
  | complete
  | setSaveMemory (savedata : List U8)

/-- A transaction runs to its release, or is cut short by a reset. -/
inductive SaveEvent
  | transaction (steps : List TransferStep)
  | cut (steps : List TransferStep)
  | complete
  | setSaveMemory (savedata : List U8)
  | reset

def TransferStep.op : TransferStep → CartOp
  | .byte val => .spiTransmitReceive val
  | .complete => .completeSave
  | .setSaveMemory savedata => .setSaveMemory savedata

def SaveEvent.ops : SaveEvent → List CartOp
  | .transaction steps => .spiSelect :: (steps.map TransferStep.op ++ [.spiRelease])
  | .cut steps => .spiSelect :: (steps.map TransferStep.op ++ [.reset])
  | .complete => [.completeSave]
  | .setSaveMemory savedata => [.setSaveMemory savedata]
  | .reset => [.reset]

structure Session where
  cart : CartRetail
  selected : Bool

namespace Session

def start (cart : CartRetail) : Session := ⟨cart, false⟩

def selectedAfter (selected : Bool) : CartOp → Bool
  | .spiSelect => true
  | .spiRelease => false
  | .reset => false
  | _ => selected

def step (s : Session) (op : CartOp) : Session := ⟨op.apply s.cart, selectedAfter s.selected op⟩

def Framed (s : Session) : CartOp → Prop
  | .spiSelect => s.selected = false
  | .spiTransmitReceive _ => s.selected = true
  | .spiRelease => s.selected = true
  | .cancelSave _ => False
  | _ => True

/-- The step forgets a byte that the save file has not been told of. -/
def Discards (s : Session) : CartOp → Prop
  | .reset => ∃ i, s.cart.Unpublished i
  | .setSaveMemory savedata => ∃ i, s.cart.Unpublished i ∧ savedata.length ≤ i
  | _ => False

theorem framed_steps (steps : List TransferStep) (last : CartOp)
    (hlast : ∀ s : Session, s.selected = true → s.Framed last) {s : Session}
    (hs : s.selected = true) :
    ∀ p ∈ trace step s (steps.map TransferStep.op ++ [last]), p.1.Framed p.2 := by
  induction steps generalizing s with
  | nil =>
    intro p hp
    rw [List.mem_singleton.mp hp]
    exact hlast s hs
  | cons first steps ih =>
    refine List.forall_mem_cons.mpr ⟨?_, ih ?_⟩
    · cases first with
      | byte val => exact hs
      | complete => exact True.intro
      | setSaveMemory savedata => exact True.intro
    · cases first with
      | byte val => exact hs
      | complete => exact hs
      | setSaveMemory savedata => exact hs

theorem selected_ops (event : SaveEvent) {s : Session} (hs : s.selected = false) :
    (event.ops.foldl step s).selected = false := by
  cases event with
  | transaction steps =>
    rw [SaveEvent.ops, List.foldl_cons, List.foldl_append]
    rfl
  | cut steps =>
    rw [SaveEvent.ops, List.foldl_cons, List.foldl_append]
    rfl
  | complete => exact hs
  | setSaveMemory savedata => exact hs
  | reset => rfl

theorem framed_events (events : List SaveEvent) {s : Session} (hs : s.selected = false) :
    ∀ p ∈ trace step s (events.flatMap SaveEvent.ops), p.1.Framed p.2 := by
  induction events generalizing s with
  | nil => exact fun _ hp => absurd hp List.not_mem_nil
  | cons event events ih =>
    rw [List.flatMap_cons, trace_append]
    refine List.forall_mem_append.mpr ⟨?_, ih (selected_ops event hs)⟩
    have hone (op : CartOp) (hop : s.Framed op) : ∀ p ∈ trace step s [op], p.1.Framed p.2 := by
      intro p hp
      rw [List.mem_singleton.mp hp]
      exact hop
    cases event with
    | transaction steps =>
      exact List.forall_mem_cons.mpr ⟨hs, framed_steps steps .spiRelease (fun _ h => h) rfl⟩
    | cut steps =>
      exact List.forall_mem_cons.mpr ⟨hs, framed_steps steps .reset (fun _ _ => True.intro) rfl⟩
    | complete => exact hone _ True.intro
    | setSaveMemory savedata => exact hone _ True.intro
    | reset => exact hone _ True.intro

/-! ## What every run keeps -/

structure Kept (s : Session) : Prop where
  sound : s.cart.Sound
  quiet : s.selected → s.cart.Quiet
  counted : s.cart.Counted
  closed : s.selected = false → s.cart.Direct → s.cart.sramSaveLen = 0
  file : s.cart.sramLength ≤ s.cart.sramFileLength
  inside : ∀ call ∈ s.cart.calls, call.savelen = s.cart.sramFileLength ∧ call.Inside

/-- The copy lacks at most the bytes that are still to be published. -/
def Mirrored (file : ℕ → U8) (s : Session) : Prop :=
  ∀ i, s.cart.image file i ≠ s.cart.sram i → s.cart.Unpublished i

theorem kept_start (resetState : Bool) (t : ℕ) (sram : Option (List U8)) :
    Kept (start (.build resetState t sram)) where
  sound := CartRetail.sound_build resetState t sram
  quiet h := absurd h Bool.false_ne_true
  counted := .empty rfl (Nat.zero_le _)
  closed _ _ := rfl
  file := Nat.le_max_left _ _
  inside _ h := absurd h List.not_mem_nil

section Steps

variable {s : Session} {file : ℕ → U8}

theorem inside_append {fileLength offset length : ℕ} {sram : ℕ → U8} {calls : List SaveCall}
    (h : ∀ call ∈ calls, call.savelen = fileLength ∧ call.Inside)
    (hle : offset + length ≤ fileLength) :
    ∀ call ∈ calls ++ [⟨sram, fileLength, offset, length⟩],
      call.savelen = fileLength ∧ call.Inside :=
  List.forall_mem_append.mpr ⟨h, List.forall_mem_singleton.mpr ⟨rfl, hle⟩⟩

theorem image_append {c c' : CartRetail} {call : SaveCall} (h : c'.calls = c.calls ++ [call])
    (i : ℕ) : c'.image file i = if call.writeoffset ≤ i ∧ i < call.writeoffset + call.writelen then
      call.savedata i else c.image file i := by
  rw [CartRetail.image, h, List.foldl_append]
  rfl

theorem Kept.select (h : Kept s) (hf : s.selected = false) : Kept (s.step .spiSelect) := by
  have hcount : s.cart.spiSelect.Counted := by
    by_cases hd : s.cart.Direct
    · refine .empty ?_ (Nat.zero_le _)
      exact Nat.le_zero.mp (h.closed hf hd ▸ CartRetail.sramSaveLen_spiSelect_le s.cart)
    · exact .indirect hd
  exact
    { sound := h.sound.spiSelect
      quiet := fun _ _ => .inl rfl
      counted := hcount
      closed := fun hno => absurd hno.symm Bool.false_ne_true
      file := h.file
      inside := h.inside }

theorem Kept.byte (h : Kept s) (hf : s.selected = true) (val : U8) :
    Kept (s.step (.spiTransmitReceive val)) := by
  have hchip := CartRetail.chip_spiTransmitReceive val s.cart
  have hquiet := h.quiet hf
  have hfile : (s.cart.spiTransmitReceive val).2.sramFileLength = s.cart.sramFileLength :=
    congrArg Chip.fileLength hchip
  have hlength : (s.cart.spiTransmitReceive val).2.sramLength = s.cart.sramLength :=
    congrArg (fun chip => chip.medium.2.2) hchip
  have hcalls : (s.cart.spiTransmitReceive val).2.calls = s.cart.calls :=
    congrArg Chip.calls hchip
  exact
    { sound := h.sound.spiTransmitReceive val hquiet.not_appends
      quiet := fun _ => hquiet.spiTransmitReceive h.sound val
      counted := h.counted.spiTransmitReceive h.sound val
      closed := fun hno => absurd (hf.symm.trans hno) (Ne.symm Bool.false_ne_true)
      file := hlength.trans_le (h.file.trans_eq hfile.symm)
      inside := fun call hcall => by
        have hcall' := h.inside call (hcalls ▸ hcall)
        exact ⟨hcall'.1.trans hfile.symm, hcall'.2⟩ }

theorem Kept.release (h : Kept s) : Kept (s.step .spiRelease) := by
  obtain ⟨-, hmedium, hfile⟩ := s.cart.spiRelease_keeps
  have hlength : s.cart.spiRelease.sramLength = s.cart.sramLength :=
    congrArg (fun medium : ℕ × ℕ × ℕ => medium.2.2) hmedium
  have hback (hd : s.cart.spiRelease.Direct) : s.cart.Direct :=
    (CartRetail.direct_of_medium hmedium).mp hd
  refine
    { sound := h.sound.spiRelease
      quiet := fun hno => absurd hno Bool.false_ne_true
      counted := ?_
      closed := fun _ hd => (h.counted.release h.sound (hback hd)).2.1
      file := hlength.trans_le (h.file.trans_eq hfile.symm)
      inside := ?_ }
  · by_cases hd : s.cart.Direct
    · exact (h.counted.release h.sound hd).1
    · exact .indirect (mt hback hd)
  · change ∀ call ∈ s.cart.spiRelease.calls, call.savelen = s.cart.spiRelease.sramFileLength ∧ _
    rw [hfile]
    rcases s.cart.calls_spiRelease with heq | ⟨hlen, heq⟩ <;> rw [heq]
    · exact h.inside
    · exact inside_append h.inside ((CartRetail.dirtyRange_inside h.sound hlen).trans h.file)

theorem Kept.complete (h : Kept s) : Kept (s.step .completeSave) := by
  obtain ⟨hmedium, hfile⟩ := s.cart.completeSave_keeps
  have hlength : s.cart.completeSave.sramLength = s.cart.sramLength :=
    congrArg (fun medium : ℕ × ℕ × ℕ => medium.2.2) hmedium
  have hback (hd : s.cart.completeSave.Direct) : s.cart.Direct :=
    (CartRetail.direct_of_medium hmedium).mp hd
  refine
    { sound := h.sound.completeSave
      quiet := fun _ hd => absurd h.sound.writeDelay_completeSave hd
      counted := ?_
      closed := fun hsel hd => ?_
      file := hlength.trans_le (h.file.trans_eq hfile.symm)
      inside := ?_ }
  · by_cases hd : s.cart.Direct
    · change s.cart.completeSave.Counted
      rw [hd.completeSave h.sound]
      exact h.counted
    · exact .indirect (mt hback hd)
  · exact (congrArg CartRetail.sramSaveLen ((hback hd).completeSave h.sound)).trans
      (h.closed hsel (hback hd))
  · change ∀ call ∈ s.cart.completeSave.calls,
      call.savelen = s.cart.completeSave.sramFileLength ∧ _
    rw [hfile]
    rcases s.cart.completeSave_cases with ⟨-, heq⟩ | ⟨hd, hcmd, -, heq⟩ <;> rw [heq]
    · exact h.inside
    · exact inside_append h.inside
        ((CartRetail.writtenRange_inside (h.sound.writing hd) hcmd).trans h.file)

theorem Kept.setSaveMemory (h : Kept s) (savedata : List U8) :
    Kept (s.step (.setSaveMemory savedata)) := by
  have hsound := h.sound.setSaveMemory savedata
  rw [step, CartOp.apply]
  rw [CartRetail.setSaveMemory] at hsound ⊢
  by_cases hfile : (s.cart.cancelSave false).sramFileLength = 0
  · rw [if_pos hfile] at hsound ⊢
    exact
      { sound := hsound
        quiet := fun _ hd => absurd rfl hd
        counted := .empty rfl (Nat.zero_le _)
        closed := fun _ _ => rfl
        file := h.file
        inside := h.inside }
  · rw [if_neg hfile] at hsound ⊢
    exact
      { sound := hsound
        quiet := fun _ hd => absurd rfl hd
        counted := .empty rfl (Nat.zero_le _)
        closed := fun _ _ => rfl
        file := h.file
        inside := inside_append h.inside
          ((Nat.zero_add _).trans_le (Nat.min_le_right savedata.length s.cart.sramFileLength)) }

theorem Kept.reset (h : Kept s) : Kept (s.step .reset) where
  sound := h.sound.reset
  quiet hno := absurd hno Bool.false_ne_true
  counted := .empty rfl (Nat.zero_le _)
  closed _ _ := rfl
  file := h.file
  inside := h.inside

theorem Kept.step (h : Kept s) {op : CartOp} (hf : s.Framed op) : Kept (s.step op) := by
  cases op with
  | spiSelect => exact h.select hf
  | spiTransmitReceive val => exact h.byte hf val
  | spiRelease => exact h.release
  | completeSave => exact h.complete
  | cancelSave powerOff => exact hf.elim
  | setSaveMemory savedata => exact h.setSaveMemory savedata
  | reset => exact h.reset

/-! ## The copy -/

theorem Mirrored.exact (h : Mirrored file s) (hno : ∀ i, ¬s.cart.Unpublished i) (i : ℕ) :
    s.cart.image file i = s.cart.sram i :=
  by_contra fun hne => hno i (h i hne)

theorem unpublished_empty {c : CartRetail} (hlen : c.Direct → c.sramSaveLen = 0) (i : ℕ) :
    ¬c.Unpublished i := by
  rintro ⟨hd, k, hk, -⟩
  rw [hlen hd] at hk
  exact absurd hk (Nat.not_lt_zero _)

theorem Mirrored.select (h : Mirrored file s) (hk : Kept s) (hf : s.selected = false) :
    Mirrored file (s.step .spiSelect) := fun i hne =>
  absurd (h i hne) (unpublished_empty (hk.closed hf) i)

theorem Mirrored.byte (h : Mirrored file s) (hk : Kept s) (val : U8) :
    Mirrored file (s.step (.spiTransmitReceive val)) := by
  intro i hne
  have hcalls : (s.cart.spiTransmitReceive val).2.calls = s.cart.calls :=
    congrArg Chip.calls (CartRetail.chip_spiTransmitReceive val s.cart)
  have hne' : s.cart.image file i ≠ (s.cart.spiTransmitReceive val).2.sram i := by
    rw [CartRetail.image, ← hcalls]
    exact hne
  by_cases hsame : (s.cart.spiTransmitReceive val).2.sram i = s.cart.sram i
  · exact (h i (hsame ▸ hne')).byte hk.counted hk.sound val
  · have hd : s.cart.Direct := by
      rcases CartRetail.sram_spiTransmitReceive val s.cart with heq | ⟨-, -, htype, hpage, -⟩
      · exact absurd (congrFun heq i) hsame
      · exact ⟨htype, hpage⟩
    exact hk.counted.changed hk.sound hd hsame

theorem Mirrored.release (h : Mirrored file s) (hk : Kept s) :
    Mirrored file (s.step .spiRelease) := by
  intro i hne
  refine absurd ?_ hne
  have hsram : s.cart.spiRelease.sram i = s.cart.sram i :=
    congrFun (s.cart.spiRelease_keeps).1 i
  change s.cart.spiRelease.image file i = s.cart.spiRelease.sram i
  rw [hsram]
  by_cases hi : s.cart.Unpublished i
  · have hcalls := (hk.counted.release hk.sound hi.1).2.2.resolve_left fun hzero =>
      unpublished_empty (fun _ => hzero) i hi
    rw [image_append hcalls, if_pos (hi.inRange hk.sound)]
  · have heq : s.cart.image file i = s.cart.sram i := by_contra fun hno => hi (h i hno)
    rcases s.cart.calls_spiRelease with hcalls | ⟨-, hcalls⟩
    · rw [CartRetail.image, hcalls]
      exact heq
    · rw [image_append hcalls, heq]
      exact ite_self _

theorem Mirrored.complete (h : Mirrored file s) (hk : Kept s) :
    Mirrored file (s.step .completeSave) := by
  by_cases hd : s.cart.Direct
  · rw [step, CartOp.apply, hd.completeSave hk.sound]
    exact h
  have heq := h.exact (fun i hi => hd hi.1)
  intro i hne
  refine absurd ?_ hne
  change s.cart.completeSave.image file i = s.cart.completeSave.sram i
  rcases s.cart.completeSave_cases with ⟨hsram, hcalls⟩ | ⟨hdelay, hcmd, hsram, hcalls⟩
  · rw [CartRetail.image, hcalls, hsram]
    exact heq i
  · rw [image_append hcalls, hsram, heq i]
    split_ifs with hrange
    · rfl
    · exact (CartRetail.written_of_not_range (hk.sound.writing hdelay).latch hrange).symm

theorem Mirrored.setSaveMemory (h : Mirrored file s) (hk : Kept s) {savedata : List U8}
    (hno : ¬s.Discards (.setSaveMemory savedata)) :
    Mirrored file (s.step (.setSaveMemory savedata)) := by
  have hlost (i : ℕ) (hi : min savedata.length s.cart.sramFileLength ≤ i) :
      s.cart.image file i = s.cart.sram i := by
    by_contra hne
    obtain ⟨hd, k, hk', rfl⟩ := h i hne
    have hlt := Nat.mod_lt (s.cart.sramSaveAddr + k) (hd.length hk.sound).2
    have hfile := hk.file
    exact hno ⟨_, h _ hne, by omega⟩
  intro i hne
  refine absurd ?_ hne
  change (s.cart.setSaveMemory savedata).image file i = (s.cart.setSaveMemory savedata).sram i
  rw [CartRetail.setSaveMemory]
  by_cases hfile : (s.cart.cancelSave false).sramFileLength = 0
  · rw [if_pos hfile]
    exact hlost i (by change s.cart.sramFileLength = 0 at hfile; omega)
  · rw [if_neg hfile, image_append rfl]
    change (if 0 ≤ i ∧ i < 0 + min savedata.length s.cart.sramFileLength then
        (if i < min savedata.length s.cart.sramFileLength then savedata.getD i 0 else s.cart.sram i)
      else s.cart.image file i) = if i < min savedata.length s.cart.sramFileLength then
        savedata.getD i 0 else s.cart.sram i
    by_cases hi : i < min savedata.length s.cart.sramFileLength
    · rw [if_pos ⟨Nat.zero_le i, by omega⟩]
    · rw [if_neg (by omega), if_neg hi]
      exact hlost i (by omega)

theorem Mirrored.step (h : Mirrored file s) (hk : Kept s) {op : CartOp} (hf : s.Framed op)
    (hno : ¬s.Discards op) : Mirrored file (s.step op) := by
  cases op with
  | spiSelect => exact h.select hk hf
  | spiTransmitReceive val => exact h.byte hk val
  | spiRelease => exact h.release hk
  | completeSave => exact h.complete hk
  | cancelSave powerOff => exact hf.elim
  | setSaveMemory savedata => exact h.setSaveMemory hk hno
  | reset => exact fun i hne => absurd ⟨i, h i hne⟩ hno

end Steps

end Session

/-- The session after calls on a new cart. -/
def Session.after (resetState : Bool) (saveMemType : ℕ) (sram : Option (List U8))
    (ops : List CartOp) : Session :=
  ops.foldl step (.start (.build resetState saveMemType sram))

/-- The calls stay inside the save file, and between transactions the copy they build is
exact unless a reset or an import came between a byte and its publication. -/
theorem save_notifications (resetState : Bool) (saveMemType : ℕ) (sram : Option (List U8))
    (events : List SaveEvent) (ops : List CartOp) (hops : ops <+: events.flatMap SaveEvent.ops) :
    let s := Session.after resetState saveMemType sram ops
    (∀ call ∈ s.cart.calls, call.savelen = s.cart.sramFileLength ∧ call.Inside) ∧
      ((∀ p ∈ trace Session.step (.start (.build resetState saveMemType sram)) ops,
          ¬p.1.Discards p.2) →
        s.selected = false → s.cart.writeDelay = 0 →
        s.cart.image (CartRetail.build resetState saveMemType sram).sram = s.cart.sram) := by
  have hframed : ∀ p ∈ trace Session.step (.start (.build resetState saveMemType sram)) ops,
      p.1.Framed p.2 := fun p hp => Session.framed_events events rfl p (mem_trace_of_initial hops hp)
  have hkept : (Session.after resetState saveMemType sram ops).Kept :=
    foldl_invariant (C := Session.Framed) (fun s op hk hf => hk.step hf)
      (Session.kept_start resetState saveMemType sram) hframed
  refine ⟨hkept.inside, fun hno hsel _ => ?_⟩
  have hmirror := foldl_invariant
    (P := fun s => Session.Kept s ∧
      Session.Mirrored (CartRetail.build resetState saveMemType sram).sram s)
    (C := fun s op => s.Framed op ∧ ¬s.Discards op)
    (fun s op h hf => ⟨h.1.step hf.1, h.2.step h.1 hf.1 hf.2⟩)
    ⟨Session.kept_start resetState saveMemType sram, fun i hne => absurd rfl hne⟩
    fun p hp => ⟨hframed p hp, hno p hp⟩
  exact funext (hmirror.2.exact (Session.unpublished_empty (hkept.closed hsel)))

/-- One byte to the start of an 8 KiB part, released. -/
def oneByte : List SaveEvent :=
  [.transaction [.byte 0x06], .transaction [.byte 0x02, .byte 0, .byte 0, .byte 0x55]]

theorem save_notifications_oneByte :
    ((oneByte.flatMap SaveEvent.ops) <+: oneByte.flatMap SaveEvent.ops ∧
      ∀ p ∈ trace Session.step (.start (.build false 2 none)) (oneByte.flatMap SaveEvent.ops),
        ¬p.1.Discards p.2) ∧
      (Session.after false 2 none (oneByte.flatMap SaveEvent.ops)).cart.image
          (CartRetail.build false 2 none).sram =
        (Session.after false 2 none (oneByte.flatMap SaveEvent.ops)).cart.sram := by
  have hno : ∀ p ∈ trace Session.step (.start (.build false 2 none))
      (oneByte.flatMap SaveEvent.ops), ¬p.1.Discards p.2 := by
    rintro ⟨s, op⟩ hp hd
    have hop : op ∈ [CartOp.spiSelect, .spiTransmitReceive 0x06, .spiRelease, .spiSelect,
      .spiTransmitReceive 0x02, .spiTransmitReceive 0, .spiTransmitReceive 0,
      .spiTransmitReceive 0x55, .spiRelease] := mem_of_mem_trace hp
    simp only [List.mem_cons, List.not_mem_nil, or_false] at hop
    rcases hop with rfl | rfl | rfl | rfl | rfl | rfl | rfl | rfl | rfl <;> exact hd
  exact ⟨⟨List.prefix_refl _, hno⟩, (save_notifications false 2 none oneByte _
    (List.prefix_refl _)).2 hno rfl rfl⟩

/-- The same byte, with a reset before the release. -/
def cutByte : List SaveEvent :=
  [.transaction [.byte 0x06], .cut [.byte 0x02, .byte 0, .byte 0, .byte 0x55]]

/-- The array has the byte and the save file will never have it. -/
theorem save_notification_lost :
    (Session.after false 2 none (cutByte.flatMap SaveEvent.ops)).selected = false ∧
      (Session.after false 2 none (cutByte.flatMap SaveEvent.ops)).cart.writeDelay = 0 ∧
      (Session.after false 2 none (cutByte.flatMap SaveEvent.ops)).cart.image
          (CartRetail.build false 2 none).sram ≠
        (Session.after false 2 none (cutByte.flatMap SaveEvent.ops)).cart.sram := by
  refine ⟨by decide, by decide, fun heq => ?_⟩
  exact absurd (congrFun heq 0) (by decide)

end MelonDS.NDSCart

import Mathlib.Tactic.SplitIfs
import MelonDS.NDSCart.CartRetail

/-!
# What one byte of a command does

The three chips answer a byte in one of a few ways, whatever the command. `ByteEffect`
lists them with what the byte needed to have that effect; nothing outside the fields it
names is touched.
-/

namespace MelonDS.NDSCart

def addressBytes (protocol length : ℕ) : ℕ :=
  if protocol = 1 then 1 else if protocol = 3 ∨ length > 65536 then 3 else 2

/-- Commands whose data bytes go to a page of the array, or to the array itself. -/
def isPageCommand (protocol : ℕ) (command : U8) : Bool :=
  command == 0x02 || ((protocol == 1 || protocol == 3) && command == 0x0A)

/-- Erase commands that carry an address. -/
def isErase (command : U8) : Bool := command == 0x20 || command == 0xD8 || command == 0xDB

theorem flashEraseSize_page (length profile : ℕ) : flashEraseSize 0xDB length profile = 256 := rfl

theorem flashEraseSize_sector (length profile : ℕ) :
    flashEraseSize 0xD8 length profile = 65536 := rfl

theorem flashEraseSize_subsector {profile : ℕ} (length : ℕ) (h : isFlashProfile profile) :
    flashEraseSize 0x20 length profile = 4096 := by
  rw [flashEraseSize, h]
  rfl

theorem flashEraseSize_bulk {profile : ℕ} (length : ℕ) (h : isFlashProfile profile) :
    flashEraseSize 0xC7 length profile = length := by
  rw [flashEraseSize, h]
  rfl

namespace CartRetail

def addrBytes (c : CartRetail) : ℕ := addressBytes c.sramType c.sramLength

/-- The page latch after a data byte. -/
def latched (val : U8) (c : CartRetail) : CartRetail :=
  (if c.sramType = 1 then c.openTinyPage else c.openPage).latchByte c.pageSize val

inductive ByteEffect (val : U8) (c : CartRetail) : CartRetail → Prop
  /-- An answer, or nothing. -/
  | answer (hpage : c.sramType = 2 → isPageCommand c.sramType c.sramCmd → c.addrBytes < c.sramPos)
      (herase : isErase c.sramCmd → c.eraseSize c.sramCmd = 0) : ByteEffect val c c
  /-- An address byte of a read, or a byte read. -/
  | read (addr : ℕ) (hcmd : c.sramCmd = 0x03 ∨ c.sramCmd = 0x0B) (hlt : addr < 2 ^ 32)
      (haddr : c.sramPos ≤ c.addrBytes → c.sramPos ≠ 0 →
        c.sramAddr < 256 ^ (c.sramPos - 1) → addr < 256 ^ c.sramPos) :
      ByteEffect val c { c with sramAddr := addr }
  /-- An address byte of a program or an erase. -/
  | start (addr first : ℕ) (hcmd : isPageCommand c.sramType c.sramCmd ∨ isErase c.sramCmd)
      (hpos : c.sramPos ≤ c.addrBytes) (htiny : c.sramType ≠ 1 → first = addr)
      (haddr : c.sramPos ≠ 0 → c.sramAddr < 256 ^ (c.sramPos - 1) → addr < 256 ^ c.sramPos)
      (hfirst : c.sramType = 1 → first < 512) :
      ByteEffect val c { c with sramAddr := addr, sramSaveAddr := first, sramSaveLen := 0 }
  /-- A data byte for the page latch. -/
  | latch (addr : ℕ) (hcmd : isPageCommand c.sramType c.sramCmd) (hpos : c.addrBytes < c.sramPos)
      (hpage : c.pageSize ≠ 0) (hwel : c.wel)
      (hfree : c.isWriteProtected (if c.sramType = 2 then c.sramAddr else c.sramSaveAddr) = false)
      (hsame : c.sramType ≠ 1 → addr / c.pageSize = c.sramAddr / c.pageSize)
      (hlt : c.sramType = 1 → addr < 2 ^ 32) :
      ByteEffect val c { c.latched val with sramAddr := addr }
  /-- A data byte the page latch does not take. -/
  | skip (addr : ℕ) (hcmd : isPageCommand c.sramType c.sramCmd) (hpos : c.addrBytes < c.sramPos)
      (hsame : c.sramType ≠ 1 → c.pageSize ≠ 0 → addr / c.pageSize = c.sramAddr / c.pageSize)
      (hwel : c.sramType = 2 → c.wel = false)
      (hlt : c.sramType = 1 ∨ c.pageSize = 0 → addr < 2 ^ 32) :
      ByteEffect val c { c with sramAddr := addr }
  /-- A data byte for an array without a page latch. -/
  | direct (hcmd : c.sramCmd = 0x02) (htype : c.sramType = 2) (hpos : c.addrBytes < c.sramPos)
      (hpage : c.pageSize = 0) (hwel : c.wel) (hfree : c.isWriteProtected c.sramAddr = false) :
      ByteEffect val c (c.writeDirect val).nextAddress
  /-- An address byte of a lock command. -/
  | lockAddress (addr : ℕ) (hcmd : c.sramCmd = 0xE5 ∨ c.sramCmd = 0xE8) (hpos : c.sramPos ≤ 3)
      (htype : c.sramType = 3)
      (haddr : c.sramPos ≠ 0 → c.sramAddr < 256 ^ (c.sramPos - 1) → addr < 256 ^ c.sramPos) :
      ByteEffect val c { c with sramAddr := addr, sramSaveLen := 0 }
  | lockValue (hcmd : c.sramCmd = 0xE5) (htype : c.sramType = 3) (hpos : c.sramPos = 4) :
      ByteEffect val c { c with sramSaveLen := val.toNat }
  /-- The last address byte of an erase. -/
  | erase (addr : ℕ) (hcmd : isErase c.sramCmd) (htype : c.sramType = 3) (hpos : c.sramPos = 3)
      (hwel : c.wel) (hfree : c.isWriteProtected addr = false)
      (hsize : c.eraseSize c.sramCmd ≠ 0)
      (haddr : c.sramAddr < 256 ^ 2 → addr < 256 ^ 3) :
      ByteEffect val c
        { c with
          sramAddr := addr
          sramSaveAddr := addr
          pagePending := true
          pageBuffer := fun _ => 0xFF
          sramSaveLen := c.eraseSize c.sramCmd }
  /-- A byte too many for an erase. -/
  | cancelErase (hcmd : isErase c.sramCmd) (htype : c.sramType = 3) :
      ByteEffect val c { c with pagePending := false, sramSaveLen := 0 }

variable {val : U8} {c : CartRetail}

theorem eq_of_isPageCommand {protocol : ℕ} {command : U8} (h : isPageCommand protocol command) :
    command = 0x02 ∨ command = 0x0A := by
  rw [isPageCommand, Bool.or_eq_true, Bool.and_eq_true, beq_iff_eq, beq_iff_eq] at h
  exact h.imp_right And.right

theorem eq_of_isErase {command : U8} (h : isErase command) :
    command = 0x20 ∨ command = 0xD8 ∨ command = 0xDB := by
  rw [isErase, Bool.or_eq_true, Bool.or_eq_true, beq_iff_eq, beq_iff_eq, beq_iff_eq, or_assoc] at h
  exact h

theorem eraseSize_of_ne_three (h : c.sramType ≠ 3) (command : U8) : c.eraseSize command = 0 :=
  if_neg h

/-- A command that is neither a program nor an erase. -/
theorem ByteEffect.other (hpage : c.sramCmd ≠ 0x02 ∧ c.sramCmd ≠ 0x0A)
    (herase : isErase c.sramCmd → c.eraseSize c.sramCmd = 0) : ByteEffect val c c :=
  .answer (fun _ h => absurd (eq_of_isPageCommand h) (not_or.mpr hpage)) herase

theorem ByteEffect.named {command : U8} (hcmd : c.sramCmd = command)
    (hpage : command ≠ 0x02 ∧ command ≠ 0x0A) (herase : isErase command = false) :
    ByteEffect val c c :=
  .other (hcmd ▸ hpage) fun h => absurd ((hcmd ▸ herase).symm.trans h) Bool.false_ne_true

theorem ByteEffect.ite {p : Prop} [Decidable p] {x y : U8 × CartRetail}
    (hx : p → ByteEffect val c x.2) (hy : ¬p → ByteEffect val c y.2) :
    ByteEffect val c (if p then x else y).2 := by
  by_cases h : p
  · rw [if_pos h]
    exact hx h
  · rw [if_neg h]
    exact hy h

theorem shift_lt {a n : ℕ} (v : U8) (hn : n ≠ 0) (h : a < 256 ^ (n - 1)) :
    (a * 256 + v.toNat) % 2 ^ 32 < 256 ^ n := by
  obtain ⟨n, rfl⟩ := Nat.exists_eq_succ_of_ne_zero hn
  have hv : v.toNat < 256 := v.isLt
  have hpow : 256 ^ (n + 1) = 256 ^ n * 256 := Nat.pow_succ ..
  rw [Nat.succ_eq_add_one, Nat.add_sub_cancel] at h
  rw [Nat.succ_eq_add_one, hpow]
  exact (Nat.mod_le _ _).trans_lt (by omega)

theorem sramAddr_shiftAddress_lt (hn : c.sramPos ≠ 0) (h : c.sramAddr < 256 ^ (c.sramPos - 1)) :
    (c.shiftAddress val).sramAddr < 256 ^ c.sramPos :=
  shift_lt val hn h

theorem addrBytes_eq_addrSize (h : c.sramType = 2) : c.addrBytes = c.addrSize := by
  rw [addrBytes, addressBytes, addrSize, h, if_neg (by decide)]
  simp only [show ¬(2 : ℕ) = 3 by decide, false_or]

theorem pageSize_of_two (h : c.sramType = 2) : c.pageSize = eepromPageSize c.sramProfile := by
  rw [pageSize, if_neg (by omega), if_neg (by omega)]

theorem div_nextInPage (a : ℕ) {n : ℕ} (hn : 0 < n) : (a / n * n + (a + 1) % n) / n = a / n := by
  rw [Nat.mul_comm, Nat.mul_add_div hn, Nat.div_eq_of_lt (Nat.mod_lt _ hn), Nat.add_zero]

theorem sramWriteEEPROMTiny_effect (htype : c.sramType = 1) :
    ByteEffect val c (c.sramWriteEEPROMTiny val).2 := by
  have hbytes : c.addrBytes = 1 := by rw [addrBytes, addressBytes, if_pos htype]
  have hval : c.sramPos < 2 → c.sramPos ≠ 0 → c.sramAddr < 256 ^ (c.sramPos - 1) →
      val.toNat < 256 ^ c.sramPos := by
    intro hpos hne _
    rw [show c.sramPos = 1 by omega]
    exact val.isLt
  have hv : val.toNat < 256 := val.isLt
  have herase : isErase c.sramCmd → c.eraseSize c.sramCmd = 0 :=
    fun _ => eraseSize_of_ne_three (by omega) _
  unfold sramWriteEEPROMTiny
  split_ifs with hrdsr hwrite hpos hlatch hread hpos
  · exact .named hrdsr (by decide) (by decide)
  · refine .start _ _ (.inl ?_) (by omega) (absurd htype) (hval hpos) (fun _ => ?_)
    · rw [isPageCommand, htype]
      rcases hwrite with h | h <;> rw [h] <;> decide
    · rw [upperHalf]
      split <;> omega
  · have hlatched : (c.openTinyPage.latchByte 16 val).nextAddress =
        { c.latched val with sramAddr := (c.sramAddr + 1) % 2 ^ 32 } := by
      rw [latched, pageSize, if_pos htype, if_pos htype, openTinyPage]
      split <;> rfl
    rw [hlatched]
    refine .latch _ ?_ (by omega) ?_ hlatch.1 ?_ (absurd htype) fun _ => Nat.mod_lt _ (by decide)
    · rw [isPageCommand, htype]
      rcases hwrite with h | h <;> rw [h] <;> decide
    · rw [pageSize, if_pos htype]
      decide
    · rw [if_neg (by omega)]
      exact hlatch.2
  · refine .skip _ ?_ (by omega) (absurd htype) (by omega) fun _ => Nat.mod_lt _ (by decide)
    rw [isPageCommand, htype]
    rcases hwrite with h | h <;> rw [h] <;> decide
  · exact .read _ hread (by omega) fun _ => hval hpos
  · exact .read _ hread (Nat.mod_lt _ (by decide)) (by omega)
  · exact .other (not_or.mp hwrite) herase

theorem sramWriteEEPROM_effect (htype : c.sramType = 2) :
    ByteEffect val c (c.sramWriteEEPROM val).2 := by
  have hbytes := addrBytes_eq_addrSize htype
  have hpage := pageSize_of_two htype
  have hcommand (h : c.sramCmd = 0x02) : isPageCommand c.sramType c.sramCmd = true := by
    rw [isPageCommand, h]
    rfl
  have herase : isErase c.sramCmd → c.eraseSize c.sramCmd = 0 :=
    fun _ => eraseSize_of_ne_three (by omega) _
  unfold sramWriteEEPROM
  split_ifs with hrdsr hwrite hpos hprot hps hwel hwel hread hpos
  · exact .named hrdsr (by decide) (by decide)
  · exact .start _ _ (.inl (hcommand hwrite)) (by omega) (fun _ => rfl)
      sramAddr_shiftAddress_lt (by omega)
  · exact .answer (fun _ _ => by omega) herase
  · have hlatched : (c.openPage.latchByte (eepromPageSize c.sramProfile) val).nextInPage
        (eepromPageSize c.sramProfile) =
        { c.latched val with
          sramAddr := c.sramAddr / c.pageSize * c.pageSize + (c.sramAddr + 1) % c.pageSize } := by
      rw [latched, if_neg (by omega), hpage, openPage]
      split <;> rfl
    rw [hlatched]
    refine .latch _ (hcommand hwrite) (by omega) (by omega) hwel ?_ (fun _ => ?_) (by omega)
    · rw [if_pos htype]
      exact (Bool.not_eq_true _).mp hprot
    · exact div_nextInPage _ (by omega)
  · refine .skip _ (hcommand hwrite) (by omega) (fun _ _ => ?_)
      (fun _ => (Bool.not_eq_true _).mp hwel) (by omega)
    rw [hpage]
    exact div_nextInPage _ (by omega)
  · exact .direct hwrite htype (by omega) (by omega) hwel ((Bool.not_eq_true _).mp hprot)
  · exact .skip _ (hcommand hwrite) (by omega) (by omega) (fun _ => (Bool.not_eq_true _).mp hwel)
      fun _ => Nat.mod_lt _ (by decide)
  · exact .read _ (.inl hread) (Nat.mod_lt _ (by decide)) fun _ => sramAddr_shiftAddress_lt
  · exact .read _ (.inl hread) (Nat.mod_lt _ (by decide)) (by omega)
  · refine .answer (fun _ h => absurd h ?_) herase
    rw [isPageCommand, htype, beq_false_of_ne hwrite]
    exact Bool.false_ne_true

theorem sramWriteErase_effect (htype : c.sramType = 3) (hcmd : isErase c.sramCmd)
    (hsize : c.eraseSize c.sramCmd ≠ 0) : ByteEffect val c (c.sramWriteErase val) := by
  have hbytes : c.addrBytes = 3 := by rw [addrBytes, addressBytes, htype]; rfl
  have hflash : flashEraseSize c.sramCmd c.sramLength c.sramProfile = c.eraseSize c.sramCmd := by
    rw [eraseSize, if_pos htype]
  rcases Nat.lt_trichotomy c.sramPos 3 with hpos | hpos | hpos
  · rw [sramWriteErase]
    simp only [show c.sramPos ≤ 3 by omega, show ¬c.sramPos = 3 by omega,
      show ¬c.sramPos > 3 by omega, if_true, if_false, false_and]
    exact .start _ _ (.inr hcmd) (by omega) (fun _ => rfl) sramAddr_shiftAddress_lt (by omega)
  · rw [sramWriteErase, if_pos hpos.le]
    by_cases hpend : c.wel ∧ c.isWriteProtected (c.shiftAddress val).sramAddr = false
    · rw [if_pos ⟨hpos, hpend⟩]
      change ByteEffect val c
        { c with
          sramAddr := (c.shiftAddress val).sramAddr
          sramSaveAddr := (c.shiftAddress val).sramAddr
          pagePending := true
          pageBuffer := fun _ => 0xFF
          sramSaveLen := flashEraseSize c.sramCmd c.sramLength c.sramProfile }
      rw [hflash]
      exact .erase _ hcmd htype hpos hpend.1 hpend.2 hsize fun h => shift_lt val (n := 3) (by decide) h
    · rw [if_neg fun h => hpend h.2, if_neg (by omega)]
      exact .start _ _ (.inr hcmd) (by omega) (fun _ => rfl) sramAddr_shiftAddress_lt (by omega)
  · rw [sramWriteErase]
    simp only [show ¬c.sramPos ≤ 3 by omega, show ¬c.sramPos = 3 by omega, hpos, if_true, if_false,
      false_and]
    exact .cancelErase hcmd htype

theorem sramWriteFLASH_effect (htype : c.sramType = 3) :
    ByteEffect val c (c.sramWriteFLASH val).2 := by
  have hbytes : c.addrBytes = 3 := by rw [addrBytes, addressBytes, htype]; rfl
  have hpage : c.pageSize = 256 := by rw [pageSize, htype]; rfl
  have hcommand (h : c.sramCmd = 0x02 ∨ c.sramCmd = 0x0A) :
      isPageCommand c.sramType c.sramCmd = true := by
    rw [isPageCommand, htype]
    rcases h with h | h <;> rw [h] <;> decide
  rw [sramWriteFLASH]
  refine .ite (fun h => .named h (by decide) (by decide)) fun _ => .ite (fun hwrite => ?_)
    fun hwrite => .ite (fun hread => ?_) fun _ => .ite (fun hread => ?_) fun _ =>
    .ite (fun hid => ?_) fun _ => .ite (fun hlock => ?_) fun _ =>
    .ite (fun h => .named h (by decide) (by decide)) fun _ => .ite (fun hsub => ?_) fun hsub =>
    .ite (fun hers => ?_) fun hers => .other (not_or.mp hwrite) fun h => ?_
  · refine .ite (fun hpos => ?_) fun hpos => .ite (fun hlatch => ?_) fun _ => ?_
    · exact .start _ _ (.inl (hcommand hwrite)) (by omega) (fun _ => rfl)
        sramAddr_shiftAddress_lt (by omega)
    · have hlatched : (c.openPage.latchByte 256 val).nextInPage 256 =
          { c.latched val with sramAddr := c.sramAddr / 256 * 256 + (c.sramAddr + 1) % 256 } := by
        rw [latched, if_neg (by omega), hpage, openPage]
        split <;> rfl
      rw [hlatched]
      refine .latch _ (hcommand hwrite) (by omega) (by omega) hlatch.1 ?_ (fun _ => ?_) (by omega)
      · rw [if_neg (by omega)]
        exact hlatch.2
      · rw [hpage]
        exact div_nextInPage _ (by decide)
    · refine .skip _ (hcommand hwrite) (by omega) (fun _ _ => ?_) (by omega) (by omega)
      rw [hpage]
      exact div_nextInPage _ (by decide)
  · refine .ite (fun _ => ?_) fun _ => ?_
    · exact .read _ (.inl hread) (Nat.mod_lt _ (by decide)) fun _ => sramAddr_shiftAddress_lt
    · exact .read _ (.inl hread) (Nat.mod_lt _ (by decide)) (by omega)
  · have hdummy : ByteEffect val c c := .named hread (by decide) (by decide)
    refine .ite (fun _ => ?_) fun _ => .ite (fun _ => hdummy) fun _ => ?_
    · exact .read _ (.inr hread) (Nat.mod_lt _ (by decide)) fun _ => sramAddr_shiftAddress_lt
    · exact .read _ (.inr hread) (Nat.mod_lt _ (by decide)) (by omega)
  · have hno : ByteEffect val c c := .named hid (by decide) (by decide)
    exact .ite (fun _ => .ite (fun _ => hno) fun _ => .ite (fun _ => hno) fun _ =>
      .ite (fun _ => hno) fun _ => hno) fun _ => hno
  · have hno : ByteEffect val c c := by
      rcases hlock with h | h
      · exact .named h (by decide) (by decide)
      · exact .named h (by decide) (by decide)
    refine .ite (fun _ => hno) fun _ => .ite (fun hpos => ?_) fun _ =>
      .ite (fun _ => hno) fun he8 => .ite (fun hpos => ?_) fun _ => hno
    · exact .lockAddress _ hlock hpos htype sramAddr_shiftAddress_lt
    · exact .lockValue (hlock.resolve_right he8) htype hpos
  · refine .ite (fun hprof => ?_) fun hprof => .other (by rw [hsub]; decide) fun _ => ?_
    · refine sramWriteErase_effect htype (by rw [hsub]; rfl) ?_
      rw [eraseSize, if_pos htype, hsub, flashEraseSize_subsector _ hprof]
      decide
    · rw [eraseSize, if_pos htype, hsub, flashEraseSize, (Bool.not_eq_true _).mp hprof]
      rfl
  · refine sramWriteErase_effect htype (by rcases hers with h | h <;> rw [h] <;> rfl) ?_
    rw [eraseSize, if_pos htype]
    rcases hers with h | h <;> rw [h]
    · rw [flashEraseSize_sector]
      decide
    · rw [flashEraseSize_page]
      decide
  · exact absurd (eq_of_isErase h) (not_or.mpr ⟨hsub, hers⟩)

theorem sramWrite_effect (val : U8) (c : CartRetail) : ByteEffect val c (c.sramWrite val).2 := by
  unfold sramWrite
  split_ifs with htiny heeprom hflash
  · exact sramWriteEEPROMTiny_effect htiny
  · exact sramWriteEEPROM_effect heeprom
  · exact sramWriteFLASH_effect hflash
  · exact .answer (absurd · heeprom) fun _ => eraseSize_of_ne_three hflash _

end CartRetail
end MelonDS.NDSCart

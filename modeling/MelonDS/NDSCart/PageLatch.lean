import MelonDS.Library.CyclicWindow
import MelonDS.NDSCart.ReadConfinement
import MelonDS.NDSCart.ReadOnlyArea

/-!
# The page of a NAND cart

A commit stores the whole page buffer. Beside the cart stands what a reader of the bus knows: the
words that were latched since the last command that begins a page, each with the address that its
command named, and for each word of the buffer where it came from. A discard clears the address
and the position of the page but not its length, and a commit does not ask how much of the page
has been written.
-/

namespace MelonDS.NDSCart

instance neZero_nandPage : NeZero 0x200 := ⟨Nat.succ_ne_zero 0x1FF⟩

namespace CartRetailNAND

/-- The chip takes commands of its own. -/
def inKEY2 (c : CartRetailNAND) : Prop := c.common.resetState = false ∧ c.common.cmdEncMode = 2

instance (c : CartRetailNAND) : Decidable c.inKEY2 := inferInstanceAs (Decidable (_ ∧ _))

/-- A word on the bus goes into the page. -/
def latches (c : CartRetailNAND) : Prop :=
  c.inKEY2 ∧ c.common.romCmd 0 = 0x81 ∧ c.sramAddr ≠ 0

instance (c : CartRetailNAND) : Decidable c.latches := inferInstanceAs (Decidable (_ ∧ _))

/-- The address that the command in effect names. -/
def named (c : CartRetailNAND) : ℕ := (commandAddress c.common.romCmd).toNat

end CartRetailNAND

/-- Commit, discard and write enable begin a page. -/
def beginsPage (cmd : Fin 8 → U8) : Prop := cmd 0 = 0x82 ∨ cmd 0 = 0x84 ∨ cmd 0 = 0x85

instance (cmd : Fin 8 → U8) : Decidable (beginsPage cmd) := inferInstanceAs (Decidable (_ ∨ _))

/-- A cart, the words latched for the page with the addresses named, and the word that each cell
of the buffer was filled with. -/
structure PageTrace where
  cart : CartRetailNAND
  sent : List (ℕ × U32)
  origin : Fin 0x200 → Option (ℕ × U32)

namespace PageTrace

/-- No word is latched yet. -/
def blank (cart : CartRetailNAND) : PageTrace := ⟨cart, [], fun _ => none⟩

def latch (cart : CartRetailNAND) (x : ℕ × U32) (s : PageTrace) : PageTrace where
  cart := cart
  sent := s.sent ++ [x]
  origin := Function.update s.origin (Cyclic.cell 0x200 (s.cart.sramWritePos / 4)) (some x)

def step (s : PageTrace) : ROMCall → PageTrace
  | .command decrypt cmd =>
    let cart := (ROMCall.command decrypt cmd).onNAND s.cart
    if s.cart.inKEY2 ∧ beginsPage cmd then blank cart else { s with cart := cart }
  | .receive => { s with cart := ROMCall.receive.onNAND s.cart }
  | .transmit val =>
    let cart := (ROMCall.transmit val).onNAND s.cart
    if s.cart.latches then s.latch cart (s.cart.named, val) else { s with cart := cart }
  | .setResetState held => { s with cart := (ROMCall.setResetState held).onNAND s.cart }
  | .reset => blank (ROMCall.reset.onNAND s.cart)
  | .directBoot dsi => blank ((ROMCall.directBoot dsi).onNAND s.cart)

/-- Calls on a new cart. -/
def after (held : Bool) (saveMemType : ℕ) (sram : Option (List U8)) (rom : CartROM)
    (calls : List ROMCall) : PageTrace :=
  calls.foldl step (blank (.build held saveMemType sram rom))

/-- What a commit would store is new and is named where it is stored. -/
def StoresFresh (s : PageTrace) : Prop :=
  s.cart.commits → ∀ q, ∃ w, s.origin q = some (s.cart.sramAddr, w)

/-- A commit that stores comes after a whole page of words, and the last 0x200 of them were sent
under commands that name the address of the page. -/
def Complete (s : PageTrace) : Prop :=
  s.cart.commits → 0x200 ≤ s.sent.length ∧
    ∀ x ∈ s.sent.drop (s.sent.length - 0x200), x.1 = s.cart.sramAddr

end PageTrace

/-! ## What a call changes -/

namespace CartRetailNAND

variable {c : CartRetailNAND}

/-- The new address is the old one, none, or lies in the window. -/
def Redirected (c : CartRetailNAND) (addr : ℕ) : Prop :=
  addr ≠ 0 → addr = c.sramAddr ∨ c.windowMapped = true ∧ c.inWindow addr = true

theorem redirected_same (c : CartRetailNAND) : c.Redirected c.sramAddr := fun _ => .inl rfl

theorem redirected_zero (c : CartRetailNAND) : c.Redirected 0 := fun h => absurd rfl h

/-- The address of a data command in SRAM mode. -/
theorem redirected_window (c : CartRetailNAND) (addr : ℕ) :
    c.Redirected (if c.windowMapped ∧ c.inWindow addr then addr else 0) := by
  split_ifs with hin
  · exact fun _ => .inr hin
  · exact c.redirected_zero

theorem redirected_writeData (c : CartRetailNAND) (addr : ℕ) :
    ∃ a, c.writeData addr = { c with sramAddr := a } ∧ c.Redirected a := by
  rw [writeData]
  split_ifs with hmapped hin
  · exact ⟨addr, rfl, fun _ => .inr ⟨hmapped.2, hin.1⟩⟩
  · exact ⟨c.sramAddr, rfl, c.redirected_same⟩
  · exact ⟨0, rfl, c.redirected_zero⟩

/-- A command that begins no page leaves the page alone. -/
theorem romCommandStart_frame (decrypt : U32 × U32 → U32 × U32) (cmd : Fin 8 → U8)
    (h : ¬(c.inKEY2 ∧ beginsPage cmd)) :
    ∃ common window addr, c.romCommandStart decrypt cmd =
      { c with common := common, sramWindow := window, sramAddr := addr } ∧
        c.Redirected addr := by
  rw [romCommandStart]
  dsimp only
  by_cases hreset : c.common.resetState = true
  · rw [if_pos hreset]
    exact ⟨_, _, _, rfl, c.redirected_same⟩
  rw [if_neg hreset]
  by_cases hmode : c.common.cmdEncMode ≠ 2
  · rw [if_pos hmode]
    exact ⟨_, _, _, rfl, c.redirected_same⟩
  rw [if_neg hmode]
  have hno : ¬beginsPage cmd := fun hbegins =>
    h ⟨⟨Bool.eq_false_of_not_eq_true hreset, not_not.mp hmode⟩, hbegins⟩
  have h82 : cmd 0 ≠ 0x82 := fun h82 => hno (.inl h82)
  have h84 : cmd 0 ≠ 0x84 := fun h84 => hno (.inr (.inl h84))
  have h85 : cmd 0 ≠ 0x85 := fun h85 => hno (.inr (.inr h85))
  by_cases h81 : cmd 0 = 0x81
  · rw [if_pos h81]
    obtain ⟨addr, haddr, hredirected⟩ := redirected_writeData
      { c with common := { c.common with romCmd := cmd } } (commandAddress cmd).toNat
    exact ⟨_, _, addr, haddr, hredirected⟩
  rw [if_neg h81, if_neg h82, if_neg h84, if_neg h85]
  by_cases h8b : cmd 0 = 0x8B
  · rw [if_pos h8b]
    exact ⟨_, _, _, rfl, c.redirected_same⟩
  rw [if_neg h8b]
  by_cases h94 : cmd 0 = 0x94
  · rw [if_pos h94]
    exact ⟨_, _, _, rfl, c.redirected_same⟩
  rw [if_neg h94]
  by_cases hb2 : cmd 0 = 0xB2
  · rw [if_pos hb2]
    exact ⟨_, _, _, rfl, c.redirected_same⟩
  rw [if_neg hb2]
  by_cases hb7 : cmd 0 = 0xB7
  · rw [if_pos hb7]
    by_cases hwindow : c.sramWindow = 0
    · rw [if_pos hwindow]
      exact ⟨_, _, _, rfl, c.redirected_same⟩
    · rw [if_neg hwindow]
      exact ⟨_, _, _, rfl, c.redirected_window (commandAddress cmd).toNat⟩
  rw [if_neg hb7]
  exact ⟨_, _, _, rfl, c.redirected_same⟩

/-- What a command that begins a page does to what the page rests on. -/
theorem romCommandStart_begins (decrypt : U32 × U32 → U32 × U32) {cmd : Fin 8 → U8}
    (hkey2 : c.inKEY2) (hcmd : beginsPage cmd) :
    ∃ common sram calls addr status pos len, c.romCommandStart decrypt cmd =
      { c with
        common := common
        sram := sram
        calls := calls
        sramAddr := addr
        sramStatus := status
        sramWritePos := pos
        sramWriteLen := len } ∧
      (addr = c.sramAddr ∨ addr = 0) ∧ (pos = c.sramWritePos ∨ pos = 0) := by
  rw [romCommandStart, if_neg (by simp [hkey2.1]), if_neg (not_not.mpr hkey2.2)]
  dsimp only
  rcases hcmd with h82 | h84 | h85
  · have h81 : cmd 0 ≠ 0x81 := by rw [h82]; decide
    rw [if_neg h81, if_pos h82, commitWrite]
    refine ⟨_, _, _, _, _, _, _, rfl, ?_, ?_⟩
    · split_ifs <;> simp
    · split_ifs <;> simp
  · have h81 : cmd 0 ≠ 0x81 := by rw [h84]; decide
    have h82 : cmd 0 ≠ 0x82 := by rw [h84]; decide
    rw [if_neg h81, if_neg h82, if_pos h84]
    exact ⟨_, _, _, _, _, _, _, rfl, .inr rfl, .inr rfl⟩
  · have h81 : cmd 0 ≠ 0x81 := by rw [h85]; decide
    have h82 : cmd 0 ≠ 0x82 := by rw [h85]; decide
    have h84 : cmd 0 ≠ 0x84 := by rw [h85]; decide
    rw [if_neg h81, if_neg h82, if_neg h84, if_pos h85]
    split_ifs
    · exact ⟨_, _, _, _, _, _, _, rfl, .inl rfl, .inr rfl⟩
    · exact ⟨_, _, _, _, _, _, _, rfl, .inl rfl, .inl rfl⟩

/-- Reading moves the address of the page to an address of the save memory. -/
theorem romCommandReceive_frame (hlength : 0x1000 ∣ c.sramLength ∧ 0 < c.sramLength) :
    ∃ common addr, c.romCommandReceive.2 = { c with common := common, sramAddr := addr } ∧
      (addr = c.sramAddr ∨ c.sramAddr ≠ 0 ∧
        ∃ x < c.sramLength, addr = (c.sramBase + x) % 2 ^ 32) := by
  have hread : ∃ addr, c.sramRead32.2 = { c with sramAddr := addr } ∧
      ∃ x < c.sramLength, addr = (c.sramBase + x) % 2 ^ 32 := by
    refine ⟨_, rfl, _, ?_, rfl⟩
    obtain ⟨⟨n, hn⟩, hpos⟩ := hlength
    have hat := Nat.mod_lt c.commitOffset hpos
    have hlow := Nat.mod_lt (c.commitOffset % c.sramLength % 0x1000 + 4) (by decide : 0 < 0x1000)
    omega
  rw [romCommandReceive]
  by_cases hreset : c.common.resetState = true
  · rw [if_pos hreset]
    exact ⟨_, _, rfl, .inl rfl⟩
  rw [if_neg hreset]
  by_cases hmode : c.common.cmdEncMode ≠ 2
  · rw [if_pos hmode]
    exact ⟨_, _, rfl, .inl rfl⟩
  rw [if_neg hmode]
  by_cases h94 : c.common.romCmd 0 = 0x94
  · rw [if_pos h94]
    split_ifs
    · exact ⟨_, _, rfl, .inl rfl⟩
    · exact ⟨_, _, rfl, .inl rfl⟩
  rw [if_neg h94]
  by_cases hb7 : c.common.romCmd 0 = 0xB7
  · rw [if_pos hb7]
    by_cases hwindow : c.sramWindow = 0
    · rw [if_pos hwindow]
      split_ifs
      · exact ⟨_, _, rfl, .inl rfl⟩
      · exact ⟨_, _, rfl, .inl rfl⟩
    · rw [if_neg hwindow]
      by_cases haddr : c.sramAddr = 0
      · rw [if_pos haddr]
        exact ⟨_, _, rfl, .inl rfl⟩
      · rw [if_neg haddr]
        obtain ⟨addr, hresult, hx⟩ := hread
        exact ⟨_, addr, hresult, .inr ⟨haddr, hx⟩⟩
  rw [if_neg hb7]
  split_ifs
  · exact ⟨_, _, rfl, .inl rfl⟩
  · exact ⟨_, _, rfl, .inl rfl⟩

/-! ## The cart alone -/

/-- The position is that of a word of the page, and an address lies behind the base. -/
structure Placed (c : CartRetailNAND) : Prop where
  aligned : c.sramWritePos % 4 = 0
  inPage : c.sramWritePos < 0x800
  base : c.sramBase < 2 ^ 32
  length : c.sramLength ∈ nandLengths
  addr : c.sramAddr ≠ 0 → c.sramBase ≤ c.sramAddr ∧ c.sramBase + c.sramLength < 2 ^ 32

theorem length_dvd {n : ℕ} (h : n ∈ nandLengths) : 0x1000 ∣ n ∧ 0 < n := by
  revert n
  decide

/-- In a window that is mapped nothing wraps. -/
theorem Placed.of_window (h : c.Placed) {addr : ℕ} (hmapped : c.windowMapped = true)
    (hin : c.inWindow addr = true) :
    c.sramBase ≤ addr ∧ c.sramBase + c.sramLength < 2 ^ 32 := by
  have hbase := h.base
  have hlen := (CartRetail.lt_of_nandLengths h.length).2
  simp only [windowMapped, inWindow, Bool.and_eq_true, decide_eq_true_eq] at hmapped hin
  omega

theorem Placed.redirect (h : c.Placed) {addr : ℕ} (haddr : c.Redirected addr)
    (common : CartCommon) (window : ℕ) :
    ({ c with common := common, sramWindow := window, sramAddr := addr } :
      CartRetailNAND).Placed where
  aligned := h.aligned
  inPage := h.inPage
  base := h.base
  length := h.length
  addr hne := by
    rcases haddr hne with hsame | ⟨hmapped, hin⟩
    · have hold := h.addr
      rw [← hsame] at hold
      exact hold hne
    · exact h.of_window hmapped hin

theorem Placed.romCommandStart (h : c.Placed) (decrypt : U32 × U32 → U32 × U32)
    (cmd : Fin 8 → U8) : (c.romCommandStart decrypt cmd).Placed := by
  by_cases hbegins : c.inKEY2 ∧ beginsPage cmd
  · obtain ⟨common, sram, calls, addr, status, pos, len, heq, haddr, hpos⟩ :=
      romCommandStart_begins decrypt hbegins.1 hbegins.2
    rw [heq]
    refine ⟨?_, ?_, h.base, h.length, fun hne => ?_⟩
    · rcases hpos with rfl | rfl
      · exact h.aligned
      · rfl
    · rcases hpos with rfl | rfl
      · exact h.inPage
      · exact Nat.succ_pos _
    · rcases haddr with rfl | rfl
      · exact h.addr hne
      · exact absurd rfl hne
  · obtain ⟨common, window, addr, heq, haddr⟩ := romCommandStart_frame decrypt cmd hbegins
    rw [heq]
    exact h.redirect haddr common window

theorem Placed.romCommandReceive (h : c.Placed) : c.romCommandReceive.2.Placed := by
  obtain ⟨common, addr, heq, haddr⟩ := romCommandReceive_frame (length_dvd h.length)
  rw [heq]
  refine ⟨h.aligned, h.inPage, h.base, h.length, fun hne => ?_⟩
  rcases haddr with rfl | ⟨hold, x, hx, rfl⟩
  · exact h.addr hne
  · have hplace := (h.addr hold).2
    change c.sramBase ≤ (c.sramBase + x) % 2 ^ 32 ∧ _
    rw [Nat.mod_eq_of_lt (by omega)]
    exact ⟨Nat.le_add_right _ _, hplace⟩

/-- A word that is latched. -/
theorem romCommandTransmit_of_latches (h : c.latches) (val : U32) :
    ∃ len, c.romCommandTransmit val =
      { c with
        sramWriteBuffer := fun i =>
          if c.sramWritePos ≤ i ∧ i < c.sramWritePos + 4 then
            val.extractLsb' (8 * (i - c.sramWritePos)) 8
          else c.sramWriteBuffer i
        sramWritePos := (c.sramWritePos + 4) % 0x800
        sramWriteLen := len } := by
  obtain ⟨⟨hreset, hmode⟩, hcmd, haddr⟩ := h
  have hno : ¬(c.common.resetState = true ∨ c.common.cmdEncMode ≠ 2 ∨
      c.common.romCmd 0 ≠ 0x81 ∨ c.sramAddr = 0) := by
    simp [hreset, hmode, hcmd, haddr]
  rw [romCommandTransmit, if_neg hno]
  exact ⟨_, rfl⟩

theorem romCommandTransmit_of_not_latches (h : ¬c.latches) (val : U32) :
    c.romCommandTransmit val = c := by
  rw [romCommandTransmit, if_pos]
  by_contra hno
  simp only [not_or, not_not, Bool.not_eq_true] at hno
  exact h ⟨⟨hno.1, hno.2.1⟩, hno.2.2.1, hno.2.2.2⟩

theorem Placed.romCommandTransmit (h : c.Placed) (val : U32) :
    (c.romCommandTransmit val).Placed := by
  by_cases hlatches : c.latches
  · obtain ⟨len, heq⟩ := romCommandTransmit_of_latches hlatches val
    have haligned := h.aligned
    rw [heq]
    refine ⟨?_, Nat.mod_lt _ (by decide), h.base, h.length, h.addr⟩
    change (c.sramWritePos + 4) % 0x800 % 4 = 0
    omega
  · rw [romCommandTransmit_of_not_latches hlatches]
    exact h

theorem placed_build (held : Bool) {type : ℕ} (htype : 8 ≤ type ∧ type ≤ 10)
    (sram : Option (List U8)) (rom : CartROM) : (build held type sram rom).Placed := by
  have hlength := (CartRetail.NANDSized.build held htype sram).length
  rw [build, buildSRAMID]
  split_ifs <;>
    exact ⟨rfl, Nat.succ_pos _, Nat.succ_pos _, hlength, fun hne => absurd rfl hne⟩

theorem Placed.reset (h : c.Placed) : c.reset.Placed where
  aligned := h.aligned
  inPage := h.inPage
  base := Nat.mod_lt _ (by decide)
  length := h.length
  addr hne := absurd rfl hne

end CartRetailNAND

/-! ## The cart and its page -/

namespace PageTrace

open Cyclic (cell writeAll)

/-- The cells were filled in turn with the words sent, and hold their bytes. -/
structure Valid (s : PageTrace) : Prop where
  placed : s.cart.Placed
  written : ∃ start, s.origin = writeAll (fun _ => none) start (s.sent.map some) ∧
    (start + s.sent.length) % 0x200 = s.cart.sramWritePos / 4
  held : ∀ q x, s.origin q = some x → x ∈ s.sent ∧
    ∀ j < 4, s.cart.sramWriteBuffer (4 * q + j) = x.2.extractLsb' (8 * j) 8

variable {s : PageTrace}

theorem valid_blank {c : CartRetailNAND} (h : c.Placed) : (blank c).Valid where
  placed := h
  written := by
    have hin := h.inPage
    refine ⟨c.sramWritePos / 4, rfl, ?_⟩
    exact Nat.mod_eq_of_lt (by change c.sramWritePos / 4 < 0x200; omega)
  held _ _ horigin := absurd horigin nofun

/-- A call that leaves the page alone. -/
theorem Valid.congr (h : s.Valid) {c : CartRetailNAND} (hplaced : c.Placed)
    (hpos : c.sramWritePos = s.cart.sramWritePos)
    (hbuffer : c.sramWriteBuffer = s.cart.sramWriteBuffer) :
    ({ s with cart := c } : PageTrace).Valid where
  placed := hplaced
  written := by
    obtain ⟨start, horigin, hat⟩ := h.written
    exact ⟨start, horigin, hat.trans (congrArg (· / 4) hpos.symm)⟩
  held q x horigin := by
    obtain ⟨hmem, hbytes⟩ := h.held q x horigin
    refine ⟨hmem, fun j hj => ?_⟩
    rw [hbuffer]
    exact hbytes j hj

theorem Valid.latch (h : s.Valid) (hlatches : s.cart.latches) (val : U32) (a : ℕ) :
    (s.latch (s.cart.romCommandTransmit val) (a, val)).Valid := by
  have hplaced := h.placed.romCommandTransmit val
  obtain ⟨len, heq⟩ := CartRetailNAND.romCommandTransmit_of_latches hlatches val
  have haligned := h.placed.aligned
  have hin := h.placed.inPage
  have hcell : (cell 0x200 (s.cart.sramWritePos / 4)).val = s.cart.sramWritePos / 4 :=
    Cyclic.cell_val_of_lt (by omega)
  refine ⟨hplaced, ?_, fun q x horigin => ?_⟩
  · obtain ⟨start, horigin, hat⟩ := h.written
    refine ⟨start, ?_, ?_⟩
    · have hplace : cell 0x200 (start + (s.sent.map some).length) =
          cell 0x200 (s.cart.sramWritePos / 4) := by
        rw [Cyclic.cell_eq_cell, List.length_map, hat, Nat.mod_eq_of_lt (by omega)]
      change Function.update s.origin _ _ = writeAll _ start ((s.sent ++ [(a, val)]).map some)
      rw [List.map_append, Cyclic.writeAll_append, ← horigin, List.map_singleton, writeAll, writeAll,
        hplace]
    · change (start + (s.sent ++ [(a, val)]).length) % 0x200 =
        (s.cart.romCommandTransmit val).sramWritePos / 4
      rw [heq, List.length_append, List.length_singleton, ← Nat.add_assoc, Nat.add_mod, hat]
      change (s.cart.sramWritePos / 4 + 1) % 0x200 = (s.cart.sramWritePos + 4) % 0x800 / 4
      omega
  · change Function.update s.origin _ _ q = some x at horigin
    change x ∈ s.sent ++ [(a, val)] ∧ ∀ j < 4,
      (s.cart.romCommandTransmit val).sramWriteBuffer (4 * q + j) = _
    rw [heq]
    by_cases hq : q = cell 0x200 (s.cart.sramWritePos / 4)
    · rw [hq, Function.update_self, Option.some.injEq] at horigin
      refine ⟨by rw [← horigin]; exact List.mem_concat_self, fun j hj => ?_⟩
      have hplace : 4 * q.val + j = s.cart.sramWritePos + j := by
        rw [hq, hcell]
        omega
      dsimp only
      rw [hplace, if_pos (by omega), ← horigin, Nat.add_sub_cancel_left]
    · rw [Function.update_of_ne hq] at horigin
      obtain ⟨hmem, hbytes⟩ := h.held q x horigin
      have hval : q.val ≠ s.cart.sramWritePos / 4 := fun hval => hq (Fin.ext (hval.trans hcell.symm))
      refine ⟨List.mem_append_left _ hmem, fun j hj => ?_⟩
      dsimp only
      rw [if_neg (by omega)]
      exact hbytes j hj

/-- One call. -/
theorem Valid.step (h : s.Valid) (call : ROMCall) : (s.step call).Valid := by
  cases call with
  | command decrypt cmd =>
    have hplaced := h.placed.romCommandStart decrypt cmd
    rw [PageTrace.step]
    by_cases hbegins : s.cart.inKEY2 ∧ beginsPage cmd
    · rw [if_pos hbegins]
      exact valid_blank hplaced
    · rw [if_neg hbegins]
      obtain ⟨common, window, addr, heq, -⟩ :=
        CartRetailNAND.romCommandStart_frame decrypt cmd hbegins
      have hpos : (s.cart.romCommandStart decrypt cmd).sramWritePos = s.cart.sramWritePos := by
        rw [heq]
      have hbuffer : (s.cart.romCommandStart decrypt cmd).sramWriteBuffer =
          s.cart.sramWriteBuffer := by
        rw [heq]
      exact h.congr hplaced hpos hbuffer
  | receive =>
    obtain ⟨common, addr, heq, -⟩ :=
      CartRetailNAND.romCommandReceive_frame (CartRetailNAND.length_dvd h.placed.length)
    have hpos : s.cart.romCommandReceive.2.sramWritePos = s.cart.sramWritePos := by
      rw [heq]
    have hbuffer : s.cart.romCommandReceive.2.sramWriteBuffer = s.cart.sramWriteBuffer := by
      rw [heq]
    exact h.congr h.placed.romCommandReceive hpos hbuffer
  | transmit val =>
    rw [PageTrace.step]
    by_cases hlatches : s.cart.latches
    · rw [if_pos hlatches]
      exact h.latch hlatches val _
    · rw [if_neg hlatches]
      have heq := CartRetailNAND.romCommandTransmit_of_not_latches hlatches val
      exact h.congr (h.placed.romCommandTransmit val) (congrArg CartRetailNAND.sramWritePos heq)
        (congrArg CartRetailNAND.sramWriteBuffer heq)
  | setResetState held =>
    have hplaced := h.placed
    exact h.congr ⟨hplaced.aligned, hplaced.inPage, hplaced.base, hplaced.length, hplaced.addr⟩ rfl
      rfl
  | reset => exact valid_blank h.placed.reset
  | directBoot dsi =>
    have hplaced := h.placed.reset
    exact valid_blank
      ⟨hplaced.aligned, hplaced.inPage, hplaced.base, hplaced.length, hplaced.addr⟩

theorem Valid.run (h : s.Valid) (calls : List ROMCall) : (calls.foldl PageTrace.step s).Valid := by
  induction calls generalizing s with
  | nil => exact h
  | cons call calls ih => exact ih (h.step call)

theorem valid_after (held : Bool) {type : ℕ} (htype : 8 ≤ type ∧ type ≤ 10)
    (sram : Option (List U8)) (rom : CartROM) (calls : List ROMCall) :
    (after held type sram rom calls).Valid :=
  (valid_blank (CartRetailNAND.placed_build held htype sram rom)).run calls

/-! ## Commits -/

theorem storesFresh_iff (h : s.Valid) : s.StoresFresh ↔ s.Complete := by
  obtain ⟨start, horigin, -⟩ := h.written
  have hblank : ∀ i : Fin 0x200,
      ¬∃ w, (fun _ : Fin 0x200 => (none : Option (ℕ × U32))) i = some (s.cart.sramAddr, w) := by
    rintro i ⟨w, hnone⟩
    exact absurd hnone nofun
  have hcells := Cyclic.forall_writeAll_iff
    (P := fun x : Option (ℕ × U32) => ∃ w, x = some (s.cart.sramAddr, w)) hblank start
    (s.sent.map some)
  rw [← horigin, List.length_map] at hcells
  have hnamed : (∀ x ∈ (s.sent.map some).drop (s.sent.length - 0x200),
      ∃ w, x = some (s.cart.sramAddr, w)) ↔
        ∀ x ∈ s.sent.drop (s.sent.length - 0x200), x.1 = s.cart.sramAddr := by
    rw [← List.map_drop, List.forall_mem_map]
    refine forall₂_congr fun x _ => ⟨?_, fun haddr => ⟨x.2, ?_⟩⟩
    · rintro ⟨w, hw⟩
      exact congrArg Prod.fst (Option.some.inj hw)
    · rw [← haddr]
  exact forall_congr' fun _ => hcells.trans (and_congr_right fun _ => hnamed)

/-- A commit that stores puts the page at its address. -/
theorem Valid.commitCopies (h : s.Valid) (hc : s.cart.commits) :
    s.cart.commitCopies = [⟨s.cart.sramAddr - s.cart.sramBase, 0, 0x800⟩] := by
  have hlen := CartRetail.lt_of_nandLengths h.placed.length
  obtain ⟨hbase, hend⟩ := h.placed.addr hc.1
  have hbelow := hc.2.2.2
  have hoffset : s.cart.commitOffset = s.cart.sramAddr - s.cart.sramBase := by
    rw [CartRetailNAND.commitOffset]
    omega
  rw [CartRetailNAND.commitCopies, if_pos hc, hoffset, if_neg (by omega)]

/-- The save memory after a commit. -/
theorem sram_commit (decrypt : U32 × U32 → U32 × U32) {cmd : Fin 8 → U8}
    (hkey2 : s.cart.inKEY2) (hcmd : cmd 0 = 0x82) :
    (s.step (.command decrypt cmd)).cart.sram =
      s.cart.commitCopies.foldl (PageCopy.store s.cart.sramWriteBuffer) s.cart.sram := by
  have h81 : cmd 0 ≠ 0x81 := by rw [hcmd]; decide
  have hstart : (s.cart.romCommandStart decrypt cmd).sram =
      s.cart.commitCopies.foldl (PageCopy.store s.cart.sramWriteBuffer) s.cart.sram := by
    rw [CartRetailNAND.romCommandStart, if_neg (by simp [hkey2.1]), if_neg (not_not.mpr hkey2.2)]
    dsimp only
    rw [if_neg h81, if_pos hcmd]
    rfl
  rw [step, if_pos ⟨hkey2, .inl hcmd⟩]
  exact hstart

/-- The bytes that a commit changes come from words sent for the page, to its address. -/
theorem Valid.commit_changes (h : s.Valid) (hcomplete : s.Complete)
    (decrypt : U32 × U32 → U32 × U32) {cmd : Fin 8 → U8} (hkey2 : s.cart.inKEY2)
    (hcmd : cmd 0 = 0x82) {i : ℕ}
    (hi : (s.step (.command decrypt cmd)).cart.sram i ≠ s.cart.sram i) :
    ∃ p < 0x800, i = s.cart.sramAddr - s.cart.sramBase + p ∧
      ∃ w, (s.cart.sramAddr, w) ∈ s.sent ∧
        (s.step (.command decrypt cmd)).cart.sram i = w.extractLsb' (8 * (p % 4)) 8 := by
  rw [sram_commit decrypt hkey2 hcmd] at hi ⊢
  by_cases hc : s.cart.commits
  · rw [h.commitCopies hc, List.foldl_cons, List.foldl_nil, PageCopy.store] at hi ⊢
    by_cases hin : s.cart.sramAddr - s.cart.sramBase ≤ i ∧
        i < s.cart.sramAddr - s.cart.sramBase + 0x800
    · obtain ⟨p, rfl⟩ := Nat.exists_eq_add_of_le hin.1
      have hp : p < 0x800 := by omega
      obtain ⟨w, hw⟩ := (storesFresh_iff h).mpr hcomplete hc ⟨p / 4, by omega⟩
      obtain ⟨hmem, hbytes⟩ := h.held _ _ hw
      have hbyte := hbytes (p % 4) (Nat.mod_lt p (by decide))
      have hplace : 4 * (p / 4) + p % 4 = p := Nat.div_add_mod p 4
      refine ⟨p, hp, rfl, w, hmem, ?_⟩
      dsimp only at hbyte ⊢
      rw [hplace] at hbyte
      rw [if_pos hin, Nat.add_sub_cancel_left, Nat.zero_add, hbyte]
    · exact absurd (if_neg hin) hi
  · rw [CartRetailNAND.commitCopies, if_neg hc] at hi
    exact absurd rfl hi

/-- With no word sent for the page, a commit that meets the condition changes nothing. -/
theorem Complete.sram_unchanged (h : s.Complete) (hsent : s.sent = [])
    (decrypt : U32 × U32 → U32 × U32) {cmd : Fin 8 → U8} (hkey2 : s.cart.inKEY2)
    (hcmd : cmd 0 = 0x82) : (s.step (.command decrypt cmd)).cart.sram = s.cart.sram := by
  have hno : ¬s.cart.commits := by
    intro hc
    have hmany := (h hc).1
    rw [hsent] at hmany
    exact absurd hmany (by decide)
  rw [sram_commit decrypt hkey2 hcmd, CartRetailNAND.commitCopies, if_neg hno]
  rfl

end PageTrace

/-- After any calls on a new cart, what a commit would store is all new and named at its address
exactly when a whole page of words came first; then every byte it changes is one that was sent
to its address, and with nothing sent it changes nothing. -/
theorem nand_commit_fresh (held : Bool) (saveMemType : ℕ)
    (htype : 8 ≤ saveMemType ∧ saveMemType ≤ 10) (sram : Option (List U8)) (rom : CartROM)
    (calls : List ROMCall) (s : PageTrace) (hs : s = PageTrace.after held saveMemType sram rom calls)
    (decrypt : U32 × U32 → U32 × U32) (cmd : Fin 8 → U8) (hkey2 : s.cart.inKEY2)
    (hcmd : cmd 0 = 0x82) :
    (s.StoresFresh ↔ s.Complete) ∧
      (s.Complete →
        (∀ i, (s.step (.command decrypt cmd)).cart.sram i ≠ s.cart.sram i →
          ∃ p < 0x800, i = s.cart.sramAddr - s.cart.sramBase + p ∧
            ∃ w, (s.cart.sramAddr, w) ∈ s.sent ∧
              (s.step (.command decrypt cmd)).cart.sram i = w.extractLsb' (8 * (p % 4)) 8) ∧
        (s.sent = [] → (s.step (.command decrypt cmd)).cart.sram = s.cart.sram)) := by
  have hvalid : s.Valid := by
    rw [hs]
    exact PageTrace.valid_after held htype sram rom calls
  refine ⟨PageTrace.storesFresh_iff hvalid, fun hcomplete => ⟨fun i hi => ?_, fun hsent => ?_⟩⟩
  · exact hvalid.commit_changes hcomplete decrypt hkey2 hcmd hi
  · exact hcomplete.sram_unchanged hsent decrypt hkey2 hcmd

/-- A cart whose save memory starts at 8 MiB. -/
def pageROM : CartROM :=
  ⟨fun i => if i = 0x96 then 0x40 else 0, 2 ^ 23, 0x080000C2, false, 0, false⟩

def busCommand (a b c d e : U8) : ROMCall :=
  .command id fun i => [a, b, c, d, e].getD i.val 0

/-- One word is sent and discarded, and the command that would send another is given. -/
def discardedCalls : List ROMCall :=
  [.directBoot false, busCommand 0xB2 0x00 0x82 0 0, busCommand 0x85 0 0 0 0,
    busCommand 0x81 0x00 0x82 0 0, .transmit 0x12345678, busCommand 0x84 0 0 0 0,
    busCommand 0x81 0x00 0x82 0 0]

theorem nand_commit_fresh_discardedCalls :
    (PageTrace.after false 8 none pageROM discardedCalls).StoresFresh ↔
      (PageTrace.after false 8 none pageROM discardedCalls).Complete :=
  (nand_commit_fresh false 8 (by decide) none pageROM discardedCalls _ rfl id
    (fun i => [0x82].getD i.val 0) (by decide) rfl).1

/-- A commit brings back what was discarded. -/
theorem nand_commit_discarded :
    ¬∀ (calls : List ROMCall) (cmd : Fin 8 → U8),
      (PageTrace.after false 8 none pageROM calls).cart.inKEY2 → cmd 0 = 0x82 →
      (PageTrace.after false 8 none pageROM calls).sent = [] →
      ((PageTrace.after false 8 none pageROM calls).step (.command id cmd)).cart.sram =
        (PageTrace.after false 8 none pageROM calls).cart.sram := by
  intro h
  have hsame := h discardedCalls (fun i => [0x82].getD i.val 0) (by decide) rfl rfl
  exact absurd (congrFun hsame 0x20000) (by decide)

end MelonDS.NDSCart

import MelonDS.NDSCart.RetailNAND

/-!
# What a cart lets out of its ROM

In KEY2 mode the address of a data command is redirected once, when the command starts, and
each word moves it on inside its page of 4 KiB. The secure area and the DSi region begin and end
at page boundaries, so a page that was allowed at the start stays allowed for all words.
-/

namespace MelonDS.NDSCart

namespace CartROM

/-- The constructor: the header tells of a DSi region, and where it starts in units of 0x80000. -/
def ofROM (rom : ℕ → U8) (romLength : ℕ) (chipID : U32) (badDSiDump : Bool) : CartROM where
  rom := rom
  romLength := romLength
  chipID := chipID
  isDSi := rom 0x12 &&& 0x02 != 0 && !badDSiDump
  dsiBase := (rom 0x93 ++ rom 0x92 : U16).setWidth 32 <<< 19
  lenientAddressing := false

end CartROM

/-- The bytes of a page from position `pos` on, taken cyclically, as a word. -/
def pageWord (mem : ℕ → U8) (page pos : ℕ) : U32 :=
  mem (page * 0x1000 + (pos + 3) % 0x1000) ++ mem (page * 0x1000 + (pos + 2) % 0x1000) ++
    mem (page * 0x1000 + (pos + 1) % 0x1000) ++ mem (page * 0x1000 + pos % 0x1000)

theorem readPage_eq (mem : ℕ → U8) (page : ℕ) {pos : ℕ} (h : pos < 0x1000) :
    readPage mem (page * 0x1000) pos = pageWord mem page pos := by
  rw [readPage, pageWord, Nat.mod_eq_of_lt h]
  split_ifs with haligned
  · rfl
  · have h1 : (pos + 1) % 0x1000 = pos + 1 := Nat.mod_eq_of_lt (by omega)
    have h2 : (pos + 2) % 0x1000 = pos + 2 := Nat.mod_eq_of_lt (by omega)
    have h3 : (pos + 3) % 0x1000 = pos + 3 := Nat.mod_eq_of_lt (by omega)
    rw [h1, h2, h3, word]
    simp only [Nat.add_assoc]

theorem pageWord_mod (mem : ℕ → U8) (page pos : ℕ) :
    pageWord mem page (pos % 0x1000) = pageWord mem page pos := by
  simp only [pageWord, Nat.mod_add_mod, Nat.mod_mod]

namespace CartCommon

/-- The page the next word of the ROM is in. -/
def page (r : CartROM) (c : CartCommon) : ℕ := (c.romAddr &&& r.romMask).toNat / 0x1000

/-- The offsets of the bytes of the next word. -/
def offsets (r : CartROM) (c : CartCommon) : List ℕ :=
  (List.range 4).map fun j => c.page r * 0x1000 + (c.romAddr.toNat + j) % 0x1000

/-- The ROM data command of KEY2 mode is in effect. -/
def answersData (c : CartCommon) : Prop :=
  c.resetState = false ∧ c.cmdEncMode = 2 ∧ c.romCmd 0 = 0xB7

/-- What may be read in KEY2 mode. -/
def Readable (r : CartROM) (dsiMode : Bool) (offset : ℕ) : Prop :=
  0x8000 ≤ offset ∧ offset < r.romLength ∧
    (r.isDSi = true → dsiMode = false → offset < r.dsiBase.toNat) ∧
    (r.isDSi = true → dsiMode = true →
      ¬(r.dsiBase.toNat ≤ offset ∧ offset < r.dsiBase.toNat + 0x3000))

/-- `n` words are received. -/
def receiveWords (r : CartROM) : ℕ → CartCommon → List U32 × CartCommon
  | 0, c => ([], c)
  | n + 1, c =>
    let (w, c) := c.romCommandReceive r
    let (ws, c) := receiveWords r n c
    (w :: ws, c)

end CartCommon

/-! ## Carts of the claimed size -/

/-- The ROM length is a power of two of at least 64 KiB, and the DSi region starts behind the
secure area. -/
structure CartROM.Regular (r : CartROM) : Prop where
  length : ∃ k, 16 ≤ k ∧ k < 32 ∧ r.romLength = 2 ^ k
  aligned : 0x80000 ∣ r.dsiBase.toNat
  behind : r.isDSi = true → 0x8000 < r.dsiBase.toNat
  strict : r.lenientAddressing = false

theorem CartROM.regular_ofROM (rom : ℕ → U8) (chipID : U32) (badDSiDump : Bool) {k : ℕ}
    (hk : 16 ≤ k ∧ k < 32)
    (hbase : (ofROM rom (2 ^ k) chipID badDSiDump).isDSi = true →
      0x8000 < (ofROM rom (2 ^ k) chipID badDSiDump).dsiBase.toNat) :
    (ofROM rom (2 ^ k) chipID badDSiDump).Regular where
  length := ⟨k, hk.1, hk.2, rfl⟩
  aligned := by
    rw [ofROM, BitVec.toNat_shiftLeft, Nat.shiftLeft_eq]
    exact (Nat.dvd_mod_iff (by decide)).mpr (Nat.dvd_mul_left _ _)
  behind := hbase
  strict := rfl

namespace CartCommon

variable {r : CartROM} {c : CartCommon}

theorem toNat_and_romMask (hr : r.Regular) (addr : U32) :
    (addr &&& r.romMask).toNat = addr.toNat % r.romLength := by
  obtain ⟨k, -, hk, hlength⟩ := hr.length
  have hlt : 2 ^ k < 2 ^ 32 := Nat.pow_lt_pow_right (by decide) hk
  have hpos : 0 < 2 ^ k := Nat.two_pow_pos k
  have hmask : r.romMask.toNat = 2 ^ k - 1 := by
    rw [CartROM.romMask, hlength, BitVec.toNat_sub, BitVec.toNat_ofNat, Nat.mod_eq_of_lt hlt]
    change (2 ^ 32 - 1 + 2 ^ k) % 2 ^ 32 = _
    omega
  rw [BitVec.toNat_and, hmask, Nat.and_two_pow_sub_one_eq_mod, hlength]

theorem pages_dvd (hr : r.Regular) : 0x10000 ∣ r.romLength ∧ 0 < r.romLength := by
  obtain ⟨k, hk, -, hlength⟩ := hr.length
  rw [hlength]
  exact ⟨Nat.pow_dvd_pow 2 hk, Nat.two_pow_pos k⟩

/-- The whole page is in the ROM. -/
theorem page_lt (hr : r.Regular) (c : CartCommon) : c.page r * 0x1000 + 0x1000 ≤ r.romLength := by
  obtain ⟨⟨n, hn⟩, hpos⟩ := pages_dvd hr
  have hlt := Nat.mod_lt c.romAddr.toNat hpos
  rw [page, toNat_and_romMask hr]
  rw [hn] at hlt ⊢
  omega

theorem offsets_lt (hr : r.Regular) (c : CartCommon) : ∀ o ∈ c.offsets r, o < r.romLength := by
  intro o ho
  have hpage := page_lt hr c
  obtain ⟨j, -, rfl⟩ := List.mem_map.mp ho
  have hlow := Nat.mod_lt (c.romAddr.toNat + j) (by decide : 0 < 0x1000)
  omega

/-- A word is made of the bytes at `offsets`, and the address stays in the page. -/
theorem romRead32_eq (r : CartROM) (c : CartCommon) :
    (c.romRead32 r).1 = pageWord r.rom (c.page r) c.romAddr.toNat ∧
      (c.romRead32 r).2 =
        { c with
          romAddr := BitVec.ofNat 32 (c.page r * 0x1000 + (c.romAddr.toNat + 4) % 0x1000) } := by
  have hlow := Nat.mod_lt c.romAddr.toNat (by decide : 0 < 0x1000)
  constructor
  · exact (readPage_eq r.rom (c.page r) hlow).trans (pageWord_mod _ _ _)
  · rw [romRead32, ← Nat.mod_add_mod c.romAddr.toNat 0x1000 4]
    rfl

theorem toNat_romRead32 (hr : r.Regular) (c : CartCommon) :
    (c.romRead32 r).2.romAddr.toNat = c.page r * 0x1000 + (c.romAddr.toNat + 4) % 0x1000 := by
  have hpage := page_lt hr c
  obtain ⟨k, -, hk, hlength⟩ := hr.length
  have h32 : r.romLength < 2 ^ 32 := hlength ▸ Nat.pow_lt_pow_right (by decide) hk
  have hlow := Nat.mod_lt (c.romAddr.toNat + 4) (by decide : 0 < 0x1000)
  rw [(romRead32_eq r c).2, BitVec.toNat_ofNat, Nat.mod_eq_of_lt (by omega)]

/-- The next address is in the ROM and in the same page. -/
theorem romAddr_romRead32 (hr : r.Regular) (c : CartCommon) :
    (c.romRead32 r).2.romAddr.toNat < r.romLength ∧
      (c.romRead32 r).2.romAddr.toNat / 0x1000 = c.page r := by
  have hpage := page_lt hr c
  rw [toNat_romRead32 hr]
  omega

theorem page_romRead32 (hr : r.Regular) (c : CartCommon) :
    (c.romRead32 r).2.page r = c.page r ∧
      (c.romRead32 r).2.romAddr.toNat % 0x1000 = (c.romAddr.toNat + 4) % 0x1000 := by
  obtain ⟨hlt, hpage⟩ := romAddr_romRead32 hr c
  constructor
  · rw [page, toNat_and_romMask hr, Nat.mod_eq_of_lt hlt, hpage]
  · rw [toNat_romRead32 hr]
    omega

/-- The bounds of what is readable are bounds of pages. -/
theorem Readable.page {p q x : ℕ} {dsiMode : Bool} (hx : Readable r dsiMode (x * 0x1000 + p))
    (hr : r.Regular) (hp : p < 0x1000) (hq : q < 0x1000) :
    Readable r dsiMode (x * 0x1000 + q) := by
  obtain ⟨hlow, hlen, hds, hdsi⟩ := hx
  obtain ⟨⟨n, hn⟩, -⟩ := pages_dvd hr
  obtain ⟨m, hm⟩ := hr.aligned
  refine ⟨by omega, by omega, fun h h' => ?_, fun h h' => ?_⟩
  · have hlt := hds h h'
    omega
  · have hout := hdsi h h'
    omega

theorem Readable.pageStart {x : ℕ} {dsiMode : Bool} (hx : Readable r dsiMode x)
    (hr : r.Regular) : Readable r dsiMode (x / 0x1000 * 0x1000) := by
  have hlow : x % 0x1000 < 0x1000 := Nat.mod_lt x (by decide)
  rw [← Nat.div_add_mod' x 0x1000] at hx
  simpa using hx.page hr hlow (by decide : 0 < 0x1000)

/-! ## The redirection -/

theorem toNat_redirected (addr : U32) :
    0x8000 ≤ (0x8000 + (addr &&& 0x1FF)).toNat ∧ (0x8000 + (addr &&& 0x1FF)).toNat < 0x8200 := by
  have hlow : (addr &&& 0x1FF).toNat ≤ 0x1FF := by
    rw [BitVec.toNat_and]
    exact Nat.and_le_right
  rw [BitVec.toNat_add]
  change 0x8000 ≤ (0x8000 + _) % 2 ^ 32 ∧ (0x8000 + _) % 2 ^ 32 < 0x8200
  omega

theorem dsiBase_ge (hr : r.Regular) (hdsi : r.isDSi = true) :
    0x80000 ≤ r.dsiBase.toNat ∧ r.dsiBase.toNat + 0x3000 < 2 ^ 32 := by
  have hbehind := hr.behind hdsi
  have hlt := r.dsiBase.isLt
  obtain ⟨m, hm⟩ := hr.aligned
  omega

theorem readable_redirected (hr : r.Regular) (dsiMode : Bool) (addr : U32) :
    Readable r dsiMode (0x8000 + (addr &&& 0x1FF)).toNat := by
  have hat := toNat_redirected addr
  obtain ⟨hdvd, hpos⟩ := pages_dvd hr
  have hlarge := Nat.le_of_dvd hpos hdvd
  refine ⟨hat.1, by omega, fun hdsi _ => ?_, fun hdsi _ => ?_⟩
  · have hbase := dsiBase_ge hr hdsi
    omega
  · have hbase := dsiBase_ge hr hdsi
    omega

theorem readable_unblocked (hr : r.Regular) (dsiMode : Bool) {addr : U32}
    (hlow : 0x8000 ≤ addr.toNat) (hlen : addr.toNat < r.romLength) :
    Readable r dsiMode
      (if r.isDSi ∧ addr ≥ r.dsiBase ∧ (dsiMode = false ∨ addr < r.dsiBase + 0x3000) then
        0x8000 + (addr &&& 0x1FF)
      else addr).toNat := by
  split_ifs with hblocked
  · exact readable_redirected hr dsiMode addr
  · refine ⟨hlow, hlen, fun hdsi hds => ?_, fun hdsi hmode hin => ?_⟩
    · by_contra hge
      exact hblocked ⟨hdsi, BitVec.le_def.mpr (not_lt.mp hge), .inl hds⟩
    · have hend : (r.dsiBase + 0x3000).toNat = r.dsiBase.toNat + 0x3000 := by
        rw [BitVec.toNat_add]
        exact Nat.mod_eq_of_lt (dsiBase_ge hr hdsi).2
      have hbelow : addr < r.dsiBase + 0x3000 := by
        rw [BitVec.lt_def, hend]
        exact hin.2
      exact hblocked ⟨hdsi, BitVec.le_def.mpr hin.1, .inr hbelow⟩

/-- The address a data command starts from. -/
theorem readable_dataAddress (hr : r.Regular) (c : CartCommon) (addr : U32) :
    Readable r c.dsiMode (c.dataAddress addr r).toNat := by
  have hlt : (addr &&& r.romMask).toNat < r.romLength := by
    rw [toNat_and_romMask hr]
    exact Nat.mod_lt _ (pages_dvd hr).2
  have hfirst : 0x8000 ≤ (if addr &&& r.romMask < 0x8000 then
        0x8000 + ((addr &&& r.romMask) &&& 0x1FF) else addr &&& r.romMask).toNat ∧
      (if addr &&& r.romMask < 0x8000 then
        0x8000 + ((addr &&& r.romMask) &&& 0x1FF) else addr &&& r.romMask).toNat <
        r.romLength := by
    split_ifs with hlow
    · have hat := readable_redirected hr c.dsiMode (addr &&& r.romMask)
      exact ⟨hat.1, hat.2.1⟩
    · exact ⟨not_lt.mp fun hlt => hlow (BitVec.lt_def.mpr hlt), hlt⟩
  rw [dataAddress, hr.strict]
  exact readable_unblocked hr c.dsiMode hfirst.1 hfirst.2

/-- An address that needs no redirection. -/
theorem dataAddress_of_readable (hr : r.Regular) {addr : U32}
    (h : Readable r c.dsiMode addr.toNat) : c.dataAddress addr r = addr := by
  have hsame : addr &&& r.romMask = addr := by
    apply BitVec.eq_of_toNat_eq
    rw [toNat_and_romMask hr, Nat.mod_eq_of_lt h.2.1]
  have hhigh : ¬addr < 0x8000 := fun hlow => absurd (BitVec.lt_def.mp hlow) (not_lt.mpr h.1)
  have hfree : ¬(r.isDSi = true ∧ addr ≥ r.dsiBase ∧
      (c.dsiMode = false ∨ addr < r.dsiBase + 0x3000)) := by
    rintro ⟨hdsi, hbase, hmode⟩
    have hend : (r.dsiBase + 0x3000).toNat = r.dsiBase.toNat + 0x3000 := by
      rw [BitVec.toNat_add]
      exact Nat.mod_eq_of_lt (dsiBase_ge hr hdsi).2
    have hge := BitVec.le_def.mp hbase
    cases hds : c.dsiMode with
    | false => exact absurd (h.2.2.1 hdsi hds) (not_lt.mpr hge)
    | true =>
      rcases hmode with hoff | hin
      · exact Bool.false_ne_true (hoff.symm.trans hds)
      · exact h.2.2.2 hdsi hds ⟨hge, hend ▸ BitVec.lt_def.mp hin⟩
  rw [dataAddress, hr.strict, hsame]
  dsimp only
  rw [if_neg Bool.false_ne_true, if_neg hhigh, if_neg hfree]

/-! ## Confinement -/

/-- While a data command is answered, its page is readable. -/
def Confined (r : CartROM) (c : CartCommon) : Prop :=
  c.cmdEncMode = 2 → c.romCmd 0 = 0xB7 → Readable r c.dsiMode (c.page r * 0x1000)

theorem Confined.of_mode (h : c.cmdEncMode ≠ 2) : c.Confined r := fun hmode => absurd hmode h

theorem Confined.of_mode_zero (h : c.cmdEncMode = 0) : c.Confined r :=
  .of_mode (by rw [h]; decide)

theorem Confined.of_command (h : c.romCmd 0 ≠ 0xB7) : c.Confined r := fun _ hcmd => absurd hcmd h

theorem confined_build (resetState : Bool) : (build resetState).Confined r := .of_mode_zero rfl

theorem Confined.romRead32 (h : c.Confined r) (hr : r.Regular) :
    (c.romRead32 r).2.Confined r := by
  have hpage := (page_romRead32 hr c).1
  intro hmode hcmd
  rw [hpage]
  exact h hmode hcmd

/-- Receiving moves on in the ROM or changes nothing. -/
theorem romCommandReceive_snd (r : CartROM) (c : CartCommon) :
    (c.romCommandReceive r).2 = c ∨ (c.romCommandReceive r).2 = (c.romRead32 r).2 := by
  rw [CartCommon.romCommandReceive]
  split_ifs <;> simp

theorem Confined.romCommandReceive (h : c.Confined r) (hr : r.Regular) :
    (c.romCommandReceive r).2.Confined r := by
  rcases romCommandReceive_snd r c with hsame | hread
  · rw [hsame]
    exact h
  · rw [hread]
    exact h.romRead32 hr

theorem Confined.setResetState (h : c.Confined r) (held : Bool) :
    (c.setResetState held).Confined r := by
  rw [CartCommon.setResetState]
  split_ifs
  · exact h
  · exact .of_mode_zero rfl

theorem confined_reset (c : CartCommon) : c.reset.Confined r := .of_mode_zero rfl

theorem page_of_readable (hr : r.Regular) {dsiMode : Bool}
    (h : Readable r dsiMode c.romAddr.toNat) : c.page r = c.romAddr.toNat / 0x1000 := by
  rw [page, toNat_and_romMask hr, Nat.mod_eq_of_lt h.2.1]

theorem confined_dataCommand (hr : r.Regular) (c : CartCommon) (addr : U32) :
    ({ c with romAddr := c.dataAddress addr r } : CartCommon).Confined r := by
  intro _ _
  have hreadable := readable_dataAddress hr c addr
  rw [page_of_readable hr hreadable]
  exact hreadable.pageStart hr

theorem Confined.romCommandStart (h : c.Confined r) (hr : r.Regular)
    (decrypt : U32 × U32 → U32 × U32) (cmd : Fin 8 → U8) :
    (c.romCommandStart decrypt cmd r).Confined r := by
  have hone : (1 : U32) ≠ 2 := by decide
  have hzero : (0 : U32) ≠ 2 := by decide
  rw [CartCommon.romCommandStart]
  dsimp only
  by_cases hreset : c.resetState = true
  · rw [if_pos hreset]
    exact h
  rw [if_neg hreset]
  by_cases h0 : c.cmdEncMode = 0
  · have hmode : c.cmdEncMode ≠ 2 := h0 ▸ hzero
    rw [if_pos h0]
    split_ifs
    · exact .of_mode hmode
    · exact .of_mode hone
    · exact .of_mode hone
    · exact .of_mode hmode
  rw [if_neg h0]
  by_cases h1 : c.cmdEncMode = 1
  · have hmode : c.cmdEncMode ≠ 2 := h1 ▸ hone
    rw [if_pos h1]
    split_ifs with h40 h20 hdsi ha0
    · exact .of_mode hmode
    · exact .of_mode hmode
    · exact .of_mode hmode
    · refine .of_command fun hb7 => ?_
      change decryptCommand decrypt cmd 0 = 0xB7 at hb7
      rw [hb7] at ha0
      exact absurd ha0 (by decide)
    · exact .of_mode hmode
  rw [if_neg h1]
  split_ifs with h2 hb7
  · exact confined_dataCommand hr { c with romCmd := cmd } _
  · exact .of_command hb7
  · exact h

theorem Confined.readable (h : c.Confined r) (hr : r.Regular) (hdata : c.answersData) :
    ∀ o ∈ c.offsets r, Readable r c.dsiMode o := by
  intro o ho
  obtain ⟨j, -, rfl⟩ := List.mem_map.mp ho
  have hstart : Readable r c.dsiMode (c.page r * 0x1000 + 0) := by
    rw [Nat.add_zero]
    exact h hdata.2.1 hdata.2.2
  exact hstart.page hr (by decide) (Nat.mod_lt _ (by decide))

theorem romCommandReceive_of_answersData (h : c.answersData) :
    c.romCommandReceive r = c.romRead32 r := by
  obtain ⟨hreset, hmode, hcmd⟩ := h
  have h0 : c.cmdEncMode ≠ 0 := by rw [hmode]; decide
  have h1 : c.cmdEncMode ≠ 1 := by rw [hmode]; decide
  rw [CartCommon.romCommandReceive, if_neg (by simp [hreset]), if_neg h0, if_neg h1, if_pos hmode,
    if_pos hcmd]

/-! ## Words of one command -/

theorem answersData.romRead32 (h : c.answersData) : (c.romRead32 r).2.answersData := h

/-- The words received follow each other in the page. -/
theorem receiveWords_eq (hr : r.Regular) (n : ℕ) (hdata : c.answersData) :
    (receiveWords r n c).1 =
      (List.range n).map fun i => pageWord r.rom (c.page r) (c.romAddr.toNat + 4 * i) := by
  induction n generalizing c with
  | zero => rfl
  | succ n ih =>
    obtain ⟨hpage, hlow⟩ := page_romRead32 hr c
    have hrest := ih (c := (c.romRead32 r).2) hdata.romRead32
    rw [receiveWords, romCommandReceive_of_answersData hdata, List.range_succ_eq_map,
      List.map_cons, List.map_map]
    dsimp only
    rw [hrest, hpage, (romRead32_eq r c).1]
    congr 1
    apply List.map_congr_left
    intro i _
    rw [Function.comp_apply, ← pageWord_mod, Nat.add_mod, hlow, ← Nat.add_mod, pageWord_mod]
    congr 1
    omega

/-- A data command at an address that needs no redirection. -/
theorem romCommandStart_of_readable (hr : r.Regular) (decrypt : U32 × U32 → U32 × U32)
    {cmd : Fin 8 → U8} (hreset : c.resetState = false) (hmode : c.cmdEncMode = 2)
    (hcmd : cmd 0 = 0xB7) (hallowed : Readable r c.dsiMode (commandAddress cmd).toNat) :
    c.romCommandStart decrypt cmd r =
      { c with romCmd := cmd, romAddr := commandAddress cmd } := by
  have h0 : c.cmdEncMode ≠ 0 := by rw [hmode]; decide
  have h1 : c.cmdEncMode ≠ 1 := by rw [hmode]; decide
  have haddr : CartCommon.dataAddress (commandAddress cmd) r { c with romCmd := cmd } =
      commandAddress cmd := by
    apply dataAddress_of_readable hr
    exact hallowed
  rw [CartCommon.romCommandStart, if_neg (by simp [hreset]), if_neg h0, if_neg h1, if_pos hmode]
  dsimp only
  rw [if_pos hcmd, haddr]

theorem receiveWords_dataCommand (hr : r.Regular) (decrypt : U32 × U32 → U32 × U32)
    {cmd : Fin 8 → U8} (n : ℕ) (hreset : c.resetState = false) (hmode : c.cmdEncMode = 2)
    (hcmd : cmd 0 = 0xB7) (hallowed : Readable r c.dsiMode (commandAddress cmd).toNat) :
    (receiveWords r n (c.romCommandStart decrypt cmd r)).1 =
      (List.range n).map fun i =>
        pageWord r.rom ((commandAddress cmd).toNat / 0x1000)
          ((commandAddress cmd).toNat + 4 * i) := by
  have hstart := romCommandStart_of_readable hr decrypt hreset hmode hcmd hallowed
  have hdata : (c.romCommandStart decrypt cmd r).answersData := by
    rw [hstart]
    exact ⟨hreset, hmode, hcmd⟩
  have hpage : (c.romCommandStart decrypt cmd r).page r = (commandAddress cmd).toNat / 0x1000 := by
    rw [hstart]
    exact page_of_readable hr hallowed
  rw [receiveWords_eq hr n hdata, hpage, hstart]

end CartCommon

/-! ## Calls on the bus -/

/-- What the slot asks of a cart. Direct boot comes after a reset, out of the reset state. -/
inductive ROMCall
  | command (decrypt : U32 × U32 → U32 × U32) (cmd : Fin 8 → U8)
  | receive
  | transmit (val : U32)
  | setResetState (held : Bool)
  | reset
  | directBoot (dsi : Bool)

namespace ROMCall

def onCommon (r : CartROM) (c : CartCommon) : ROMCall → CartCommon
  | command decrypt cmd => c.romCommandStart decrypt cmd r
  | receive => (c.romCommandReceive r).2
  | transmit _ => c
  | setResetState held => c.setResetState held
  | reset => c.reset
  | directBoot dsi => (c.reset.setResetState false).setupDirectBoot dsi r

theorem confined_onCommon {r : CartROM} {c : CartCommon} (h : c.Confined r) (hr : r.Regular)
    (call : ROMCall) : (call.onCommon r c).Confined r := by
  cases call with
  | command decrypt cmd => exact h.romCommandStart hr decrypt cmd
  | receive => exact h.romCommandReceive hr
  | transmit val => exact h
  | setResetState held => exact h.setResetState held
  | reset => exact CartCommon.confined_reset c
  | directBoot dsi => exact .of_command (by decide : (0 : U8) ≠ 0xB7)

theorem confined_run {r : CartROM} (hr : r.Regular) (calls : List ROMCall) {c : CartCommon}
    (h : c.Confined r) : (calls.foldl (onCommon r) c).Confined r := by
  induction calls generalizing c with
  | nil => exact h
  | cons call calls ih => exact ih (confined_onCommon h hr call)

def onNAND (c : CartRetailNAND) : ROMCall → CartRetailNAND
  | command decrypt cmd => c.romCommandStart decrypt cmd
  | receive => c.romCommandReceive.2
  | transmit val => c.romCommandTransmit val
  | setResetState held => { c with common := c.common.setResetState held }
  | reset => c.reset
  | directBoot dsi =>
    { c.reset with
      common := (c.reset.common.setResetState false).setupDirectBoot dsi c.reset.rom }

end ROMCall

/-! ## Carts with NAND backup -/

namespace CartRetailNAND

/-- In ROM mode the page of a data command is readable. -/
structure ROMConfined (r : CartROM) (c : CartRetailNAND) : Prop where
  sameROM : c.rom = r
  confined : c.sramWindow = 0 → c.common.Confined r

variable {r : CartROM} {c : CartRetailNAND}

/-- A command that is no data command leaves nothing to confine. -/
theorem ROMConfined.of_command (hrom : c.rom = r) (h : c.common.romCmd 0 ≠ 0xB7) :
    c.ROMConfined r := ⟨hrom, fun _ => .of_command h⟩

theorem writeData_frame (addr : ℕ) (c : CartRetailNAND) :
    (c.writeData addr).rom = c.rom ∧ (c.writeData addr).common = c.common := by
  rw [writeData]
  split_ifs <;> simp

/-- In KEY2 mode the command replaces the one before it. -/
theorem romCommandStart_romCmd (decrypt : U32 × U32 → U32 × U32) (cmd : Fin 8 → U8)
    {common : CartCommon} (hreset : common.resetState = false) (hmode : common.cmdEncMode = 2) :
    CartCommon.romCommandStart decrypt cmd r { common with romCmd := cmd } =
      common.romCommandStart decrypt cmd r := by
  simp [CartCommon.romCommandStart, hreset, hmode, CartCommon.dataAddress]

theorem ROMConfined.commonCommandStart (h : c.ROMConfined r) (hr : r.Regular)
    (decrypt : U32 × U32 → U32 × U32) (cmd : Fin 8 → U8) :
    (c.commonCommandStart decrypt cmd).ROMConfined r where
  sameROM := h.sameROM
  confined hwindow := by
    rw [CartRetailNAND.commonCommandStart, h.sameROM]
    exact (h.confined hwindow).romCommandStart hr decrypt cmd

theorem ROMConfined.romCommandStart (h : c.ROMConfined r) (hr : r.Regular)
    (decrypt : U32 × U32 → U32 × U32) (cmd : Fin 8 → U8) :
    (c.romCommandStart decrypt cmd).ROMConfined r := by
  have hrom := h.sameROM
  rw [CartRetailNAND.romCommandStart]
  dsimp only
  by_cases hreset : c.common.resetState = true
  · rw [if_pos hreset]
    exact h
  rw [if_neg hreset]
  by_cases hmode : c.common.cmdEncMode ≠ 2
  · rw [if_pos hmode]
    exact h.commonCommandStart hr decrypt cmd
  rw [if_neg hmode]
  -- the common part sees the command that replaced the last one
  have hcommon : CartRetailNAND.commonCommandStart decrypt cmd
      { c with common := { c.common with romCmd := cmd } } = c.commonCommandStart decrypt cmd := by
    rw [CartRetailNAND.commonCommandStart, CartRetailNAND.commonCommandStart,
      romCommandStart_romCmd decrypt cmd (Bool.eq_false_of_not_eq_true hreset) (not_not.mp hmode)]
  rw [hcommon]
  have hframe := writeData_frame (commandAddress cmd).toNat
    { c with common := { c.common with romCmd := cmd } }
  by_cases h81 : cmd 0 = 0x81
  · rw [if_pos h81]
    refine .of_command (hframe.1.trans hrom) ?_
    rw [hframe.2]
    change cmd 0 ≠ 0xB7
    rw [h81]
    decide
  rw [if_neg h81]
  by_cases hb7 : cmd 0 = 0xB7
  · simp only [hb7, reduceIte, BitVec.reduceEq]
    by_cases hwindow : c.sramWindow = 0
    · rw [if_pos hwindow]
      exact h.commonCommandStart hr decrypt cmd
    · rw [if_neg hwindow]
      exact ⟨hrom, fun hzero => absurd hzero hwindow⟩
  rw [if_neg hb7]
  split_ifs <;>
    first | exact .of_command hrom hb7 | exact h.commonCommandStart hr decrypt cmd

theorem ROMConfined.commonCommandReceive (h : c.ROMConfined r) (hr : r.Regular) :
    c.commonCommandReceive.2.ROMConfined r where
  sameROM := h.sameROM
  confined hwindow := by
    rw [CartRetailNAND.commonCommandReceive, h.sameROM]
    exact (h.confined hwindow).romCommandReceive hr

theorem sramRead32_snd (c : CartRetailNAND) :
    ∃ addr, c.sramRead32.2 = { c with sramAddr := addr } := ⟨_, rfl⟩

theorem ROMConfined.sramRead32 (h : c.ROMConfined r) (hwindow : c.sramWindow ≠ 0) :
    c.sramRead32.2.ROMConfined r := by
  obtain ⟨addr, hread⟩ := sramRead32_snd c
  rw [hread]
  exact ⟨h.sameROM, fun hzero => absurd hzero hwindow⟩

/-- Reading the ID moves on in it. -/
theorem ROMConfined.idRead (h : c.ROMConfined r) (h94 : c.common.romCmd 0 = 0x94) (addr : U32) :
    ({ c with common := { c.common with romAddr := addr } } : CartRetailNAND).ROMConfined r := by
  refine .of_command h.sameROM ?_
  rw [h94]
  decide

theorem ROMConfined.romCommandReceive (h : c.ROMConfined r) (hr : r.Regular) :
    c.romCommandReceive.2.ROMConfined r := by
  have hcommon := h.commonCommandReceive hr
  rw [CartRetailNAND.romCommandReceive]
  by_cases hreset : c.common.resetState = true
  · rw [if_pos hreset]
    exact h
  rw [if_neg hreset]
  by_cases hmode : c.common.cmdEncMode ≠ 2
  · rw [if_pos hmode]
    exact hcommon
  rw [if_neg hmode]
  by_cases h94 : c.common.romCmd 0 = 0x94
  · rw [if_pos h94]
    by_cases hend : c.common.romAddr ≥ 0x30
    · rw [if_pos hend]
      exact h
    · rw [if_neg hend]
      exact h.idRead h94 _
  rw [if_neg h94]
  by_cases hb7 : c.common.romCmd 0 = 0xB7
  · rw [if_pos hb7]
    by_cases hwindow : c.sramWindow = 0
    · rw [if_pos hwindow]
      split_ifs
      · exact h
      · exact hcommon
    · rw [if_neg hwindow]
      split_ifs
      · exact h
      · exact h.sramRead32 hwindow
  rw [if_neg hb7]
  split_ifs
  · exact h
  · exact hcommon

theorem ROMConfined.romCommandTransmit (h : c.ROMConfined r) (val : U32) :
    (c.romCommandTransmit val).ROMConfined r := by
  rw [CartRetailNAND.romCommandTransmit]
  split_ifs
  · exact h
  all_goals exact ⟨h.sameROM, h.confined⟩

theorem romConfined_reset (hrom : c.rom = r) : c.reset.ROMConfined r :=
  ⟨hrom, fun _ => .of_mode_zero rfl⟩

theorem romConfined_build (resetState : Bool) (saveMemType : ℕ) (sram : Option (List U8))
    (r : CartROM) : (build resetState saveMemType sram r).ROMConfined r := by
  rw [build, buildSRAMID]
  split_ifs <;> exact ⟨rfl, fun _ => .of_mode_zero rfl⟩

/-- `n` words are received. -/
def receiveWords : ℕ → CartRetailNAND → List U32 × CartRetailNAND
  | 0, c => ([], c)
  | n + 1, c =>
    let (w, c) := c.romCommandReceive
    let (ws, c) := receiveWords n c
    (w :: ws, c)

/-- The page an address is in holds no save memory. -/
def PageIsROM (c : CartRetailNAND) (addr : ℕ) : Prop :=
  ∀ o, o / 0x1000 = addr / 0x1000 →
    ¬(c.sramBase ≤ o ∧ o < (c.sramBase + c.sramLength) % 2 ^ 32)

/-- In ROM mode the common part answers, but for the addresses of the save memory. -/
theorem romCommandReceive_of_answersData (hdata : c.common.answersData)
    (hwindow : c.sramWindow = 0) :
    c.romCommandReceive =
      if c.sramBase ≤ c.common.romAddr.toNat ∧
          c.common.romAddr.toNat < (c.sramBase + c.sramLength) % 2 ^ 32 then (0xFFFFFFFF, c)
      else c.commonCommandReceive := by
  obtain ⟨hreset, hmode, hcmd⟩ := hdata
  have h94 : c.common.romCmd 0 ≠ 0x94 := by rw [hcmd]; decide
  rw [CartRetailNAND.romCommandReceive, if_neg (by simp [hreset]), if_neg (not_not.mpr hmode),
    if_neg h94, if_pos hcmd, if_pos hwindow]

/-- In SRAM mode the ROM is not looked at. -/
theorem romCommandReceive_of_sram (hdata : c.common.answersData) (hwindow : c.sramWindow ≠ 0) :
    c.romCommandReceive = if c.sramAddr = 0 then (0xFFFFFFFF, c) else c.sramRead32 := by
  obtain ⟨hreset, hmode, hcmd⟩ := hdata
  have h94 : c.common.romCmd 0 ≠ 0x94 := by rw [hcmd]; decide
  rw [CartRetailNAND.romCommandReceive, if_neg (by simp [hreset]), if_neg (not_not.mpr hmode),
    if_neg h94, if_pos hcmd, if_neg hwindow]

/-- The words of a page that holds no save memory are those of the common part. -/
theorem receiveWords_eq_common (hr : r.Regular) (n : ℕ) (hrom : c.rom = r)
    (hdata : c.common.answersData) (hwindow : c.sramWindow = 0)
    (haddr : c.common.romAddr.toNat < r.romLength)
    (hpage : c.PageIsROM c.common.romAddr.toNat) :
    (receiveWords n c).1 = (c.common.receiveWords r n).1 := by
  induction n generalizing c with
  | zero => rfl
  | succ n ih =>
    have hreceive : c.romCommandReceive =
        ((c.common.romRead32 r).1, { c with common := (c.common.romRead32 r).2 }) := by
      rw [romCommandReceive_of_answersData hdata hwindow, if_neg (hpage _ rfl),
        CartRetailNAND.commonCommandReceive, hrom,
        CartCommon.romCommandReceive_of_answersData hdata]
    obtain ⟨hsame, -⟩ := CartCommon.page_romRead32 hr c.common
    have hnext := CartCommon.romAddr_romRead32 hr c.common
    have hthis : c.common.page r = c.common.romAddr.toNat / 0x1000 := by
      rw [CartCommon.page, CartCommon.toNat_and_romMask hr, Nat.mod_eq_of_lt haddr]
    have hrest := ih (c := { c with common := (c.common.romRead32 r).2 }) hrom hdata.romRead32
      hwindow hnext.1 fun o ho => hpage o (ho.trans (hnext.2.trans hthis))
    rw [receiveWords, CartCommon.receiveWords, hreceive,
      CartCommon.romCommandReceive_of_answersData hdata]
    exact congrArg (List.cons _) hrest

theorem receiveWords_dataCommand (hr : r.Regular) (decrypt : U32 × U32 → U32 × U32)
    {cmd : Fin 8 → U8} (n : ℕ) (hrom : c.rom = r) (hreset : c.common.resetState = false)
    (hmode : c.common.cmdEncMode = 2) (hcmd : cmd 0 = 0xB7) (hwindow : c.sramWindow = 0)
    (hallowed : CartCommon.Readable r c.common.dsiMode (commandAddress cmd).toNat)
    (hpage : c.PageIsROM (commandAddress cmd).toNat) :
    (receiveWords n (c.romCommandStart decrypt cmd)).1 =
      (List.range n).map fun i =>
        pageWord r.rom ((commandAddress cmd).toNat / 0x1000)
          ((commandAddress cmd).toNat + 4 * i) := by
  have hcommon :=
    CartCommon.romCommandStart_of_readable hr decrypt hreset hmode hcmd hallowed
  have hstart : c.romCommandStart decrypt cmd =
      { c with common := { c.common with romCmd := cmd, romAddr := commandAddress cmd } } := by
    rw [CartRetailNAND.romCommandStart, if_neg (by simp [hreset]), if_neg (not_not.mpr hmode)]
    simp only [hcmd, reduceIte, BitVec.reduceEq, if_pos hwindow,
      CartRetailNAND.commonCommandStart, hrom, romCommandStart_romCmd decrypt cmd hreset hmode,
      hcommon]
  have hdata : (c.romCommandStart decrypt cmd).common.answersData := by
    rw [hstart]
    exact ⟨hreset, hmode, hcmd⟩
  rw [← CartCommon.receiveWords_dataCommand hr decrypt n hreset hmode hcmd hallowed, hcommon,
    receiveWords_eq_common hr n (by rw [hstart]; exact hrom) hdata (by rw [hstart]; exact hwindow)
      (by rw [hstart]; exact hallowed.2.1) (by rw [hstart]; exact hpage), hstart]

end CartRetailNAND

namespace ROMCall

theorem romConfined_onNAND {r : CartROM} {c : CartRetailNAND} (h : c.ROMConfined r)
    (hr : r.Regular) (call : ROMCall) : (call.onNAND c).ROMConfined r := by
  cases call with
  | command decrypt cmd => exact h.romCommandStart hr decrypt cmd
  | receive => exact h.romCommandReceive hr
  | transmit val => exact h.romCommandTransmit val
  | setResetState held => exact ⟨h.sameROM, fun hwindow => (h.confined hwindow).setResetState held⟩
  | reset => exact CartRetailNAND.romConfined_reset h.sameROM
  | directBoot dsi => exact .of_command h.sameROM (by decide : (0 : U8) ≠ 0xB7)

theorem romConfined_run {r : CartROM} (hr : r.Regular) (calls : List ROMCall) {c : CartRetailNAND}
    (h : c.ROMConfined r) : (calls.foldl onNAND c).ROMConfined r := by
  induction calls generalizing c with
  | nil => exact h
  | cons call calls ih => exact ih (romConfined_onNAND h hr call)

end ROMCall

/-! ## The result -/

/-- What a cart lets out in any state that calls on the bus lead to: its reads are in the ROM, in
KEY2 mode they are readable, and words from a readable address run round its page. With NAND
backup the addresses of the save memory are not answered from the ROM. -/
theorem rom_read_confined (rom : ℕ → U8) (k : ℕ) (chipID : U32) (badDSiDump : Bool)
    (hk : 16 ≤ k ∧ k < 32) (r : CartROM) (hr : r = .ofROM rom (2 ^ k) chipID badDSiDump)
    (hbase : r.isDSi = true → 0x8000 < r.dsiBase.toNat) (held : Bool) (calls : List ROMCall) :
    (∀ c : CartCommon, c = calls.foldl (ROMCall.onCommon r) (.build held) →
      (c.romRead32 r).1 = pageWord r.rom (c.page r) c.romAddr.toNat ∧
      (∀ o ∈ c.offsets r, o < r.romLength) ∧
      (c.answersData →
        c.romCommandReceive r = c.romRead32 r ∧
          ∀ o ∈ c.offsets r, CartCommon.Readable r c.dsiMode o) ∧
      ∀ (decrypt : U32 × U32 → U32 × U32) (cmd : Fin 8 → U8) (n : ℕ),
        c.resetState = false → c.cmdEncMode = 2 → cmd 0 = 0xB7 →
        CartCommon.Readable r c.dsiMode (commandAddress cmd).toNat →
        (CartCommon.receiveWords r n (c.romCommandStart decrypt cmd r)).1 =
          (List.range n).map fun i =>
            pageWord r.rom ((commandAddress cmd).toNat / 0x1000)
              ((commandAddress cmd).toNat + 4 * i)) ∧
    ∀ (saveMemType : ℕ) (sram : Option (List U8)) (c : CartRetailNAND),
      c = calls.foldl ROMCall.onNAND (.build held saveMemType sram r) →
      (∀ o ∈ c.common.offsets r, o < r.romLength) ∧
      (c.common.answersData → c.sramWindow ≠ 0 →
        c.romCommandReceive = if c.sramAddr = 0 then (0xFFFFFFFF, c) else c.sramRead32) ∧
      (c.common.answersData → c.sramWindow = 0 →
        (c.romCommandReceive.1 = 0xFFFFFFFF ∨
          c.romCommandReceive.1 =
            pageWord r.rom (c.common.page r) c.common.romAddr.toNat) ∧
        ∀ o ∈ c.common.offsets r, CartCommon.Readable r c.common.dsiMode o) ∧
      ∀ (decrypt : U32 × U32 → U32 × U32) (cmd : Fin 8 → U8) (n : ℕ),
        c.common.resetState = false → c.common.cmdEncMode = 2 → cmd 0 = 0xB7 →
        c.sramWindow = 0 → CartCommon.Readable r c.common.dsiMode (commandAddress cmd).toNat →
        c.PageIsROM (commandAddress cmd).toNat →
        (CartRetailNAND.receiveWords n (c.romCommandStart decrypt cmd)).1 =
          (List.range n).map fun i =>
            pageWord r.rom ((commandAddress cmd).toNat / 0x1000)
              ((commandAddress cmd).toNat + 4 * i) := by
  have hregular : r.Regular := by
    rw [hr] at hbase ⊢
    exact CartROM.regular_ofROM rom chipID badDSiDump hk hbase
  constructor
  · intro c hc
    have hconfined : c.Confined r := by
      rw [hc]
      exact ROMCall.confined_run hregular calls (CartCommon.confined_build held)
    refine ⟨(CartCommon.romRead32_eq r c).1, CartCommon.offsets_lt hregular c, fun hdata => ?_, ?_⟩
    · exact ⟨CartCommon.romCommandReceive_of_answersData hdata, hconfined.readable hregular hdata⟩
    · intro decrypt cmd n hreset hmode hcmd hallowed
      exact CartCommon.receiveWords_dataCommand hregular decrypt n hreset hmode hcmd hallowed
  · intro saveMemType sram c hc
    have hconfined : c.ROMConfined r := by
      rw [hc]
      exact ROMCall.romConfined_run hregular calls
        (CartRetailNAND.romConfined_build held saveMemType sram r)
    refine ⟨CartCommon.offsets_lt hregular c.common, ?_, fun hdata hwindow => ⟨?_, ?_⟩, ?_⟩
    · exact CartRetailNAND.romCommandReceive_of_sram
    · rw [CartRetailNAND.romCommandReceive_of_answersData hdata hwindow]
      split_ifs
      · exact .inl rfl
      · right
        rw [CartRetailNAND.commonCommandReceive, hconfined.sameROM,
          CartCommon.romCommandReceive_of_answersData hdata, (CartCommon.romRead32_eq r _).1]
    · exact (hconfined.confined hwindow).readable hregular hdata
    · intro decrypt cmd n hreset hmode hcmd hwindow hallowed hpage
      exact CartRetailNAND.receiveWords_dataCommand hregular decrypt n hconfined.sameROM hreset
        hmode hcmd hwindow hallowed hpage

/-- Two words from 0x8FFC, the last one of its page, after direct boot of a ROM that holds the
low bytes of its offsets. -/
theorem rom_read_confined_wraps :
    let rom : ℕ → U8 := fun i => BitVec.ofNat 8 i
    let r := CartROM.ofROM rom (2 ^ 16) 0 false
    let cmd : Fin 8 → U8 := fun i => [0xB7, 0x00, 0x00, 0x8F, 0xFC, 0, 0, 0].getD i 0
    let c := ROMCall.onCommon r (.build true) (.directBoot true)
    (CartCommon.receiveWords r 2 (c.romCommandStart id cmd r)).1 = [0xFFFEFDFC, 0x03020100] := by
  intro rom r cmd c
  have hbase : r.isDSi = true → 0x8000 < r.dsiBase.toNat := by decide
  have hrun := rom_read_confined rom 16 0 false (by decide) r rfl hbase true [.directBoot true]
  have hallowed : CartCommon.Readable r c.dsiMode (commandAddress cmd).toNat :=
    ⟨by decide +kernel, by decide +kernel, by decide +kernel, by decide +kernel⟩
  exact ((hrun.1 c rfl).2.2.2 id cmd 2 rfl rfl rfl hallowed).trans (by decide +kernel)

end MelonDS.NDSCart

import MelonDS.Library.Trace
import MelonDS.NDSCart.RetailNAND
import MelonDS.NDSCart.SaveNotifications

/-!
# The read-only area of a NAND save memory

A commit is refused when its address is in the read-only area, but a page that starts less
than its size below is not, and neither is an address below the base, which only a savestate
can bring. Where every commit ends below the area, the copies stay inside the array, the
calls inside the save and the area keeps its bytes.
-/

namespace MelonDS.NDSCart

def nandLengths : List ℕ := [8192 * 1024, 16384 * 1024, 65536 * 1024]

theorem length_of_protocol : ∀ type < saveLengths.length, saveProtocol type = 4 →
    saveLengths.getD type 0 ∈ nandLengths := by
  decide

theorem not_nand_of_profile : ∀ profile < saveLengths.length, 11 ≤ profile →
    saveLengths.getD profile 0 ∉ nandLengths := by
  decide

theorem length_of_saveTypeForLength {length type : ℕ} (h : saveTypeForLength length = some type) :
    type < saveLengths.length ∧ saveLengths.getD type 0 = length := by
  obtain ⟨hlt, heq, -⟩ := List.findIdx?_eq_some_iff_getElem.mp h
  refine ⟨hlt, ?_⟩
  rw [List.getD_eq_getElem _ _ hlt]
  exact beq_iff_eq.mp heq

/-! ## What a savestate brings -/

namespace RetailRecord

variable {v : StateVersion} {type protocol : ℕ} {r r' : RetailRecord} {rest rest' : List U8}

theorem loadProfile_eq (h : r.loadProfile v type rest = some (r', rest')) :
    r'.length = r.length ∧ r'.profileRejected v type = false := by
  obtain ⟨p, -, hp⟩ := Option.bind_eq_some_iff.mp h
  dsimp only at hp
  split at hp
  · exact absurd hp (by simp)
  · next hno =>
    obtain ⟨rfl, -⟩ := Prod.mk.inj (Option.some.inj hp)
    exact ⟨rfl, (Bool.not_eq_true _).mp hno⟩

theorem length_loadLocks (h : r.loadLocks v protocol rest = some (r', rest')) :
    r'.length = r.length := by
  obtain ⟨p, -, hp⟩ := Option.bind_eq_some_iff.mp h
  dsimp only at hp
  split_ifs at hp <;> obtain ⟨rfl, -⟩ := Prod.mk.inj (Option.some.inj hp) <;> rfl

theorem length_loadStatus (h : r.loadStatus v protocol = some r') : r'.length = r.length := by
  rw [loadStatus] at h
  split_ifs at h <;> obtain rfl := Option.some.inj h <;> rfl

theorem length_loadPage (h : r.loadPage v protocol rest = some (r', rest')) :
    r'.length = r.length := by
  rw [loadPage] at h
  split_ifs at h
  · obtain ⟨p, -, hp⟩ := Option.map_eq_some_iff.mp h
    obtain ⟨rfl, -⟩ := Prod.mk.inj hp
    rfl
  · obtain ⟨rfl, -⟩ := Prod.mk.inj (Option.some.inj h)
    rfl

theorem length_loadWrite (h : r.loadWrite v protocol rest = some (r', rest')) :
    r'.length = r.length := by
  rw [loadWrite] at h
  split_ifs at h
  · simp only [Option.bind_eq_bind, Option.bind_eq_some_iff, Prod.exists] at h
    obtain ⟨_, _, -, _, _, -, _, _, -, _, _, -, _, _, -, _, _, -, h⟩ := h
    split_ifs at h
    obtain ⟨rfl, -⟩ := Prod.mk.inj (Option.some.inj h)
    rfl
  · obtain ⟨rfl, -⟩ := Prod.mk.inj (Option.some.inj h)
    rfl

theorem length_loadPower (h : r.loadPower v rest = some (r', rest')) : r'.length = r.length := by
  rw [loadPower] at h
  split_ifs at h
  · simp only [Option.bind_eq_bind, Option.bind_eq_some_iff, Prod.exists] at h
    obtain ⟨_, _, -, _, _, -, _, _, -, h⟩ := h
    split_ifs at h
    obtain ⟨rfl, -⟩ := Prod.mk.inj (Option.some.inj h)
    rfl
  · obtain ⟨rfl, -⟩ := Prod.mk.inj (Option.some.inj h)
    rfl

/-- A length of a NAND part leaves no room for a profile. -/
theorem protocol_eq_four (htype : saveTypeForLength r.length = some type)
    (hfour : saveProtocol type = 4) (hok : r.profileRejected v type = false) :
    r.protocol type = 4 := by
  obtain ⟨hlt, hlength⟩ := length_of_saveTypeForLength htype
  rw [protocol]
  by_cases hp : r.hasProfile = true
  · rw [profileRejected, if_pos hp] at hok
    simp only [Bool.or_eq_false_iff, decide_eq_false_iff_not, not_lt, not_le, bne_eq_false_iff_eq]
      at hok
    refine absurd (length_of_protocol type hlt hfour) ?_
    rw [hlength, ← hok.2]
    exact not_nand_of_profile r.profile hok.1.2 hok.1.1.2
  · rw [if_neg hp]
    exact hfour

end RetailRecord

namespace CartRetail

variable {c d : CartRetail} {v : StateVersion} {beyond : ℕ} {rest rest' : List U8}

theorem length_loadFields {length : ℕ} {r : RetailRecord}
    (h : c.loadFields v length rest = some (r, rest')) : r.length = length := by
  unfold loadFields at h
  dsimp only at h
  split_ifs at h
  all_goals
    simp only [Option.bind_eq_bind, Option.bind_eq_some_iff, Prod.exists] at h
    obtain ⟨_, _, -, _, _, -, _, _, -, _, _, -, _, _, -, _, _, -, h⟩ := h
    obtain ⟨rfl, -⟩ := Prod.mk.inj (Option.some.inj h)
    rfl

/-- A state that the cart of a NAND part accepts is the state of a NAND part. -/
theorem loading_nand (h : c.loadingDoSavestate v beyond rest = some (d, rest'))
    (hfour : c.sramType = 4) : ∃ common sram r, r.length ∈ nandLengths ∧
      d = c.restore common sram 4 r := by
  simp only [loadingDoSavestate, Option.bind_eq_bind, Option.bind_eq_some_iff, Prod.exists] at h
  obtain ⟨common, _, -, length, _, -, type, htype, h⟩ := h
  split_ifs at h with hno
  have hprotocol : saveProtocol type = 4 := by
    by_contra hne
    refine hno (.inl ?_)
    rw [decide_eq_true hfour, decide_eq_false hne]
    exact Bool.true_eq_false.mp
  simp only [Option.bind_eq_some_iff, Prod.exists] at h
  obtain ⟨sram, _, -, r₀, _, hfields, r₁, _, hprofile, r₂, _, hlocks, r₃, hstatus, r₄, _, hpage,
    r₅, _, hwrite, r₆, _, hpower, h⟩ := h
  obtain ⟨rfl, -⟩ := Prod.mk.inj (Option.some.inj h)
  obtain ⟨hlength, hok⟩ := RetailRecord.loadProfile_eq hprofile
  have hr₁ : r₁.length = length := hlength.trans (length_loadFields hfields)
  have hr₆ : r₆.length = length := by
    rw [RetailRecord.length_loadPower hpower, RetailRecord.length_loadWrite hwrite,
      RetailRecord.length_loadPage hpage, RetailRecord.length_loadStatus hstatus,
      RetailRecord.length_loadLocks hlocks, hr₁]
  obtain ⟨hlt, hfound⟩ := length_of_saveTypeForLength htype
  refine ⟨common, sram, r₆, ?_, ?_⟩
  · rw [hr₆, ← hfound]
    exact length_of_protocol type hlt hprotocol
  · rw [RetailRecord.protocol_eq_four (hr₁ ▸ htype) hprotocol hok]

/-! ## Sizes and calls -/

/-- The array of a NAND part, and calls inside the save. -/
structure NANDSized (c : CartRetail) : Prop where
  type : c.sramType = 4
  length : c.sramLength ∈ nandLengths
  file : c.sramLength ≤ c.sramFileLength
  inside : ∀ call ∈ c.calls, call.Inside

theorem lt_of_nandLengths {n : ℕ} (h : n ∈ nandLengths) : 0x20800 ≤ n ∧ n < 2 ^ 32 := by
  revert n
  decide

/-- The last 128 KiB of an array of `n` bytes hold what `BuildSRAMID` puts there. -/
def ReadOnly (n : ℕ) (sram : ℕ → U8) : Prop :=
  ∀ i < 0x20000, sram (n - 0x20000 + i) = readOnlyByte i

theorem readOnly_built {n : ℕ} (hn : 0x20000 ≤ n) (sram : ℕ → U8) : ReadOnly n fun i =>
    if n - 0x20000 ≤ i ∧ i < n then readOnlyByte (i - (n - 0x20000)) else sram i := by
  intro i hi
  dsimp only
  rw [if_pos (by omega), Nat.add_sub_cancel_left]

theorem ReadOnly.store {n offset : ℕ} {sram : ℕ → U8} (h : ReadOnly n sram) (buffer : ℕ → U8)
    (hoffset : offset + 0x20800 ≤ n) :
    ReadOnly n (PageCopy.store buffer sram ⟨offset, 0, 0x800⟩) := by
  intro i hi
  rw [PageCopy.store, if_neg (by dsimp only; omega)]
  exact h i hi

theorem inside_append {calls more : List SaveCall} (h : ∀ call ∈ calls, call.Inside)
    (hmore : ∀ call ∈ more, call.Inside) : ∀ call ∈ calls ++ more, call.Inside := fun call hcall =>
  (List.mem_append.mp hcall).elim (h call) (hmore call)

theorem NANDSized.build (resetState : Bool) {type : ℕ} (htype : 8 ≤ type ∧ type ≤ 10)
    (sram : Option (List U8)) : (build resetState type sram).NANDSized where
  type := by
    change saveProtocol (if type < 18 then type else 0) = 4
    rw [if_pos (show type < 18 by omega)]
    obtain rfl | rfl | rfl : type = 8 ∨ type = 9 ∨ type = 10 := by omega
    all_goals rfl
  length := by
    change saveLengths.getD (if type < 18 then type else 0) 0 ∈ nandLengths
    rw [if_pos (show type < 18 by omega)]
    obtain rfl | rfl | rfl : type = 8 ∨ type = 9 ∨ type = 10 := by omega
    all_goals decide
  file := le_max_left _ _
  inside := fun _ hcall => absurd hcall List.not_mem_nil

theorem NANDSized.setSaveMemory (h : c.NANDSized) (savedata : List U8) :
    (c.setSaveMemory savedata).NANDSized := by
  rw [CartRetail.setSaveMemory]
  dsimp only
  split
  · exact ⟨h.type, h.length, h.file, h.inside⟩
  · refine ⟨h.type, h.length, h.file, inside_append h.inside fun call hcall => ?_⟩
    rw [List.mem_singleton.mp hcall]
    exact (Nat.zero_add _).trans_le (Nat.min_le_right _ _)

theorem NANDSized.restore (h : c.NANDSized) (common : CartCommon) (sram : List U8)
    {r : RetailRecord} (hr : r.length ∈ nandLengths) : (c.restore common sram 4 r).NANDSized := by
  rw [CartRetail.restore]
  dsimp only
  split
  · exact ⟨rfl, hr, le_max_right _ _, h.inside⟩
  · refine ⟨rfl, hr, le_max_right _ _, inside_append h.inside fun call hcall => ?_⟩
    rw [List.mem_singleton.mp hcall]
    exact (Nat.zero_add _).trans_le (le_max_right _ _)

end CartRetail

namespace CartRetailNAND

open CartRetail (NANDSized lt_of_nandLengths)

variable {c d : CartRetailNAND}

/-- The sizes hold and the last 128 KiB are as `BuildSRAMID` leaves them. -/
structure Intact (c : CartRetailNAND) : Prop where
  sized : c.toCartRetail.NANDSized
  tail : CartRetail.ReadOnly c.sramLength c.sram

def memory (c : CartRetailNAND) : ℕ × ℕ × ℕ × (ℕ → U8) × List SaveCall :=
  (c.sramType, c.sramLength, c.sramFileLength, c.sram, c.calls)

theorem Intact.congr (h : c.Intact) (heq : d.memory = c.memory) : d.Intact := by
  simp only [memory, Prod.mk.injEq] at heq
  obtain ⟨htype, hlength, hfile, hsram, hcalls⟩ := heq
  refine ⟨⟨htype.trans h.sized.type, hlength ▸ h.sized.length, ?_, hcalls ▸ h.sized.inside⟩, ?_⟩
  · rw [hlength, hfile]
    exact h.sized.file
  · rw [hlength, hsram]
    exact h.tail

theorem intact_rebuilt (h : c.toCartRetail.NANDSized) {sram sramID : ℕ → U8}
    (htail : CartRetail.ReadOnly c.sramLength sram) :
    ({ c with sram := sram, sramID := sramID } : CartRetailNAND).Intact :=
  ⟨⟨h.type, h.length, h.file, h.inside⟩, htail⟩

theorem intact_buildSRAMID (h : c.toCartRetail.NANDSized) : c.buildSRAMID.Intact := by
  have hlen := lt_of_nandLengths h.length
  rw [buildSRAMID, if_pos (by omega)]
  exact intact_rebuilt h (CartRetail.readOnly_built (by omega) c.sram)

theorem intact_build (resetState : Bool) {type : ℕ} (htype : 8 ≤ type ∧ type ≤ 10)
    (sram : Option (List U8)) (rom : CartROM) : (build resetState type sram rom).Intact :=
  intact_buildSRAMID (.build resetState htype sram)

theorem Intact.setSaveMemory (h : c.Intact) (savedata : List U8) :
    (c.setSaveMemory savedata).Intact := by
  have hsized := h.sized.setSaveMemory savedata
  exact intact_buildSRAMID ⟨hsized.type, hsized.length, hsized.file, hsized.inside⟩

theorem Intact.loadingDoSavestate (h : c.Intact) {v : StateVersion} {beyond : ℕ}
    {rest rest' : List U8} (hd : c.loadingDoSavestate v beyond rest = some (d, rest')) :
    d.Intact := by
  simp only [CartRetailNAND.loadingDoSavestate, Option.bind_eq_bind, Option.bind_eq_some_iff,
    Prod.exists] at hd
  obtain ⟨retail, _, hretail, _, _, -, _, _, -, _, _, -, _, _, -, hd⟩ := hd
  split_ifs at hd
  all_goals
    simp only [Option.bind_eq_some_iff, Prod.exists] at hd
    obtain ⟨_, _, -, hd⟩ := hd
    split_ifs at hd
    obtain ⟨rfl, -⟩ := Prod.mk.inj (Option.some.inj hd)
    obtain ⟨common, sram, r, hr, rfl⟩ := CartRetail.loading_nand hretail h.sized.type
    exact intact_buildSRAMID (h.sized.restore common sram hr)

/-- Another array with the same end and other calls inside the save. -/
theorem Intact.store (h : c.Intact) {sram : ℕ → U8} {more : List SaveCall} {addr pos len : ℕ}
    {status : U8} (htail : CartRetail.ReadOnly c.sramLength sram)
    (hmore : ∀ call ∈ more, call.Inside) : Intact
      { c with
        sram := sram
        calls := c.calls ++ more
        sramAddr := addr
        sramWritePos := pos
        sramWriteLen := len
        sramStatus := status } :=
  ⟨⟨h.sized.type, h.sized.length, h.sized.file, CartRetail.inside_append h.sized.inside hmore⟩,
    htail⟩

/-! ## A commit -/

/-- The page that a commit stores reaches the read-only area, or lies outside the array. -/
def Overruns (c : CartRetailNAND) : Prop := c.commits ∧ c.sramLength < c.commitOffset + 0x20800

instance (c : CartRetailNAND) : Decidable c.Overruns := inferInstanceAs (Decidable (_ ∧ _))

/-- The copies go from inside the buffer to inside the array. -/
def Inside (c : CartRetailNAND) (p : PageCopy) : Prop :=
  p.offset + p.length ≤ c.sramLength ∧ p.source + p.length ≤ 0x800

theorem commitCopies_eq (h : c.Intact) (hno : ¬c.Overruns) : c.commitCopies = [] ∨
    c.commitOffset + 0x20800 ≤ c.sramLength ∧ c.commitCopies = [⟨c.commitOffset, 0, 0x800⟩] := by
  have hlen := lt_of_nandLengths h.sized.length
  rw [commitCopies]
  by_cases hc : c.commits
  · have hoffset : c.commitOffset + 0x20800 ≤ c.sramLength := by
      by_contra hlt
      exact hno ⟨hc, not_le.mp hlt⟩
    rw [if_pos hc, if_neg (by omega)]
    exact .inr ⟨hoffset, rfl⟩
  · exact .inl (if_neg hc)

theorem Intact.copies_inside (h : c.Intact) (hno : ¬c.Overruns) :
    ∀ p ∈ c.commitCopies, c.Inside p := by
  rcases c.commitCopies_eq h hno with hnil | ⟨hoffset, hpage⟩
  · rw [hnil]
    exact fun _ hp => absurd hp List.not_mem_nil
  · rw [hpage]
    intro p hp
    rw [List.mem_singleton.mp hp]
    exact ⟨by change c.commitOffset + 0x800 ≤ c.sramLength; omega, le_refl _⟩

theorem Intact.commitWrite (h : c.Intact) (hno : ¬c.Overruns) : c.commitWrite.Intact := by
  rcases c.commitCopies_eq h hno with hnil | ⟨hoffset, hpage⟩
  · refine h.congr ?_
    rw [CartRetailNAND.commitWrite, hnil]
    simp only [memory, List.foldl_nil, List.map_nil, List.append_nil]
  · have hlen := lt_of_nandLengths h.sized.length
    have hfile := h.sized.file
    rw [CartRetailNAND.commitWrite, hpage]
    refine h.store (h.tail.store c.sramWriteBuffer hoffset) fun call hcall => ?_
    rw [List.mem_singleton.mp hcall]
    exact (show c.commitOffset + 0x800 ≤ c.sramFileLength by omega)

/-! ## The other calls -/

theorem memory_romCommandTransmit (val : U32) (c : CartRetailNAND) :
    (c.romCommandTransmit val).memory = c.memory := by
  rw [romCommandTransmit]
  split <;> rfl

theorem memory_romCommandFinishLegacy (data : ℕ → U8) (len : ℕ) (c : CartRetailNAND) :
    (c.romCommandFinishLegacy data len).memory = c.memory := by
  have hwords (poss : List ℕ) (c : CartRetailNAND) : (poss.foldl (fun c pos =>
      c.romCommandTransmit (word data (4 * pos))) c).memory = c.memory := by
    induction poss generalizing c with
    | nil => rfl
    | cons pos poss ih => exact (ih _).trans (memory_romCommandTransmit _ c)
  rw [romCommandFinishLegacy]
  split_ifs
  · exact hwords _ c
  · rfl
  · rfl

theorem memory_sramAddr (c : CartRetailNAND) (addr : ℕ) :
    ({ c with sramAddr := addr } : CartRetailNAND).memory = c.memory := rfl

theorem memory_romCommandReceive (c : CartRetailNAND) :
    c.romCommandReceive.2.memory = c.memory := by
  rw [romCommandReceive]
  split_ifs
  · rfl
  · rfl
  · rfl
  · rfl
  · rfl
  · rfl
  · rfl
  · exact c.memory_sramAddr _
  · rfl
  · rfl

/-- Only command 82 touches the array. -/
theorem memory_romCommandStart (decrypt : U32 × U32 → U32 × U32) (cmd : Fin 8 → U8)
    (c : CartRetailNAND) (hno : c.common.resetState ∨ c.common.cmdEncMode ≠ 2 ∨ cmd 0 ≠ 0x82) :
    (c.romCommandStart decrypt cmd).memory = c.memory := by
  rw [romCommandStart]
  by_cases hreset : c.common.resetState = true
  · rw [if_pos hreset]
  rw [if_neg hreset]
  by_cases hmode : c.common.cmdEncMode ≠ 2
  · rw [if_pos hmode]
    rfl
  rw [if_neg hmode]
  have hcmd : cmd 0 ≠ 0x82 := (hno.resolve_left hreset).resolve_left hmode
  dsimp only
  rw [if_neg hcmd, writeData]
  split_ifs <;> rfl

end CartRetailNAND

namespace NANDOp

variable {c : CartRetailNAND}

/-- The commit command reaches the chip. -/
def Commits (c : CartRetailNAND) : NANDOp → Prop
  | .romCommandStart _ cmd =>
    c.common.resetState = false ∧ c.common.cmdEncMode = 2 ∧ cmd 0 = 0x82
  | _ => False

instance (c : CartRetailNAND) : (op : NANDOp) → Decidable (op.Commits c)
  | .romCommandStart _ _ => inferInstanceAs (Decidable (_ ∧ _))
  | .romCommandReceive | .romCommandTransmit _ | .romCommandFinishLegacy _ _ | .setResetState _
  | .setupDirectBoot _ | .reset | .cancelSave _ | .setSaveMemory _ | .loadSavestate _ _ _ =>
    inferInstanceAs (Decidable False)

instance (c : CartRetailNAND) : (op : NANDOp) → Decidable (op.Accepted c)
  | .loadSavestate v beyond rest =>
    inferInstanceAs (Decidable ((c.loadingDoSavestate v beyond rest).isSome = true))
  | .romCommandStart _ _ | .romCommandReceive | .romCommandTransmit _
  | .romCommandFinishLegacy _ _ | .setResetState _ | .setupDirectBoot _ | .reset | .cancelSave _
  | .setSaveMemory _ => inferInstanceAs (Decidable True)

/-- The copies that a call makes. -/
def copies (c : CartRetailNAND) (op : NANDOp) : List PageCopy :=
  if op.Commits c then c.commitCopies else []

def Overruns (c : CartRetailNAND) (op : NANDOp) : Prop := op.Commits c ∧ c.Overruns

instance (c : CartRetailNAND) (op : NANDOp) : Decidable (op.Overruns c) :=
  inferInstanceAs (Decidable (_ ∧ _))

theorem intact_apply (h : c.Intact) {op : NANDOp} (hno : ¬op.Overruns c) :
    (op.apply c).Intact := by
  cases op with
  | romCommandStart decrypt cmd =>
    by_cases hc : (NANDOp.romCommandStart decrypt cmd).Commits c
    · have hcommit : c.romCommandStart decrypt cmd =
          { c with common := { c.common with romCmd := cmd } }.commitWrite := by
        obtain ⟨hreset, hmode, hcmd⟩ := hc
        rw [CartRetailNAND.romCommandStart, if_neg (by rw [hreset]; exact Bool.false_ne_true),
          if_neg (not_not.mpr hmode)]
        dsimp only
        rw [if_neg (by rw [hcmd]; decide), if_pos hcmd]
      rw [apply, hcommit]
      exact CartRetailNAND.Intact.commitWrite (h.congr rfl) fun hover => hno ⟨hc, hover⟩
    · refine h.congr (CartRetailNAND.memory_romCommandStart decrypt cmd c ?_)
      by_contra hboth
      simp only [not_or, not_not, Bool.not_eq_true] at hboth
      exact hc hboth
  | romCommandReceive => exact h.congr c.memory_romCommandReceive
  | romCommandTransmit val => exact h.congr (c.memory_romCommandTransmit val)
  | romCommandFinishLegacy data len => exact h.congr (c.memory_romCommandFinishLegacy data len)
  | setResetState held => exact h.congr rfl
  | setupDirectBoot dsi => exact h.congr rfl
  | reset => exact h.congr rfl
  | cancelSave powerOff => exact h.congr rfl
  | setSaveMemory savedata => exact h.setSaveMemory savedata
  | loadSavestate v beyond rest =>
    rw [apply]
    cases hload : c.loadingDoSavestate v beyond rest with
    | none => exact h
    | some loaded => exact h.loadingDoSavestate hload

end NANDOp

/-- The cart after calls on a new one. -/
def CartRetailNAND.after (resetState : Bool) (saveMemType : ℕ) (sram : Option (List U8))
    (rom : CartROM) (ops : List NANDOp) : CartRetailNAND :=
  ops.foldl (fun c op => op.apply c) (build resetState saveMemType sram rom)

/-- Where no commit overruns, commits stay inside the array, calls inside the save, and the
read-only area keeps its bytes. -/
theorem CartRetailNAND.read_only_area (resetState : Bool) (saveMemType : ℕ)
    (htype : 8 ≤ saveMemType ∧ saveMemType ≤ 10) (sram : Option (List U8)) (rom : CartROM)
    (ops : List NANDOp)
    (hops : ∀ p ∈ trace (fun c op => NANDOp.apply c op) (build resetState saveMemType sram rom) ops,
      p.2.Accepted p.1 ∧ ¬p.2.Overruns p.1) :
    (∀ p ∈ trace (fun c op => NANDOp.apply c op) (build resetState saveMemType sram rom) ops,
        ∀ q ∈ p.2.copies p.1, p.1.Inside q) ∧
      (∀ call ∈ (after resetState saveMemType sram rom ops).calls, call.Inside) ∧
      ∀ i < 0x20000, (after resetState saveMemType sram rom ops).sram
        ((after resetState saveMemType sram rom ops).sramLength - 0x20000 + i) =
          readOnlyByte i := by
  have hbuild := intact_build resetState htype sram rom
  have hlast : (after resetState saveMemType sram rom ops).Intact :=
    foldl_invariant (P := Intact) (C := fun c op => ¬NANDOp.Overruns c op)
      (fun c op h hno => NANDOp.intact_apply h hno) hbuild fun p hp => (hops p hp).2
  refine ⟨fun p hp q hq => ?_, hlast.sized.inside, fun i hi => hlast.tail i hi⟩
  obtain ⟨hintact, hno⟩ := trace_invariant (P := Intact) (C := fun c op => ¬NANDOp.Overruns c op)
    (fun c op h hno => NANDOp.intact_apply h hno) hbuild (fun p hp => (hops p hp).2) p hp
  by_cases hc : p.2.Commits p.1
  · rw [NANDOp.copies, if_pos hc] at hq
    exact hintact.copies_inside (fun hover => hno ⟨hc, hover⟩) q hq
  · rw [NANDOp.copies, if_neg hc] at hq
    exact absurd hq List.not_mem_nil

/-- A cart whose save memory starts at 8 MiB. -/
def nandROM : CartROM :=
  ⟨fun i => if i = 0x96 then 0x40 else 0, 2 ^ 23, 0x080000C2, false, 0, false⟩

def command (a b c d e : U8) : NANDOp :=
  .romCommandStart id fun i => [a, b, c, d, e].getD i.val 0

/-- One word committed at an address, after a direct boot; the array is that of type 8. -/
def commitWord (a b c d : U8) : List NANDOp :=
  [.reset, .setResetState false, .setupDirectBoot false, command 0xB2 0x00 0xFC 0 0,
    command 0x85 0 0 0 0, command 0x81 a b c d, .romCommandTransmit 0x12345678,
    command 0x82 0 0 0 0]

theorem CartRetailNAND.read_only_area_commitWord :
    ((8 ≤ 8 ∧ 8 ≤ 10) ∧ ∀ p ∈ trace (fun c op => NANDOp.apply c op) (build false 8 none nandROM)
      (commitWord 0x00 0xFC 0x08 0x00), p.2.Accepted p.1 ∧ ¬p.2.Overruns p.1) ∧
      ∀ call ∈ (after false 8 none nandROM (commitWord 0x00 0xFC 0x08 0x00)).calls,
        call.Inside := by
  have hops : ∀ p ∈ trace (fun c op => NANDOp.apply c op) (build false 8 none nandROM)
      (commitWord 0x00 0xFC 0x08 0x00), p.2.Accepted p.1 ∧ ¬p.2.Overruns p.1 := by
    decide
  exact ⟨⟨by decide, hops⟩,
    (read_only_area false 8 ⟨by decide, by decide⟩ none nandROM _ hops).2.1⟩

/-- A page that starts one byte below the read-only area. -/
theorem CartRetailNAND.read_only_area_lost :
    ¬∀ i < 0x20000, (after false 8 none nandROM (commitWord 0x00 0xFD 0xFF 0xFF)).sram
      ((after false 8 none nandROM (commitWord 0x00 0xFD 0xFF 0xFF)).sramLength - 0x20000 + i) =
        readOnlyByte i := by
  intro h
  exact absurd (h 0 (by decide)) (by decide)

end MelonDS.NDSCart

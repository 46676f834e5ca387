import Mathlib.Data.List.Basic
import MelonDS.Library.RankedLoop
import MelonDS.Types

/-!
# The list of known games

`ReadROMParams` halves its step while it looks for a game code, and goes on one entry at a time
when the step has come down to nothing. Entries before `offset` are below the code at all times.
-/

namespace MelonDS.NDSCart

open RankedLoop

structure ROMListEntry where
  gameCode : U32
  romSize : U32
  saveMemType : U32
deriving DecidableEq

/-- What a search ends with; `outside` is a read at or past the end of the table. -/
inductive Lookup
  | found (params : ROMListEntry)
  | absent
  | outside
deriving DecidableEq

/-- The variables of the loop, 32 bits wide. -/
structure Search where
  offset : ℕ
  chkSize : ℕ

/-- The offset after an entry below the code. -/
def Search.forward (s : Search) : ℕ :=
  (s.offset + if s.chkSize = 0 then 1 else s.chkSize) % 2 ^ 32

/-- One turn of the loop. -/
def searchTurn (table : List ROMListEntry) (gamecode : U32) (s : Search) : Except Lookup Search :=
  match table[(s.offset + s.chkSize) % 2 ^ 32]? with
  | none => .error .outside
  | some curentry =>
    if curentry.gameCode = gamecode then .error (.found curentry)
    else if curentry.gameCode < gamecode then
      if table.length ≤ s.forward then .error .absent else .ok ⟨s.forward, s.chkSize / 2⟩
    else if s.chkSize = 0 then .error .absent
    else if table.length ≤ s.offset then .error .absent
    else .ok ⟨s.offset, s.chkSize / 2⟩

def searchStart (table : List ROMListEntry) : Search := ⟨0, table.length / 2 % 2 ^ 32⟩

variable {table : List ROMListEntry} {gamecode : U32} {s : Search}

def Increasing (table : List ROMListEntry) : Prop :=
  table.Pairwise fun a b => a.gameCode < b.gameCode

theorem Increasing.lt (h : Increasing table) {i j : ℕ} {a b : ROMListEntry} (hij : i < j)
    (ha : table[i]? = some a) (hb : table[j]? = some b) : a.gameCode < b.gameCode := by
  obtain ⟨hi, rfl⟩ := List.getElem?_eq_some_iff.mp ha
  obtain ⟨hj, rfl⟩ := List.getElem?_eq_some_iff.mp hb
  exact List.pairwise_iff_getElem.mp h i j hi hj hij

/-- Codes that increase leave room below themselves. -/
theorem Increasing.index_le (h : Increasing table) {i : ℕ} {a : ROMListEntry}
    (ha : table[i]? = some a) : i ≤ a.gameCode.toNat := by
  induction i generalizing a with
  | zero => exact Nat.zero_le _
  | succ i ih =>
    have hi := (List.getElem?_eq_some_iff.mp ha).1
    have hprev : table[i]? = some table[i] := List.getElem?_eq_getElem (by omega)
    have hlt : table[i].gameCode < a.gameCode := h.lt (Nat.lt_succ_self i) hprev ha
    exact Nat.lt_of_le_of_lt (ih hprev) (BitVec.lt_def.mp hlt)

theorem Increasing.length_le (h : Increasing table) : table.length ≤ 2 ^ 32 := by
  rcases Nat.eq_zero_or_pos table.length with h0 | hpos
  · omega
  · have hlast : table[table.length - 1]? = some table[table.length - 1] :=
      List.getElem?_eq_getElem (by omega)
    have hle := h.index_le hlast
    have hcode := table[table.length - 1].gameCode.isLt
    omega

/-- Between two turns. -/
structure Search.Sound (table : List ROMListEntry) (gamecode : U32) (s : Search) : Prop where
  inside : s.offset < table.length
  room : s.offset + 2 * s.chkSize ≤ table.length
  below : ∀ i a, i < s.offset → table[i]? = some a → a.gameCode < gamecode

theorem sound_start (h : Increasing table) (hne : table ≠ []) :
    (searchStart table).Sound table gamecode := by
  have hlength := h.length_le
  have hpos := List.length_pos_of_ne_nil hne
  have hhalf : (searchStart table).chkSize = table.length / 2 := Nat.mod_eq_of_lt (by omega)
  refine ⟨hpos, ?_, fun i a hi => absurd hi (Nat.not_lt_zero i)⟩
  rw [hhalf]
  change 0 + 2 * (table.length / 2) ≤ table.length
  omega

/-- The entry a turn looks at. -/
theorem Search.Sound.entry (hs : s.Sound table gamecode) (h : Increasing table) :
    ∃ a, table[(s.offset + s.chkSize) % 2 ^ 32]? = some a ∧
      table[s.offset + s.chkSize]? = some a := by
  have hlength := h.length_le
  have hinside := hs.inside
  have hroom := hs.room
  rw [Nat.mod_eq_of_lt (by omega)]
  exact ⟨_, List.getElem?_eq_getElem (by omega), List.getElem?_eq_getElem (by omega)⟩

/-- After an entry below the code the offset does not wrap. -/
theorem Search.Sound.forward_eq (hs : s.Sound table gamecode) (h : Increasing table)
    {a : ROMListEntry} (ha : table[s.offset + s.chkSize]? = some a) (hlt : a.gameCode < gamecode) :
    s.forward = s.offset + if s.chkSize = 0 then 1 else s.chkSize := by
  have hlength := h.length_le
  have hinside := hs.inside
  have hroom := hs.room
  refine Nat.mod_eq_of_lt ?_
  split_ifs with h0
  · have hindex := h.index_le ha
    have hcode := gamecode.isLt
    have hless := BitVec.lt_def.mp hlt
    omega
  · omega

/-- Everything before the new offset is below the code. -/
theorem Search.Sound.below_forward (hs : s.Sound table gamecode) (h : Increasing table)
    {a : ROMListEntry} (ha : table[s.offset + s.chkSize]? = some a) (hlt : a.gameCode < gamecode)
    {i : ℕ} {b : ROMListEntry} (hi : i < s.forward) (hb : table[i]? = some b) :
    b.gameCode < gamecode := by
  have hle : i ≤ s.offset + s.chkSize := by
    rw [hs.forward_eq h ha hlt] at hi
    split_ifs at hi with h0 <;> omega
  rcases Nat.lt_or_eq_of_le hle with hi | rfl
  · exact BitVec.lt_trans (h.lt hi hb ha) hlt
  · exact Option.some.inj (hb.symm.trans ha) ▸ hlt

/-- A turn that goes on. -/
theorem Search.Sound.step (h : Increasing table) (s s' : Search) (hs : s.Sound table gamecode)
    (hturn : searchTurn table gamecode s = .ok s') :
    s'.Sound table gamecode ∧
      s'.chkSize + (table.length - s'.offset) < s.chkSize + (table.length - s.offset) := by
  obtain ⟨a, hread, ha⟩ := hs.entry h
  have hinside := hs.inside
  have hroom := hs.room
  rw [searchTurn, hread] at hturn
  dsimp only at hturn
  split_ifs at hturn with hkey hlt hout h0 hout'
  · obtain rfl := Except.ok.inj hturn
    have hforward := hs.forward_eq h ha hlt
    refine ⟨⟨Nat.lt_of_not_le hout, ?_, fun i b => hs.below_forward h ha hlt⟩, ?_⟩
    all_goals
      dsimp only
      split_ifs at hforward <;> omega
  · obtain rfl := Except.ok.inj hturn
    refine ⟨⟨hinside, ?_, hs.below⟩, ?_⟩
    all_goals
      dsimp only
      omega

/-- The answer: the entry with the code, if there is one. -/
def lookup (table : List ROMListEntry) (gamecode : U32) : Lookup :=
  (table.find? fun a => a.gameCode = gamecode).elim .absent .found

theorem lookup_of_mem (h : Increasing table) {a : ROMListEntry} (ha : a ∈ table)
    (hcode : a.gameCode = gamecode) : lookup table gamecode = .found a := by
  rw [lookup]
  cases hfind : table.find? fun a => a.gameCode = gamecode with
  | none => exact absurd hcode (by simpa using List.find?_eq_none.mp hfind a ha)
  | some b =>
    have hb : b.gameCode = gamecode := by simpa using List.find?_some hfind
    obtain ⟨i, hi⟩ := List.mem_iff_getElem?.mp ha
    obtain ⟨j, hj⟩ := List.mem_iff_getElem?.mp (List.mem_of_find?_eq_some hfind)
    rcases Nat.lt_trichotomy i j with hij | rfl | hij
    · exact absurd (h.lt hij hi hj) (by rw [hcode, hb]; exact BitVec.lt_irrefl _)
    · exact congrArg Lookup.found (Option.some.inj (hj.symm.trans hi))
    · exact absurd (h.lt hij hj hi) (by rw [hcode, hb]; exact BitVec.lt_irrefl _)

theorem lookup_of_forall
    (habsent : ∀ (i : ℕ) (a : ROMListEntry), table[i]? = some a → a.gameCode ≠ gamecode) :
    lookup table gamecode = .absent := by
  rw [lookup, List.find?_eq_none.mpr]
  · rfl
  · intro a ha
    obtain ⟨i, hi⟩ := List.mem_iff_getElem?.mp ha
    simpa using habsent i a hi

/-- A turn that leaves. -/
theorem Search.Sound.exit (h : Increasing table) (s : Search) (r : Lookup)
    (hs : s.Sound table gamecode) (hturn : searchTurn table gamecode s = .error r) :
    r = lookup table gamecode := by
  obtain ⟨a, hread, ha⟩ := hs.entry h
  have hinside := hs.inside
  have hroom := hs.room
  rw [searchTurn, hread] at hturn
  dsimp only at hturn
  split_ifs at hturn with hkey hlt hout h0 hout'
  · obtain rfl := Except.error.inj hturn
    exact (lookup_of_mem h (List.mem_of_getElem? ha) hkey).symm
  · obtain rfl := Except.error.inj hturn
    refine (lookup_of_forall fun i b hb => ?_).symm
    have hi := (List.getElem?_eq_some_iff.mp hb).1
    exact BitVec.ne_of_lt (hs.below_forward h ha hlt (Nat.lt_of_lt_of_le hi hout) hb)
  · obtain rfl := Except.error.inj hturn
    rw [h0, Nat.add_zero] at ha
    have hgt : gamecode < a.gameCode :=
      BitVec.lt_of_le_ne (BitVec.not_lt.mp hlt) (Ne.symm hkey)
    refine (lookup_of_forall fun i b hb => ?_).symm
    rcases Nat.lt_trichotomy i s.offset with hi | rfl | hi
    · exact BitVec.ne_of_lt (hs.below i b hi hb)
    · exact Option.some.inj (hb.symm.trans ha) ▸ hkey
    · exact Ne.symm (BitVec.ne_of_lt (BitVec.lt_trans hgt (h.lt hi ha hb)))
  · exact absurd hinside (Nat.not_lt.mpr hout')

/-- The search ends, inside the table, with the entry of the code if the table has one. -/
theorem readROMParams_ends (table : List ROMListEntry) (gamecode : U32) (hne : table ≠ [])
    (h : Increasing table) :
    ∃ n, turns (searchTurn table gamecode) n (searchStart table) =
      .error ((table.find? fun a => a.gameCode = gamecode).elim .absent .found) := by
  have hstart : (searchStart table).Sound table gamecode := sound_start h hne
  obtain ⟨n, r, hend⟩ := exists_exit wellFounded_lt
    (fun s : Search => s.chkSize + (table.length - s.offset)) (Search.Sound.step h) hstart
  have hresult := turns_exit (fun s s' hs hturn => (Search.Sound.step h s s' hs hturn).1)
    (Search.Sound.exit h) hstart hend
  rw [hresult] at hend
  exact ⟨n, hend⟩

theorem readROMParams_ends_three :
    ∃ n, turns (searchTurn [⟨1, 0x100, 4⟩, ⟨5, 0x200, 8⟩, ⟨9, 0x400, 2⟩] 9) n
        (searchStart [⟨1, 0x100, 4⟩, ⟨5, 0x200, 8⟩, ⟨9, 0x400, 2⟩]) =
      .error (.found ⟨9, 0x400, 2⟩) :=
  readROMParams_ends [⟨1, 0x100, 4⟩, ⟨5, 0x200, 8⟩, ⟨9, 0x400, 2⟩] 9 nofun (by
    unfold Increasing
    decide)

end MelonDS.NDSCart

import MelonDS.ARDatabase.DatabaseFile

/-!
# What the readers of the cheat database touch

An entry is read inside its own part of the file, whatever that part holds, and what comes back
is a tree whose pointers to parents are right.
-/

namespace MelonDS.ARDatabaseDAT

open FileReader

variable {file : List U8} {lo hi stop : ℕ}

theorem confined_readData (hstop : stop ≤ hi) (size : ℕ) :
    Confined lo hi (readData file size stop) := by
  intro h hwithin
  rw [readData, tell_bind]
  by_cases hcheck : h.pos ≤ stop ∧ size ≤ stop - h.pos
  · rw [check_bind_of_true hcheck]
    split_ifs
    · exact hwithin
    · have hread : (read file size h).2.Within lo hi := read_within hwithin (by omega)
      rw [bind_of_some rfl]
      exact (confined_check _).bind (fun _ => confined_pure _) _ hread
  · rw [check_bind_of_false hcheck]
    exact hwithin

theorem confined_readWord (hstop : stop ≤ hi) : Confined lo hi (readWord file stop) :=
  (confined_readData hstop 4).bind fun _ => confined_pure _

theorem confined_alignFilePos (stop : ℕ) : Confined lo hi (alignFilePos stop) := by
  refine confined_tell_bind fun pos hpos => confined_check_bind fun _ => ?_
  refine confined_check_bind fun _ => ?_
  split_ifs
  · exact confined_pure ()
  · exact confined_seek (by omega)

/-- The string loop, chunk by chunk. -/
theorem readNTLoop_within (hstop : stop ≤ hi) (text : List U8) (h : Handle)
    (hwithin : h.Within lo hi) : (readNTLoop file stop text h).2.Within lo hi := by
  induction text, h using readNTLoop.induct file stop with
  | case1 text h hend =>
    rw [readNTLoop, dif_pos hend]
    exact hwithin
  | case2 text h hend count buffer hshort =>
    rw [readNTLoop, dif_neg hend, dif_pos hshort]
    exact read_within hwithin (by omega)
  | case3 text h hend count buffer hfull length hfound =>
    have hread : (read file count h).2.Within lo hi := read_within hwithin (by omega)
    have hpos := hwithin.pos
    rw [readNTLoop, dif_neg hend]
    dsimp only
    rw [dif_neg hfull, hfound]
    exact ⟨by change lo ≤ h.pos + length + 1; omega, hread.reads⟩
  | case4 text h hend count buffer h' hfull hnone ih =>
    have hread : (read file count h).2.Within lo hi := read_within hwithin (by omega)
    rw [readNTLoop, dif_neg hend]
    dsimp only
    rw [dif_neg hfull, hnone]
    exact ih hread

theorem confined_readNTString (hstop : stop ≤ hi) : Confined lo hi (readNTString file stop) :=
  fun h hwithin => readNTLoop_within hstop [] h hwithin

/-! ## Items -/

theorem confined_readItemEnd (isCat : Bool) (totallen stop : ℕ) :
    Confined lo hi (readItemEnd isCat totallen stop) := by
  rw [readItemEnd]
  split_ifs
  · exact confined_pure stop
  · exact confined_tell_bind fun _ _ => confined_check_bind fun _ => confined_pure _

theorem ensures_readItemEnd (isCat : Bool) (totallen stop : ℕ) :
    Ensures (readItemEnd isCat totallen stop) fun itemEnd => itemEnd ≤ stop := by
  rw [readItemEnd]
  split_ifs
  · exact ensures_pure (le_refl stop)
  · refine (ensures_true tell).bind fun pos _ => (ensures_check _).bind fun _ hcheck => ?_
    exact ensures_pure (by omega)

theorem confined_readCategory (totallen left : ℕ) (name description : List U8) (onlyOne : Bool)
    (s : Items) : Confined lo hi (readCategory totallen left name description onlyOne s) :=
  confined_check_bind fun _ => confined_pure _

theorem confined_readCode (hstop : stop ≤ hi) (name description : List U8) (enabled : Bool)
    (s : Items) : Confined lo hi (readCode file stop name description enabled s) := by
  refine (confined_readWord hstop).bind fun codelen => confined_tell_bind fun pos _ => ?_
  refine confined_check_bind fun _ => confined_check_bind fun _ => ?_
  exact (confined_readData hstop _).bind fun _ => confined_pure _

theorem confined_readItem (hstop : stop ≤ hi) (left : ℕ) (s : Items) :
    Confined lo hi (readItem file stop left s) := by
  refine (confined_readWord hstop).bind fun itemflags => ?_
  refine (confined_readItemEnd _ _ stop).bind_ensures (ensures_readItemEnd _ _ stop)
    fun itemEnd hend => ?_
  have hitem := Nat.le_trans hend hstop
  refine (confined_readNTString hitem).bind fun name => ?_
  refine (confined_readNTString hitem).bind fun description => ?_
  refine (confined_alignFilePos itemEnd).bind fun _ => ?_
  split_ifs
  · exact confined_readCategory _ _ _ _ _ _
  · exact confined_readCode hitem _ _ _ _

theorem confined_readItems (hstop : stop ≤ hi) (left : ℕ) (s : Items) :
    Confined lo hi (readItems file stop left s) := by
  induction left generalizing s with
  | zero => exact confined_pure s
  | succ left ih => exact (confined_readItem hstop left s).bind fun s => ih s

theorem confined_readBody {info : EntryInfo} (hend : info.endOffset ≤ hi) (name : List U8) :
    Confined lo hi (readBody file info name) := by
  refine (confined_readData hend 36).bind fun flags => confined_tell_bind fun itemsStart _ => ?_
  refine confined_check_bind fun _ => ?_
  exact (confined_readItems hend _ _).bind fun s => confined_check_bind fun _ => confined_pure _

/-- Loading an entry reads inside the entry only. -/
theorem loadCheatCodes_reads (file : List U8) (info : EntryInfo) :
    ∀ r ∈ (loadCheatCodes file info opened).2.reads,
      info.offset ≤ r.1 ∧ r.1 + r.2 ≤ info.endOffset := by
  rw [loadCheatCodes]
  by_cases hcheck : file.length ≤ 0xFFFFFFFF ∧ 0x100 ≤ info.offset ∧
      info.offset < info.endOffset ∧ info.endOffset ≤ file.length
  · rw [check_bind_of_true hcheck, bind_of_some rfl]
    have hbody : Confined info.offset info.endOffset (do
        let name ← readNTString file info.endOffset
        alignFilePos info.endOffset
        readBody file info name) :=
      (confined_readNTString (le_refl _)).bind fun name =>
        (confined_alignFilePos _).bind fun _ => confined_readBody (le_refl _) name
    exact (hbody ⟨info.offset, []⟩ ⟨le_refl _, fun _ hr => absurd hr List.not_mem_nil⟩).reads
  · rw [check_bind_of_false hcheck]
    exact fun _ hr => absurd hr List.not_mem_nil

/-! ## The index -/

theorem confined_readIndex (pos indexEnd : ℕ) (entries : List EntryInfo) (hend : indexEnd ≤ hi) :
    Confined lo hi (readIndex file pos indexEnd entries) := by
  induction pos, indexEnd, entries using readIndex.induct with
  | case1 pos indexEnd entries hpos ih =>
    rw [readIndex, dif_pos hpos]
    refine (confined_readData hend 16).bind fun data => ?_
    dsimp only
    split_ifs
    · exact confined_pure entries
    · exact confined_check_bind fun _ => ih data (Nat.le_trans (Nat.min_le_left _ _) hend)
  | case2 pos indexEnd entries hpos =>
    rw [readIndex, dif_neg hpos]
    exact confined_fail

theorem ensures_readIndex (pos indexEnd : ℕ) (entries : List EntryInfo)
    (hentries : ∀ e ∈ entries, 0x100 ≤ e.offset ∧ e.offset < file.length) :
    Ensures (readIndex file pos indexEnd entries)
      fun entries => ∀ e ∈ entries, 0x100 ≤ e.offset ∧ e.offset < file.length := by
  induction pos, indexEnd, entries using readIndex.induct with
  | case1 pos indexEnd entries hpos ih =>
    rw [readIndex, dif_pos hpos]
    refine (ensures_true _).bind fun data _ => ?_
    dsimp only
    split_ifs
    · exact ensures_pure hentries
    · refine (ensures_check _).bind fun _ hcheck => ih data fun e he => ?_
      rcases List.mem_append.mp he with he | he
      · exact hentries e he
      · rw [List.mem_singleton.mp he]
        exact hcheck.2.2
  | case2 pos indexEnd entries hpos =>
    rw [readIndex, dif_neg hpos]
    exact ensures_fail _

theorem endOf_bounds {entries : List EntryInfo} {e : EntryInfo}
    (hentries : ∀ e ∈ entries, 0x100 ≤ e.offset ∧ e.offset < file.length)
    (hoffset : e.offset < file.length) :
    e.offset < endOf file entries e ∧ endOf file entries e ≤ file.length := by
  rw [endOf]
  cases hfind : ((entries.map EntryInfo.offset).mergeSort).find? fun o => e.offset < o with
  | none => exact ⟨hoffset, le_refl _⟩
  | some o =>
    have hmem := List.mem_mergeSort.mp (List.mem_of_find?_eq_some hfind)
    have hlt : e.offset < o := by simpa using List.find?_some hfind
    obtain ⟨next, hnext, rfl⟩ := List.mem_map.mp hmem
    exact ⟨hlt, Nat.le_of_lt (hentries next hnext).2⟩

/-- Every entry of the index lies in the file, behind the header. -/
theorem ensures_loadEntries (file : List U8) :
    Ensures (loadEntries file) fun r => ∀ gameCode, ∀ e ∈ r.2 gameCode,
      0x100 ≤ e.offset ∧ e.offset < e.endOffset ∧ e.endOffset ≤ file.length := by
  refine (ensures_true _).bind fun _ _ => (ensures_true _).bind fun header _ => ?_
  refine (ensures_true _).bind fun _ _ => (ensures_true _).bind fun name _ => ?_
  refine (ensures_true _).bind fun _ _ => ?_
  refine (ensures_readIndex _ _ [] fun _ he => absurd he List.not_mem_nil).bind
    fun entries hentries => ensures_pure fun gameCode e he => ?_
  obtain ⟨e', he', rfl⟩ := List.mem_map.mp (List.mem_filter.mp he).1
  have hbounds := hentries e' he'
  exact ⟨hbounds.1, endOf_bounds hentries hbounds.2⟩

/-- Loading the index reads inside the file only. -/
theorem loadEntries_reads (file : List U8) :
    ∀ r ∈ (loadEntries file opened).2.reads, r.1 + r.2 ≤ file.length := by
  have hconfined : Confined 0 file.length (loadEntries file) := by
    refine confined_check_bind fun _ => ?_
    refine (confined_readData (le_refl _) 16).bind fun header => confined_check_bind fun _ => ?_
    refine (confined_readData (le_refl _) 0x3C).bind fun name => ?_
    refine (confined_seek (Nat.zero_le _)).bind fun _ => ?_
    exact (confined_readIndex _ _ _ (le_refl _)).bind fun entries => confined_pure _
  exact fun r hr =>
    ((hconfined opened ⟨le_refl _, fun _ hr => absurd hr List.not_mem_nil⟩).reads r hr).2

/-! ## Parents -/

/-- The parents in the child at `i` of the root. -/
def ARCodeItem.RightParents (i : ℕ) : ARCodeItem → Prop
  | .code c => c.parent = .root
  | .cat c => c.parent = .root ∧ ∀ code ∈ c.children, code.parent = .child i

def RightParents (children : List ARCodeItem) : Prop :=
  ∀ (i : ℕ) (item : ARCodeItem), children[i]? = some item → item.RightParents i

theorem rightParents_append {children : List ARCodeItem} (hchildren : RightParents children)
    {item : ARCodeItem} (hitem : item.RightParents children.length) :
    RightParents (children ++ [item]) := by
  intro i item' hi
  rcases lt_trichotomy i children.length with hlt | rfl | hgt
  · rw [List.getElem?_append_left hlt] at hi
    exact hchildren i item' hi
  · rw [List.getElem?_concat_length] at hi
    exact Option.some.inj hi ▸ hitem
  · rw [List.getElem?_eq_none (by simp; omega)] at hi
    cases hi

theorem rightParents_addCode {children : List ARCodeItem} (hchildren : RightParents children)
    (c : ARCode) : RightParents (addCode c children c.parent) := by
  cases hparent : c.parent with
  | root => exact rightParents_append hchildren hparent
  | child j =>
    intro i item hi
    rw [addCode, List.getElem?_modify] at hi
    obtain ⟨before, hbefore, rfl⟩ := Option.map_eq_some_iff.mp hi
    have hright := hchildren i before hbefore
    split_ifs with hj
    · subst hj
      cases before with
      | code code => exact hright
      | cat cat =>
        refine ⟨hright.1, fun code hcode => ?_⟩
        rcases List.mem_append.mp hcode with hcode | hcode
        · exact hright.2 code hcode
        · rw [List.mem_singleton.mp hcode, hparent]
    · exact hright

theorem ensures_readItem {left : ℕ} {s : Items} (hs : RightParents s.children) :
    Ensures (readItem file stop left s) fun s => RightParents s.children := by
  refine (ensures_true _).bind fun itemflags _ => (ensures_true _).bind fun itemEnd _ => ?_
  refine (ensures_true _).bind fun name _ => (ensures_true _).bind fun description _ => ?_
  refine (ensures_true _).bind fun _ _ => ?_
  split_ifs
  · refine (ensures_true _).bind fun _ _ => ensures_pure (rightParents_append hs ?_)
    exact ⟨rfl, fun _ hcode => absurd hcode List.not_mem_nil⟩
  · refine (ensures_true _).bind fun codelen _ => (ensures_true _).bind fun pos _ => ?_
    refine (ensures_true _).bind fun _ _ => (ensures_true _).bind fun _ _ => ?_
    exact (ensures_true _).bind fun data _ => ensures_pure (rightParents_addCode hs ⟨_, _, _, _, _⟩)

theorem ensures_readItems {left : ℕ} {s : Items} (hs : RightParents s.children) :
    Ensures (readItems file stop left s) fun s => RightParents s.children := by
  induction left generalizing s with
  | zero => exact ensures_pure hs
  | succ left ih => exact (ensures_readItem hs).bind fun s hs => ih hs

theorem parent_of_mem_keepFirst {foundone : Bool} {codes : List ARCode} {c : ARCode}
    (hc : c ∈ keepFirst foundone codes) : ∃ c' ∈ codes, c'.parent = c.parent := by
  induction codes generalizing foundone with
  | nil => exact absurd hc List.not_mem_nil
  | cons c' codes ih =>
    rw [keepFirst] at hc
    split_ifs at hc
    all_goals
      rcases List.mem_cons.mp hc with heq | hc
      · exact ⟨c', List.mem_cons_self, heq ▸ rfl⟩
      · obtain ⟨c'', hmem, heq⟩ := ih hc
        exact ⟨c'', List.mem_cons_of_mem _ hmem, heq⟩

theorem rightParents_enforceOnlyOne {children : List ARCodeItem} (h : RightParents children) :
    RightParents (children.map enforceOnlyOne) := by
  intro i item hi
  rw [List.getElem?_map] at hi
  obtain ⟨before, hbefore, rfl⟩ := Option.map_eq_some_iff.mp hi
  have hright := h i before hbefore
  cases before with
  | code c => exact hright
  | cat c =>
    rw [enforceOnlyOne]
    split_ifs
    · refine ⟨hright.1, fun code hcode => ?_⟩
      obtain ⟨code', hmem, heq⟩ := parent_of_mem_keepFirst hcode
      exact heq ▸ hright.2 code' hmem
    · exact hright

/-- In whatever is loaded the pointers to parents are right. -/
theorem ensures_loadCheatCodes (file : List U8) (info : EntryInfo) :
    Ensures (loadCheatCodes file info) fun entry => RightParents entry.children := by
  refine (ensures_true _).bind fun _ _ => (ensures_true _).bind fun _ _ => ?_
  refine (ensures_true _).bind fun name _ => (ensures_true _).bind fun _ _ => ?_
  refine (ensures_true _).bind fun flags _ => (ensures_true _).bind fun itemsStart _ => ?_
  refine (ensures_true _).bind fun _ _ => ?_
  have hempty : RightParents [] := fun i item hi => by simp at hi
  refine (ensures_readItems hempty).bind fun s hs => (ensures_true _).bind fun _ _ => ?_
  exact ensures_pure (rightParents_enforceOnlyOne hs)

end MelonDS.ARDatabaseDAT

import Mathlib.Data.List.GetD
import Mathlib.Data.List.Nodup
import MelonDS.Library.Trace
import MelonDS.Vulkan.Native2DMemory

/-!
# Immutable views

A snapshot is a view with the region it was captured from. Storage only grows until a reset,
so a snapshot that is right stays right (`Shows.mono`); a capture yields one that is right,
from new pages and from pages of a view that is right and differs only where the mask says.
-/

namespace MelonDS.Native2D

/-! ## Overrides and masks -/

def override (overrides : List PageOverride) (page : ℕ) : Option PageOverride :=
  overrides.find? (·.page == page)

theorem checkOverrides_ok {count : ℕ} {os : List PageOverride}
    {replaced r : ℕ → Option PageOverride} (h : checkOverrides count os replaced = .ok r) :
    (∀ o ∈ os, o.page < count ∧ r o.page = some o) ∧
      ∀ page, r page = (replaced page).or (override os page) := by
  induction os generalizing replaced with
  | nil =>
    obtain rfl := Except.ok.inj h
    exact ⟨fun _ ho => absurd ho List.not_mem_nil, fun page => (Option.or_none ..).symm⟩
  | cons o os ih =>
    rw [checkOverrides] at h
    split at h
    · cases h
    · next hno =>
      obtain ⟨hpages, hr⟩ := ih h
      have hno' := not_or.mp hno
      have ho : r o.page = some o := by
        rw [hr, Function.update_self]
        rfl
      refine ⟨List.forall_mem_cons.mpr ⟨⟨not_le.mp hno'.1, ho⟩, hpages⟩, fun page => ?_⟩
      rw [hr, override, override, List.find?_cons]
      by_cases hpage : o.page = page
      · subst hpage
        rw [Function.update_self, beq_self_eq_true, Option.not_isSome_iff_eq_none.mp hno'.2]
        rfl
      · rw [Function.update_of_ne (Ne.symm hpage), beq_false_of_ne hpage]

theorem checkOverrides_eq {count : ℕ} {os : List PageOverride} {r : ℕ → Option PageOverride}
    (h : checkOverrides count os (fun _ => none) = .ok r) :
    (∀ o ∈ os, o.page < count ∧ r o.page = some o) ∧ r = override os := by
  obtain ⟨hpages, hr⟩ := checkOverrides_ok h
  exact ⟨hpages, funext fun page => (hr page).trans (Option.none_or ..)⟩

/-- The bit of a page in a mask. -/
def masked (masks : List U64) (page : ℕ) : Bool := (masks.getD (page / 64) 0).getLsbD (page % 64)

theorem masked_modify (masks : List U64) (page target : ℕ) (htarget : target / 64 < masks.length) :
    masked (masks.modify (target / 64) (· ||| bit 64 (target % 64))) page =
      (masked masks page || decide (target = page)) := by
  have hmod : page % 64 < 64 := Nat.mod_lt page (by decide)
  rw [masked, masked, List.getD_eq_getElem?_getD, List.getElem?_modify]
  by_cases hword : target / 64 = page / 64
  · simp only [if_pos hword, Option.map_eq_map]
    rw [← hword, List.getElem?_eq_getElem htarget, Option.map_some, Option.getD_some,
      BitVec.getLsbD_or, getLsbD_bit, List.getD_eq_getElem _ _ htarget, decide_eq_true hmod,
      Bool.and_true]
    congr 1
    exact decide_eq_decide.mpr (by omega)
  · simp only [if_neg hword, Option.map_eq_map]
    rw [decide_eq_false (by rintro rfl; exact hword rfl), Bool.or_false,
      List.getD_eq_getElem?_getD]
    cases masks[page / 64]? <;> rfl

theorem length_mergeMasks (dirty : List U64) (os : List PageOverride) :
    (mergeMasks dirty os).length = dirty.length := by
  rw [mergeMasks]
  induction os generalizing dirty with
  | nil => rfl
  | cons o os ih => exact (ih _).trans (List.length_modify ..)

theorem masked_mergeMasks (dirty : List U64) {os : List PageOverride} (page : ℕ)
    (hos : ∀ o ∈ os, o.page / 64 < dirty.length) :
    masked (mergeMasks dirty os) page =
      (masked dirty page || os.any fun o => decide (o.page = page)) := by
  rw [mergeMasks]
  induction os generalizing dirty with
  | nil => exact (Bool.or_false _).symm
  | cons o os ih =>
    obtain ⟨ho, hos'⟩ := List.forall_mem_cons.mp hos
    have hlen := List.length_modify (· ||| bit 64 (o.page % 64)) dirty (o.page / 64)
    rw [List.foldl_cons, ih _ fun o' ho' => hlen.symm ▸ hos' o' ho', masked_modify _ _ _ ho,
      List.any_cons, Bool.or_assoc]

theorem mem_maskPages {count : ℕ} {masks : List U64} (hlen : masks.length = (count + 63) / 64)
    (page : ℕ) : page ∈ maskPages count masks ↔ page < count ∧ masked masks page = true := by
  rw [maskPages, List.mem_filter, List.mem_range, maskWord, masked]
  split_ifs with hlast
  · rw [BitVec.getLsbD_and, Bool.and_eq_true, BitVec.getLsbD_ofNat, Nat.testBit_two_pow_sub_one,
      Bool.and_eq_true, decide_eq_true_eq, decide_eq_true_eq]
    constructor
    · rintro ⟨-, hbit, -, hlt⟩
      exact ⟨by omega, hbit⟩
    · rintro ⟨hpage, hbit⟩
      exact ⟨by omega, hbit, Nat.mod_lt page (by decide), by omega⟩
  · constructor
    · rintro ⟨hpage, hbit⟩
      exact ⟨by omega, hbit⟩
    · rintro ⟨hpage, hbit⟩
      exact ⟨by omega, hbit⟩

namespace Memory

/-! ## Written pages -/

section Written

variable {source : ℕ → ℕ → U32} {table : ℕ}

theorem writePages_below {pages : List ℕ} {cursor i : ℕ} {words : ℕ → U32} (hi : i < cursor)
    (hcursor : cursor + pages.length * pageWords ≤ table) :
    writePages source table pages cursor words i = words i := by
  induction pages generalizing cursor words with
  | nil => rfl
  | cons page pages ih =>
    rw [List.length_cons, Nat.succ_mul] at hcursor
    rw [writePages]
    rw [ih (by omega) (by omega), if_neg (by omega), Function.update_of_ne (by omega)]

theorem writePages_other {pages : List ℕ} {cursor page : ℕ} {words : ℕ → U32}
    (hpage : page ∉ pages) (hcursor : cursor + pages.length * pageWords ≤ table) :
    writePages source table pages cursor words (table + page) = words (table + page) := by
  induction pages generalizing cursor words with
  | nil => rfl
  | cons first pages ih =>
    obtain ⟨hne, hrest⟩ := not_or.mp (mt List.mem_cons.mpr hpage)
    rw [List.length_cons, Nat.succ_mul] at hcursor
    rw [writePages]
    rw [ih hrest (by omega), if_neg (by omega), Function.update_of_ne (by omega)]

/-- A page of the list has its entry and its words behind those before it. -/
theorem writePages_page {pages : List ℕ} {cursor page : ℕ} {words : ℕ → U32}
    (hpages : pages.Nodup) (hpage : page ∈ pages)
    (hcursor : cursor + pages.length * pageWords ≤ table) :
    writePages source table pages cursor words (table + page) =
        BitVec.ofNat 32 (cursor + pages.idxOf page * pageWords) ∧
      ∀ k < pageWords, writePages source table pages cursor words
        (cursor + pages.idxOf page * pageWords + k) = source page k := by
  induction pages generalizing cursor words with
  | nil => exact absurd hpage List.not_mem_nil
  | cons first pages ih =>
    obtain ⟨hfirst, hrest⟩ := List.nodup_cons.mp hpages
    rw [List.length_cons, Nat.succ_mul] at hcursor
    rw [writePages]
    by_cases heq : page = first
    · subst heq
      rw [List.idxOf_cons_self, Nat.zero_mul, Nat.add_zero]
      constructor
      · rw [writePages_other hfirst (by omega), if_neg (by omega), Function.update_self]
      · intro k hk
        rw [writePages_below (by omega) (by omega), if_pos (by omega), Nat.add_sub_cancel_left]
    · have hmem := (List.mem_cons.mp hpage).resolve_left heq
      have hidx : cursor + (first :: pages).idxOf page * pageWords =
          cursor + pageWords + pages.idxOf page * pageWords := by
        rw [List.idxOf_cons_ne _ (Ne.symm heq), Nat.succ_mul]
        omega
      rw [hidx]
      exact ih hrest hmem (by omega)

end Written

/-! ## Compared pages -/

theorem inspect_ok {differs : ℕ → Except MemoryError Bool} {pages changed : List ℕ}
    (h : inspect differs pages = .ok changed) :
    changed.Sublist pages ∧ ∀ page ∈ pages, ∃ b, differs page = .ok b ∧
      (page ∉ changed → b = false) := by
  induction pages generalizing changed with
  | nil =>
    obtain rfl := Except.ok.inj h
    exact ⟨List.Sublist.refl _, fun _ hp => absurd hp List.not_mem_nil⟩
  | cons page pages ih =>
    rw [inspect] at h
    cases hd : differs page with
    | error e =>
      rw [hd] at h
      cases h
    | ok b =>
      rw [hd] at h
      dsimp only at h
      cases hrest : inspect differs pages with
      | error e =>
        rw [hrest] at h
        cases h
      | ok rest =>
        rw [hrest] at h
        obtain rfl := Except.ok.inj h
        obtain ⟨hsub, hall⟩ := ih hrest
        cases b with
        | true =>
          refine ⟨hsub.cons_cons page, List.forall_mem_cons.mpr ⟨⟨true, hd, fun hno => ?_⟩, ?_⟩⟩
          · exact absurd List.mem_cons_self hno
          · intro p hp
            obtain ⟨b, hb, hno⟩ := hall p hp
            exact ⟨b, hb, fun hout => hno fun hin => hout (List.mem_cons_of_mem page hin)⟩
        | false =>
          exact ⟨hsub.cons page, List.forall_mem_cons.mpr ⟨⟨false, hd, fun _ => rfl⟩, hall⟩⟩

end Memory

/-! ## Snapshots -/

/-- A view and the region it was captured from. -/
structure Snapshot where
  view : View
  bytes : List U8
  overrides : List PageOverride

def Snapshot.word (snap : Snapshot) : ℕ → ℕ → U32 := source snap.bytes (override snap.overrides)

/-- The snapshot read through its page table is the region; it lies inside the storage. -/
structure Shows (m : Memory) (snap : Snapshot) : Prop where
  pages : snap.bytes.length = snap.view.pages * pageBytes
  table : snap.view.table + snap.view.pages ≤ m.size
  inside : ∀ page < snap.view.pages, m.entry snap.view page + pageWords ≤ m.size
  word : ∀ page < snap.view.pages, ∀ k < pageWords,
    m.words (m.entry snap.view page + k) = snap.word page k

/-- A byte of the region, or of the override of its page. -/
def Snapshot.byte (snap : Snapshot) (i : ℕ) : U8 :=
  match override snap.overrides (i / pageBytes) with
  | some o => (o.words (i % pageBytes / 4)).extractLsb' (8 * (i % 4)) 8
  | none => snap.bytes.getD i 0

/-- A byte of a view, through the page table. -/
def Memory.read (v : View) (i : ℕ) (m : Memory) : U8 :=
  (m.words (m.entry v (i / pageBytes) + i % pageBytes / 4)).extractLsb' (8 * (i % 4)) 8

theorem extract_bytesWord (bytes : List U8) (i : ℕ) {j : ℕ} (hj : j < 4) :
    (bytesWord bytes i).extractLsb' (8 * j) 8 = bytes.getD (i + j) 0 := by
  rw [bytesWord]
  obtain rfl | rfl | rfl | rfl : j = 0 ∨ j = 1 ∨ j = 2 ∨ j = 3 := by omega
  all_goals
    refine BitVec.eq_of_getLsbD_eq fun b hb => ?_
    simp only [BitVec.getLsbD_extractLsb', BitVec.getLsbD_append, hb, decide_true, Bool.true_and]
    split_ifs <;> first | omega | (congr 1; omega)

theorem Shows.read {m : Memory} {snap : Snapshot} (h : Shows m snap) {i : ℕ}
    (hi : i < snap.bytes.length) : m.read snap.view i = snap.byte i := by
  have hlength : snap.bytes.length = snap.view.pages * 512 := h.pages
  have hword := h.word (i / 512) (by omega) (i % 512 / 4) (show i % 512 / 4 < 128 by omega)
  rw [Memory.read, Snapshot.byte]
  change (m.words (m.entry snap.view (i / 512) + i % 512 / 4)).extractLsb' (8 * (i % 4)) 8 = _
  rw [hword, Snapshot.word, source]
  change _ = match override snap.overrides (i / 512) with
    | some o => (o.words (i % 512 / 4)).extractLsb' (8 * (i % 4)) 8
    | none => snap.bytes.getD i 0
  cases override snap.overrides (i / 512) with
  | some o => rfl
  | none =>
    change (bytesWord snap.bytes (i / 512 * 512 + 4 * (i % 512 / 4))).extractLsb' _ 8 = _
    rw [extract_bytesWord _ _ (Nat.mod_lt i (by decide))]
    exact congrArg (fun n => snap.bytes.getD n 0) (by omega)

/-- Storage that has only grown. -/
def Grows (m m' : Memory) : Prop := m.size ≤ m'.size ∧ ∀ i < m.size, m'.words i = m.words i

theorem Grows.entry {m m' : Memory} (h : Grows m m') {v : View} {page : ℕ}
    (hpage : v.table + page < m.size) : m'.entry v page = m.entry v page :=
  congrArg BitVec.toNat (h.2 _ hpage)

theorem Shows.mono {m m' : Memory} {snap : Snapshot} (h : Shows m snap) (hm : Grows m m') :
    Shows m' snap := by
  have htable := h.table
  have hentry {page : ℕ} (hpage : page < snap.view.pages) :
      m'.entry snap.view page = m.entry snap.view page := hm.entry (by omega)
  refine ⟨h.pages, h.table.trans hm.1, fun page hpage => ?_, fun page hpage k hk => ?_⟩
  · rw [hentry hpage]
    exact (h.inside page hpage).trans hm.1
  · have hinside := h.inside page hpage
    rw [hentry hpage, hm.2 _ (by omega)]
    exact h.word page hpage k hk

/-! ## A capture -/

/-- What a capture does to storage and views: it fails and changes nothing, or it yields a
right snapshot; every page that the view before does not offer is new. -/
structure Captured (m : Memory) (previous : View) (bytes : List U8)
    (overrides : List PageOverride) (view : View) (m' : Memory) : Prop where
  grows : Grows m m'
  limit : m'.size ≤ m.limitWords ∧ m'.limitWords = m.limitWords
  generation : m'.generation = m.generation ∧ view.generation = m.generation
  shows : Shows m' ⟨view, bytes, overrides⟩
  overridden : ∀ o ∈ overrides, o.page < view.pages
  fresh : ∀ page < view.pages, (previous.generation = m.generation ∧
      previous.pages = bytes.length / pageBytes ∧
        ∀ o ∈ overrides, o.page = page → o.force = false) ∨
    m.size ≤ m'.entry view page ∧
      ∀ other < view.pages, other ≠ page → m'.entry view other + pageWords ≤ m'.entry view page ∨
        m'.entry view page + pageWords ≤ m'.entry view other

namespace Memory

/-- The view before shows the page that is captured. -/
def Offers (m : Memory) (previous : View) (source : ℕ → ℕ → U32) (page : ℕ) : Prop :=
  m.entry previous page + pageWords ≤ m.size ∧
    ∀ k < pageWords, m.words (m.entry previous page + k) = source page k

theorem offers_of_differs {source : ℕ → ℕ → U32} {previous : View} {valid : Bool}
    {replaced : ℕ → Option PageOverride} {m : Memory} {page : ℕ}
    (h : m.differs source previous valid replaced page = .ok false) :
    valid = true ∧ (replaced page).any (·.force) = false ∧ m.Offers previous source page := by
  rw [differs] at h
  dsimp only at h
  split at h
  · next hvalid =>
    rw [Bool.and_eq_true, Bool.not_eq_true'] at hvalid
    split at h
    · cases h
    · next hinside =>
      obtain ⟨hle, hfit⟩ := not_or.mp hinside
      have hsame := Except.ok.inj h
      rw [Bool.not_eq_false', List.all_eq_true] at hsame
      exact ⟨hvalid.1, hvalid.2, by omega, fun k hk =>
        beq_iff_eq.mp (hsame k (List.mem_range.mpr hk))⟩
  · cases Except.ok.inj h

section Publish

variable (source : ℕ → ℕ → U32) (previous : View) (valid : Bool) {count : ℕ} {changed : List ℕ}
  {m : Memory}

theorem publish_table (hlimit : m.size + (changed.length * pageWords + count) < 2 ^ 32) :
    (m.publish source previous valid count changed).1.table =
      m.size + changed.length * pageWords :=
  Nat.mod_eq_of_lt (by omega)

theorem publish_words (hlimit : m.size + (changed.length * pageWords + count) < 2 ^ 32) :
    ∃ words : ℕ → U32, (∀ i < m.size, words i = m.words i) ∧
      (valid = true → previous.table + count ≤ m.size → ∀ page < count,
        words (m.size + changed.length * pageWords + page) = m.words (previous.table + page)) ∧
      (m.publish source previous valid count changed).2 =
        { m with
          words := writePages source (m.size + changed.length * pageWords) changed m.size words
          size := m.size + (changed.length * pageWords + count) } := by
  refine ⟨fun i =>
    let resized := fun i =>
      if m.size ≤ i ∧ i < m.size + (changed.length * pageWords + count) then 0 else m.words i
    if valid ∧ m.size + changed.length * pageWords ≤ i ∧
        i < m.size + changed.length * pageWords + count then
      resized (previous.table + (i - (m.size + changed.length * pageWords)))
    else resized i, fun i hi => ?_, fun hvalid hprev page hpage => ?_, ?_⟩
  · dsimp only
    rw [if_neg (by omega), if_neg (by omega)]
  · dsimp only
    rw [if_pos ⟨hvalid, by omega⟩, Nat.add_sub_cancel_left, if_neg (by omega)]
  · rw [publish, Nat.mod_eq_of_lt (show m.size + changed.length * pageWords < 2 ^ 32 by omega)]

theorem entry_publish_changed (hlimit : m.size + (changed.length * pageWords + count) < 2 ^ 32)
    (hchanged : changed.Nodup) {page : ℕ} (hpage : page ∈ changed) :
    (m.publish source previous valid count changed).2.entry
        (m.publish source previous valid count changed).1 page =
          m.size + changed.idxOf page * pageWords ∧
      ∀ k < pageWords, (m.publish source previous valid count changed).2.words
        (m.size + changed.idxOf page * pageWords + k) = source page k := by
  obtain ⟨words, -, -, heq⟩ := publish_words source previous valid hlimit
  have hidx := List.idxOf_lt_length_of_mem hpage
  have hmul : (changed.idxOf page + 1) * pageWords ≤ changed.length * pageWords :=
    Nat.mul_le_mul_right pageWords hidx
  rw [Nat.succ_mul] at hmul
  obtain ⟨hentry, hwords⟩ := @writePages_page source _ _ _ _ words hchanged hpage
    (le_refl (m.size + changed.length * pageWords))
  rw [entry, publish_table source previous valid hlimit, heq]
  refine ⟨?_, hwords⟩
  dsimp only
  rw [hentry, BitVec.toNat_ofNat, Nat.mod_eq_of_lt (by omega)]

theorem entry_publish_kept (hlimit : m.size + (changed.length * pageWords + count) < 2 ^ 32)
    (hvalid : valid = true) (hprev : previous.table + count ≤ m.size) {page : ℕ}
    (hpage : page < count) (hno : page ∉ changed) :
    (m.publish source previous valid count changed).2.entry
      (m.publish source previous valid count changed).1 page = m.entry previous page := by
  obtain ⟨words, -, hcopied, heq⟩ := publish_words source previous valid hlimit
  rw [entry, entry, publish_table source previous valid hlimit, heq]
  dsimp only
  rw [writePages_other hno (le_refl _), hcopied hvalid hprev page hpage]

theorem grows_publish (hlimit : m.size + (changed.length * pageWords + count) < 2 ^ 32) :
    Grows m (m.publish source previous valid count changed).2 := by
  obtain ⟨words, hbelow, -, heq⟩ := publish_words source previous valid hlimit
  rw [heq]
  exact ⟨Nat.le_add_right _ _, fun i hi => (writePages_below hi (le_refl _)).trans (hbelow i hi)⟩

theorem captured_publish {bytes : List U8} {overrides : List PageOverride}
    (hsource : source = Native2D.source bytes (override overrides))
    (hcount : count = bytes.length / pageBytes) (hregion : bytes.length = count * pageBytes)
    (hos : ∀ o ∈ overrides, o.page < count)
    (hlimit : m.size + (changed.length * pageWords + count) ≤ m.limitWords)
    (hwords : m.limitWords < 2 ^ 32) (hnodup : changed.Nodup)
    (hvalid : valid = true → previous.generation = m.generation ∧ previous.pages = count ∧
      previous.table + count ≤ m.size)
    (hkept : ∀ page < count, page ∉ changed → valid = true ∧ m.Offers previous source page ∧
      ∀ o ∈ overrides, o.page = page → o.force = false) :
    Captured m previous bytes overrides (m.publish source previous valid count changed).1
      (m.publish source previous valid count changed).2 := by
  have hlimit' := hlimit.trans_lt hwords
  have hgrows := grows_publish source previous valid hlimit'
  have htable := publish_table source previous valid hlimit'
  have hsize : (m.publish source previous valid count changed).2.size =
      m.size + (changed.length * pageWords + count) := rfl
  have hfresh {page : ℕ} (hpage : page ∈ changed) :=
    entry_publish_changed source previous valid hlimit' hnodup hpage
  have hold {page : ℕ} (hpage : page < count) (hno : page ∉ changed) :=
    entry_publish_kept source previous valid hlimit' (hkept page hpage hno).1
      (hvalid (hkept page hpage hno).1).2.2 hpage hno
  have hidx {page : ℕ} (hpage : page ∈ changed) :
      changed.idxOf page * pageWords + pageWords ≤ changed.length * pageWords := by
    rw [← Nat.succ_mul]
    exact Nat.mul_le_mul_right pageWords (List.idxOf_lt_length_of_mem hpage)
  refine
    { grows := hgrows
      limit := ⟨hlimit, rfl⟩
      generation := ⟨rfl, rfl⟩
      shows :=
        { pages := hregion
          table := ?_
          inside := fun page hpage => ?_
          word := fun page hpage k hk => ?_ }
      overridden := hos
      fresh := fun page hpage => ?_ }
  · change (m.publish source previous valid count changed).1.table + count ≤ _
    rw [htable, hsize, Nat.add_assoc]
  · by_cases hmem : page ∈ changed
    · have := hidx hmem
      rw [(hfresh hmem).1, hsize]
      omega
    · have := (hkept page hpage hmem).2.1.1
      rw [hold hpage hmem, hsize]
      omega
  · by_cases hmem : page ∈ changed
    · rw [(hfresh hmem).1, (hfresh hmem).2 k hk, hsource]
      rfl
    · have hoffers := (hkept page hpage hmem).2.1
      rw [hold hpage hmem, hgrows.2 _ (by have := hoffers.1; omega), hoffers.2 k hk, hsource]
      rfl
  · by_cases hmem : page ∈ changed
    · refine .inr ⟨by rw [(hfresh hmem).1]; exact Nat.le_add_right _ _, fun other hother hne => ?_⟩
      rw [(hfresh hmem).1]
      by_cases hother' : other ∈ changed
      · rw [(hfresh hother').1]
        have hne' : changed.idxOf other ≠ changed.idxOf page := fun heq =>
          hne ((List.idxOf_inj hother').mp heq)
        rcases lt_or_gt_of_ne hne' with hless | hless
        · have := Nat.mul_le_mul_right pageWords hless
          rw [Nat.succ_mul] at this
          exact .inl (by omega)
        · have := Nat.mul_le_mul_right pageWords hless
          rw [Nat.succ_mul] at this
          exact .inr (by omega)
      · have := (hkept other hother hother').2.1.1
        rw [hold hother hother']
        exact .inl (by omega)
    · obtain ⟨hv, -, hforce⟩ := hkept page hpage hmem
      obtain ⟨hgen, hpages, -⟩ := hvalid hv
      exact .inl ⟨hgen, hpages.trans hcount, hforce⟩

end Publish

/-- The pages that a capture looks at. -/
theorem candidates {count : ℕ} {dirty : List U64} {overrides : List PageOverride} (valid : Bool)
    (hmask : dirty ≠ [] → dirty.length = (count + 63) / 64)
    (hpages : ∀ o ∈ overrides, o.page < count) {pages : List ℕ}
    (heq : pages = if valid = true ∧ dirty ≠ [] then maskPages count (mergeMasks dirty overrides)
      else List.range count) :
    pages.Nodup ∧ ∀ page < count, page ∉ pages →
      valid = true ∧ dirty ≠ [] ∧ masked dirty page = false ∧ ∀ o ∈ overrides, o.page ≠ page := by
  by_cases hv : valid = true ∧ dirty ≠ []
  · rw [if_pos hv] at heq
    subst heq
    have hlen := hmask hv.2
    have hlen' : (mergeMasks dirty overrides).length = (count + 63) / 64 :=
      (length_mergeMasks dirty overrides).trans hlen
    refine ⟨List.nodup_range.filter _, fun page hpage hno => ⟨hv.1, hv.2, ?_⟩⟩
    have hbit : masked (mergeMasks dirty overrides) page = false :=
      (Bool.not_eq_true _).mp fun hyes => hno ((mem_maskPages hlen' page).mpr ⟨hpage, hyes⟩)
    rw [masked_mergeMasks dirty page fun o ho => by have := hpages o ho; omega,
      Bool.or_eq_false_iff, List.any_eq_false] at hbit
    exact ⟨hbit.1, fun o ho heq => hbit.2 o ho (decide_eq_true heq)⟩
  · rw [if_neg hv] at heq
    subst heq
    exact ⟨List.nodup_range, fun page hpage hno => absurd (List.mem_range.mpr hpage) hno⟩

theorem override_eq_none {overrides : List PageOverride} {page : ℕ}
    (h : ∀ o ∈ overrides, o.page ≠ page) : override overrides page = none :=
  List.find?_eq_none.mpr fun o ho heq => h o ho (beq_iff_eq.mp heq)

/-- The pages that are not looked at are as the view before shows them. -/
def Covers (m : Memory) (previous : View) (bytes : List U8) (dirty : List U64)
    (overrides : List PageOverride) : Prop :=
  ∀ page < previous.pages, override overrides page = none →
    (∃ k < pageWords, m.words (m.entry previous page + k) ≠
      bytesWord bytes (page * pageBytes + 4 * k)) → masked dirty page

theorem capture_cases (m : Memory) (bytes : List U8) (previous : View) (dirty : List U64)
    (overrides : List PageOverride) (allocates : Bool) (hsize : m.size ≤ m.limitWords)
    (hwords : m.limitWords < 2 ^ 32)
    (hprev : previous.generation = m.generation → 0 < previous.pages →
      (∃ region os, Shows m ⟨previous, region, os⟩) ∧
        (dirty ≠ [] → m.Covers previous bytes dirty overrides)) :
    (∃ e, m.capture bytes previous dirty overrides allocates = (.error e, m)) ∨
      ∃ view m', m.capture bytes previous dirty overrides allocates = (.ok view, m') ∧
        Captured m previous bytes overrides view m' := by
  rw [capture]
  split
  · exact .inl ⟨_, rfl⟩
  next hregion =>
  dsimp only
  split
  · exact .inl ⟨_, rfl⟩
  next hmask =>
  cases hoverrides : checkOverrides (bytes.length / pageBytes) overrides fun _ => none with
  | error e => exact .inl ⟨_, rfl⟩
  | ok replaced =>
    obtain ⟨hpages, rfl⟩ := checkOverrides_eq hoverrides
    dsimp only
    split
    · exact .inl ⟨_, rfl⟩
    next htable =>
    generalize hsame : decide (previous.generation = m.generation ∧
      previous.pages = bytes.length / pageBytes) = valid at htable ⊢
    have hvalid (hv : valid = true) : previous.generation = m.generation ∧
        previous.pages = bytes.length / pageBytes ∧
          previous.table + bytes.length / pageBytes ≤ m.size := by
      have htable' := not_or.mp fun hout => htable ⟨hv, hout⟩
      obtain ⟨hgen, hcount⟩ := of_decide_eq_true (hsame.trans hv)
      exact ⟨hgen, hcount, by omega⟩
    generalize hpages' : (if valid = true ∧ dirty ≠ [] then
      maskPages (bytes.length / pageBytes) (mergeMasks dirty overrides)
      else List.range (bytes.length / pageBytes)) = pages
    obtain ⟨hnodup, hskipped⟩ := candidates valid
      (fun hne => by_contra fun hlen => hmask ⟨hne, hlen⟩) (fun o ho => (hpages o ho).1)
      hpages'.symm
    cases hinspect : inspect (m.differs (source bytes (override overrides)) previous valid
        (override overrides)) pages with
    | error e => exact .inl ⟨_, rfl⟩
    | ok changed =>
      obtain ⟨hsub, hall⟩ := inspect_ok hinspect
      have hlength : bytes.length = bytes.length / pageBytes * pageBytes := by
        have hmod : bytes.length % pageBytes = 0 := not_not.mp fun hne => hregion (.inr (.inl hne))
        exact (Nat.div_mul_cancel (Nat.dvd_of_mod_eq_zero hmod)).symm
      have hkept (page : ℕ) (hpage : page < bytes.length / pageBytes) (hno : page ∉ changed) :
          valid = true ∧ m.Offers previous (source bytes (override overrides)) page ∧
            ∀ o ∈ overrides, o.page = page → o.force = false := by
        by_cases hmem : page ∈ pages
        · obtain ⟨b, hb, hfalse⟩ := hall page hmem
          rw [hfalse hno] at hb
          obtain ⟨hv, hforce, hoffers⟩ := offers_of_differs hb
          refine ⟨hv, hoffers, fun o ho hpage => ?_⟩
          rw [← hpage, (hpages o ho).2] at hforce
          exact hforce
        · obtain ⟨hv, hdirty, hbit, hos⟩ := hskipped page hpage hmem
          obtain ⟨hgen, hcount, -⟩ := hvalid hv
          obtain ⟨⟨region, os, hshows⟩, hcovers⟩ := hprev hgen (by omega)
          have hnone := override_eq_none hos
          refine ⟨hv, ⟨hshows.inside page (hcount ▸ hpage), fun k hk => ?_⟩,
            fun o ho heq => absurd heq (hos o ho)⟩
          rw [source, hnone]
          by_contra hne
          have hyes := hcovers hdirty page (hcount ▸ hpage) hnone ⟨k, hk, hne⟩
          exact Bool.false_ne_true (hbit.symm.trans hyes)
      dsimp only
      split
      · next hnil =>
        subst hnil
        have hpos : 0 < bytes.length / pageBytes := by
          have hlen : bytes.length ≠ 0 := fun hzero =>
            hregion (.inl (List.eq_nil_of_length_eq_zero hzero))
          change bytes.length = bytes.length / 512 * 512 at hlength
          change 0 < bytes.length / 512
          omega
        obtain ⟨hgen, hcount, htable'⟩ := hvalid (hkept 0 hpos List.not_mem_nil).1
        refine .inr ⟨previous, m, rfl, ⟨⟨le_refl _, fun _ _ => rfl⟩, ⟨hsize, rfl⟩, ⟨rfl, hgen⟩,
          ⟨hcount.symm ▸ hlength, hcount.symm ▸ htable', fun page hpage => ?_,
            fun page hpage k hk => ?_⟩, fun o ho => hcount.symm ▸ (hpages o ho).1,
          fun page hpage => .inl ⟨hgen, hcount, ?_⟩⟩⟩
        · exact (hkept page (hcount ▸ hpage) List.not_mem_nil).2.1.1
        · exact (hkept page (hcount ▸ hpage) List.not_mem_nil).2.1.2 k hk
        · exact (hkept page (hcount ▸ hpage) List.not_mem_nil).2.2
      · cases hreserve : m.reserve (changed.length * pageWords + bytes.length / pageBytes)
            allocates with
        | error e => exact .inl ⟨_, rfl⟩
        | ok _ =>
          have hlimit : m.size + (changed.length * pageWords + bytes.length / pageBytes) ≤
              m.limitWords := by
            rw [reserve] at hreserve
            split at hreserve
            · cases hreserve
            · omega
          exact .inr ⟨_, _, rfl, captured_publish _ previous valid rfl rfl hlength (fun o ho => (hpages o ho).1)
            hlimit hwords (hnodup.sublist hsub)
            hvalid hkept⟩

theorem inspect_nil {differs : ℕ → Except MemoryError Bool} {pages : List ℕ}
    (h : ∀ page ∈ pages, differs page = .ok false) : inspect differs pages = .ok [] := by
  induction pages with
  | nil => rfl
  | cons page pages ih =>
    obtain ⟨hpage, hrest⟩ := List.forall_mem_cons.mp h
    rw [inspect, hpage, ih hrest]
    rfl

/-- A region that the view before shows is not stored again. -/
theorem capture_shared {m : Memory} {bytes : List U8} {previous : View} (allocates : Bool)
    (hbytes : bytes ≠ [] ∧ bytes.length % pageBytes = 0 ∧ bytes.length ≤ maxPages * pageBytes)
    (hgen : previous.generation = m.generation) (hpages : previous.pages = bytes.length / pageBytes)
    (htable : previous.table + previous.pages ≤ m.size)
    (hoffers : ∀ page < previous.pages, m.Offers previous (source bytes fun _ => none) page) :
    m.capture bytes previous [] [] allocates = (.ok previous, m) := by
  have hdiffers (page : ℕ) (hpage : page ∈ List.range (bytes.length / pageBytes)) :
      m.differs (source bytes fun _ => none) previous true (fun _ => none) page = .ok false := by
    obtain ⟨hinside, hwords⟩ := hoffers page (hpages ▸ List.mem_range.mp hpage)
    have hcompare : (true && !(none : Option PageOverride).any (·.force)) = true := rfl
    rw [differs, if_pos hcompare]
    dsimp only
    rw [if_neg (by omega)]
    refine congrArg Except.ok ?_
    rw [Bool.not_eq_false', List.all_eq_true]
    exact fun k hk => beq_iff_eq.mpr (hwords k (List.mem_range.mp hk))
  rw [capture, if_neg (by rw [not_or, not_or, not_not, not_lt]; exact hbytes)]
  dsimp only
  rw [if_neg (fun hno => hno.1 rfl), checkOverrides, decide_eq_true ⟨hgen, hpages⟩]
  dsimp only
  rw [if_neg (by omega), if_neg (fun hno => hno.2 rfl), inspect_nil hdiffers]
  rfl

theorem appendWords_cases (m : Memory) (words : List U32) (allocates : Bool) :
    (∃ e, m.appendWords words allocates = (.error e, m)) ∨
      ∃ m', m.appendWords words allocates = (.ok (m.size % 2 ^ 32), m') ∧ Grows m m' ∧
        (m.size ≤ m.limitWords → m'.size ≤ m.limitWords) ∧ m'.limitWords = m.limitWords ∧
        m'.generation = m.generation ∧ m'.size = m.size + words.length ∧
        ∀ i < words.length, m'.words (m.size + i) = words.getD i 0 := by
  rw [appendWords]
  cases hreserve : m.reserve words.length allocates with
  | error e => exact .inl ⟨e, rfl⟩
  | ok _ =>
    have hlimit : words.length ≤ m.limitWords - m.size := by
      rw [reserve] at hreserve
      split at hreserve
      · cases hreserve
      · omega
    refine .inr ⟨_, rfl, ⟨Nat.le_add_right _ _, fun i hi => if_neg (by omega)⟩, fun hsize => ?_,
      rfl, rfl, rfl, fun i hi => ?_⟩
    · change m.size + words.length ≤ m.limitWords
      omega
    · dsimp only
      rw [if_pos (by omega), Nat.add_sub_cancel_left]

end Memory

/-! ## Runs -/

inductive Event
  | capture (bytes : List U8) (previous : View) (dirty : List U64)
    (overrides : List PageOverride) (allocates : Bool)
  | appendWords (words : List U32) (allocates : Bool)
  | reset

/-- The memory with the snapshots since the last reset and the views from before it. -/
structure Session where
  memory : Memory
  live : List Snapshot
  stale : List View
  resets : ℕ

namespace Session

def start (m : Memory) : Session := ⟨m, [], [], 0⟩

def step (s : Session) : Event → Session
  | .capture bytes previous dirty overrides allocates =>
    match s.memory.capture bytes previous dirty overrides allocates with
    | (.error _, m) => { s with memory := m }
    | (.ok view, m) => { s with memory := m, live := s.live ++ [⟨view, bytes, overrides⟩] }
  | .appendWords words allocates => { s with memory := (s.memory.appendWords words allocates).2 }
  | .reset =>
    ⟨s.memory.reset, [], s.stale ++ s.live.map Snapshot.view, s.resets + 1⟩

/-- The view before is empty or was returned at some time, and the mask covers the pages
that differ from what it shows. -/
def Legal (s : Session) : Event → Prop
  | .capture bytes previous dirty overrides _ =>
    (previous.pages = 0 ∨ previous ∈ s.live.map Snapshot.view ∨ previous ∈ s.stale) ∧
      (dirty ≠ [] → previous ∈ s.live.map Snapshot.view →
        s.memory.Covers previous bytes dirty overrides)
  | _ => True

/-- What a call promises: a view that is right, with new pages for all that is forced and for
all of a capture that starts from a view of an earlier batch, or nothing changes. -/
def Promised (s : Session) : Event → Prop
  | .capture bytes previous dirty overrides allocates =>
    (∃ e, s.memory.capture bytes previous dirty overrides allocates = (.error e, s.memory)) ∨
      ∃ view m, s.memory.capture bytes previous dirty overrides allocates = (.ok view, m) ∧
        Shows m ⟨view, bytes, overrides⟩ ∧
        (previous ∈ s.stale → ∀ page < view.pages, s.memory.size ≤ m.entry view page) ∧
        ∀ o ∈ overrides, o.force → o.page < view.pages ∧ s.memory.size ≤ m.entry view o.page ∧
          ∀ other < view.pages, other ≠ o.page →
            m.entry view other + pageWords ≤ m.entry view o.page ∨
              m.entry view o.page + pageWords ≤ m.entry view other
  | .appendWords words allocates =>
    (∃ e, s.memory.appendWords words allocates = (.error e, s.memory)) ∨
      ∃ n m, s.memory.appendWords words allocates = (.ok n, m) ∧
        ∀ i < words.length, m.words (n + i) = words.getD i 0
  | .reset => True

/-- Every snapshot is right, and the generations tell the batches apart. -/
structure Sound (s : Session) : Prop where
  limit : s.memory.size ≤ s.memory.limitWords ∧ s.memory.limitWords < 2 ^ 32
  generation : s.memory.generation = BitVec.ofNat 64 (1 + s.resets)
  live : ∀ snap ∈ s.live, Shows s.memory snap ∧ snap.view.generation = s.memory.generation
  stale : ∀ view ∈ s.stale, ∃ r < s.resets, view.generation = BitVec.ofNat 64 (1 + r)

section Steps

variable {s : Session}

theorem sound_start {byteLimit : ℕ} {m : Memory} (hm : Memory.build byteLimit = .ok m) :
    (start m).Sound := by
  rw [Memory.build] at hm
  split at hm
  · cases hm
  · next hno =>
    obtain rfl := Except.ok.inj hm
    have hlimit := (not_or.mp (not_or.mp hno).2).1
    exact ⟨⟨Nat.zero_le _, by change byteLimit / 4 < 2 ^ 32; omega⟩, rfl,
      fun _ hsnap => absurd hsnap List.not_mem_nil, fun _ hview => absurd hview List.not_mem_nil⟩

/-- A generation of an earlier batch does not come back within 2^64 resets. -/
theorem Sound.stale_ne (h : s.Sound) (hresets : s.resets < 2 ^ 64) {view : View}
    (hview : view ∈ s.stale) : view.generation ≠ s.memory.generation := by
  obtain ⟨r, hr, hgen⟩ := h.stale view hview
  rw [hgen, h.generation]
  intro heq
  have hmod := congrArg BitVec.toNat heq
  rw [BitVec.toNat_ofNat, BitVec.toNat_ofNat] at hmod
  omega

theorem Sound.capture_cases (h : s.Sound) (hresets : s.resets < 2 ^ 64) {bytes : List U8}
    {previous : View} {dirty : List U64} {overrides : List PageOverride} {allocates : Bool}
    (hlegal : s.Legal (.capture bytes previous dirty overrides allocates)) :
    (∃ e, s.memory.capture bytes previous dirty overrides allocates = (.error e, s.memory)) ∨
      ∃ view m, s.memory.capture bytes previous dirty overrides allocates = (.ok view, m) ∧
        Captured s.memory previous bytes overrides view m := by
  refine s.memory.capture_cases bytes previous dirty overrides allocates h.limit.1 h.limit.2
    fun hgen hpages => ?_
  rcases hlegal.1 with hzero | hlive | hstale
  · omega
  · obtain ⟨snap, hsnap, hview⟩ := List.mem_map.mp hlive
    refine ⟨⟨snap.bytes, snap.overrides, ?_⟩, fun hdirty => hlegal.2 hdirty hlive⟩
    rw [← hview]
    exact (h.live snap hsnap).1
  · exact absurd hgen (h.stale_ne hresets hstale)

theorem Sound.grown (h : s.Sound) {m : Memory} {more : List Snapshot} (hm : Grows s.memory m)
    (hsize : m.size ≤ s.memory.limitWords) (hlimit : m.limitWords = s.memory.limitWords)
    (hgen : m.generation = s.memory.generation)
    (hmore : ∀ snap ∈ more, Shows m snap ∧ snap.view.generation = m.generation) :
    Sound { s with memory := m, live := s.live ++ more } where
  limit := by
    rw [hlimit]
    exact ⟨hsize, h.limit.2⟩
  generation := hgen.trans h.generation
  live := fun snap hsnap => (List.mem_append.mp hsnap).elim
    (fun hold => ⟨(h.live snap hold).1.mono hm, (h.live snap hold).2.trans hgen.symm⟩) (hmore snap)
  stale := h.stale

theorem Sound.step (h : s.Sound) {event : Event} (hlegal : s.Legal event)
    (hresets : s.resets < 2 ^ 64) : (s.step event).Sound := by
  cases event with
  | capture bytes previous dirty overrides allocates =>
    rw [Session.step]
    rcases h.capture_cases hresets hlegal with ⟨e, heq⟩ | ⟨view, m, heq, hcaptured⟩ <;> rw [heq]
    · exact h
    · refine h.grown hcaptured.grows hcaptured.limit.1 hcaptured.limit.2 hcaptured.generation.1
        fun snap hsnap => ?_
      rw [List.mem_singleton.mp hsnap]
      exact ⟨hcaptured.shows, hcaptured.generation.2.trans hcaptured.generation.1.symm⟩
  | appendWords words allocates =>
    rw [Session.step]
    rcases s.memory.appendWords_cases words allocates with
      ⟨e, heq⟩ | ⟨m, heq, hgrows, hsize, hlimit, hgen, -⟩ <;> rw [heq]
    · exact h
    · have hnone : ∀ snap ∈ ([] : List Snapshot), Shows m snap ∧
          snap.view.generation = m.generation := fun _ hsnap => absurd hsnap List.not_mem_nil
      have hgrown := h.grown hgrows (hsize h.limit.1) hlimit hgen hnone
      rw [List.append_nil] at hgrown
      exact hgrown
  | reset =>
    refine ⟨⟨Nat.zero_le _, h.limit.2⟩, ?_, fun _ hsnap => absurd hsnap List.not_mem_nil,
      fun view hview => ?_⟩
    · change s.memory.generation + 1 = BitVec.ofNat 64 (1 + (s.resets + 1))
      rw [h.generation, ← Nat.add_assoc, BitVec.ofNat_add (1 + s.resets)]
      rfl
    · rcases List.mem_append.mp hview with hold | hnew
      · obtain ⟨r, hr, hgen⟩ := h.stale view hold
        exact ⟨r, Nat.lt_succ_of_lt hr, hgen⟩
      · obtain ⟨snap, hsnap, rfl⟩ := List.mem_map.mp hnew
        exact ⟨s.resets, Nat.lt_succ_self _, (h.live snap hsnap).2.trans h.generation⟩

theorem Sound.promised (h : s.Sound) {event : Event} (hlegal : s.Legal event)
    (hresets : s.resets < 2 ^ 64) : s.Promised event := by
  cases event with
  | capture bytes previous dirty overrides allocates =>
    rcases h.capture_cases hresets hlegal with herror | ⟨view, m, heq, hcaptured⟩
    · exact .inl herror
    · refine .inr ⟨view, m, heq, hcaptured.shows, fun hstale page hpage => ?_,
        fun o ho hforce => ?_⟩
      · rcases hcaptured.fresh page hpage with ⟨hgen, -⟩ | ⟨hnew, -⟩
        · exact absurd hgen (h.stale_ne hresets hstale)
        · exact hnew
      · have hpage := hcaptured.overridden o ho
        rcases hcaptured.fresh o.page hpage with ⟨-, -, hno⟩ | hnew
        · exact absurd (hno o ho rfl) (by rw [hforce]; exact Bool.true_eq_false.mp)
        · exact ⟨hpage, hnew⟩
  | appendWords words allocates =>
    rcases s.memory.appendWords_cases words allocates with
      herror | ⟨m, heq, -, hsize, -, -, hm, hwords⟩
    · exact .inl herror
    · refine .inr ⟨_, m, heq, fun i hi => ?_⟩
      have hlimit := hsize h.limit.1
      have hlt := h.limit.2
      rw [Nat.mod_eq_of_lt (by omega)]
      exact hwords i hi
  | reset => trivial

end Steps

end Session

/-- Resets in a row. -/
theorem Session.foldl_reset (s : Session) (n : ℕ) :
    (List.replicate (n + 1) Event.reset).foldl step s =
      ⟨{ s.memory with size := 0, generation := s.memory.generation + BitVec.ofNat 64 (n + 1) }, [],
        s.stale ++ s.live.map Snapshot.view, s.resets + (n + 1)⟩ := by
  induction n with
  | zero => rfl
  | succ n ih =>
    rw [List.replicate_succ', List.foldl_append, ih]
    have hone : (1 : U64) = BitVec.ofNat 64 1 := rfl
    simp only [List.foldl_cons, List.foldl_nil, step, Memory.reset, List.map_nil, List.append_nil,
      BitVec.add_assoc, Nat.add_assoc, hone, ← BitVec.ofNat_add]

/-- In every run with fewer than 2^64 resets each call keeps its promise, and every snapshot
since the last reset stays right. -/
theorem views_immutable (byteLimit : ℕ) (m : Memory) (hm : Memory.build byteLimit = .ok m)
    (events : List Event)
    (hlegal : ∀ p ∈ trace Session.step (.start m) events, p.1.Legal p.2 ∧ p.1.resets < 2 ^ 64) :
    (∀ p ∈ trace Session.step (.start m) events, p.1.Promised p.2) ∧
      ∀ snap ∈ (events.foldl Session.step (.start m)).live,
        Shows (events.foldl Session.step (.start m)).memory snap ∧
          ∀ i < snap.bytes.length,
            (events.foldl Session.step (.start m)).memory.read snap.view i = snap.byte i := by
  have hstart := Session.sound_start hm
  have hstep (s : Session) (event : Event) (h : s.Sound) (hs : s.Legal event ∧ s.resets < 2 ^ 64) :
      (s.step event).Sound := h.step hs.1 hs.2
  have hlast := foldl_invariant hstep hstart hlegal
  refine ⟨fun p hp => ?_, fun snap hsnap => ?_⟩
  · obtain ⟨hsound, hs⟩ := trace_invariant hstep hstart hlegal p hp
    exact hsound.promised hs.1 hs.2
  · have hshows := (hlast.live snap hsnap).1
    exact ⟨hshows, fun i hi => hshows.read hi⟩

/-- A page of zeros, its view, and 2^64 resets before other zeros are stored. -/
def zeroPage : List U8 := List.replicate 512 0

def zeroView : View := ⟨128, 1, 1⟩

def smallest : Memory := ⟨fun _ => 0, 0, maxPages * (pageWords + 1), 1⟩

def firstBatch : Session := (Session.start smallest).step (.capture zeroPage ⟨0, 0, 0⟩ [] [] true)

def wrapped : List Event :=
  .capture zeroPage ⟨0, 0, 0⟩ [] [] true ::
    (List.replicate (2 ^ 64 - 1 + 1) .reset ++ [.appendWords (List.replicate 129 0) true])

theorem bytesWord_zeroPage (i : ℕ) : bytesWord zeroPage i = 0 := by
  have hzero (i : ℕ) : zeroPage.getD i 0 = 0 := by
    rw [zeroPage, List.getD_eq_getElem?_getD, List.getElem?_replicate]
    split <;> rfl
  rw [bytesWord, hzero, hzero, hzero, hzero]
  rfl

theorem views_immutable_zeroPage :
    (Memory.build (maxPages * (pageWords + 1) * 4) = .ok smallest ∧
      ∀ p ∈ trace Session.step (.start smallest) [.capture zeroPage ⟨0, 0, 0⟩ [] [] true],
        p.1.Legal p.2 ∧ p.1.resets < 2 ^ 64) ∧
      ∀ p ∈ trace Session.step (.start smallest) [.capture zeroPage ⟨0, 0, 0⟩ [] [] true],
        p.1.Promised p.2 := by
  have hlegal : ∀ p ∈ trace Session.step (.start smallest)
      [.capture zeroPage ⟨0, 0, 0⟩ [] [] true], p.1.Legal p.2 ∧ p.1.resets < 2 ^ 64 := by
    intro p hp
    rw [List.mem_singleton.mp hp]
    exact ⟨⟨.inl rfl, fun hno => absurd rfl hno⟩, Nat.two_pow_pos 64⟩
  exact ⟨⟨rfl, hlegal⟩, (views_immutable (maxPages * (pageWords + 1) * 4) smallest rfl _ hlegal).1⟩

/-- The view of the first batch comes back as if it were new. -/
theorem stale_view_reused : Memory.build (maxPages * (pageWords + 1) * 4) = .ok smallest ∧
    (wrapped.foldl Session.step (.start smallest)).Legal (.capture zeroPage zeroView [] [] true) ∧
    ¬(wrapped.foldl Session.step (.start smallest)).Promised
      (.capture zeroPage zeroView [] [] true) := by
  have hview : firstBatch.live.map Snapshot.view = [zeroView] := by decide +kernel
  have hlimit : firstBatch.memory.limitWords = maxPages * (pageWords + 1) := by decide +kernel
  have hgen : firstBatch.memory.generation + BitVec.ofNat 64 (2 ^ 64 - 1 + 1) = 1 := by
    decide +kernel
  have hrun : wrapped.foldl Session.step (.start smallest) =
      (⟨{ firstBatch.memory with size := 0, generation := 1 }, [], firstBatch.stale ++ [zeroView],
        firstBatch.resets + (2 ^ 64 - 1 + 1)⟩ : Session).step
          (.appendWords (List.replicate 129 0) true) := by
    rw [wrapped, List.foldl_cons, List.foldl_append, Session.foldl_reset, ← firstBatch, hgen, hview]
    rfl
  have hstale : zeroView ∈ firstBatch.stale ++ [zeroView] :=
    List.mem_append_right _ (List.mem_singleton_self _)
  rw [hrun, Session.step]
  refine ⟨rfl, ⟨.inr (.inr hstale), fun hno => absurd rfl hno⟩, ?_⟩
  rcases Memory.appendWords_cases { firstBatch.memory with size := 0, generation := 1 }
    (List.replicate 129 0) true with ⟨e, heq⟩ | ⟨m, heq, -, -, -, hgen', hsize, hwords⟩
  · rw [Memory.appendWords, Memory.reserve, if_neg (by rw [hlimit]; decide +kernel), if_pos rfl]
      at heq
    cases heq
  rw [heq]
  have hzero (i : ℕ) (hi : i < 129) : m.words i = 0 := by
    rw [← Nat.zero_add i, hwords i (by rw [List.length_replicate]; exact hi),
      List.getD_eq_getElem?_getD, List.getElem?_replicate, if_pos hi]
    rfl
  have hentry : m.entry zeroView 0 = 0 := congrArg BitVec.toNat (hzero 128 (by decide))
  rw [List.length_replicate, Nat.zero_add] at hsize
  have hshared : m.capture zeroPage zeroView [] [] true = (.ok zeroView, m) := by
    refine Memory.capture_shared true ⟨by decide +kernel, by decide +kernel, by decide +kernel⟩
      hgen'.symm (by decide +kernel) (by rw [hsize]; exact le_refl 129) fun page hpage => ?_
    obtain rfl : page = 0 := Nat.lt_one_iff.mp hpage
    rw [Memory.Offers, hentry, hsize]
    refine ⟨by decide, fun k hk => ?_⟩
    rw [Nat.zero_add, hzero k (Nat.lt_succ_of_lt hk)]
    exact (bytesWord_zeroPage _).symm
  rintro (⟨e, he⟩ | ⟨view, m', hok, -, hnew, -⟩)
  · exact absurd (congrArg Prod.fst (hshared.symm.trans he)) (by simp)
  · obtain ⟨hview', rfl⟩ := Prod.mk.inj (hshared.symm.trans hok)
    obtain rfl := Except.ok.inj hview'
    have hle := hnew hstale 0 Nat.one_pos
    rw [hentry, hsize] at hle
    exact absurd hle (by decide)

end MelonDS.Native2D

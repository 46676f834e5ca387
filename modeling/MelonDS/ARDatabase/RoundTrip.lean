import MelonDS.ARDatabase.ReadBounds
import MelonDS.Library.LittleEndian

/-!
# Loading what was encoded

The layout of an entry as documented at the head of the source, and that loading it gives the
cheats back: each reader takes its own piece of the file and stops right behind it.
-/

namespace MelonDS.ARDatabaseDAT

open FileReader

/-! ## The layout -/

structure Cheat where
  name : List U8
  description : List U8
  enabled : Bool
  code : List U32

structure Category where
  name : List U8
  description : List U8
  /-- Only one cheat may be active. -/
  onlyOne : Bool
  cheats : List Cheat

inductive Item
  | cheat (c : Cheat)
  | category (c : Category)

structure Game where
  name : List U8
  active : Bool
  masterCodes : Fin 8 → U32
  items : List Item

def wordBytes (w : U32) : List U8 :=
  [w.extractLsb' 0 8, w.extractLsb' 8 8, w.extractLsb' 16 8, w.extractLsb' 24 8]

/-- Zeros up to the next multiple of 4. -/
def padding (pos : ℕ) : List U8 := List.replicate ((pos + 3) / 4 * 4 - pos) 0

/-- The two strings of an item, which begin at a multiple of 4. -/
def encodeTexts (name description : List U8) : List U8 :=
  name ++ [0] ++ (description ++ [0]) ++ padding (name.length + 1 + (description.length + 1))

/-- What the length of a cheat counts. -/
def Cheat.data (c : Cheat) : List U8 :=
  encodeTexts c.name c.description ++ (toBytes 4 c.code.length ++ c.code.flatMap wordBytes)

def Cheat.totalLength (c : Cheat) : ℕ := c.data.length / 4

def Cheat.encode (c : Cheat) : List U8 :=
  toBytes 4 (c.totalLength + 2 ^ 24 * c.enabled.toNat) ++ c.data

def Category.encode (c : Category) : List U8 :=
  toBytes 4 (c.cheats.length + 2 ^ 24 * c.onlyOne.toNat + 2 ^ 28) ++
    (encodeTexts c.name c.description ++ c.cheats.flatMap Cheat.encode)

def Item.encode : Item → List U8
  | .cheat c => c.encode
  | .category c => c.encode

/-- The items an item stands for in the list of an entry. -/
def Item.count : Item → ℕ
  | .cheat _ => 1
  | .category c => c.cheats.length + 1

def Game.count (g : Game) : ℕ := (g.items.map Item.count).sum

/-- An entry whose data begins at `offset` of the file. -/
def Game.encode (g : Game) (offset : ℕ) : List U8 :=
  g.name ++ [0] ++ (padding (offset + (g.name.length + 1)) ++
    (toBytes 4 (g.count + 2 ^ 28 * (15 * g.active.toNat)) ++
      ((List.ofFn g.masterCodes).flatMap wordBytes ++ g.items.flatMap Item.encode)))

/-- What the fields of an entry can say of a cheat. -/
structure Cheat.Valid (c : Cheat) : Prop where
  name : 0 ∉ c.name
  description : 0 ∉ c.description
  even : c.code.length % 2 = 0
  code : c.code.length < 0x100000
  total : c.totalLength < 0x1000000

structure Category.Valid (c : Category) : Prop where
  name : 0 ∉ c.name
  description : 0 ∉ c.description
  nonempty : c.cheats ≠ []
  length : c.cheats.length < 0x10000
  cheats : ∀ cheat ∈ c.cheats, cheat.Valid

def Item.Valid : Item → Prop
  | .cheat c => c.Valid
  | .category c => c.Valid

structure Game.Valid (g : Game) : Prop where
  name : 0 ∉ g.name
  count : g.count < 0x10000000
  items : ∀ item ∈ g.items, item.Valid

/-! ## The tree -/

def Cheat.arCode (c : Cheat) (parent : CatPtr) (enabled : Bool) : ARCode :=
  ⟨parent, c.name, c.description, enabled, c.code⟩

/-- Where only one cheat may be active, those after the first active one are switched off. -/
def Category.arCodes (c : Category) (i : ℕ) : List ARCode :=
  c.cheats.mapIdx fun k cheat =>
    cheat.arCode (.child i) (cheat.enabled && !(c.onlyOne && (c.cheats.take k).any Cheat.enabled))

/-- The item as the child at `i` of the root. -/
def Item.arItem (i : ℕ) : Item → ARCodeItem
  | .cheat c => .code (c.arCode .root c.enabled)
  | .category c => .cat ⟨.root, c.name, c.description, c.onlyOne, c.arCodes i⟩

def Game.tree (g : Game) : List ARCodeItem := g.items.mapIdx Item.arItem

/-! ## Pieces -/

variable {file : List U8} {pos stop : ℕ}

theorem idxOf?_append {l : List U8} (hl : 0 ∉ l) (rest : List U8) :
    (l ++ 0 :: rest).idxOf? 0 = some l.length := by
  induction l with
  | nil => rfl
  | cons b l ih =>
    have hb : b ≠ 0 := fun heq => hl (heq ▸ List.mem_cons_self)
    rw [List.cons_append, List.idxOf?_cons, if_neg (by simpa using hb),
      ih fun hmem => hl (List.mem_cons_of_mem _ hmem)]
    rfl

theorem readNTLoop_spec (hstop : stop ≤ file.length) (acc : List U8) (h : Handle) :
    ∀ text, 0 ∉ text → Holds file h.pos (text ++ [0]) → h.pos + text.length + 1 ≤ stop →
      (readNTLoop file stop acc h).1 = some (acc ++ text) ∧
        (readNTLoop file stop acc h).2.pos = h.pos + text.length + 1 := by
  induction acc, h using readNTLoop.induct file stop with
  | case1 acc h hover =>
    intro text _ _ hend
    omega
  | case2 acc h hover count buffer hshort =>
    intro text _ _ _
    have hlength : buffer.length = count := by
      rw [List.length_take, List.length_drop]
      omega
    exact absurd hlength hshort
  | case3 acc h hover count buffer hfull length hfound =>
    intro text htext hfile hend
    obtain ⟨rest, heq⟩ := hfile
    have hcount : text.length < count := by
      by_contra hge
      have hbuffer : buffer = text.take count := by
        change (file.drop h.pos).take count = _
        rw [← heq, List.append_assoc, List.take_append_of_le_length (by omega)]
      have hnone : buffer.idxOf? 0 = none := by
        rw [hbuffer, List.idxOf?_eq_none_iff]
        exact fun hmem => htext (List.mem_of_mem_take hmem)
      rw [hnone] at hfound
      cases hfound
    have hbuffer : buffer = text ++ 0 :: rest.take (count - (text.length + 1)) := by
      change (file.drop h.pos).take count = _
      rw [← heq, List.take_append, List.take_of_length_le (by simp; omega), List.length_append,
        List.append_assoc]
      rfl
    have hlength : length = text.length := by
      rw [hbuffer, idxOf?_append htext] at hfound
      exact (Option.some.inj hfound).symm
    rw [readNTLoop, dif_neg hover]
    dsimp only
    rw [dif_neg hfull, hfound, hlength]
    constructor
    · change some (acc ++ buffer.take text.length) = _
      rw [hbuffer, List.take_left]
    · rfl
  | case4 acc h hover count buffer h' hfull hnone ih =>
    intro text htext hfile hend
    obtain ⟨rest, heq⟩ := hfile
    have hcount : count ≤ text.length := by
      by_contra hlt
      have hmem : 0 ∈ buffer := by
        change 0 ∈ (file.drop h.pos).take count
        rw [← heq, List.take_append, List.take_of_length_le (by simp; omega)]
        simp
      exact List.idxOf?_eq_none_iff.mp hnone hmem
    have hbuffer : buffer = text.take count := by
      change (file.drop h.pos).take count = _
      rw [← heq, List.append_assoc, List.take_append_of_le_length (by omega)]
    have hpos : h'.pos = h.pos + count := by
      change h.pos + buffer.length = h.pos + count
      rw [hbuffer, List.length_take, Nat.min_eq_left hcount]
    have hrest : Holds file h'.pos (text.drop count ++ [0]) := by
      refine ⟨rest, ?_⟩
      rw [hpos, ← List.drop_drop, ← heq, List.append_assoc, List.append_assoc,
        List.drop_append_of_le_length hcount]
    have hdrop := List.length_drop (i := count) (l := text)
    obtain ⟨hvalue, hafter⟩ :=
      ih (text.drop count) (fun hmem => htext (List.mem_of_mem_drop hmem)) hrest (by omega)
    rw [readNTLoop, dif_neg hover]
    dsimp only
    rw [dif_neg hfull, hnone]
    constructor
    · refine hvalue.trans ?_
      rw [hbuffer, List.append_assoc, List.take_append_drop]
    · exact hafter.trans (by omega)

theorem yields_readNTString (hstop : stop ≤ file.length) {text : List U8} (htext : 0 ∉ text)
    (hfile : Holds file pos (text ++ [0])) (hend : pos + (text.length + 1) ≤ stop) :
    Yields (readNTString file stop) pos text (pos + (text.length + 1)) := by
  rintro h rfl
  exact readNTLoop_spec hstop [] h text htext hfile hend

theorem yields_alignFilePos (hend : (pos + 3) / 4 * 4 ≤ stop) :
    Yields (alignFilePos stop) pos () ((pos + 3) / 4 * 4) := by
  refine (yields_tell pos).bind ((yields_check (by omega) pos).bind ?_)
  refine (yields_check hend pos).bind ?_
  split_ifs with haligned
  · rw [haligned]
    exact yields_pure () pos
  · exact yields_seek pos _

theorem yields_readData {bytes : List U8} {n : ℕ} (hfile : Holds file pos bytes)
    (hn : bytes.length = n) (hend : pos + n ≤ stop) :
    Yields (readData file n stop) pos bytes (pos + n) := by
  refine (yields_tell pos).bind ((yields_check (by omega) pos).bind ?_)
  split_ifs with h0
  · subst h0
    rw [List.length_eq_zero_iff.mp hn]
    exact yields_pure [] pos
  · refine (yields_read hfile hn).bind ((yields_check hn _).bind ?_)
    exact yields_pure bytes _

theorem yields_readWord {n : ℕ} (hn : n < 2 ^ 32) (hfile : Holds file pos (toBytes 4 n))
    (hend : pos + 4 ≤ stop) : Yields (readWord file stop) pos n (pos + 4) := by
  refine (yields_readData hfile (length_toBytes 4 n) hend).bind ?_
  have hvalue : ofBytes (toBytes 4 n) = n := by
    rw [ofBytes_toBytes]
    exact Nat.mod_eq_of_lt hn
  rw [hvalue]
  exact yields_pure n _

theorem length_flatMap_wordBytes (ws : List U32) : (ws.flatMap wordBytes).length = 4 * ws.length := by
  induction ws with
  | nil => rfl
  | cons w ws ih =>
    rw [List.flatMap_cons, List.length_append, ih, List.length_cons]
    exact (Nat.add_comm 4 _).trans rfl

theorem words_wordBytes (ws : List U32) : words (ws.flatMap wordBytes) = ws := by
  induction ws with
  | nil => rfl
  | cons w ws ih =>
    rw [List.flatMap_cons, wordBytes, List.cons_append, List.cons_append, List.cons_append,
      List.cons_append, List.nil_append, words, ih, append_bytes]

theorem length_encodeTexts (name description : List U8) : (encodeTexts name description).length =
    (name.length + 1 + (description.length + 1) + 3) / 4 * 4 := by
  simp only [encodeTexts, padding, List.length_append, List.length_replicate, List.length_singleton]
  omega

/-- The word in front of an item. -/
theorem item_flags {n w : ℕ} (hn : n < 0x1000000) (b : Bool) (k : ℕ)
    (hw : w = n + 2 ^ 24 * b.toNat + 2 ^ 28 * k) :
    w % 0x1000000 = n ∧ w.testBit 24 = b ∧ w.testBit 28 = decide (k % 2 = 1) := by
  rw [Nat.testBit_eq_decide_div_mod_eq, Nat.testBit_eq_decide_div_mod_eq]
  cases b
  · rw [Bool.toNat_false] at hw
    refine ⟨by omega, decide_eq_false (by omega), ?_⟩
    rw [show w / 2 ^ 28 % 2 = k % 2 by omega]
  · rw [Bool.toNat_true] at hw
    refine ⟨by omega, decide_eq_true (by omega), ?_⟩
    rw [show w / 2 ^ 28 % 2 = k % 2 by omega]

/-! ## Items -/

/-- The state after a cheat. -/
def Items.addCheat (s : Items) (c : Cheat) : Items :=
  let curcat := if s.catlen = 0 then .root else s.curcat
  { curcat := curcat
    catlen := s.catlen - 1
    children := addCode (c.arCode curcat c.enabled) s.children curcat }

/-- The state after the item of a category, before its cheats. -/
def Items.addCategory (s : Items) (c : Category) : Items where
  curcat := .child s.children.length
  catlen := c.cheats.length
  children := s.children ++ [.cat ⟨.root, c.name, c.description, c.onlyOne, []⟩]

/-- An item up to its texts; what its kind has left takes over behind them. -/
theorem leads_readItem {flags itemEnd : ℕ} {name description : List U8} (left : ℕ) (s : Items)
    (hflags : flags < 2 ^ 32) (haligned : pos % 4 = 0) (hname : 0 ∉ name)
    (hdescription : 0 ∉ description)
    (hfile : Holds file pos (toBytes 4 flags ++ encodeTexts name description))
    (hstop : pos + 4 ≤ stop) (hlength : itemEnd ≤ file.length)
    (hitem : Yields (readItemEnd (flags.testBit 28) (flags % 0x1000000) stop) (pos + 4) itemEnd
      (pos + 4))
    (hend : pos + 4 + (encodeTexts name description).length ≤ itemEnd) :
    Leads (readItem file stop left s) pos
      (if flags.testBit 28 then
        readCategory (flags % 0x1000000) left name description (flags.testBit 24) s
      else readCode file itemEnd name description (flags.testBit 24) s)
      (pos + 4 + (encodeTexts name description).length) := by
  have htexts := hfile.right
  rw [length_toBytes, encodeTexts] at htexts
  have hpadded := length_encodeTexts name description
  refine ((yields_readWord hflags hfile.left hstop).leads _).trans ((hitem.leads _).trans ?_)
  refine ((yields_readNTString hlength hname htexts.left.left (by omega)).leads _).trans ?_
  have hdesc := htexts.left.right
  rw [List.length_append, List.length_singleton] at hdesc
  refine ((yields_readNTString hlength hdescription hdesc (by omega)).leads _).trans ?_
  rw [show pos + 4 + (encodeTexts name description).length =
    (pos + 4 + (name.length + 1) + (description.length + 1) + 3) / 4 * 4 by omega]
  exact (yields_alignFilePos (by omega)).leads _

theorem Cheat.length_data (c : Cheat) : c.data.length =
    (encodeTexts c.name c.description).length + 4 + 4 * c.code.length := by
  rw [Cheat.data, List.length_append, List.length_append, length_toBytes,
    length_flatMap_wordBytes, Nat.add_assoc]

theorem Cheat.totalLength_mul (c : Cheat) : c.totalLength * 4 = c.data.length := by
  have hlength := c.length_data
  have htexts := length_encodeTexts c.name c.description
  rw [Cheat.totalLength]
  omega

theorem Cheat.length_encode (c : Cheat) : c.encode.length = 4 + c.data.length := by
  rw [Cheat.encode, List.length_append, length_toBytes]

theorem yields_readItem_cheat {c : Cheat} (hc : c.Valid) {left : ℕ} (s : Items)
    (haligned : pos % 4 = 0) (hfile : Holds file pos c.encode)
    (hstop : pos + c.encode.length ≤ stop) (hlength : stop ≤ file.length) :
    Yields (readItem file stop left s) pos (s.addCheat c) (pos + c.encode.length) := by
  obtain ⟨htotal, henabled, hkind⟩ := item_flags hc.total c.enabled 0 rfl
  rw [Nat.mul_zero, Nat.add_zero] at htotal henabled hkind
  have hdata := c.totalLength_mul
  have hparts := c.length_data
  have hcode := hc.code
  have hflags : c.totalLength + 2 ^ 24 * c.enabled.toNat < 2 ^ 32 := by
    have hbit := c.enabled.toNat_le
    have htotal := hc.total
    omega
  rw [c.length_encode] at hstop ⊢
  rw [Cheat.encode, Cheat.data, ← List.append_assoc] at hfile
  have hitem : Yields (readItemEnd
      ((c.totalLength + 2 ^ 24 * c.enabled.toNat).testBit 28)
      ((c.totalLength + 2 ^ 24 * c.enabled.toNat) % 0x1000000) stop) (pos + 4)
      (pos + 4 + c.totalLength * 4) (pos + 4) := by
    rw [hkind, htotal]
    exact (yields_tell _).bind ((yields_check (by omega) _).bind (yields_pure _ _))
  refine (leads_readItem left s hflags haligned hc.name hc.description hfile.left (by omega)
    (by omega) hitem (by omega)).yields ?_
  rw [hkind, henabled]
  have hwords := hfile.right
  rw [List.length_append, length_toBytes, ← Nat.add_assoc] at hwords
  have hcodes := hwords.right
  rw [length_toBytes] at hcodes
  refine (yields_readWord (by omega) hwords.left (by omega)).bind ?_
  refine (yields_tell _).bind ((yields_check (by omega) _).bind ?_)
  refine (yields_check ⟨hcode, hc.even⟩ _).bind ?_
  refine (yields_readData hcodes ?_ (by omega)).bind ?_
  · rw [length_flatMap_wordBytes, Nat.mul_comm]
  · rw [words_wordBytes, show pos + 4 + (encodeTexts c.name c.description).length + 4 +
      c.code.length * 4 = pos + (4 + c.data.length) by omega]
    exact yields_pure (s.addCheat c) _

/-- The item of a category, up to the checks. -/
theorem leads_readItem_category {c : Category} (hname : 0 ∉ c.name)
    (hdescription : 0 ∉ c.description) (hcount : c.cheats.length < 0x10000) (left : ℕ) (s : Items)
    (haligned : pos % 4 = 0)
    (hfile : Holds file pos
      (toBytes 4 (c.cheats.length + 2 ^ 24 * c.onlyOne.toNat + 2 ^ 28) ++
        encodeTexts c.name c.description))
    (hstop : pos + 4 + (encodeTexts c.name c.description).length ≤ stop)
    (hlength : stop ≤ file.length) :
    Leads (readItem file stop left s) pos
      (readCategory c.cheats.length left c.name c.description c.onlyOne s)
      (pos + 4 + (encodeTexts c.name c.description).length) := by
  obtain ⟨htotal, honly, hkind⟩ :=
    item_flags (n := c.cheats.length) (by omega) c.onlyOne 1 rfl
  have hbit := c.onlyOne.toNat_le
  rw [Nat.mul_one] at htotal honly hkind
  have hitem : Yields (readItemEnd
      ((c.cheats.length + 2 ^ 24 * c.onlyOne.toNat + 2 ^ 28).testBit 28)
      ((c.cheats.length + 2 ^ 24 * c.onlyOne.toNat + 2 ^ 28) % 0x1000000) stop) (pos + 4) stop
      (pos + 4) := by
    rw [hkind]
    exact yields_pure stop _
  have hleads := leads_readItem left s (by omega) haligned hname hdescription hfile (by omega)
    hlength hitem hstop
  rw [hkind, honly, htotal] at hleads
  exact hleads

/-! ## The list of items -/

/-- The item as the child at `i` of the root, before the rule for active cheats. -/
def Item.loaded (i : ℕ) : Item → ARCodeItem
  | .cheat c => .code (c.arCode .root c.enabled)
  | .category c => .cat ⟨.root, c.name, c.description, c.onlyOne,
      c.cheats.map fun cheat => cheat.arCode (.child i) cheat.enabled⟩

theorem addCode_last (children : List ARCodeItem) (cat : ARCodeCat) (c : ARCode) :
    addCode c (children ++ [.cat cat]) (.child children.length) =
      children ++ [.cat { cat with children := cat.children ++ [c] }] := by
  rw [addCode, List.modify_eq_take_cons_drop (by simp)]
  simp

theorem Cheat.length_encode_mod (c : Cheat) : c.encode.length % 4 = 0 := by
  have hdata := c.totalLength_mul
  rw [c.length_encode]
  omega

/-- The cheats of the category that was added last. -/
theorem yields_cheats {cheats : List Cheat} (hcheats : ∀ c ∈ cheats, c.Valid)
    (children : List ARCodeItem) (cat : ARCodeCat) {left pos' : ℕ} {s : Items}
    (haligned : pos % 4 = 0) (hfile : Holds file pos (cheats.flatMap Cheat.encode))
    (hstop : pos + (cheats.flatMap Cheat.encode).length ≤ stop) (hlength : stop ≤ file.length)
    (hrest : Yields (readItems file stop left
        ⟨.child children.length, 0, children ++ [.cat { cat with
          children := cat.children ++ cheats.map fun c =>
            c.arCode (.child children.length) c.enabled }]⟩)
      (pos + (cheats.flatMap Cheat.encode).length) s pos') :
    Yields (readItems file stop (cheats.length + left)
      ⟨.child children.length, cheats.length, children ++ [.cat cat]⟩) pos s pos' := by
  induction cheats generalizing cat pos with
  | nil =>
    rw [List.map_nil, List.append_nil] at hrest
    rw [List.length_nil, Nat.zero_add]
    exact hrest
  | cons c cheats ih =>
    have hmod := c.length_encode_mod
    rw [List.flatMap_cons, List.length_append] at hstop hrest
    rw [List.flatMap_cons] at hfile
    rw [List.length_cons, Nat.add_right_comm]
    refine (yields_readItem_cheat (hcheats c List.mem_cons_self) _ haligned hfile.left
      (by omega) hlength).bind ?_
    have hadd : Items.addCheat
        ⟨.child children.length, cheats.length + 1, children ++ [.cat cat]⟩ c =
        ⟨.child children.length, cheats.length, children ++ [.cat { cat with
          children := cat.children ++ [c.arCode (.child children.length) c.enabled] }]⟩ := by
      rw [Items.addCheat]
      dsimp only
      rw [if_neg (Nat.succ_ne_zero _), addCode_last, Nat.add_sub_cancel]
    rw [hadd]
    refine ih (fun c hc => hcheats c (List.mem_cons_of_mem _ hc)) _ (by omega) hfile.right
      (by omega) ?_
    rw [List.append_assoc, Nat.add_assoc]
    exact hrest

theorem Category.length_encode (c : Category) : c.encode.length =
    4 + (encodeTexts c.name c.description).length + (c.cheats.flatMap Cheat.encode).length := by
  rw [Category.encode, List.length_append, List.length_append, length_toBytes, Nat.add_assoc]

theorem Item.length_encode_mod (item : Item) : item.encode.length % 4 = 0 := by
  cases item with
  | cheat c => exact c.length_encode_mod
  | category c =>
    have htexts := length_encodeTexts c.name c.description
    have hcheats : (c.cheats.flatMap Cheat.encode).length % 4 = 0 := by
      induction c.cheats with
      | nil => rfl
      | cons cheat cheats ih =>
        have hmod := cheat.length_encode_mod
        rw [List.flatMap_cons, List.length_append]
        omega
    rw [Item.encode, c.length_encode]
    omega

/-- The items of an entry, read with no category open. -/
theorem yields_items {items : List Item} (hitems : ∀ item ∈ items, item.Valid) (curcat : CatPtr)
    (children : List ARCodeItem) (haligned : pos % 4 = 0)
    (hfile : Holds file pos (items.flatMap Item.encode))
    (hstop : pos + (items.flatMap Item.encode).length ≤ stop) (hlength : stop ≤ file.length) :
    ∃ last, Yields (readItems file stop (items.map Item.count).sum ⟨curcat, 0, children⟩) pos
      ⟨last, 0, children ++ items.mapIdx fun i => Item.loaded (children.length + i)⟩
      (pos + (items.flatMap Item.encode).length) := by
  induction items generalizing curcat children pos with
  | nil =>
    refine ⟨curcat, ?_⟩
    rw [List.mapIdx_nil, List.append_nil]
    exact yields_pure _ pos
  | cons item items ih =>
    have hmod := item.length_encode_mod
    have hvalid := hitems item List.mem_cons_self
    rw [List.flatMap_cons] at hfile
    rw [List.flatMap_cons, List.length_append] at hstop
    -- the rest, after this item became the last child
    have hrest : ∀ cur, ∃ last, Yields (readItems file stop (items.map Item.count).sum
          ⟨cur, 0, children ++ [item.loaded children.length]⟩) (pos + item.encode.length)
        ⟨last, 0, children ++ (item :: items).mapIdx fun i => Item.loaded (children.length + i)⟩
        (pos + ((item :: items).flatMap Item.encode).length) := by
      intro cur
      obtain ⟨last, hyields⟩ := ih (fun item hi => hitems item (List.mem_cons_of_mem _ hi)) cur
        (children ++ [item.loaded children.length]) (by omega) hfile.right (by omega)
      refine ⟨last, ?_⟩
      rw [List.append_assoc, List.length_append, List.length_singleton, Nat.add_assoc,
        ← List.length_append] at hyields
      rw [List.mapIdx_cons, List.flatMap_cons]
      simpa only [Nat.add_right_comm, Nat.add_assoc, Nat.add_comm 1, Nat.add_zero,
        List.singleton_append] using hyields
    rw [List.map_cons, List.sum_cons]
    cases item with
    | cheat c =>
      obtain ⟨last, hyields⟩ := hrest .root
      refine ⟨last, ?_⟩
      rw [Item.encode] at hstop
      rw [Item.count, Nat.add_comm]
      exact (yields_readItem_cheat hvalid ⟨curcat, 0, children⟩ haligned hfile.left (by omega)
        hlength).bind hyields
    | category c =>
      obtain ⟨last, hyields⟩ := hrest (.child children.length)
      refine ⟨last, ?_⟩
      have hparts := hfile.left
      rw [Item.encode, Category.encode, ← List.append_assoc] at hparts
      have hcheats := hparts.right
      have hsize := c.length_encode
      have htexts := length_encodeTexts c.name c.description
      rw [List.length_append, length_toBytes, ← Nat.add_assoc] at hcheats
      rw [Item.encode] at hstop hmod hyields
      rw [Item.count, Nat.add_right_comm]
      have hpos := List.length_pos_of_ne_nil hvalid.nonempty
      have hcategory : Yields
          (readCategory c.cheats.length (c.cheats.length + (items.map Item.count).sum) c.name
            c.description c.onlyOne ⟨curcat, 0, children⟩)
          (pos + 4 + (encodeTexts c.name c.description).length)
          ((⟨curcat, 0, children⟩ : Items).addCategory c)
          (pos + 4 + (encodeTexts c.name c.description).length) :=
        (yields_check ⟨rfl, hvalid.length, by omega, Nat.le_add_right _ _⟩ _).bind
          (yields_pure _ _)
      refine ((leads_readItem_category hvalid.name hvalid.description hvalid.length _ _ haligned
        hparts.left (by omega) hlength).yields hcategory).bind ?_
      refine yields_cheats hvalid.cheats children _ (by omega) hcheats (by omega) hlength ?_
      rw [hsize] at hyields
      rw [show pos + 4 + (encodeTexts c.name c.description).length +
        (c.cheats.flatMap Cheat.encode).length = pos + (4 +
        (encodeTexts c.name c.description).length +
        (c.cheats.flatMap Cheat.encode).length) by omega]
      exact hyields

/-! ## Entries -/

theorem keepFirst_eq_mapIdx (foundone : Bool) (codes : List ARCode) :
    keepFirst foundone codes = codes.mapIdx fun k c =>
      { c with enabled := c.enabled && !(foundone || (codes.take k).any ARCode.enabled) } := by
  induction codes generalizing foundone with
  | nil => rfl
  | cons c codes ih =>
    rw [keepFirst, List.mapIdx_cons, ih, ih]
    cases hc : c.enabled
    · have hsame : { c with enabled := false } = c := by rw [← hc]
      simp [hc, hsame]
    · simp [hc]

theorem enforceOnlyOne_loaded (i : ℕ) (item : Item) :
    enforceOnlyOne (item.loaded i) = item.arItem i := by
  cases item with
  | cheat c => rfl
  | category c =>
    rw [Item.loaded, enforceOnlyOne, Item.arItem, Category.arCodes, keepFirst_eq_mapIdx]
    cases c.onlyOne
    · have hmap : c.cheats.map (fun cheat => cheat.arCode (.child i) cheat.enabled) =
          c.cheats.mapIdx fun k cheat => cheat.arCode (.child i)
            (cheat.enabled && !(false && (c.cheats.take k).any Cheat.enabled)) := by
        refine (List.mapIdx_eq_iff.mpr fun k => ?_).symm
        simp
      rw [← hmap]
      rfl
    · have hany : ∀ k, ((c.cheats.map fun cheat => cheat.arCode (.child i) cheat.enabled).take
          k).any ARCode.enabled = (c.cheats.take k).any Cheat.enabled := by
        intro k
        rw [← List.map_take, List.any_map]
        rfl
      simp only [hany, Bool.false_or, Bool.true_and, if_pos]
      congr 2
      refine (List.mapIdx_eq_iff.mpr fun k => ?_).symm
      rw [List.getElem?_mapIdx, List.getElem?_map, Option.map_map]
      rfl

theorem length_item (item : Item) : 8 * item.count ≤ item.encode.length := by
  have hcheat : ∀ c : Cheat, 8 ≤ c.encode.length := by
    intro c
    rw [c.length_encode, c.length_data, length_encodeTexts]
    omega
  cases item with
  | cheat c => exact hcheat c
  | category c =>
    have hcheats : 8 * c.cheats.length ≤ (c.cheats.flatMap Cheat.encode).length := by
      induction c.cheats with
      | nil => exact Nat.le_refl 0
      | cons cheat cheats ih =>
        have hlength := hcheat cheat
        rw [List.flatMap_cons, List.length_append, List.length_cons]
        omega
    rw [Item.count, Item.encode, c.length_encode, length_encodeTexts]
    omega

/-- Each item of the list takes eight bytes at least. -/
theorem length_items (items : List Item) :
    8 * (items.map Item.count).sum ≤ (items.flatMap Item.encode).length := by
  induction items with
  | nil => exact Nat.le_refl 0
  | cons item items ih =>
    have hitem := length_item item
    rw [List.map_cons, List.sum_cons, List.flatMap_cons, List.length_append]
    omega

/-- What comes behind the words of an entry. -/
def readTree (file : List U8) (info : EntryInfo) (name : List U8) (count : ℕ) :
    Reader ARDatabaseEntry := do
  let s ← readItems file info.endOffset count ⟨.root, 0, []⟩
  check (s.catlen = 0)
  pure ⟨info.gameCode, info.checksum, name, s.children.map enforceOnlyOne⟩

theorem leads_readBody {g : Game} (hcount : g.count < 0x10000000) (info : EntryInfo)
    (hfile : Holds file pos (toBytes 4 (g.count + 2 ^ 28 * (15 * g.active.toNat)) ++
      (List.ofFn g.masterCodes).flatMap wordBytes ++ g.items.flatMap Item.encode))
    (hstop : pos + 36 + (g.items.flatMap Item.encode).length ≤ info.endOffset) :
    Leads (readBody file info g.name) pos (readTree file info g.name g.count) (pos + 36) := by
  have hitems := length_items g.items
  have hactive := g.active.toNat_le
  have hheader : (toBytes 4 (g.count + 2 ^ 28 * (15 * g.active.toNat)) ++
      (List.ofFn g.masterCodes).flatMap wordBytes).length = 36 := by
    rw [List.length_append, length_toBytes, length_flatMap_wordBytes, List.length_ofFn]
  have hflags : ofBytes ((toBytes 4 (g.count + 2 ^ 28 * (15 * g.active.toNat)) ++
      (List.ofFn g.masterCodes).flatMap wordBytes).take 4) % 0x10000000 = g.count := by
    rw [take_toBytes_append, ofBytes_toBytes]
    omega
  refine ((yields_readData hfile.left hheader (by omega)).leads _).trans ?_
  dsimp only
  rw [hflags]
  refine ((yields_tell _).leads _).trans ((yields_check ?_ _).leads _)
  rw [Game.count]
  omega

theorem Game.length_encode (g : Game) (offset : ℕ) : (g.encode offset).length =
    (offset + (g.name.length + 1) + 3) / 4 * 4 - offset + 36 +
      (g.items.flatMap Item.encode).length := by
  simp only [Game.encode, padding, List.length_append, List.length_singleton, length_toBytes,
    length_flatMap_wordBytes, List.length_ofFn, List.length_replicate]
  omega

/-- An entry up to its items. -/
theorem leads_loadCheatCodes {g : Game} (hname : 0 ∉ g.name) (hcount : g.count < 0x10000000)
    {info : EntryInfo} (hfile : Holds file info.offset (g.encode info.offset))
    (hoffset : 0x100 ≤ info.offset)
    (hend : info.offset + (g.encode info.offset).length ≤ info.endOffset)
    (hlength : info.endOffset ≤ file.length) (hmax : file.length ≤ 0xFFFFFFFF) :
    Leads (loadCheatCodes file info) 0 (readTree file info g.name g.count)
      ((info.offset + (g.name.length + 1) + 3) / 4 * 4 + 36) ∧
    Holds file ((info.offset + (g.name.length + 1) + 3) / 4 * 4 + 36)
      (g.items.flatMap Item.encode) := by
  have hsize := g.length_encode info.offset
  rw [Game.encode] at hfile
  have hbody := hfile.right.right
  rw [List.length_append, List.length_singleton, padding, List.length_replicate,
    ← List.append_assoc, Nat.add_sub_of_le (by omega)] at hbody
  have hitems := hbody.right
  rw [List.length_append, length_toBytes, length_flatMap_wordBytes, List.length_ofFn] at hitems
  refine ⟨?_, hitems⟩
  refine ((yields_check (by omega) 0).leads _).trans ?_
  refine ((yields_seek 0 info.offset).leads _).trans ?_
  refine ((yields_readNTString hlength hname hfile.left (by omega)).leads _).trans ?_
  refine ((yields_alignFilePos (by omega)).leads _).trans ?_
  exact leads_readBody hcount info hbody (by omega)

/-- An entry is loaded as it was encoded, wherever it lies in the file. -/
theorem loadCheatCodes_encode {g : Game} (hg : g.Valid) {info : EntryInfo}
    (hfile : Holds file info.offset (g.encode info.offset)) (hoffset : 0x100 ≤ info.offset)
    (hend : info.offset + (g.encode info.offset).length ≤ info.endOffset)
    (hlength : info.endOffset ≤ file.length) (hmax : file.length ≤ 0xFFFFFFFF) :
    (loadCheatCodes file info opened).1 =
      some ⟨info.gameCode, info.checksum, g.name, g.tree⟩ := by
  have hsize := g.length_encode info.offset
  obtain ⟨hleads, hitems⟩ :=
    leads_loadCheatCodes hg.name hg.count hfile hoffset hend hlength hmax
  obtain ⟨last, hyields⟩ :=
    yields_items hg.items .root [] (by omega) hitems (by omega) hlength
  have htree : (g.items.mapIdx fun i => Item.loaded (0 + i)).map enforceOnlyOne = g.tree := by
    refine (List.mapIdx_eq_iff.mpr fun i => ?_).symm
    simp [enforceOnlyOne_loaded, Function.comp_def]
  have hread : Yields (readTree file info g.name g.count)
      ((info.offset + (g.name.length + 1) + 3) / 4 * 4 + 36)
      ⟨info.gameCode, info.checksum, g.name, g.tree⟩
      ((info.offset + (g.name.length + 1) + 3) / 4 * 4 + 36 +
        (g.items.flatMap Item.encode).length) := by
    refine hyields.bind ((yields_check rfl _).bind ?_)
    rw [List.nil_append, List.length_nil, htree]
    exact yields_pure _ _
  exact (hleads.yields hread opened rfl).1

/-- An empty category is taken for a broken one, and the entry with it. -/
theorem loadCheatCodes_empty_category {g : Game} {c : Category} {items : List Item}
    (hg : g.items = .category c :: items) (hc : c.cheats = []) (hname : 0 ∉ g.name)
    (hcount : g.count < 0x10000000) (hcat : 0 ∉ c.name) (hdescription : 0 ∉ c.description)
    {info : EntryInfo} (hfile : Holds file info.offset (g.encode info.offset))
    (hoffset : 0x100 ≤ info.offset)
    (hend : info.offset + (g.encode info.offset).length ≤ info.endOffset)
    (hlength : info.endOffset ≤ file.length) (hmax : file.length ≤ 0xFFFFFFFF) :
    (loadCheatCodes file info opened).1 = none := by
  have hsize := g.length_encode info.offset
  have hzero : c.cheats.length = 0 := by rw [hc, List.length_nil]
  obtain ⟨hleads, hitems⟩ := leads_loadCheatCodes hname hcount hfile hoffset hend hlength hmax
  rw [hg, List.flatMap_cons] at hitems hsize
  rw [List.length_append, Item.encode, c.length_encode] at hsize
  have hparts := hitems.left
  rw [Item.encode, Category.encode, ← List.append_assoc] at hparts
  have hitem := leads_readItem_category hcat hdescription (by omega) (items.map Item.count).sum
    ⟨.root, 0, []⟩ (by omega) hparts.left (by omega) hlength
  have hrefused : Refuses (readItems file info.endOffset g.count ⟨.root, 0, []⟩)
      ((info.offset + (g.name.length + 1) + 3) / 4 * 4 + 36) := by
    rw [Game.count, hg, List.map_cons, List.sum_cons, Item.count, hzero, Nat.add_comm]
    exact (hitem.refuses ((refuses_check (by omega) _).bind _)).bind _
  exact (hleads.refuses (hrefused.bind _)) opened rfl

/-- A category without cheats. -/
def emptyCategory : Game where
  name := [0x47]
  active := true
  masterCodes _ := 0
  items := [.category ⟨[0x43], [], false, []⟩]

theorem empty_category_refused :
    (∀ item ∈ emptyCategory.items, ∀ c, item = .category c → 0 ∉ c.name ∧ 0 ∉ c.description ∧
      ∀ cheat ∈ c.cheats, cheat.Valid) ∧
    (loadCheatCodes (List.replicate 0x100 0 ++ emptyCategory.encode 0x100)
      ⟨1, 0, 0x100, 0x100 + (emptyCategory.encode 0x100).length⟩ opened).1 = none := by
  refine ⟨?_, ?_⟩
  · intro item hitem c heq
    obtain rfl := List.mem_singleton.mp hitem
    obtain rfl := Item.category.inj heq
    exact ⟨by decide, by decide, fun cheat hc => absurd hc List.not_mem_nil⟩
  · have hsize := emptyCategory.length_encode 0x100
    have hfile : Holds (List.replicate 0x100 0 ++ emptyCategory.encode 0x100) 0x100
        (emptyCategory.encode 0x100) := by
      rw [Holds, List.drop_left' List.length_replicate]
    have hlength : (List.replicate 0x100 0 ++ emptyCategory.encode 0x100).length =
        0x100 + (emptyCategory.encode 0x100).length := by
      rw [List.length_append, List.length_replicate]
    refine loadCheatCodes_empty_category rfl rfl (by decide) (by decide) (by decide) (by decide)
      hfile (Nat.le_refl _) (Nat.le_refl _) hlength.ge ?_
    have hitems : (emptyCategory.items.flatMap Item.encode).length = 8 := rfl
    have hname : emptyCategory.name.length = 1 := rfl
    omega

/-- The index and the entries are read inside their bounds, whatever the file holds, and what was
encoded is loaded with its codes in order, in the right category. -/
theorem usrcheat_loads :
    (∀ file : List U8,
      (∀ r ∈ (loadEntries file opened).2.reads, r.1 + r.2 ≤ file.length) ∧
      Ensures (loadEntries file) fun r => ∀ gameCode, ∀ e ∈ r.2 gameCode,
        0x100 ≤ e.offset ∧ e.offset < e.endOffset ∧ e.endOffset ≤ file.length) ∧
    (∀ (file : List U8) (info : EntryInfo),
      (∀ r ∈ (loadCheatCodes file info opened).2.reads,
        info.offset ≤ r.1 ∧ r.1 + r.2 ≤ info.endOffset) ∧
      Ensures (loadCheatCodes file info) fun entry => RightParents entry.children) ∧
    ∀ (g : Game) (file : List U8) (info : EntryInfo), g.Valid →
      Holds file info.offset (g.encode info.offset) → 0x100 ≤ info.offset →
      info.offset + (g.encode info.offset).length ≤ info.endOffset →
      info.endOffset ≤ file.length → file.length ≤ 0xFFFFFFFF →
      (loadCheatCodes file info opened).1 =
        some ⟨info.gameCode, info.checksum, g.name, g.tree⟩ ∧ RightParents g.tree := by
  refine ⟨fun file => ⟨loadEntries_reads file, ensures_loadEntries file⟩,
    fun file info => ⟨loadCheatCodes_reads file info, ensures_loadCheatCodes file info⟩, ?_⟩
  intro g file info hg hfile hoffset hend hlength hmax
  have hload := loadCheatCodes_encode hg hfile hoffset hend hlength hmax
  exact ⟨hload, ensures_loadCheatCodes file info opened _ hload⟩

/-- Two active cheats in a category that allows one. -/
def twoActive : Game where
  name := [0x47]
  active := true
  masterCodes _ := 0
  items := [.cheat ⟨[0x41], [0x64], true, [1, 2]⟩,
    .category ⟨[0x43], [], true, [⟨[0x42], [], true, [3, 4]⟩, ⟨[0x44], [], true, []⟩]⟩]

theorem usrcheat_loads_twoActive :
    (loadCheatCodes (List.replicate 0x101 0 ++ twoActive.encode 0x101)
        ⟨1, 0, 0x101, 0x101 + (twoActive.encode 0x101).length⟩ opened).1 =
      some ⟨1, 0, [0x47],
        [.code ⟨.root, [0x41], [0x64], true, [1, 2]⟩,
          .cat ⟨.root, [0x43], [], true,
            [⟨.child 1, [0x42], [], true, [3, 4]⟩, ⟨.child 1, [0x44], [], false, []⟩]⟩]⟩ ∧
      RightParents twoActive.tree := by
  have hfile : Holds (List.replicate 0x101 0 ++ twoActive.encode 0x101) 0x101
      (twoActive.encode 0x101) := by
    rw [Holds, List.drop_left' List.length_replicate]
  have hlength : (List.replicate 0x101 0 ++ twoActive.encode 0x101).length =
      0x101 + (twoActive.encode 0x101).length := by
    rw [List.length_append, List.length_replicate]
  have hsize := twoActive.length_encode 0x101
  have hitems : (twoActive.items.flatMap Item.encode).length = 60 := by decide
  have hname : twoActive.name.length = 1 := rfl
  refine usrcheat_loads.2.2 twoActive _ ⟨1, 0, 0x101, _⟩ ⟨by decide, by decide, ?_⟩ hfile
    (by decide) (Nat.le_refl _) hlength.ge (by omega)
  intro item hitem
  rcases List.mem_cons.mp hitem with rfl | hitem
  · exact ⟨by decide, by decide, by decide, by decide, by decide⟩
  · obtain rfl := List.mem_singleton.mp hitem
    refine ⟨by decide, by decide, nofun, by decide, fun cheat hcheat => ?_⟩
    rcases List.mem_cons.mp hcheat with rfl | hcheat
    · exact ⟨by decide, by decide, by decide, by decide, by decide⟩
    · obtain rfl := List.mem_singleton.mp hcheat
      exact ⟨by decide, by decide, by decide, by decide, by decide⟩

end MelonDS.ARDatabaseDAT

import Mathlib.Data.List.Sort
import MelonDS.Library.FileReader
import MelonDS.Library.LittleEndian

/-!
# The cheat database

`usrcheat.dat`: an index of games, and for each game its cheats, some of them in categories. The
readers check every position against the end of the entry and of the item they are in. Pointers
to a category are kept as its place among the children of the root, whose list never moves them.
-/

namespace MelonDS.ARDatabaseDAT

open FileReader

/-- A pointer to the root category or to a category in it. -/
inductive CatPtr
  | root
  | child (i : ℕ)
deriving DecidableEq

structure ARCode where
  parent : CatPtr
  name : List U8
  description : List U8
  enabled : Bool
  code : List U32
deriving DecidableEq

structure ARCodeCat where
  parent : CatPtr
  name : List U8
  description : List U8
  onlyOneCodeEnabled : Bool
  children : List ARCode
deriving DecidableEq

inductive ARCodeItem
  | code (c : ARCode)
  | cat (c : ARCodeCat)
deriving DecidableEq

structure EntryInfo where
  gameCode : ℕ
  checksum : ℕ
  offset : ℕ
  endOffset : ℕ
deriving DecidableEq

/-- An entry, with the children of its root category. -/
structure ARDatabaseEntry where
  gameCode : ℕ
  checksum : ℕ
  name : List U8
  children : List ARCodeItem
deriving DecidableEq

/-! ## Pieces -/

/-- The position is checked against the end before anything is read. -/
def readData (file : List U8) (size stop : ℕ) : Reader (List U8) := do
  let pos ← tell
  check (pos ≤ stop ∧ size ≤ stop - pos)
  if size = 0 then pure []
  else
    let data ← read file size
    check (data.length = size)
    pure data

def readWord (file : List U8) (stop : ℕ) : Reader ℕ := do
  let data ← readData file 4 stop
  pure (ofBytes data)

/-- The loop of `ReadNTString`, which looks at 256 bytes at a time. -/
def readNTLoop (file : List U8) (stop : ℕ) (text : List U8) (h : Handle) :
    Option (List U8) × Handle :=
  if _hend : stop ≤ h.pos then (none, h)
  else
    let count := min 256 (stop - h.pos)
    let buffer := (file.drop h.pos).take count
    let h' : Handle := (read file count h).2
    if _hshort : buffer.length ≠ count then (none, h')
    else
      match buffer.idxOf? 0 with
      | some length => (some (text ++ buffer.take length), { h' with pos := h.pos + length + 1 })
      | none => readNTLoop file stop (text ++ buffer) h'
termination_by stop - h.pos
decreasing_by
  have hlength : ((file.drop h.pos).take (min 256 (stop - h.pos))).length =
      min 256 (stop - h.pos) := not_not.mp _hshort
  change stop - (h.pos + ((file.drop h.pos).take (min 256 (stop - h.pos))).length) < stop - h.pos
  omega

/-- The text before the next NUL. -/
def readNTString (file : List U8) (stop : ℕ) : Reader (List U8) := readNTLoop file stop []

/-- On to the next multiple of 4 in the file. -/
def alignFilePos (stop : ℕ) : Reader Unit := do
  let pos ← tell
  check (pos ≤ stop)
  let aligned := (pos + 3) / 4 * 4
  check (aligned ≤ stop)
  if aligned = pos then pure () else seek aligned

/-- The words of a code. -/
def words : List U8 → List U32
  | a :: b :: c :: d :: rest => (d ++ c ++ b ++ a : U32) :: words rest
  | _ => []

/-! ## Items -/

/-- `curcat`, `catlen` and the children of the root. -/
structure Items where
  curcat : CatPtr
  catlen : ℕ
  children : List ARCodeItem

/-- `curcat->Children.emplace_back(code)` -/
def addCode (c : ARCode) (children : List ARCodeItem) : CatPtr → List ARCodeItem
  | .root => children ++ [.code c]
  | .child i => children.modify i fun
    | .cat cat => .cat { cat with children := cat.children ++ [c] }
    | .code code => .code code

/-- A category item; `left` items follow. -/
def readCategory (totallen left : ℕ) (name description : List U8) (onlyOne : Bool) (s : Items) :
    Reader Items := do
  check (s.catlen = 0 ∧ totallen < 0x10000 ∧ totallen ≠ 0 ∧ totallen ≤ left)
  pure
    { curcat := .child s.children.length
      catlen := totallen
      children := s.children ++ [.cat ⟨.root, name, description, onlyOne, []⟩] }

def readCode (file : List U8) (itemEnd : ℕ) (name description : List U8) (enabled : Bool)
    (s : Items) : Reader Items := do
  let codelen ← readWord file itemEnd
  let pos ← tell
  check (pos ≤ itemEnd ∧ codelen * 4 = itemEnd - pos)
  check (codelen < 0x100000 ∧ codelen % 2 = 0)
  let curcat := if s.catlen = 0 then .root else s.curcat
  let data ← readData file (codelen * 4) itemEnd
  pure
    { curcat := curcat
      catlen := s.catlen - 1
      children := addCode ⟨curcat, name, description, enabled, words data⟩ s.children curcat }

/-- The end of an item: a category has no data of its own. -/
def readItemEnd (isCat : Bool) (totallen stop : ℕ) : Reader ℕ :=
  if isCat then pure stop
  else do
    let pos ← tell
    check (pos ≤ stop ∧ totallen * 4 ≤ stop - pos)
    pure (pos + totallen * 4)

/-- An item of the list; `left` items follow. -/
def readItem (file : List U8) (stop left : ℕ) (s : Items) : Reader Items := do
  let itemflags ← readWord file stop
  let totallen := itemflags % 0x1000000
  let isCat := itemflags.testBit 28
  let itemEnd ← readItemEnd isCat totallen stop
  let name ← readNTString file itemEnd
  let description ← readNTString file itemEnd
  alignFilePos itemEnd
  if isCat then readCategory totallen left name description (itemflags.testBit 24) s
  else readCode file itemEnd name description (itemflags.testBit 24) s

def readItems (file : List U8) (stop : ℕ) : ℕ → Items → Reader Items
  | 0, s => pure s
  | left + 1, s => do
    let s ← readItem file stop left s
    readItems file stop left s

/-- Of the codes only the first active one stays enabled. -/
def keepFirst (foundone : Bool) : List ARCode → List ARCode
  | [] => []
  | c :: cs =>
    if c.enabled = false then c :: keepFirst foundone cs
    else { c with enabled := !foundone } :: keepFirst true cs

def enforceOnlyOne : ARCodeItem → ARCodeItem
  | .cat c => .cat (if c.onlyOneCodeEnabled then { c with children := keepFirst false c.children }
      else c)
  | .code c => .code c

/-- What follows the name of an entry. -/
def readBody (file : List U8) (info : EntryInfo) (name : List U8) : Reader ARDatabaseEntry := do
  let flags ← readData file 36 info.endOffset
  let numentries := ofBytes (flags.take 4) % 0x10000000
  let itemsStart ← tell
  check (itemsStart ≤ info.endOffset ∧ numentries ≤ (info.endOffset - itemsStart) / 8)
  let s ← readItems file info.endOffset numentries ⟨.root, 0, []⟩
  check (s.catlen = 0)
  pure ⟨info.gameCode, info.checksum, name, s.children.map enforceOnlyOne⟩

/-- `LoadCheatCodes`, with the file just opened. -/
def loadCheatCodes (file : List U8) (info : EntryInfo) : Reader ARDatabaseEntry := do
  check (file.length ≤ 0xFFFFFFFF ∧ 0x100 ≤ info.offset ∧ info.offset < info.endOffset ∧
    info.endOffset ≤ file.length)
  seek info.offset
  let name ← readNTString file info.endOffset
  alignFilePos info.endOffset
  readBody file info name

/-! ## The index -/

/-- `"R4 CheatCode\x00\x01\x00\x00"` -/
def signature : List U8 :=
  [0x52, 0x34, 0x20, 0x43, 0x68, 0x65, 0x61, 0x74, 0x43, 0x6F, 0x64, 0x65, 0x00, 0x01, 0x00, 0x00]

/-- The entry list from `pos` on; it must end before the first entry. -/
def readIndex (file : List U8) (pos indexEnd : ℕ) (entries : List EntryInfo) :
    Reader (List EntryInfo) :=
  if _h : pos + 16 ≤ indexEnd then do
    let data ← readData file 16 indexEnd
    let gameCode := ofBytes (field data 0 4)
    let checksum := ofBytes (field data 4 4)
    let offset := ofBytes (field data 8 4)
    let reserved := ofBytes (field data 12 4)
    if gameCode = 0 ∧ checksum = 0 ∧ offset = 0 ∧ reserved = 0 then pure entries
    else do
      check (gameCode ≠ 0 ∧ reserved = 0 ∧ 0x100 ≤ offset ∧ offset < file.length)
      readIndex file (pos + 16) (min indexEnd offset)
        (entries ++ [⟨gameCode, checksum, offset, 0⟩])
  else fail
termination_by indexEnd - pos

/-- An entry ends where the next one in the file begins. -/
def endOf (file : List U8) (entries : List EntryInfo) (e : EntryInfo) : ℕ :=
  (((entries.map EntryInfo.offset).mergeSort).find? fun o => e.offset < o).getD file.length

/-- `LoadEntries`: the name of the database and the entries of each game code, in their order. -/
def loadEntries (file : List U8) : Reader (List U8 × (ℕ → List EntryInfo)) := do
  check (0x110 ≤ file.length ∧ file.length ≤ 0xFFFFFFFF)
  let header ← readData file 16 file.length
  check (header = signature)
  let name ← readData file 0x3C file.length
  seek 0x100
  let entries ← readIndex file 0x100 file.length []
  let infos := entries.map fun e => { e with endOffset := endOf file entries e }
  pure (name.takeWhile (· ≠ 0), fun gameCode => infos.filter fun e => e.gameCode = gameCode)

/-- A file that is opened. -/
def opened : Handle := ⟨0, []⟩

end MelonDS.ARDatabaseDAT

import Mathlib.Data.List.Basic
import Mathlib.Logic.Function.Basic
import MelonDS.Types

/-!
# Memory of deferred scanlines

Pages of VRAM, palettes and OAM are copied into one storage buffer, where a view is a table
of the word offsets of its pages. A new view shares the unchanged pages of the view before,
so nothing that has been stored may change until the storage is reset. Whether an allocation
succeeds is up to the caller's environment (`allocates`).
-/

namespace MelonDS.Native2D

def pageBytes : ℕ := 512
def pageWords : ℕ := 128
def maxPages : ℕ := 1024

structure View where
  table : ℕ
  pages : ℕ
  generation : U64
deriving DecidableEq

/-- A page whose words come from elsewhere; `PageWords` of them count. -/
structure PageOverride where
  page : ℕ
  force : Bool
  words : ℕ → U32

inductive MemoryError
  | invalidArgument (what : String)
  | lengthError (what : String)
  | badAlloc

structure Memory where
  words : ℕ → U32
  size : ℕ
  limitWords : ℕ
  generation : U64

/-! ## The captured pages -/

/-- The word of a region that starts at a byte. -/
def bytesWord (bytes : List U8) (i : ℕ) : U32 :=
  bytes.getD (i + 3) 0 ++ bytes.getD (i + 2) 0 ++ bytes.getD (i + 1) 0 ++ bytes.getD i 0

def source (bytes : List U8) (replaced : ℕ → Option PageOverride) (page k : ℕ) : U32 :=
  match replaced page with
  | some replacement => replacement.words k
  | none => bytesWord bytes (page * pageBytes + 4 * k)

/-- The table of overrides; a page may have one at most. -/
def checkOverrides (count : ℕ) : List PageOverride → (ℕ → Option PageOverride) →
    Except MemoryError (ℕ → Option PageOverride)
  | [], replaced => .ok replaced
  | o :: os, replaced =>
    if o.page ≥ count ∨ (replaced o.page).isSome then
      .error (.invalidArgument "Invalid native 2D page override")
    else checkOverrides count os (Function.update replaced o.page (some o))

/-- Overridden pages are looked at whether their bytes are dirty or not. -/
def mergeMasks (dirty : List U64) (overrides : List PageOverride) : List U64 :=
  overrides.foldl (fun masks o => masks.modify (o.page / 64) (· ||| bit 64 (o.page % 64))) dirty

/-- A word of the mask; the last one ends with the region. -/
def maskWord (count : ℕ) (masks : List U64) (word : ℕ) : U64 :=
  let bits := masks.getD word 0
  if word + 1 = masks.length ∧ count % 64 ≠ 0 then bits &&& BitVec.ofNat 64 (2 ^ (count % 64) - 1)
  else bits

/-- The pages that the bits of the mask name, in order. -/
def maskPages (count : ℕ) (masks : List U64) : List ℕ :=
  (List.range (64 * masks.length)).filter fun page =>
    (maskWord count masks (page / 64)).getLsbD (page % 64)

namespace Memory

def build (byteLimit : ℕ) : Except MemoryError Memory :=
  let limitWords := byteLimit / 4
  if byteLimit % 4 ≠ 0 ∨ limitWords > 2 ^ 32 - 1 ∨ limitWords < maxPages * (pageWords + 1) then
    .error (.invalidArgument "Invalid native 2D memory budget")
  else .ok ⟨fun _ => 0, 0, limitWords, 1⟩

def reserve (extraWords : ℕ) (allocates : Bool) (m : Memory) : Except MemoryError Unit :=
  if extraWords > m.limitWords - m.size then .error (.lengthError "Native 2D memory batch is full")
  else if allocates then .ok ()
  else .error .badAlloc

/-- An entry of the table of a view. -/
def entry (v : View) (page : ℕ) (m : Memory) : ℕ := (m.words (v.table + page)).toNat

/-- A page has to be stored anew: its bytes are not those that the view before shows. -/
def differs (source : ℕ → ℕ → U32) (previous : View) (valid : Bool)
    (replaced : ℕ → Option PageOverride) (m : Memory) (page : ℕ) : Except MemoryError Bool :=
  let force := (replaced page).any (·.force)
  if valid && !force then
    let offset := m.entry previous page
    if offset > m.size ∨ pageWords > m.size - offset then
      .error (.invalidArgument "Invalid native 2D page offset")
    else .ok (!(List.range pageWords).all fun k => m.words (offset + k) == source page k)
  else .ok true

def inspect (differs : ℕ → Except MemoryError Bool) : List ℕ → Except MemoryError (List ℕ)
  | [] => .ok []
  | page :: pages =>
    match differs page with
    | .error e => .error e
    | .ok changed =>
      match inspect differs pages with
      | .error e => .error e
      | .ok rest => .ok (if changed then page :: rest else rest)

/-- The new pages and their entries in the table. -/
def writePages (source : ℕ → ℕ → U32) (table : ℕ) : List ℕ → ℕ → (ℕ → U32) → ℕ → U32
  | [], _, words => words
  | page :: pages, cursor, words =>
    let words := Function.update words (table + page) (BitVec.ofNat 32 cursor)
    writePages source table pages (cursor + pageWords) fun i =>
      if cursor ≤ i ∧ i < cursor + pageWords then source page (i - cursor) else words i

/-- The storage grows by the changed pages and a table; the rest of the table is copied. -/
def publish (source : ℕ → ℕ → U32) (previous : View) (valid : Bool) (count : ℕ)
    (changed : List ℕ) (m : Memory) : View × Memory :=
  let extra := changed.length * pageWords + count
  let table := (m.size + changed.length * pageWords) % 2 ^ 32
  let resized := fun i => if m.size ≤ i ∧ i < m.size + extra then 0 else m.words i
  let copied := fun i =>
    if valid ∧ table ≤ i ∧ i < table + count then resized (previous.table + (i - table))
    else resized i
  (⟨table, count, m.generation⟩,
    { m with words := writePages source table changed m.size copied, size := m.size + extra })

def capture (bytes : List U8) (previous : View) (dirty : List U64) (overrides : List PageOverride)
    (allocates : Bool) (m : Memory) : Except MemoryError View × Memory :=
  if bytes = [] ∨ bytes.length % pageBytes ≠ 0 ∨ bytes.length > maxPages * pageBytes then
    (.error (.invalidArgument "Invalid native 2D memory region"), m)
  else
    let count := bytes.length / pageBytes
    if dirty ≠ [] ∧ dirty.length ≠ (count + 63) / 64 then
      (.error (.invalidArgument "Invalid native 2D dirty mask"), m)
    else
      let valid := decide (previous.generation = m.generation ∧ previous.pages = count)
      match checkOverrides count overrides fun _ => none with
      | .error e => (.error e, m)
      | .ok replaced =>
        if valid ∧ (previous.table > m.size ∨ count > m.size - previous.table) then
          (.error (.invalidArgument "Invalid native 2D memory view"), m)
        else
          let pages :=
            if valid ∧ dirty ≠ [] then maskPages count (mergeMasks dirty overrides)
            else List.range count
          match inspect (m.differs (source bytes replaced) previous valid replaced) pages with
          | .error e => (.error e, m)
          | .ok changed =>
            if changed = [] then (.ok previous, m)
            else
              match m.reserve (changed.length * pageWords + count) allocates with
              | .error e => (.error e, m)
              | .ok () =>
                let published := m.publish (source bytes replaced) previous valid count changed
                (.ok published.1, published.2)

def appendWords (words : List U32) (allocates : Bool) (m : Memory) :
    Except MemoryError ℕ × Memory :=
  match m.reserve words.length allocates with
  | .error e => (.error e, m)
  | .ok () =>
    (.ok (m.size % 2 ^ 32),
      { m with
        words := fun i =>
          if m.size ≤ i ∧ i < m.size + words.length then words.getD (i - m.size) 0 else m.words i
        size := m.size + words.length })

def reset (m : Memory) : Memory := { m with size := 0, generation := m.generation + 1 }

end Memory
end MelonDS.Native2D

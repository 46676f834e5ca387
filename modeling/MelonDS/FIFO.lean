import MelonDS.Library.CyclicWindow

/-!
# The fixed-capacity FIFO of `FIFO.h`

The cursors wrap by comparison as in the source. The three cursor facts every
operation keeps are fields, so a malformed FIFO cannot be built, and `contents`
is the list a FIFO stands for. Callers reason with `contents` only.
-/

namespace MelonDS
open Cyclic

structure FIFO (α : Type*) (numEntries : ℕ) where
  entries : Fin numEntries → α
  numOccupied : ℕ
  readPos : ℕ
  writePos : ℕ
  occupied_le : numOccupied ≤ numEntries
  readPos_lt : readPos < numEntries
  writePos_eq : writePos = (readPos + numOccupied) % numEntries

namespace FIFO

variable {α : Type*} {n : ℕ} [NeZero n]

/-- A cursor step: `Pos++; if (Pos >= NumEntries) Pos = 0`. -/
def advance (n pos : ℕ) : ℕ := if pos + 1 ≥ n then 0 else pos + 1

omit [NeZero n] in
theorem advance_eq_mod {pos : ℕ} (h : pos < n) : advance n pos = (pos + 1) % n := by
  unfold advance
  split_ifs with hw
  · have he : pos + 1 = n := by omega
    rw [he, Nat.mod_self]
  · rw [Nat.mod_eq_of_lt (by omega)]

theorem writePos_lt (f : FIFO α n) : f.writePos < n := by
  rw [f.writePos_eq]
  exact Nat.mod_lt _ (Nat.pos_of_neZero n)

/-- A FIFO just constructed: zeroed entries, all cursors zero. -/
def empty (zero : α) : FIFO α n where
  entries := fun _ => zero
  numOccupied := 0
  readPos := 0
  writePos := 0
  occupied_le := Nat.zero_le _
  readPos_lt := Nat.pos_of_neZero n
  writePos_eq := by simp

/-- `Clear` resets the cursors first, so the entry it zeroes is entry 0. -/
def clear (zero : α) (f : FIFO α n) : FIFO α n :=
  { empty zero with entries := Function.update f.entries (cell n 0) zero }

def level (f : FIFO α n) : ℕ := f.numOccupied
def isEmpty (f : FIFO α n) : Bool := f.numOccupied == 0
def isFull (f : FIFO α n) : Bool := decide (f.numOccupied ≥ n)
def canFit (f : FIFO α n) (num : ℕ) : Bool := decide (f.numOccupied + num ≤ n)

def write (f : FIFO α n) (val : α) : FIFO α n :=
  if h : f.numOccupied ≥ n then f
  else
    { entries := Function.update f.entries ⟨f.writePos, f.writePos_lt⟩ val
      numOccupied := f.numOccupied + 1
      readPos := f.readPos
      writePos := advance n f.writePos
      occupied_le := by omega
      readPos_lt := f.readPos_lt
      writePos_eq := by
        rw [advance_eq_mod f.writePos_lt, f.writePos_eq, Nat.mod_add_mod, Nat.add_assoc] }

/-- Reading an empty FIFO repeats the entry last read and moves nothing. -/
def read (f : FIFO α n) : α × FIFO α n :=
  if h : f.numOccupied = 0 then
    (f.entries ⟨(if f.readPos = 0 then n else f.readPos) - 1, by
      have := f.readPos_lt
      split_ifs <;> omega⟩, f)
  else
    (f.entries ⟨f.readPos, f.readPos_lt⟩,
      { entries := f.entries
        numOccupied := f.numOccupied - 1
        readPos := advance n f.readPos
        writePos := f.writePos
        occupied_le := (Nat.sub_le _ _).trans f.occupied_le
        readPos_lt := by
          rw [advance_eq_mod f.readPos_lt]
          exact Nat.mod_lt _ (Nat.pos_of_neZero n)
        writePos_eq := by
          rw [f.writePos_eq, advance_eq_mod f.readPos_lt, Nat.mod_add_mod]
          congr 1
          omega })

def peek (f : FIFO α n) : α := f.entries ⟨f.readPos, f.readPos_lt⟩

/-- The entries a FIFO holds, oldest first. -/
def contents (f : FIFO α n) : List α := window f.entries f.readPos f.numOccupied

theorem level_eq_length (f : FIFO α n) : f.level = f.contents.length := by
  simp [level, contents]

theorem contents_length_le (f : FIFO α n) : f.contents.length ≤ n := by
  rw [← level_eq_length]
  exact f.occupied_le

@[simp] theorem empty_contents (zero : α) : (empty zero : FIFO α n).contents = [] := rfl

@[simp] theorem clear_contents (zero : α) (f : FIFO α n) : (f.clear zero).contents = [] := rfl

theorem isEmpty_iff (f : FIFO α n) : f.isEmpty = true ↔ f.contents = [] := by
  rw [← List.length_eq_zero_iff, ← level_eq_length]
  simp [isEmpty, level]

theorem isFull_iff (f : FIFO α n) : f.isFull = true ↔ f.contents.length = n := by
  have h := f.contents_length_le
  rw [← level_eq_length] at h ⊢
  simp only [isFull, level, decide_eq_true_eq] at h ⊢
  omega

theorem write_contents_of_lt (f : FIFO α n) (val : α) (h : f.contents.length < n) :
    (f.write val).contents = f.contents ++ [val] := by
  rw [← level_eq_length, level] at h
  have hc : (⟨f.writePos, f.writePos_lt⟩ : Fin n) = cell n (f.readPos + f.numOccupied) :=
    Fin.ext f.writePos_eq
  rw [write, dif_neg (not_le.mpr h), contents, contents]
  dsimp only
  rw [hc]
  exact window_push f.entries val h

theorem write_of_full (f : FIFO α n) (val : α) (h : f.contents.length = n) :
    f.write val = f := by
  rw [← level_eq_length, level] at h
  rw [write, dif_pos h.ge]

theorem read_of_contents_cons (f : FIFO α n) {a : α} {rest : List α}
    (h : f.contents = a :: rest) : f.read.1 = a ∧ f.read.2.contents = rest := by
  have h0 : f.numOccupied ≠ 0 := by
    intro h0
    rw [contents, h0] at h
    cases h
  obtain ⟨k, hk⟩ := Nat.exists_eq_succ_of_ne_zero h0
  have hc : (⟨f.readPos, f.readPos_lt⟩ : Fin n) = cell n f.readPos :=
    Fin.ext (Nat.mod_eq_of_lt f.readPos_lt).symm
  rw [contents, hk, window_succ] at h
  obtain ⟨ha, hr⟩ := List.cons.inj h
  rw [read, dif_neg h0]
  refine ⟨by rw [hc, ha], ?_⟩
  simp only [contents, hk, Nat.succ_sub_one, advance_eq_mod f.readPos_lt, window_mod, hr]

/-- Words written while there is room follow the contents. -/
theorem write_all (f : FIFO α n) (words : List α) (h : f.contents.length + words.length ≤ n) :
    (words.foldl write f).contents = f.contents ++ words := by
  induction words generalizing f with
  | nil => simp
  | cons a rest ih =>
    rw [List.length_cons] at h
    have hwrite := f.write_contents_of_lt a (by omega)
    have hlength : (f.write a).contents.length + rest.length ≤ n := by
      rw [hwrite, List.length_append, List.length_singleton]
      omega
    rw [List.foldl_cons, ih (f.write a) hlength, hwrite, List.append_assoc]
    rfl

end FIFO

/-!
## `DynamicFIFO`

The class of `FIFO.h` whose capacity is given at construction. It is `FIFO` but for the
value an empty one returns and for `Peek` at an offset.
-/

abbrev DynamicFIFO := FIFO

namespace DynamicFIFO

variable {α : Type*} {n : ℕ} [NeZero n]

def read (f : DynamicFIFO α n) : α × DynamicFIFO α n :=
  if f.isEmpty then (f.peek, f) else FIFO.read f

def peekAt (f : DynamicFIFO α n) (offset : ℕ) : α :=
  f.entries (Fin.ofNat n
    (if f.readPos + offset ≥ n then f.readPos + offset - n else f.readPos + offset))

/-- `Write` for each value in turn. -/
def writeAll (f : DynamicFIFO α n) (vals : List α) : DynamicFIFO α n := vals.foldl FIFO.write f

theorem write_contents (f : DynamicFIFO α n) (val : α) :
    (f.write val).contents = (f.contents ++ [val]).take n := by
  rcases Nat.lt_or_eq_of_le f.contents_length_le with hlt | hfull
  · rw [f.write_contents_of_lt val hlt, List.take_of_length_le]
    rw [List.length_append]
    exact hlt
  · rw [f.write_of_full val hfull, List.take_left' hfull]

/-- A block is cut where the FIFO is full. -/
theorem writeAll_contents (f : DynamicFIFO α n) (vals : List α) :
    (writeAll f vals).contents = (f.contents ++ vals).take n := by
  induction vals generalizing f with
  | nil => rw [List.append_nil, List.take_of_length_le f.contents_length_le]; rfl
  | cons v vals ih =>
    have hle := f.contents_length_le
    change (writeAll (f.write v) vals).contents = _
    have hsplit : f.contents ++ v :: vals = f.contents ++ [v] ++ vals := List.append_cons _ _ _
    rw [ih, write_contents, hsplit]
    rcases Nat.lt_or_eq_of_le hle with hlt | hfull
    · have hone : (f.contents ++ [v]).length ≤ n := by
        rw [List.length_append]
        exact hlt
      rw [List.take_of_length_le hone]
    · rw [List.take_left' hfull, List.append_assoc, List.take_left' hfull, List.take_left' hfull]

theorem writeAll_contents_of_fits (f : DynamicFIFO α n) {vals : List α}
    (h : f.contents.length + vals.length ≤ n) :
    (writeAll f vals).contents = f.contents ++ vals := by
  rw [writeAll_contents, List.take_of_length_le]
  rwa [List.length_append]

theorem canFit_iff (f : DynamicFIFO α n) (num : ℕ) :
    f.canFit num = true ↔ f.contents.length + num ≤ n := by
  rw [← f.level_eq_length, FIFO.canFit, decide_eq_true_iff]
  rfl

theorem read_of_nil {f : DynamicFIFO α n} (h : f.contents = []) : (read f).2 = f := by
  rw [read, if_pos ((f.isEmpty_iff).mpr h)]

theorem read_of_cons {f : DynamicFIFO α n} {a : α} {rest : List α} (h : f.contents = a :: rest) :
    (read f).1 = a ∧ (read f).2.contents = rest := by
  have hne : ¬ f.isEmpty = true := by
    rw [f.isEmpty_iff, h]
    exact List.cons_ne_nil a rest
  rw [read, if_neg hne]
  exact f.read_of_contents_cons h

theorem window_getElem (mem : Fin n → α) {start len i : ℕ} (h : i < len) :
    (window mem start len)[i]? = some (mem (cell n (start + i))) := by
  rw [window_eq_map, List.getElem?_map, List.getElem?_range h]
  rfl

theorem peekAt_eq {f : DynamicFIFO α n} {i : ℕ} {a : α} (h : f.contents[i]? = some a) :
    peekAt f i = a := by
  have hi : i < f.contents.length := by
    by_contra hge
    rw [List.getElem?_eq_none (Nat.not_lt.mp hge)] at h
    cases h
  rw [← f.level_eq_length] at hi
  change i < f.numOccupied at hi
  have hcell : Fin.ofNat n (if f.readPos + i ≥ n then f.readPos + i - n else f.readPos + i) =
      cell n (f.readPos + i) := by
    split_ifs with hwrap
    · exact cell_eq_cell.mpr (Nat.mod_eq_sub_mod hwrap).symm
    · rfl
  rw [FIFO.contents, window_getElem f.entries hi] at h
  rw [peekAt, hcell]
  exact Option.some.inj h

end DynamicFIFO
end MelonDS

import Mathlib.Data.List.Range
import Mathlib.Logic.Function.Basic

/-!
# Buffers filled from the front

A buffer of a fixed capacity is written one element at a time. Its content is uninitialised but
for what was written, and an access outside its bounds is a fault.
-/

namespace MelonDS.FilledBuffer

variable {α : Type*}

inductive Fault
  | outOfBounds
  deriving DecidableEq

/-- A read of a sequence with as many elements as the list. -/
def readAt (data : List α) (i : ℕ) : Except Fault α :=
  match data[i]? with
  | some v => .ok v
  | none => .error .outOfBounds

/-- The first `n` elements of a sequence. -/
def view (data : List α) (n : ℕ) : Except Fault (List α) :=
  if n ≤ data.length then .ok (data.take n) else .error .outOfBounds

def put (capacity : ℕ) (buffer : ℕ → α) (i : ℕ) (v : α) : Except Fault (ℕ → α) :=
  if i < capacity then .ok (Function.update buffer i v) else .error .outOfBounds

def span (capacity : ℕ) (buffer : ℕ → α) (n : ℕ) : Except Fault (List α) :=
  if n ≤ capacity then .ok ((List.range n).map buffer) else .error .outOfBounds

/-- The buffer begins with what was written. -/
def Holds (buffer : ℕ → α) (written : List α) : Prop :=
  (List.range written.length).map buffer = written

theorem Holds.nil (buffer : ℕ → α) : Holds buffer [] := rfl

theorem readAt_of_lt {data : List α} {i : ℕ} (h : i < data.length) :
    readAt data i = .ok data[i] := by
  rw [readAt, List.getElem?_eq_getElem h]

theorem Holds.update {buffer : ℕ → α} {written : List α} (h : Holds buffer written) (v : α) :
    Holds (Function.update buffer written.length v) (written ++ [v]) := by
  unfold Holds at *
  rw [List.length_append, List.length_singleton, List.range_succ, List.map_append, List.map_singleton,
    Function.update_self]
  congr 1
  refine (List.map_congr_left fun i hi => ?_).trans h
  exact Function.update_of_ne (List.mem_range.mp hi).ne v buffer

/-- A write right after what was written. -/
theorem Holds.put {buffer : ℕ → α} {written : List α} (h : Holds buffer written) (capacity : ℕ)
    (hcapacity : written.length < capacity) (v : α) :
    ∃ next, put capacity buffer written.length v = .ok next ∧ Holds next (written ++ [v]) :=
  ⟨_, if_pos hcapacity, h.update v⟩

theorem Holds.span {buffer : ℕ → α} {written : List α} (h : Holds buffer written) (capacity : ℕ)
    (hcapacity : written.length ≤ capacity) :
    span capacity buffer written.length = .ok written := by
  rw [FilledBuffer.span, if_pos hcapacity, h]

end MelonDS.FilledBuffer

import Mathlib.Algebra.GroupWithZero.Nat
import Mathlib.Data.Bool.Basic
import Mathlib.Data.List.Basic
import Mathlib.Data.List.DropRight
import Mathlib.Data.List.Infix

/-!
# Queues

What entered a queue, told from what left it and what it still holds: for queues that are
emptied, that drop their oldest entries to make room, and for the smallest one of all.
-/

/-!
## What passes through a queue

Words enter a queue, leave it at the head, or are dropped all at once. Whatever the
order, the words that left followed by those still queued are the words that entered,
without the dropped ones.
-/

namespace MelonDS

variable {α : Type*}

inductive Traffic (α : Type*)
  | accept (v : α)
  | deliver (v : α)
  | discard (n : ℕ)

namespace Traffic

/-- One change of a queue from `q` to `q'`. -/
def Moves (q : List α) : Option (Traffic α) → List α → Prop
  | none, q' => q' = q
  | some (accept v), q' => q' = q ++ [v]
  | some (deliver v), q' => q = v :: q'
  | some (discard n), q' => n = q.length ∧ q' = []

def accepted : List (Option (Traffic α)) → List α
  | [] => []
  | some (accept v) :: ts => v :: accepted ts
  | none :: ts | some (deliver _) :: ts | some (discard _) :: ts => accepted ts

def delivered : List (Option (Traffic α)) → List α
  | [] => []
  | some (deliver v) :: ts => v :: delivered ts
  | none :: ts | some (accept _) :: ts | some (discard _) :: ts => delivered ts

/-- The accepted words without those discarded, the latest of the ones kept so far. -/
def keep (kept : List α) : List (Option (Traffic α)) → List α
  | [] => kept
  | some (accept v) :: ts => keep (kept ++ [v]) ts
  | some (discard n) :: ts => keep (kept.rdrop n) ts
  | none :: ts | some (deliver _) :: ts => keep kept ts

def kept (ts : List (Option (Traffic α))) : List α := keep [] ts

inductive Run : List α → List (Option (Traffic α)) → List α → Prop
  | nil (q : List α) : Run q [] q
  | cons {q q' q'' : List α} {t : Option (Traffic α)} {ts : List (Option (Traffic α))} :
      Moves q t q' → Run q' ts q'' → Run q (t :: ts) q''

/-- What was kept of the words of a run: those delivered, then those queued. -/
theorem Run.keep_eq {q q' : List α} {ts : List (Option (Traffic α))} (h : Run q ts q')
    (out : List α) : keep (out ++ q) ts = out ++ delivered ts ++ q' := by
  induction h generalizing out with
  | nil q => rw [keep, delivered, List.append_nil]
  | @cons q q' q'' t ts hmove hrun ih =>
    cases t with
    | none =>
      cases hmove
      exact ih out
    | some t =>
      cases t with
      | accept v =>
        cases hmove
        rw [keep, List.append_assoc]
        exact ih out
      | deliver v =>
        cases hmove
        rw [keep, delivered, List.append_cons, ih (out ++ [v]), List.append_assoc out [v]]
        rfl
      | discard n =>
        obtain ⟨hn, rfl⟩ := hmove
        have hdrop : (out ++ q).rdrop n = out ++ [] := by
          rw [hn, List.rdrop_append_length, List.append_nil]
        rw [keep, hdrop]
        exact ih out

theorem Run.kept_eq {q : List α} {ts : List (Option (Traffic α))} (h : Run [] ts q) :
    kept ts = delivered ts ++ q := h.keep_eq []

end Traffic
end MelonDS

/-!
## A bounded queue that drops its oldest entries

A push that finds too little room drops entries from the head until the rest fits. Entries
leave at the head in no other way than by a drop, by being taken, or when the queue is cleared,
so what left and what is still queued is what entered, in order.
-/

namespace MelonDS

inductive Fate
  | taken
  | dropped
  | cleared
deriving DecidableEq

structure DropOldest (α : Type*) where
  queue : List α
  left : List (α × Fate)

namespace DropOldest

variable {α : Type*}

def empty : DropOldest α := ⟨[], []⟩

def enter (xs : List α) (q : DropOldest α) : DropOldest α := { q with queue := q.queue ++ xs }

/-- The first `n` entries leave. -/
def leave (n : ℕ) (fate : Fate) (q : DropOldest α) : DropOldest α where
  queue := q.queue.drop n
  left := q.left ++ (q.queue.take n).map (·, fate)

def push (bound : ℕ) (xs : List α) (q : DropOldest α) : DropOldest α :=
  (q.enter xs).leave (q.queue.length + xs.length - bound) .dropped

def take (n : ℕ) (q : DropOldest α) : DropOldest α := q.leave n .taken

def clear (q : DropOldest α) : DropOldest α := q.leave q.queue.length .cleared

/-- The entries that met a fate, in the order in which they left. -/
def met (fate : Fate) (q : DropOldest α) : List α :=
  (q.left.filter (·.2 = fate)).map Prod.fst

/-- Everything that entered. -/
def entered (q : DropOldest α) : List α := q.left.map Prod.fst ++ q.queue

theorem entered_enter (xs : List α) (q : DropOldest α) :
    (q.enter xs).entered = q.entered ++ xs := by
  simp only [entered, enter, List.append_assoc]

theorem entered_leave (n : ℕ) (fate : Fate) (q : DropOldest α) :
    (q.leave n fate).entered = q.entered := by
  have hfst : ((q.queue.take n).map (·, fate)).map Prod.fst = q.queue.take n := by
    rw [List.map_map]
    exact List.map_id _
  simp only [entered, leave, List.map_append, hfst, List.append_assoc, List.take_append_drop]

theorem entered_push (bound : ℕ) (xs : List α) (q : DropOldest α) :
    (q.push bound xs).entered = q.entered ++ xs := by
  rw [push, entered_leave, entered_enter]

@[simp] theorem met_enter (fate : Fate) (xs : List α) (q : DropOldest α) :
    (q.enter xs).met fate = q.met fate := rfl

theorem met_leave (fate : Fate) (n : ℕ) (q : DropOldest α) :
    (q.leave n fate).met fate = q.met fate ++ q.queue.take n := by
  have hall : (q.queue.take n |>.map (·, fate)).filter (·.2 = fate) =
      (q.queue.take n).map (·, fate) := by
    rw [List.filter_eq_self]
    intro x hx
    obtain ⟨a, -, rfl⟩ := List.mem_map.mp hx
    exact decide_eq_true rfl
  have hfst : ((q.queue.take n).map (·, fate)).map Prod.fst = q.queue.take n := by
    rw [List.map_map]
    exact List.map_id _
  simp only [met, leave, List.filter_append, hall, List.map_append, hfst]

theorem met_leave_of_ne {fate fate' : Fate} (h : fate' ≠ fate) (n : ℕ) (q : DropOldest α) :
    (q.leave n fate').met fate = q.met fate := by
  have hnone : (q.queue.take n |>.map (·, fate')).filter (·.2 = fate) = [] := by
    rw [List.filter_eq_nil_iff]
    intro x hx
    obtain ⟨a, -, rfl⟩ := List.mem_map.mp hx
    simpa using h
  simp only [met, leave, List.filter_append, hnone, List.append_nil]

/-- Every entry is still queued or met one of the three fates. -/
theorem length_entered (q : DropOldest α) :
    q.entered.length = (q.met .taken).length + (q.met .dropped).length +
      (q.met .cleared).length + q.queue.length := by
  obtain ⟨queue, left⟩ := q
  simp only [entered, met, List.length_append, List.length_map]
  congr 1
  induction left with
  | nil => rfl
  | cons x left ih =>
    obtain ⟨a, fate⟩ := x
    cases fate <;> simp [ih] <;> omega

end DropOldest
end MelonDS

/-!
## Mailboxes of bounded size

A mailbox keeps what was posted to it until it is taken, oldest first, and gives
up its oldest letters when a new one would not fit. What was taken and what is
still held are, in this order, a selection of what was posted.
-/

namespace MelonDS

variable {α : Type*}

def totalSize (size : α → ℕ) (ps : List α) : ℕ := (ps.map size).sum

theorem totalSize_append (size : α → ℕ) (ps qs : List α) :
    totalSize size (ps ++ qs) = totalSize size ps + totalSize size qs := by
  rw [totalSize, List.map_append, List.sum_append]
  rfl

theorem totalSize_cons (size : α → ℕ) (p : α) (ps : List α) :
    totalSize size (p :: ps) = size p + totalSize size ps := rfl

theorem totalSize_nil (size : α → ℕ) : totalSize size [] = 0 := rfl

/-- What is left once the oldest letters have made way for `room`. -/
def makeRoom (size : α → ℕ) (cap room : ℕ) : List α → List α
  | [] => []
  | p :: ps => if totalSize size (p :: ps) + room ≤ cap then p :: ps else makeRoom size cap room ps

theorem makeRoom_of_fits {size : α → ℕ} {cap room : ℕ} {ps : List α}
    (h : totalSize size ps + room ≤ cap) : makeRoom size cap room ps = ps := by
  cases ps with
  | nil => rfl
  | cons p ps => rw [makeRoom, if_pos h]

theorem makeRoom_fits {size : α → ℕ} {cap room : ℕ} (hroom : room ≤ cap) (ps : List α) :
    totalSize size (makeRoom size cap room ps) + room ≤ cap := by
  induction ps with
  | nil => rwa [makeRoom, totalSize_nil, Nat.zero_add]
  | cons p ps ih =>
    rw [makeRoom]
    split_ifs with hfits
    · exact hfits
    · exact ih

/-- Only the oldest letters go, and only while there is no room. -/
theorem makeRoom_eq_drop (size : α → ℕ) (cap room : ℕ) (ps : List α) :
    ∃ k, makeRoom size cap room ps = ps.drop k ∧
      ∀ j < k, cap < totalSize size (ps.drop j) + room := by
  induction ps with
  | nil => exact ⟨0, rfl, fun j hj => absurd hj (Nat.not_lt_zero j)⟩
  | cons p ps ih =>
    rw [makeRoom]
    split_ifs with hfits
    · exact ⟨0, rfl, fun j hj => absurd hj (Nat.not_lt_zero j)⟩
    · obtain ⟨k, hdrop, hfull⟩ := ih
      refine ⟨k + 1, hdrop, fun j hj => ?_⟩
      cases j with
      | zero => exact Nat.not_le.mp hfits
      | succ j => exact hfull j (Nat.lt_of_succ_lt_succ hj)

structure Mailbox {α : Type*} (size : α → ℕ) (cap : ℕ) where
  sent : List α
  received : List α
  held : List α
  selected : (received ++ held).Sublist sent
  fits : totalSize size held ≤ cap

namespace Mailbox

variable {size : α → ℕ} {cap : ℕ}

def empty : Mailbox size cap := ⟨[], [], [], List.Sublist.refl _, Nat.zero_le _⟩

def clear (b : Mailbox size cap) : Mailbox size cap where
  sent := b.sent
  received := b.received
  held := []
  selected := by
    rw [List.append_nil]
    exact (List.sublist_append_left _ _).trans b.selected
  fits := Nat.zero_le _

def post (b : Mailbox size cap) (p : α) (h : size p ≤ cap) : Mailbox size cap where
  sent := b.sent ++ [p]
  received := b.received
  held := makeRoom size cap (size p) b.held ++ [p]
  selected := by
    obtain ⟨k, hdrop, -⟩ := makeRoom_eq_drop size cap (size p) b.held
    rw [hdrop, ← List.append_assoc]
    have hkept := (List.drop_sublist k b.held).append_left b.received
    exact (hkept.trans b.selected).append_right [p]
  fits := by
    have hroom : totalSize size (makeRoom size cap (size p) b.held) + size p ≤ cap :=
      makeRoom_fits h b.held
    rw [totalSize_append, totalSize_cons, totalSize_nil]
    omega

/-- The oldest letter, if there is one, goes to the receiver. -/
def take (b : Mailbox size cap) : Mailbox size cap where
  sent := b.sent
  received := b.received ++ b.held.head?.toList
  held := b.held.tail
  selected := by
    have hsplit : b.held.head?.toList ++ b.held.tail = b.held := by cases b.held <;> rfl
    rw [List.append_assoc, hsplit]
    exact b.selected
  fits := by
    have hfits := b.fits
    have htail : totalSize size b.held.tail ≤ totalSize size b.held := by
      cases b.held with
      | nil => exact Nat.le_refl _
      | cons p ps => exact Nat.le_add_left _ _
    exact htail.trans hfits

end Mailbox
end MelonDS

/-!
## A buffer of two places

Words are put at one cursor and taken at the other. The buffer is described by the list it
holds, oldest first.
-/

namespace MelonDS

variable {α : Type*}

/-- The `count` words between the cursors. -/
inductive TwoPlaceFifo (data : Bool → α) (take put : Bool) : ℕ → List α → Prop
  | empty (hcursor : put = take) : TwoPlaceFifo data take put 0 []
  | one (hcursor : put = !take) : TwoPlaceFifo data take put 1 [data take]
  | two (hcursor : put = take) : TwoPlaceFifo data take put 2 [data take, data !take]

namespace TwoPlaceFifo

variable {data : Bool → α} {take put : Bool} {count : ℕ} {l : List α}

theorem length (h : TwoPlaceFifo data take put count l) : l.length = count := by
  cases h <;> rfl

theorem count_le (h : TwoPlaceFifo data take put count l) : count ≤ 2 := by
  cases h <;> decide

/-- The place under the cursor is free while the buffer is not full. -/
theorem overwrite (h : TwoPlaceFifo data take put count l) (hcount : count < 2) (a : α) :
    TwoPlaceFifo (Function.update data put a) take put count l := by
  cases h with
  | empty hcursor => exact .empty hcursor
  | one hcursor =>
    have hkept : Function.update data put a take = data take :=
      Function.update_of_ne (hcursor ▸ Bool.self_ne_not take) a data
    rw [← hkept]
    exact .one hcursor
  | two => exact absurd hcount (by decide)

theorem push (h : TwoPlaceFifo data take put count l) (hcount : count < 2) (a : α) :
    TwoPlaceFifo (Function.update data put a) take (!put) (count + 1) (l ++ [a]) := by
  cases h with
  | empty hcursor =>
    subst hcursor
    have hone : TwoPlaceFifo (Function.update data put a) put (!put) 1 _ := .one rfl
    rwa [Function.update_self] at hone
  | one hcursor =>
    subst hcursor
    have htwo : TwoPlaceFifo (Function.update data (!take) a) take (!!take) 2 _ :=
      .two (Bool.not_not take)
    rwa [Function.update_self, Function.update_of_ne (Bool.self_ne_not take)] at htwo
  | two => exact absurd hcount (by decide)

theorem pop {a : α} (h : TwoPlaceFifo data take put count (a :: l)) :
    data take = a ∧ TwoPlaceFifo data (!take) put (count - 1) l := by
  cases h with
  | one hcursor => exact ⟨rfl, .empty hcursor⟩
  | two hcursor => exact ⟨rfl, .one (hcursor.trans (Bool.not_not take).symm)⟩

end TwoPlaceFifo
end MelonDS

import Mathlib.Data.List.Basic

/-!
# Reading a file

A reader moves a file handle and may fail; the handle remembers each access, also when the reader
fails. `Confined` readers stay inside a region whatever the file holds. `Yields` says what a
reader makes of the bytes at a position, and both follow the reader's own composition.
-/

namespace MelonDS.FileReader

/-- A position, and the accesses made so far with their lengths, last one first. -/
structure Handle where
  pos : ℕ
  reads : List (ℕ × ℕ)

def Reader (α : Type) := Handle → Option α × Handle

variable {α β : Type}

instance : Monad Reader where
  pure a := fun h => (some a, h)
  bind p k := fun h => (p h).1.elim (none, (p h).2) fun a => k a (p h).2

theorem bind_of_some {p : Reader α} {h : Handle} {a : α} (ha : (p h).1 = some a)
    (k : α → Reader β) : (p >>= k) h = k a (p h).2 := by
  change (p h).1.elim (none, (p h).2) (fun a => k a (p h).2) = _
  rw [ha]
  rfl

theorem bind_of_none {p : Reader α} {h : Handle} (hnone : (p h).1 = none) (k : α → Reader β) :
    (p >>= k) h = (none, (p h).2) := by
  change (p h).1.elim (none, (p h).2) (fun a => k a (p h).2) = _
  rw [hnone]
  rfl

def fail : Reader α := fun h => (none, h)

def check (p : Prop) [Decidable p] : Reader Unit := if p then pure () else fail

def tell : Reader ℕ := fun h => (some h.pos, h)

def seek (pos : ℕ) : Reader Unit := fun h => (some (), { h with pos := pos })

/-- Up to `n` elements; fewer at the end of the file. -/
def read (file : List β) (n : ℕ) : Reader (List β) := fun h =>
  (some ((file.drop h.pos).take n),
    ⟨h.pos + ((file.drop h.pos).take n).length, (h.pos, n) :: h.reads⟩)

theorem tell_bind (k : ℕ → Reader β) (h : Handle) : (tell >>= k) h = k h.pos h := rfl

theorem check_bind_of_true {p : Prop} [Decidable p] (hp : p) (k : Unit → Reader β) :
    (check p >>= k) = k () := by
  rw [check, if_pos hp]
  rfl

theorem check_bind_of_false {p : Prop} [Decidable p] (hp : ¬p) (k : Unit → Reader β) :
    (check p >>= k) = fail := by
  rw [check, if_neg hp]
  rfl

/-! ## What a reader returns -/

/-- Whatever is returned has the property. -/
def Ensures (p : Reader α) (P : α → Prop) : Prop := ∀ h a, (p h).1 = some a → P a

theorem ensures_pure {P : α → Prop} {a : α} (ha : P a) : Ensures (pure a : Reader α) P :=
  fun _ _ heq => Option.some.inj heq ▸ ha

theorem ensures_fail (P : α → Prop) : Ensures (fail : Reader α) P :=
  fun _ _ heq => absurd heq nofun

theorem Ensures.bind {p : Reader α} {k : α → Reader β} {P : α → Prop} {Q : β → Prop}
    (hp : Ensures p P) (hk : ∀ a, P a → Ensures (k a) Q) : Ensures (p >>= k) Q := by
  intro h b hb
  cases ha : (p h).1 with
  | none =>
    rw [bind_of_none ha] at hb
    exact absurd hb nofun
  | some a =>
    rw [bind_of_some ha] at hb
    exact hk a (hp h a ha) _ b hb

theorem ensures_true (p : Reader α) : Ensures p fun _ => True := fun _ _ _ => trivial

theorem ensures_check (p : Prop) [Decidable p] : Ensures (check p) fun _ => p := by
  intro h a heq
  by_cases hp : p
  · exact hp
  · rw [check, if_neg hp] at heq
    exact absurd heq nofun

/-! ## Where a reader reads -/

structure Handle.Within (lo hi : ℕ) (h : Handle) : Prop where
  pos : lo ≤ h.pos
  reads : ∀ r ∈ h.reads, lo ≤ r.1 ∧ r.1 + r.2 ≤ hi

def Confined (lo hi : ℕ) (p : Reader α) : Prop :=
  ∀ h : Handle, h.Within lo hi → (p h).2.Within lo hi

variable {lo hi : ℕ}

theorem confined_pure (a : α) : Confined lo hi (pure a : Reader α) := fun _ h => h

theorem confined_fail : Confined lo hi (fail : Reader α) := fun _ h => h

theorem confined_check (p : Prop) [Decidable p] : Confined lo hi (check p) := by
  rw [check]
  split_ifs
  · exact confined_pure ()
  · exact confined_fail

theorem confined_seek {pos : ℕ} (hpos : lo ≤ pos) : Confined lo hi (seek pos) :=
  fun _ h => ⟨hpos, h.reads⟩

/-- What follows may use what is known of the value. -/
theorem Confined.bind_ensures {p : Reader α} {k : α → Reader β} {P : α → Prop}
    (hp : Confined lo hi p) (hensures : Ensures p P) (hk : ∀ a, P a → Confined lo hi (k a)) :
    Confined lo hi (p >>= k) := by
  intro h hwithin
  have hfirst := hp h hwithin
  cases ha : (p h).1 with
  | none =>
    rw [bind_of_none ha]
    exact hfirst
  | some a =>
    rw [bind_of_some ha]
    exact hk a (hensures h a ha) _ hfirst

theorem Confined.bind {p : Reader α} {k : α → Reader β} (hp : Confined lo hi p)
    (hk : ∀ a, Confined lo hi (k a)) : Confined lo hi (p >>= k) :=
  hp.bind_ensures (ensures_true p) fun a _ => hk a

/-- What follows may use what `tell` says of the position. -/
theorem confined_tell_bind {k : ℕ → Reader β}
    (hk : ∀ pos, lo ≤ pos → Confined lo hi (k pos)) : Confined lo hi (tell >>= k) :=
  fun h hwithin => hk h.pos hwithin.pos h hwithin

/-- What follows may use what was checked. -/
theorem confined_check_bind {p : Prop} [Decidable p] {k : Unit → Reader β}
    (hk : p → Confined lo hi (k ())) : Confined lo hi (check p >>= k) :=
  (confined_check p).bind_ensures (ensures_check p) fun _ hp => hk hp

/-- A read that ends inside the region. -/
theorem read_within {file : List β} {n : ℕ} {h : Handle} (hwithin : h.Within lo hi)
    (hend : h.pos + n ≤ hi) : (read file n h).2.Within lo hi := by
  refine ⟨Nat.le_trans hwithin.pos (Nat.le_add_right _ _), fun r hr => ?_⟩
  rcases List.mem_cons.mp hr with rfl | hr
  · exact ⟨hwithin.pos, hend⟩
  · exact hwithin.reads r hr

/-! ## What a reader makes of a position -/

/-- From `pos` the reader gives `a` and ends at `pos'`. -/
def Yields (p : Reader α) (pos : ℕ) (a : α) (pos' : ℕ) : Prop :=
  ∀ h : Handle, h.pos = pos → (p h).1 = some a ∧ (p h).2.pos = pos'

def Refuses (p : Reader α) (pos : ℕ) : Prop := ∀ h : Handle, h.pos = pos → (p h).1 = none

variable {pos pos' pos'' : ℕ}

theorem yields_pure (a : α) (pos : ℕ) : Yields (pure a) pos a pos := fun _ h => ⟨rfl, h⟩

theorem yields_check {p : Prop} [Decidable p] (hp : p) (pos : ℕ) : Yields (check p) pos () pos := by
  rw [check, if_pos hp]
  exact yields_pure () pos

theorem refuses_check {p : Prop} [Decidable p] (hp : ¬p) (pos : ℕ) : Refuses (check p) pos := by
  rw [check, if_neg hp]
  exact fun _ _ => rfl

theorem yields_tell (pos : ℕ) : Yields tell pos pos pos := by
  rintro h rfl
  exact ⟨rfl, rfl⟩

theorem yields_seek (pos pos' : ℕ) : Yields (seek pos') pos () pos' := fun _ _ => ⟨rfl, rfl⟩

/-- The file holds the bytes at `pos`. -/
def Holds (file : List β) (pos : ℕ) (bytes : List β) : Prop := bytes <+: file.drop pos

theorem Holds.left {file as bs : List β} (h : Holds file pos (as ++ bs)) : Holds file pos as :=
  (List.prefix_append as bs).trans h

theorem Holds.right {file as bs : List β} (h : Holds file pos (as ++ bs)) :
    Holds file (pos + as.length) bs := by
  obtain ⟨rest, heq⟩ := h
  refine ⟨rest, ?_⟩
  rw [← List.drop_drop, ← heq, List.append_assoc, List.drop_left]

theorem yields_read {file bytes : List β} {n : ℕ} (hfile : Holds file pos bytes)
    (hn : bytes.length = n) : Yields (read file n) pos bytes (pos + n) := by
  rintro h rfl
  have htake : (file.drop h.pos).take n = bytes := by
    rw [← hn]
    exact (List.prefix_iff_eq_take.mp hfile).symm
  constructor
  · exact congrArg some htake
  · change h.pos + ((file.drop h.pos).take n).length = h.pos + n
    rw [htake, hn]

theorem Yields.bind {p : Reader α} {k : α → Reader β} {a : α} {b : β} (hp : Yields p pos a pos')
    (hk : Yields (k a) pos' b pos'') : Yields (p >>= k) pos b pos'' := by
  intro h hpos
  obtain ⟨ha, hpos'⟩ := hp h hpos
  rw [bind_of_some ha]
  exact hk _ hpos'

/-- From `pos` the reader does what the other one does from `pos'`. -/
def Leads (p : Reader α) (pos : ℕ) (q : Reader α) (pos' : ℕ) : Prop :=
  ∀ h : Handle, h.pos = pos → ∃ h' : Handle, h'.pos = pos' ∧ p h = q h'

theorem Yields.leads {p : Reader α} {a : α} (hp : Yields p pos a pos') (k : α → Reader β) :
    Leads (p >>= k) pos (k a) pos' := by
  intro h hpos
  obtain ⟨ha, hpos'⟩ := hp h hpos
  exact ⟨(p h).2, hpos', bind_of_some ha k⟩

theorem Leads.trans {p q r : Reader α} (hp : Leads p pos q pos') (hq : Leads q pos' r pos'') :
    Leads p pos r pos'' := by
  intro h hpos
  obtain ⟨h', hpos', heq⟩ := hp h hpos
  obtain ⟨h'', hpos'', heq'⟩ := hq h' hpos'
  exact ⟨h'', hpos'', heq.trans heq'⟩

theorem Leads.yields {p q : Reader α} {a : α} (hp : Leads p pos q pos')
    (hq : Yields q pos' a pos'') : Yields p pos a pos'' := by
  intro h hpos
  obtain ⟨h', hpos', heq⟩ := hp h hpos
  rw [heq]
  exact hq h' hpos'

theorem Leads.refuses {p q : Reader α} (hp : Leads p pos q pos') (hq : Refuses q pos') :
    Refuses p pos := by
  intro h hpos
  obtain ⟨h', hpos', heq⟩ := hp h hpos
  rw [heq]
  exact hq h' hpos'

theorem Refuses.bind {p : Reader α} (k : α → Reader β) (hp : Refuses p pos) :
    Refuses (p >>= k) pos := by
  intro h hpos
  rw [bind_of_none (hp h hpos)]

end MelonDS.FileReader

import Mathlib.Data.Fintype.Card
import MelonDS.Library.BitSet
import MelonDS.Types

/-!
# The polygons of each row

Polygons are entered in a list at the row they start on and in one at the row they end on, by links
that lead to lower indices only. Each row clears and sets the bits of its two lists in a mask, and
the bits of the mask are the polygons drawn on the row.
-/

namespace MelonDS.PolygonRows

open LowestBit

structure Polygon where
  yTop : S32
  yBottom : S32

/-- An index of the polygon list, or the -1 at the end of a list. -/
abbrev Link := Option (Fin 2048)

structure Tables where
  polygonRowStart : Fin 192 → Link
  polygonRowEnd : Fin 192 → Link
  polygonStartNext : Fin 2048 → Link
  polygonEndNext : Fin 2048 → Link

/-! ## Setup -/

/-- The row behind the last one of a polygon; none for one that is upside down. -/
def endRow (p : Polygon) : Option ℤ :=
  if p.yTop.toInt < p.yBottom.toInt then some p.yBottom.toInt
  else if p.yBottom.toInt = p.yTop.toInt then some (p.yTop.toInt + 1)
  else none

/-- The rows from `start` up to `stop` that are on the screen, if there are any. -/
def clampRows (start stop : ℤ) : Option { r : ℕ × ℕ // r.1 < r.2 ∧ r.2 ≤ 192 } :=
  if h : max start 0 < min stop 192 then
    some ⟨((max start 0).toNat, (min stop 192).toNat), by omega⟩
  else none

def rows (p : Polygon) : Option { r : ℕ × ℕ // r.1 < r.2 ∧ r.2 ≤ 192 } :=
  (endRow p).bind (clampRows p.yTop.toInt)

/-- Entering a polygon in the two lists of its rows. -/
def enter (t : Tables) (i : Fin 2048) (r : { r : ℕ × ℕ // r.1 < r.2 ∧ r.2 ≤ 192 }) : Tables :=
  have hr := r.property
  let start : Fin 192 := ⟨r.val.1, by omega⟩
  let t := { t with
    polygonStartNext := Function.update t.polygonStartNext i (t.polygonRowStart start)
    polygonRowStart := Function.update t.polygonRowStart start (some i) }
  if h : r.val.2 < 192 then
    { t with
      polygonEndNext := Function.update t.polygonEndNext i (t.polygonRowEnd ⟨r.val.2, h⟩)
      polygonRowEnd := Function.update t.polygonRowEnd ⟨r.val.2, h⟩ (some i) }
  else t

def setupPolygon (t : Tables) (i : Fin 2048) (p : Polygon) : Tables :=
  match rows p with
  | none => t
  | some r => enter t i r

/-- `SetupPolygonRows`; the mask is emptied, the links are left as they were. -/
def setupPolygonRows {npolys : ℕ} (hn : npolys ≤ 2048) (polys : Fin npolys → Polygon)
    (t : Tables) : Tables :=
  (List.finRange npolys).foldl (fun t i => setupPolygon t (i.castLE hn) (polys i))
    { t with polygonRowStart := fun _ => none, polygonRowEnd := fun _ => none }

/-! ## Scanlines -/

/-- `ActivePolygonMask` -/
abbrev Mask := Fin 32 → U64

def word (i : Fin 2048) : Fin 32 := ⟨i.val / 64, by omega⟩

def Mask.clear (m : Mask) (i : Fin 2048) : Mask :=
  Function.update m (word i) (m (word i) &&& ~~~bit 64 (i.val % 64))

def Mask.set (m : Mask) (i : Fin 2048) : Mask :=
  Function.update m (word i) (m (word i) ||| bit 64 (i.val % 64))

/-- The polygons of a list, if `fuel` links are enough. -/
def follow (next : Fin 2048 → Link) : ℕ → Link → Option (List (Fin 2048))
  | _, none => some []
  | 0, some _ => none
  | fuel + 1, some i => (follow next fuel (next i)).map (i :: ·)

/-- The loop over the words of the mask and the bits of each word. -/
def visits (npolys : ℕ) (m : Mask) : List ℕ :=
  ((List.finRange 32).take ((npolys + 63) / 64)).flatMap fun w =>
    (ascending (m w)).map (w.val * 64 + ·)

/-- `RenderScanline`: the mask of the row, and the polygons it visits. -/
def renderScanline (t : Tables) (npolys fuel : ℕ) (y : Fin 192) (m : Mask) :
    Option (Mask × List ℕ) := do
  let ended ← follow t.polygonEndNext fuel (t.polygonRowEnd y)
  let started ← follow t.polygonStartNext fuel (t.polygonRowStart y)
  let m := started.foldl Mask.set (ended.foldl Mask.clear m)
  pure (m, visits npolys m)

/-- `RenderScanline` for one row after the other: what each of them visits. -/
def renderRows (t : Tables) (npolys fuel : ℕ) : List (Fin 192) → Mask → Option (List (List ℕ))
  | [], _ => some []
  | y :: ys, m => do
    let (m, visited) ← renderScanline t npolys fuel y m
    let rest ← renderRows t npolys fuel ys m
    pure (visited :: rest)

/-! ## Lists -/

/-- Following the links from `link` on meets exactly these indices. -/
inductive Chain (next : Fin 2048 → Link) : Link → List (Fin 2048) → Prop
  | nil : Chain next none []
  | cons {i : Fin 2048} {l : List (Fin 2048)} (h : Chain next (next i) l) :
      Chain next (some i) (i :: l)

theorem Chain.follow {next : Fin 2048 → Link} {link : Link} {l : List (Fin 2048)}
    (h : Chain next link l) {fuel : ℕ} (hfuel : l.length ≤ fuel) :
    follow next fuel link = some l := by
  induction h generalizing fuel with
  | nil => rw [PolygonRows.follow]
  | cons h ih =>
    obtain ⟨fuel, rfl⟩ := Nat.exists_eq_add_of_le' (Nat.le_trans (Nat.succ_pos _) hfuel)
    rw [PolygonRows.follow, ih (Nat.le_of_succ_le_succ hfuel)]
    rfl

/-- A link that the list does not pass may change. -/
theorem Chain.update {next : Fin 2048 → Link} {link : Link} {l : List (Fin 2048)}
    (h : Chain next link l) {i : Fin 2048} (hi : i ∉ l) (link' : Link) :
    Chain (Function.update next i link') link l := by
  induction h with
  | nil => exact .nil
  | @cons j l h ih =>
    have hne : j ≠ i := fun heq => hi (heq ▸ List.mem_cons_self)
    have hrest := ih fun hmem => hi (List.mem_cons_of_mem j hmem)
    refine .cons ?_
    rwa [Function.update_of_ne hne]

/-- One list for each row, of the indices below `k` with that row, the last one first. -/
def Lists (head : Fin 192 → Link) (next : Fin 2048 → Link) (key : Fin 2048 → Option (Fin 192))
    (k : ℕ) : Prop :=
  ∀ y, ∃ l, Chain next (head y) l ∧ l.Pairwise (· > ·) ∧
    ∀ j : Fin 2048, j ∈ l ↔ j.val < k ∧ key j = some y

variable {head : Fin 192 → Link} {next : Fin 2048 → Link} {key : Fin 2048 → Option (Fin 192)}

theorem Lists.skip {i : Fin 2048} (h : Lists head next key i.val) (hkey : key i = none) :
    Lists head next key (i.val + 1) := by
  intro y
  obtain ⟨l, hchain, hsorted, hmem⟩ := h y
  refine ⟨l, hchain, hsorted, fun j => (hmem j).trans (and_congr_left fun hj => ?_)⟩
  have hne : j.val ≠ i.val := fun heq => absurd (Fin.ext heq ▸ hj) (by rw [hkey]; exact nofun)
  omega

/-- An index enters the list of its row at the head. -/
theorem Lists.push {i : Fin 2048} (h : Lists head next key i.val) {y : Fin 192}
    (hkey : key i = some y) :
    Lists (Function.update head y (some i)) (Function.update next i (head y)) key (i.val + 1) := by
  intro x
  obtain ⟨l, hchain, hsorted, hmem⟩ := h x
  have hnew : i ∉ l := fun hi => absurd ((hmem i).mp hi).1 (Nat.lt_irrefl _)
  by_cases hx : x = y
  · subst hx
    rw [Function.update_self]
    refine ⟨i :: l, .cons ?_, List.pairwise_cons.mpr ⟨fun j hj => ((hmem j).mp hj).1, hsorted⟩,
      fun j => ?_⟩
    · rw [Function.update_self]
      exact hchain.update hnew _
    · rw [List.mem_cons, hmem j]
      constructor
      · rintro (rfl | ⟨hj, hjkey⟩)
        · exact ⟨Nat.lt_succ_self _, hkey⟩
        · exact ⟨Nat.lt_succ_of_lt hj, hjkey⟩
      · rintro ⟨hj, hjkey⟩
        rcases Nat.lt_or_eq_of_le (Nat.le_of_lt_succ hj) with hj | hj
        · exact Or.inr ⟨hj, hjkey⟩
        · exact Or.inl (Fin.ext hj)
  · rw [Function.update_of_ne hx]
    refine ⟨l, hchain.update hnew _, hsorted, fun j => (hmem j).trans
      (and_congr_left fun hj => ?_)⟩
    have hne : j.val ≠ i.val := fun heq =>
      hx (Option.some.inj (hj.symm.trans (Fin.ext heq ▸ hkey)))
    omega

/-! ## The tables after the setup -/

variable {npolys : ℕ}

/-- The rows of the polygon with an index. -/
def rowsAt (polys : Fin npolys → Polygon) (j : Fin 2048) :
    Option { r : ℕ × ℕ // r.1 < r.2 ∧ r.2 ≤ 192 } :=
  if h : j.val < npolys then rows (polys ⟨j.val, h⟩) else none

def startKey (polys : Fin npolys → Polygon) (j : Fin 2048) : Option (Fin 192) :=
  (rowsAt polys j).map fun r => ⟨r.val.1, Nat.lt_of_lt_of_le r.property.1 r.property.2⟩

def endKey (polys : Fin npolys → Polygon) (j : Fin 2048) : Option (Fin 192) :=
  (rowsAt polys j).bind fun r => if h : r.val.2 < 192 then some ⟨r.val.2, h⟩ else none

/-- The first `k` polygons are in their lists. -/
structure Entered (polys : Fin npolys → Polygon) (t : Tables) (k : ℕ) : Prop where
  start : Lists t.polygonRowStart t.polygonStartNext (startKey polys) k
  stop : Lists t.polygonRowEnd t.polygonEndNext (endKey polys) k

theorem Entered.setup {polys : Fin npolys → Polygon} (hn : npolys ≤ 2048) {t : Tables}
    {i : Fin npolys} (h : Entered polys t i.val) :
    Entered polys (setupPolygon t (i.castLE hn) (polys i)) (i.val + 1) := by
  have hat : rowsAt polys (i.castLE hn) = rows (polys i) := dif_pos i.isLt
  rw [setupPolygon]
  cases hrows : rows (polys i) with
  | none =>
    rw [hrows] at hat
    exact ⟨h.start.skip (i := i.castLE hn) (by rw [startKey, hat]; rfl),
      h.stop.skip (i := i.castLE hn) (by rw [endKey, hat]; rfl)⟩
  | some r =>
    rw [hrows] at hat
    have hstart := h.start.push (i := i.castLE hn) (by rw [startKey, hat]; rfl)
    dsimp only
    rw [enter]
    dsimp only
    by_cases hlast : r.val.2 < 192
    · rw [dif_pos hlast]
      refine ⟨hstart, h.stop.push (i := i.castLE hn) ?_⟩
      rw [endKey, hat, Option.bind_some, dif_pos hlast]
    · rw [dif_neg hlast]
      refine ⟨hstart, h.stop.skip (i := i.castLE hn) ?_⟩
      rw [endKey, hat, Option.bind_some, dif_neg hlast]

/-- A fold over the indices in order. -/
theorem foldl_finRange {S : Type} {n : ℕ} {P : ℕ → S → Prop} {f : S → Fin n → S}
    (hstep : ∀ (i : Fin n) s, P i.val s → P (i.val + 1) (f s i)) {s : S} (hs : P 0 s) :
    P n ((List.finRange n).foldl f s) := by
  induction n generalizing s with
  | zero => exact hs
  | succ n ih =>
    rw [List.finRange_succ_last, List.foldl_append, List.foldl_map]
    exact hstep (Fin.last n) _ (ih (fun i s h => hstep i.castSucc s h) hs)

theorem entered_setupPolygonRows (hn : npolys ≤ 2048) (polys : Fin npolys → Polygon)
    (t : Tables) : Entered polys (setupPolygonRows hn polys t) npolys := by
  have hempty : ∀ (next : Fin 2048 → Link) (key : Fin 2048 → Option (Fin 192)),
      Lists (fun _ => none) next key 0 := fun next key y =>
    ⟨[], .nil, List.Pairwise.nil, fun j =>
      ⟨fun h => absurd h List.not_mem_nil, fun h => absurd h.1 (Nat.not_lt_zero _)⟩⟩
  exact foldl_finRange (P := fun k t => Entered polys t k) (fun i t h => h.setup hn)
    ⟨hempty _ _, hempty _ _⟩

/-! ## The mask -/

def Mask.active (m : Mask) (j : Fin 2048) : Bool := (m (word j)).getLsbD (j.val % 64)

/-- In one word the bits are told apart by their places. -/
theorem same_bit {i j : Fin 2048} (h : word j = word i) :
    decide (i.val % 64 = j.val % 64) = decide (j = i) := by
  have hword : j.val / 64 = i.val / 64 := congrArg Fin.val h
  refine decide_eq_decide.mpr ⟨fun hbit => Fin.ext (by omega), fun heq => ?_⟩
  rw [heq]

theorem Mask.active_clear (m : Mask) (i j : Fin 2048) :
    (m.clear i).active j = (m.active j && !decide (j = i)) := by
  have hlt : j.val % 64 < 64 := Nat.mod_lt _ (by decide)
  rw [active, active, clear]
  by_cases hw : word j = word i
  · rw [hw, Function.update_self, BitVec.getLsbD_and, BitVec.getLsbD_not, getLsbD_bit,
      decide_eq_true hlt, Bool.true_and, Bool.and_true, same_bit hw]
  · have hne : ¬j = i := fun heq => hw (congrArg word heq)
    rw [Function.update_of_ne hw, decide_eq_false hne, Bool.not_false, Bool.and_true]

theorem Mask.active_set (m : Mask) (i j : Fin 2048) :
    (m.set i).active j = (m.active j || decide (j = i)) := by
  have hlt : j.val % 64 < 64 := Nat.mod_lt _ (by decide)
  rw [active, active, set]
  by_cases hw : word j = word i
  · rw [hw, Function.update_self, BitVec.getLsbD_or, getLsbD_bit, decide_eq_true hlt,
      Bool.and_true, same_bit hw]
  · have hne : ¬j = i := fun heq => hw (congrArg word heq)
    rw [Function.update_of_ne hw, decide_eq_false hne, Bool.or_false]

theorem Mask.active_foldl_clear (l : List (Fin 2048)) (m : Mask) (j : Fin 2048) :
    (l.foldl Mask.clear m).active j = (m.active j && !decide (j ∈ l)) := by
  induction l generalizing m with
  | nil => simp
  | cons i l ih =>
    rw [List.foldl_cons, ih, active_clear, Bool.and_assoc]
    simp only [List.mem_cons, Bool.decide_or, Bool.not_or]

theorem Mask.active_foldl_set (l : List (Fin 2048)) (m : Mask) (j : Fin 2048) :
    (l.foldl Mask.set m).active j = (m.active j || decide (j ∈ l)) := by
  induction l generalizing m with
  | nil => simp
  | cons i l ih =>
    rw [List.foldl_cons, ih, active_set, Bool.or_assoc]
    simp only [List.mem_cons, Bool.decide_or]

/-- The loops over words and bits meet the active polygons in the order of their indices. -/
theorem visits_eq {m : Mask} (hn : npolys ≤ 2048)
    (hm : ∀ j, m.active j = true → j.val < npolys) :
    visits npolys m = ((List.finRange npolys).filter fun i => m.active (i.castLE hn)).map Fin.val := by
  refine eq_of_pairwise_lt ?_ ?_ fun i => ?_
  · refine List.pairwise_flatMap.mpr ⟨fun w _ => ?_, ?_⟩
    · exact (pairwise_ascending (m w)).map _ fun _ _ hlt => Nat.add_lt_add_left hlt _
    · refine ((List.pairwise_lt_finRange 32).sublist (List.take_sublist _ _)).imp ?_
      intro v w hvw a ha b hb
      obtain ⟨c, hc, rfl⟩ := List.mem_map.mp ha
      obtain ⟨d, -, rfl⟩ := List.mem_map.mp hb
      have hlt := BitVec.lt_of_getLsbD (mem_ascending.mp hc)
      have hvw : v.val < w.val := hvw
      omega
  · exact ((List.pairwise_lt_finRange npolys).filter _).map _ fun _ _ hlt => hlt
  · rw [visits, List.mem_flatMap, List.mem_map]
    constructor
    · rintro ⟨w, -, hw⟩
      obtain ⟨c, hc, rfl⟩ := List.mem_map.mp hw
      have hbit := mem_ascending.mp hc
      have hlt := BitVec.lt_of_getLsbD hbit
      have hactive : m.active ⟨w.val * 64 + c, by omega⟩ = true := by
        have hword : word ⟨w.val * 64 + c, by omega⟩ = w := 
          Fin.ext (show (w.val * 64 + c) / 64 = w.val by omega)
        rw [Mask.active, hword, show (w.val * 64 + c) % 64 = c by omega]
        exact hbit
      exact ⟨⟨w.val * 64 + c, hm _ hactive⟩, List.mem_filter.mpr
        ⟨List.mem_finRange _, hactive⟩, rfl⟩
    · rintro ⟨j, hj, rfl⟩
      have hactive := (List.mem_filter.mp hj).2
      have hword : word (j.castLE hn) ∈ (List.finRange 32).take ((npolys + 63) / 64) := by
        have hlt := j.isLt
        refine List.mem_take_iff_getElem.mpr ⟨j.val / 64, ?_, ?_⟩
        · rw [List.length_finRange]
          omega
        · rw [List.getElem_finRange]
          rfl
      refine ⟨_, hword, List.mem_map.mpr ⟨j.val % 64, mem_ascending.mpr hactive, ?_⟩⟩
      change j.val / 64 * 64 + j.val % 64 = j.val
      omega

/-! ## The frame -/

/-- The rows a polygon is drawn on; a flat one has one. -/
def Drawn (p : Polygon) (y : ℕ) : Prop :=
  (p.yTop.toInt ≤ y ∧ (y : ℤ) < p.yBottom.toInt) ∨
    (p.yTop.toInt = p.yBottom.toInt ∧ (y : ℤ) = p.yTop.toInt)

instance (p : Polygon) (y : ℕ) : Decidable (Drawn p y) :=
  inferInstanceAs (Decidable (_ ∨ _))

theorem clampRows_iff {start stop : ℤ} {y : ℕ} (hy : y < 192) :
    (∃ r, clampRows start stop = some r ∧ r.val.1 ≤ y ∧ y < r.val.2) ↔
      start ≤ y ∧ (y : ℤ) < stop := by
  rw [clampRows]
  split_ifs with h
  · simp only [Option.some_inj, exists_eq_left']
    omega
  · refine ⟨fun ⟨r, hr, _⟩ => absurd hr nofun, fun hrow => ?_⟩
    omega

theorem drawn_iff {p : Polygon} {y : ℕ} (hy : y < 192) :
    Drawn p y ↔ ∃ r, rows p = some r ∧ r.val.1 ≤ y ∧ y < r.val.2 := by
  rw [Drawn, rows]
  rcases lt_trichotomy p.yTop.toInt p.yBottom.toInt with hlt | heq | hgt
  · rw [endRow, if_pos hlt, Option.bind_some, clampRows_iff hy]
    omega
  · rw [endRow, if_neg heq.not_lt, if_pos heq.symm, Option.bind_some, clampRows_iff hy]
    omega
  · rw [endRow, if_neg hgt.not_gt, if_neg hgt.ne]
    exact ⟨fun h => absurd h (by omega), fun ⟨r, hr, _⟩ => absurd hr nofun⟩

theorem pairwise_length {l : List (Fin 2048)} (h : l.Pairwise (· > ·)) : l.length ≤ 2048 := by
  have hnodup : l.Nodup := h.imp fun hlt => hlt.ne'
  exact hnodup.length_le_card.trans_eq (Fintype.card_fin 2048)

theorem Lists.follow {k : ℕ} (h : Lists head next key k) (y : Fin 192) :
    ∃ l, follow next 2048 (head y) = some l ∧ ∀ j : Fin 2048, j ∈ l ↔ j.val < k ∧ key j = some y := by
  obtain ⟨l, hchain, hsorted, hmem⟩ := h y
  exact ⟨l, hchain.follow (pairwise_length hsorted), hmem⟩

/-- Before row `y` the mask has the polygons drawn on the row before. -/
def Ready (polys : Fin npolys → Polygon) (y : ℕ) (m : Mask) : Prop :=
  ∀ j, m.active j = true ↔ ∃ r, rowsAt polys j = some r ∧ r.val.1 < y ∧ y ≤ r.val.2

theorem rowsAt_lt {polys : Fin npolys → Polygon} {j : Fin 2048}
    {r : { r : ℕ × ℕ // r.1 < r.2 ∧ r.2 ≤ 192 }} (h : rowsAt polys j = some r) : j.val < npolys := by
  by_contra hlt
  rw [rowsAt, dif_neg hlt] at h
  exact absurd h nofun

theorem startKey_iff {polys : Fin npolys → Polygon} {j : Fin 2048} {y : Fin 192} :
    startKey polys j = some y ↔ ∃ r, rowsAt polys j = some r ∧ r.val.1 = y.val := by
  rw [startKey, Option.map_eq_some_iff]
  exact exists_congr fun r => and_congr_right fun _ => Fin.ext_iff

theorem endKey_iff {polys : Fin npolys → Polygon} {j : Fin 2048} {y : Fin 192} :
    endKey polys j = some y ↔ ∃ r, rowsAt polys j = some r ∧ r.val.2 = y.val := by
  rw [endKey, Option.bind_eq_some_iff]
  refine exists_congr fun r => and_congr_right fun _ => ?_
  split_ifs with h
  · exact Option.some_inj.trans Fin.ext_iff
  · have hy := y.isLt
    exact ⟨fun heq => absurd heq nofun, fun heq => absurd heq (by omega)⟩

/-- A row clears the polygons that end on it and sets those that start. -/
theorem Entered.scanline {polys : Fin npolys → Polygon} {t : Tables} (hn : npolys ≤ 2048)
    (ht : Entered polys t npolys) (y : Fin 192) {m : Mask} (hm : Ready polys y.val m) :
    ∃ m', renderScanline t npolys 2048 y m = some (m',
        ((List.finRange npolys).filter fun i => Drawn (polys i) y.val).map Fin.val) ∧
      Ready polys (y.val + 1) m' := by
  obtain ⟨ended, hended, hendmem⟩ := ht.stop.follow y
  obtain ⟨started, hstarted, hstartmem⟩ := ht.start.follow y
  have hactive : ∀ j, (started.foldl Mask.set (ended.foldl Mask.clear m)).active j = true ↔
      ∃ r, rowsAt polys j = some r ∧ r.val.1 < y.val + 1 ∧ y.val + 1 ≤ r.val.2 := by
    intro j
    rw [Mask.active_foldl_set, Mask.active_foldl_clear, Bool.or_eq_true, Bool.and_eq_true,
      Bool.not_eq_true', decide_eq_false_iff_not, decide_eq_true_iff, hm j, hendmem j,
      hstartmem j, startKey_iff, endKey_iff]
    cases hrows : rowsAt polys j with
    | none => simp
    | some r =>
      have hlt := rowsAt_lt hrows
      have hr := r.property
      simp only [Option.some_inj, exists_eq_left']
      omega
  have hready : Ready polys (y.val + 1) (started.foldl Mask.set (ended.foldl Mask.clear m)) :=
    hactive
  have hbelow : ∀ j, (started.foldl Mask.set (ended.foldl Mask.clear m)).active j = true →
      j.val < npolys := by
    intro j hj
    obtain ⟨r, hr, -⟩ := (hactive j).mp hj
    exact rowsAt_lt hr
  have hvisits : visits npolys (started.foldl Mask.set (ended.foldl Mask.clear m)) =
      ((List.finRange npolys).filter fun i => Drawn (polys i) y.val).map Fin.val := by
    rw [visits_eq hn hbelow]
    refine congrArg _ (List.filter_congr fun i _ => ?_)
    refine Bool.eq_iff_iff.mpr ((hactive _).trans ?_)
    have hat : rowsAt polys (i.castLE hn) = rows (polys i) := dif_pos i.isLt
    rw [hat, decide_eq_true_iff, drawn_iff y.isLt]
    exact exists_congr fun r => and_congr_right fun _ => by omega
  refine ⟨_, ?_, hready⟩
  rw [renderScanline, hended, hstarted, ← hvisits]
  rfl

theorem Entered.renderRows {polys : Fin npolys → Polygon} {t : Tables} (hn : npolys ≤ 2048)
    (ht : Entered polys t npolys) {k : ℕ} (hk : k ≤ 192) {m : Mask} (hm : Ready polys k m) :
    renderRows t npolys 2048 ((List.finRange 192).drop k) m =
      some (((List.finRange 192).drop k).map fun y =>
        ((List.finRange npolys).filter fun i => Drawn (polys i) y.val).map Fin.val) := by
  obtain ⟨d, hd⟩ : ∃ d, k + d = 192 := ⟨192 - k, by omega⟩
  induction d generalizing k m with
  | zero =>
    rw [List.drop_eq_nil_of_le (by rw [List.length_finRange]; omega)]
    rfl
  | succ d ih =>
    have hlt : k < (List.finRange 192).length := by
      rw [List.length_finRange]
      omega
    obtain ⟨m', hrow, hm'⟩ := ht.scanline hn ⟨k, by omega⟩ hm
    rw [List.drop_eq_getElem_cons hlt, List.getElem_finRange, List.map_cons, PolygonRows.renderRows]
    refine Option.bind_eq_some_iff.mpr ⟨_, hrow, ?_⟩
    exact Option.bind_eq_some_iff.mpr ⟨_, ih (by omega) hm' (by omega), rfl⟩

/-- Rendering the rows in order visits on each row the polygons drawn there, in the order of the
list, and no list of a row meets a polygon twice. -/
theorem active_rows_scan (hn : npolys ≤ 2048) (polys : Fin npolys → Polygon) (t : Tables) :
    PolygonRows.renderRows (setupPolygonRows hn polys t) npolys 2048 (List.finRange 192)
        (fun _ => 0) =
      some ((List.finRange 192).map fun y =>
        ((List.finRange npolys).filter fun i => Drawn (polys i) y.val).map Fin.val) ∧
    ∀ y, (∃ l, Chain (setupPolygonRows hn polys t).polygonStartNext
        ((setupPolygonRows hn polys t).polygonRowStart y) l ∧ l.Nodup) ∧
      ∃ l, Chain (setupPolygonRows hn polys t).polygonEndNext
        ((setupPolygonRows hn polys t).polygonRowEnd y) l ∧ l.Nodup := by
  have ht := entered_setupPolygonRows hn polys t
  have hready : Ready polys 0 (fun _ => 0) := by
    intro j
    refine ⟨fun h => absurd h (by simp [Mask.active]), fun ⟨r, _, hr, _⟩ => absurd hr (by omega)⟩
  refine ⟨?_, fun y => ⟨?_, ?_⟩⟩
  · exact ht.renderRows hn (Nat.zero_le _) hready
  · obtain ⟨l, hchain, hsorted, -⟩ := ht.start y
    exact ⟨l, hchain, hsorted.imp fun hlt => hlt.ne'⟩
  · obtain ⟨l, hchain, hsorted, -⟩ := ht.stop y
    exact ⟨l, hchain, hsorted.imp fun hlt => hlt.ne'⟩

/-- A flat polygon, and one that begins above the screen. -/
def flatAndTall (i : Fin 2) : Polygon := if i = 0 then ⟨5, 5⟩ else ⟨-3, 7⟩

/-- Links left over from an earlier frame. -/
def leftOver : Tables := ⟨fun _ => some 7, fun _ => some 9, fun i => some i, fun _ => none⟩

theorem active_rows_scan_flatAndTall :
    ∃ visited, PolygonRows.renderRows (setupPolygonRows (by decide) flatAndTall leftOver) 2 2048
        (List.finRange 192) (fun _ => 0) = some visited ∧
      visited[4]? = some [1] ∧ visited[5]? = some [0, 1] ∧ visited[7]? = some [] := by
  refine ⟨_, (active_rows_scan (by decide) flatAndTall leftOver).1, ?_⟩
  decide

end MelonDS.PolygonRows

import Mathlib.Logic.Function.Basic
import Mathlib.Data.Nat.Notation
import MelonDS.Types

/-!
# Window masks

The window registers of `GPU2D`, the latches of windows 0 and 1, and the mask of a line. One
routine scans the columns and lets the latches change on the way. The other fills intervals: the
latch changes at the two coordinates only, so between them the mask is constant. Both leave the
same latches behind, which the next line begins with. Lines are functions on columns.
-/

namespace MelonDS.GPU2D

structure Windows where
  num : U32
  enabled : Bool
  dispCnt : U32
  win0Coords : Fin 4 → U8
  win1Coords : Fin 4 → U8
  winCnt : Fin 4 → U8
  win0Active : U8
  win1Active : U8

namespace Windows

/-! ## The registers -/

/-- Unit B lacks some of the bits. -/
def setDispCnt (w : Windows) (val : U32) : Windows :=
  { w with dispCnt := if w.num = 0 then val else val &&& 0xC0B1FFF7 }

def setWin0 (w : Windows) (i : Fin 4) (val : U8) : Windows :=
  { w with win0Coords := Function.update w.win0Coords i val }

def setWin1 (w : Windows) (i : Fin 4) (val : U8) : Windows :=
  { w with win1Coords := Function.update w.win1Coords i val }

def setWinCnt (w : Windows) (i : Fin 4) (val : U8) : Windows :=
  { w with winCnt := Function.update w.winCnt i val }

def write8 (w : Windows) (addr : U32) (val : U8) : Windows :=
  let reg := (addr &&& 0xFFF).toNat
  if reg = 0x000 then w.setDispCnt ((w.dispCnt &&& 0xFFFFFF00) ||| val.setWidth 32)
  else if reg = 0x001 then w.setDispCnt ((w.dispCnt &&& 0xFFFF00FF) ||| val.setWidth 32 <<< 8)
  else if reg = 0x002 then w.setDispCnt ((w.dispCnt &&& 0xFF00FFFF) ||| val.setWidth 32 <<< 16)
  else if reg = 0x003 then w.setDispCnt ((w.dispCnt &&& 0x00FFFFFF) ||| val.setWidth 32 <<< 24)
  else if w.enabled = false then w
  else if reg = 0x040 then w.setWin0 1 val
  else if reg = 0x041 then w.setWin0 0 val
  else if reg = 0x042 then w.setWin1 1 val
  else if reg = 0x043 then w.setWin1 0 val
  else if reg = 0x044 then w.setWin0 3 val
  else if reg = 0x045 then w.setWin0 2 val
  else if reg = 0x046 then w.setWin1 3 val
  else if reg = 0x047 then w.setWin1 2 val
  else if reg = 0x048 then w.setWinCnt 0 val
  else if reg = 0x049 then w.setWinCnt 1 val
  else if reg = 0x04A then w.setWinCnt 2 val
  else if reg = 0x04B then w.setWinCnt 3 val
  else w

def write16 (w : Windows) (addr : U32) (val : U16) : Windows :=
  let reg := (addr &&& 0xFFF).toNat
  let low := val.setWidth 8
  let high := (val >>> 8).setWidth 8
  if reg = 0x000 then w.setDispCnt ((w.dispCnt &&& 0xFFFF0000) ||| val.setWidth 32)
  else if reg = 0x002 then w.setDispCnt ((w.dispCnt &&& 0x0000FFFF) ||| val.setWidth 32 <<< 16)
  else if w.enabled = false then w
  else if reg = 0x040 then (w.setWin0 1 low).setWin0 0 high
  else if reg = 0x042 then (w.setWin1 1 low).setWin1 0 high
  else if reg = 0x044 then (w.setWin0 3 low).setWin0 2 high
  else if reg = 0x046 then (w.setWin1 3 low).setWin1 2 high
  else if reg = 0x048 then (w.setWinCnt 0 low).setWinCnt 1 high
  else if reg = 0x04A then (w.setWinCnt 2 low).setWinCnt 3 high
  else w

def write32 (w : Windows) (addr val : U32) : Windows :=
  if (addr &&& 0xFFF).toNat = 0x000 then w.setDispCnt val
  else (w.write16 addr (val.setWidth 16)).write16 (addr + 2) ((val >>> 16).setWidth 16)

/-- One vertical latch: the end clears it, else the start sets it. -/
def latchVertically (line : U32) (coords : Fin 4 → U8) (active : U8) : U8 :=
  if line = (coords 3).setWidth 32 then active &&& ~~~0x1
  else if line = (coords 2).setWidth 32 then active ||| 0x1
  else active

def updateWindows (w : Windows) (line : U32) : Windows :=
  if w.enabled = false then w
  else
    let line := line &&& 0xFF
    { w with
      win0Active := latchVertically line w.win0Coords w.win0Active
      win1Active := latchVertically line w.win1Coords w.win1Active }

end Windows

/-! ## The masks -/

def fill (line : ℕ → U8) (start n : ℕ) (val : U8) : ℕ → U8 := fun j =>
  if start ≤ j ∧ j < start + n then val else line j

/-- The columns of sprites that are windows. -/
def objWindowMask (w : Windows) (objWindow windowMask : ℕ → U8) : ℕ → U8 :=
  if w.dispCnt &&& 0x8000 ≠ 0 then fun j =>
    if j < 256 ∧ objWindow j ≠ 0 then w.winCnt 3 else windowMask j
  else windowMask

/-- One column of the scan. -/
def scanColumn (x1 x2 winCnt : U8) (s : U8 × (ℕ → U8)) (i : ℕ) : U8 × (ℕ → U8) :=
  let active :=
    if i = x2.toNat then s.1 &&& ~~~0x2 else if i = x1.toNat then s.1 ||| 0x2 else s.1
  (active, if active = 0x3 then Function.update s.2 i winCnt else s.2)

def scanWindow (windowMask : ℕ → U8) (x1 x2 active winCnt : U8) : U8 × (ℕ → U8) :=
  (List.range 256).foldl (scanColumn x1 x2 winCnt) (active, windowMask)

def overlayWindowInterval (windowMask : ℕ → U8) (x1 x2 active winCnt : U8) : U8 × (ℕ → U8) :=
  let latched := active = 0x3
  let covered := active ||| 0x2 = 0x3
  let windowMask :=
    if x1 < x2 then
      let windowMask := if latched then fill windowMask 0 x1.toNat winCnt else windowMask
      if covered then fill windowMask x1.toNat (x2.toNat - x1.toNat) winCnt else windowMask
    else
      let windowMask := if latched then fill windowMask 0 x2.toNat winCnt else windowMask
      if x2 < x1 ∧ covered then fill windowMask x1.toNat (256 - x1.toNat) winCnt else windowMask
  ((active &&& ~~~0x2) ||| (if x2 < x1 then 0x2 else 0x0), windowMask)

/-- Window 1, and window 0 over it. -/
def overlayWindows (overlay : (ℕ → U8) → U8 → U8 → U8 → U8 → U8 × (ℕ → U8)) (w : Windows)
    (windowMask : ℕ → U8) : Windows × (ℕ → U8) :=
  let (w, windowMask) :=
    if w.dispCnt &&& 0x4000 ≠ 0 then
      let (active, windowMask) :=
        overlay windowMask (w.win1Coords 0) (w.win1Coords 1) w.win1Active (w.winCnt 1)
      ({ w with win1Active := active }, windowMask)
    else (w, windowMask)
  if w.dispCnt &&& 0x2000 ≠ 0 then
    let (active, windowMask) :=
      overlay windowMask (w.win0Coords 0) (w.win0Coords 1) w.win0Active (w.winCnt 0)
    ({ w with win0Active := active }, windowMask)
  else (w, windowMask)

def calculateWindowMask (w : Windows) (windowMask objWindow : ℕ → U8) : Windows × (ℕ → U8) :=
  overlayWindows scanWindow w (objWindowMask w objWindow (fill windowMask 0 256 (w.winCnt 2)))

def calculateWindowMaskIntervals (w : Windows) (windowMask objWindow : ℕ → U8) :
    Windows × (ℕ → U8) :=
  overlayWindows overlayWindowInterval w
    (objWindowMask w objWindow (fill windowMask 0 256 (w.winCnt 2)))

/-! ## The scan and the intervals -/

/-- The latch once the columns below `n` have been scanned. -/
def latchBefore (x1 x2 : ℕ) (active : U8) (n : ℕ) : U8 :=
  if n ≤ x1 ∧ n ≤ x2 then active
  else if x2 < n ∧ (n ≤ x1 ∨ x1 ≤ x2) then active &&& ~~~0x2
  else active ||| 0x2

theorem clear_set (a : U8) : (a &&& ~~~0x2) ||| 0x2 = a ||| 0x2 := by
  apply BitVec.eq_of_getElem_eq
  intro i hi
  simp only [BitVec.getElem_or, BitVec.getElem_and, BitVec.getElem_not]
  cases a[i] <;> cases (0x2 : U8)[i] <;> rfl

theorem set_clear (a : U8) : (a ||| 0x2) &&& ~~~0x2 = a &&& ~~~0x2 := by
  apply BitVec.eq_of_getElem_eq
  intro i hi
  simp only [BitVec.getElem_or, BitVec.getElem_and, BitVec.getElem_not]
  cases a[i] <;> cases (0x2 : U8)[i] <;> rfl

/-- A latch that was cleared is not open. -/
theorem clear_ne_open (a : U8) : a &&& ~~~0x2 ≠ 0x3 := by
  intro h
  have hbit := congrArg (· &&& (0x2 : U8)) h
  have hzero : (a &&& ~~~0x2) &&& (0x2 : U8) = 0 := by
    rw [BitVec.and_assoc]
    exact BitVec.and_zero
  exact absurd (hzero.symm.trans hbit) (by decide)

theorem latchBefore_succ (x1 x2 : ℕ) (a : U8) (n : ℕ) :
    latchBefore x1 x2 a (n + 1) =
      if n = x2 then latchBefore x1 x2 a n &&& ~~~0x2
      else if n = x1 then latchBefore x1 x2 a n ||| 0x2
      else latchBefore x1 x2 a n := by
  by_cases hend : n = x2
  · subst hend
    have hcleared : latchBefore x1 n a (n + 1) = a &&& ~~~0x2 := by
      rw [latchBefore, if_neg (by omega), if_pos (by omega)]
    rw [hcleared, if_pos rfl, latchBefore]
    split_ifs with hearly hlate
    · rfl
    · omega
    · exact (set_clear a).symm
  · rw [if_neg hend]
    by_cases hstart : n = x1
    · subst hstart
      have hset : latchBefore n x2 a (n + 1) = a ||| 0x2 := by
        rw [latchBefore, if_neg (by omega), if_neg (by omega)]
      rw [hset, if_pos rfl, latchBefore]
      split_ifs with hearly hlate
      · rfl
      · exact (clear_set a).symm
      · omega
    · have hle : (n + 1 ≤ x1 ∧ n + 1 ≤ x2) = (n ≤ x1 ∧ n ≤ x2) := propext (by omega)
      have hlt : (x2 < n + 1 ∧ (n + 1 ≤ x1 ∨ x1 ≤ x2)) = (x2 < n ∧ (n ≤ x1 ∨ x1 ≤ x2)) :=
        propext (by omega)
      rw [if_neg hstart, latchBefore, latchBefore]
      simp only [hle, hlt]

theorem ite_update_of_ne {c : Prop} [Decidable c] {m : ℕ → U8} {v : U8} {j n : ℕ} (h : j ≠ n) :
    (if c then Function.update m n v else m) j = m j := by
  split_ifs
  · exact Function.update_of_ne h ..
  · rfl

theorem scanColumns_eq (x1 x2 active winCnt : U8) (windowMask : ℕ → U8) (n : ℕ) :
    (List.range n).foldl (scanColumn x1 x2 winCnt) (active, windowMask) =
      (latchBefore x1.toNat x2.toNat active n, fun j =>
        if j < n ∧ latchBefore x1.toNat x2.toNat active (j + 1) = 0x3 then winCnt
        else windowMask j) := by
  induction n with
  | zero =>
    simp only [latchBefore, Nat.zero_le, and_self, if_true, Nat.not_lt_zero, false_and, if_false]
    rfl
  | succ n ih =>
    rw [List.range_succ, List.foldl_append, ih, List.foldl_cons, List.foldl_nil, scanColumn]
    dsimp only
    rw [← latchBefore_succ]
    refine Prod.ext rfl (funext fun j => ?_)
    dsimp only
    rcases Nat.lt_trichotomy j n with hlt | rfl | hgt
    · have hne : j ≠ n := Nat.ne_of_lt hlt
      rw [ite_update_of_ne hne]
      simp only [hlt, Nat.lt_succ_of_lt hlt]
    · by_cases hopen : latchBefore x1.toNat x2.toNat active (j + 1) = 0x3
      · rw [if_pos hopen, if_pos ⟨Nat.lt_succ_self j, hopen⟩, Function.update_self]
      · rw [if_neg hopen]
        exact (if_neg fun h => Nat.lt_irrefl j h.1).trans (if_neg fun h => hopen h.2).symm
    · have hne : j ≠ n := Nat.ne_of_gt hgt
      rw [ite_update_of_ne hne, if_neg (fun h => by omega), if_neg (fun h => by omega)]

/-- Where the latch is open, it was so before the line or the window has begun. -/
theorem latchBefore_open (x1 x2 : ℕ) (a : U8) (j : ℕ) :
    latchBefore x1 x2 a (j + 1) = 0x3 ↔
      j < x1 ∧ j < x2 ∧ a = 0x3 ∨ x1 ≤ j ∧ (j < x2 ∨ x2 < x1) ∧ a ||| 0x2 = 0x3 := by
  unfold latchBefore
  by_cases hearly : j + 1 ≤ x1 ∧ j + 1 ≤ x2
  · rw [if_pos hearly]
    constructor
    · exact fun h => .inl ⟨hearly.1, hearly.2, h⟩
    · rintro (⟨-, -, h⟩ | ⟨h, -, -⟩)
      · exact h
      · omega
  · rw [if_neg hearly]
    by_cases hlate : x2 < j + 1 ∧ (j + 1 ≤ x1 ∨ x1 ≤ x2)
    · rw [if_pos hlate]
      constructor
      · exact fun h => absurd h (clear_ne_open a)
      · rintro (⟨h1, h2, -⟩ | ⟨h1, h2, -⟩) <;> omega
    · rw [if_neg hlate]
      constructor
      · exact fun h => .inr ⟨by omega, by omega, h⟩
      · rintro (⟨h1, h2, -⟩ | ⟨-, -, h⟩)
        · omega
        · exact h

theorem overlay_mask (windowMask : ℕ → U8) (x1 x2 active winCnt : U8) (j : ℕ) :
    (overlayWindowInterval windowMask x1 x2 active winCnt).2 j =
      if j < 256 ∧ (j < x1.toNat ∧ j < x2.toNat ∧ active = 0x3 ∨
        x1.toNat ≤ j ∧ (j < x2.toNat ∨ x2.toNat < x1.toNat) ∧ active ||| 0x2 = 0x3) then winCnt
      else windowMask j := by
  have h1 := x1.isLt
  have h2 := x2.isLt
  have hfill : ∀ (c : Prop) [Decidable c] (m : ℕ → U8) (start n : ℕ),
      (if c then fill m start n winCnt else m) j =
        if c ∧ start ≤ j ∧ j < start + n then winCnt else m j := by
    intro c _ m start n
    by_cases hc : c
    · rw [if_pos hc, fill]
      simp only [hc, true_and]
    · rw [if_neg hc, if_neg fun h => hc h.1]
  unfold overlayWindowInterval
  dsimp only
  simp only [BitVec.lt_def]
  by_cases hlt : x1.toNat < x2.toNat
  · rw [if_pos hlt, hfill, hfill]
    by_cases hcovered : active ||| 0x2 = 0x3 ∧ x1.toNat ≤ j ∧
        j < x1.toNat + (x2.toNat - x1.toNat)
    · rw [if_pos hcovered, if_pos]
      exact ⟨by omega, .inr ⟨hcovered.2.1, .inl (by omega), hcovered.1⟩⟩
    · rw [if_neg hcovered]
      refine if_congr ⟨fun h => ⟨by omega, .inl ⟨by omega, by omega, h.1⟩⟩, ?_⟩ rfl rfl
      rintro ⟨-, ⟨hx, -, hopen⟩ | ⟨hx, hx', hopen⟩⟩
      · exact ⟨hopen, by omega, by omega⟩
      · exact absurd ⟨hopen, hx, by omega⟩ hcovered
  · rw [if_neg hlt, hfill, hfill]
    by_cases hcovered : (x2.toNat < x1.toNat ∧ active ||| 0x2 = 0x3) ∧ x1.toNat ≤ j ∧
        j < x1.toNat + (256 - x1.toNat)
    · rw [if_pos hcovered, if_pos]
      exact ⟨by omega, .inr ⟨hcovered.2.1, .inr hcovered.1.1, hcovered.1.2⟩⟩
    · rw [if_neg hcovered]
      refine if_congr ⟨fun h => ⟨by omega, .inl ⟨by omega, by omega, h.1⟩⟩, ?_⟩ rfl rfl
      rintro ⟨hj, ⟨hx, hx', hopen⟩ | ⟨hx, hx', hopen⟩⟩
      · exact ⟨hopen, by omega, by omega⟩
      · exact absurd ⟨⟨by omega, hopen⟩, hx, by omega⟩ hcovered

theorem overlayWindowInterval_eq_scan (windowMask : ℕ → U8) (x1 x2 active winCnt : U8) :
    overlayWindowInterval windowMask x1 x2 active winCnt =
      scanWindow windowMask x1 x2 active winCnt := by
  have h1 := x1.isLt
  have h2 := x2.isLt
  rw [scanWindow, scanColumns_eq]
  refine Prod.ext ?_ (funext fun j => ?_)
  · rw [overlayWindowInterval, latchBefore]
    simp only [BitVec.lt_def]
    rw [if_neg (fun h => by omega : ¬(256 ≤ x1.toNat ∧ 256 ≤ x2.toNat))]
    by_cases hlt : x2.toNat < x1.toNat
    · rw [if_pos hlt, if_neg (by omega), clear_set]
    · rw [if_neg hlt, if_pos (by omega)]
      exact BitVec.or_zero
  · rw [overlay_mask]
    dsimp only
    simp only [latchBefore_open]

theorem calculateWindowMaskIntervals_eq (w : Windows) (windowMask objWindow : ℕ → U8) :
    calculateWindowMaskIntervals w windowMask objWindow =
      calculateWindowMask w windowMask objWindow := by
  have hoverlay : overlayWindowInterval = scanWindow := by
    funext windowMask x1 x2 active winCnt
    exact overlayWindowInterval_eq_scan windowMask x1 x2 active winCnt
  rw [calculateWindowMaskIntervals, calculateWindowMask, hoverlay]

/-! ## Runs -/

/-- What happens to the windows: a write, a change of the unit's power, a line. -/
inductive WindowEvent
  | write8 (addr : U32) (val : U8)
  | write16 (addr : U32) (val : U16)
  | write32 (addr val : U32)
  | setEnabled (enabled : Bool)
  | updateWindows (line : U32)
  | drawLine (objWindow : ℕ → U8)

/-- The registers, the mask as the last line has left it, and the masks of all lines. -/
structure WindowRun where
  windows : Windows
  windowMask : ℕ → U8
  masks : List (ℕ → U8)

def WindowRun.step (calculate : Windows → (ℕ → U8) → (ℕ → U8) → Windows × (ℕ → U8))
    (r : WindowRun) : WindowEvent → WindowRun
  | .write8 addr val => { r with windows := r.windows.write8 addr val }
  | .write16 addr val => { r with windows := r.windows.write16 addr val }
  | .write32 addr val => { r with windows := r.windows.write32 addr val }
  | .setEnabled enabled => { r with windows := { r.windows with enabled } }
  | .updateWindows line => { r with windows := r.windows.updateWindows line }
  | .drawLine objWindow =>
    let (windows, windowMask) := calculate r.windows r.windowMask objWindow
    ⟨windows, windowMask, r.masks ++ [windowMask]⟩

theorem WindowRun.step_intervals (r : WindowRun) (e : WindowEvent) :
    r.step calculateWindowMaskIntervals e = r.step calculateWindowMask e := by
  cases e with
  | drawLine objWindow =>
    rw [WindowRun.step, WindowRun.step, calculateWindowMaskIntervals_eq]
  | write8 addr val => rfl
  | write16 addr val => rfl
  | write32 addr val => rfl
  | setEnabled enabled => rfl
  | updateWindows line => rfl

/-- Over a whole run the latches and every mask are those of the scan. -/
theorem windowRun_intervals (r : WindowRun) (es : List WindowEvent) :
    es.foldl (WindowRun.step calculateWindowMaskIntervals) r =
      es.foldl (WindowRun.step calculateWindowMask) r := by
  induction es generalizing r with
  | nil => rfl
  | cons e es ih => rw [List.foldl_cons, List.foldl_cons, ih, WindowRun.step_intervals]

end MelonDS.GPU2D

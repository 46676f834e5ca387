import Mathlib.Data.Fintype.Pi
import Mathlib.Data.List.FinRange
import MelonDS.Types

/-!
# The hardware timers of one CPU

A timer counts clock cycles, shifted by its prescaler, or the overflows of the
timer before it. The count is kept with ten fractional bits, so that an overflow
shows in bit 26. Running the timers catches up with all the cycles since they ran
last, in one go: an overflow reloads the timer and carries into the ones behind it.
-/

namespace MelonDS.NDS

/-- The registers of a timer. -/
structure Control where
  reload : U16
  cnt : U16
  cycleShift : ℕ

namespace Control

/-- Enabled and driven by the clock. -/
def isDriven (c : Control) : Bool := c.cnt &&& 0x84 = 0x80

/-- Enabled and counting the overflows of the timer before it. -/
def isCountUp (c : Control) : Bool := c.cnt &&& 0x84 = 0x84

end Control

/-- What running the timers changes of a timer: its counter, and how often it raised its
interrupt, asked for its NDMAs, and was counted up by a carry. -/
structure Cell where
  counter : U32
  irqs : ℕ
  ndmas : ℕ
  carries : ℕ

abbrev Cells := Fin 4 → Cell

namespace Cell

def overflows (c : Cell) : Prop := c.counter >>> 26 ≠ 0

instance decidableOverflows (c : Cell) : Decidable c.overflows := inferInstanceAs (Decidable (_ ≠ _))

/-- `SetIRQ`, if the timer's interrupt is on, and on a DSi `CheckNDMAs`. -/
def signal (consoleType : ℕ) (control : Control) (c : Cell) : Cell :=
  { c with
    irqs := if control.cnt.getLsbD 6 then c.irqs + 1 else c.irqs
    ndmas := if consoleType = 1 then c.ndmas + 1 else c.ndmas }

def countUp (c : Cell) : Cell :=
  { c with counter := c.counter + (1 : U32) <<< 10, carries := c.carries + 1 }

def reloaded (control : Control) (c : Cell) : Cell :=
  { c with counter := control.reload.setWidth 32 <<< 10 }

end Cell

variable (consoleType : ℕ) (control : Fin 4 → Control)

/-- An overflow carried into the timers of the list, one after the other. -/
def carry : List (Fin 4) → Cells → Cells
  | [], cells => cells
  | tid :: rest, cells =>
      if (control tid).isCountUp then
        let cells := Function.update cells tid (cells tid).countUp
        if (cells tid).overflows then
          let cell := ((cells tid).reloaded (control tid)).signal consoleType (control tid)
          carry rest (Function.update cells tid cell)
        else cells
      else cells

/-- The timers behind a timer. -/
def following (tid : Fin 4) : List (Fin 4) := (List.finRange 4).filter (tid < ·)

def handleTimerOverflow (tid : Fin 4) (cells : Cells) : Cells :=
  let cell := cells tid
  let cell := { cell with counter := cell.counter + (control tid).reload.setWidth 32 <<< 10 }
  carry consoleType control (following tid)
    (Function.update cells tid (cell.signal consoleType (control tid)))

/-- One turn of the loop in `RunTimer`. -/
def overflowOnce (tid : Fin 4) (cells : Cells) : Cells :=
  let cell := { cells tid with counter := (cells tid).counter - (1 : U32) <<< 26 }
  handleTimerOverflow consoleType control tid (Function.update cells tid cell)

theorem carry_of_notMem {tid : Fin 4} {rest : List (Fin 4)} (h : tid ∉ rest) (cells : Cells) :
    carry consoleType control rest cells tid = cells tid := by
  induction rest generalizing cells with
  | nil => rfl
  | cons k rest ih =>
    have hne : tid ≠ k := fun hk => h (hk ▸ List.mem_cons_self)
    have hrest : tid ∉ rest := fun hmem => h (List.mem_cons_of_mem k hmem)
    rw [carry]
    split_ifs
    · simp only
      split_ifs
      · rw [ih hrest, Function.update_of_ne hne, Function.update_of_ne hne]
      · rw [Function.update_of_ne hne]
    · rfl

theorem notMem_following (tid : Fin 4) : tid ∉ following tid := by
  simp [following]

/-- A turn leaves the counter lower by the timer's period. -/
theorem overflowOnce_counter {tid : Fin 4} {cells : Cells} (h : (cells tid).overflows) :
    (overflowOnce consoleType control tid cells tid).counter.toNat + 2 ^ 26 =
      (cells tid).counter.toNat + (control tid).reload.toNat * 2 ^ 10 := by
  have hcell : (overflowOnce consoleType control tid cells tid).counter =
      (cells tid).counter - (1 : U32) <<< 26 + (control tid).reload.setWidth 32 <<< 10 := by
    simp only [overflowOnce, handleTimerOverflow]
    rw [carry_of_notMem consoleType control (notMem_following tid), Function.update_self,
      Function.update_self]
    rfl
  have hhigh : 2 ^ 26 ≤ (cells tid).counter.toNat := by
    by_contra hlow
    refine h (BitVec.eq_of_toNat_eq ?_)
    rw [BitVec.toNat_ushiftRight, Nat.shiftRight_eq_div_pow, Nat.div_eq_of_lt (by omega)]
    rfl
  have hone : ((1 : U32) <<< 26).toNat = 2 ^ 26 := by decide
  have hcounter := (cells tid).counter.isLt
  have hreload := (control tid).reload.isLt
  have hshift : ((control tid).reload.setWidth 32 <<< 10).toNat =
      (control tid).reload.toNat * 2 ^ 10 := by
    rw [BitVec.toNat_shiftLeft, BitVec.toNat_setWidth, Nat.shiftLeft_eq,
      Nat.mod_eq_of_lt (by omega : _ < 2 ^ 32), Nat.mod_eq_of_lt (by omega)]
  rw [hcell, BitVec.toNat_add, BitVec.toNat_sub, hone, hshift]
  omega

theorem overflowOnce_lt {tid : Fin 4} {cells : Cells} (h : (cells tid).overflows) :
    (overflowOnce consoleType control tid cells tid).counter.toNat <
      (cells tid).counter.toNat := by
  have hcounter := overflowOnce_counter consoleType control h
  have hreload := (control tid).reload.isLt
  omega

/-- The loop in `RunTimer`. -/
def overflowLoop (tid : Fin 4) (cells : Cells) : Cells :=
  if (cells tid).overflows then
    overflowLoop tid (overflowOnce consoleType control tid cells)
  else cells
termination_by (cells tid).counter.toNat
decreasing_by exact overflowOnce_lt consoleType control ‹_›

def runTimer (tid : Fin 4) (cycles : S32) (cells : Cells) : Cells :=
  let cell := cells tid
  let cell := { cell with counter := cell.counter + cycles <<< (control tid).cycleShift }
  overflowLoop consoleType control tid (Function.update cells tid cell)

/-- The timers of a CPU. The mask names the timers that the clock drives. -/
structure Timers where
  consoleType : ℕ
  control : Fin 4 → Control
  cells : Cells
  checkMask : U8
  timestamp : U64
  checked : ∀ tid : Fin 4, checkMask.getLsbD tid = (control tid).isDriven

/-- `RunTimers` when the CPU's clock shows `now`. -/
def Timers.runTimers (s : Timers) (now : U64) : Timers :=
  let cycles : S32 := (now - s.timestamp).setWidth 32
  let run (cells : Cells) (tid : Fin 4) : Cells :=
    if s.checkMask.getLsbD tid then runTimer s.consoleType s.control tid cycles cells else cells
  { s with
    cells := run (run (run (run s.cells 0) 1) 2) 3
    timestamp := s.timestamp + cycles.signExtend 64 }

def timerPrescaler (cnt : U16) : ℕ := [0, 6, 8, 10].getD (cnt &&& 0x03).toNat 0

/-- The mask after one timer's bit was set or cleared. -/
theorem getLsbD_checkMask (mask : U8) (id tid : Fin 4) (p : Prop) [Decidable p] :
    (if p then mask ||| bit 8 id else mask &&& ~~~bit 8 id).getLsbD tid =
      if tid = id then decide p else mask.getLsbD tid := by
  have hlt : tid.val < 8 := by omega
  by_cases htid : tid = id
  · subst htid
    rw [if_pos rfl]
    split_ifs with hp <;> simp [hp, hlt]
  · have hval : ¬id.val = tid.val := fun h => htid (Fin.ext h.symm)
    split_ifs <;> simp [hval, hlt]

/-- A write to a timer's control register when the CPU's clock shows `now`. -/
def Timers.timerStart (s : Timers) (now : U64) (id : Fin 4) (cnt : U16) : Timers :=
  let curstart := (s.control id).cnt.getLsbD 7
  let newstart := cnt.getLsbD 7
  let s := s.runTimers now
  let control := { s.control id with cnt := cnt, cycleShift := 10 - timerPrescaler cnt }
  let cell := if ¬curstart ∧ newstart then (s.cells id).reloaded control else s.cells id
  { s with
    control := Function.update s.control id control
    cells := Function.update s.cells id cell
    checkMask :=
      if cnt &&& 0x84 = 0x80 then s.checkMask ||| bit 8 id else s.checkMask &&& ~~~bit 8 id
    checked := by
      intro tid
      rw [getLsbD_checkMask]
      split_ifs with htid
      · rw [htid, Function.update_self]
        rfl
      · rw [Function.update_of_ne htid]
        exact s.checked tid }

end MelonDS.NDS

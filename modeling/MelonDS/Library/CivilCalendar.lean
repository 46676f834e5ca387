import Mathlib.Data.Nat.Basic
import Mathlib.Tactic.IntervalCases
import Mathlib.Tactic.SplitIfs

/-!
# The civil calendar

Dates and times of the Gregorian calendar, the second after a given one, and the
number of a second counted from the first of January of a year `epoch`. A valid
date and time is determined by its number.
-/

namespace MelonDS

structure CivilTime where
  year : ℕ
  month : ℕ
  day : ℕ
  hour : ℕ
  minute : ℕ
  second : ℕ
deriving DecidableEq

namespace CivilTime

def isLeap (year : ℕ) : Bool := year % 4 = 0 ∧ (year % 100 ≠ 0 ∨ year % 400 = 0)

def monthDays (year month : ℕ) : ℕ :=
  if month = 2 then (if isLeap year then 29 else 28)
  else if month = 4 ∨ month = 6 ∨ month = 9 ∨ month = 11 then 30
  else 31

structure Valid (t : CivilTime) : Prop where
  month_pos : 1 ≤ t.month
  month_le : t.month ≤ 12
  day_pos : 1 ≤ t.day
  day_le : t.day ≤ monthDays t.year t.month
  hour_lt : t.hour < 24
  minute_lt : t.minute < 60
  second_lt : t.second < 60

/-! ### Counting up -/

def nextMonth (t : CivilTime) : CivilTime :=
  if t.month < 12 then { t with month := t.month + 1 }
  else { t with month := 1, year := t.year + 1 }

def nextDay (t : CivilTime) : CivilTime :=
  if t.day < monthDays t.year t.month then { t with day := t.day + 1 }
  else { t with day := 1 }.nextMonth

def nextHour (t : CivilTime) : CivilTime :=
  if t.hour < 23 then { t with hour := t.hour + 1 } else { t with hour := 0 }.nextDay

def nextMinute (t : CivilTime) : CivilTime :=
  if t.minute < 59 then { t with minute := t.minute + 1 } else { t with minute := 0 }.nextHour

def next (t : CivilTime) : CivilTime :=
  if t.second < 59 then { t with second := t.second + 1 } else { t with second := 0 }.nextMinute

/-! ### Numbering -/

/-- Days from the first of January of `epoch` to that of the year `n` years later. -/
def daysBeforeYear (epoch : ℕ) : ℕ → ℕ
  | 0 => 0
  | n + 1 => daysBeforeYear epoch n + if isLeap (epoch + n) then 366 else 365

/-- Days of the first `n` months of a year. -/
def daysBeforeMonth (year : ℕ) : ℕ → ℕ
  | 0 => 0
  | n + 1 => daysBeforeMonth year n + monthDays year (n + 1)

def dayNumber (epoch : ℕ) (t : CivilTime) : ℕ :=
  daysBeforeYear epoch (t.year - epoch) + daysBeforeMonth t.year (t.month - 1) + (t.day - 1)

def secondOfDay (t : CivilTime) : ℕ := (t.hour * 60 + t.minute) * 60 + t.second

def secondNumber (epoch : ℕ) (t : CivilTime) : ℕ := t.dayNumber epoch * 86400 + t.secondOfDay

theorem monthDays_pos (year month : ℕ) : 1 ≤ monthDays year month := by
  unfold monthDays
  split_ifs <;> omega

theorem monthDays_le (year month : ℕ) : monthDays year month ≤ 31 := by
  unfold monthDays
  split_ifs <;> omega

theorem daysBeforeMonth_zero (year : ℕ) : daysBeforeMonth year 0 = 0 := rfl

/-- The months fill the year. -/
theorem daysBeforeMonth_twelve (year : ℕ) :
    daysBeforeMonth year 12 = if isLeap year then 366 else 365 := by
  simp only [daysBeforeMonth, monthDays]
  cases isLeap year <;> rfl

theorem daysBeforeMonth_mono (year : ℕ) {m n : ℕ} (h : m ≤ n) :
    daysBeforeMonth year m ≤ daysBeforeMonth year n := by
  induction h with
  | refl => exact Nat.le_refl _
  | step _ ih => exact ih.trans (Nat.le_add_right _ _)

theorem daysBeforeYear_mono (epoch : ℕ) {m n : ℕ} (h : m ≤ n) :
    daysBeforeYear epoch m ≤ daysBeforeYear epoch n := by
  induction h with
  | refl => exact Nat.le_refl _
  | step _ ih => exact ih.trans (Nat.le_add_right _ _)

theorem Valid.secondOfDay_lt {t : CivilTime} (h : t.Valid) : t.secondOfDay < 86400 := by
  have hh := h.hour_lt
  have hm := h.minute_lt
  have hs := h.second_lt
  rw [secondOfDay]
  omega

theorem Valid.secondNumber_mod {t : CivilTime} (h : t.Valid) (epoch : ℕ) :
    t.secondNumber epoch % 86400 = t.secondOfDay := by
  rw [secondNumber, Nat.mul_add_mod_self_right, Nat.mod_eq_of_lt h.secondOfDay_lt]

/-! ### The next second has the next number -/

theorem Valid.nextMonth {t : CivilTime} (h : t.Valid) (hd : t.day = 1) : t.nextMonth.Valid := by
  rw [CivilTime.nextMonth]
  split_ifs with hm
  · exact ⟨Nat.le_add_left _ _, hm, h.day_pos, hd.trans_le (monthDays_pos _ _), h.hour_lt,
      h.minute_lt, h.second_lt⟩
  · exact ⟨Nat.le_refl _, Nat.succ_pos 11, h.day_pos, hd.trans_le (monthDays_pos _ _), h.hour_lt,
      h.minute_lt, h.second_lt⟩

theorem Valid.day_one {t : CivilTime} (h : t.Valid) : ({ t with day := 1 } : CivilTime).Valid :=
  ⟨h.month_pos, h.month_le, Nat.le_refl _, monthDays_pos _ _, h.hour_lt, h.minute_lt, h.second_lt⟩

theorem Valid.nextDay {t : CivilTime} (h : t.Valid) : t.nextDay.Valid := by
  rw [CivilTime.nextDay]
  split_ifs with hd
  · exact ⟨h.month_pos, h.month_le, Nat.le_add_left _ _, hd, h.hour_lt, h.minute_lt, h.second_lt⟩
  · exact h.day_one.nextMonth rfl

variable {epoch : ℕ}

theorem dayNumber_nextMonth {t : CivilTime} (h : t.Valid) (he : epoch ≤ t.year) :
    t.nextMonth.dayNumber epoch = t.dayNumber epoch + monthDays t.year t.month := by
  have hpos := h.month_pos
  have hle := h.month_le
  have hmonth : t.month - 1 + 1 = t.month := by omega
  have hdays : daysBeforeMonth t.year t.month =
      daysBeforeMonth t.year (t.month - 1) + monthDays t.year t.month := by
    conv_lhs => rw [← hmonth, daysBeforeMonth, hmonth]
  rw [nextMonth]
  split_ifs with hm
  · simp only [dayNumber, Nat.add_sub_cancel, hdays]
    omega
  · have htwelve : t.month = 12 := by omega
    have hyear : t.year + 1 - epoch = t.year - epoch + 1 := by omega
    have hfull := daysBeforeMonth_twelve t.year
    rw [htwelve] at hdays
    simp only [dayNumber, hyear, daysBeforeYear, Nat.add_sub_cancel' he, Nat.sub_self,
      daysBeforeMonth_zero, htwelve, ← hfull, hdays]
    omega

theorem dayNumber_nextDay {t : CivilTime} (h : t.Valid) (he : epoch ≤ t.year) :
    t.nextDay.dayNumber epoch = t.dayNumber epoch + 1 := by
  have hpos := h.day_pos
  have hle := h.day_le
  rw [nextDay]
  split_ifs with hd
  · simp only [dayNumber]
    omega
  · rw [dayNumber_nextMonth h.day_one he]
    simp only [dayNumber]
    omega

theorem secondOfDay_nextMonth (t : CivilTime) : t.nextMonth.secondOfDay = t.secondOfDay := by
  rw [nextMonth]
  split_ifs <;> rfl

theorem secondOfDay_nextDay (t : CivilTime) : t.nextDay.secondOfDay = t.secondOfDay := by
  rw [nextDay]
  split_ifs
  · rfl
  · exact secondOfDay_nextMonth _

theorem secondNumber_nextHour {t : CivilTime} (h : t.Valid) (he : epoch ≤ t.year) :
    t.nextHour.secondNumber epoch = t.secondNumber epoch + 3600 := by
  have hlt := h.hour_lt
  rw [nextHour]
  split_ifs with hh
  · simp only [secondNumber, dayNumber, secondOfDay]
    omega
  · have hz : ({ t with hour := 0 } : CivilTime).Valid :=
      ⟨h.month_pos, h.month_le, h.day_pos, h.day_le, Nat.succ_pos 23, h.minute_lt, h.second_lt⟩
    rw [secondNumber, dayNumber_nextDay hz he, secondOfDay_nextDay]
    simp only [secondNumber, dayNumber, secondOfDay]
    omega

theorem secondNumber_nextMinute {t : CivilTime} (h : t.Valid) (he : epoch ≤ t.year) :
    t.nextMinute.secondNumber epoch = t.secondNumber epoch + 60 := by
  have hlt := h.minute_lt
  rw [nextMinute]
  split_ifs with hm
  · simp only [secondNumber, dayNumber, secondOfDay]
    omega
  · have hz : ({ t with minute := 0 } : CivilTime).Valid :=
      ⟨h.month_pos, h.month_le, h.day_pos, h.day_le, h.hour_lt, Nat.succ_pos 59, h.second_lt⟩
    rw [secondNumber_nextHour hz he]
    simp only [secondNumber, dayNumber, secondOfDay]
    omega

theorem secondNumber_next {t : CivilTime} (h : t.Valid) (he : epoch ≤ t.year) :
    t.next.secondNumber epoch = t.secondNumber epoch + 1 := by
  have hlt := h.second_lt
  rw [next]
  split_ifs with hs
  · simp only [secondNumber, dayNumber, secondOfDay]
    omega
  · have hz : ({ t with second := 0 } : CivilTime).Valid :=
      ⟨h.month_pos, h.month_le, h.day_pos, h.day_le, h.hour_lt, h.minute_lt, Nat.succ_pos 59⟩
    rw [secondNumber_nextMinute hz he]
    simp only [secondNumber, dayNumber, secondOfDay]
    omega

/-! ### The number determines the second -/

/-- Position and remainder in consecutive blocks are determined by their sum. -/
theorem eq_of_block {f g : ℕ → ℕ} (hf : ∀ n, f (n + 1) = f n + g n) {m n a b : ℕ}
    (ha : a < g m) (hb : b < g n) (h : f m + a = f n + b) : m = n ∧ a = b := by
  have hmono : ∀ {i j : ℕ}, i ≤ j → f i ≤ f j := by
    intro i j hij
    induction hij with
    | refl => exact Nat.le_refl _
    | step _ ih => exact ih.trans (by rw [hf]; exact Nat.le_add_right _ _)
  rcases Nat.lt_trichotomy m n with hlt | heq | hgt
  · have hle := hmono (Nat.succ_le_of_lt hlt)
    rw [Nat.succ_eq_add_one, hf] at hle
    omega
  · subst heq
    exact ⟨rfl, Nat.add_left_cancel h⟩
  · have hle := hmono (Nat.succ_le_of_lt hgt)
    rw [Nat.succ_eq_add_one, hf] at hle
    omega

theorem Valid.dayOfYear_lt {t : CivilTime} (h : t.Valid) :
    daysBeforeMonth t.year (t.month - 1) + (t.day - 1) < if isLeap t.year then 366 else 365 := by
  have hpos := h.month_pos
  have hle := h.month_le
  have hday := h.day_pos
  have hdayle := h.day_le
  have hmonth : t.month - 1 + 1 = t.month := by omega
  have hstep : daysBeforeMonth t.year t.month =
      daysBeforeMonth t.year (t.month - 1) + monthDays t.year t.month := by
    conv_lhs => rw [← hmonth, daysBeforeMonth, hmonth]
  have hfull := daysBeforeMonth_mono t.year hle
  rw [daysBeforeMonth_twelve] at hfull
  omega

theorem Valid.eq_of_dayNumber {t u : CivilTime} (ht : t.Valid) (hu : u.Valid)
    (het : epoch ≤ t.year) (heu : epoch ≤ u.year) (h : t.dayNumber epoch = u.dayNumber epoch) :
    t.year = u.year ∧ t.month = u.month ∧ t.day = u.day := by
  have htd := ht.dayOfYear_lt
  have hud := hu.dayOfYear_lt
  simp only [dayNumber, Nat.add_assoc] at h
  obtain ⟨hyear, hrest⟩ := eq_of_block (f := daysBeforeYear epoch)
    (g := fun n => if isLeap (epoch + n) then 366 else 365) (fun _ => rfl)
    (by rwa [Nat.add_sub_cancel' het]) (by rwa [Nat.add_sub_cancel' heu]) h
  have hy : t.year = u.year := by omega
  rw [hy] at hrest
  have htp := ht.month_pos
  have hup := hu.month_pos
  have htl := ht.day_le
  have hul := hu.day_le
  have hdp := ht.day_pos
  have hdq := hu.day_pos
  rw [hy] at htl
  obtain ⟨hmonth, hday⟩ := eq_of_block (f := daysBeforeMonth u.year)
    (g := fun n => monthDays u.year (n + 1)) (fun _ => rfl)
    (by rw [Nat.sub_add_cancel htp]; omega) (by rw [Nat.sub_add_cancel hup]; omega) hrest
  exact ⟨hy, by omega, by omega⟩

theorem Valid.eq_of_secondNumber {t u : CivilTime} (ht : t.Valid) (hu : u.Valid)
    (het : epoch ≤ t.year) (heu : epoch ≤ u.year)
    (h : t.secondNumber epoch = u.secondNumber epoch) : t = u := by
  have hts := ht.secondOfDay_lt
  have hus := hu.secondOfDay_lt
  obtain ⟨hday, hsec⟩ := eq_of_block (f := fun n => n * 86400) (g := fun _ => 86400)
    (fun n => by rw [Nat.succ_mul]) hts hus h
  obtain ⟨hy, hm, hd⟩ := ht.eq_of_dayNumber hu het heu hday
  have h1 := ht.minute_lt
  have h2 := hu.minute_lt
  have h3 := ht.second_lt
  have h4 := hu.second_lt
  rw [secondOfDay, secondOfDay] at hsec
  cases t
  cases u
  simp only [CivilTime.mk.injEq] at *
  omega

end CivilTime
end MelonDS

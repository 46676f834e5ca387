import MelonDS.RTC.Serial

/-!
# The clock counts civil time

Registers that show a civil date and time of the years 2000 to 2099, on the
clock they are set to, show the next one after `CountSecond`; the year after
2099 is 2000. The chain of counters is followed carry by carry.
-/

namespace MelonDS.RTC

def toBCD (n : ℕ) : U8 := BCD (BitVec.ofNat 8 n)

theorem toNat_toBCD {n : ℕ} (h : n < 100) : (toBCD n).toNat = n + 6 * (n / 10) := by
  have hall : ∀ m : Fin 100, (toBCD m).toNat = m.val + 6 * (m.val / 10) := by decide
  exact hall ⟨n, h⟩

theorem toBCD_lt_iff {m n : ℕ} (hm : m < 100) (hn : n < 100) : toBCD m < toBCD n ↔ m < n := by
  rw [BitVec.lt_def, toNat_toBCD hm, toNat_toBCD hn]
  omega

theorem BCDIncrement_toBCD {n : ℕ} (h : n < 100) :
    BCDIncrement (toBCD n) = toBCD ((n + 1) % 100) := by
  have hall : ∀ m : Fin 100, BCDIncrement (toBCD m) = toBCD ((m.val + 1) % 100) := by decide
  exact hall ⟨n, h⟩

theorem fromBCD_toBCD {n : ℕ} (h : n < 100) : (fromBCD (toBCD n)).toNat = n := by
  have hall : ∀ m : Fin 100, (fromBCD (toBCD m)).toNat = m.val := by decide
  exact hall ⟨n, h⟩

theorem toBCD_and_3F {n : ℕ} (h : n < 40) : toBCD n &&& 0x3F = toBCD n := by
  have hall : ∀ m : Fin 40, toBCD m &&& 0x3F = toBCD m := by decide
  exact hall ⟨n, h⟩

theorem toBCD_and_7F {n : ℕ} (h : n < 80) : toBCD n &&& 0x7F = toBCD n := by
  have hall : ∀ m : Fin 80, toBCD m &&& 0x7F = toBCD m := by decide
  exact hall ⟨n, h⟩

theorem digits_toBCD {n : ℕ} (h : n < 100) :
    (toBCD n &&& 0xF).toNat + (toBCD n >>> 4).toNat * 10 = n := by
  have hall : ∀ m : Fin 100,
      (toBCD m &&& 0xF).toNat + (toBCD m >>> 4).toNat * 10 = m.val := by decide
  exact hall ⟨n, h⟩

/-- The afternoon flag of the hour byte. -/
def pmFlag (hour : ℕ) : U8 := if hour < 12 then 0 else 0x40

theorem hourByte_and_3F {h n : ℕ} (hh : h < 24) : (toBCD h ||| pmFlag n) &&& 0x3F = toBCD h := by
  have hall : ∀ m : Fin 24, ∀ f ∈ [(0 : U8), 0x40], (toBCD m ||| f) &&& 0x3F = toBCD m := by decide
  refine hall ⟨h, hh⟩ _ ?_
  rw [pmFlag]
  split_ifs <;> simp

theorem hourByte_and_40 {h n : ℕ} (hh : h < 24) : (toBCD h ||| pmFlag n) &&& 0x40 = pmFlag n := by
  have hall : ∀ m : Fin 24, ∀ f ∈ [(0 : U8), 0x40], (toBCD m ||| f) &&& 0x40 = f := by decide
  refine hall ⟨h, hh⟩ _ ?_
  rw [pmFlag]
  split_ifs <;> simp

/-- The year after 2099 is 2000 again. -/
def wrapYear (t : CivilTime) : CivilTime :=
  if t.year = 2100 then { t with year := 2000 } else t

/-- The registers of a date of the twenty-first century. -/
structure StateData.ShowsDate (s : StateData) (t : CivilTime) (week : ℕ) : Prop where
  year : s.dateTime 0 = toBCD (t.year - 2000)
  month : s.dateTime 1 = toBCD t.month
  day : s.dateTime 2 = toBCD t.day
  dayOfWeek : s.dateTime 3 = BitVec.ofNat 8 week
  valid : t.Valid
  year_ge : 2000 ≤ t.year
  year_lt : t.year < 2100
  week_lt : week < 7

def hourByte (is24Hour : Bool) (hour : ℕ) : U8 :=
  toBCD (if is24Hour then hour else hour % 12) ||| pmFlag hour

/-- The registers of a date and a time. -/
structure StateData.Shows (s : StateData) (t : CivilTime) (week : ℕ) : Prop
    extends s.ShowsDate t week where
  hour : s.dateTime 4 = hourByte s.is24Hour t.hour
  minute : s.dateTime 5 = toBCD t.minute
  second : s.dateTime 6 = toBCD t.second

namespace StateData

@[simp] theorem setDateTime_self (s : StateData) (i : Fin 7) (v : U8) :
    (s.setDateTime i v).dateTime i = v := Function.update_self _ _ _

@[simp] theorem setDateTime_of_ne (s : StateData) {i j : Fin 7} (v : U8) (h : j ≠ i) :
    (s.setDateTime i v).dateTime j = s.dateTime j := Function.update_of_ne h _ _

@[simp] theorem setDateTime_is24Hour (s : StateData) (i : Fin 7) (v : U8) :
    (s.setDateTime i v).is24Hour = s.is24Hour := rfl

theorem Shows.getDateTime {s : StateData} {t : CivilTime} {week : ℕ} (h : s.Shows t week) :
    s.getDateTime = t := by
  obtain ⟨hmp, hml, hdp, hdl, hh, hm, hs⟩ := h.valid
  have hdays := CivilTime.monthDays_le t.year t.month
  have hge := h.year_ge
  have hlt := h.year_lt
  have hhour : (if s.is24Hour then t.hour else t.hour % 12) < 24 := by
    split_ifs <;> omega
  have hpm : pmFlag t.hour ≠ 0 ↔ ¬t.hour < 12 := by
    rw [pmFlag]
    split_ifs with hnoon <;> simp [hnoon]
  rw [StateData.getDateTime, h.year, h.month, h.day, h.hour, h.minute, h.second, hourByte,
    toBCD_and_3F (by omega), toBCD_and_3F (by omega), hourByte_and_3F hhour,
    hourByte_and_40 hhour, toBCD_and_7F (by omega), toBCD_and_7F (by omega),
    fromBCD_toBCD (by omega), fromBCD_toBCD (by omega), fromBCD_toBCD (by omega),
    fromBCD_toBCD (by omega), fromBCD_toBCD (by omega), fromBCD_toBCD (by omega)]
  cases t
  simp only [CivilTime.mk.injEq] at *
  refine ⟨by omega, trivial, trivial, ?_, trivial, trivial⟩
  cases hmode : s.is24Hour with
  | true => simp
  | false =>
    simp only [hpm]
    split_ifs <;> omega

theorem daysInMonth_eq {s : StateData} {y m : ℕ} (hy : y < 100) (hm : 1 ≤ m) (hm' : m ≤ 12)
    (hyear : s.dateTime 0 = toBCD y) (hmonth : s.dateTime 1 = toBCD m) :
    s.daysInMonth = toBCD (CivilTime.monthDays (2000 + y) m) := by
  have hleap : CivilTime.isLeap (2000 + y) = decide (y % 4 = 0) := by
    rw [CivilTime.isLeap, decide_eq_decide]
    omega
  simp only [daysInMonth, hyear, hmonth, digits_toBCD hy, CivilTime.monthDays, hleap,
    decide_eq_true_eq]
  interval_cases m <;> split_ifs <;> first | rfl | contradiction

/-! ### Days -/

/-- A day past the end of its month becomes the first of the next one. -/
theorem checkEndOfMonth_of_le {s : StateData} {y m d : ℕ} (hy : y < 100) (hm : 1 ≤ m)
    (hm' : m ≤ 12) (hd : d ≤ CivilTime.monthDays (2000 + y) m) (h0 : s.dateTime 0 = toBCD y)
    (h1 : s.dateTime 1 = toBCD m) (h2 : s.dateTime 2 = toBCD d) : s.checkEndOfMonth = s := by
  have hmax := CivilTime.monthDays_le (2000 + y) m
  have hnot : ¬s.dateTime 2 > s.daysInMonth := by
    rw [daysInMonth_eq hy hm hm' h0 h1, h2, gt_iff_lt, toBCD_lt_iff (by omega) (by omega)]
    omega
  rw [checkEndOfMonth, if_neg hnot]

theorem checkEndOfMonth_of_gt {s : StateData} {y m d : ℕ} (hy : y < 100) (hm : 1 ≤ m)
    (hm' : m ≤ 12) (hd : CivilTime.monthDays (2000 + y) m < d) (hd' : d < 100)
    (h0 : s.dateTime 0 = toBCD y) (h1 : s.dateTime 1 = toBCD m) (h2 : s.dateTime 2 = toBCD d) :
    s.checkEndOfMonth = (s.setDateTime 2 1).countMonth := by
  have hgt : s.dateTime 2 > s.daysInMonth := by
    rw [daysInMonth_eq hy hm hm' h0 h1, h2, gt_iff_lt, toBCD_lt_iff (by omega) hd']
    exact hd
  rw [checkEndOfMonth, if_pos hgt]

theorem countMonth_is24Hour (s : StateData) : s.countMonth.is24Hour = s.is24Hour := by
  rw [countMonth]
  split_ifs <;> rfl

theorem checkEndOfMonth_is24Hour (s : StateData) : s.checkEndOfMonth.is24Hour = s.is24Hour := by
  rw [checkEndOfMonth]
  split_ifs
  · exact countMonth_is24Hour _
  · rfl

theorem countDay_is24Hour (s : StateData) : s.countDay.is24Hour = s.is24Hour := by
  rw [countDay, checkEndOfMonth_is24Hour]
  split_ifs <;> rfl

/-- Carries into the month leave the day of week and the time alone. -/
theorem countMonth_of_three_le (s : StateData) {i : Fin 7} (hi : 3 ≤ i) :
    s.countMonth.dateTime i = s.dateTime i := by
  have h0 : i ≠ 0 := by rintro rfl; exact absurd hi (by decide)
  have h1 : i ≠ 1 := by rintro rfl; exact absurd hi (by decide)
  rw [countMonth]
  split_ifs
  · rw [countYear, setDateTime_of_ne _ _ h0, setDateTime_of_ne _ _ h1, setDateTime_of_ne _ _ h1]
  · rw [setDateTime_of_ne _ _ h1]

theorem checkEndOfMonth_of_three_le (s : StateData) {i : Fin 7} (hi : 3 ≤ i) :
    s.checkEndOfMonth.dateTime i = s.dateTime i := by
  have h2 : i ≠ 2 := by rintro rfl; exact absurd hi (by decide)
  rw [checkEndOfMonth]
  split_ifs
  · rw [countMonth_of_three_le _ hi, setDateTime_of_ne _ _ h2]
  · rfl

theorem countDay_of_four_le (s : StateData) {i : Fin 7} (hi : 4 ≤ i) :
    s.countDay.dateTime i = s.dateTime i := by
  have h2 : i ≠ 2 := by rintro rfl; exact absurd hi (by decide)
  have h3 : i ≠ 3 := by rintro rfl; exact absurd hi (by decide)
  rw [countDay, checkEndOfMonth_of_three_le _ ((by decide : (3 : Fin 7) ≤ 4).trans hi),
    setDateTime_of_ne _ _ h2]
  split_ifs
  · rw [setDateTime_of_ne _ _ h3, setDateTime_of_ne _ _ h3]
  · rw [setDateTime_of_ne _ _ h3]

/-- `CountMonth` on the first of a month. -/
theorem ShowsDate.countMonth {s : StateData} {t : CivilTime} {week : ℕ} (h : s.ShowsDate t week)
    (hd : t.day = 1) : s.countMonth.ShowsDate (wrapYear t.nextMonth) week := by
  have hm := h.valid.month_pos
  have hm' := h.valid.month_le
  have hge := h.year_ge
  have hlt := h.year_lt
  have hday3 : s.countMonth.dateTime 3 = s.dateTime 3 := countMonth_of_three_le s (by decide)
  have hinc : BCDIncrement (s.dateTime 1) = toBCD (t.month + 1) := by
    rw [h.month, BCDIncrement_toBCD (by omega), Nat.mod_eq_of_lt (by omega)]
  have htwelve : (0x12 : U8) = toBCD 12 := by decide
  have hcarry : (s.setDateTime 1 (BCDIncrement (s.dateTime 1))).dateTime 1 > 0x12 ↔
      ¬t.month < 12 := by
    rw [setDateTime_self, hinc, htwelve, gt_iff_lt, toBCD_lt_iff (by omega) (by omega)]
    omega
  have hvalid := h.valid.nextMonth hd
  by_cases hlast : t.month < 12
  · have hstep : s.countMonth = s.setDateTime 1 (toBCD (t.month + 1)) := by
      rw [StateData.countMonth, if_neg (fun hc => hcarry.mp hc hlast), hinc]
    have hnext : wrapYear t.nextMonth = { t with month := t.month + 1 } := by
      rw [CivilTime.nextMonth, if_pos hlast, wrapYear, if_neg (by change t.year ≠ 2100; omega)]
    rw [CivilTime.nextMonth, if_pos hlast] at hvalid
    rw [hnext]
    refine ⟨?_, ?_, ?_, hday3.trans h.dayOfWeek, hvalid, hge, hlt, h.week_lt⟩
    · rw [hstep, setDateTime_of_ne _ _ (by decide), h.year]
    · rw [hstep, setDateTime_self]
    · rw [hstep, setDateTime_of_ne _ _ (by decide), h.day]
  · have hstep : s.countMonth =
        ((s.setDateTime 1 (BCDIncrement (s.dateTime 1))).setDateTime 1 1).countYear := by
      rw [StateData.countMonth, if_pos (hcarry.mpr hlast)]
    have hyear : s.countMonth.dateTime 0 = toBCD ((t.year - 2000 + 1) % 100) := by
      rw [hstep, countYear, setDateTime_self, setDateTime_of_ne _ _ (by decide),
        setDateTime_of_ne _ _ (by decide), h.year, BCDIncrement_toBCD (by omega)]
    have hmonth : s.countMonth.dateTime 1 = toBCD 1 := by
      rw [hstep, countYear, setDateTime_of_ne _ _ (by decide), setDateTime_self]
      decide
    have hday : s.countMonth.dateTime 2 = toBCD t.day := by
      rw [hstep, countYear, setDateTime_of_ne _ _ (by decide), setDateTime_of_ne _ _ (by decide),
        setDateTime_of_ne _ _ (by decide), h.day]
    rw [CivilTime.nextMonth, if_neg hlast] at hvalid ⊢
    rw [wrapYear]
    split_ifs with hwrap
    · have hy : t.year + 1 = 2100 := hwrap
      have hzero : (t.year - 2000 + 1) % 100 = 2000 - 2000 := by omega
      refine ⟨hyear.trans (congrArg toBCD hzero), hmonth, hday, hday3.trans h.dayOfWeek, ?_,
        Nat.le_refl _, (by decide : 2000 < 2100), h.week_lt⟩
      exact ⟨hvalid.month_pos, hvalid.month_le, hvalid.day_pos, hd.trans_le (CivilTime.monthDays_pos _ _),
        hvalid.hour_lt, hvalid.minute_lt, hvalid.second_lt⟩
    · have hy : t.year + 1 ≠ 2100 := hwrap
      have hnext : (t.year - 2000 + 1) % 100 = t.year + 1 - 2000 := by omega
      exact ⟨hyear.trans (congrArg toBCD hnext), hmonth, hday, hday3.trans h.dayOfWeek, hvalid,
        by change 2000 ≤ t.year + 1; omega, by change t.year + 1 < 2100; omega, h.week_lt⟩

theorem ShowsDate.countDay {s : StateData} {t : CivilTime} {week : ℕ} (h : s.ShowsDate t week) :
    s.countDay.ShowsDate (wrapYear t.nextDay) ((week + 1) % 7) := by
  have hge := h.year_ge
  have hlt := h.year_lt
  have hdp := h.valid.day_pos
  have hdl := h.valid.day_le
  have hmax := CivilTime.monthDays_le t.year t.month
  have hwl := h.week_lt
  have hyear : 2000 + (t.year - 2000) = t.year := by omega
  obtain ⟨s₁, hs₁⟩ : ∃ s₁ : StateData, s₁ =
      let s := s.setDateTime 3 (s.dateTime 3 + 1)
      if s.dateTime 3 ≥ 7 then s.setDateTime 3 0 else s := ⟨_, rfl⟩
  have hdow : s₁.dateTime 3 = BitVec.ofNat 8 ((week + 1) % 7) := by
    have hall : ∀ w : Fin 7, (if BitVec.ofNat 8 w.val + 1 ≥ (7 : U8) then (0 : U8)
        else BitVec.ofNat 8 w.val + 1) = BitVec.ofNat 8 ((w.val + 1) % 7) := by decide
    have hw := hall ⟨week, hwl⟩
    rw [hs₁, ← hw]
    simp only [setDateTime_self, h.dayOfWeek]
    split_ifs <;> simp
  have hother : ∀ i : Fin 7, i ≠ 3 → s₁.dateTime i = s.dateTime i := by
    intro i hi
    rw [hs₁]
    simp only
    split_ifs
    · rw [setDateTime_of_ne _ _ hi, setDateTime_of_ne _ _ hi]
    · rw [setDateTime_of_ne _ _ hi]
  obtain ⟨s₂, hs₂⟩ : ∃ s₂ : StateData, s₂ = s₁.setDateTime 2 (BCDIncrement (s₁.dateTime 2)) :=
    ⟨_, rfl⟩
  have hcount : s.countDay = s₂.checkEndOfMonth := by
    rw [hs₂, hs₁]
    rfl
  have h0 : s₂.dateTime 0 = toBCD (t.year - 2000) := by
    rw [hs₂, setDateTime_of_ne _ _ (by decide), hother 0 (by decide), h.year]
  have h1 : s₂.dateTime 1 = toBCD t.month := by
    rw [hs₂, setDateTime_of_ne _ _ (by decide), hother 1 (by decide), h.month]
  have h2 : s₂.dateTime 2 = toBCD (t.day + 1) := by
    rw [hs₂, setDateTime_self, hother 2 (by decide), h.day, BCDIncrement_toBCD (by omega),
      Nat.mod_eq_of_lt (by omega)]
  have h3 : s₂.dateTime 3 = BitVec.ofNat 8 ((week + 1) % 7) := by
    rw [hs₂, setDateTime_of_ne _ _ (by decide), hdow]
  have hweek : (week + 1) % 7 < 7 := Nat.mod_lt _ (by decide)
  rw [hcount, CivilTime.nextDay]
  split_ifs with hlast
  · have hvalid := h.valid.nextDay
    rw [CivilTime.nextDay, if_pos hlast] at hvalid
    rw [checkEndOfMonth_of_le (by omega) h.valid.month_pos h.valid.month_le
      (by rw [hyear]; exact hlast) h0 h1 h2, wrapYear, if_neg (by change t.year ≠ 2100; omega)]
    exact ⟨h0, h1, h2, h3, hvalid, hge, hlt, hweek⟩
  · rw [checkEndOfMonth_of_gt (by omega) h.valid.month_pos h.valid.month_le
      (by rw [hyear]; omega) (by omega) h0 h1 h2]
    have hfirst : (s₂.setDateTime 2 1).ShowsDate { t with day := 1 } ((week + 1) % 7) := by
      refine ⟨?_, ?_, ?_, ?_, h.valid.day_one, hge, hlt, hweek⟩
      · rw [setDateTime_of_ne _ _ (by decide), h0]
      · rw [setDateTime_of_ne _ _ (by decide), h1]
      · exact (setDateTime_self _ _ _).trans (by decide : (1 : U8) = toBCD 1)
      · rw [setDateTime_of_ne _ _ (by decide), h3]
    exact hfirst.countMonth rfl

/-! ### Hours -/

theorem ShowsDate.setDateTime {s : StateData} {t : CivilTime} {week : ℕ} (h : s.ShowsDate t week)
    {i : Fin 7} (hi : 4 ≤ i) (v : U8) : (s.setDateTime i v).ShowsDate t week := by
  have hne : ∀ j : Fin 7, j ≤ 3 → j ≠ i := by
    rintro j hj rfl
    exact absurd (hi.trans hj) (by decide)
  exact ⟨(setDateTime_of_ne _ _ (hne 0 (by decide))).trans h.year,
    (setDateTime_of_ne _ _ (hne 1 (by decide))).trans h.month,
    (setDateTime_of_ne _ _ (hne 2 (by decide))).trans h.day,
    (setDateTime_of_ne _ _ (hne 3 (by decide))).trans h.dayOfWeek, h.valid, h.year_ge, h.year_lt,
    h.week_lt⟩

/-- A date is a date at any time of day. -/
theorem ShowsDate.atTime {s : StateData} {t : CivilTime} {week : ℕ} (h : s.ShowsDate t week)
    {hour minute second : ℕ} (hh : hour < 24) (hm : minute < 60) (hs : second < 60) :
    s.ShowsDate { t with hour := hour, minute := minute, second := second } week :=
  ⟨h.year, h.month, h.day, h.dayOfWeek,
    ⟨h.valid.month_pos, h.valid.month_le, h.valid.day_pos, h.valid.day_le, hh, hm, hs⟩, h.year_ge,
    h.year_lt, h.week_lt⟩

/-- Both hour counters move the hour byte to the next hour, and carry at midnight. -/
theorem countHour_eq {s : StateData} {hour : ℕ} (hh : hour < 24)
    (h : s.dateTime 4 = hourByte s.is24Hour hour) :
    s.countHour = (if hour = 23 then s.countDay else s).setDateTime 4
      (hourByte s.is24Hour ((hour + 1) % 24)) := by
  have h24 : ∀ m : Fin 24, (BCDIncrement (hourByte true m &&& 0x3F) ≥ 0x24 ↔ m.val = 23) ∧
      hourByte true ((m.val + 1) % 24) =
        if m.val = 23 then 0 else BCDIncrement (hourByte true m &&& 0x3F) |||
          if BCDIncrement (hourByte true m &&& 0x3F) ≥ 0x12 then 0x40 else 0 := by
    decide +kernel
  have h12 : ∀ m : Fin 24, (BCDIncrement (hourByte false m &&& 0x3F) ≥ 0x12 ↔ m.val % 12 = 11) ∧
      (hourByte false m &&& 0x40 ≠ 0 ↔ 12 ≤ m.val) ∧
      hourByte false ((m.val + 1) % 24) =
        if m.val % 12 = 11 then 0 ||| (hourByte false m &&& 0x40 ^^^ 0x40)
        else BCDIncrement (hourByte false m &&& 0x3F) ||| (hourByte false m &&& 0x40) := by
    decide +kernel
  rw [countHour, h]
  cases hmode : s.is24Hour with
  | true =>
    obtain ⟨hcarry, hbyte⟩ := h24 ⟨hour, hh⟩
    have hmidnight : ¬(0 : U8) ≥ 0x12 := by decide
    simp only [if_true, hcarry, hbyte]
    by_cases hlast : hour = 23
    · simp only [if_pos hlast, if_neg hmidnight]
      rfl
    · simp only [if_neg hlast]
  | false =>
    obtain ⟨hcarry, hpm, hbyte⟩ := h12 ⟨hour, hh⟩
    have hlast : (hour % 12 = 11 ∧ 12 ≤ hour) ↔ hour = 23 := by omega
    simp only [Bool.false_eq_true, if_false, hcarry, hpm, hbyte, hlast]
    split_ifs <;> rfl

theorem wrapYear_hour (t : CivilTime) : (wrapYear t).hour = t.hour := by
  rw [wrapYear]
  split_ifs <;> rfl

theorem wrapYear_minute (t : CivilTime) : (wrapYear t).minute = t.minute := by
  rw [wrapYear]
  split_ifs <;> rfl

theorem wrapYear_second (t : CivilTime) : (wrapYear t).second = t.second := by
  rw [wrapYear]
  split_ifs <;> rfl

theorem ShowsDate.countHour {s : StateData} {t : CivilTime} {week : ℕ} (h : s.ShowsDate t week)
    (hbyte : s.dateTime 4 = hourByte s.is24Hour t.hour) :
    s.countHour.ShowsDate (wrapYear t.nextHour) (if t.hour = 23 then (week + 1) % 7 else week) ∧
      s.countHour.dateTime 4 = hourByte s.is24Hour t.nextHour.hour ∧
      s.countHour.is24Hour = s.is24Hour ∧
      ∀ i : Fin 7, 5 ≤ i → s.countHour.dateTime i = s.dateTime i := by
  have hhour := h.valid.hour_lt
  have hge := h.year_ge
  have hlt := h.year_lt
  have hne : ∀ i : Fin 7, 5 ≤ i → i ≠ 4 := by
    rintro i hi rfl
    exact absurd hi (by decide)
  rw [countHour_eq hhour hbyte, CivilTime.nextHour, setDateTime_self, setDateTime_is24Hour]
  by_cases hlast : t.hour = 23
  · have hnot : ¬t.hour < 23 := by omega
    have hdate := (h.atTime (Nat.succ_pos 23) h.valid.minute_lt h.valid.second_lt).countDay
    have hzero : ({ t with hour := 0 } : CivilTime).nextDay.hour = 0 := by
      rw [CivilTime.nextDay]
      split_ifs
      · rfl
      · rw [CivilTime.nextMonth]
        split_ifs <;> rfl
    rw [if_pos hlast, if_pos hlast, if_neg hnot, hzero, hlast]
    refine ⟨hdate.setDateTime (by decide) _, rfl, countDay_is24Hour s, fun i hi => ?_⟩
    rw [setDateTime_of_ne _ _ (hne i hi), countDay_of_four_le _ ((by decide : (4 : Fin 7) ≤ 5).trans hi)]
  · have hless : t.hour < 23 := by omega
    have hnext : t.hour + 1 < 24 := by omega
    have hdate := h.atTime hnext h.valid.minute_lt h.valid.second_lt
    rw [if_neg hlast, if_neg hlast, if_pos hless, wrapYear,
      if_neg (by change t.year ≠ 2100; omega), Nat.mod_eq_of_lt (by omega)]
    exact ⟨hdate.setDateTime (by decide) _, rfl, rfl, fun i hi => setDateTime_of_ne _ _ (hne i hi)⟩

end StateData

/-! ### Minutes and seconds -/

/-- Interrupts leave the clock alone. -/
def KeepsClock (r r' : RTC) : Prop :=
  r'.state.dateTime = r.state.dateTime ∧ r'.state.is24Hour = r.state.is24Hour

theorem KeepsClock.refl (r : RTC) : KeepsClock r r := ⟨rfl, rfl⟩

theorem KeepsClock.trans {r₁ r₂ r₃ : RTC} (h₁ : KeepsClock r₁ r₂) (h₂ : KeepsClock r₂ r₃) :
    KeepsClock r₁ r₃ := ⟨h₂.1.trans h₁.1, h₂.2.trans h₁.2⟩

theorem setIRQ_keepsClock (env : Env) (r : RTC) {irq : U8} (h : irq.getLsbD 1 = false) :
    KeepsClock r (r.setIRQ env irq) := by
  refine ⟨rfl, ?_⟩
  simp only [setIRQ, StateData.is24Hour, BitVec.getLsbD_or, h, Bool.or_false]

theorem clearIRQ_keepsClock (r : RTC) (irq : U8) : KeepsClock r (r.clearIRQ irq) := ⟨rfl, rfl⟩

theorem processInt1_keepsClock (env : Env) (r : RTC) (type : IRQType) :
    KeepsClock r (processInt1 env r type) := by
  have hset : KeepsClock r (r.setIRQ env 0x10) := setIRQ_keepsClock env r (by decide)
  have hclear := clearIRQ_keepsClock r 0x10
  rw [processInt1]
  split <;> (try dsimp only) <;> split_ifs <;>
    first
    | exact hset
    | exact hclear

theorem processInt2_keepsClock (env : Env) (r : RTC) (type : IRQType) :
    KeepsClock r (processInt2 env r type) := by
  rw [processInt2]
  split_ifs
  · exact setIRQ_keepsClock env r (by decide)
  · exact clearIRQ_keepsClock r _
  · exact KeepsClock.refl r
  · exact clearIRQ_keepsClock r _
  · exact KeepsClock.refl r

theorem processIRQ_keepsClock (env : Env) (r : RTC) (type : IRQType) :
    KeepsClock r (processIRQ env r type) :=
  (processInt1_keepsClock env r type).trans (processInt2_keepsClock env _ type)

/-- What the registers show depends on the clock alone. -/
theorem StateData.Shows.congr {s s' : StateData} {t : CivilTime} {week : ℕ} (h : s.Shows t week)
    (hd : s'.dateTime = s.dateTime) (hm : s'.is24Hour = s.is24Hour) : s'.Shows t week :=
  ⟨⟨hd ▸ h.year, hd ▸ h.month, hd ▸ h.day, hd ▸ h.dayOfWeek, h.valid, h.year_ge, h.year_lt,
    h.week_lt⟩, by rw [hd, hm, h.hour], hd ▸ h.minute, hd ▸ h.second⟩

theorem toBCD_ge_sixty {n : ℕ} (h : n < 100) : toBCD n ≥ 0x60 ↔ 60 ≤ n := by
  have hsixty : (0x60 : U8) = toBCD 60 := by decide
  rw [hsixty, ge_iff_le, BitVec.le_def, toNat_toBCD h, toNat_toBCD (by decide)]
  omega

theorem nextHour_minute (t : CivilTime) :
    t.nextHour.minute = t.minute ∧ t.nextHour.second = t.second := by
  simp only [CivilTime.nextHour, CivilTime.nextDay, CivilTime.nextMonth]
  split_ifs <;> exact ⟨rfl, rfl⟩

theorem StateData.Shows.stepMinute {s : StateData} {t : CivilTime} {week : ℕ}
    (h : s.Shows t week) :
    s.stepMinute.Shows (wrapYear t.nextMinute)
        (if t.hour = 23 ∧ t.minute = 59 then (week + 1) % 7 else week) ∧
      s.stepMinute.is24Hour = s.is24Hour := by
  have hm := h.valid.minute_lt
  have hlt := h.year_lt
  have hinc : BCDIncrement (s.dateTime 5) = toBCD (t.minute + 1) := by
    rw [h.minute, BCDIncrement_toBCD (by omega), Nat.mod_eq_of_lt (by omega)]
  have hcarry : (s.setDateTime 5 (BCDIncrement (s.dateTime 5))).dateTime 5 ≥ 0x60 ↔
      t.minute = 59 := by
    rw [setDateTime_self, hinc, toBCD_ge_sixty (by omega)]
    omega
  rw [StateData.stepMinute]
  simp only [hcarry]
  rw [CivilTime.nextMinute]
  by_cases hlast : t.minute = 59
  · have hnot : ¬t.minute < 59 := by omega
    obtain ⟨s₁, hs₁⟩ : ∃ s₁ : StateData,
        s₁ = (s.setDateTime 5 (BCDIncrement (s.dateTime 5))).setDateTime 5 0 := ⟨_, rfl⟩
    have hdate : s₁.ShowsDate { t with minute := 0 } week := by
      rw [hs₁]
      exact ((h.toShowsDate.setDateTime (by decide) _).setDateTime (by decide) _).atTime
        h.valid.hour_lt (Nat.succ_pos 59) h.valid.second_lt
    have hbyte : s₁.dateTime 4 = hourByte s₁.is24Hour t.hour := by
      rw [hs₁, setDateTime_of_ne _ _ (by decide), setDateTime_of_ne _ _ (by decide), h.hour]
      rfl
    obtain ⟨hnext, hhour, hmode, hrest⟩ := hdate.countHour hbyte
    have hminute : s₁.dateTime 5 = toBCD 0 := by
      rw [hs₁, setDateTime_self]
      decide
    have hsecond : s₁.dateTime 6 = toBCD t.second := by
      rw [hs₁, setDateTime_of_ne _ _ (by decide), setDateTime_of_ne _ _ (by decide), h.second]
    obtain ⟨hkeepm, hkeeps⟩ := nextHour_minute { t with minute := 0 }
    rw [if_pos hlast, if_neg hnot, ← hs₁, hlast]
    simp only [and_true]
    refine ⟨⟨hnext, ?_, ?_, ?_⟩, hmode.trans (by rw [hs₁]; rfl)⟩
    · rw [hhour, hmode, wrapYear_hour]
    · rw [hrest 5 (by decide), hminute, wrapYear_minute, hkeepm]
    · rw [hrest 6 (by decide), hsecond, wrapYear_second, hkeeps]
  · have hless : t.minute < 59 := by omega
    have hnext : t.minute + 1 < 60 := by omega
    rw [if_neg hlast, if_pos hless, wrapYear, if_neg (by change t.year ≠ 2100; omega),
      if_neg (fun hc => hlast hc.2)]
    refine ⟨⟨(h.toShowsDate.setDateTime (by decide) _).atTime h.valid.hour_lt hnext
      h.valid.second_lt, ?_, ?_, ?_⟩, rfl⟩
    · exact (setDateTime_of_ne _ _ (by decide)).trans h.hour
    · exact (setDateTime_self _ _ _).trans hinc
    · exact (setDateTime_of_ne _ _ (by decide)).trans h.second

theorem StateData.Shows.countMinute {s : StateData} {t : CivilTime} {week : ℕ}
    (h : s.Shows t week) :
    s.countMinute.Shows (wrapYear t.nextMinute)
        (if t.hour = 23 ∧ t.minute = 59 then (week + 1) % 7 else week) ∧
      s.countMinute.is24Hour = s.is24Hour := by
  have hcounted : ({ s with minuteCount := s.minuteCount + 1 } : StateData).Shows t week :=
    h.congr rfl rfl
  obtain ⟨hnext, hmode⟩ := hcounted.stepMinute
  exact ⟨hnext.congr rfl rfl, hmode⟩

/-- The day of week moves on with the last second of the day. -/
def weekAfter (t : CivilTime) (week : ℕ) : ℕ :=
  if t.secondOfDay = 86399 then (week + 1) % 7 else week

theorem weekAfter_of_second {t : CivilTime} (h : t.Valid) {week : ℕ} (hs : t.second = 59) :
    weekAfter t week = if t.hour = 23 ∧ t.minute = 59 then (week + 1) % 7 else week := by
  have hh := h.hour_lt
  have hm := h.minute_lt
  have hlast : t.secondOfDay = 86399 ↔ t.hour = 23 ∧ t.minute = 59 := by
    rw [CivilTime.secondOfDay]
    omega
  rw [weekAfter]
  simp only [hlast]

/-- A second of the clock is a second of the calendar. -/
theorem StateData.Shows.countSecond {r : RTC} {t : CivilTime} {week : ℕ} (h : r.state.Shows t week)
    (env : Env) :
    (countSecond env r).state.Shows (wrapYear t.next) (weekAfter t week) ∧
      (countSecond env r).state.is24Hour = r.state.is24Hour := by
  have hs := h.valid.second_lt
  have hlt := h.year_lt
  obtain ⟨s, hstate⟩ : ∃ s, s = r.state := ⟨_, rfl⟩
  rw [← hstate] at h ⊢
  have hinc : BCDIncrement (s.dateTime 6) = toBCD (t.second + 1) := by
    rw [h.second, BCDIncrement_toBCD (by omega), Nat.mod_eq_of_lt (by omega)]
  have hcarry : (s.setDateTime 6 (BCDIncrement (s.dateTime 6))).dateTime 6 ≥ 0x60 ↔
      t.second = 59 := by
    rw [setDateTime_self, hinc, toBCD_ge_sixty (by omega)]
    omega
  rw [RTC.countSecond]
  simp only [← hstate, hcarry]
  rw [CivilTime.next]
  by_cases hlast : t.second = 59
  · have hnot : ¬t.second < 59 := by omega
    obtain ⟨s₁, hs₁⟩ : ∃ s₁ : StateData,
        s₁ = (s.setDateTime 6 (BCDIncrement (s.dateTime 6))).setDateTime 6 0 := ⟨_, rfl⟩
    have hshows : s₁.Shows { t with second := 0 } week := by
      rw [hs₁]
      refine ⟨((h.toShowsDate.setDateTime (by decide) _).setDateTime (by decide) _).atTime
        h.valid.hour_lt h.valid.minute_lt (Nat.succ_pos 59), ?_, ?_, ?_⟩
      · rw [setDateTime_of_ne _ _ (by decide), setDateTime_of_ne _ _ (by decide), h.hour]
        rfl
      · rw [setDateTime_of_ne _ _ (by decide), setDateTime_of_ne _ _ (by decide), h.minute]
      · exact (setDateTime_self _ _ _).trans (by decide : (0 : U8) = toBCD 0)
    obtain ⟨hnext, hmode⟩ := hshows.countMinute
    have hmode₁ : s₁.is24Hour = s.is24Hour := by rw [hs₁]; rfl
    obtain ⟨hdate, hkeep⟩ := processIRQ_keepsClock env { r with state := s₁.countMinute }
      .minuteCarry
    rw [if_pos hlast, if_neg hnot, ← hs₁, weekAfter_of_second h.valid hlast, RTC.countMinute]
    exact ⟨hnext.congr hdate hkeep, hkeep.trans (hmode.trans hmode₁)⟩
  · have hless : t.second < 59 := by omega
    have hnext : t.second + 1 < 60 := by omega
    have hmid : t.secondOfDay ≠ 86399 := by
      have hh := h.valid.hour_lt
      have hm := h.valid.minute_lt
      rw [CivilTime.secondOfDay]
      omega
    rw [if_neg hlast, if_pos hless, wrapYear, if_neg (by change t.year ≠ 2100; omega), weekAfter,
      if_neg hmid]
    refine ⟨⟨(h.toShowsDate.setDateTime (by decide) _).atTime h.valid.hour_lt h.valid.minute_lt
      hnext, ?_, ?_, ?_⟩, rfl⟩
    · exact (setDateTime_of_ne _ _ (by decide)).trans h.hour
    · exact (setDateTime_of_ne _ _ (by decide)).trans h.minute
    · exact (setDateTime_self _ _ _).trans hinc

/-! ### Any number of seconds -/

/-- Seconds counted one after the other, whatever the console does in between. -/
def countSeconds (envs : List Env) (r : RTC) : RTC := envs.foldl (fun r env => countSecond env r) r

/-- Seconds from 2000 to 2100. -/
def century : ℕ := 36525 * 86400

theorem daysBeforeYear_century : CivilTime.daysBeforeYear 2000 100 = 36525 := by decide

theorem secondNumber_lt_century {t : CivilTime} (h : t.Valid) (hge : 2000 ≤ t.year)
    (hlt : t.year < 2100) : t.secondNumber 2000 < century := by
  have hday := h.dayOfYear_lt
  have hsec := h.secondOfDay_lt
  have hyears := CivilTime.daysBeforeYear_mono 2000 (show t.year - 2000 + 1 ≤ 100 by omega)
  rw [daysBeforeYear_century, CivilTime.daysBeforeYear, Nat.add_sub_cancel' hge] at hyears
  rw [CivilTime.secondNumber, CivilTime.dayNumber, century]
  omega

theorem secondNumber_wrapYear_next {t : CivilTime} (h : t.Valid) (hge : 2000 ≤ t.year)
    (hlt : t.year < 2100) (hnext : (wrapYear t.next).Valid) (hnge : 2000 ≤ (wrapYear t.next).year)
    (hnlt : (wrapYear t.next).year < 2100) :
    (wrapYear t.next).secondNumber 2000 = (t.secondNumber 2000 + 1) % century := by
  have hstep := CivilTime.secondNumber_next h hge
  have hbound := secondNumber_lt_century hnext hnge hnlt
  have hless := secondNumber_lt_century h hge hlt
  rw [wrapYear] at *
  split_ifs at * with hwrap
  · -- the first second of 2100, numbered `century`, is shown as the first of 2000
    have hfull : t.next.secondNumber 2000 = century + (CivilTime.daysBeforeMonth 2100
        (t.next.month - 1) + (t.next.day - 1)) * 86400 + t.next.secondOfDay := by
      rw [CivilTime.secondNumber, CivilTime.dayNumber, hwrap, daysBeforeYear_century, century]
      omega
    have hzero : CivilTime.daysBeforeMonth 2100 (t.next.month - 1) = 0 ∧ t.next.day - 1 = 0 ∧
        t.next.secondOfDay = 0 := by omega
    have hmonth : t.next.month - 1 = 0 := by
      by_contra hpos
      have hmono := CivilTime.daysBeforeMonth_mono 2100 (Nat.one_le_iff_ne_zero.mpr hpos)
      have hjan : CivilTime.daysBeforeMonth 2100 1 = 31 := by decide
      omega
    have hnow : t.secondNumber 2000 + 1 = century := by omega
    rw [hnow, Nat.mod_self, CivilTime.secondNumber, CivilTime.dayNumber]
    change (CivilTime.daysBeforeYear 2000 (2000 - 2000) +
      CivilTime.daysBeforeMonth 2000 (t.next.month - 1) + (t.next.day - 1)) * 86400 +
      t.next.secondOfDay = 0
    rw [hmonth, hzero.2.1, hzero.2.2]
    rfl
  · rw [← hstep, Nat.mod_eq_of_lt hbound]

/-- Registers that hold a valid date and time in BCD, for the clock they are set to. -/
def StateData.Valid (s : StateData) : Prop := ∃ t week, s.Shows t week

/-- One second moves the second of the day on, and the day of week with the last. -/
theorem weekAfter_eq {t u : CivilTime} (ht : t.Valid) (hu : u.Valid) (week : ℕ)
    (h : u.secondNumber 2000 = (t.secondNumber 2000 + 1) % century) (n : ℕ) :
    (weekAfter t week + (u.secondOfDay + n) / 86400) % 7 =
      (week + (t.secondOfDay + (n + 1)) / 86400) % 7 := by
  have hlt := ht.secondOfDay_lt
  have hmod : u.secondOfDay = (t.secondOfDay + 1) % 86400 := by
    rw [← hu.secondNumber_mod 2000, h, ← ht.secondNumber_mod 2000, century,
      Nat.mod_mod_of_dvd _ (Nat.dvd_mul_left 86400 36525), Nat.mod_add_mod]
  rw [weekAfter]
  by_cases hlast : t.secondOfDay = 86399
  · have hzero : u.secondOfDay = 0 := by rw [hmod, hlast]
    have hday : t.secondOfDay + (n + 1) = n + 86400 := by rw [hlast]; omega
    rw [if_pos hlast, hzero, hday, Nat.add_div_right _ (by decide), Nat.zero_add, Nat.mod_add_mod,
      Nat.add_assoc, Nat.add_comm 1]
  · have hnext : u.secondOfDay = t.secondOfDay + 1 := by
      rw [hmod, Nat.mod_eq_of_lt (by omega)]
    rw [if_neg hlast, hnext, Nat.add_assoc, Nat.add_comm 1 n]

theorem StateData.Shows.countSeconds {r : RTC} {t : CivilTime} {week : ℕ}
    (h : r.state.Shows t week) (envs : List Env) :
    ∃ u, (countSeconds envs r).state.Shows u ((week + (t.secondOfDay + envs.length) / 86400) % 7) ∧
      (countSeconds envs r).state.is24Hour = r.state.is24Hour ∧
      u.secondNumber 2000 = (t.secondNumber 2000 + envs.length) % century := by
  induction envs generalizing r t week with
  | nil =>
    have hlt := h.valid.secondOfDay_lt
    refine ⟨t, ?_, rfl, ?_⟩
    · rw [List.length_nil, Nat.add_zero, Nat.div_eq_of_lt hlt, Nat.add_zero,
        Nat.mod_eq_of_lt h.week_lt]
      exact h
    · rw [List.length_nil, Nat.add_zero,
        Nat.mod_eq_of_lt (secondNumber_lt_century h.valid h.year_ge h.year_lt)]
  | cons env envs ih =>
    obtain ⟨hnext, hmode⟩ := h.countSecond env
    obtain ⟨u, hshows, hkeep, hnumber⟩ := ih hnext
    have hstep := secondNumber_wrapYear_next h.valid h.year_ge h.year_lt hnext.valid hnext.year_ge
      hnext.year_lt
    rw [weekAfter_eq h.valid hnext.valid week hstep] at hshows
    refine ⟨u, hshows, hkeep.trans hmode, ?_⟩
    rw [hnumber, hstep, Nat.mod_add_mod, List.length_cons, Nat.add_assoc, Nat.add_comm 1]

/-- Any number of seconds, on either clock: the date and time move on by that many
seconds of the calendar, the day of week by the midnights among them, and a clock
of the other kind set to the same time shows the same all along. -/
theorem countSeconds_civil {r : RTC} (h : r.state.Valid) (envs : List Env) :
    (countSeconds envs r).state.Valid ∧
      (countSeconds envs r).state.is24Hour = r.state.is24Hour ∧
      (countSeconds envs r).state.getDateTime.secondNumber 2000 =
        (r.state.getDateTime.secondNumber 2000 + envs.length) % century ∧
      ((countSeconds envs r).state.dateTime 3).toNat =
        ((r.state.dateTime 3).toNat +
          (r.state.getDateTime.secondOfDay + envs.length) / 86400) % 7 ∧
      ∀ r' : RTC, r'.state.Valid → r'.state.getDateTime = r.state.getDateTime →
        ∀ envs' : List Env, envs'.length = envs.length →
          (countSeconds envs' r').state.getDateTime = (countSeconds envs r).state.getDateTime := by
  obtain ⟨t, week, hshows⟩ := h
  obtain ⟨u, hafter, hmode, hnumber⟩ := hshows.countSeconds envs
  have hweek {w : ℕ} (hw : w < 7) : (BitVec.ofNat 8 w).toNat = w := by
    rw [BitVec.toNat_ofNat, Nat.mod_eq_of_lt (by omega)]
  rw [hshows.getDateTime, hafter.getDateTime, hshows.dayOfWeek, hafter.dayOfWeek,
    hweek hshows.week_lt, hweek hafter.week_lt]
  refine ⟨⟨u, _, hafter⟩, hmode, hnumber, rfl, ?_⟩
  rintro r' ⟨t', week', hshows'⟩ hsame envs' hlen
  obtain ⟨u', hafter', -, hnumber'⟩ := hshows'.countSeconds envs'
  rw [hshows'.getDateTime] at hsame
  rw [hafter'.getDateTime]
  refine hafter'.valid.eq_of_secondNumber hafter.valid hafter'.year_ge hafter.year_ge ?_
  rw [hnumber', hnumber, hsame, hlen]

theorem init_valid : init.state.Valid := by
  refine ⟨⟨2000, 1, 1, 0, 0, 0⟩, 0, ⟨?_, ?_, ?_, ?_, ?_, ?_, ?_, ?_⟩, ?_, ?_, ?_⟩
  any_goals decide
  exact ⟨by decide, by decide, by decide, by decide, by decide, by decide, by decide⟩

theorem countSeconds_civil_init :
    init.state.Valid ∧ (countSeconds [⟨0, 0⟩, ⟨0, 0⟩] init).state.getDateTime.secondNumber 2000 = 2 :=
  ⟨init_valid, (countSeconds_civil init_valid [⟨0, 0⟩, ⟨0, 0⟩]).2.2.1.trans (by decide)⟩

end MelonDS.RTC

import MelonDS.RTC.Calendar

/-!
# Writes through the serial port

Each byte of a date is sanitized on its own. The day byte is then moved into the
month it is written to, but a year or a month written by itself is not looked at
together with the day already there: the registers hold a date of the calendar
for as long as that day exists in the year and month written, and no longer.
-/

namespace MelonDS.RTC

inductive Action
  | write (env : Env) (val : U16) (byte : Bool)
  | clockTimer (env : Env)
  | countSecond (env : Env)
  | reset

def step (r : RTC) : Action → RTC
  | .write env val byte => write env r val byte
  | .clockTimer env => clockTimer env r
  | .countSecond env => countSecond env r
  | .reset => r.reset

def run (r : RTC) (actions : List Action) : RTC := actions.foldl step r

/-- The byte whose last bit a write to the port brings in. -/
def completedByte (r : RTC) (val : U16) (byte : Bool) : Option U8 :=
  let val := if byte then val ||| (r.io &&& 0xFF00) else val
  if val &&& 0x0004 ≠ 0 ∧ r.io &&& 0x0004 ≠ 0 ∧ (r.io ^^^ val) &&& 0x0002 ≠ 0 ∧
      val &&& 0x0010 ≠ 0 ∧ val &&& 0x0002 ≠ 0 ∧ r.inputBit + 1 ≥ 8 then
    some (if val.getLsbD 0 then r.input ||| bit 8 r.inputBit else r.input)
  else none

/-- The day in the registers is a day of the month it is about to stand in. -/
def DayFits (s : StateData) (num : ℕ) (val : U8) : Prop :=
  let date := s.getDateTime
  match num with
  | 1 => date.day ≤ CivilTime.monthDays
      (2000 + (fromBCD (BCDSanitize val 0x00 0x99)).toNat) date.month
  | 2 => date.day ≤ CivilTime.monthDays
      date.year (fromBCD (BCDSanitize (val &&& 0x1F) 0x01 0x12)).toNat
  | _ => True

/-- A step that brings in the year or the month byte of a date brings in one the day fits. -/
def Fits (r : RTC) : Action → Prop
  | .write _ val byte =>
      ∀ v, r.completedByte val byte = some v → r.inputPos ≠ 0 →
        r.curCmd &&& 0x0F = 0x06 → r.curCmd &&& 0x70 = 0x20 → DayFits r.state r.inputPos v
  | _ => True

/-! ### Sanitized bytes -/

theorem toBCD_fromBCD {v : U8} (hlow : ¬v &&& 0x0F ≥ 0x0A) (hhigh : ¬v &&& 0xF0 ≥ 0xA0) :
    toBCD (fromBCD v).toNat = v ∧ (fromBCD v).toNat < 100 := by
  have hall : ∀ n : Fin 256, ¬BitVec.ofNat 8 n &&& 0x0F ≥ 0x0A → ¬BitVec.ofNat 8 n &&& 0xF0 ≥ 0xA0 →
      toBCD (fromBCD (BitVec.ofNat 8 n)).toNat = BitVec.ofNat 8 n ∧
        (fromBCD (BitVec.ofNat 8 n)).toNat < 100 := by decide +kernel
  have hv := hall ⟨v.toNat, v.isLt⟩
  rw [BitVec.ofNat_toNat, BitVec.setWidth_eq] at hv
  exact hv hlow hhigh

/-- A sanitized byte is a BCD number of the range it was sanitized for. -/
theorem BCDSanitize_spec (v : U8) {a b : ℕ} (hab : a ≤ b) (hb : b < 100) :
    ∃ n, a ≤ n ∧ n ≤ b ∧ BCDSanitize v (toBCD a) (toBCD b) = toBCD n := by
  rw [BCDSanitize]
  split_ifs with hrange hlow hhigh
  · exact ⟨a, Nat.le_refl a, hab, rfl⟩
  · exact ⟨a, Nat.le_refl a, hab, rfl⟩
  · exact ⟨a, Nat.le_refl a, hab, rfl⟩
  · obtain ⟨heq, hlt⟩ := toBCD_fromBCD hlow hhigh
    rw [← heq] at hrange ⊢
    rw [gt_iff_lt, toBCD_lt_iff hlt (by omega), toBCD_lt_iff hb hlt] at hrange
    exact ⟨(fromBCD v).toNat, by omega, by omega, rfl⟩

theorem sanitizeYear (v : U8) : ∃ n < 100, BCDSanitize v 0x00 0x99 = toBCD n := by
  obtain ⟨n, -, hn, heq⟩ := BCDSanitize_spec v (Nat.zero_le 99) (by decide)
  exact ⟨n, Nat.lt_succ_of_le hn, heq⟩

theorem sanitizeMonth (v : U8) : ∃ n, 1 ≤ n ∧ n ≤ 12 ∧ BCDSanitize v 0x01 0x12 = toBCD n :=
  BCDSanitize_spec v (by decide : 1 ≤ 12) (by decide)

theorem sanitizeDay (v : U8) : ∃ n, 1 ≤ n ∧ n ≤ 31 ∧ BCDSanitize v 0x01 0x31 = toBCD n :=
  BCDSanitize_spec v (by decide : 1 ≤ 31) (by decide)

theorem sanitizeSixty (v : U8) : ∃ n < 60, BCDSanitize v 0x00 0x59 = toBCD n := by
  obtain ⟨n, -, hn, heq⟩ := BCDSanitize_spec v (Nat.zero_le 59) (by decide)
  exact ⟨n, Nat.lt_succ_of_le hn, heq⟩

theorem sanitizeWeek (v : U8) : ∃ n < 7, BCDSanitize v 0x00 0x06 = BitVec.ofNat 8 n := by
  obtain ⟨n, -, hn, heq⟩ := BCDSanitize_spec v (Nat.zero_le 6) (by decide)
  have hall : ∀ m : Fin 7, toBCD m = BitVec.ofNat 8 m := by decide
  exact ⟨n, Nat.lt_succ_of_le hn, heq.trans (hall ⟨n, Nat.lt_succ_of_le hn⟩)⟩

theorem sanitizeHour24 (v : U8) : ∃ hour < 24, hourByte true hour =
    BCDSanitize v 0x00 0x23 ||| if BCDSanitize v 0x00 0x23 ≥ 0x12 then 0x40 else 0 := by
  obtain ⟨n, -, hn, heq⟩ := BCDSanitize_spec v (Nat.zero_le 23) (by decide)
  have hall : ∀ m : Fin 24, hourByte true m = toBCD m ||| if toBCD m ≥ 0x12 then 0x40 else 0 := by
    decide
  exact ⟨n, Nat.lt_succ_of_le hn, (hall ⟨n, Nat.lt_succ_of_le hn⟩).trans (by rw [← heq]; rfl)⟩

theorem sanitizeHour12 (v w : U8) : ∃ hour < 24, hourByte false hour =
    BCDSanitize v 0x00 0x11 ||| (w &&& 0x40) := by
  obtain ⟨n, -, hn, heq⟩ := BCDSanitize_spec v (Nat.zero_le 11) (by decide)
  have hall : ∀ m : Fin 12, hourByte false m = toBCD m ||| 0 ∧
      hourByte false (m + 12) = toBCD m ||| 0x40 := by decide
  obtain ⟨ham, hpm⟩ := hall ⟨n, Nat.lt_succ_of_le hn⟩
  have hflag : w &&& 0x40 = 0 ∨ w &&& 0x40 = 0x40 := by
    have hbit : w &&& 0x40 = if w.getLsbD 6 then 0x40 else 0 := by
      ext i hi
      interval_cases i <;> cases h : w.getLsbD 6 <;> simp_all
    rw [hbit]
    cases w.getLsbD 6 <;> simp
  rcases hflag with hflag | hflag
  · exact ⟨n, by omega, ham.trans (by rw [hflag, ← heq]; rfl)⟩
  · exact ⟨n + 12, by omega, hpm.trans (by rw [hflag, ← heq]; rfl)⟩

/-! ### Writing one field -/

theorem dayFits_of_ne (s : StateData) {num : ℕ} (val : U8) (h1 : num ≠ 1) (h2 : num ≠ 2) :
    DayFits s num val := by
  unfold DayFits
  split
  · exact absurd rfl h1
  · exact absurd rfl h2
  · trivial

namespace StateData

theorem Shows.day_le {s : StateData} {t : CivilTime} {week : ℕ} (h : s.Shows t week) :
    s.getDateTime.day ≤ CivilTime.monthDays s.getDateTime.year s.getDateTime.month := by
  rw [h.getDateTime]
  exact h.valid.day_le

theorem Valid.day_le {s : StateData} (h : s.Valid) :
    s.getDateTime.day ≤ CivilTime.monthDays s.getDateTime.year s.getDateTime.month := by
  obtain ⟨t, week, hshows⟩ := h
  exact hshows.day_le

/-- A new date under the same time of day. -/
theorem Shows.ofDate {s s' : StateData} {t t' : CivilTime} {week week' : ℕ} (h : s.Shows t week)
    (hdate : s'.ShowsDate t' week') (hkeep : ∀ i : Fin 7, 4 ≤ i → s'.dateTime i = s.dateTime i)
    (hmode : s'.is24Hour = s.is24Hour) : s'.Valid := by
  refine ⟨_, week', hdate.atTime h.valid.hour_lt h.valid.minute_lt h.valid.second_lt, ?_, ?_, ?_⟩
  · rw [hkeep 4 (by decide), hmode, h.hour]
  · rw [hkeep 5 (by decide), h.minute]
  · rw [hkeep 6 (by decide), h.second]

theorem getDateTime_setYear (s : StateData) {n : ℕ} (hn : n < 100) :
    (s.setDateTime 0 (toBCD n)).getDateTime = { s.getDateTime with year := 2000 + n } := by
  simp [getDateTime, fromBCD_toBCD hn, Nat.add_comm]

theorem getDateTime_setMonth (s : StateData) {n : ℕ} (hn : n < 40) :
    (s.setDateTime 1 (toBCD n)).getDateTime = { s.getDateTime with month := n } := by
  have hmask := toBCD_and_3F hn
  have hread := fromBCD_toBCD (Nat.lt_trans hn (by decide : 40 < 100))
  simp only [getDateTime, setDateTime_self, hmask, hread, setDateTime_is24Hour]
  simp

theorem setYear_valid {s : StateData} (h : s.Valid) {n : ℕ} (hn : n < 100) :
    (s.setDateTime 0 (toBCD n)).Valid ↔
      s.getDateTime.day ≤ CivilTime.monthDays (2000 + n) s.getDateTime.month := by
  constructor
  · intro hvalid
    have hday := hvalid.day_le
    rw [getDateTime_setYear s hn] at hday
    exact hday
  · intro hday
    obtain ⟨t, week, hshows⟩ := h
    rw [hshows.getDateTime] at hday
    have hvalid := hshows.valid
    have hyear : 2000 + n - 2000 = n := Nat.add_sub_cancel_left 2000 n
    have hdate : (s.setDateTime 0 (toBCD n)).ShowsDate { t with year := 2000 + n } week := by
      refine ⟨?_, ?_, ?_, ?_, ?_, Nat.le_add_right 2000 n, Nat.add_lt_add_left hn 2000,
        hshows.week_lt⟩
      · rw [setDateTime_self, hyear]
      · rw [setDateTime_of_ne _ _ (by decide), hshows.month]
      · rw [setDateTime_of_ne _ _ (by decide), hshows.day]
      · rw [setDateTime_of_ne _ _ (by decide), hshows.dayOfWeek]
      · exact ⟨hvalid.month_pos, hvalid.month_le, hvalid.day_pos, hday, hvalid.hour_lt,
          hvalid.minute_lt, hvalid.second_lt⟩
    refine hshows.ofDate hdate (fun i hi => setDateTime_of_ne _ _ ?_) rfl
    rintro rfl
    exact absurd hi (by decide)

theorem setMonth_valid {s : StateData} (h : s.Valid) {n : ℕ} (hpos : 1 ≤ n) (hn : n ≤ 12) :
    (s.setDateTime 1 (toBCD n)).Valid ↔
      s.getDateTime.day ≤ CivilTime.monthDays s.getDateTime.year n := by
  constructor
  · intro hvalid
    have hday := hvalid.day_le
    rw [getDateTime_setMonth s (by omega)] at hday
    exact hday
  · intro hday
    obtain ⟨t, week, hshows⟩ := h
    rw [hshows.getDateTime] at hday
    have hvalid := hshows.valid
    have hdate : (s.setDateTime 1 (toBCD n)).ShowsDate { t with month := n } week := by
      refine ⟨?_, ?_, ?_, ?_, ?_, hshows.year_ge, hshows.year_lt, hshows.week_lt⟩
      · rw [setDateTime_of_ne _ _ (by decide), hshows.year]
      · rw [setDateTime_self]
      · rw [setDateTime_of_ne _ _ (by decide), hshows.day]
      · rw [setDateTime_of_ne _ _ (by decide), hshows.dayOfWeek]
      · exact ⟨hpos, hn, hvalid.day_pos, hday, hvalid.hour_lt, hvalid.minute_lt,
          hvalid.second_lt⟩
    refine hshows.ofDate hdate (fun i hi => setDateTime_of_ne _ _ ?_) rfl
    rintro rfl
    exact absurd hi (by decide)

/-- A day past the end of the month moves the date to the first of the next month. -/
theorem Shows.setDay {s : StateData} {t : CivilTime} {week : ℕ} (h : s.Shows t week) {n : ℕ}
    (hpos : 1 ≤ n) (hn : n ≤ 31) : (s.setDateTime 2 (toBCD n)).checkEndOfMonth.Valid := by
  have hvalid := h.valid
  have hge := h.year_ge
  have hlt := h.year_lt
  have hyear : 2000 + (t.year - 2000) = t.year := Nat.add_sub_cancel' hge
  obtain ⟨s₁, hs₁⟩ : ∃ s₁, s₁ = s.setDateTime 2 (toBCD n) := ⟨_, rfl⟩
  have h0 : s₁.dateTime 0 = toBCD (t.year - 2000) := by
    rw [hs₁, setDateTime_of_ne _ _ (by decide), h.year]
  have h1 : s₁.dateTime 1 = toBCD t.month := by
    rw [hs₁, setDateTime_of_ne _ _ (by decide), h.month]
  have h2 : s₁.dateTime 2 = toBCD n := by rw [hs₁, setDateTime_self]
  have h3 : s₁.dateTime 3 = BitVec.ofNat 8 week := by
    rw [hs₁, setDateTime_of_ne _ _ (by decide), h.dayOfWeek]
  have hkeep : ∀ i : Fin 7, 4 ≤ i → s₁.checkEndOfMonth.dateTime i = s.dateTime i := by
    intro i hi
    rw [checkEndOfMonth_of_three_le _ (le_trans (by decide) hi), hs₁,
      setDateTime_of_ne _ _ (by rintro rfl; exact absurd hi (by decide))]
  have hmode : s₁.checkEndOfMonth.is24Hour = s.is24Hour := by
    rw [checkEndOfMonth_is24Hour, hs₁]
    rfl
  rw [← hs₁]
  by_cases hday : n ≤ CivilTime.monthDays t.year t.month
  · have hsame := checkEndOfMonth_of_le (by omega) hvalid.month_pos hvalid.month_le
      (by rw [hyear]; exact hday) h0 h1 h2
    have hdate : s₁.ShowsDate { t with day := n } week :=
      ⟨h0, h1, h2, h3, ⟨hvalid.month_pos, hvalid.month_le, hpos, hday, hvalid.hour_lt,
        hvalid.minute_lt, hvalid.second_lt⟩, hge, hlt, h.week_lt⟩
    exact h.ofDate (hsame.symm ▸ hdate) hkeep hmode
  · have hnext := checkEndOfMonth_of_gt (by omega) hvalid.month_pos hvalid.month_le
      (by rw [hyear]; omega) (by omega) h0 h1 h2
    have hfirst : (s₁.setDateTime 2 1).ShowsDate { t with day := 1 } week := by
      refine ⟨?_, ?_, ?_, ?_, hvalid.day_one, hge, hlt, h.week_lt⟩
      · rw [setDateTime_of_ne _ _ (by decide), h0]
      · rw [setDateTime_of_ne _ _ (by decide), h1]
      · exact (setDateTime_self _ _ _).trans (by decide : (1 : U8) = toBCD 1)
      · rw [setDateTime_of_ne _ _ (by decide), h3]
    exact h.ofDate (hnext.symm ▸ hfirst.countMonth rfl) hkeep hmode

theorem Shows.setWeek {s : StateData} {t : CivilTime} {week : ℕ} (h : s.Shows t week) {n : ℕ}
    (hn : n < 7) : (s.setDateTime 3 (BitVec.ofNat 8 n)).Shows t n :=
  ⟨⟨(setDateTime_of_ne _ _ (by decide)).trans h.year,
    (setDateTime_of_ne _ _ (by decide)).trans h.month,
    (setDateTime_of_ne _ _ (by decide)).trans h.day, setDateTime_self _ _ _, h.valid, h.year_ge,
    h.year_lt, hn⟩, (setDateTime_of_ne _ _ (by decide)).trans h.hour,
    (setDateTime_of_ne _ _ (by decide)).trans h.minute,
    (setDateTime_of_ne _ _ (by decide)).trans h.second⟩

theorem Shows.setHour {s : StateData} {t : CivilTime} {week : ℕ} (h : s.Shows t week) {n : ℕ}
    (hn : n < 24) :
    (s.setDateTime 4 (hourByte s.is24Hour n)).Shows { t with hour := n } week :=
  ⟨(h.toShowsDate.setDateTime (by decide) _).atTime hn h.valid.minute_lt h.valid.second_lt,
    setDateTime_self _ _ _, (setDateTime_of_ne _ _ (by decide)).trans h.minute,
    (setDateTime_of_ne _ _ (by decide)).trans h.second⟩

theorem Shows.setMinute {s : StateData} {t : CivilTime} {week : ℕ} (h : s.Shows t week) {n : ℕ}
    (hn : n < 60) : (s.setDateTime 5 (toBCD n)).Shows { t with minute := n } week :=
  ⟨(h.toShowsDate.setDateTime (by decide) _).atTime h.valid.hour_lt hn h.valid.second_lt,
    (setDateTime_of_ne _ _ (by decide)).trans h.hour, setDateTime_self _ _ _,
    (setDateTime_of_ne _ _ (by decide)).trans h.second⟩

theorem Shows.setSecond {s : StateData} {t : CivilTime} {week : ℕ} (h : s.Shows t week) {n : ℕ}
    (hn : n < 60) : (s.setDateTime 6 (toBCD n)).Shows { t with second := n } week :=
  ⟨(h.toShowsDate.setDateTime (by decide) _).atTime h.valid.hour_lt h.valid.minute_lt hn,
    (setDateTime_of_ne _ _ (by decide)).trans h.hour,
    (setDateTime_of_ne _ _ (by decide)).trans h.minute, setDateTime_self _ _ _⟩

/-- The registers stay valid if and only if a year or month written suits the day. -/
theorem Valid.writeDateTime_valid {s : StateData} (h : s.Valid) (num : ℕ) (val : U8) :
    (s.writeDateTime num val).Valid ↔ DayFits s num val := by
  unfold writeDateTime
  split
  · obtain ⟨n, hn, heq⟩ := sanitizeYear val
    rw [DayFits, heq, fromBCD_toBCD hn]
    exact setYear_valid h hn
  · obtain ⟨n, hpos, hn, heq⟩ := sanitizeMonth (val &&& 0x1F)
    rw [DayFits, heq, fromBCD_toBCD (by omega)]
    exact setMonth_valid h hpos hn
  all_goals
    obtain ⟨t, week, hshows⟩ := h
    refine iff_of_true ?_ (dayFits_of_ne s val (by omega) (by omega))
  · obtain ⟨n, hpos, hn, heq⟩ := sanitizeDay (val &&& 0x3F)
    rw [heq]
    exact hshows.setDay hpos hn
  · obtain ⟨n, hn, heq⟩ := sanitizeWeek (val &&& 0x07)
    rw [heq]
    exact ⟨t, n, hshows.setWeek hn⟩
  · cases hmode : s.is24Hour with
    | true =>
      obtain ⟨n, hn, heq⟩ := sanitizeHour24 (val &&& 0x3F)
      have hset := hshows.setHour hn
      rw [hmode, heq] at hset
      exact ⟨_, week, hset⟩
    | false =>
      obtain ⟨n, hn, heq⟩ := sanitizeHour12 (val &&& 0x3F) val
      have hset := hshows.setHour hn
      rw [hmode, heq] at hset
      exact ⟨_, week, hset⟩
  · obtain ⟨n, hn, heq⟩ := sanitizeSixty (val &&& 0x7F)
    rw [heq]
    exact ⟨_, week, hshows.setMinute hn⟩
  · obtain ⟨n, hn, heq⟩ := sanitizeSixty (val &&& 0x7F)
    rw [heq]
    exact ⟨_, week, hshows.setSecond hn⟩
  · exact ⟨t, week, hshows⟩

/-! ### Status registers -/

/-- The hour byte of one clock becomes that of the other, for the same hour. -/
theorem convertHour_eq {s : StateData} {hour : ℕ} (hh : hour < 24)
    (h : s.dateTime 4 = hourByte (!s.is24Hour) hour) :
    s.convertHour = s.setDateTime 4 (hourByte s.is24Hour hour) := by
  have hall : ∀ m : Fin 24,
      (let pm := hourByte false m &&& 0x40
      let hour := hourByte false m &&& 0x3F
      let hour :=
        if pm ≠ 0 then
          let hour := hour + 0x12
          if hour &&& 0x0F ≥ 0x0A then hour + 0x06 else hour
        else hour
      BCDSanitize hour 0x00 0x23 ||| pm) = hourByte true m ∧
      (let hour := hourByte true m &&& 0x3F
      let afternoon := hour ≥ 0x12
      let pm := if afternoon then 0x40 else 0
      let hour :=
        if afternoon then
          let hour := hour - 0x12
          if hour &&& 0x0F ≥ 0x0A then hour - 0x06 else hour
        else hour
      BCDSanitize hour 0x00 0x11 ||| pm) = hourByte false m := by decide +kernel
  obtain ⟨hto24, hto12⟩ := hall ⟨hour, hh⟩
  rw [convertHour, h]
  cases hmode : s.is24Hour with
  | true => exact congrArg (s.setDateTime 4) hto24
  | false => exact congrArg (s.setDateTime 4) hto12

theorem Valid.congr {s s' : StateData} (h : s.Valid) (hd : s'.dateTime = s.dateTime)
    (hm : s'.is24Hour = s.is24Hour) : s'.Valid := by
  obtain ⟨t, week, hshows⟩ := h
  exact ⟨t, week, hshows.congr hd hm⟩

theorem xor_and_two (v w : U8) : (v ^^^ w) &&& 2 = 0 ↔ v.getLsbD 1 = w.getLsbD 1 := by
  have hbit : (v ^^^ w) &&& 2 = if v.getLsbD 1 = w.getLsbD 1 then 0 else 2 := by
    ext i hi
    interval_cases i <;> cases hv : v.getLsbD 1 <;> cases hw : w.getLsbD 1 <;> simp_all
  rw [hbit]
  split_ifs with h
  · exact iff_of_true rfl h
  · exact iff_of_false (by decide) h

theorem resetState_shows (is24Hour : Bool) :
    ∃ t week, resetState.ShowsDate t week ∧ resetState.dateTime 4 = hourByte is24Hour t.hour ∧
      resetState.dateTime 5 = toBCD t.minute ∧ resetState.dateTime 6 = toBCD t.second := by
  refine ⟨⟨2000, 1, 1, 0, 0, 0⟩, 0, ⟨?_, ?_, ?_, ?_, ?_, ?_, ?_, ?_⟩, ?_, ?_, ?_⟩
  any_goals decide
  · exact ⟨by decide, by decide, by decide, by decide, by decide, by decide, by decide⟩
  · cases is24Hour <;> decide

/-- A reset and a change of the clock's kind leave a valid date and time. -/
theorem Valid.writeStatusReg1 {s : StateData} (h : s.Valid) (val : U8) :
    (s.writeStatusReg1 val).Valid := by
  obtain ⟨s₁, hs₁⟩ : ∃ s₁ : StateData, s₁ = if val &&& 1 ≠ 0 then resetState else s := ⟨_, rfl⟩
  obtain ⟨s₂, hs₂⟩ : ∃ s₂ : StateData,
      s₂ = { s₁ with statusReg1 := (s₁.statusReg1 &&& 0xF0) ||| (val &&& 0x0E) } := ⟨_, rfl⟩
  have hwrite : s.writeStatusReg1 val =
      if (s₂.statusReg1 ^^^ s.statusReg1) &&& 2 ≠ 0 then s₂.convertHour else s₂ := by
    rw [hs₂, hs₁]
    rfl
  have hshown : ∃ t week, s₁.ShowsDate t week ∧ s₁.dateTime 4 = hourByte s.is24Hour t.hour ∧
      s₁.dateTime 5 = toBCD t.minute ∧ s₁.dateTime 6 = toBCD t.second := by
    rw [hs₁]
    split_ifs
    · exact resetState_shows s.is24Hour
    · obtain ⟨t, week, hshows⟩ := h
      exact ⟨t, week, hshows.toShowsDate, hshows.hour, hshows.minute, hshows.second⟩
  obtain ⟨t, week, hdate, hhour, hminute, hsecond⟩ := hshown
  have hsame : s₂.dateTime = s₁.dateTime := by rw [hs₂]
  have hdate₂ : s₂.ShowsDate t week :=
    ⟨hsame ▸ hdate.year, hsame ▸ hdate.month, hsame ▸ hdate.day, hsame ▸ hdate.dayOfWeek,
      hdate.valid, hdate.year_ge, hdate.year_lt, hdate.week_lt⟩
  rw [← hsame] at hhour hminute hsecond
  have hchanged : (s₂.statusReg1 ^^^ s.statusReg1) &&& 2 ≠ 0 ↔ s₂.is24Hour ≠ s.is24Hour := by
    rw [is24Hour, is24Hour, ne_eq, ne_eq, not_iff_not]
    exact xor_and_two _ _
  rw [hwrite]
  split_ifs with hmode
  · have hother : s.is24Hour = !s₂.is24Hour := by
      rw [Bool.eq_not]
      exact (hchanged.mp hmode).symm
    rw [convertHour_eq hdate.valid.hour_lt (hhour.trans (by rw [hother]))]
    exact ⟨t, week, hdate₂.setDateTime (by decide) _, setDateTime_self _ _ _,
      (setDateTime_of_ne _ _ (by decide)).trans hminute,
      (setDateTime_of_ne _ _ (by decide)).trans hsecond⟩
  · have hkeep : s₂.is24Hour = s.is24Hour := not_not.mp (mt hchanged.mpr hmode)
    exact ⟨t, week, hdate₂, by rw [hhour, hkeep], hminute, hsecond⟩

end StateData

/-! ### Commands -/

theorem StateData.Valid.ofKeepsClock {r r' : RTC} (h : r.state.Valid) (hkeep : KeepsClock r r') :
    r'.state.Valid :=
  h.congr hkeep.1 hkeep.2

theorem cmdRead_keepsClock (env : Env) (r : RTC) : KeepsClock r (cmdRead env r) := by
  have hstatus (v : U8) : (v &&& 0x0F).getLsbD 1 = v.getLsbD 1 := by
    rw [BitVec.getLsbD_and]
    exact Bool.and_true _
  by_cases hclock : r.curCmd &&& 0x0F = 0x06
  · simp only [cmdRead, if_pos hclock]
    split
    · exact ⟨rfl, hstatus _⟩
    all_goals exact KeepsClock.refl r
  · simp only [cmdRead, if_neg hclock]
    split
    · split <;> exact KeepsClock.refl r
    · exact KeepsClock.refl r

/-- A byte of a date given to the registers, and any other byte, leaves them valid if and
only if a year or month in it suits the day. -/
theorem cmdWrite_valid (env : Env) {r : RTC} (h : r.state.Valid) (val : U8) :
    (cmdWrite env r val).state.Valid ↔
      (r.curCmd &&& 0x0F = 0x06 → r.curCmd &&& 0x70 = 0x20 →
        DayFits r.state r.inputPos val) := by
  by_cases hclock : r.curCmd &&& 0x0F = 0x06
  · by_cases hdate : r.curCmd &&& 0x70 = 0x20
    · have hwrite : (cmdWrite env r val).state =
          if r.inputPos ≤ 7 then r.state.writeDateTime r.inputPos val else r.state := by
        simp only [cmdWrite, hclock, hdate, if_true]
        change (if r.inputPos = 7 then _ else _ : RTC).state = _
        split_ifs <;> rfl
      simp only [hwrite, hclock, hdate, true_implies]
      split_ifs with hpos
      · exact h.writeDateTime_valid r.inputPos val
      · exact iff_of_true h (dayFits_of_ne r.state val (by omega) (by omega))
    · refine iff_of_true ?_ (fun _ hc => absurd hc hdate)
      simp only [cmdWrite, hclock, if_true]
      split
      · split_ifs
        · exact h.writeStatusReg1 val
        · exact h
      · split_ifs
        · have hset : ({ r with state := { r.state with statusReg2 := val } } : RTC).state.Valid :=
            h.congr rfl rfl
          exact hset.ofKeepsClock (processIRQ_keepsClock env _ _)
        · exact h
      · rename_i heq
        exact absurd (BitVec.eq_of_toNat_eq heq) hdate
      · -- the time alone
        have htime : (r.state.writeDateTime (r.inputPos + 4) val).Valid :=
          (h.writeDateTime_valid _ val).mpr (dayFits_of_ne r.state val (by omega) (by omega))
        change (if r.inputPos = 3 then _ else _ : RTC).state.Valid
        split_ifs <;> first | exact htime | exact h
      all_goals
        try split_ifs
      all_goals exact h.congr rfl rfl
  · refine iff_of_true (h.ofKeepsClock (?_ : KeepsClock r (cmdWrite env r val)))
      (fun hc => absurd hc hclock)
    simp only [cmdWrite, if_neg hclock]
    split
    · split
      · split_ifs <;> exact KeepsClock.refl r
      · split_ifs <;> exact KeepsClock.refl r
      all_goals exact KeepsClock.refl r
    · exact KeepsClock.refl r

theorem byteIn_valid (env : Env) {r : RTC} (h : r.state.Valid) (val : U8) :
    (byteIn env r val).state.Valid ↔
      (r.inputPos ≠ 0 → r.curCmd &&& 0x0F = 0x06 → r.curCmd &&& 0x70 = 0x20 →
        DayFits r.state r.inputPos val) := by
  by_cases hfirst : r.inputPos = 0
  · have hcmd : ({ r with curCmd := command env val } : RTC).state.Valid := h
    refine iff_of_true ?_ (fun hc => absurd hfirst hc)
    simp only [byteIn, if_pos hfirst]
    split_ifs
    · exact hcmd.ofKeepsClock (cmdRead_keepsClock env _)
    · exact hcmd
  · rw [byteIn, if_neg hfirst, cmdWrite_valid env h val]
    exact ⟨fun hfits _ => hfits, fun hfits => hfits hfirst⟩

theorem bitOut_state (r : RTC) : r.bitOut.state = r.state := by
  rw [bitOut]
  split_ifs <;> rfl

/-- A write to the port hands over the byte it completes, if it completes one. -/
theorem write_state (env : Env) (r : RTC) (val : U16) (byte : Bool) :
    (write env r val byte).state =
      (r.completedByte val byte).elim r.state
        (fun v => (byteIn env { r with input := v, inputBit := 0 } v).state) := by
  simp only [write, completedByte, bitIn]
  split_ifs <;> first | rfl | simp_all [bitOut_state]

theorem write_valid (env : Env) {r : RTC} (h : r.state.Valid) (val : U16) (byte : Bool) :
    (write env r val byte).state.Valid ↔ Fits r (.write env val byte) := by
  rw [write_state, Fits]
  cases hbyte : r.completedByte val byte with
  | none => exact iff_of_true h (fun _ hc => by contradiction)
  | some v =>
    have hin : ({ r with input := v, inputBit := 0 } : RTC).state.Valid := h
    refine (byteIn_valid env hin v).trans ⟨fun hfits w hw => ?_, fun hfits => hfits v rfl⟩
    cases hw
    exact hfits

/-! ### Any sequence of steps -/

theorem StateData.Valid.countSecond {r : RTC} (h : r.state.Valid) (env : Env) :
    (countSecond env r).state.Valid := by
  obtain ⟨t, week, hshows⟩ := h
  exact ⟨_, _, (hshows.countSecond env).1⟩

theorem StateData.Valid.clockTimer {r : RTC} (h : r.state.Valid) (env : Env) :
    (clockTimer env r).state.Valid := by
  have hcounted : ({ r with clockCount := r.clockCount + 1 } : RTC).state.Valid := h
  simp only [RTC.clockTimer]
  refine StateData.Valid.ofKeepsClock (?_ : RTC.state _ |>.Valid) (processIRQ_keepsClock env _ _)
  split_ifs
  · exact hcounted.countSecond env
  · exact hcounted.ofKeepsClock (clearIRQ_keepsClock _ _)
  · exact hcounted

theorem step_valid {r : RTC} (h : r.state.Valid) (a : Action) :
    (step r a).state.Valid ↔ Fits r a := by
  cases a with
  | write env val byte => exact write_valid env h val byte
  | clockTimer env => exact iff_of_true (h.clockTimer env) trivial
  | countSecond env => exact iff_of_true (h.countSecond env) trivial
  | reset => exact iff_of_true h trivial

theorem run_append (r : RTC) (actions : List Action) (a : Action) :
    run r (actions ++ [a]) = step (run r actions) a := List.foldl_append

/-- The registers hold a valid date and time all along a run if and only if every year
or month it writes into them has the day they hold. -/
theorem run_valid {r : RTC} (h : r.state.Valid) (actions : List Action) :
    (∀ pre, pre <+: actions → (run r pre).state.Valid) ↔
      ∀ pre a, pre ++ [a] <+: actions → Fits (run r pre) a := by
  induction actions using List.reverseRecOn with
  | nil =>
    refine iff_of_true (fun pre hpre => ?_) (fun pre a hpre => ?_)
    · rw [List.prefix_nil.mp hpre]
      exact h
    · exact absurd (List.prefix_nil.mp hpre) (by simp)
  | append_singleton actions a ih =>
    constructor
    · intro hvalid pre b hpre
      have hbefore := hvalid pre ((List.prefix_append pre [b]).trans hpre)
      have hafter := hvalid _ hpre
      rw [run_append] at hafter
      exact (step_valid hbefore b).mp hafter
    · intro hfits
      have hearlier := ih.mpr fun pre b hpre =>
        hfits pre b (hpre.trans (List.prefix_append actions [a]))
      intro pre hpre
      rcases List.prefix_concat_iff.mp hpre with rfl | hpre
      · rw [run_append]
        exact (step_valid (hearlier actions (List.prefix_refl actions)) a).mpr
          (hfits actions a (List.prefix_refl _))
      · exact hearlier pre hpre

/-- One bit clocked in, as two writes of the port. -/
def sendBit (b : Bool) : List Action :=
  let val : U16 := if b then 1 else 0
  [.write ⟨0, 0⟩ (0x14 ||| val) false, .write ⟨0, 0⟩ (0x16 ||| val) false]

/-- A transfer: the chip is selected, bytes are clocked in from their lowest bit up, and the
chip is let go. -/
def transfer (bytes : List U8) : List Action :=
  .write ⟨0, 0⟩ 0x16 false ::
    (bytes.flatMap fun val => (List.range 8).flatMap fun i => sendBit (val.getLsbD i)) ++
    [.write ⟨0, 0⟩ 0x10 false]

theorem run_valid_init : (run init [Action.reset]).state.Valid := by
  refine (run_valid init_valid [Action.reset]).mpr (fun pre a hpre => ?_) _ (List.prefix_refl _)
  rcases List.prefix_cons_iff.mp hpre with hnil | ⟨rest, hcons, hrest⟩
  · exact absurd hnil (by simp)
  · rw [List.prefix_nil.mp hrest] at hcons
    obtain rfl : a = Action.reset := by
      have hlast := congrArg List.getLast? hcons
      simpa using hlast
    trivial

/-- The twenty-ninth of February 2000 is set, and then the year alone to 2001. -/
theorem transfer_year_invalid :
    ¬∀ actions, (run init actions).state.Valid := by
  intro hall
  have hdate : (run init (transfer [0x26, 0x00, 0x02, 0x29] ++ transfer [0x26, 0x01])).state.getDateTime =
      ⟨2001, 2, 29, 0, 0, 0⟩ := by decide +kernel
  have hday := (hall (transfer [0x26, 0x00, 0x02, 0x29] ++ transfer [0x26, 0x01])).day_le
  rw [hdate] at hday
  exact absurd hday (by decide)

end MelonDS.RTC

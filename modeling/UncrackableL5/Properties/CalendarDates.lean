import Mathlib.Tactic.IntervalCases
import UncrackableL5.Js.Date
import UncrackableL5.Library.Gregorian

/-!
# Dates and the Gregorian calendar

`MakeDay` and the getters agree with the calendar: the day number of a date is the one obtained by
counting, and a date is read back from its day number. A day past the end of its month is read back
as one of the next month.

## Main results

- `makeDay_eq`: day numbers by counting.
- `civil_dayNumber`: the getters invert them.
- `civil_overflow`: days that a month does not have.
- `civil_month`: the month of a day of any year, counted on.
-/
namespace UncrackableL5

/-- The day number of 1 January 1970, counted from the year 0. -/
theorem daysTo_epoch : Gregorian.daysTo 1970 1 1 = 719528 := by
  have years := Gregorian.daysBeforeYear_eq 1970
  have months : Gregorian.daysBeforeMonth 1970 1 = 0 := rfl
  rw [Gregorian.daysTo, months]
  omega

theorem isLeapYear_iff (year : Nat) : Date.isLeapYear year = true ↔ Gregorian.Leap year := by
  simp only [Date.isLeapYear, Gregorian.Leap, Bool.and_eq_true, Bool.or_eq_true, decide_eq_true_eq]
  omega

theorem makeDay_eq {year month day : Nat} (positive : 1 ≤ month) (bound : month ≤ 12)
    (first : 1 ≤ day) :
    Date.makeDay year (month - 1) day = (Gregorian.daysTo year month day : Int) - 719528 := by
  have years := Gregorian.daysBeforeYear_eq year
  have months : Date.daysBeforeMonth (month - 1) +
      (if Gregorian.Leap year ∧ 2 ≤ month - 1 then 1 else 0) =
        (Gregorian.daysBeforeMonth year month : Int) := by
    by_cases leap : Gregorian.Leap year
    all_goals
      interval_cases month <;>
        simp [Date.daysBeforeMonth, Gregorian.daysBeforeMonth, Gregorian.monthLength, leap]
  simp only [Date.makeDay, Date.dayFromYear, isLeapYear_iff, Gregorian.daysTo]
  omega

/-! ### Eras

The getters count in eras of 400 years that start on 1 March, so that the leap day is the last day
of its year. -/

/-- The days of an era up to a day, without its leap days. -/
private def commonDays (doe : Nat) : Int := doe - doe / 1460 + doe / 36524 - doe / 146096

private theorem commonDays_mono {n m : Nat} (order : n ≤ m) (bound : m < 146097) :
    commonDays n ≤ commonDays m := by
  induction order with
  | refl => exact le_refl _
  | @step m _ ih =>
    apply (ih (by omega)).trans
    unfold commonDays
    push_cast
    omega

/-- The first day of a year of an era. -/
private def firstDay (yoe : Nat) : Nat := 365 * yoe + yoe / 4 - yoe / 100

/-- Whether the year of an era that starts in March ends with a leap day. -/
private def leapDay (yoe : Nat) : Nat := if Gregorian.Leap (yoe + 1) then 1 else 0

/-- The first and the last day of every year of an era are counted to it. -/
private theorem commonDays_year : ∀ yoe < 400,
    365 * Int.ofNat yoe ≤ commonDays (firstDay yoe) ∧
      commonDays (firstDay yoe + 364 + leapDay yoe) < 365 * Int.ofNat yoe + 365 ∧
        firstDay yoe + 364 + leapDay yoe < 146097 := by
  decide +kernel

private theorem yearOfEra {yoe doy : Nat} (inside : yoe < 400) (bound : doy ≤ 364 + leapDay yoe) :
    commonDays (firstDay yoe + doy) / 365 = yoe := by
  obtain ⟨first, last, within⟩ := commonDays_year yoe inside
  have low := commonDays_mono (Nat.le_add_right (firstDay yoe) doy) (by omega)
  have high := commonDays_mono (show firstDay yoe + doy ≤ firstDay yoe + 364 + leapDay yoe by omega)
    within
  simp only [Int.ofNat_eq_natCast] at first last
  omega

/-- The months of an era year count from March, and a day before the next one belongs to them. -/
private theorem monthOfYear {mp : Nat} {day : Int} (month : mp < 12) (positive : 1 ≤ day)
    (fits : mp < 11 → (153 * mp + 2) / 5 + day ≤ (153 * (mp + 1) + 2) / 5)
    (last : mp = 11 → day ≤ 29) : (5 * ((153 * mp + 2) / 5 + day - 1) + 2) / 153 = mp := by
  interval_cases mp <;> simp at fits last ⊢ <;> omega

private theorem civil_of_era (era : Int) (yoe mp : Nat) (day : Int) (inside : yoe < 400)
    (month : mp < 12) (positive : 1 ≤ day)
    (fits : mp < 11 → (153 * mp + 2) / 5 + day ≤ (153 * (mp + 1) + 2) / 5)
    (last : mp = 11 → day ≤ 28 + leapDay yoe) :
    Date.civil (146097 * era + firstDay yoe + ((153 * mp + 2) / 5 + day - 1) - 719468) = {
      year := 400 * era + yoe + (if mp < 10 then 0 else 1)
      month := if mp < 10 then mp + 2 else mp - 10
      day := day } := by
  have leap : leapDay yoe ≤ 1 := by
    unfold leapDay
    split <;> omega
  obtain ⟨doy, isDoy⟩ : ∃ doy : Nat, (doy : Int) = (153 * mp + 2) / 5 + day - 1 :=
    ⟨((153 * mp + 2) / 5 + day - 1).toNat, by omega⟩
  have bound : doy ≤ 364 + leapDay yoe := by
    rcases Nat.lt_or_ge mp 11 with early | late
    · have := fits early
      omega
    · have := last (by omega)
      omega
  obtain ⟨-, -, within⟩ := commonDays_year yoe inside
  have year := yearOfEra inside bound
  have monthIs := monthOfYear month positive fits fun isLast => by
    have := last isLast
    omega
  rw [← isDoy] at monthIs ⊢
  have start : (firstDay yoe : Int) = 365 * yoe + yoe / 4 - yoe / 100 := by
    unfold firstDay
    omega
  have place : 146097 * era + firstDay yoe + doy - 719468 + 719468 =
      146097 * era + (firstDay yoe + doy : Nat) := by
    push_cast
    ring
  have eraIs : (146097 * era + (firstDay yoe + doy : Nat)) / 146097 = era := by omega
  have doe : (146097 * era + (firstDay yoe + doy : Nat)) % 146097 = (firstDay yoe + doy : Nat) := by
    omega
  have rest : ((firstDay yoe + doy : Nat) : Int) - (365 * yoe + yoe / 4 - yoe / 100) = doy := by
    omega
  unfold commonDays at year
  simp only [Date.civil, place, eraIs, doe, year, rest, monthIs, Date.Civil.mk.injEq]
  refine ⟨?_, ?_, ?_⟩
  · split <;> split <;> split <;> omega
  · split <;> split <;> omega
  · omega

private theorem daysBeforeMonth_late (year : Nat) {month : Nat} (march : 3 ≤ month)
    (bound : month ≤ 12) : Gregorian.daysBeforeMonth year month =
      59 + (if Gregorian.Leap year then 1 else 0) + (153 * (month - 3) + 2) / 5 := by
  by_cases leap : Gregorian.Leap year
  all_goals
    interval_cases month <;> simp [Gregorian.daysBeforeMonth, Gregorian.monthLength, leap]

private theorem daysBeforeMonth_early (year : Nat) {month : Nat} (positive : 1 ≤ month)
    (early : month ≤ 2) :
    Gregorian.daysBeforeMonth year month + 306 = (153 * (month + 9) + 2) / 5 := by
  interval_cases month <;> simp [Gregorian.daysBeforeMonth, Gregorian.monthLength]

private theorem monthLength_fits (year : Nat) {month mp : Nat} (positive : 1 ≤ month)
    (bound : month ≤ 12) (isMonth : mp = (month + 9) % 12) (more : mp < 11) :
    (153 * mp + 2) / 5 + Gregorian.monthLength year month ≤ (153 * (mp + 1) + 2) / 5 := by
  subst isMonth
  interval_cases month <;> simp [Gregorian.monthLength] at more ⊢

private theorem monthLength_february (year : Nat) :
    Gregorian.monthLength year 2 = 28 + if Gregorian.Leap year then 1 else 0 := by
  unfold Gregorian.monthLength
  rw [if_pos rfl]
  split <;> rfl

/-- The getters give back the date. -/
theorem civil_dayNumber (d : Gregorian.Date) :
    Date.civil (d.dayNumber - 719528) = {
      year := d.year
      month := d.month - 1
      day := d.day } := by
  obtain ⟨year, month, day, month_pos, month_le, day_pos, day_le⟩ := d
  have years := Gregorian.daysBeforeYear_eq year
  have fits : ∀ mp : Nat, mp = (month + 9) % 12 → mp < 11 →
      ((153 * mp + 2) / 5 + day : Int) ≤ (153 * (mp + 1) + 2) / 5 := by
    intro mp isMonth more
    have whole := monthLength_fits year month_pos month_le isMonth more
    exact_mod_cast (Nat.add_le_add_left day_le _).trans whole
  simp only [Gregorian.Date.dayNumber, Gregorian.daysTo]
  rcases Nat.lt_or_ge month 3 with early | late
  -- January and February belong to the year that started in March before.
  · have months := daysBeforeMonth_early year month_pos (by omega)
    obtain ⟨yoe, isYoe⟩ : ∃ yoe : Nat, (yoe : Int) = ((year : Int) - 1) % 400 :=
      ⟨(((year : Int) - 1) % 400).toNat, by omega⟩
    have leapYear : Gregorian.Leap (yoe + 1) ↔ Gregorian.Leap year := by
      unfold Gregorian.Leap
      omega
    have read := civil_of_era (((year : Int) - 1) / 400) yoe (month + 9) day
      (by omega) (by omega) (by omega) (fits _ (by omega)) fun february => by
        have isFebruary : month = 2 := by omega
        rw [isFebruary, monthLength_february] at day_le
        rw [leapDay]
        simp only [leapYear]
        exact_mod_cast day_le
    have place :
        ((Gregorian.daysBeforeYear year + Gregorian.daysBeforeMonth year month + (day - 1) : Nat) :
          Int) - 719528 = 146097 * (((year : Int) - 1) / 400) + firstDay yoe +
          ((153 * (month + 9 : Nat) + 2) / 5 + day - 1) - 719468 := by
      unfold firstDay
      omega
    rw [place, read, Date.Civil.mk.injEq]
    refine ⟨?_, ?_, rfl⟩
    · rw [if_neg (by omega)]
      omega
    · rw [if_neg (by omega)]
      omega
  · have months := daysBeforeMonth_late year late month_le
    have read := civil_of_era (year / 400) (year % 400) (month - 3) day
      (by omega) (by omega) (by omega) (fits _ (by omega)) (by omega)
    have place :
        ((Gregorian.daysBeforeYear year + Gregorian.daysBeforeMonth year month + (day - 1) : Nat) :
          Int) - 719528 = 146097 * (year / 400) + firstDay (year % 400) +
          ((153 * (month - 3 : Nat) + 2) / 5 + day - 1) - 719468 := by
      rw [months]
      unfold firstDay
      split
      next leap =>
        unfold Gregorian.Leap at leap
        omega
      next leap =>
        unfold Gregorian.Leap at leap
        omega
    rw [place, read, Date.Civil.mk.injEq]
    refine ⟨?_, ?_, rfl⟩
    · rw [if_pos (by omega)]
      omega
    · rw [if_pos (by omega)]
      omega

/-- A day past the end of its month is read back as one of the next. -/
theorem civil_overflow {year month day : Nat} (positive : 1 ≤ month) (bound : month ≤ 12)
    (few : day ≤ 31) (past : Gregorian.monthLength year month < day) :
    (Date.civil (Gregorian.daysTo year month day - 719528)).month ≠ (month : Int) - 1 := by
  have fewer := Gregorian.monthLength_ge year month
  have more := Gregorian.monthLength_ge year (month + 1)
  have notDecember : month ≠ 12 := by
    rintro rfl
    exact absurd past (not_lt.mpr few)
  let next : Gregorian.Date := {
    year := year
    month := month + 1
    day := day - Gregorian.monthLength year month
    month_pos := by omega
    month_le := by omega
    day_pos := by omega
    day_le := by omega }
  have same : Gregorian.daysTo year month day = next.dayNumber := by
    have months := Gregorian.daysBeforeMonth_succ year positive
    simp only [Gregorian.Date.dayNumber, Gregorian.daysTo, next]
    omega
  have month_eq : (next.month : Int) = month + 1 := rfl
  rw [same, civil_dayNumber]
  simp only [month_eq]
  omega

/-- The getters repeat after 400 years. -/
private theorem civil_shift (day eras : Int) :
    Date.civil (day + 146097 * eras) =
      { Date.civil day with year := (Date.civil day).year + 400 * eras } := by
  have era : (day + 146097 * eras + 719468) / 146097 = (day + 719468) / 146097 + eras := by omega
  have doe : (day + 146097 * eras + 719468) % 146097 = (day + 719468) % 146097 := by omega
  simp only [Date.civil, era, doe, Date.Civil.mk.injEq, and_true]
  ring

/-- The getters give the month that a day is in. -/
theorem civil_month {index day : Int} (inMonth : Gregorian.InMonth index (day + 719528)) :
    (Date.civil day).year * 12 + (Date.civil day).month = index := by
  obtain ⟨started, ended⟩ := inMonth
  rw [Gregorian.monthStart_succ] at ended
  obtain ⟨positive, bound⟩ := Gregorian.monthOfIndex_bounds index
  -- The day of the month, in the year of the first era that is like it.
  obtain ⟨past, isPast⟩ := Int.eq_ofNat_of_zero_le (sub_nonneg.mpr started)
  let date : Gregorian.Date := {
    year := Gregorian.yearOfIndex index
    month := Gregorian.monthOfIndex index
    day := past + 1
    month_pos := positive
    month_le := bound
    day_pos := by omega
    day_le := by
      rw [Gregorian.lengthOfIndex] at ended
      omega }
  have place : day = (date.dayNumber - 719528 : Int) + 146097 * (index / 4800) := by
    have first : Gregorian.monthStart index + past = date.dayNumber + 146097 * (index / 4800) := by
      simp only [Gregorian.monthStart, Gregorian.Date.dayNumber, Gregorian.daysTo, date]
      omega
    omega
  rw [place, civil_shift, civil_dayNumber]
  simp only [date, Gregorian.yearOfIndex, Gregorian.monthOfIndex]
  omega

end UncrackableL5

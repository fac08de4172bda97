import Mathlib.Algebra.Order.Group.Int
import Mathlib.Data.Int.LeastGreatest

/-!
# The proleptic Gregorian calendar

Dates from the year 0 on, and their day numbers, obtained by counting: the years before, the months
before, the days before. The closed form of the years is `daysBeforeYear_eq`; day numbers are in
the order of the dates (`Date.dayNumber_lt`).

Months of any year, before the year 0 as well, are counted by an integer; every day is in one of
them (`existsUnique_inMonth`).
-/
namespace Gregorian

def Leap (year : Nat) : Prop := year % 4 = 0 ∧ (year % 100 ≠ 0 ∨ year % 400 = 0)

instance (year : Nat) : Decidable (Leap year) :=
  inferInstanceAs (Decidable (year % 4 = 0 ∧ (year % 100 ≠ 0 ∨ year % 400 = 0)))

/-- The days of a month, counted from 1. -/
def monthLength (year month : Nat) : Nat :=
  if month = 2 then if Leap year then 29 else 28
  else if month = 4 ∨ month = 6 ∨ month = 9 ∨ month = 11 then 30
  else 31

/-- The days of a year before a month. -/
def daysBeforeMonth (year : Nat) : Nat → Nat
  | 0 => 0
  | month + 1 => daysBeforeMonth year month + if month = 0 then 0 else monthLength year month

/-- The days of a year are those before its thirteenth month. -/
def yearLength (year : Nat) : Nat := daysBeforeMonth year 13

/-- The days from the first of January of the year 0. -/
def daysBeforeYear : Nat → Nat
  | 0 => 0
  | year + 1 => daysBeforeYear year + yearLength year

/-- The days before the given day of a month, counted from 1. -/
def daysTo (year month day : Nat) : Nat :=
  daysBeforeYear year + daysBeforeMonth year month + (day - 1)

structure Date where
  year : Nat
  /-- From 1 to 12. -/
  month : Nat
  day : Nat
  month_pos : 1 ≤ month
  month_le : month ≤ 12
  day_pos : 1 ≤ day
  day_le : day ≤ monthLength year month

/-- The number of days before a date. -/
def Date.dayNumber (d : Date) : Nat := daysTo d.year d.month d.day

theorem yearLength_eq (year : Nat) : yearLength year = if Leap year then 366 else 365 := by
  by_cases leap : Leap year <;> simp [yearLength, daysBeforeMonth, monthLength, leap]

theorem daysBeforeYear_succ (year : Nat) :
    daysBeforeYear (year + 1) = daysBeforeYear year + yearLength year := rfl

theorem daysBeforeYear_eq (year : Nat) :
    daysBeforeYear year + (year + 99) / 100 = 365 * year + (year + 3) / 4 + (year + 399) / 400 := by
  induction year with
  | zero => rfl
  | succ year ih =>
    rw [daysBeforeYear, yearLength_eq]
    by_cases leap : Leap year
    · rw [if_pos leap]
      unfold Leap at leap
      omega
    · rw [if_neg leap]
      unfold Leap at leap
      omega

theorem monthLength_ge (year month : Nat) : 28 ≤ monthLength year month := by
  unfold monthLength
  repeat' split
  all_goals omega

theorem monthLength_le (year month : Nat) : monthLength year month ≤ 31 := by
  unfold monthLength
  repeat' split
  all_goals omega

theorem daysBeforeMonth_succ (year : Nat) {month : Nat} (positive : 1 ≤ month) :
    daysBeforeMonth year (month + 1) = daysBeforeMonth year month + monthLength year month := by
  rw [daysBeforeMonth, if_neg (by omega)]

/-! ### Order -/

theorem daysBeforeMonth_mono (year : Nat) {month later : Nat} (order : month ≤ later) :
    daysBeforeMonth year month ≤ daysBeforeMonth year later := by
  induction order with
  | refl => exact Nat.le_refl _
  | step _ ih => exact Nat.le_trans ih (Nat.le_add_right _ _)

theorem daysBeforeYear_mono {year later : Nat} (order : year ≤ later) :
    daysBeforeYear year ≤ daysBeforeYear later := by
  induction order with
  | refl => exact Nat.le_refl _
  | step _ ih => exact Nat.le_trans ih (Nat.le_add_right _ _)

/-- A date lies before every month that follows its own. -/
theorem Date.lt_month (d : Date) {month : Nat} (later : d.month < month) :
    daysBeforeMonth d.year d.month + (d.day - 1) < daysBeforeMonth d.year month := by
  have next := daysBeforeMonth_mono d.year (Nat.succ_le_of_lt later)
  rw [Nat.succ_eq_add_one, daysBeforeMonth_succ d.year d.month_pos] at next
  have := d.day_pos
  have := d.day_le
  omega

/-- A date lies before every year that follows its own. -/
theorem Date.lt_year (d : Date) {year : Nat} (later : d.year < year) :
    d.dayNumber < daysBeforeYear year := by
  have next := daysBeforeYear_mono (Nat.succ_le_of_lt later)
  have inside : daysBeforeMonth d.year d.month + (d.day - 1) < daysBeforeMonth d.year 13 :=
    d.lt_month (Nat.lt_succ_of_le d.month_le)
  rw [Nat.succ_eq_add_one, daysBeforeYear, yearLength] at next
  unfold dayNumber daysTo
  omega

/-- The order of dates: by year, then by month, then by day. -/
def Date.Before (a b : Date) : Prop :=
  a.year < b.year ∨ a.year = b.year ∧ (a.month < b.month ∨ a.month = b.month ∧ a.day < b.day)

theorem Date.dayNumber_lt {a b : Date} (before : a.Before b) : a.dayNumber < b.dayNumber := by
  rcases before with year | ⟨year, month | ⟨month, day⟩⟩
  · have := a.lt_year year
    unfold dayNumber daysTo at this ⊢
    omega
  · have := a.lt_month month
    unfold dayNumber daysTo
    rw [← year]
    omega
  · have := a.day_pos
    unfold dayNumber daysTo
    rw [← year, ← month]
    omega

/-! ### Months of any year

The index of a month is twelve times its year, and the months of the year before it. The calendar
repeats after 400 years of 146097 days. -/

/-- The year from 0 to 399 that is like the year of a month. -/
def yearOfIndex (index : Int) : Nat := (index / 12 % 400).toNat

/-- The month of the year, from 1 to 12. -/
def monthOfIndex (index : Int) : Nat := (index % 12).toNat + 1

def lengthOfIndex (index : Int) : Nat := monthLength (yearOfIndex index) (monthOfIndex index)

/-- The days from the first of January of the year 0 to the first of a month. -/
def monthStart (index : Int) : Int :=
  daysTo (yearOfIndex index) (monthOfIndex index) 1 + 146097 * (index / 4800)

/-- A day, counted from the first of January of the year 0, is in a month. -/
def InMonth (index day : Int) : Prop := monthStart index ≤ day ∧ day < monthStart (index + 1)

theorem monthOfIndex_bounds (index : Int) : 1 ≤ monthOfIndex index ∧ monthOfIndex index ≤ 12 := by
  unfold monthOfIndex
  omega

theorem daysBeforeYear_era : daysBeforeYear 400 = 146097 := by
  have years := daysBeforeYear_eq 400
  omega

/-- One month follows the other. -/
theorem monthStart_succ (index : Int) :
    monthStart (index + 1) = monthStart index + lengthOfIndex index := by
  have within := monthOfIndex_bounds index
  have months := daysBeforeMonth_succ (yearOfIndex index) within.1
  have first (year : Nat) : daysBeforeMonth year 1 = 0 := rfl
  unfold monthStart lengthOfIndex daysTo
  by_cases same : index % 12 < 11
  · have year : yearOfIndex (index + 1) = yearOfIndex index := by
      unfold yearOfIndex
      omega
    have month : monthOfIndex (index + 1) = monthOfIndex index + 1 := by
      unfold monthOfIndex
      omega
    rw [year, month, months, show (index + 1) / 4800 = index / 4800 by omega]
    omega
  · have december : monthOfIndex index = 12 := by
      unfold monthOfIndex
      omega
    have january : monthOfIndex (index + 1) = 1 := by
      unfold monthOfIndex
      omega
    rw [december, show 12 + 1 = 13 from rfl] at months
    rw [december, january, first]
    -- After the last year of an era the years start again.
    by_cases last : yearOfIndex index = 399
    · have year : yearOfIndex (index + 1) = 0 := by
        unfold yearOfIndex at last ⊢
        omega
      have era : (index + 1) / 4800 = index / 4800 + 1 := by
        unfold yearOfIndex at last
        omega
      have whole := daysBeforeYear_succ 399
      have none : daysBeforeYear 0 = 0 := rfl
      rw [show 399 + 1 = 400 from rfl, daysBeforeYear_era, yearLength] at whole
      rw [last] at months ⊢
      rw [year, era, none]
      omega
    · have year : yearOfIndex (index + 1) = yearOfIndex index + 1 := by
        unfold yearOfIndex at last ⊢
        omega
      have era : (index + 1) / 4800 = index / 4800 := by
        unfold yearOfIndex at last
        omega
      rw [year, era, daysBeforeYear_succ, yearLength]
      omega

theorem monthStart_lt_iff (a b : Int) : monthStart a < monthStart b ↔ a < b := by
  have step : ∀ index, monthStart index < monthStart (index + 1) := by
    intro index
    have := monthLength_ge (yearOfIndex index) (monthOfIndex index)
    rw [monthStart_succ, lengthOfIndex]
    omega
  exact (strictMono_int_of_lt_succ step).lt_iff_lt

/-- Every era starts with a month. -/
theorem monthStart_era (era : Int) : monthStart (4800 * era) = 146097 * era := by
  have year : yearOfIndex (4800 * era) = 0 := by
    unfold yearOfIndex
    omega
  have month : monthOfIndex (4800 * era) = 1 := by
    unfold monthOfIndex
    omega
  have none : daysTo 0 1 1 = 0 := rfl
  rw [monthStart, year, month, none]
  omega

/-- Every day is in a month, and in one alone. -/
theorem existsUnique_inMonth (day : Int) : ∃! index, InMonth index day := by
  have bounded : ∃ b, ∀ index, monthStart index ≤ day → index ≤ b := by
    refine ⟨4800 * (day / 146097 + 1), ?_⟩
    intro index started
    by_contra later
    have := (monthStart_lt_iff _ _).mpr (not_le.mp later)
    rw [monthStart_era] at this
    omega
  have inhabited : ∃ index, monthStart index ≤ day := by
    refine ⟨4800 * (day / 146097), ?_⟩
    rw [monthStart_era]
    omega
  obtain ⟨index, started, greatest⟩ := Int.exists_greatest_of_bdd bounded inhabited
  refine ⟨index, ⟨started, ?_⟩, ?_⟩
  · by_contra next
    have := greatest (index + 1) (not_lt.mp next)
    omega
  · rintro other ⟨startedToo, ended⟩
    have := greatest other startedToo
    have : index < other + 1 := (monthStart_lt_iff _ _).mp (started.trans_lt ended)
    omega

/-- Later days are in later months. -/
theorem InMonth.mono {index later day next : Int} (first : InMonth index day)
    (second : InMonth later next) (order : day ≤ next) : index ≤ later := by
  have : index < later + 1 :=
    (monthStart_lt_iff _ _).mp (first.1.trans_lt (order.trans_lt second.2))
  omega

end Gregorian

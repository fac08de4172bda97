import UncrackableL5.Js.Number

/-!
# Dates

`Date.UTC` and the UTC getters, on whole milliseconds. Quotients are floors, as in the
ECMAScript definitions.
-/
namespace UncrackableL5.Date

/-- ECMAScript `DayFromYear`. -/
def dayFromYear (y : Int) : Int :=
  365 * (y - 1970) + (y - 1969) / 4 - (y - 1901) / 100 + (y - 1601) / 400

def isLeapYear (y : Int) : Bool := y % 4 = 0 && (y % 100 ≠ 0 || y % 400 = 0)

/-- Days of the year before month `m`, counted from 0, in a common year. -/
def daysBeforeMonth (m : Nat) : Int :=
  [0, 31, 59, 90, 120, 151, 181, 212, 243, 273, 304, 334].getD m 365

/-- ECMAScript `MakeDay` for a month from 0 to 11. -/
def makeDay (y : Int) (m : Nat) (d : Int) : Int :=
  dayFromYear y + daysBeforeMonth m + (if isLeapYear y ∧ 2 ≤ m then 1 else 0) + d - 1

/-- `Date.UTC(y, m, d, h, mi, s)`: a year from 0 to 99 counts from 1900. -/
def utc (y : Int) (m : Nat) (d h mi s : Int) : Int :=
  let year := if 0 ≤ y ∧ y ≤ 99 then 1900 + y else y
  (makeDay year m d * 86400 + h * 3600 + mi * 60 + s) * 1000

/-- A date of the proleptic Gregorian calendar; `month` counts from 0. -/
structure Civil where
  year : Int
  month : Int
  day : Int
  deriving DecidableEq, Repr

/-- The date of a day number, counted in 400-year eras that start on 1 March. -/
def civil (day : Int) : Civil :=
  let z := day + 719468
  let era := z / 146097
  let doe := z % 146097
  let yoe := (doe - doe / 1460 + doe / 36524 - doe / 146096) / 365
  let doy := doe - (365 * yoe + yoe / 4 - yoe / 100)
  let mp := (5 * doy + 2) / 153
  let month := if mp < 10 then mp + 2 else mp - 10
  { year := yoe + era * 400 + (if month ≤ 1 then 1 else 0)
    month := month
    day := doy - (153 * mp + 2) / 5 + 1 }

/-- The UTC date of a time value; `none` is an invalid date, whose getters return `NaN`. -/
def ofTime (ms : Int) : Option Civil :=
  if ms.natAbs ≤ 8640000000000000 then some (civil (ms / 86400000)) else none

/-- `new Date(value)`: `TimeClip` drops the fraction. -/
def ofNumber : Number → Option Civil
  | .finite value => if |value| ≤ 8640000000000000 then ofTime (Number.truncate value) else none
  | _ => none

end UncrackableL5.Date

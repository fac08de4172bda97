import UncrackableL5.Properties.CalendarDates
import UncrackableL5.Properties.SignedFields

/-!
# Certificate times

What `timeValue` reads from a time in its documented shape. `Date.UTC` takes a year from 0 to 99 as
one of the twentieth century, so a GeneralizedTime of those years denotes another instant.

## Main results

- `timeValue_eq_ok_iff`: the instant that is read, with the year that `Date.UTC` takes.
- `certificate_times_right_iff`: when it is the instant written, and when two times keep their
  order.
-/
namespace UncrackableL5

/-! ### Decimal numbers of a fixed width -/

/-- The last `width` digits of `n`. -/
def decimal : Nat → Nat → Bytes
  | 0, _ => []
  | width + 1, n => decimal width (n / 10) ++ [UInt8.ofNat (48 + n % 10)]

private theorem digit_toNat (n : Nat) : (UInt8.ofNat (48 + n % 10)).toNat = 48 + n % 10 := by
  rw [UInt8.toNat_ofNat']
  omega

@[simp] theorem decimal_length (width n : Nat) : (decimal width n).length = width := by
  induction width generalizing n with
  | zero => rfl
  | succ width ih => rw [decimal, List.length_append, ih]; rfl

theorem decimal_isDigit (width n : Nat) : (decimal width n).all isDigit = true := by
  induction width generalizing n with
  | zero => rfl
  | succ width ih =>
    have digit : isDigit (UInt8.ofNat (48 + n % 10)) = true := by
      simp only [isDigit, digit_toNat, Bool.and_eq_true, decide_eq_true_eq]
      omega
    rw [decimal, List.all_append, ih, List.all_cons, digit]
    rfl

theorem digitsValue_snoc (text : Bytes) (b : UInt8) :
    digitsValue (text ++ [b]) = digitsValue text * 10 + (b.toNat - 48) := by
  simp [digitsValue, List.foldl_append]

theorem digitsValue_decimal (width : Nat) {n : Nat} (bound : n < 10 ^ width) :
    digitsValue (decimal width n) = n := by
  induction width generalizing n with
  | zero =>
    have : n = 0 := by simpa using bound
    rw [this]
    rfl
  | succ width ih =>
    rw [decimal, digitsValue_snoc, ih (by rw [Nat.pow_succ] at bound; omega), digit_toNat]
    omega

/-- Every run of digits is a decimal number. -/
theorem exists_decimal (text : Bytes) (digits : text.all isDigit = true) :
    ∃ n < 10 ^ text.length, text = decimal text.length n := by
  induction text using List.reverseRecOn with
  | nil => exact ⟨0, by simp, rfl⟩
  | append_singleton text b ih =>
    rw [List.all_append, Bool.and_eq_true] at digits
    obtain ⟨n, bound, spelled⟩ := ih digits.1
    have digit : 48 ≤ b.toNat ∧ b.toNat ≤ 57 := by simpa [isDigit] using digits.2
    refine ⟨n * 10 + (b.toNat - 48), ?_, ?_⟩
    · rw [List.length_append, List.length_singleton, Nat.pow_succ]
      omega
    · have front : (n * 10 + (b.toNat - 48)) / 10 = n := by omega
      have last : UInt8.ofNat (48 + (n * 10 + (b.toNat - 48)) % 10) = b := by
        rw [← UInt8.toNat_inj, UInt8.toNat_ofNat']
        omega
      rw [List.length_append, List.length_singleton, decimal, front, last, ← spelled]

/-- A run of digits starts with a number of every width it has room for. -/
theorem exists_decimal_append (width rest : Nat) (text : Bytes) (digits : text.all isDigit = true)
    (length : text.length = width + rest) :
    ∃ n < 10 ^ width, ∃ others, text = decimal width n ++ others ∧ others.length = rest ∧
      others.all isDigit = true := by
  have front : (text.take width).all isDigit = true ∧ (text.drop width).all isDigit = true := by
    rw [← Bool.and_eq_true, ← List.all_append, List.take_append_drop, digits]
  obtain ⟨n, bound, spelled⟩ := exists_decimal _ front.1
  have size : (text.take width).length = width := by
    rw [List.length_take]
    omega
  rw [size] at bound spelled
  refine ⟨n, bound, text.drop width, ?_, ?_, front.2⟩
  · rw [← spelled, List.take_append_drop]
  · rw [List.length_drop]
    omega

theorem field_here {width n : Nat} (rest : Bytes) (bound : n < 10 ^ width) :
    field (decimal width n ++ rest) 0 width = n := by
  rw [field, subarray, List.drop_zero, Nat.add_sub_cancel_left, List.take_left' (decimal_length ..),
    digitsValue_decimal width bound]

theorem field_skip (skipped n : Nat) (rest : Bytes) (start width : Nat) :
    field (decimal skipped n ++ rest) (start + skipped) width = field rest start width := by
  have drop : (decimal skipped n ++ rest).drop (start + skipped) = rest.drop start := by
    rw [Nat.add_comm, ← List.drop_drop, List.drop_left' (decimal_length ..)]
  rw [field, field, subarray, subarray, drop, Nat.add_sub_cancel_left, Nat.add_sub_cancel_left]

/-! ### The documented shapes -/

/-- The numbers written in a time. -/
structure WrittenTime where
  year : Nat
  month : Nat
  day : Nat
  hour : Nat
  minute : Nat
  second : Nat
  millis : Nat
  month_lt : month < 100
  day_lt : day < 100
  hour_lt : hour < 100
  minute_lt : minute < 100
  second_lt : second < 100
  millis_lt : millis < 1000

namespace WrittenTime

/-- What follows the year, up to the seconds. -/
def text (w : WrittenTime) : Bytes :=
  decimal 2 w.month ++ (decimal 2 w.day ++ (decimal 2 w.hour ++ (decimal 2 w.minute ++
    decimal 2 w.second)))

/-- The month, the day of that month in that year, the hour and the minute exist. -/
structure Exists (w : WrittenTime) : Prop where
  month_pos : 1 ≤ w.month
  month_le : w.month ≤ 12
  day_pos : 1 ≤ w.day
  day_le : w.day ≤ Gregorian.monthLength w.year w.month
  hour_le : w.hour ≤ 23
  minute_le : w.minute ≤ 59

/-- The milliseconds from 1 January 1970 to the time. -/
def instant (w : WrittenTime) : Int :=
  ((Gregorian.daysTo w.year w.month w.day : Int) - Gregorian.daysTo 1970 1 1) * 86400000 +
    w.hour * 3600000 + w.minute * 60000 + w.second * 1000 + w.millis

end WrittenTime

/-- A point and the digits of a fraction, or nothing. -/
def fractionText : Nat → Nat → Bytes
  | 0, _ => []
  | width + 1, fraction => 46 :: decimal (width + 1) fraction

/-- `t` is a time `YYMMDDHHMMSSZ` or `YYYYMMDDHHMMSS[.f]Z`, of one to three fraction digits, with
these numbers. -/
inductive SpellsTime (t : Tlv) (w : WrittenTime) : Prop
  | utcTime (isTime : isUniversal t U.utcTime (some false) = true) (yy : Nat) (short : yy < 100)
      (pivot : w.year = if 50 ≤ yy then 1900 + yy else 2000 + yy) (whole : w.millis = 0)
      (text : t.content = decimal 2 yy ++ (w.text ++ [90]))
  | generalizedTime (isTime : isUniversal t U.generalizedTime (some false) = true)
      (short : w.year < 10000) (width fraction : Nat) (few : width ≤ 3)
      (small : fraction < 10 ^ width) (millis : w.millis = fraction * 10 ^ (3 - width))
      (text : t.content = decimal 4 w.year ++ (w.text ++ (fractionText width fraction ++ [90])))

/-! ### Reading a shape -/

theorem WrittenTime.text_length (w : WrittenTime) : w.text.length = 10 := by simp [text]

theorem WrittenTime.text_isDigit (w : WrittenTime) : w.text.all isDigit = true := by
  simp only [text, List.all_append, decimal_isDigit, Bool.and_self]

/-- What the patterns of the source find in a shape: a year of some width, the other numbers, and
what follows them. -/
structure Finds (text : Bytes) (width year : Nat) (w : WrittenTime) (rest : Bytes) : Prop where
  length : text.length = width + 10 + rest.length
  digits : (text.take (width + 10)).all isDigit = true
  rest : text.drop (width + 10) = rest
  year : field text 0 width = year
  month : field text width 2 = w.month
  day : field text (width + 2) 2 = w.day
  hour : field text (width + 4) 2 = w.hour
  minute : field text (width + 6) 2 = w.minute
  second : field text (width + 8) 2 = w.second

theorem finds_shape {width year : Nat} (bound : year < 10 ^ width) (w : WrittenTime)
    (rest : Bytes) : Finds (decimal width year ++ (w.text ++ rest)) width year w rest := by
  have front : (decimal width year ++ w.text).length = width + 10 := by
    rw [List.length_append, decimal_length, w.text_length]
  have inner : ∀ start, field (decimal width year ++ (w.text ++ rest)) (width + start) 2 =
      field (w.text ++ rest) start 2 := by
    intro start
    rw [Nat.add_comm, field_skip]
  have skip := field_skip 2
  have numbers : w.text ++ rest = decimal 2 w.month ++ (decimal 2 w.day ++ (decimal 2 w.hour ++
      (decimal 2 w.minute ++ (decimal 2 w.second ++ rest)))) := by
    simp only [WrittenTime.text, List.append_assoc]
  refine ⟨?_, ?_, ?_, field_here _ bound, ?_, ?_, ?_, ?_, ?_⟩
  · rw [← List.append_assoc, List.length_append, front]
  · rw [← List.append_assoc, List.take_left' front, List.all_append, decimal_isDigit,
      w.text_isDigit, Bool.and_self]
  · rw [← List.append_assoc, List.drop_left' front]
  · have first := inner 0
    rw [Nat.add_zero] at first
    rw [first, numbers, field_here _ w.month_lt]
  · rw [inner, numbers, skip _ _ 0, field_here _ w.day_lt]
  · rw [inner, numbers, skip _ _ 2, skip _ _ 0, field_here _ w.hour_lt]
  · rw [inner, numbers, skip _ _ 4, skip _ _ 2, skip _ _ 0, field_here _ w.minute_lt]
  · rw [inner, numbers, skip _ _ 6, skip _ _ 4, skip _ _ 2, skip _ _ 0, field_here _ w.second_lt]

theorem fractionDigits_fractionText {width fraction : Nat} (few : width ≤ 3) :
    fractionDigits (fractionText width fraction ++ [90]) = some (decimal width fraction) := by
  cases width with
  | zero => rfl
  | succ width =>
    simp [fractionText, fractionDigits, decimal_isDigit, few]

theorem fractionDigits_eq_some {text digits : Bytes} (read : fractionDigits text = some digits) :
    ∃ width fraction, width ≤ 3 ∧ fraction < 10 ^ width ∧
      text = fractionText width fraction ++ [90] := by
  unfold fractionDigits at read
  split at read
  next => cases read
  next c rest =>
    split at read
    next zulu =>
      split at read
      next ends =>
        have isZulu : c = 90 := UInt8.toNat_inj.mp zulu
        exact ⟨0, 0, by omega, by simp, by rw [ends, isZulu]; rfl⟩
      next => cases read
    next =>
      split at read
      next point =>
        dsimp only at read
        split at read
        next shape =>
          obtain ⟨some_, few, all⟩ := shape
          obtain ⟨fraction, bound, spelled⟩ := exists_decimal _ all
          have isPoint : c = 46 := UInt8.toNat_inj.mp point.1
          obtain ⟨width, length⟩ : ∃ width, rest.dropLast.length = width + 1 :=
            ⟨rest.dropLast.length - 1, by omega⟩
          rw [length] at spelled bound few
          refine ⟨width + 1, fraction, few, bound, ?_⟩
          have whole : rest = rest.dropLast ++ [90] :=
            (List.dropLast_append_getLast? _ point.2).symm
          rw [whole, spelled, isPoint]
          rfl
        next => cases read
      next => cases read

/-- The digits of a fraction, filled up with zeros. -/
theorem digitsValue_fraction {width fraction : Nat} (small : fraction < 10 ^ width) :
    digitsValue (decimal width fraction ++ List.replicate (3 - width) 48) =
      fraction * 10 ^ (3 - width) := by
  have zeros : ∀ (count : Nat) (text : Bytes),
      digitsValue (text ++ List.replicate count 48) = digitsValue text * 10 ^ count := by
    intro count
    induction count with
    | zero => simp
    | succ count ih =>
      intro text
      rw [List.replicate_succ', ← List.append_assoc, digitsValue_snoc, ih, Nat.pow_succ]
      simp [Nat.mul_assoc]
  rw [zeros, digitsValue_decimal width small]

/-! ### `Date.UTC` -/

/-- The year that `Date.UTC` takes for one below 100 is of the twentieth century. -/
def takenYear (year : Nat) : Nat := if year < 100 then 1900 + year else year

/-- The time with the year that `Date.UTC` takes. -/
def WrittenTime.taken (w : WrittenTime) : WrittenTime := { w with year := takenYear w.year }

theorem exists_taken_iff (w : WrittenTime) :
    w.taken.Exists ↔ 1 ≤ w.month ∧ w.month ≤ 12 ∧ 1 ≤ w.day ∧
      w.day ≤ Gregorian.monthLength (takenYear w.year) w.month ∧ w.hour ≤ 23 ∧ w.minute ≤ 59 := by
  constructor
  · rintro ⟨month_pos, month_le, day_pos, day_le, hour_le, minute_le⟩
    exact ⟨month_pos, month_le, day_pos, day_le, hour_le, minute_le⟩
  · rintro ⟨month_pos, month_le, day_pos, day_le, hour_le, minute_le⟩
    exact ⟨month_pos, month_le, day_pos, day_le, hour_le, minute_le⟩

theorem takenYear_lt {year : Nat} (early : year < 10000) : takenYear year < 10000 := by
  unfold takenYear
  split <;> omega

private theorem daysTo_lt {year month day : Nat} (early : year < 10000) (bound : month ≤ 12)
    (few : day ≤ 31) : Gregorian.daysTo year month day < 4000000 := by
  have years := Gregorian.daysBeforeYear_eq year
  have months := Gregorian.daysBeforeMonth_mono year (show month ≤ 13 by omega)
  have whole : Gregorian.daysBeforeMonth year 13 ≤ 366 := by
    have := Gregorian.yearLength_eq year
    rw [Gregorian.yearLength] at this
    rw [this]
    split <;> omega
  unfold Gregorian.daysTo
  omega

/-- The getters find the month and the day again exactly when the month has the day. -/
private theorem check_passes_iff (year : Nat) {month day : Nat} (positive : 1 ≤ month)
    (bound : month ≤ 12) (first : 1 ≤ day) (few : day ≤ 31) :
    ¬((Date.civil (Gregorian.daysTo year month day - 719528)).month ≠ (month : Int) - 1 ∨
        (Date.civil (Gregorian.daysTo year month day - 719528)).day ≠ day) ↔
      day ≤ Gregorian.monthLength year month := by
  constructor
  · intro found
    by_contra past
    exact found (.inl (civil_overflow positive bound few (not_le.mp past)))
  · intro inside
    have read := civil_dayNumber {
      year := year
      month := month
      day := day
      month_pos := positive
      month_le := bound
      day_pos := first
      day_le := inside }
    rw [Gregorian.Date.dayNumber] at read
    simp [read]

/-- `utc` accepts the dates that exist, and gives the instant. -/
theorem utc_eq_ok_iff (w : WrittenTime) (early : w.year < 10000) (seconds : w.second < 60)
    (ms : Int) :
    utc w.year w.month w.day w.hour w.minute w.second = .ok ms ↔
      w.taken.Exists ∧ ms + w.millis = w.taken.instant := by
  rw [utc, exists_taken_iff]
  split
  next outside =>
    constructor
    · intro read
      cases read
    · rintro ⟨found, -⟩
      have := Gregorian.monthLength_le (takenYear w.year) w.month
      omega
  next inside =>
    have day := daysTo_lt (takenYear_lt early) (show w.month ≤ 12 by omega)
      (show w.day ≤ 31 by omega)
    have year : (if 0 ≤ (w.year : Int) ∧ (w.year : Int) ≤ 99 then 1900 + (w.year : Int)
        else w.year) = (takenYear w.year : Nat) := by
      unfold takenYear
      split <;> split <;> omega
    have time : Date.utc w.year (w.month - 1) w.day w.hour w.minute w.second =
        (((Gregorian.daysTo (takenYear w.year) w.month w.day : Int) - 719528) * 86400 +
          w.hour * 3600 + w.minute * 60 + w.second) * 1000 := by
      simp only [Date.utc, year]
      rw [makeDay_eq (by omega) (by omega) (by omega)]
    have valid : (Date.utc w.year (w.month - 1) w.day w.hour w.minute w.second).natAbs ≤
        8640000000000000 := by
      rw [time]
      omega
    have days : Date.utc w.year (w.month - 1) w.day w.hour w.minute w.second / 86400000 =
        (Gregorian.daysTo (takenYear w.year) w.month w.day : Int) - 719528 := by
      rw [time]
      omega
    have check := check_passes_iff (takenYear w.year) (show 1 ≤ w.month by omega)
      (show w.month ≤ 12 by omega) (show 1 ≤ w.day by omega) (show w.day ≤ 31 by omega)
    have instant : w.taken.instant =
        Date.utc w.year (w.month - 1) w.day w.hour w.minute w.second + w.millis := by
      rw [time]
      simp only [WrittenTime.instant, WrittenTime.taken, daysTo_epoch]
      omega
    simp only [Date.ofTime, if_pos valid, days]
    rw [guard_eq_ok_iff, check, instant, Except.ok.injEq]
    constructor
    · rintro ⟨found, rfl⟩
      exact ⟨by omega, rfl⟩
    · rintro ⟨found, same⟩
      exact ⟨by omega, by omega⟩

/-- What is read from a time in its documented shape. -/
theorem timeValue_eq_ok_iff {t : Tlv} {w : WrittenTime} (spells : SpellsTime t w)
    (seconds : w.second < 60) (ms : Int) :
    timeValue t = .ok ms ↔ w.taken.Exists ∧ ms = w.taken.instant := by
  cases spells with
  | utcTime isTime yy short pivot whole text =>
    have finds := text ▸ finds_shape short w [90]
    have year : (if field t.content 0 2 ≥ 50 then 1900 + field t.content 0 2
        else 2000 + field t.content 0 2) = w.year := by
      rw [finds.year, pivot]
    have early : w.year < 10000 := by
      rw [pivot]
      split <;> omega
    have date := utc_eq_ok_iff w early seconds ms
    rw [whole, Nat.cast_zero, add_zero] at date
    rw [timeValue, if_pos isTime, if_pos ⟨finds.length, finds.digits, finds.rest⟩]
    simp only [year]
    rw [finds.month, finds.day, finds.hour, finds.minute, finds.second, date]
  | generalizedTime isTime short width fraction few small millis text =>
    have notUtc : ¬isUniversal t U.utcTime (some false) = true := by
      intro other
      obtain ⟨-, tag, -⟩ := (isUniversal_eq_true ..).mp isTime
      obtain ⟨-, tagToo, -⟩ := (isUniversal_eq_true ..).mp other
      exact absurd (tag.symm.trans tagToo) (by decide)
    have finds := text ▸ finds_shape short w (fractionText width fraction ++ [90])
    have rest : t.content.drop 14 = fractionText width fraction ++ [90] := finds.rest
    have date := utc_eq_ok_iff w short seconds (ms - w.millis)
    have millis_eq : digitsValue (decimal width fraction ++
        List.replicate (3 - (decimal width fraction).length) 48) = w.millis := by
      rw [decimal_length, digitsValue_fraction small, millis]
    rw [timeValue, if_neg notUtc, if_pos isTime, rest, fractionDigits_fractionText few]
    simp only
    rw [if_pos finds.digits, finds.year, finds.month, finds.day, finds.hour, finds.minute,
      finds.second, millis_eq, bind_ok_iff]
    rw [sub_add_cancel] at date
    rw [← date]
    constructor
    · rintro ⟨time, read, same⟩
      cases same
      rw [read, add_sub_cancel_right]
    · intro read
      exact ⟨_, read, by rw [sub_add_cancel]⟩

/-- Ten digits are the numbers after a year. -/
private theorem exists_text {text : Bytes} (digits : text.all isDigit = true)
    (length : text.length = 10) :
    ∃ month day hour minute second, month < 100 ∧ day < 100 ∧ hour < 100 ∧ minute < 100 ∧
      second < 100 ∧ text = decimal 2 month ++ (decimal 2 day ++ (decimal 2 hour ++
        (decimal 2 minute ++ decimal 2 second))) := by
  obtain ⟨month, monthLt, t1, rfl, l1, d1⟩ := exists_decimal_append 2 8 text digits length
  obtain ⟨day, dayLt, t2, rfl, l2, d2⟩ := exists_decimal_append 2 6 t1 d1 l1
  obtain ⟨hour, hourLt, t3, rfl, l3, d3⟩ := exists_decimal_append 2 4 t2 d2 l2
  obtain ⟨minute, minuteLt, t4, rfl, l4, d4⟩ := exists_decimal_append 2 2 t3 d3 l3
  obtain ⟨second, secondLt, t5, rfl, l5, d5⟩ := exists_decimal_append 2 0 t4 d4 l4
  refine ⟨month, day, hour, minute, second, monthLt, dayLt, hourLt, minuteLt, secondLt, ?_⟩
  rw [List.eq_nil_of_length_eq_zero l5, List.append_nil]

private theorem spells_utcTime {t : Tlv} (isTime : isUniversal t U.utcTime (some false) = true)
    (length : t.content.length = 13) (digits : (t.content.take 12).all isDigit = true)
    (zulu : t.content.drop 12 = [90]) : ∃ w, SpellsTime t w := by
  have size : (t.content.take 12).length = 12 := by
    rw [List.length_take, length]
    rfl
  obtain ⟨yy, short, numbers, front, count, rest⟩ :=
    exists_decimal_append 2 10 (t.content.take 12) digits size
  obtain ⟨month, day, hour, minute, second, monthLt, dayLt, hourLt, minuteLt, secondLt, rfl⟩ :=
    exists_text rest count
  refine ⟨⟨if 50 ≤ yy then 1900 + yy else 2000 + yy, month, day, hour, minute, second, 0, monthLt,
    dayLt, hourLt, minuteLt, secondLt, by omega⟩, .utcTime isTime yy short rfl rfl ?_⟩
  rw [WrittenTime.text, ← List.append_assoc, ← front, ← zulu, List.take_append_drop]

private theorem spells_generalizedTime {t : Tlv}
    (isTime : isUniversal t U.generalizedTime (some false) = true) {digits : Bytes}
    (found : fractionDigits (t.content.drop 14) = some digits)
    (front : (t.content.take 14).all isDigit = true) : ∃ w, SpellsTime t w := by
  obtain ⟨width, fraction, few, small, rest⟩ := fractionDigits_eq_some found
  have size : (t.content.take 14).length = 14 := by
    have total := congrArg List.length rest
    rw [List.length_drop, List.length_append, List.length_singleton] at total
    rw [List.length_take]
    omega
  obtain ⟨year, short, numbers, front, count, others⟩ :=
    exists_decimal_append 4 10 (t.content.take 14) front size
  obtain ⟨month, day, hour, minute, second, monthLt, dayLt, hourLt, minuteLt, secondLt, rfl⟩ :=
    exists_text others count
  have millis : fraction * 10 ^ (3 - width) < 1000 := by
    have whole : 10 ^ width * 10 ^ (3 - width) = 1000 := by
      rw [← Nat.pow_add, show width + (3 - width) = 3 by omega]
    rw [← whole]
    exact Nat.mul_lt_mul_of_pos_right small (by positivity)
  refine ⟨⟨year, month, day, hour, minute, second, fraction * 10 ^ (3 - width), monthLt, dayLt,
    hourLt, minuteLt, secondLt, millis⟩,
    .generalizedTime isTime short width fraction few small rfl ?_⟩
  rw [WrittenTime.text, ← List.append_assoc, ← front, ← rest, List.take_append_drop]

/-- Only texts of the documented shapes are read. -/
theorem spells_of_timeValue {t : Tlv} {ms : Int} (read : timeValue t = .ok ms) :
    ∃ w, SpellsTime t w := by
  unfold timeValue at read
  dsimp only at read
  split at read
  next isTime =>
    split at read
    next shape =>
      obtain ⟨length, digits, zulu⟩ := shape
      exact spells_utcTime isTime length digits zulu
    next => cases read
  next =>
    split at read
    next isTime =>
      split at read
      next => cases read
      next digits found =>
        split at read
        next front => exact spells_generalizedTime isTime found front
        next => cases read
    next => cases read

/-! ### Order -/

namespace WrittenTime

/-- The numbers of a time from the year to the milliseconds; times are in the lexicographic order
of these. -/
def key (w : WrittenTime) : List Nat :=
  [w.year, w.month, w.day, w.hour, w.minute, w.second, w.millis]

/-- The date of a time that exists. -/
def date (w : WrittenTime) (found : w.Exists) : Gregorian.Date where
  year := w.year
  month := w.month
  day := w.day
  month_pos := found.month_pos
  month_le := found.month_le
  day_pos := found.day_pos
  day_le := found.day_le

variable {v w : WrittenTime} (existsV : v.Exists) (existsW : w.Exists) (secondsV : v.second < 60)
  (secondsW : w.second < 60)

include existsV existsW secondsV secondsW

theorem instant_lt_of_key (before : v.key < w.key) : v.instant < w.instant := by
  have := existsV.hour_le
  have := existsV.minute_le
  have := existsW.hour_le
  have := existsW.minute_le
  have := v.millis_lt
  have := w.millis_lt
  have dates : (v.date existsV).Before (w.date existsW) →
      Gregorian.daysTo v.year v.month v.day < Gregorian.daysTo w.year w.month w.day :=
    fun earlier => Gregorian.Date.dayNumber_lt earlier
  simp only [key, List.cons_lt_cons_iff] at before
  unfold instant
  rcases before with year | ⟨year, month | ⟨month, day | ⟨day, rest⟩⟩⟩
  · have := dates (.inl year)
    omega
  · have := dates (.inr ⟨year, .inl month⟩)
    omega
  · have := dates (.inr ⟨year, .inr ⟨month, day⟩⟩)
    omega
  · rw [year, month, day]
    rcases rest with hour | ⟨hour, minute | ⟨minute, second | ⟨second, millis | ⟨-, never⟩⟩⟩⟩
    · omega
    · omega
    · omega
    · omega
    · cases never

theorem instant_lt_iff : v.instant < w.instant ↔ v.key < w.key := by
  constructor
  · intro earlier
    rcases lt_trichotomy v.key w.key with before | same | after
    · exact before
    · simp only [key, List.cons.injEq, and_true] at same
      obtain ⟨year, month, day, hour, minute, second, millis⟩ := same
      rw [instant, instant, year, month, day, hour, minute, second, millis] at earlier
      exact absurd earlier (lt_irrefl _)
    · have later := instant_lt_of_key existsW existsV secondsW secondsV after
      omega
  · exact instant_lt_of_key existsV existsW secondsV secondsW

end WrittenTime

/-! ### Main result -/

theorem monthLength_takenYear (year month : Nat) :
    Gregorian.monthLength (takenYear year) month ≤ Gregorian.monthLength year month := by
  have leap : Gregorian.Leap (takenYear year) → Gregorian.Leap year := by
    unfold Gregorian.Leap takenYear
    split <;> omega
  unfold Gregorian.monthLength
  repeat' split
  all_goals first | omega | exact absurd (leap ‹_›) ‹_›

theorem exists_of_taken {w : WrittenTime} (taken : w.taken.Exists) : w.Exists := by
  have := monthLength_takenYear w.year w.month
  obtain ⟨month_pos, month_le, day_pos, day_le, hour_le, minute_le⟩ := (exists_taken_iff w).mp taken
  exact ⟨month_pos, month_le, day_pos, day_le.trans this, hour_le, minute_le⟩

theorem taken_of_late {w : WrittenTime} (late : 100 ≤ w.year) : w.taken = w := by
  rw [WrittenTime.taken, takenYear, if_neg (not_lt.mpr late)]

/-- Where the years that are taken reverse the order of two times. -/
theorem taken_key_lt_iff {v w : WrittenTime} (order : v.key ≤ w.key) :
    w.taken.key < v.taken.key ↔ v.year < 100 ∧ 100 ≤ w.year ∧ w.key < v.taken.key := by
  rcases Nat.lt_or_ge v.year 100 with early | late
  · rcases Nat.lt_or_ge w.year 100 with earlyToo | lateToo
    -- Both are moved by the same number of years.
    · have moved : w.taken.key < v.taken.key ↔ w.key < v.key := by
        simp only [WrittenTime.key, WrittenTime.taken, takenYear, if_pos early, if_pos earlyToo,
          List.cons_lt_cons_iff, Nat.add_lt_add_iff_left, Nat.add_left_cancel_iff]
      rw [moved]
      constructor
      · intro before
        exact absurd before (not_lt.mpr order)
      · rintro ⟨-, late, -⟩
        exact absurd earlyToo (not_lt.mpr late)
    · simp only [taken_of_late lateToo, early, lateToo, true_and]
  -- A time that is not earlier is not of those years either.
  · have lateToo : 100 ≤ w.year := by
      by_contra early
      apply not_lt.mpr order
      simp only [WrittenTime.key, List.cons_lt_cons_iff]
      exact .inl (by omega)
    rw [taken_of_late late, taken_of_late lateToo]
    constructor
    · intro before
      exact absurd before (not_lt.mpr order)
    · rintro ⟨early, -⟩
      exact absurd early (not_lt.mpr late)

/-- One element denotes the instant written in it, and is accepted exactly when that exists. -/
structure ReadsRight (t : Tlv) : Prop where
  value : ∀ w ms, SpellsTime t w → w.second < 60 → timeValue t = .ok ms → ms = w.instant
  accepts : ∀ w, SpellsTime t w → w.second < 60 → ((∃ ms, timeValue t = .ok ms) ↔ w.Exists)
  shape : (∀ w, ¬SpellsTime t w) → ∃ e, timeValue t = .error e

/-- A time of the first hundred years that exists. -/
def OfFirstCentury (t : Tlv) : Prop :=
  ∃ w, SpellsTime t w ∧ w.second < 60 ∧ w.year < 100 ∧ w.Exists

private theorem not_readsRight {t : Tlv} (century : OfFirstCentury t) : ¬ReadsRight t := by
  intro right
  obtain ⟨w, spells, seconds, early, found⟩ := century
  obtain ⟨ms, read⟩ := (right.accepts w spells seconds).mpr found
  obtain ⟨taken, value⟩ := (timeValue_eq_ok_iff spells seconds ms).mp read
  have same := right.value w ms spells seconds read
  -- The year that is taken is a later one.
  have later : w.key < w.taken.key := by
    simp only [WrittenTime.key, WrittenTime.taken, takenYear, if_pos early, List.cons_lt_cons_iff]
    omega
  have := WrittenTime.instant_lt_of_key found taken seconds seconds later
  omega

private theorem readsRight_of_late {t : Tlv} (late : ¬OfFirstCentury t) : ReadsRight t := by
  have readable : ∀ w, SpellsTime t w → w.second < 60 → w.Exists → w.taken = w := by
    intro w spells seconds found
    rcases Nat.lt_or_ge w.year 100 with early | year
    · exact absurd ⟨w, spells, seconds, early, found⟩ late
    · exact taken_of_late year
  refine ⟨?_, ?_, ?_⟩
  · intro w ms spells seconds read
    obtain ⟨taken, value⟩ := (timeValue_eq_ok_iff spells seconds ms).mp read
    rw [value, readable w spells seconds (exists_of_taken taken)]
  · intro w spells seconds
    simp only [timeValue_eq_ok_iff spells seconds]
    constructor
    · rintro ⟨ms, taken, -⟩
      exact exists_of_taken taken
    · intro found
      exact ⟨_, (readable w spells seconds found).symm ▸ found, rfl⟩
  · intro unspelled
    cases read : timeValue t with
    | error e => exact ⟨e, rfl⟩
    | ok ms =>
      obtain ⟨w, spells⟩ := spells_of_timeValue read
      exact absurd spells (unspelled w)

/-- Times are read right but for those of the first hundred years, which keep their order among
themselves and come after all that are earlier than they are taken for. -/
theorem certificate_times_right_iff (t : Tlv) :
    (ReadsRight t ↔ ¬OfFirstCentury t) ∧
    ∀ u v w a b, SpellsTime t v → SpellsTime u w → v.second < 60 → w.second < 60 →
      timeValue t = .ok a → timeValue u = .ok b → v.key ≤ w.key →
      (a ≤ b ↔ ¬(v.year < 100 ∧ 100 ≤ w.year ∧ w.key < v.taken.key)) := by
  constructor
  · constructor
    · intro right century
      exact not_readsRight century right
    · exact readsRight_of_late
  · intro u v w a b spellsV spellsW secondsV secondsW readV readW order
    obtain ⟨takenV, valueV⟩ := (timeValue_eq_ok_iff spellsV secondsV a).mp readV
    obtain ⟨takenW, valueW⟩ := (timeValue_eq_ok_iff spellsW secondsW b).mp readW
    rw [valueV, valueW, ← not_lt, WrittenTime.instant_lt_iff takenW takenV secondsW secondsV]
    exact not_congr (taken_key_lt_iff order)

namespace Sample

/-- A GeneralizedTime with this text. -/
def generalizedTime (text : Bytes) : Tlv :=
  { cls := .universal, constructed := false, tag := U.generalizedTime, raw := [], content := text }

/-- The first instant of a year. -/
def newYear (year : Nat) : WrittenTime := ⟨year, 1, 1, 0, 0, 0, 0, by omega, by omega, by omega,
  by omega, by omega, by omega⟩

def newYearElement (year : Nat) : Tlv :=
  generalizedTime (decimal 4 year ++ ((newYear year).text ++ [90]))

theorem newYear_spells {year : Nat} (short : year < 10000) :
    SpellsTime (newYearElement year) (newYear year) :=
  .generalizedTime rfl short 0 0 (by omega) (by omega) rfl rfl

end Sample

theorem certificate_times_right_iff_sample :
    ¬ReadsRight (Sample.newYearElement 50) ∧ ∃ a b, timeValue (Sample.newYearElement 2024) = .ok a ∧
      timeValue (Sample.newYearElement 2025) = .ok b ∧ a ≤ b := by
  have century : OfFirstCentury (Sample.newYearElement 50) :=
    ⟨_, Sample.newYear_spells (by omega), by decide, by decide, by constructor <;> decide⟩
  obtain ⟨right, -⟩ := certificate_times_right_iff (Sample.newYearElement 50)
  obtain ⟨-, ordered⟩ := certificate_times_right_iff (Sample.newYearElement 2024)
  refine ⟨fun reads => right.mp reads century, 1704067200000, 1735689600000, by decide +kernel,
    by decide +kernel, ?_⟩
  refine (ordered _ (Sample.newYear 2024) (Sample.newYear 2025) _ _
    (Sample.newYear_spells (by omega)) (Sample.newYear_spells (by omega)) (by decide) (by decide)
    (by decide +kernel) (by decide +kernel) (by decide)).mpr ?_
  decide

/-- The first instant of the year 50 is read as that of 1950, and as later than that of the year
100. -/
theorem early_year_misread :
    ¬ReadsRight (Sample.newYearElement 50) ∧
      ∃ a b, timeValue (Sample.newYearElement 50) = .ok a ∧
        timeValue (Sample.newYearElement 100) = .ok b ∧
        (Sample.newYear 50).key < (Sample.newYear 100).key ∧ b < a := by
  have read : timeValue (Sample.newYearElement 50) = .ok (-631152000000) := by decide +kernel
  constructor
  · intro right
    have value := right.value _ _ (Sample.newYear_spells (by omega)) (by decide) read
    revert value
    decide +kernel
  · exact ⟨_, -59011459200000, read, by decide +kernel, by decide, by decide⟩

end UncrackableL5

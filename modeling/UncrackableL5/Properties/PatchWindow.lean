import UncrackableL5.Properties.CalendarDates
import UncrackableL5.Verifier.Verifier

/-!
# The window of patch levels

A patch level is a number whose decimal digits are cut into a year and a month; it is compared with
the calendar month of the time of verification. Both become arithmetic on month indices, twelve
times the year and the months before.

## Main results

- `patchMonth_eq_some_iff`: the well-formed patch levels and their months.
- `patchesCurrent_iff`: the window.
- `patch_window`: the times at which a device is current are the months of one interval.
-/
namespace UncrackableL5

/-! ### Digits -/

private theorem isDecimal_natToString (n : Nat) :
    ∀ u ∈ natToString 10 n, 48 ≤ u.toNat ∧ u.toNat ≤ 57 := by
  intro u member
  obtain ⟨d, small, rfl⟩ := mem_natToString (by omega) member
  rw [digitUnit_toNat (by omega), if_pos small]
  omega

/-- A numeral of six digits or more, cut after the fourth and the sixth. -/
private theorem decimalSlices {n r : Nat} (size : (natToString 10 n).length = 6 + r) :
    decimalSlice (natToString 10 n) 0 4 = n / 10 ^ r / 100 ∧
      decimalSlice (natToString 10 n) 4 6 = n / 10 ^ r % 100 := by
  obtain ⟨s, isText⟩ : ∃ s, s = natToString 10 n := ⟨_, rfl⟩
  have decimal : ∀ u ∈ s, 48 ≤ u.toNat ∧ u.toNat ≤ 57 := by
    rw [isText]
    exact isDecimal_natToString n
  have number : decimalNumber s = n := by rw [isText, decimalNumber_natToString]
  rw [← isText] at size ⊢
  have split : s = s.take 4 ++ ((s.drop 4).take 2 ++ s.drop 6) := by
    rw [show s.drop 6 = (s.drop 4).drop 2 by rw [List.drop_drop], List.take_append_drop,
      List.take_append_drop]
  have middle := decimalNumber_lt ((s.drop 4).take 2) fun u member =>
    decimal u (List.mem_of_mem_drop (List.mem_of_mem_take member))
  have last := decimalNumber_lt (s.drop 6) fun u member => decimal u (List.mem_of_mem_drop member)
  have middleLength : ((s.drop 4).take 2).length = 2 := by
    rw [List.length_take, List.length_drop]
    omega
  have lastLength : (s.drop 6).length = r := by
    rw [List.length_drop]
    omega
  rw [middleLength] at middle
  rw [lastLength] at last
  have year : decimalSlice s 0 4 = decimalNumber (s.take 4) := rfl
  have month : decimalSlice s 4 6 = decimalNumber ((s.drop 4).take 2) := rfl
  have whole : n = 10 ^ r * (decimalNumber (s.take 4) * 100 +
      decimalNumber ((s.drop 4).take 2)) + decimalNumber (s.drop 6) := by
    rw [← number]
    conv_lhs => rw [split]
    rw [decimalNumber_append, decimalNumber_append, List.length_append, middleLength, lastLength,
      Nat.pow_add]
    ring
  have quotient : n / 10 ^ r = decimalNumber (s.take 4) * 100 +
      decimalNumber ((s.drop 4).take 2) := by
    rw [whole, Nat.mul_add_div (Nat.pow_pos (by omega)), Nat.div_eq_of_lt last, Nat.add_zero]
  rw [year, month, quotient]
  omega

/-! ### Patch levels -/

/-- A patch level `YYYYMM` or `YYYYMMDD`, and the index of its month. -/
def PatchLevel (level month : Int) : Prop :=
  ∃ y m : Int, 1 ≤ m ∧ m ≤ 12 ∧ month = y * 12 + m - 1 ∧
    (100000 ≤ level ∧ level < 1000000 ∧ y = level / 100 ∧ m = level % 100 ∨
      10000000 ≤ level ∧ level < 100000000 ∧ y = level / 10000 ∧ m = level / 100 % 100)

theorem PatchLevel.unique {level month other : Int} (first : PatchLevel level month)
    (second : PatchLevel level other) : month = other := by
  obtain ⟨y, m, -, -, rfl, digits⟩ := first
  obtain ⟨y', m', -, -, rfl, digitsToo⟩ := second
  omega

/-- The month of a number of which the first digits are a year and the next two a month. -/
private theorem month_of_digits (year month : Nat) (index : Int) :
    (if month < 1 ∨ month > 12 then none else some ((year : Int) * 12 + month - 1)) = some index ↔
      1 ≤ month ∧ month ≤ 12 ∧ index = year * 12 + month - 1 := by
  split
  next outside => simp; omega
  next inside =>
    rw [Option.some.injEq]
    omega

private theorem natToString_length_eq_iff {n k : Nat} (positive : 0 < k) :
    (natToString 10 n).length = k + 1 ↔ 10 ^ k ≤ n ∧ n < 10 ^ (k + 1) := by
  have decimal : 1 < 10 := by omega
  have longer := natToString_length_le_iff (v := n) (k := k) decimal positive
  have fits := natToString_length_le_iff (v := n) (k := k + 1) decimal (Nat.succ_pos k)
  omega

/-- Exactly the numbers of six or eight digits with a month in the fifth and sixth have a month. -/
theorem patchMonth_eq_some_iff (level month : Int) :
    patchMonth (some level) = some month ↔ PatchLevel level month := by
  rw [patchMonth]
  by_cases negative : level < 0
  · -- A sign is no digit.
    have signed :
        (bigIntToString 10 level).all (fun u => 48 ≤ u.toNat && u.toNat ≤ 57) = false := by
      rw [bigIntToString, if_pos negative]
      rfl
    simp only [signed, Bool.false_eq_true, and_false, ↓reduceIte, reduceCtorEq, false_iff]
    rintro ⟨y, m, -, -, -, digits⟩
    omega
  · obtain ⟨n, rfl⟩ := Int.eq_ofNat_of_zero_le (a := level) (by omega)
    have text : bigIntToString 10 n = natToString 10 n := by
      rw [bigIntToString, if_neg negative]
      rfl
    have decimal : (natToString 10 n).all (fun u => 48 ≤ u.toNat && u.toNat ≤ 57) = true := by
      rw [List.all_eq_true]
      intro u member
      have := isDecimal_natToString n u member
      simpa using this
    have six := natToString_length_eq_iff (n := n) (k := 5) (by omega)
    have eight := natToString_length_eq_iff (n := n) (k := 7) (by omega)
    simp only [Nat.reduceAdd, Nat.reducePow] at six eight
    simp only [text, decimal, and_true]
    by_cases short : (natToString 10 n).length = 6
    · obtain ⟨year, digits⟩ := decimalSlices (n := n) (r := 0) (by omega)
      rw [if_pos (.inl short), year, digits, month_of_digits, Nat.pow_zero, Nat.div_one]
      have range := six.mp short
      unfold PatchLevel
      constructor
      · rintro ⟨positive, bound, rfl⟩
        exact ⟨n / 100, n % 100, by omega, by omega, by push_cast; omega, .inl (by omega)⟩
      · rintro ⟨y, m, positive, bound, rfl, parts⟩
        push_cast
        omega
    · by_cases long : (natToString 10 n).length = 8
      · obtain ⟨year, digits⟩ := decimalSlices (n := n) (r := 2) (by omega)
        rw [if_pos (.inr long), year, digits, month_of_digits]
        have range := eight.mp long
        unfold PatchLevel
        constructor
        · rintro ⟨positive, bound, rfl⟩
          exact ⟨n / 10000, n / 100 % 100, by omega, by omega, by push_cast; omega,
            .inr (by omega)⟩
        · rintro ⟨y, m, positive, bound, rfl, parts⟩
          push_cast
          omega
      · rw [if_neg (by omega)]
        simp only [reduceCtorEq, false_iff]
        rintro ⟨y, m, -, -, -, digits⟩
        omega

/-! ### Times -/

/-- The time of verification is in the month: the day of its time value, which is whole
milliseconds, is one of the month's. -/
def UtcMonth (value : ℚ) (month : Int) : Prop :=
  Gregorian.InMonth month (Number.truncate value / 86400000 + 719528)

theorem existsUnique_utcMonth (value : ℚ) : ∃! month, UtcMonth value month :=
  Gregorian.existsUnique_inMonth _

private theorem truncate_eq_floor {q : ℚ} (nonneg : 0 ≤ q) : Number.truncate q = ⌊q⌋ := by
  rw [Number.truncate, Int.tdiv_eq_ediv_of_nonneg (Rat.num_nonneg.mpr nonneg), Rat.floor_def']

private theorem truncate_neg (q : ℚ) : Number.truncate (-q) = -Number.truncate q := by
  rw [Number.truncate, Number.truncate, Rat.neg_num, Rat.neg_den, Int.neg_tdiv]

/-- Dropping the fraction keeps the order. -/
theorem truncate_mono {a b : ℚ} (order : a ≤ b) : Number.truncate a ≤ Number.truncate b := by
  have above : ∀ q : ℚ, 0 ≤ q → 0 ≤ Number.truncate q := by
    intro q nonneg
    rw [truncate_eq_floor nonneg]
    exact Int.floor_nonneg.mpr nonneg
  rcases le_or_gt 0 a with nonneg | negative
  · rw [truncate_eq_floor nonneg, truncate_eq_floor (nonneg.trans order)]
    exact Int.floor_le_floor order
  · -- Fractions below zero are dropped upwards.
    have down : Number.truncate a = -⌊-a⌋ := by
      rw [← truncate_eq_floor (by linarith), truncate_neg, neg_neg]
    rcases le_or_gt 0 b with nonneg | negativeToo
    · have := above b nonneg
      have := Int.floor_nonneg.mpr (show 0 ≤ -a by linarith)
      omega
    · have downToo : Number.truncate b = -⌊-b⌋ := by
        rw [← truncate_eq_floor (by linarith), truncate_neg, neg_neg]
      have := Int.floor_le_floor (neg_le_neg order)
      omega

theorem UtcMonth.mono {a b : ℚ} {month later : Int} (first : UtcMonth a month)
    (second : UtcMonth b later) (order : a ≤ b) : month ≤ later := by
  apply Gregorian.InMonth.mono first second
  have := truncate_mono order
  omega

/-- The times that a `Date` takes. -/
def InDateRange (value : ℚ) : Prop := |value| ≤ 8640000000000000

/-- The getters give the month of a time in the range of dates. -/
private theorem ofNumber_month {value : ℚ} {month : Int} (range : InDateRange value)
    (inMonth : UtcMonth value month) :
    ∃ now, Date.ofNumber (.finite value) = some now ∧ now.year * 12 + now.month = month := by
  have bound : (Number.truncate value).natAbs ≤ 8640000000000000 := by
    have high := truncate_mono (abs_le.mp range).2
    have low := truncate_mono (abs_le.mp range).1
    have top : Number.truncate 8640000000000000 = 8640000000000000 := rfl
    have bottom : Number.truncate (-8640000000000000) = -8640000000000000 := rfl
    omega
  refine ⟨Date.civil (Number.truncate value / 86400000), ?_, civil_month inMonth⟩
  rw [InDateRange] at range
  rw [Date.ofNumber, if_pos range, Date.ofTime, if_pos bound]

/-! ### The window -/

/-- A level is current when its month is at most twelve before that of the time and at most one
after it. -/
theorem patchCurrent_iff {value : ℚ} {now : Int} (range : InDateRange value)
    (inMonth : UtcMonth value now) (level : Option Int) :
    patchCurrent (.finite value) level = true ↔
      ∃ n month, level = some n ∧ PatchLevel n month ∧ now - 12 ≤ month ∧ month ≤ now + 1 := by
  obtain ⟨date, read, rfl⟩ := ofNumber_month range inMonth
  cases level with
  | none => simp [patchCurrent, read, patchMonth]
  | some n =>
    cases found : patchMonth (some n) with
    | none =>
      simp only [patchCurrent, read, found, Bool.false_eq_true, false_iff]
      rintro ⟨m, month, same, level, -⟩
      cases same
      rw [(patchMonth_eq_some_iff n month).mpr level] at found
      cases found
    | some month =>
      have level := (patchMonth_eq_some_iff n month).mp found
      simp only [patchCurrent, read, found, maxPatchAgeMonths, Bool.and_eq_true]
      constructor
      · rintro ⟨old, early⟩
        exact ⟨n, month, rfl, level, of_decide_eq_true old, of_decide_eq_true early⟩
      · rintro ⟨m, other, same, levelToo, old, early⟩
        cases same
        rw [level.unique levelToo]
        exact ⟨decide_eq_true old, decide_eq_true early⟩

theorem patchesCurrent_iff {value : ℚ} {now : Int} (range : InDateRange value)
    (inMonth : UtcMonth value now) (hw : AuthorizationList) :
    patchesCurrent hw (.finite value) = true ↔
      ∀ level ∈ [hw.osPatchLevel, hw.vendorPatchLevel, hw.bootPatchLevel],
        ∃ n month, level = some n ∧ PatchLevel n month ∧ now - 12 ≤ month ∧ month ≤ now + 1 := by
  rw [patchesCurrent, List.all_eq_true]
  apply forall₂_congr
  intro level _
  exact patchCurrent_iff range inMonth level

/-- A level is current in the months of an interval. -/
private theorem patchCurrent_interval (level : Option Int) :
    ∃ first last : Int, ∀ value now, InDateRange value → UtcMonth value now →
      (patchCurrent (.finite value) level = true ↔ first ≤ now ∧ now ≤ last) := by
  by_cases formed : ∃ n month, level = some n ∧ PatchLevel n month
  · obtain ⟨n, month, rfl, isLevel⟩ := formed
    refine ⟨month - 1, month + 12, ?_⟩
    intro value now range inMonth
    rw [patchCurrent_iff range inMonth]
    constructor
    · rintro ⟨m, other, same, levelToo, old, early⟩
      cases same
      rw [isLevel.unique levelToo]
      omega
    · rintro ⟨early, old⟩
      exact ⟨n, month, rfl, isLevel, by omega, by omega⟩
  · refine ⟨1, 0, ?_⟩
    intro value now range inMonth
    rw [patchCurrent_iff range inMonth]
    constructor
    · rintro ⟨n, month, same, isLevel, -⟩
      exact absurd ⟨n, month, same, isLevel⟩ formed
    · omega

theorem patchesCurrent_interval (hw : AuthorizationList) :
    ∃ first last : Int, ∀ value now, InDateRange value → UtcMonth value now →
      (patchesCurrent hw (.finite value) = true ↔ first ≤ now ∧ now ≤ last) := by
  obtain ⟨a, b, os⟩ := patchCurrent_interval hw.osPatchLevel
  obtain ⟨c, d, vendor⟩ := patchCurrent_interval hw.vendorPatchLevel
  obtain ⟨e, f, boot⟩ := patchCurrent_interval hw.bootPatchLevel
  refine ⟨max a (max c e), min b (min d f), ?_⟩
  intro value now range inMonth
  simp only [patchesCurrent, List.all_cons, List.all_nil, Bool.and_true, Bool.and_eq_true,
    os value now range inMonth, vendor value now range inMonth, boot value now range inMonth]
  omega

/-- The window of the three patch levels, at every time in the range of dates: the levels that are
current in a month, the interval of months in which they are, and that a device which is no longer
current never is again. -/
theorem patch_window (hw : AuthorizationList) :
    (∀ value, ∃! now, UtcMonth value now) ∧
    (∀ value now, InDateRange value → UtcMonth value now →
      (patchesCurrent hw (.finite value) = true ↔
        ∀ level ∈ [hw.osPatchLevel, hw.vendorPatchLevel, hw.bootPatchLevel],
          ∃ n month, level = some n ∧ PatchLevel n month ∧ now - 12 ≤ month ∧ month ≤ now + 1)) ∧
    (∃ first last : Int, ∀ value now, InDateRange value → UtcMonth value now →
      (patchesCurrent hw (.finite value) = true ↔ first ≤ now ∧ now ≤ last)) ∧
    (∀ early later latest, InDateRange early → InDateRange later → InDateRange latest →
      early ≤ later → later ≤ latest → patchesCurrent hw (.finite early) = true →
      patchesCurrent hw (.finite later) = false → patchesCurrent hw (.finite latest) = false) := by
  refine ⟨existsUnique_utcMonth, ?_, patchesCurrent_interval hw, ?_⟩
  · intro value now range inMonth
    exact patchesCurrent_iff range inMonth hw
  · obtain ⟨first, last, window⟩ := patchesCurrent_interval hw
    intro early later latest earlyRange laterRange latestRange order orderToo current outdated
    obtain ⟨a, aMonth, -⟩ := existsUnique_utcMonth early
    obtain ⟨b, bMonth, -⟩ := existsUnique_utcMonth later
    obtain ⟨c, cMonth, -⟩ := existsUnique_utcMonth latest
    have inside := (window early a earlyRange aMonth).mp current
    have outside := (window later b laterRange bMonth).not.mp (by simp [outdated])
    have := aMonth.mono bMonth order
    have := bMonth.mono cMonth orderToo
    by_contra again
    have insideToo := (window latest c latestRange cMonth).mp (by simpa using again)
    omega

namespace Sample

/-- Patch levels of November and December 2024 and of January 2025. -/
def patched : AuthorizationList where
  purposes := none
  algorithms := none
  keySize := none
  digests := none
  ecCurve := none
  origin := none
  rootOfTrust := none
  osPatchLevel := some 202411
  attestationApplicationId := none
  vendorPatchLevel := some 20241205
  bootPatchLevel := some 20250101

end Sample

/-- Current at the end of 2024, a month before the last of the levels, and no longer in December
2025, more than twelve months after the first. -/
theorem patch_window_sample :
    patchesCurrent Sample.patched (.finite 1735689599999) = true ∧
      (∃ n month, Sample.patched.bootPatchLevel = some n ∧ PatchLevel n month ∧
        2024 * 12 + 11 - 12 ≤ month ∧ month ≤ 2024 * 12 + 11 + 1) ∧
      patchesCurrent Sample.patched (.finite 1764547200000) = false ∧
      patchesCurrent Sample.patched (.finite 1767225600000) = false := by
  obtain ⟨-, window, -, outdated⟩ := patch_window Sample.patched
  have current : patchesCurrent Sample.patched (.finite 1735689599999) = true := by
    decide +kernel
  have past : patchesCurrent Sample.patched (.finite 1764547200000) = false := by
    decide +kernel
  have ranges : InDateRange 1735689599999 ∧ InDateRange 1764547200000 ∧
      InDateRange 1767225600000 := by
    unfold InDateRange
    decide +kernel
  have december : UtcMonth 1735689599999 (2024 * 12 + 11) := by
    unfold UtcMonth Gregorian.InMonth
    decide +kernel
  refine ⟨current, ?_, past, ?_⟩
  · exact (window _ _ ranges.1 december).mp current _ (by simp)
  · exact outdated _ _ _ ranges.1 ranges.2.1 ranges.2.2 (by decide +kernel) (by decide +kernel)
      current past

end UncrackableL5

import Mathlib.Tactic.Linarith
import UncrackableL5.Js.Rounding
import UncrackableL5.Library.Scan
import UncrackableL5.Server.State

/-!
# The lifetime of a snapshot

A header of the feed says how long the feed may be reused. Its number and the Age are runs of
digits of any length, and both are rounded to doubles before they are subtracted.

## Main results

- `includesIgnoringCase_iff`, `maxAgeMatch_eq_some_iff`: what the patterns match.
- `snapshotTtl_eq`: the lifetime as a function of two natural numbers.
- `snapshot_lifetime`: the bounds hold unless both numbers overflow, or the max-age is rounded up
  by more than the Age.
-/
namespace UncrackableL5

/-! ### The header -/

theorem includesIgnoringCase_iff (s needle : JsString) :
    includesIgnoringCase s needle = true ↔ needle <:+: s.map asciiLower := by
  simp only [includesIgnoringCase, List.any_eq_true, List.mem_tails, List.isPrefixOf_iff_prefix]
  rw [List.infix_iff_prefix_suffix]
  constructor
  · rintro ⟨tail, ends, starts⟩
    exact ⟨tail.map asciiLower, starts, ends.map asciiLower⟩
  · rintro ⟨lowered, starts, lowerEnds⟩
    obtain ⟨tail, ends, rfl⟩ := List.suffix_map_iff.mp lowerEnds
    exact ⟨tail, ends, starts⟩

/-- After `before`, which is empty or ends in a comma, the header has white space, `max-age=` in
any letter case and a whole run of digits. -/
structure MaxAgeAt (header before digits : JsString) : Prop where
  start : before = [] ∨ ∃ earlier, before = earlier ++ js ","
  directive : ∃ spaces name after, header = before ++ (spaces ++ name ++ digits ++ after) ∧
    (∀ u ∈ spaces, isSpace u = true) ∧ name.map asciiLower = js "max-age=" ∧
    ∀ u rest, after = u :: rest → isDigitUnit u = false
  nonempty : digits ≠ []
  decimal : ∀ u ∈ digits, isDigitUnit u = true

/-- The first directive of the header has these digits. -/
def FirstMaxAge (header digits : JsString) : Prop :=
  ∃ before, MaxAgeAt header before digits ∧
    ∀ earlier others, MaxAgeAt header earlier others → before.length ≤ earlier.length

/-! ### The pattern -/

open Scan (takeWhile_run dropWhile_run dropWhile_ends)

theorem asciiLower_of_isSpace {u : UInt16} (space : isSpace u = true) : asciiLower u = u := by
  simp only [isSpace, Bool.or_eq_true, Bool.and_eq_true, decide_eq_true_eq, beq_iff_eq] at space
  rw [asciiLower, if_neg (by omega)]

private theorem name_starts {name after : JsString} (isName : name.map asciiLower = js "max-age=")
    (u : UInt16) (rest : JsString) (first : name ++ after = u :: rest) : isSpace u = false := by
  have letters : js "max-age=" = [109, 97, 120, 45, 97, 103, 101, 61] := by decide
  cases name with
  | nil => simp [letters] at isName
  | cons v tail =>
    obtain rfl : v = u := (List.cons.inj first).1
    rw [letters, List.map_cons] at isName
    cases space : isSpace v with
    | false => rfl
    | true =>
      have : v = 109 := (asciiLower_of_isSpace space).symm.trans (List.cons.inj isName).1
      subst this
      exact space.symm.trans (by decide)

theorem maxAgeDigits_eq_some_iff (s digits : JsString) :
    maxAgeDigits s = some digits ↔ ∃ spaces name after, s = spaces ++ name ++ digits ++ after ∧
      (∀ u ∈ spaces, isSpace u = true) ∧ name.map asciiLower = js "max-age=" ∧
      (∀ u rest, after = u :: rest → isDigitUnit u = false) ∧
      digits ≠ [] ∧ ∀ u ∈ digits, isDigitUnit u = true := by
  have size : (js "max-age=").length = 8 := by decide
  constructor
  · intro found
    simp only [maxAgeDigits] at found
    split at found
    next named =>
      split at found
      next => cases found
      next nonempty =>
        cases found
        obtain ⟨rest, starts⟩ := List.isPrefixOf_iff_prefix.mp named
        refine ⟨s.takeWhile isSpace, (s.dropWhile isSpace).take (js "max-age=").length,
          ((s.dropWhile isSpace).drop (js "max-age=").length).dropWhile isDigitUnit, ?_,
          fun u => List.mem_takeWhile_imp, ?_, dropWhile_ends isDigitUnit _, nonempty,
          fun u => List.mem_takeWhile_imp⟩
        · rw [List.append_assoc, List.takeWhile_append_dropWhile, List.append_assoc,
            List.take_append_drop, List.takeWhile_append_dropWhile]
        · rw [List.map_take, ← starts, List.take_left]
    next => cases found
  · rintro ⟨spaces, name, after, rfl, white, isName, ends, nonempty, decimal⟩
    have length : (js "max-age=").length = name.length := by rw [← isName, List.length_map]
    have left :
        (spaces ++ name ++ digits ++ after).dropWhile isSpace = name ++ (digits ++ after) := by
      rw [List.append_assoc, List.append_assoc]
      exact dropWhile_run white (name_starts isName)
    simp only [maxAgeDigits, left, length, List.drop_left, takeWhile_run decimal ends, nonempty]
    rw [if_pos, if_neg (by simp)]
    rw [List.isPrefixOf_iff_prefix, List.map_append, isName]
    exact List.prefix_append ..

theorem mem_afterCommas (s rest : JsString) :
    rest ∈ afterCommas s ↔ ∃ earlier, s = earlier ++ js "," ++ rest := by
  have comma : js "," = [44] := by decide
  induction s with
  | nil => simp [afterCommas, comma]
  | cons u s ih =>
    have further : (∃ earlier, u :: s = earlier ++ js "," ++ rest) ↔
        (u = 44 ∧ s = rest) ∨ ∃ earlier, s = earlier ++ js "," ++ rest := by
      rw [comma]
      constructor
      · rintro ⟨earlier, split⟩
        cases earlier with
        | nil => exact .inl (by simpa using split)
        | cons v earlier => exact .inr ⟨earlier, by simpa using (List.cons.inj split).2⟩
      · rintro (⟨rfl, rfl⟩ | ⟨earlier, rfl⟩)
        · exact ⟨[], rfl⟩
        · exact ⟨u :: earlier, rfl⟩
    rw [further, afterCommas]
    split
    next isComma => simp [isComma, ih, eq_comm]
    next other => simp [other, ih]

theorem afterCommas_length {s rest : JsString} (member : rest ∈ afterCommas s) :
    rest.length < s.length := by
  obtain ⟨earlier, rfl⟩ := (mem_afterCommas s rest).mp member
  have comma : (js ",").length = 1 := by decide
  simp only [List.length_append, comma]
  omega

/-- The places where the pattern can match, the longest rest first. -/
theorem places_sorted (s : JsString) :
    (s :: afterCommas s).Pairwise fun first later => later.length < first.length := by
  rw [List.pairwise_cons]
  refine ⟨fun rest => afterCommas_length, ?_⟩
  induction s with
  | nil => exact .nil
  | cons u s ih =>
    rw [afterCommas]
    split
    next => exact List.pairwise_cons.mpr ⟨fun rest => afterCommas_length, ih⟩
    next => exact ih

theorem maxAgeAt_iff (header before digits : JsString) :
    MaxAgeAt header before digits ↔ ∃ rest, header = before ++ rest ∧
      rest ∈ header :: afterCommas header ∧ maxAgeDigits rest = some digits := by
  simp only [maxAgeDigits_eq_some_iff, List.mem_cons, mem_afterCommas]
  constructor
  · rintro ⟨start, ⟨spaces, name, after, split, white, isName, ends⟩, nonempty, decimal⟩
    refine ⟨_, split, ?_, spaces, name, after, rfl, white, isName, ends, nonempty, decimal⟩
    rcases start with rfl | ⟨earlier, rfl⟩
    · exact .inl (by simpa using split.symm)
    · exact .inr ⟨earlier, split⟩
  · rintro ⟨rest, split, place, spaces, name, after, rfl, white, isName, ends, nonempty, decimal⟩
    refine ⟨?_, ⟨spaces, name, after, split, white, isName, ends⟩, nonempty, decimal⟩
    rcases place with whole | ⟨earlier, found⟩
    · rw [whole] at split
      exact .inl (List.append_cancel_right (show before ++ header = [] ++ header from split.symm))
    · exact .inr ⟨earlier, List.append_cancel_right (split.symm.trans found)⟩

theorem place_splits {header rest : JsString} (place : rest ∈ header :: afterCommas header) :
    ∃ before, header = before ++ rest := by
  rcases List.mem_cons.mp place with rfl | later
  · exact ⟨[], rfl⟩
  · obtain ⟨earlier, split⟩ := (mem_afterCommas header rest).mp later
    exact ⟨_, split⟩

/-- The pattern finds the first directive. -/
theorem maxAgeMatch_eq_some_iff (header digits : JsString) :
    maxAgeMatch header = some digits ↔ FirstMaxAge header digits := by
  have sorted := places_sorted header
  constructor
  · intro found
    obtain ⟨passed, rest, left, places, here, none⟩ := List.findSome?_eq_some_iff.mp found
    have place : rest ∈ header :: afterCommas header := by simp [places]
    obtain ⟨before, split⟩ := place_splits place
    refine ⟨before, (maxAgeAt_iff ..).mpr ⟨rest, split, place, here⟩, ?_⟩
    intro earlier others other
    obtain ⟨rest', split', place', there⟩ := (maxAgeAt_iff ..).mp other
    rw [places] at sorted place'
    have shorter : rest'.length ≤ rest.length := by
      rcases List.mem_append.mp place' with first | after
      · rw [none rest' first] at there
        cases there
      · rcases List.mem_cons.mp after with rfl | after
        · exact le_rfl
        · exact ((List.pairwise_cons.mp (List.pairwise_append.mp sorted).2.1).1 rest' after).le
    have := congrArg List.length split
    have := congrArg List.length split'
    simp only [List.length_append] at *
    omega
  · rintro ⟨before, at_before, first⟩
    obtain ⟨rest, split, place, here⟩ := (maxAgeAt_iff ..).mp at_before
    obtain ⟨passed, left, places⟩ := List.append_of_mem place
    rw [maxAgeMatch, List.findSome?_eq_some_iff]
    refine ⟨passed, rest, left, places, here, ?_⟩
    intro rest' member
    have longer : rest.length < rest'.length := by
      rw [places] at sorted
      exact (List.pairwise_append.mp sorted).2.2 rest' member rest (by simp)
    have place' : rest' ∈ header :: afterCommas header := by simp [places, member]
    obtain ⟨earlier, split'⟩ := place_splits place'
    cases there : maxAgeDigits rest' with
    | none => rfl
    | some others =>
      have := first earlier others ((maxAgeAt_iff ..).mpr ⟨rest', split', place', there⟩)
      have := congrArg List.length split
      have := congrArg List.length split'
      simp only [List.length_append] at *
      omega

/-! ### The computation -/

open Number (overflow surplus)

/-- The number of the first directive, 300 where there is none. -/
def originSeconds (header : JsString) : Nat :=
  match maxAgeMatch header with
  | some digits => decimalNumber digits
  | none => 300

/-- The number of an Age that is a run of digits, 0 for any other. -/
def ageSeconds (age : Option JsString) : Nat :=
  match age with
  | some text =>
    if trim text ≠ [] ∧ (trim text).all isDigitUnit then decimalNumber (trim text) else 0
  | none => 0

/-- `originMaxAge` -/
def originMaxAge (header : JsString) : Number :=
  match maxAgeMatch header with
  | some digits => numberOfDigits digits
  | none => maxTtlSeconds

/-- `parsedAge` -/
def parsedAge (age : Option JsString) : Number :=
  match age with
  | some text =>
    if trim text ≠ [] ∧ (trim text).all isDigitUnit then numberOfDigits (trim text) else .finite 0
  | none => .finite 0

/-- `remaining <= 0 ? 0 : Math.min(remaining, MAX_TTL_SECONDS)` -/
def clampTtl (remaining : Number) : Number :=
  if remaining ≤ .finite 0 then .finite 0 else Number.min remaining maxTtlSeconds

/-- `remaining`, from the numbers before they are rounded. -/
def remainingSeconds (maxAge age : Nat) : Number := (Number.round maxAge).sub (Number.round age)

theorem originMaxAge_eq (header : JsString) :
    originMaxAge header = Number.round (originSeconds header) := by
  rw [originMaxAge, originSeconds]
  cases maxAgeMatch header with
  | none => decide +kernel
  | some digits => rfl

theorem parsedAge_eq (age : Option JsString) : parsedAge age = Number.round (ageSeconds age) := by
  cases age with
  | none => rfl
  | some text =>
    simp only [parsedAge, ageSeconds]
    split <;> rfl

/-- The header forbids caching, in any letter case and position. -/
def Uncacheable (header : JsString) : Prop :=
  js "no-cache" <:+: header.map asciiLower ∨ js "no-store" <:+: header.map asciiLower

theorem uncacheable_iff (header : JsString) :
    (includesIgnoringCase header (js "no-cache") ∨ includesIgnoringCase header (js "no-store")) ↔
      Uncacheable header := by
  simp only [includesIgnoringCase_iff, Uncacheable]

theorem snapshotTtl_of_uncacheable {cacheControl : Option JsString} (age : Option JsString)
    (forbidden : Uncacheable (cacheControl.getD [])) :
    snapshotTtl cacheControl age = .finite 0 :=
  if_pos ((uncacheable_iff _).mpr forbidden)

theorem snapshotTtl_eq {cacheControl : Option JsString} (age : Option JsString)
    (allowed : ¬Uncacheable (cacheControl.getD [])) :
    snapshotTtl cacheControl age =
      clampTtl (remainingSeconds (originSeconds (cacheControl.getD [])) (ageSeconds age)) := by
  have last : snapshotTtl cacheControl age =
      clampTtl ((originMaxAge (cacheControl.getD [])).sub
        (Number.max (.finite 0) (parsedAge age))) :=
    if_neg (mt (uncacheable_iff _).mp allowed)
  rw [last, originMaxAge_eq, parsedAge_eq, Number.max_eq_right, remainingSeconds]
  exact Number.round_nonneg (by positivity)

/-! ### The last line -/

@[simp] theorem clampTtl_nan : clampTtl .nan = .nan := by decide

@[simp] theorem clampTtl_negInfinity : clampTtl .negInfinity = .finite 0 := by decide

@[simp] theorem clampTtl_posInfinity : clampTtl .posInfinity = .finite 300 := by decide

@[simp] theorem clampTtl_finite (q : ℚ) : clampTtl (.finite q) = .finite (max 0 (min q 300)) := by
  simp only [clampTtl, maxTtlSeconds, Number.min, Number.finite_le_finite,
    Number.finite_lt_finite]
  by_cases below : q ≤ 0
  · rw [if_pos below, max_eq_left ((min_le_left q 300).trans below)]
  · rw [if_neg below, if_neg (by simp)]
    split
    next above => rw [min_eq_right above.le, max_eq_right (by norm_num)]
    next within => rw [min_eq_left (not_lt.mp within), max_eq_right (not_le.mp below).le]

theorem clampTtl_range {remaining : Number} (number : remaining ≠ .nan) :
    ∃ q : ℚ, clampTtl remaining = .finite q ∧ 0 ≤ q ∧ q ≤ 300 := by
  cases remaining with
  | nan => exact absurd rfl number
  | negInfinity => exact ⟨0, by simp⟩
  | finite q => exact ⟨max 0 (min q 300), by simp⟩
  | posInfinity => exact ⟨300, by simp⟩

theorem clampTtl_mono {a b : Number} (order : a ≤ b) : clampTtl a ≤ clampTtl b := by
  cases a with
  | finite q =>
    cases b with
    | finite r =>
      rw [Number.finite_le_finite] at order
      rw [clampTtl_finite, clampTtl_finite, Number.finite_le_finite]
      exact max_le_max_left 0 (min_le_min_right 300 order)
    | _ => simp_all
  | _ => cases b <;> simp_all

/-! ### The difference -/

theorem remainingSeconds_of_lt {maxAge age : Nat} (first : maxAge < overflow)
    (second : age < overflow) :
    remainingSeconds maxAge age =
      Number.round ((maxAge + surplus maxAge - (age + surplus age) : Int) : ℚ) := by
  rw [remainingSeconds, Number.round_natCast first, Number.round_natCast second, Number.sub,
    Number.neg, Number.add, ← sub_eq_add_neg, ← Int.cast_sub]

theorem remainingSeconds_of_overflow {maxAge age : Nat} (first : overflow ≤ maxAge) :
    remainingSeconds maxAge age = if overflow ≤ age then .nan else .posInfinity := by
  rw [remainingSeconds, (Number.round_natCast_eq_posInfinity_iff maxAge).mpr first]
  split
  next second => rw [(Number.round_natCast_eq_posInfinity_iff age).mpr second]; rfl
  next second => rw [Number.round_natCast (not_le.mp second)]; rfl

theorem remainingSeconds_of_old {maxAge age : Nat} (first : maxAge < overflow)
    (second : overflow ≤ age) : remainingSeconds maxAge age = .negInfinity := by
  rw [remainingSeconds, (Number.round_natCast_eq_posInfinity_iff age).mpr second,
    Number.round_natCast first]
  rfl

/-- Rounding keeps the order of the two numbers. -/
theorem add_surplus_le {maxAge age : Nat} (order : maxAge ≤ age) (bound : age < overflow) :
    maxAge + surplus maxAge ≤ age + surplus age := by
  have rounded := Number.round_mono (show (maxAge : ℚ) ≤ age by exact_mod_cast order)
  rw [Number.round_natCast (order.trans_lt bound), Number.round_natCast bound,
    Number.finite_le_finite] at rounded
  exact_mod_cast rounded

/-- Nothing is left of a max-age that the Age has reached. -/
theorem clampTtl_of_stale {maxAge age : Nat} (finite : maxAge < overflow)
    (stale : maxAge ≤ age) : clampTtl (remainingSeconds maxAge age) = .finite 0 := by
  rcases Nat.lt_or_ge age overflow with fits | beyond
  · have := add_surplus_le stale fits
    rw [remainingSeconds_of_lt finite fits]
    exact if_pos (Number.round_nonpos (by exact_mod_cast (by omega)))
  · rw [remainingSeconds_of_old finite beyond, clampTtl_negInfinity]

private theorem clampTtl_whole {n : Int} (nonneg : 0 ≤ n) (within : n ≤ 300) :
    clampTtl (Number.round n) = (n : Number) := by
  have low : (0 : ℚ) ≤ n := by exact_mod_cast nonneg
  have high : (n : ℚ) ≤ 300 := by exact_mod_cast within
  rw [Number.round_intCast n (by omega), clampTtl_finite, min_eq_left high, max_eq_right low,
    Number.intCast_def]

/-- A lifetime of less than 300 seconds is no longer than the difference when rounding does not
widen it. -/
theorem clampTtl_le_difference {maxAge age : Nat} (finite : maxAge < overflow)
    (fresh : age < maxAge) (near : maxAge < age + 300) (kept : surplus maxAge ≤ surplus age) :
    clampTtl (remainingSeconds maxAge age) ≤ ((maxAge - age : Int) : Number) := by
  rw [remainingSeconds_of_lt finite (fresh.trans finite), ← clampTtl_whole (by omega) (by omega)]
  exact clampTtl_mono (Number.round_mono (Int.cast_le.mpr (by omega)))

/-- It is at least a second too long when rounding does. -/
theorem difference_lt_clampTtl {maxAge age : Nat} (finite : maxAge < overflow)
    (fresh : age < maxAge) (near : maxAge < age + 300) (widened : surplus age < surplus maxAge) :
    ((maxAge - age + 1 : Int) : Number) ≤ clampTtl (remainingSeconds maxAge age) := by
  rw [remainingSeconds_of_lt finite (fresh.trans finite), ← clampTtl_whole (by omega) (by omega)]
  exact clampTtl_mono (Number.round_mono (Int.cast_le.mpr (by omega)))

/-! ### The bounds -/

/-- What the lifetime of a snapshot owes to the headers of the feed. -/
structure LifetimeBound (cacheControl age : Option JsString) : Prop where
  number : ∃ q : ℚ, snapshotTtl cacheControl age = .finite q ∧ 0 ≤ q ∧ q ≤ 300
  forbidden : Uncacheable (cacheControl.getD []) → snapshotTtl cacheControl age = .finite 0
  origin : ∀ digits, FirstMaxAge (cacheControl.getD []) digits →
    ageSeconds age < decimalNumber digits →
    snapshotTtl cacheControl age ≤ ((decimalNumber digits - ageSeconds age : Int) : Number)
  stale : ∀ digits, FirstMaxAge (cacheControl.getD []) digits →
    decimalNumber digits ≤ ageSeconds age → snapshotTtl cacheControl age = .finite 0
  older : ∀ later, ageSeconds age ≤ ageSeconds later →
    ¬snapshotTtl cacheControl age < snapshotTtl cacheControl later
  expiry : ∀ (response : Response) (nowSeconds : Number), response.cacheControl = cacheControl →
    response.age = age → nowSeconds ≠ .nan → nowSeconds.IsDouble →
    nowSeconds ≤ snapshotExpiry response nowSeconds ∧
      snapshotExpiry response nowSeconds ≤ nowSeconds.add maxTtlSeconds

/-- The numbers of the two headers do not both overflow, and rounding them to 53 significant bits
does not widen a difference below 300. -/
structure FitsDoubles (maxAge age : Nat) : Prop where
  finite : overflow ≤ maxAge → age < overflow ∧ age + 300 ≤ maxAge
  kept : age < maxAge → maxAge < age + 300 → surplus maxAge ≤ surplus age

theorem originSeconds_of_first {header digits : JsString} (first : FirstMaxAge header digits) :
    originSeconds header = decimalNumber digits := by
  rw [originSeconds, (maxAgeMatch_eq_some_iff header digits).mpr first]

/-- A snapshot expires between now and 300 seconds from now, in the arithmetic of the code. -/
theorem snapshotExpiry_bounds {response : Response} {nowSeconds : Number} {q : ℚ}
    (ttl : snapshotTtl response.cacheControl response.age = .finite q) (nonneg : 0 ≤ q)
    (within : q ≤ 300) (number : nowSeconds ≠ .nan) (double : nowSeconds.IsDouble) :
    nowSeconds ≤ snapshotExpiry response nowSeconds ∧
      snapshotExpiry response nowSeconds ≤ nowSeconds.add maxTtlSeconds := by
  have clamped : snapshotExpiry response nowSeconds = nowSeconds.add (.finite q) := by
    rw [snapshotExpiry, ttl, Number.max_eq_right (by simpa using nonneg),
      Number.min_eq_right (by simpa [maxTtlSeconds] using within)]
  rw [clamped]
  cases nowSeconds with
  | nan => exact absurd rfl number
  | finite now =>
    simp only [Number.add, maxTtlSeconds]
    constructor
    · rw [← double now rfl]
      exact Number.round_mono (by linarith)
    · exact Number.round_mono (by linarith)
  | _ => simp [Number.add, maxTtlSeconds]

/-- Within the bounds, the numbers of the two headers fit into doubles. -/
theorem LifetimeBound.fits {cacheControl age : Option JsString} {digits : JsString}
    (bound : LifetimeBound cacheControl age) (allowed : ¬Uncacheable (cacheControl.getD []))
    (first : FirstMaxAge (cacheControl.getD []) digits) :
    FitsDoubles (decimalNumber digits) (ageSeconds age) := by
  have ttl := snapshotTtl_eq age allowed
  rw [originSeconds_of_first first] at ttl
  obtain ⟨q, number, -, -⟩ := bound.number
  have origin := bound.origin digits first
  rw [ttl] at number origin
  have finite : overflow ≤ decimalNumber digits → ageSeconds age < overflow ∧
      ageSeconds age + 300 ≤ decimalNumber digits := by
    intro beyond
    rw [remainingSeconds_of_overflow beyond] at number origin
    by_cases both : overflow ≤ ageSeconds age
    · simp [if_pos both] at number
    · rw [if_neg both, clampTtl_posInfinity, Number.intCast_def, Number.finite_le_finite] at origin
      have far : (300 : Int) ≤ decimalNumber digits - ageSeconds age := by
        exact_mod_cast origin (by omega)
      omega
  refine ⟨finite, fun fresh near => ?_⟩
  by_contra widened
  have fits : decimalNumber digits < overflow := by
    by_contra beyond
    have := finite (not_lt.mp beyond)
    omega
  have above := difference_lt_clampTtl fits fresh near (not_le.mp widened)
  have := (Number.intCast_le _ _).mp (Number.le_trans above (origin fresh))
  omega

theorem lifetimeBound_of_uncacheable {cacheControl : Option JsString} (age : Option JsString)
    (forbidden : Uncacheable (cacheControl.getD [])) : LifetimeBound cacheControl age where
  number := ⟨0, snapshotTtl_of_uncacheable age forbidden, le_rfl, by norm_num⟩
  forbidden _ := snapshotTtl_of_uncacheable age forbidden
  origin digits _ fresh := by
    rw [snapshotTtl_of_uncacheable age forbidden, Number.intCast_def, Number.finite_le_finite]
    exact Int.cast_nonneg (by omega)
  stale _ _ _ := snapshotTtl_of_uncacheable age forbidden
  older later _ := by
    rw [snapshotTtl_of_uncacheable age forbidden, snapshotTtl_of_uncacheable later forbidden]
    decide
  expiry response nowSeconds sameHeader sameAge number double := by
    subst sameHeader sameAge
    exact snapshotExpiry_bounds (snapshotTtl_of_uncacheable _ forbidden) le_rfl (by norm_num) number
      double

private theorem remainingSeconds_ne_nan {header : JsString} {age : Nat}
    (fits : ∀ digits, FirstMaxAge header digits → FitsDoubles (decimalNumber digits) age) :
    remainingSeconds (originSeconds header) age ≠ .nan := by
  rcases Nat.lt_or_ge (originSeconds header) overflow with finite | beyond
  · rcases Nat.lt_or_ge age overflow with young | old
    · rw [remainingSeconds_of_lt finite young]
      exact Number.round_ne_nan _
    · simp [remainingSeconds_of_old finite old]
  · cases found : maxAgeMatch header with
    | none =>
      have default : originSeconds header = 300 := by rw [originSeconds, found]
      rw [default] at beyond
      exact absurd beyond (by decide +kernel)
    | some digits =>
      have first := (maxAgeMatch_eq_some_iff header digits).mp found
      rw [originSeconds_of_first first] at beyond ⊢
      have young := ((fits digits first).finite beyond).1
      simp [remainingSeconds_of_overflow beyond, not_le.mpr young]

/-- An older copy has no longer lifetime. -/
theorem not_clampTtl_lt (maxAge : Nat) {age later : Nat} (older : age ≤ later) :
    ¬clampTtl (remainingSeconds maxAge age) < clampTtl (remainingSeconds maxAge later) := by
  have ages := Number.round_mono (show (age : ℚ) ≤ later by exact_mod_cast older)
  have less := Number.not_sub_lt_sub (Number.round maxAge) ages
  by_cases none : remainingSeconds maxAge age = .nan
  · simp [none]
  · by_cases none' : remainingSeconds maxAge later = .nan
    · simp [none']
    · have order := (Number.le_iff _ _).mpr ⟨less, none', none⟩
      exact ((Number.le_iff _ _).mp (clampTtl_mono order)).1

theorem lifetimeBound_of_fits {cacheControl age : Option JsString}
    (allowed : ¬Uncacheable (cacheControl.getD []))
    (fits : ∀ digits, FirstMaxAge (cacheControl.getD []) digits →
      FitsDoubles (decimalNumber digits) (ageSeconds age)) : LifetimeBound cacheControl age := by
  have ttl := fun age => snapshotTtl_eq age allowed
  obtain ⟨q, value, nonneg, within⟩ := clampTtl_range (remainingSeconds_ne_nan fits)
  rw [← ttl] at value
  have first : ∀ digits, FirstMaxAge (cacheControl.getD []) digits →
      snapshotTtl cacheControl age =
        clampTtl (remainingSeconds (decimalNumber digits) (ageSeconds age)) := by
    intro digits first
    rw [ttl, originSeconds_of_first first]
  refine ⟨⟨q, value, nonneg, within⟩, fun forbidden => absurd forbidden allowed, ?_, ?_, ?_, ?_⟩
  · intro digits isFirst fresh
    have fit := fits digits isFirst
    rcases Nat.lt_or_ge (decimalNumber digits) (ageSeconds age + 300) with near | far
    · rw [first digits isFirst]
      apply clampTtl_le_difference _ fresh near (fit.kept fresh near)
      by_contra beyond
      have := fit.finite (not_lt.mp beyond)
      omega
    · have far : (300 : Int) ≤ decimalNumber digits - ageSeconds age := by omega
      rw [value, Number.intCast_def, Number.finite_le_finite]
      calc q ≤ ((300 : Int) : ℚ) := by exact_mod_cast within
        _ ≤ ((decimalNumber digits - ageSeconds age : Int) : ℚ) := Int.cast_le.mpr far
  · intro digits isFirst stale
    rw [first digits isFirst]
    apply clampTtl_of_stale _ stale
    by_contra beyond
    have := (fits digits isFirst).finite (not_lt.mp beyond)
    omega
  · intro later passed
    rw [ttl, ttl]
    exact not_clampTtl_lt _ passed
  · intro response nowSeconds sameHeader sameAge known double
    subst sameHeader sameAge
    exact snapshotExpiry_bounds value nonneg within known double

/-- The bounds hold exactly when the header forbids caching, has no directive, or has one whose
number and the Age are kept apart by rounding as they are. -/
theorem snapshot_lifetime (cacheControl age : Option JsString) :
    LifetimeBound cacheControl age ↔
      Uncacheable (cacheControl.getD []) ∨
        ∀ digits, FirstMaxAge (cacheControl.getD []) digits →
          FitsDoubles (decimalNumber digits) (ageSeconds age) := by
  by_cases forbidden : Uncacheable (cacheControl.getD [])
  · exact iff_of_true (lifetimeBound_of_uncacheable age forbidden) (.inl forbidden)
  · constructor
    · intro bound
      exact .inr fun digits first => bound.fits forbidden first
    · rintro (forbidden' | fits)
      · exact absurd forbidden' forbidden
      · exact lifetimeBound_of_fits forbidden fits

/-- Two numbers of 310 digits leave `NaN`, and two of 16 digits a lifetime of 4 seconds where 2 are
left. -/
theorem snapshot_lifetime_rounded :
    ¬LifetimeBound (some (js "max-age=1" ++ List.replicate 309 48))
        (some (js "1" ++ List.replicate 309 48)) ∧
      ¬LifetimeBound (some (js "max-age=9007199254740995")) (some (js "9007199254740993")) := by
  constructor
  · intro bound
    obtain ⟨q, number, -, -⟩ := bound.number
    have infinite : snapshotTtl (some (js "max-age=1" ++ List.replicate 309 48))
        (some (js "1" ++ List.replicate 309 48)) = .nan := by decide +kernel
    rw [infinite] at number
    cases number
  · intro bound
    have first := (maxAgeMatch_eq_some_iff (js "max-age=9007199254740995")
      (js "9007199254740995")).mp (by decide +kernel)
    have left := bound.origin _ first (by decide +kernel)
    have four : snapshotTtl (some (js "max-age=9007199254740995")) (some (js "9007199254740993")) =
        .finite 4 := by decide +kernel
    rw [four] at left
    exact absurd left (by decide +kernel)

end UncrackableL5

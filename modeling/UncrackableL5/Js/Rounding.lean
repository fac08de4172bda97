import Mathlib.Tactic.Linarith
import Mathlib.Tactic.Ring
import UncrackableL5.Js.Number

/-!
# Rounding to doubles

Rounding to the nearest double keeps the order of rationals, and a number that came out of it is
rounded to itself.

## Main results

- `leadingBit_spec`: a positive rational lies between the power of its leading bit and the next.
- `round_mono`: rounding is monotone, overflow included.
- `round_round`, `floor_isDouble`: a rounded number is a double, and so is its floor.
- `round_eq_posInfinity_iff`: where rounding overflows.
-/
namespace UncrackableL5.Number

/-- A quotient lies within a factor of two of the quotient of the leading powers. -/
private theorem leadingBit_bounds {n d : Nat} (numPos : n ≠ 0) (denPos : d ≠ 0) :
    (2 : ℚ) ^ ((n.log2 : Int) - d.log2 - 1) ≤ n / d ∧
      (n : ℚ) / d < 2 ^ ((n.log2 : Int) - d.log2 + 1) := by
  have positive : (0 : ℚ) < d := by exact_mod_cast Nat.pos_of_ne_zero denPos
  have numLow : (2 : ℚ) ^ (n.log2 : Int) ≤ n := by
    rw [zpow_natCast]
    exact_mod_cast Nat.log2_self_le numPos
  have numHigh : (n : ℚ) < 2 ^ ((n.log2 : Int) + 1) := by
    rw [← Nat.cast_succ, zpow_natCast]
    exact_mod_cast Nat.lt_log2_self
  have denLow : (2 : ℚ) ^ (d.log2 : Int) ≤ d := by
    rw [zpow_natCast]
    exact_mod_cast Nat.log2_self_le denPos
  have denHigh : (d : ℚ) < 2 ^ ((d.log2 : Int) + 1) := by
    rw [← Nat.cast_succ, zpow_natCast]
    exact_mod_cast Nat.lt_log2_self
  constructor
  · rw [le_div_iff₀ positive]
    calc (2 : ℚ) ^ ((n.log2 : Int) - d.log2 - 1) * d
        ≤ 2 ^ ((n.log2 : Int) - d.log2 - 1) * 2 ^ ((d.log2 : Int) + 1) :=
          mul_le_mul_of_nonneg_left denHigh.le (by positivity)
      _ = 2 ^ (n.log2 : Int) := by
          rw [← zpow_add₀ (by norm_num)]
          congr 1
          ring
      _ ≤ n := numLow
  · rw [div_lt_iff₀ positive]
    calc (n : ℚ) < 2 ^ ((n.log2 : Int) + 1) := numHigh
      _ = 2 ^ ((n.log2 : Int) - d.log2 + 1) * 2 ^ (d.log2 : Int) := by
          rw [← zpow_add₀ (by norm_num)]
          congr 1
          ring
      _ ≤ 2 ^ ((n.log2 : Int) - d.log2 + 1) * d :=
          mul_le_mul_of_nonneg_left denLow (by positivity)

theorem leadingBit_spec {q : ℚ} (positive : 0 < q) :
    (2 : ℚ) ^ leadingBit q ≤ q ∧ q < 2 ^ (leadingBit q + 1) := by
  obtain ⟨n, isNum⟩ : ∃ n : Nat, q.num = n := Int.eq_ofNat_of_zero_le (Rat.num_pos.mpr positive).le
  have numPos : n ≠ 0 := by
    rintro rfl
    exact absurd (Rat.num_pos.mpr positive) (by rw [isNum]; simp)
  have fraction : (n : ℚ) / q.den = q := by
    calc (n : ℚ) / q.den = (q.num : ℚ) / q.den := by rw [isNum, Int.cast_natCast]
      _ = q := Rat.num_div_den q
  obtain ⟨low, high⟩ := leadingBit_bounds numPos q.den_pos.ne'
  rw [fraction] at low high
  simp only [leadingBit, isNum, Int.natAbs_natCast]
  split
  next below => exact ⟨low, by rwa [sub_add_cancel]⟩
  next above => exact ⟨not_lt.mp above, high⟩

theorem leadingBit_lt {q : ℚ} {e : Int} (positive : 0 < q) (bound : q < 2 ^ e) :
    leadingBit q < e :=
  (zpow_lt_zpow_iff_right₀ one_lt_two).mp ((leadingBit_spec positive).1.trans_lt bound)

theorem leadingBit_mono {a b : ℚ} (positive : 0 < a) (order : a ≤ b) :
    leadingBit a ≤ leadingBit b := by
  have := leadingBit_lt positive (order.trans_lt (leadingBit_spec (positive.trans_le order)).2)
  omega

/-! ### Half-even rounding -/

theorem floor_le_roundHalfEven (q : ℚ) : ⌊q⌋ ≤ roundHalfEven q := by
  rw [roundHalfEven]
  split_ifs <;> omega

theorem roundHalfEven_le_floor (q : ℚ) : roundHalfEven q ≤ ⌊q⌋ + 1 := by
  rw [roundHalfEven]
  split_ifs <;> omega

/-- It rounds up past the middle, and in the middle of an odd integer and the next. -/
theorem roundHalfEven_eq_floor_iff (q : ℚ) :
    roundHalfEven q = ⌊q⌋ ↔ q - ⌊q⌋ < 1 / 2 ∨ q - ⌊q⌋ = 1 / 2 ∧ ⌊q⌋ % 2 = 0 := by
  simp only [roundHalfEven]
  split_ifs with low tie
  · exact iff_of_true rfl (.inl low)
  · exact iff_of_true rfl (.inr tie)
  · simp only [low, tie, or_self, iff_false]
    omega

theorem roundHalfEven_le_add_half (q : ℚ) : (roundHalfEven q : ℚ) ≤ q + 1 / 2 := by
  have floor := Int.floor_le q
  simp only [roundHalfEven]
  split_ifs with low tie
  · linarith
  · linarith
  · push_cast
    linarith

theorem roundHalfEven_mono {a b : ℚ} (order : a ≤ b) : roundHalfEven a ≤ roundHalfEven b := by
  have aboveFloor := floor_le_roundHalfEven b
  have belowNext := roundHalfEven_le_floor a
  rcases (Int.floor_le_floor order).lt_or_eq with apart | same
  · omega
  · -- Between the same integers the fractions decide.
    have fractions : a - ⌊a⌋ ≤ b - ⌊b⌋ := by
      rw [same]
      linarith
    by_cases down : roundHalfEven b = ⌊b⌋
    · have : roundHalfEven a = ⌊a⌋ := by
        rw [roundHalfEven_eq_floor_iff] at down ⊢
        rcases down with low | ⟨half, even⟩
        · exact .inl (fractions.trans_lt low)
        · rcases (half ▸ fractions).lt_or_eq with low | tie
          · exact .inl low
          · exact .inr ⟨tie, same ▸ even⟩
      omega
    · omega

/-! ### The grid of doubles -/

/-- The exponent of the last place of the doubles around a positive rational. -/
def lastPlace (q : ℚ) : Int := Max.max (leadingBit q - 52) (-1074)

/-- What a positive rational is rounded to, before it is compared with the largest double. -/
def magnitude (q : ℚ) : ℚ := roundHalfEven (q / 2 ^ lastPlace q) * 2 ^ lastPlace q

theorem round_of_pos {q : ℚ} (positive : 0 < q) :
    round q = if magnitude q < 2 ^ 1024 then .finite (magnitude q) else .posInfinity := by
  simp only [round, if_neg positive.ne', abs_of_pos positive, if_neg positive.not_gt]
  rfl

theorem round_ne_nan (q : ℚ) : round q ≠ .nan := by
  simp only [round]
  split_ifs <;> simp

theorem round_neg (q : ℚ) : round (-q) = neg (round q) := by
  rcases lt_trichotomy q 0 with below | zero | above
  · simp only [round, neg_eq_zero, if_neg below.ne, abs_neg, if_pos below,
      if_neg (neg_pos.mpr below).not_gt]
    split <;> simp [neg]
  · subst zero
    simp [round, neg]
  · simp only [round, neg_eq_zero, if_neg above.ne', abs_neg, if_neg above.not_gt,
      if_pos (neg_neg_of_pos above)]
    split <;> simp [neg]

/-- A multiple of the last place that is not below a rational is not below its magnitude. -/
theorem magnitude_le {q : ℚ} {n : Int} (bound : q ≤ n * 2 ^ lastPlace q) :
    magnitude q ≤ n * 2 ^ lastPlace q := by
  have below : roundHalfEven (q / 2 ^ lastPlace q) ≤ n := by
    rw [← roundHalfEven_intCast n]
    exact roundHalfEven_mono ((div_le_iff₀ (by positivity)).mpr bound)
  exact mul_le_mul_of_nonneg_right (by exact_mod_cast below) (by positivity)

theorem le_magnitude {q : ℚ} {n : Int} (bound : n * 2 ^ lastPlace q ≤ q) :
    n * 2 ^ lastPlace q ≤ magnitude q := by
  have above : n ≤ roundHalfEven (q / 2 ^ lastPlace q) := by
    rw [← roundHalfEven_intCast n]
    exact roundHalfEven_mono ((le_div_iff₀ (by positivity)).mpr bound)
  exact mul_le_mul_of_nonneg_right (by exact_mod_cast above) (by positivity)

theorem magnitude_nonneg {q : ℚ} (positive : 0 < q) : 0 ≤ magnitude q := by
  simpa using le_magnitude (q := q) (n := 0) (by simpa using positive.le)

/-- A power of two from the last place on is a multiple of it. -/
private theorem pow_multiple {place e : Int} (above : place ≤ e) :
    (2 : ℚ) ^ e = ((2 ^ (e - place).toNat : Int) : ℚ) * 2 ^ place := by
  rw [Int.cast_pow, Int.cast_ofNat, ← zpow_natCast, ← zpow_add₀ (by norm_num)]
  congr 1
  omega

theorem magnitude_mono {a b : ℚ} (positive : 0 < a) (order : a ≤ b) :
    magnitude a ≤ magnitude b := by
  have leading := leadingBit_mono positive order
  by_cases same : lastPlace a = lastPlace b
  · simp only [magnitude, same]
    have := roundHalfEven_mono (div_le_div_of_nonneg_right order
      (show (0 : ℚ) ≤ 2 ^ lastPlace b by positivity))
    exact mul_le_mul_of_nonneg_right (by exact_mod_cast this) (by positivity)
  · -- The power of the leading bit of `b` lies on both grids.
    have apart : leadingBit a + 1 ≤ leadingBit b ∧ lastPlace a ≤ leadingBit b ∧
        lastPlace b ≤ leadingBit b := by
      simp only [lastPlace] at same ⊢
      omega
    obtain ⟨further, coarseA, coarseB⟩ := apart
    have low : a ≤ 2 ^ leadingBit b :=
      (leadingBit_spec positive).2.le.trans (zpow_le_zpow_right₀ (by norm_num) further)
    have high := (leadingBit_spec (positive.trans_le order)).1
    rw [pow_multiple coarseA] at low
    rw [pow_multiple coarseB] at high
    have below := magnitude_le low
    have above := le_magnitude high
    rw [← pow_multiple coarseA] at below
    rw [← pow_multiple coarseB] at above
    exact below.trans above

/-! ### Order -/

@[simp] theorem not_nan_le (a : Number) : ¬.nan ≤ a := by
  simp [le_iff]

@[simp] theorem not_le_nan (a : Number) : ¬a ≤ .nan := by
  simp [le_iff]

@[simp] theorem le_posInfinity_iff (a : Number) : a ≤ .posInfinity ↔ a ≠ .nan := by
  cases a with
  | nan => simp
  | _ => exact iff_of_true rfl (by simp)

@[simp] theorem posInfinity_le_iff (a : Number) : .posInfinity ≤ a ↔ a = .posInfinity := by
  cases a with
  | posInfinity => exact iff_of_true rfl rfl
  | _ => exact iff_of_false Bool.false_ne_true (by simp)

@[simp] theorem negInfinity_le_iff (a : Number) : .negInfinity ≤ a ↔ a ≠ .nan := by
  cases a with
  | nan => simp
  | _ => exact iff_of_true rfl (by simp)

@[simp] theorem le_negInfinity_iff (a : Number) : a ≤ .negInfinity ↔ a = .negInfinity := by
  cases a with
  | negInfinity => exact iff_of_true rfl rfl
  | _ => exact iff_of_false Bool.false_ne_true (by simp)

@[simp] theorem not_nan_lt (a : Number) : ¬.nan < a := Bool.false_ne_true

@[simp] theorem not_lt_nan (a : Number) : ¬a < .nan := by
  cases a <;> exact Bool.false_ne_true

@[simp] theorem not_posInfinity_lt (a : Number) : ¬.posInfinity < a := by
  cases a <;> exact Bool.false_ne_true

@[simp] theorem not_lt_negInfinity (a : Number) : ¬a < .negInfinity := by
  cases a <;> exact Bool.false_ne_true

protected theorem le_trans {a b c : Number} (first : a ≤ b) (second : b ≤ c) : a ≤ c := by
  cases a <;> cases b <;> cases c <;> simp_all
  exact first.trans second

protected theorem le_antisymm {a b : Number} (first : a ≤ b) (second : b ≤ a) : a = b := by
  cases a <;> cases b <;> simp_all
  exact le_antisymm first second

theorem max_eq_right {a b : Number} (order : a ≤ b) : max a b = b := by
  obtain ⟨notLess, number, number'⟩ := (le_iff a b).mp order
  rw [max, if_neg (by simp [number, number'])]
  split
  next => rfl
  next notMore =>
    exact Number.le_antisymm order ((le_iff b a).mpr ⟨notMore, number', number⟩)

theorem min_eq_right {a b : Number} (order : b ≤ a) : min a b = b := by
  obtain ⟨notLess, number, number'⟩ := (le_iff b a).mp order
  rw [min, if_neg (by simp [number, number'])]
  split
  next => rfl
  next notMore =>
    exact Number.le_antisymm ((le_iff a b).mpr ⟨notMore, number', number⟩) order

theorem neg_le_neg_iff (a b : Number) : neg a ≤ neg b ↔ b ≤ a := by
  cases a <;> cases b <;> simp [neg]

private theorem round_mono_of_pos {a b : ℚ} (positive : 0 < a) (order : a ≤ b) :
    round a ≤ round b := by
  have := magnitude_mono positive order
  rw [round_of_pos positive, round_of_pos (positive.trans_le order)]
  split
  next small =>
    split
    next => simpa using this
    next => exact by simp
  next large => rw [if_neg (fun small => large (this.trans_lt small))]; decide

theorem round_nonneg {q : ℚ} (nonneg : 0 ≤ q) : .finite 0 ≤ round q := by
  rcases nonneg.eq_or_lt with rfl | positive
  · simp [round]
  · rw [round_of_pos positive]
    split
    next => simpa using magnitude_nonneg positive
    next => exact by simp

theorem round_nonpos {q : ℚ} (nonpos : q ≤ 0) : round q ≤ .finite 0 := by
  have := round_nonneg (neg_nonneg.mpr nonpos)
  rw [round_neg] at this
  rwa [← neg_le_neg_iff, neg, neg_zero]

theorem round_mono {a b : ℚ} (order : a ≤ b) : round a ≤ round b := by
  rcases lt_or_ge 0 a with positive | nonpos
  · exact round_mono_of_pos positive order
  · rcases lt_or_ge b 0 with negative | nonneg
    · have := round_mono_of_pos (neg_pos.mpr negative) (neg_le_neg order)
      rwa [round_neg, round_neg, neg_le_neg_iff] at this
    · exact Number.le_trans (round_nonpos nonpos) (round_nonneg nonneg)

/-- A multiple of a power of two with at most 53 bits, not below the least double, is a double. -/
theorem magnitude_scaled (m : Nat) (e : Int) (positive : 0 < m) (bits : m < 2 ^ 53)
    (least : -1074 ≤ e) : magnitude (m * 2 ^ e) = m * 2 ^ e := by
  have scale : (0 : ℚ) < 2 ^ e := by positivity
  have product : (0 : ℚ) < m * 2 ^ e := mul_pos (by exact_mod_cast positive) scale
  have fine : lastPlace (m * 2 ^ e) ≤ e := by
    have : leadingBit (m * 2 ^ e : ℚ) < 53 + e := by
      apply leadingBit_lt product
      rw [zpow_add₀ (by norm_num)]
      exact mul_lt_mul_of_pos_right (by exact_mod_cast bits) scale
    simp only [lastPlace]
    omega
  have whole : (m * 2 ^ e : ℚ)
      = ((m * 2 ^ (e - lastPlace (m * 2 ^ e)).toNat : Int) : ℚ) * 2 ^ lastPlace (m * 2 ^ e) := by
    rw [Int.cast_mul, mul_assoc, Int.cast_natCast, ← pow_multiple fine]
  have below := magnitude_le whole.le
  have above := le_magnitude whole.ge
  rw [← whole] at below above
  exact le_antisymm below above

/-- A multiple of a negative power of two with at most 53 bits is a double. -/
theorem round_scaled (m : Int) (e : Int) (bits : m.natAbs < 2 ^ 53) (least : -1074 ≤ e)
    (fraction : e ≤ 0) : round (m * 2 ^ e) = .finite (m * 2 ^ e) := by
  have above : ∀ n : Nat, 0 < n → n < 2 ^ 53 → round (n * 2 ^ e) = .finite (n * 2 ^ e) := by
    intro n positive few
    have scale : (0 : ℚ) < 2 ^ e := by positivity
    have value := magnitude_scaled n e positive few least
    have small : (n : ℚ) * 2 ^ e < 2 ^ 1024 := by
      have unit : (2 : ℚ) ^ e ≤ 1 := zpow_le_one_of_nonpos₀ one_le_two fraction
      have few : (n : ℚ) < 2 ^ 53 := by exact_mod_cast few
      calc (n : ℚ) * 2 ^ e ≤ n * 1 := by gcongr
        _ < 2 ^ 1024 := by
          rw [mul_one]
          exact few.trans (pow_lt_pow_right₀ one_lt_two (by omega))
    rw [round_of_pos (mul_pos (by exact_mod_cast positive) scale), value, if_pos small]
  rcases lt_trichotomy m 0 with negative | zero | positive
  · have same : (m : ℚ) * 2 ^ e = -((m.natAbs : ℚ) * 2 ^ e) := by
      rw [Nat.cast_natAbs, abs_of_neg negative, Int.cast_neg]
      ring
    rw [same, round_neg, above _ (by omega) bits, neg]
  · subst zero
    rw [Int.cast_zero, zero_mul]
    rfl
  · have same : (m : ℚ) * 2 ^ e = (m.natAbs : ℚ) * 2 ^ e := by
      rw [Nat.cast_natAbs, abs_of_pos positive]
    rw [same, above _ (by omega) bits]

/-- The mantissa a positive rational is rounded to has at most 53 bits or is the next power. -/
private theorem mantissa_le {q : ℚ} (positive : 0 < q) :
    roundHalfEven (q / 2 ^ lastPlace q) ≤ 2 ^ 53 := by
  have scale : (0 : ℚ) < 2 ^ lastPlace q := by positivity
  have : q / 2 ^ lastPlace q ≤ ((2 ^ 53 : Int) : ℚ) := by
    rw [div_le_iff₀ scale]
    calc q ≤ 2 ^ (leadingBit q + 1) := (leadingBit_spec positive).2.le
      _ ≤ 2 ^ (53 + lastPlace q) := by
        apply zpow_le_zpow_right₀ (by norm_num)
        simp only [lastPlace]
        omega
      _ = ((2 ^ 53 : Int) : ℚ) * 2 ^ lastPlace q := by
        rw [zpow_add₀ (by norm_num)]
        norm_num
  rw [← roundHalfEven_intCast (2 ^ 53)]
  exact roundHalfEven_mono this

theorem magnitude_magnitude {q : ℚ} (positive : 0 < q) (nonzero : magnitude q ≠ 0) :
    magnitude (magnitude q) = magnitude q := by
  have scale : (0 : ℚ) < 2 ^ lastPlace q := by positivity
  have least : -1074 ≤ lastPlace q := by
    simp only [lastPlace]
    omega
  obtain ⟨m, mantissa⟩ : ∃ m : Nat, roundHalfEven (q / 2 ^ lastPlace q) = m := by
    apply Int.eq_ofNat_of_zero_le
    rw [← roundHalfEven_intCast 0]
    exact roundHalfEven_mono (by simpa using (div_pos positive scale).le)
  have bits : m ≤ 2 ^ 53 := by
    have := mantissa_le positive
    rw [mantissa] at this
    exact_mod_cast this
  have value : magnitude q = m * 2 ^ lastPlace q := by rw [magnitude, mantissa, Int.cast_natCast]
  have above : 0 < m := by
    rcases Nat.eq_zero_or_pos m with rfl | above
    · simp [value] at nonzero
    · exact above
  rcases bits.lt_or_eq with few | carried
  · rw [value, magnitude_scaled m _ above few least]
  · -- The mantissa overflowed to the next power of two.
    have : magnitude q = (2 ^ 52 : Nat) * 2 ^ (lastPlace q + 1) := by
      rw [value, carried, zpow_add₀ (by norm_num)]
      push_cast
      ring
    rw [this, magnitude_scaled _ _ (by norm_num) (by norm_num) (by omega)]

/-- What a number is rounded to is a double. -/
theorem round_round {q r : ℚ} (rounded : round q = .finite r) : round r = .finite r := by
  have ofPos : ∀ {a b : ℚ}, 0 < a → round a = .finite b → round b = .finite b := by
    intro a b positive rounded
    rw [round_of_pos positive] at rounded
    split at rounded
    next small =>
      obtain rfl : magnitude a = b := by simpa using rounded
      rcases (magnitude_nonneg positive).eq_or_lt with zero | above
      · rw [← zero]
        rfl
      · rw [round_of_pos above, magnitude_magnitude positive above.ne', if_pos small]
    next => cases rounded
  rcases lt_trichotomy q 0 with below | rfl | above
  · have negated : round (-q) = .finite (-r) := by rw [round_neg, rounded, neg]
    have := ofPos (neg_pos.mpr below) negated
    rw [round_neg] at this
    cases whole : round r <;> simp_all [neg]
  · obtain rfl : 0 = r := by simpa [round] using rounded
    rfl
  · exact ofPos above rounded

theorem magnitude_le_add_half (q : ℚ) : magnitude q ≤ q + 2 ^ (lastPlace q - 1) := by
  have scale : (0 : ℚ) < 2 ^ lastPlace q := by positivity
  calc magnitude q
      ≤ (q / 2 ^ lastPlace q + 1 / 2) * 2 ^ lastPlace q :=
        mul_le_mul_of_nonneg_right (roundHalfEven_le_add_half _) scale.le
    _ = q + 2 ^ (lastPlace q - 1) := by
        rw [add_mul, div_mul_cancel₀ q scale.ne', zpow_sub_one₀ (by norm_num)]
        ring

/-- Rounding overflows from half a place above the largest double on. -/
theorem round_eq_posInfinity_iff (q : ℚ) :
    round q = .posInfinity ↔ 2 ^ 1024 - 2 ^ 970 ≤ q := by
  constructor
  · intro overflow
    by_contra below
    have half : (0 : ℚ) < 2 ^ 970 := by positivity
    rcases le_or_gt q (2 ^ 1023) with small | large
    · have bound : round (2 ^ 1023) = .finite (2 ^ 1023) := by decide +kernel
      have := round_mono small
      simp [overflow, bound] at this
    · have positive : 0 < q := lt_trans (by positivity) large
      have leading : leadingBit q = 1023 := by
        have low : leadingBit q < 1024 := by
          apply leadingBit_lt positive
          rw [zpow_ofNat]
          exact (not_le.mp below).trans (sub_lt_self _ half)
        have high := leadingBit_mono (by positivity) large.le
        have : leadingBit (2 ^ 1023) = 1023 := by decide +kernel
        omega
      have place : lastPlace q - 1 = 970 := by
        rw [lastPlace, leading]
        rfl
      have near := magnitude_le_add_half q
      rw [place, zpow_ofNat] at near
      have finite : magnitude q < 2 ^ 1024 :=
        near.trans_lt (lt_sub_iff_add_lt.mp (not_le.mp below))
      rw [round_of_pos positive, if_pos finite] at overflow
      cases overflow
  · intro large
    have bound : round (2 ^ 1024 - 2 ^ 970) = .posInfinity := by decide +kernel
    simpa [bound] using round_mono large

/-- Adding more never gives less. -/
theorem not_add_lt_add {b c : Number} (a : Number) (order : b ≤ c) : ¬a.add c < a.add b := by
  cases a <;> cases b <;> cases c <;> simp_all [add]
  case finite.finite.finite a b c =>
    have : a + b ≤ a + c := by linarith
    exact ((le_iff _ _).mp (round_mono this)).1

theorem not_sub_lt_sub {b c : Number} (a : Number) (order : b ≤ c) : ¬a.sub b < a.sub c :=
  not_add_lt_add a ((neg_le_neg_iff c b).mpr order)

/-! ### Doubles -/

/-- A finite number that is rounded to itself, or one of the others. -/
def IsDouble (a : Number) : Prop := ∀ q, a = .finite q → round q = .finite q

theorem round_isDouble (q : ℚ) : (round q).IsDouble := fun _ rounded => round_round rounded

theorem divNat_isDouble (a : Number) (d : Nat) : (a.divNat d).IsDouble := by
  cases a with
  | finite value => exact round_isDouble _
  | _ => simp [IsDouble, divNat]

/-- From 2⁵³ on all doubles are integers. -/
private theorem integer_of_large {r : ℚ} (double : round r = .finite r) (large : 2 ^ 53 ≤ r) :
    ∃ n : Int, r = n := by
  have positive : 0 < r := lt_of_lt_of_le (by positivity) large
  have leading : 53 ≤ leadingBit r := by
    have := leadingBit_mono (by positivity) large
    have : leadingBit (2 ^ 53) = 53 := by decide +kernel
    omega
  have place : 0 ≤ lastPlace r := by
    simp only [lastPlace]
    omega
  rw [round_of_pos positive] at double
  split at double
  next small =>
    have value : magnitude r = r := by simpa using double
    have scale := pow_multiple place
    rw [zpow_zero, mul_one] at scale
    refine ⟨roundHalfEven (r / 2 ^ lastPlace r) * 2 ^ (lastPlace r - 0).toNat, ?_⟩
    rw [Int.cast_mul, ← scale]
    exact value.symm
  next => cases double

theorem floor_isDouble {a : Number} (double : a.IsDouble) : a.floor.IsDouble := by
  cases a with
  | finite r =>
    rintro q isFloor
    obtain rfl : (⌊r⌋ : ℚ) = q := by simpa [floor] using isFloor
    have rounded := double r rfl
    rcases le_or_gt ⌊r⌋.natAbs (2 ^ 53) with few | many
    · exact round_intCast_le _ few
    · obtain ⟨n, rfl⟩ : ∃ n : Int, r = n := by
        have low := Int.floor_le r
        have high := Int.lt_floor_add_one r
        rcases lt_or_ge 0 ⌊r⌋ with above | below
        · apply integer_of_large rounded
          have : ((2 ^ 53 : Int) : ℚ) ≤ ⌊r⌋ := by exact_mod_cast (by omega)
          push_cast at this
          linarith
        · have negated : round (-r) = .finite (-r) := by rw [round_neg, rounded, neg]
          have : (⌊r⌋ : ℚ) + 1 ≤ ((-2 ^ 53 : Int) : ℚ) := by exact_mod_cast (by omega)
          push_cast at this
          obtain ⟨n, integer⟩ := integer_of_large negated (by linarith)
          exact ⟨-n, by rw [Int.cast_neg, ← integer, neg_neg]⟩
      rwa [Int.floor_intCast]
  | _ => exact double

/-! ### Natural numbers -/

/-- By how much rounding to 53 significant bits, half to even, raises a natural number. -/
def surplus (n : Nat) : Int :=
  let unit := 2 ^ (n.log2 - 52)
  let rest := n % unit
  if 2 * rest < unit ∨ 2 * rest = unit ∧ n / unit % 2 = 0 then -rest else unit - rest

theorem roundHalfEven_div (n : Nat) {unit : Nat} (positive : 0 < unit) :
    roundHalfEven ((n : ℚ) / unit) =
      if 2 * (n % unit) < unit ∨ 2 * (n % unit) = unit ∧ n / unit % 2 = 0 then (n / unit : Nat)
      else (n / unit : Nat) + 1 := by
  have scale : (0 : ℚ) < unit := by exact_mod_cast positive
  have floor : ⌊(n : ℚ) / unit⌋ = (n / unit : Nat) := by
    rw [Rat.floor_natCast_div_natCast, Int.natCast_div]
  have rest : (n : ℚ) / unit - ((n / unit : Nat) : Int) = (n % unit : Nat) / unit := by
    rw [Int.cast_natCast, eq_div_iff scale.ne', sub_mul, div_mul_cancel₀ _ scale.ne',
      sub_eq_iff_eq_add]
    exact_mod_cast (Nat.mod_add_div' n unit).symm
  have below : ((n % unit : Nat) : ℚ) / unit < 1 / 2 ↔ 2 * (n % unit) < unit := by
    rw [div_lt_div_iff₀ scale two_pos, one_mul, mul_comm]
    exact_mod_cast Iff.rfl
  have middle : ((n % unit : Nat) : ℚ) / unit = 1 / 2 ↔ 2 * (n % unit) = unit := by
    rw [div_eq_div_iff scale.ne' two_ne_zero, one_mul, mul_comm]
    exact_mod_cast Iff.rfl
  have even : ((n / unit : Nat) : Int) % 2 = 0 ↔ n / unit % 2 = 0 := by omega
  have := roundHalfEven_eq_floor_iff ((n : ℚ) / unit)
  have low := floor_le_roundHalfEven ((n : ℚ) / unit)
  have high := roundHalfEven_le_floor ((n : ℚ) / unit)
  rw [floor, rest, below, middle, even] at this
  rw [floor] at low high
  split
  next down => exact this.mpr down
  next up =>
    have := mt this.mp up
    omega

/-- The first natural number that is rounded to infinity. -/
def overflow : Nat := 2 ^ 1024 - 2 ^ 970

private theorem cast_pow_sub {a b : Nat} (order : b ≤ a) :
    ((2 ^ a - 2 ^ b : Nat) : ℚ) = 2 ^ a - 2 ^ b := by
  rw [Nat.cast_sub (Nat.pow_le_pow_right two_pos order), Nat.cast_pow, Nat.cast_pow, Nat.cast_ofNat]

theorem round_natCast_eq_posInfinity_iff (n : Nat) : round n = .posInfinity ↔ overflow ≤ n := by
  rw [round_eq_posInfinity_iff, overflow, ← cast_pow_sub (by omega), Nat.cast_le]

/-- Rounding a natural number keeps its 53 leading bits. -/
theorem round_natCast {n : Nat} (bound : n < overflow) :
    round n = .finite ((n + surplus n : Int) : ℚ) := by
  rcases Nat.eq_zero_or_pos n with rfl | positive
  · decide +kernel
  · have above : (0 : ℚ) < n := by exact_mod_cast positive
    have finite : round n ≠ .posInfinity := by
      rw [ne_eq, round_natCast_eq_posInfinity_iff]
      exact not_le.mpr bound
    suffices value : magnitude n = ((n + surplus n : Int) : ℚ) by
      rw [round_of_pos above] at finite ⊢
      split at finite
      next small => rw [if_pos small, value]
      next => exact absurd rfl finite
    rcases Nat.lt_or_ge n.log2 53 with few | many
    · have whole := magnitude_scaled n 0 positive
        (Nat.lt_log2_self.trans_le (Nat.pow_le_pow_right (by omega) few)) (by omega)
      have none : n.log2 - 52 = 0 := by omega
      simpa [surplus, none, Nat.mod_one] using whole
    · have place : lastPlace n = (n.log2 - 52 : Nat) := by
        rw [lastPlace, leadingBit_natCast positive.ne']
        omega
      obtain ⟨unit, isUnit⟩ : ∃ unit, unit = 2 ^ (n.log2 - 52) := ⟨_, rfl⟩
      have power : (2 : ℚ) ^ lastPlace n = unit := by
        rw [place, zpow_natCast, isUnit, Nat.cast_pow, Nat.cast_ofNat]
      have split := Nat.div_add_mod n unit
      rw [magnitude, power, roundHalfEven_div n (isUnit ▸ by positivity), surplus, ← isUnit]
      have value : (n : ℚ) = unit * (n / unit : Nat) + (n % unit : Nat) := by
        exact_mod_cast split.symm
      generalize n / unit = quotient at value ⊢
      generalize n % unit = rest at value ⊢
      split_ifs
      all_goals
        push_cast
        linarith

end UncrackableL5.Number

import Mathlib.Data.Rat.Floor
import Mathlib.Algebra.Order.Field.Power
import Mathlib.Tactic.Positivity

/-!
# Numbers

JavaScript numbers as extended rationals: finite values are exact, and arithmetic rounds to the
nearest double. The two zeros are one value, since no operation modelled here tells them apart.
-/
namespace UncrackableL5

inductive Number where
  | nan
  | negInfinity
  | finite (value : ℚ)
  | posInfinity
  deriving DecidableEq, Repr

namespace Number

instance : IntCast Number := ⟨fun n => .finite n⟩

theorem intCast_def (n : Int) : (n : Number) = .finite n := rfl

/-- `a < b`; every comparison with `NaN` is false. -/
def ltb : Number → Number → Bool
  | .nan, _ | _, .nan => false
  | .negInfinity, .negInfinity => false
  | .negInfinity, _ => true
  | .finite _, .negInfinity => false
  | .finite a, .finite b => a < b
  | .finite _, .posInfinity => true
  | .posInfinity, _ => false

/-- `a <= b` -/
def leb : Number → Number → Bool
  | .nan, _ | _, .nan => false
  | a, b => !ltb b a

instance : LT Number := ⟨fun a b => ltb a b = true⟩

instance : LE Number := ⟨fun a b => leb a b = true⟩

instance (a b : Number) : Decidable (a < b) := inferInstanceAs (Decidable (ltb a b = true))

instance (a b : Number) : Decidable (a ≤ b) := inferInstanceAs (Decidable (leb a b = true))

/-- Away from `NaN` the two comparisons are one another's negation. -/
theorem le_iff (a b : Number) : a ≤ b ↔ ¬b < a ∧ a ≠ .nan ∧ b ≠ .nan := by
  change leb a b = true ↔ ¬ltb b a = true ∧ _
  cases a <;> cases b <;> simp [leb]

@[simp] theorem finite_lt_finite (a b : ℚ) : (Number.finite a < .finite b) ↔ a < b := by
  change ltb _ _ = true ↔ _
  simp [ltb]

@[simp] theorem finite_le_finite (a b : ℚ) : (Number.finite a ≤ .finite b) ↔ a ≤ b := by
  change leb _ _ = true ↔ _
  simp [leb, ltb]

@[simp] theorem intCast_inj (a b : Int) : ((a : Number) = (b : Number)) ↔ a = b := by
  simp [intCast_def]

@[simp] theorem intCast_le (a b : Int) : ((a : Number) ≤ (b : Number)) ↔ a ≤ b := by
  simp [intCast_def]

@[simp] theorem intCast_lt (a b : Int) : ((a : Number) < (b : Number)) ↔ a < b := by
  simp [intCast_def]

/-- ECMAScript `truncate`. -/
def truncate (q : ℚ) : Int := q.num.tdiv q.den

/-! ### Rounding -/

/-- The exponent of the leading bit of a positive rational. -/
def leadingBit (q : ℚ) : Int :=
  let e : Int := (Nat.log2 q.num.natAbs : Int) - Nat.log2 q.den
  if q < 2 ^ e then e - 1 else e

/-- The integer nearest to a rational, the even one on a tie. -/
def roundHalfEven (q : ℚ) : Int :=
  let below := ⌊q⌋
  let rest := q - below
  if rest < 1 / 2 then below
  else if rest = 1 / 2 ∧ below % 2 = 0 then below
  else below + 1

/-- The double nearest to a rational. -/
def round (q : ℚ) : Number :=
  if q = 0 then .finite 0
  else
    let ulp : ℚ := 2 ^ max (leadingBit |q| - 52) (-1074)
    let magnitude := roundHalfEven (|q| / ulp) * ulp
    if magnitude < 2 ^ 1024 then .finite (if q < 0 then -magnitude else magnitude)
    else if q < 0 then .negInfinity
    else .posInfinity

theorem roundHalfEven_intCast (n : Int) : roundHalfEven (n : ℚ) = n := by
  simp [roundHalfEven]

theorem leadingBit_natCast {n : Nat} (positive : n ≠ 0) : leadingBit n = n.log2 := by
  have low : (2 : ℚ) ^ n.log2 ≤ n := by exact_mod_cast Nat.log2_self_le positive
  have one : Nat.log2 1 = 0 := by decide
  simp only [leadingBit, Rat.num_natCast, Rat.den_natCast, Int.natAbs_natCast, one, Nat.cast_zero,
    sub_zero, zpow_natCast, if_neg (not_lt.mpr low)]

private theorem leadingBit_natCast_lt (n k : Nat) (positive : n ≠ 0) (bound : n < 2 ^ k) :
    leadingBit (n : ℚ) < k := by
  rw [leadingBit_natCast positive]
  exact_mod_cast (Nat.log2_lt positive).mpr bound

/-- A number of at most 53 bits is a double. -/
theorem round_intCast (n : Int) (bound : n.natAbs < 2 ^ 53) : round (n : ℚ) = .finite n := by
  by_cases zero : n = 0
  · subst zero
    rfl
  · have lead := leadingBit_natCast_lt n.natAbs 53 (by omega) bound
    have positive : (n : ℚ) ≠ 0 := by exact_mod_cast zero
    have magnitude : |(n : ℚ)| = n.natAbs := by rw [Nat.cast_natAbs, Int.cast_abs]
    -- the unit in the last place is a power of two below one, so `n` is a multiple of it
    obtain ⟨d, unit⟩ : ∃ d : Nat, max (leadingBit (n.natAbs : ℚ) - 52) (-1074) = -(d : Int) :=
      ⟨(-max (leadingBit (n.natAbs : ℚ) - 52) (-1074)).toNat, by omega⟩
    have multiple : (n.natAbs : ℚ) / 2 ^ (-(d : Int)) = ((n.natAbs * 2 ^ d : Int) : ℚ) := by
      rw [zpow_neg, zpow_natCast, div_inv_eq_mul, Int.cast_mul, Int.cast_natCast, Int.cast_pow,
        Int.cast_ofNat]
    have exact : ((n.natAbs * 2 ^ d : Int) : ℚ) * 2 ^ (-(d : Int)) = n.natAbs := by
      rw [← multiple]
      exact div_mul_cancel₀ _ (by positivity)
    have small : (n.natAbs : ℚ) < 2 ^ 1024 := by
      have few : (n.natAbs : ℚ) < 2 ^ 53 := by exact_mod_cast bound
      exact few.trans (pow_lt_pow_right₀ one_lt_two (by omega))
    simp only [round, if_neg positive, magnitude, unit, multiple, roundHalfEven_intCast, exact,
      if_pos small, Number.finite.injEq]
    rw [← magnitude]
    split
    next negative => rw [abs_of_neg negative, neg_neg]
    next nonneg => exact abs_of_nonneg (not_lt.mp nonneg)

/-- So is the first number of 54 bits. -/
theorem round_intCast_le (n : Int) (bound : n.natAbs ≤ 2 ^ 53) : round (n : ℚ) = .finite n := by
  rcases Nat.lt_or_eq_of_le bound with small | large
  · exact round_intCast n small
  · rcases Int.natAbs_eq n with same | same
    all_goals
      rw [same, large]
      decide +kernel

/-- `a + b` -/
def add : Number → Number → Number
  | .nan, _ | _, .nan => .nan
  | .finite a, .finite b => round (a + b)
  | .finite _, b => b
  | a, .finite _ => a
  | .negInfinity, .negInfinity => .negInfinity
  | .posInfinity, .posInfinity => .posInfinity
  | .negInfinity, .posInfinity | .posInfinity, .negInfinity => .nan

/-- `-a` -/
def neg : Number → Number
  | .nan => .nan
  | .negInfinity => .posInfinity
  | .finite a => .finite (-a)
  | .posInfinity => .negInfinity

/-- `a - b` -/
def sub (a b : Number) : Number := add a (neg b)

/-- `a / d` -/
def divNat (a : Number) (d : Nat) : Number :=
  match a with
  | .finite a => round (a / d)
  | a => a

/-- `a * m` of a positive factor. -/
def mulNat (a : Number) (m : Nat) : Number :=
  match a with
  | .finite a => round (a * m)
  | a => a

/-- `Math.floor(a)` -/
def floor : Number → Number
  | .finite a => .finite ⌊a⌋
  | a => a

theorem add_intCast (a b : Int) (bound : (a + b).natAbs < 2 ^ 53) :
    add a b = ((a + b : Int) : Number) := by
  simp only [intCast_def, add]
  rw [← Int.cast_add, round_intCast _ bound]

theorem sub_intCast (a b : Int) (bound : (a - b).natAbs < 2 ^ 53) :
    sub a b = ((a - b : Int) : Number) := by
  have negated : neg b = ((-b : Int) : Number) := by simp [neg, intCast_def]
  rw [sub, negated, add_intCast _ _ bound, sub_eq_add_neg]

/-- `Math.min(a, b)` -/
def min (a b : Number) : Number := if a = .nan ∨ b = .nan then .nan else if b < a then b else a

/-- `Math.max(a, b)` -/
def max (a b : Number) : Number := if a = .nan ∨ b = .nan then .nan else if a < b then b else a

end Number

end UncrackableL5

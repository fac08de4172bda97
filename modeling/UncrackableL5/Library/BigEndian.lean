import Mathlib.Data.List.Induction
import Mathlib.Algebra.Order.Ring.Nat
import Mathlib.Tactic.Ring
import Mathlib.Tactic.Linarith

/-!
# Big-endian octet strings

Natural numbers and two's complement integers as octet strings, most significant
octet first. `octets` is the shortest string of a natural number and
`twosComplement` the shortest string of an integer; `value` and `signedValue`
read them back.
-/
namespace BigEndian

/-- The natural number an octet string denotes. -/
def value (bs : List UInt8) : Nat := bs.foldl (fun v b => v * 256 + b.toNat) 0

private theorem foldl_start (bs : List UInt8) (start : Nat) :
    bs.foldl (fun v b => v * 256 + b.toNat) start = start * 256 ^ bs.length + value bs := by
  induction bs generalizing start with
  | nil => simp [value]
  | cons b bs ih =>
    simp only [value, List.foldl_cons, List.length_cons, Nat.zero_mul, Nat.zero_add]
    rw [ih, ih b.toNat]
    ring

@[simp] theorem value_nil : value [] = 0 := rfl

theorem value_cons (b : UInt8) (bs : List UInt8) :
    value (b :: bs) = b.toNat * 256 ^ bs.length + value bs := by
  simpa [value] using foldl_start bs b.toNat

theorem value_append (xs ys : List UInt8) :
    value (xs ++ ys) = value xs * 256 ^ ys.length + value ys := by
  rw [value, List.foldl_append, foldl_start]
  rfl

@[simp] theorem value_singleton (b : UInt8) : value [b] = b.toNat := by simp [value]

theorem value_snoc (bs : List UInt8) (b : UInt8) :
    value (bs ++ [b]) = value bs * 256 + b.toNat := by
  simp [value_append]

/-- The shortest octet string of `n`; zero has the empty one. -/
def octets (n : Nat) : List UInt8 :=
  if n = 0 then [] else octets (n / 256) ++ [UInt8.ofNat n]
termination_by n
decreasing_by omega

@[simp] theorem octets_zero : octets 0 = [] := by rw [octets]; simp

theorem octets_pos (n : Nat) (positive : 0 < n) :
    octets n = octets (n / 256) ++ [UInt8.ofNat n] := by
  rw [octets, if_neg (by omega)]

theorem value_octets (n : Nat) : value (octets n) = n := by
  induction n using Nat.strongRecOn with
  | ind n ih =>
    rcases Nat.eq_zero_or_pos n with rfl | positive
    · simp
    · rw [octets_pos n positive, value_snoc, ih (n / 256) (by omega), UInt8.toNat_ofNat']
      omega

theorem octets_length_le (n k : Nat) (bound : n < 256 ^ k) : (octets n).length ≤ k := by
  induction k generalizing n with
  | zero =>
    have : n = 0 := by simpa using bound
    simp [this]
  | succ k ih =>
    rcases Nat.eq_zero_or_pos n with rfl | positive
    · simp
    · have smaller : n / 256 < 256 ^ k := by
        rw [Nat.div_lt_iff_lt_mul (by omega)]
        rwa [Nat.pow_succ] at bound
      rw [octets_pos n positive, List.length_append, List.length_singleton]
      exact Nat.succ_le_succ (ih _ smaller)

theorem octets_length_pos (n : Nat) (positive : 0 < n) : 0 < (octets n).length := by
  rw [octets_pos n positive]
  simp

/-- The leading octet is not zero. -/
theorem octets_head (n : Nat) (b : UInt8) (bs : List UInt8) (h : octets n = b :: bs) :
    b.toNat ≠ 0 := by
  induction n using Nat.strongRecOn generalizing b bs with
  | ind n ih =>
    rcases Nat.eq_zero_or_pos n with rfl | positive
    · simp at h
    · rw [octets_pos n positive] at h
      -- The first octet is the first one of the quotient, or the only one.
      rcases Nat.eq_zero_or_pos (n / 256) with small | large
      · rw [small, octets_zero, List.nil_append, List.cons.injEq] at h
        rw [← h.1, UInt8.toNat_ofNat']
        omega
      · obtain ⟨c, cs, hc⟩ := List.exists_cons_of_length_pos (octets_length_pos _ large)
        rw [hc, List.cons_append, List.cons.injEq] at h
        exact h.1 ▸ ih (n / 256) (by omega) c cs hc

/-- A string no longer than necessary is at least the power its length promises. -/
theorem le_of_octets_length (n k : Nat) (long : (octets n).length = k + 1) : 256 ^ k ≤ n := by
  by_contra small
  have := octets_length_le n k (by omega)
  omega

/-- An octet string that does not start with zero is the shortest one of its value. -/
theorem octets_value (bs : List UInt8) (head : ∀ b rest, bs = b :: rest → b.toNat ≠ 0) :
    octets (value bs) = bs := by
  induction bs using List.reverseRecOn with
  | nil => simp
  | append_singleton bs b ih =>
    have shorter : octets (value bs) = bs := by
      apply ih
      intro c rest shape
      exact head c (rest ++ [b]) (by rw [shape, List.cons_append])
    have low := b.toNat_lt
    -- Only a string without octets before the last one can have none that counts.
    have positive : 0 < value (bs ++ [b]) := by
      rw [value_snoc]
      cases bs with
      | nil =>
        have := head b [] rfl
        omega
      | cons c rest =>
        rcases Nat.eq_zero_or_pos (value (c :: rest)) with zero | positive
        · rw [zero, octets_zero] at shorter
          cases shorter
        · omega
    rw [octets_pos _ positive, value_snoc]
    have quotient : (value bs * 256 + b.toNat) / 256 = value bs := by omega
    have last : UInt8.ofNat (value bs * 256 + b.toNat) = b := by
      rw [← UInt8.toNat_inj, UInt8.toNat_ofNat']
      omega
    rw [quotient, last, shorter]

theorem value_lt (bs : List UInt8) : value bs < 256 ^ bs.length := by
  induction bs using List.reverseRecOn with
  | nil => simp
  | append_singleton bs b ih =>
    have low := b.toNat_lt
    rw [value_snoc, List.length_append, List.length_singleton, Nat.pow_succ]
    omega

/-- Strings of one length are told apart by their values. -/
theorem value_inj {xs ys : List UInt8} (same : xs.length = ys.length)
    (equal : value xs = value ys) : xs = ys := by
  induction xs generalizing ys with
  | nil => exact (List.length_eq_zero_iff.mp same.symm).symm
  | cons x xs ih =>
    cases ys with
    | nil => simp at same
    | cons y ys =>
      simp only [List.length_cons, Nat.add_right_cancel_iff] at same
      have low := value_lt xs
      have lowToo := value_lt ys
      rw [value_cons, value_cons, same] at equal
      rw [same] at low
      have positive : 0 < 256 ^ ys.length := Nat.pow_pos (by omega)
      have heads : x.toNat = y.toNat := by
        have quotients := congrArg (· / 256 ^ ys.length) equal
        simpa [Nat.add_comm, Nat.add_mul_div_right, positive, Nat.div_eq_of_lt low,
          Nat.div_eq_of_lt lowToo] using quotients
      rw [UInt8.toNat_inj.mp heads, ih same (by rw [heads] at equal; omega)]

/-- The octets of a number in a field of `k` octets. -/
theorem value_fixed (k n : Nat) :
    value ((List.range k).map fun i => UInt8.ofNat (n / 256 ^ (k - 1 - i))) = n % 256 ^ k := by
  induction k generalizing n with
  | zero => simp [Nat.mod_one]
  | succ k ih =>
    -- The octets before the last one are those of the quotient.
    have front : ((List.range k).map fun i => UInt8.ofNat (n / 256 ^ (k + 1 - 1 - i))) =
        (List.range k).map fun i => UInt8.ofNat (n / 256 / 256 ^ (k - 1 - i)) := by
      apply List.map_congr_left
      intro i member
      have inside := List.mem_range.mp member
      rw [Nat.div_div_eq_div_mul, ← Nat.pow_succ', show (k - 1 - i).succ = k + 1 - 1 - i by omega]
    have split : n % 256 ^ (k + 1) = n % 256 + 256 * (n / 256 % 256 ^ k) := by
      rw [Nat.pow_succ', Nat.mod_mul]
    rw [List.range_succ, List.map_append, front, List.map_singleton, value_snoc, ih,
      UInt8.toNat_ofNat', Nat.add_sub_cancel, Nat.sub_self, Nat.pow_zero, Nat.div_one, split]
    omega

/-- `octets` with one octet for zero. -/
def magnitude (n : Nat) : List UInt8 := if n = 0 then [0] else octets n

@[simp] theorem value_magnitude (n : Nat) : value (magnitude n) = n := by
  unfold magnitude
  split
  next zero => simp [zero]
  next => exact value_octets n

theorem magnitude_ne_nil (n : Nat) : magnitude n ≠ [] := by
  unfold magnitude
  split
  next => simp
  next nonzero =>
    exact List.ne_nil_of_length_pos (octets_length_pos n (Nat.pos_of_ne_zero nonzero))

theorem magnitude_head (n : Nat) (b c : UInt8) (bs : List UInt8) (h : magnitude n = b :: c :: bs) :
    b.toNat ≠ 0 := by
  unfold magnitude at h
  split at h
  next => simp at h
  next => exact octets_head n b (c :: bs) h

/-- The integer a two's complement octet string denotes. -/
def signedValue (bs : List UInt8) : Int :=
  if (bs.headD 0).toNat < 128 then value bs else value bs - 256 ^ bs.length

/-- A string whose sign bit is clear, as one can see from its value. -/
theorem signedValue_eq_value (bs : List UInt8) (small : 2 * value bs < 256 ^ bs.length) :
    signedValue bs = value bs := by
  cases bs with
  | nil => rfl
  | cons b rest =>
    have top : b.toNat < 128 := by
      rw [value_cons, List.length_cons, Nat.pow_succ'] at small
      by_contra high
      have := Nat.mul_le_mul_right (256 ^ rest.length) (not_lt.mp high)
      omega
    rw [signedValue, List.headD_cons, if_pos top]

theorem signedValue_neg (bs : List UInt8) (large : 256 ^ bs.length ≤ 2 * value bs) :
    signedValue bs < 0 := by
  have below := value_lt bs
  cases bs with
  | nil => simp at large
  | cons b rest =>
    have top : ¬b.toNat < 128 := by
      have := value_lt rest
      rw [value_cons, List.length_cons, Nat.pow_succ'] at large
      intro low
      have := Nat.mul_le_mul_right (256 ^ rest.length) (Nat.le_of_lt_succ low)
      omega
    rw [signedValue, List.headD_cons, if_neg top]
    have : (value (b :: rest) : Int) < 256 ^ (b :: rest).length := by exact_mod_cast below
    omega

/-- The octets of a negative integer down to the one that carries its sign. -/
def negativeOctets (v : Int) : List UInt8 :=
  if v / 256 < -1 then negativeOctets (v / 256) ++ [UInt8.ofNat (v % 256).toNat]
  else [UInt8.ofNat (v % 256).toNat]
termination_by v.natAbs
decreasing_by omega

theorem value_negativeOctets (v : Int) (negative : v < 0) :
    (value (negativeOctets v) : Int) = v + 256 ^ (negativeOctets v).length := by
  induction h : v.natAbs using Nat.strongRecOn generalizing v with
  | ind n ih =>
    have low : ((UInt8.ofNat (v % 256).toNat).toNat : Int) = v % 256 := by
      rw [UInt8.toNat_ofNat']; omega
    rw [negativeOctets]
    split
    -- All octets but the last are those of the quotient.
    next more =>
      have high := ih (v / 256).natAbs (by omega) (v / 256) (by omega) rfl
      rw [value_snoc, List.length_append, List.length_singleton, Int.pow_succ]
      push_cast
      rw [high, low]
      omega
    next last =>
      rw [value_singleton, low]
      simp only [List.length_singleton, Int.pow_one]
      omega

theorem negativeOctets_ne_nil (v : Int) : negativeOctets v ≠ [] := by
  rw [negativeOctets]
  split <;> simp

/-- A sign octet of all ones stands alone. -/
theorem negativeOctets_head (v : Int) (b c : UInt8) (bs : List UInt8) (negative : v < 0)
    (h : negativeOctets v = b :: c :: bs) : b.toNat ≠ 255 := by
  induction n : v.natAbs using Nat.strongRecOn generalizing v b c bs with
  | ind n ih =>
    rw [negativeOctets] at h
    split at h
    next more =>
      -- The sign octet is the first one of the quotient, or the quotient is that octet alone.
      match hd : negativeOctets (v / 256) with
      | [] => exact absurd hd (negativeOctets_ne_nil _)
      | [d] =>
        rw [hd] at h
        have hb : d = b := (List.cons.inj h).1
        rw [negativeOctets] at hd
        split at hd
        next =>
          obtain ⟨empty, _⟩ := List.append_eq_singleton_iff.mp hd |>.resolve_right (by simp)
          exact absurd empty (negativeOctets_ne_nil _)
        next last =>
          rw [← hb, ← (List.cons.inj hd).1, UInt8.toNat_ofNat']
          omega
      | d :: e :: es =>
        rw [hd] at h
        have hb : d = b := (List.cons.inj h).1
        exact hb ▸ ih (v / 256).natAbs (by omega) (v / 256) d e es (by omega) hd rfl
    next last => simp at h

/-- The shortest two's complement octet string of an integer. -/
def twosComplement (v : Int) : List UInt8 :=
  if 0 ≤ v then
    if ((magnitude v.toNat).headD 0).toNat < 128 then magnitude v.toNat
    else 0 :: magnitude v.toNat
  else
    if ((negativeOctets v).headD 0).toNat < 128 then 255 :: negativeOctets v
    else negativeOctets v

theorem signedValue_twosComplement (v : Int) : signedValue (twosComplement v) = v := by
  unfold twosComplement
  split
  next nonneg =>
    split
    next top => rw [signedValue, if_pos top, value_magnitude]; omega
    -- A zero octet keeps the sign bit clear.
    next top =>
      rw [signedValue, if_pos (by simp), value_cons, value_magnitude]
      simp only [UInt8.toNat_ofNat, Nat.zero_mod, Nat.zero_mul, Nat.zero_add]
      omega
  next neg =>
    have same := value_negativeOctets v (by omega)
    split
    -- An octet of ones keeps the sign bit set.
    next top =>
      rw [signedValue, if_neg (by simp), value_cons, List.length_cons, Int.pow_succ]
      push_cast
      rw [same]
      omega
    next top =>
      rw [signedValue, if_neg top, same]
      omega

theorem twosComplement_ne_nil (v : Int) : twosComplement v ≠ [] := by
  unfold twosComplement
  split <;> split <;> simp [magnitude_ne_nil, negativeOctets_ne_nil]

/-- No octet can be dropped from the front: the first nine bits are not all equal. -/
theorem twosComplement_minimal (v : Int) (b c : UInt8) (bs : List UInt8)
    (h : twosComplement v = b :: c :: bs) :
    ¬(b.toNat = 0 ∧ c.toNat < 128) ∧ ¬(b.toNat = 255 ∧ 128 ≤ c.toNat) := by
  unfold twosComplement at h
  split at h
  next nonneg =>
    split at h
    next top =>
      have head := magnitude_head v.toNat b c bs h
      rw [h, List.headD_cons] at top
      omega
    next top =>
      obtain ⟨rfl, rest⟩ := List.cons.inj h
      rw [rest, List.headD_cons] at top
      simp only [UInt8.toNat_ofNat]
      omega
  next neg =>
    split at h
    next top =>
      obtain ⟨rfl, rest⟩ := List.cons.inj h
      rw [rest, List.headD_cons] at top
      simp only [UInt8.toNat_ofNat]
      omega
    next top =>
      have head := negativeOctets_head v b c bs (by omega) h
      rw [h, List.headD_cons] at top
      omega

private theorem pow_length_cons (b : UInt8) (bs : List UInt8) :
    (256 : Int) ^ (b :: bs).length = 256 * 256 ^ bs.length := by
  rw [List.length_cons, Int.pow_succ, mul_comm]

/-- An octet that only repeats the sign bit after it adds nothing. -/
theorem signedValue_cons_padding (b c : UInt8) (bs : List UInt8)
    (padding : b.toNat = 0 ∧ c.toNat < 128 ∨ b.toNat = 255 ∧ 128 ≤ c.toNat) :
    signedValue (b :: c :: bs) = signedValue (c :: bs) := by
  have split := value_cons b (c :: bs)
  rcases padding with ⟨zero, low⟩ | ⟨ones, high⟩
  · rw [zero, Nat.zero_mul, Nat.zero_add] at split
    rw [signedValue, signedValue, List.headD_cons, List.headD_cons, if_pos (by omega), if_pos low,
      split]
  · rw [ones] at split
    rw [signedValue, signedValue, List.headD_cons, List.headD_cons, if_neg (by omega),
      if_neg (by omega), split, pow_length_cons b (c :: bs)]
    push_cast
    ring

/-- Octets of which the first is not all ones, unless it stands alone, are those that
`negativeOctets` gives of the integer they denote below zero. -/
private theorem negativeOctets_value (bs : List UInt8) (nonempty : bs ≠ [])
    (head : ∀ b c rest, bs = b :: c :: rest → b.toNat ≠ 255) :
    negativeOctets (value bs - 256 ^ bs.length) = bs := by
  induction bs using List.reverseRecOn with
  | nil => exact absurd rfl nonempty
  | append_singleton bs b ih =>
    have low := b.toNat_lt
    have denoted : (value (bs ++ [b]) : Int) - 256 ^ (bs ++ [b]).length =
        256 * (value bs - 256 ^ bs.length) + b.toNat := by
      rw [value_snoc, List.length_append, List.length_singleton, Int.pow_succ]
      push_cast
      ring
    have quotient : (256 * ((value bs : Int) - 256 ^ bs.length) + b.toNat) / 256 =
        value bs - 256 ^ bs.length := by omega
    have last : UInt8.ofNat ((256 * ((value bs : Int) - 256 ^ bs.length) + b.toNat) % 256).toNat =
        b := by
      rw [← UInt8.toNat_inj, UInt8.toNat_ofNat']
      omega
    rw [denoted, negativeOctets, quotient, last]
    cases bs with
    | nil => rfl
    | cons c rest =>
      -- The first octet is below all ones, so the octets before the last say more than the sign.
      have first : c.toNat ≠ 255 := by
        cases rest with
        | nil => exact head c b [] rfl
        | cons d rest => exact head c d (rest ++ [b]) rfl
      have more : (value (c :: rest) : Int) - 256 ^ (c :: rest).length < -1 := by
        have := value_lt rest
        have := c.toNat_lt
        have := Nat.mul_le_mul_right (256 ^ rest.length) (show c.toNat ≤ 254 by omega)
        have : value (c :: rest) + 1 < 256 ^ (c :: rest).length := by
          rw [value_cons, List.length_cons, Nat.pow_succ]
          omega
        have : (value (c :: rest) : Int) + 1 < 256 ^ (c :: rest).length := by exact_mod_cast this
        omega
      rw [if_pos more, ih (List.cons_ne_nil c rest)]
      intro d e es shape
      obtain ⟨rfl, -⟩ := List.cons.inj shape
      exact first

private theorem magnitude_value (b : UInt8) (bs : List UInt8) (head : b.toNat ≠ 0) :
    magnitude (value (b :: bs)) = b :: bs := by
  have octets := octets_value (b :: bs) (by
    intro c rest shape
    obtain ⟨rfl, -⟩ := List.cons.inj shape
    exact head)
  rw [magnitude, if_neg, octets]
  intro none
  rw [none, octets_zero] at octets
  cases octets

/-- A string that no octet can be dropped from is the one of the integer it denotes. -/
theorem twosComplement_signedValue (bs : List UInt8) (nonempty : bs ≠ [])
    (minimal : ∀ b c rest, bs = b :: c :: rest →
      ¬(b.toNat = 0 ∧ c.toNat < 128) ∧ ¬(b.toNat = 255 ∧ 128 ≤ c.toNat)) :
    twosComplement (signedValue bs) = bs := by
  match bs, nonempty with
  | b :: rest, _ =>
    have below := value_lt (b :: rest)
    have below : (value (b :: rest) : Int) < 256 ^ (b :: rest).length := by exact_mod_cast below
    by_cases clear : b.toNat < 128
    · rw [signedValue, List.headD_cons, if_pos clear, twosComplement, if_pos (by omega),
        Int.toNat_natCast]
      by_cases zero : b.toNat = 0
      · -- A zero octet stands alone, or keeps the sign bit of the next one clear.
        have octet : b = 0 := UInt8.toNat_inj.mp zero
        cases rest with
        | nil =>
          rw [octet]
          rfl
        | cons c cs =>
          obtain ⟨padded, -⟩ := minimal b c cs rfl
          have high : 128 ≤ c.toNat := by omega
          have same : value (b :: c :: cs) = value (c :: cs) := by
            rw [value_cons, zero, Nat.zero_mul, Nat.zero_add]
          rw [same, magnitude_value c cs (by omega), List.headD_cons, if_neg (by omega), octet]
      · rw [magnitude_value b rest zero, List.headD_cons, if_pos clear]
    · have negative : ¬0 ≤ signedValue (b :: rest) := by
        rw [signedValue, List.headD_cons, if_neg clear]
        omega
      rw [twosComplement, if_neg negative]
      by_cases ones : b.toNat = 255 ∧ rest ≠ []
      · -- An octet of ones keeps the sign bit of the next one set.
        obtain ⟨all, more⟩ := ones
        have octet : b = 255 := UInt8.toNat_inj.mp all
        obtain ⟨c, cs, rfl⟩ := List.exists_cons_of_ne_nil more
        obtain ⟨-, extended⟩ := minimal b c cs rfl
        have low : c.toNat < 128 := by omega
        have same : signedValue (b :: c :: cs) =
            value (c :: cs) - 256 ^ (c :: cs).length := by
          rw [signedValue, List.headD_cons, if_neg clear, value_cons, all,
            pow_length_cons b (c :: cs)]
          push_cast
          ring
        have shortest := negativeOctets_value (c :: cs) (List.cons_ne_nil c cs) (by
          intro d e es shape
          obtain ⟨rfl, -⟩ := List.cons.inj shape
          omega)
        rw [same, shortest, List.headD_cons, if_pos low, octet]
      · have shortest := negativeOctets_value (b :: rest) (List.cons_ne_nil b rest) (by
          intro d e es shape
          obtain ⟨rfl, rfl⟩ := List.cons.inj shape
          exact fun all => ones ⟨all, List.cons_ne_nil e es⟩)
        rw [signedValue, List.headD_cons, if_neg clear, shortest, List.headD_cons, if_neg clear]

/-- No string of an integer is shorter than the one it is written as. -/
theorem twosComplement_length_le (bs : List UInt8) (nonempty : bs ≠ []) :
    (twosComplement (signedValue bs)).length ≤ bs.length := by
  induction bs with
  | nil => exact absurd rfl nonempty
  | cons b rest ih =>
    by_cases padded : ∃ c cs, rest = c :: cs ∧
        (b.toNat = 0 ∧ c.toNat < 128 ∨ b.toNat = 255 ∧ 128 ≤ c.toNat)
    · obtain ⟨c, cs, rfl, padding⟩ := padded
      rw [signedValue_cons_padding b c cs padding]
      exact (ih (List.cons_ne_nil c cs)).trans (Nat.le_succ _)
    · rw [twosComplement_signedValue (b :: rest) nonempty]
      rintro d c cs shape
      obtain ⟨rfl, rfl⟩ := List.cons.inj shape
      exact ⟨fun zero => padded ⟨c, cs, rfl, .inl zero⟩, fun ones => padded ⟨c, cs, rfl, .inr ones⟩⟩

end BigEndian

import Mathlib.Data.List.Induction
import Mathlib.Tactic.Ring
import Mathlib.Tactic.Linarith

/-!
# Base-128 numbers

Natural numbers in groups of seven bits, most significant first; every octet but the last has its
high bit set. The shortest such string does not start with an empty group.
-/
namespace Base128

/-- The groups of a number before its last one. -/
def leading (n : Nat) : List UInt8 :=
  if n = 0 then [] else leading (n / 128) ++ [UInt8.ofNat (128 + n % 128)]
termination_by n
decreasing_by omega

/-- The shortest base-128 string of a number. -/
def encode (n : Nat) : List UInt8 := leading (n / 128) ++ [UInt8.ofNat (n % 128)]

/-- The number that the groups of an octet string denote. -/
def value (bs : List UInt8) : Nat := bs.foldl (fun v b => v * 128 + b.toNat % 128) 0

@[simp] theorem leading_zero : leading 0 = [] := by rw [leading]; simp

theorem leading_pos (n : Nat) (positive : n ≠ 0) :
    leading n = leading (n / 128) ++ [UInt8.ofNat (128 + n % 128)] := by
  rw [leading, if_neg positive]

theorem value_snoc (bs : List UInt8) (b : UInt8) :
    value (bs ++ [b]) = value bs * 128 + b.toNat % 128 := by
  simp [value]

theorem leading_toNat (n : Nat) : (UInt8.ofNat (128 + n % 128)).toNat = 128 + n % 128 := by
  rw [UInt8.toNat_ofNat']
  omega

theorem value_leading (n : Nat) : value (leading n) = n := by
  induction n using Nat.strongRecOn with
  | ind n ih =>
    by_cases zero : n = 0
    · subst zero
      simp [value]
    · rw [leading_pos n zero, value_snoc, ih (n / 128) (by omega), leading_toNat]
      omega

theorem value_encode (n : Nat) : value (encode n) = n := by
  rw [encode, value_snoc, value_leading, UInt8.toNat_ofNat']
  omega

/-- Every leading octet says that another one follows. -/
theorem leading_high (n : Nat) : ∀ b ∈ leading n, 128 ≤ b.toNat := by
  induction n using Nat.strongRecOn with
  | ind n ih =>
    by_cases zero : n = 0
    · subst zero
      simp
    · rw [leading_pos n zero]
      intro b member
      rcases List.mem_append.mp member with earlier | last
      · exact ih (n / 128) (by omega) b earlier
      · rw [List.mem_singleton.mp last, leading_toNat]
        omega

/-- The first group is not empty. -/
theorem leading_head (n : Nat) (b : UInt8) (bs : List UInt8) (h : leading n = b :: bs) :
    b.toNat ≠ 128 := by
  induction n using Nat.strongRecOn generalizing b bs with
  | ind n ih =>
    by_cases zero : n = 0
    · rw [zero, leading_zero] at h
      cases h
    · rw [leading_pos n zero] at h
      -- The first group is the first one of the quotient, or the only one.
      cases rest : leading (n / 128) with
      | nil =>
        rw [rest] at h
        obtain ⟨rfl, -⟩ := List.cons.inj h
        have small : n / 128 = 0 := by
          have := value_leading (n / 128)
          rw [rest] at this
          exact this.symm
        rw [leading_toNat]
        omega
      | cons c cs =>
        rw [rest] at h
        obtain ⟨rfl, -⟩ := List.cons.inj h
        exact ih (n / 128) (by omega) c cs rest

/-- Leading groups of which the first is not empty are those of their value. -/
theorem leading_value (bs : List UInt8) (high : ∀ b ∈ bs, 128 ≤ b.toNat)
    (head : ∀ b rest, bs = b :: rest → b.toNat ≠ 128) : leading (value bs) = bs := by
  induction bs using List.reverseRecOn with
  | nil => simp [value]
  | append_singleton bs b ih =>
    have shorter : leading (value bs) = bs := by
      apply ih
      · intro c member
        exact high c (by simp [member])
      · intro c rest shape
        exact head c (rest ++ [b]) (by rw [shape, List.cons_append])
    have follows := high b (by simp)
    have low := b.toNat_lt
    have nonzero : value (bs ++ [b]) ≠ 0 := by
      rw [value_snoc]
      cases bs with
      | nil =>
        have := head b [] rfl
        simp only [value, List.foldl_nil]
        omega
      | cons c rest =>
        intro zero
        rw [show value (c :: rest) = 0 by omega, leading_zero] at shorter
        cases shorter
    rw [leading_pos _ nonzero, value_snoc]
    have quotient : (value bs * 128 + b.toNat % 128) / 128 = value bs := by omega
    have last : UInt8.ofNat (128 + (value bs * 128 + b.toNat % 128) % 128) = b := by
      rw [← UInt8.toNat_inj, UInt8.toNat_ofNat']
      omega
    rw [quotient, last, shorter]

/-- The shortest string of a number is the only one. -/
theorem encode_value (bs : List UInt8) (last : UInt8) (high : ∀ b ∈ bs, 128 ≤ b.toNat)
    (head : ∀ b rest, bs = b :: rest → b.toNat ≠ 128) (low : last.toNat < 128) :
    encode (value (bs ++ [last])) = bs ++ [last] := by
  have quotient : value (bs ++ [last]) / 128 = value bs := by
    rw [value_snoc]
    omega
  have octet : UInt8.ofNat (value (bs ++ [last]) % 128) = last := by
    rw [← UInt8.toNat_inj, UInt8.toNat_ofNat', value_snoc]
    omega
  rw [encode, quotient, octet, leading_value bs high head]

theorem value_lt (bs : List UInt8) : value bs < 128 ^ bs.length := by
  induction bs using List.reverseRecOn with
  | nil => simp [value]
  | append_singleton bs b ih =>
    rw [value_snoc, List.length_append, List.length_singleton, Nat.pow_succ]
    omega

theorem leading_length_le (n k : Nat) (bound : n < 128 ^ k) : (leading n).length ≤ k := by
  induction k generalizing n with
  | zero =>
    have zero : n = 0 := by simpa using bound
    simp [zero]
  | succ k ih =>
    by_cases zero : n = 0
    · simp [zero]
    · have smaller : n / 128 < 128 ^ k := by
        rw [Nat.div_lt_iff_lt_mul (by omega), ← Nat.pow_succ]
        exact bound
      rw [leading_pos n zero, List.length_append, List.length_singleton]
      have := ih (n / 128) smaller
      omega

end Base128

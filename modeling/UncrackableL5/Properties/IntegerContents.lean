import UncrackableL5.Properties.DerRoundTrip

/-!
# Contents of INTEGER and ENUMERATED

The reader checks the first nine bits of a content and then adds up its octets. What passes is the
shortest two's complement string of the value it gives, so contents and values are in bijection.

## Main results

- `integerValueAs_eq_ok_iff`: what is decoded, and as what.
- `integer_contents_bijective`: integers and accepted contents are in bijection.
-/
namespace UncrackableL5

open BigEndian (signedValue twosComplement)

/-- A content that says in more octets than necessary what it says. -/
def Padded (content : Bytes) : Prop :=
  ∃ shorter : Bytes, shorter ≠ [] ∧ shorter.length < content.length ∧
    signedValue shorter = signedValue content

theorem checkMinimalInteger_eq_ok_iff (content : Bytes) :
    checkMinimalInteger content = .ok () ↔
      content ≠ [] ∧ ∀ b c rest, content = b :: c :: rest →
        ¬(b.toNat = 0 ∧ c.toNat < 128) ∧ ¬(b.toNat = 255 ∧ 128 ≤ c.toNat) := by
  match content with
  | [] => simp [checkMinimalInteger]
  | [b] => simp [checkMinimalInteger]
  | b :: c :: rest =>
    rw [checkMinimalInteger]
    constructor
    · intro passed
      refine ⟨List.cons_ne_nil b _, ?_⟩
      rintro d e es shape
      obtain ⟨rfl, tail⟩ := List.cons.inj shape
      obtain ⟨rfl, rfl⟩ := List.cons.inj tail
      split at passed
      next => cases passed
      next unpadded =>
        split at passed
        next => cases passed
        next unextended => exact ⟨unpadded, unextended⟩
    · rintro ⟨-, minimal⟩
      obtain ⟨unpadded, unextended⟩ := minimal b c rest rfl
      rw [if_neg unpadded, if_neg unextended]

/-- The check passes exactly the shortest string of an integer. -/
theorem checkMinimalInteger_iff_twosComplement (content : Bytes) :
    checkMinimalInteger content = .ok () ↔ content = twosComplement (signedValue content) := by
  rw [checkMinimalInteger_eq_ok_iff]
  constructor
  · rintro ⟨nonempty, minimal⟩
    exact (BigEndian.twosComplement_signedValue content nonempty minimal).symm
  · intro shortest
    refine ⟨?_, ?_⟩
    · rw [shortest]
      exact BigEndian.twosComplement_ne_nil _
    · intro b c rest shape
      exact BigEndian.twosComplement_minimal _ b c rest (shortest.symm.trans shape)

theorem checkMinimalInteger_cases (content : Bytes) :
    checkMinimalInteger content = .ok () ∨
      ∃ message, checkMinimalInteger content = .error (.derError message) := by
  match content with
  | [] => exact .inr ⟨_, rfl⟩
  | [_] => exact .inl rfl
  | b :: c :: rest =>
    rw [checkMinimalInteger]
    split_ifs
    · exact .inr ⟨_, rfl⟩
    · exact .inr ⟨_, rfl⟩
    · exact .inl rfl

/-- A content that passes the check is decoded as the integer it denotes. -/
theorem integerValueAs_primitive {t : Tlv} {tag : Nat}
    (primitive : isUniversal t tag (some false) = true) :
    integerValueAs t tag = (checkMinimalInteger t.content).map fun _ => signedValue t.content := by
  obtain ⟨universal, number, primitive⟩ := (isUniversal_eq_true _ _ _).mp primitive
  rw [integerValueAs, if_neg (by simp [universal, number, primitive])]
  cases checked : checkMinimalInteger t.content with
  | error raised => rfl
  | ok =>
    rw [ok_bind, signedValue]
    dsimp only [Except.map]
    split_ifs
    · omega
    · rfl
    · rfl
    · omega

theorem integerValueAs_other {t : Tlv} {tag : Nat}
    (other : ¬isUniversal t tag (some false) = true) :
    ∃ message, integerValueAs t tag = .error (.derError message) := by
  rw [integerValueAs, if_pos]
  · exact ⟨_, rfl⟩
  · by_contra primitive
    push Not at primitive
    obtain ⟨universal, number, primitive⟩ := primitive
    exact other ((isUniversal_eq_true _ _ _).mpr ⟨universal, number, by simpa using primitive⟩)

/-- An element is decoded as `v` exactly when it is primitive, of the tag asked for, and its content
is the shortest string of `v`. -/
theorem integerValueAs_eq_ok_iff (t : Tlv) (tag : Nat) (v : Int) :
    integerValueAs t tag = .ok v ↔
      isUniversal t tag (some false) = true ∧ t.content = twosComplement v := by
  by_cases primitive : isUniversal t tag (some false) = true
  · rw [integerValueAs_primitive primitive, eq_true primitive, true_and]
    constructor
    · intro decoded
      cases checked : checkMinimalInteger t.content with
      | error raised =>
        rw [checked] at decoded
        cases decoded
      | ok =>
        rw [checked] at decoded
        have value : signedValue t.content = v := Except.ok.inj decoded
        rw [← value]
        exact (checkMinimalInteger_iff_twosComplement t.content).mp checked
    · intro content
      have value : signedValue t.content = v := by
        rw [content, BigEndian.signedValue_twosComplement]
      rw [(checkMinimalInteger_iff_twosComplement t.content).mpr (by rw [value]; exact content),
        value]
      rfl
  · obtain ⟨message, raised⟩ := integerValueAs_other primitive
    rw [raised]
    simp [primitive]

/-- What is not decoded raises a `DerError`. -/
theorem integerValueAs_cases (t : Tlv) (tag : Nat) :
    (∃ v, integerValueAs t tag = .ok v) ∨
      ∃ message, integerValueAs t tag = .error (.derError message) := by
  by_cases primitive : isUniversal t tag (some false) = true
  · rw [integerValueAs_primitive primitive]
    rcases checkMinimalInteger_cases t.content with passed | ⟨message, raised⟩
    · exact .inl ⟨signedValue t.content, by rw [passed]; rfl⟩
    · exact .inr ⟨message, by rw [raised]; rfl⟩
  · exact .inr (integerValueAs_other primitive)

/-- Decoding under a universal tag, INTEGER and ENUMERATED among them: the shortest content of
every integer gives the integer back, every accepted content is the shortest of its value, two
accepted contents are the same exactly when their values are, and a content that is empty or
longer than necessary is rejected. -/
theorem integer_contents_bijective (tag : Nat) :
    (∀ (t : Tlv) (v : Int), isUniversal t tag (some false) = true →
      t.content = twosComplement v → integerValueAs t tag = .ok v) ∧
    (∀ (t : Tlv) (v : Int), integerValueAs t tag = .ok v →
      t.content = twosComplement v ∧ signedValue t.content = v ∧
        ∀ other : Bytes, other ≠ [] → signedValue other = v →
          t.content.length ≤ other.length) ∧
    (∀ (t u : Tlv) (v w : Int), integerValueAs t tag = .ok v → integerValueAs u tag = .ok w →
      (t.content = u.content ↔ v = w)) ∧
    (∀ t : Tlv, t.content = [] ∨ Padded t.content →
      ∃ message, integerValueAs t tag = .error (.derError message)) := by
  have accepted : ∀ (t : Tlv) (v : Int), integerValueAs t tag = .ok v →
      t.content = twosComplement v ∧ signedValue t.content = v := by
    intro t v decoded
    have content := ((integerValueAs_eq_ok_iff t tag v).mp decoded).2
    exact ⟨content, by rw [content, BigEndian.signedValue_twosComplement]⟩
  refine ⟨?_, ?_, ?_, ?_⟩
  · intro t v primitive content
    exact (integerValueAs_eq_ok_iff t tag v).mpr ⟨primitive, content⟩
  · intro t v decoded
    obtain ⟨content, value⟩ := accepted t v decoded
    refine ⟨content, value, ?_⟩
    intro other nonempty same
    rw [content, ← same]
    exact BigEndian.twosComplement_length_le other nonempty
  · intro t u v w first second
    obtain ⟨firstContent, firstValue⟩ := accepted t v first
    obtain ⟨secondContent, secondValue⟩ := accepted u w second
    constructor
    · intro same
      rw [← firstValue, ← secondValue, same]
    · intro same
      rw [firstContent, secondContent, same]
  · intro t rejected
    rcases integerValueAs_cases t tag with ⟨v, decoded⟩ | raised
    · obtain ⟨content, value⟩ := accepted t v decoded
      exfalso
      rcases rejected with empty | ⟨shorter, nonempty, less, same⟩
      · exact BigEndian.twosComplement_ne_nil v (content.symm.trans empty)
      · have least := BigEndian.twosComplement_length_le shorter nonempty
        rw [same, value, ← content] at least
        omega
    · exact raised

theorem integer_contents_bijective_minus_129 :
    let content := fun octets => DerWriter.element .universal false U.enumerated octets
    integerValueAs (DerWriter.enumerated (-129)) U.enumerated = .ok (-129) ∧
      [0xff, 0x7f] = twosComplement (-129) ∧
      (content [0xff, 0x7f]).content ≠ (content [0x7f]).content ∧
      ∃ message, integerValueAs (content [0xff, 0xff, 0x7f]) U.enumerated =
        .error (.derError message) := by
  intro content
  obtain ⟨complete, sound, injective, rejects⟩ := integer_contents_bijective U.enumerated
  refine ⟨complete _ (-129) rfl rfl, (sound (content [0xff, 0x7f]) (-129) rfl).1, ?_, ?_⟩
  · exact (injective _ (content [0x7f]) (-129) 127 rfl rfl).not.mpr (by decide)
  · exact rejects _ (.inr ⟨[0xff, 0x7f], by simp, by decide, by decide⟩)

end UncrackableL5

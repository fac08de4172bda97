import UncrackableL5.Properties.DerCanonical
import UncrackableL5.Properties.IntegerContents
import UncrackableL5.Properties.SignedFields

/-!
# ECDSA signatures

A signature is a DER sequence of two integers, which are written out in fields of the curve's size
by way of their hexadecimal numerals. The reader takes a content of less than 2^32 octets; up to
that size exactly the encodings of two numbers that fit their fields are decoded.

## Main results

- `fixedWidth_eq_ok_iff`: the field of a number.
- `ecdsaDerToRaw_eq_some_iff`: the signatures that are decoded, and what as.
- `ecdsa_decoding_exact`: decoding inverts encoding, and no two signatures give the same fields.
-/
namespace UncrackableL5

open DerWriter

/-! ### Fields -/

private theorem unitDigit_digitUnit {d : Nat} (small : d < 16) : unitDigit (digitUnit d) = d := by
  rw [unitDigit, digitUnit_toNat small]
  split_ifs <;> omega

/-- Two digits an octet. -/
private theorem hexPairs_digits (ds : List Nat) (small : ∀ d ∈ ds, d < 16)
    (even : ds.length % 2 = 0) :
    (hexPairs (ds.map digitUnit)).length = ds.length / 2 ∧
      BigEndian.value (hexPairs (ds.map digitUnit)) = Nat.ofDigits 16 ds.reverse := by
  induction ds using List.twoStepInduction with
  | nil => exact ⟨rfl, rfl⟩
  | singleton d => simp at even
  | cons_cons d e ds ih =>
    have high := small d (by simp)
    have low := small e (by simp)
    obtain ⟨length, value⟩ := ih (fun x member => small x (by simp [member])) (by
      simp only [List.length_cons] at even
      omega)
    have octet : (UInt8.ofNat (d * 16 + e)).toNat = d * 16 + e := by
      rw [UInt8.toNat_ofNat']
      omega
    have width : 256 ^ (ds.length / 2) = 16 ^ ds.length := by
      rw [show 256 = 16 ^ 2 from rfl, ← Nat.pow_mul]
      congr 1
      simp only [List.length_cons] at even
      omega
    simp only [List.map_cons, hexPairs, unitDigit_digitUnit high, unitDigit_digitUnit low]
    refine ⟨by simp only [List.length_cons, length]; omega, ?_⟩
    rw [BigEndian.value_cons, length, value, octet, width]
    simp only [List.reverse_cons, Nat.ofDigits_append, Nat.ofDigits_singleton, List.length_append,
      List.length_reverse, List.length_singleton, Nat.pow_succ]
    ring

/-- A number is written in a field of `n` octets exactly when it fits. -/
theorem fixedWidth_eq_ok_iff {n : Nat} (positive : 0 < n) (v : Nat) (out : Bytes) :
    fixedWidth v n = .ok out ↔ v < 256 ^ n ∧ out.length = n ∧ BigEndian.value out = v := by
  have hexadecimal : 1 < 16 := by omega
  obtain ⟨ds, printed, small, number⟩ := natToString_eq_map hexadecimal v
  have width : 256 ^ n = 16 ^ (n * 2) := by rw [Nat.mul_comm, Nat.pow_mul]
  have fits := natToString_length_le_iff (v := v) (k := n * 2) hexadecimal (by omega)
  rw [← width] at fits
  have padded : List.replicate (n * 2 - (natToString 16 v).length) 48 ++ natToString 16 v =
      (List.replicate (n * 2 - ds.length) 0 ++ ds).map digitUnit := by
    rw [printed, List.map_append, List.map_replicate, List.length_map]
    rfl
  rw [fixedWidth, guard_eq_ok_iff, padded]
  simp only [List.length_map, List.length_append, List.length_replicate]
  rw [printed, List.length_map] at fits
  have room : ¬(n * 2 - ds.length + ds.length > n * 2) ↔ v < 256 ^ n := by omega
  rw [room]
  apply and_congr_right
  intro inside
  obtain ⟨length, value⟩ := hexPairs_digits (List.replicate (n * 2 - ds.length) 0 ++ ds)
    (by
      intro d member
      rcases List.mem_append.mp member with pad | digit
      · rw [List.eq_of_mem_replicate pad]
        omega
      · exact small d digit)
    (by
      rw [List.length_append, List.length_replicate]
      omega)
  have size :
      (hexPairs ((List.replicate (n * 2 - ds.length) 0 ++ ds).map digitUnit)).length = n := by
    rw [length, List.length_append, List.length_replicate]
    omega
  rw [List.reverse_append, List.reverse_replicate, Nat.ofDigits_append_replicate_zero, number]
    at value
  constructor
  · intro same
    rw [← Except.ok.inj same]
    exact ⟨size, value⟩
  · rintro ⟨sizeToo, valueToo⟩
    rw [BigEndian.value_inj (size.trans sizeToo.symm) (value.trans valueToo.symm)]

/-! ### Signatures -/

/-- `sig` is the DER sequence of the two numbers, with a content that the reader takes. -/
structure IsSignature (r s : Nat) (sig : Bytes) : Prop where
  octets : sig = (seq [int r, int s]).raw
  short : (seq [int r, int s]).content.length < 2 ^ 32

theorem int_of_integerValue {t : Tlv} {v : Int} (encoded : t.Encoded)
    (decoded : integerValue t = .ok v) : t = int v := by
  obtain ⟨primitive, content⟩ := (integerValueAs_eq_ok_iff t U.integer v).mp decoded
  obtain ⟨universal, number, primitive⟩ := (isUniversal_eq_true _ _ _).mp primitive
  have whole := encoded.eq_element
  rw [universal, primitive, number, content] at whole
  exact whole

theorem seq_of_sequence {t : Tlv} {what : String} {items : List Tlv} (encoded : t.Encoded)
    (read : sequence t what = .ok items) :
    t = seq items ∧ ∀ c ∈ items, c.Encoded := by
  have each := encoded_of_sequence read
  obtain ⟨u, isSequence, kids⟩ := (bind_ok_iff _ _ _).mp read
  obtain ⟨universal, rfl⟩ := (expect_eq_ok_iff _ _ _ _ _).mp isSequence
  obtain ⟨universal, number, constructed⟩ := (isUniversal_eq_true _ _ _).mp universal
  have content := (concat_children kids).1
  have whole := encoded.eq_element
  rw [universal, constructed, number, ← content] at whole
  exact ⟨whole, each⟩

theorem integerValue_int_natCast (v : Nat) : integerValue (int v) = .ok (v : Int) :=
  (integerValueAs_eq_ok_iff _ _ _).mpr ⟨rfl, rfl⟩

/-- A signature is decoded exactly when it is the encoding of two numbers that fit their fields, and
then as these fields. -/
theorem ecdsaDerToRaw_eq_some_iff {n : Nat} (positive : 0 < n) (sig raw : Bytes) :
    ecdsaDerToRaw sig n = some raw ↔
      ∃ r s, IsSignature r s sig ∧ r < 256 ^ n ∧ s < 256 ^ n ∧
        ∃ high low, raw = high ++ low ∧ high.length = n ∧ low.length = n ∧
          BigEndian.value high = r ∧ BigEndian.value low = s := by
  have caught : ecdsaDerToRaw sig n = some raw ↔ ecdsaScalars sig n = .ok (some raw) := by
    rw [ecdsaDerToRaw]
    cases ecdsaScalars sig n with
    | error raised => simp
    | ok found => simp
  rw [caught, ecdsaScalars]
  constructor
  · intro decoded
    obtain ⟨t, parsed, opened⟩ := (bind_ok_iff _ _ _).mp decoded
    obtain ⟨items, read, matched⟩ := (bind_ok_iff _ _ _).mp opened
    obtain ⟨encoded, rfl⟩ := (parseSingle_eq_ok_iff sig t).mp parsed
    obtain ⟨rfl, each⟩ := seq_of_sequence encoded read
    split at matched
    next rT sT =>
      obtain ⟨r, first, signed⟩ := (bind_ok_iff _ _ _).mp matched
      obtain ⟨s, second, signed⟩ := (bind_ok_iff _ _ _).mp signed
      have isR := int_of_integerValue (each rT (by simp)) first
      have isS := int_of_integerValue (each sT (by simp)) second
      split at signed
      next => cases signed
      next signs =>
        obtain ⟨high, upper, signed⟩ := (bind_ok_iff _ _ _).mp signed
        obtain ⟨low, lower, signed⟩ := (bind_ok_iff _ _ _).mp signed
        cases signed
        obtain ⟨r, rfl⟩ := Int.eq_ofNat_of_zero_le (a := r) (by omega)
        obtain ⟨s, rfl⟩ := Int.eq_ofNat_of_zero_le (a := s) (by omega)
        obtain ⟨rFits, highLength, highValue⟩ := (fixedWidth_eq_ok_iff positive r high).mp upper
        obtain ⟨sFits, lowLength, lowValue⟩ := (fixedWidth_eq_ok_iff positive s low).mp lower
        refine ⟨r, s, ⟨by rw [isR, isS], ?_⟩, rFits, sFits, high, low, rfl, highLength, lowLength,
          highValue, lowValue⟩
        rw [← isR, ← isS]
        exact encoded.short
    next => cases matched
  · rintro ⟨r, s, ⟨rfl, short⟩, rFits, sFits, high, low, rfl, highLength, lowLength, highValue,
      lowValue⟩
    have written : (seq [int r, int s]).Encoded :=
      ⟨element_written _ _ _ _ (by decide), short⟩
    have items : ∀ x ∈ [int (r : Int), int s], x.Written := by
      intro x member
      rcases List.mem_pair.mp member with rfl | rfl
      · exact element_written _ _ _ _ (by decide)
      · exact element_written _ _ _ _ (by decide)
    have parsed := (parseSingle_eq_ok_iff _ _).mpr ⟨written, rfl⟩
    have read : sequence (seq [int r, int s]) "ECDSA-Sig-Value" = .ok [int r, int s] :=
      children_concat rfl rfl items short
    have upper := (fixedWidth_eq_ok_iff positive r high).mpr ⟨rFits, highLength, highValue⟩
    have lower := (fixedWidth_eq_ok_iff positive s low).mpr ⟨sFits, lowLength, lowValue⟩
    rw [parsed, ok_bind, read, ok_bind]
    simp only [integerValue_int_natCast, ok_bind, Int.natAbs_natCast, upper, lower]
    rw [if_neg (by omega)]

/-- A number fits a field of `n` octets exactly when it is the value of one. -/
private theorem exists_field {n v : Nat} (fits : v < 256 ^ n) :
    ∃ field : Bytes, field.length = n ∧ BigEndian.value field = v := by
  refine ⟨(List.range n).map fun i => UInt8.ofNat (v / 256 ^ (n - 1 - i)), by simp, ?_⟩
  rw [BigEndian.value_fixed, Nat.mod_eq_of_lt fits]

private theorem encodeLength_length_le {k : Nat} (small : k < 2 ^ 32) :
    (encodeLength k).length ≤ 5 := by
  have few : (BigEndian.octets k).length ≤ 4 := BigEndian.octets_length_le k 4 (by omega)
  rw [encodeLength]
  split
  next => simp
  next =>
    rw [List.length_cons]
    omega

/-- A number of `n` octets has a content of at most one octet more. -/
private theorem integerContent_length_le {n v : Nat} (fits : v < 256 ^ n) :
    (integerContent v).length ≤ n + 1 := by
  obtain ⟨field, length, value⟩ := exists_field fits
  have denoted : BigEndian.signedValue (0 :: field) = v := by
    rw [BigEndian.signedValue, List.headD_cons, if_pos (by decide), BigEndian.value_cons, value]
    simp
  have least := BigEndian.twosComplement_length_le (0 :: field) (List.cons_ne_nil 0 field)
  rw [denoted, List.length_cons, length] at least
  exact least

/-- A content of `k` octets holds no number of `k` octets or more. -/
private theorem lt_of_integerContent_length (v : Nat) : v < 256 ^ (integerContent v).length := by
  have denoted := BigEndian.signedValue_twosComplement v
  have below := BigEndian.value_lt (integerContent v)
  rw [BigEndian.signedValue] at denoted
  split at denoted
  next =>
    rw [integerContent] at below ⊢
    omega
  next =>
    rw [integerContent] at below ⊢
    have : (BigEndian.value (BigEndian.twosComplement v) : Int) <
        256 ^ (BigEndian.twosComplement (v : Int)).length := by exact_mod_cast below
    omega

private theorem element_raw_length {tag : Nat} (low : tag < 31) (cls : TagClass)
    (constructed : Bool) (content : Bytes) : (element cls constructed tag content).raw.length =
      1 + (encodeLength content.length).length + content.length := by
  simp only [element, tlv, encodeTag, if_pos low, List.length_append, List.length_singleton]

private theorem int_raw_length (v : Int) :
    (int v).raw.length =
      1 + (encodeLength (integerContent v).length).length + (integerContent v).length :=
  element_raw_length (by decide) .universal false (integerContent v)

private theorem signature_content_length (r s : Int) :
    (seq [int r, int s]).content.length = (int r).raw.length + (int s).raw.length := by
  simp [seq, element, concat]

/-- The numbers of a curve are short enough for the reader. -/
theorem signature_short {n r s : Nat} (small : n + 8 ≤ 2 ^ 31) (rFits : r < 256 ^ n)
    (sFits : s < 256 ^ n) : (seq [int r, int s]).content.length < 2 ^ 32 := by
  have first := integerContent_length_le rFits
  have second := integerContent_length_le sFits
  have firstHeader := encodeLength_length_le (k := (integerContent r).length) (by omega)
  have secondHeader := encodeLength_length_le (k := (integerContent s).length) (by omega)
  rw [signature_content_length, int_raw_length, int_raw_length]
  omega

theorem IsSignature.length_lt {r s : Nat} {sig : Bytes} (signature : IsSignature r s sig) :
    sig.length < 2 ^ 33 := by
  have header := encodeLength_length_le signature.short
  have short := signature.short
  rw [signature.octets, seq, element_raw_length (by decide)]
  change 1 + (encodeLength (seq [int r, int s]).content.length).length +
    (seq [int r, int s]).content.length < 2 ^ 33
  omega

/-- Numbers of many octets make a signature that is longer than the reader takes. -/
private theorem signature_long {n : Nat} (large : 2 ^ 33 ≤ n) (positive : 0 < n) :
    ¬(∀ sig : Bytes, (∃ raw, ecdsaDerToRaw sig n = some raw) ↔
      ∃ r s : Nat, r < 2 ^ (8 * n) ∧ s < 2 ^ (8 * n) ∧ sig = (seq [int r, int s]).raw) := by
  intro exact_
  have power : 2 ^ (8 * n) = 256 ^ n := by rw [Nat.pow_mul]
  obtain ⟨raw, decoded⟩ := (exact_ _).mpr
    ⟨2 ^ (8 * n) - 1, 0, Nat.sub_lt (Nat.two_pow_pos _) (by omega), Nat.two_pow_pos _, rfl⟩
  obtain ⟨r, s, signature, -⟩ := (ecdsaDerToRaw_eq_some_iff positive _ raw).mp decoded
  have bound := signature.length_lt
  -- The greatest number of `n` octets has a content as long.
  have wide : n ≤ (integerContent (2 ^ (8 * n) - 1 : Nat)).length := by
    have below := lt_of_integerContent_length (2 ^ (8 * n) - 1)
    rw [power] at below ⊢
    by_contra narrow
    have := Nat.pow_lt_pow_right (a := 256) (by omega) (not_le.mp narrow)
    omega
  have inner : (seq [int (2 ^ (8 * n) - 1 : Nat), int 0]).content.length <
      (seq [int (2 ^ (8 * n) - 1 : Nat), int 0]).raw.length :=
    (element_written .universal true U.sequence _ (by decide)).content_lt
  rw [signature_content_length, int_raw_length] at inner
  have same : (int ((0 : Nat) : Int)) = int 0 := rfl
  rw [same] at bound
  omega

/-- The reader takes no length of more than four octets, so the greatest scalars of a curve of
`2 ^ 33` octets are not decoded. -/
theorem ecdsa_decoding_long_scalar :
    ¬(∀ n : Nat, 0 < n → ∀ sig : Bytes, (∃ raw, ecdsaDerToRaw sig n = some raw) ↔
      ∃ r s : Nat, r < 2 ^ (8 * n) ∧ s < 2 ^ (8 * n) ∧ sig = (seq [int r, int s]).raw) := by
  intro exact_
  exact signature_long le_rfl (Nat.two_pow_pos 33) (exact_ (2 ^ 33) (Nat.two_pow_pos 33))

/-- Of a curve whose scalars have `n` octets: a signature is decoded exactly when it is the DER
sequence of two integers below `2 ^ (8 * n)`, none of them negative, with a content of less than
`2 ^ 32` octets, and then as their fields of `n` octets; decoding inverts encoding wherever the
content is that short, as it is up to `n = 2 ^ 31 - 8`; and no two signatures are decoded alike. -/
theorem ecdsa_decoding_exact (n : Nat) (positive : 0 < n) :
    (∀ sig raw : Bytes, ecdsaDerToRaw sig n = some raw ↔
      ∃ r s, r < 2 ^ (8 * n) ∧ s < 2 ^ (8 * n) ∧ IsSignature r s sig ∧
        ∃ high low, raw = high ++ low ∧ high.length = n ∧ low.length = n ∧
          BigEndian.value high = r ∧ BigEndian.value low = s) ∧
    (∀ sig : Bytes, ecdsaDerToRaw sig n = none ↔
      ¬∃ r s, r < 2 ^ (8 * n) ∧ s < 2 ^ (8 * n) ∧ IsSignature r s sig) ∧
    (∀ raw : Bytes, raw.length = 2 * n →
      n + 8 ≤ 2 ^ 31 ∨ IsSignature (BigEndian.value (raw.take n)) (BigEndian.value (raw.drop n))
        (ecdsaRawToDer raw) →
      ecdsaDerToRaw (ecdsaRawToDer raw) n = some raw) ∧
    (∀ sig other raw : Bytes, ecdsaDerToRaw sig n = some raw → ecdsaDerToRaw other n = some raw →
      sig = other) := by
  have power : 2 ^ (8 * n) = 256 ^ n := by rw [Nat.pow_mul]
  rw [power]
  have decodes := ecdsaDerToRaw_eq_some_iff positive
  refine ⟨?_, ?_, ?_, ?_⟩
  · intro sig raw
    rw [decodes]
    constructor
    · rintro ⟨r, s, signature, rFits, sFits, fields⟩
      exact ⟨r, s, rFits, sFits, signature, fields⟩
    · rintro ⟨r, s, rFits, sFits, signature, fields⟩
      exact ⟨r, s, signature, rFits, sFits, fields⟩
  · intro sig
    constructor
    · rintro none ⟨r, s, rFits, sFits, signature⟩
      obtain ⟨high, highLength, highValue⟩ := exists_field rFits
      obtain ⟨low, lowLength, lowValue⟩ := exists_field sFits
      have decoded := (decodes sig (high ++ low)).mpr
        ⟨r, s, signature, rFits, sFits, high, low, rfl, highLength, lowLength, highValue, lowValue⟩
      rw [none] at decoded
      cases decoded
    · intro other
      cases found : ecdsaDerToRaw sig n with
      | none => rfl
      | some raw =>
        obtain ⟨r, s, signature, rFits, sFits, -⟩ := (decodes sig raw).mp found
        exact absurd ⟨r, s, rFits, sFits, signature⟩ other
  · intro raw size short
    have highLength : (raw.take n).length = n := by
      rw [List.length_take]
      omega
    have lowLength : (raw.drop n).length = n := by
      rw [List.length_drop]
      omega
    have high := BigEndian.value_lt (raw.take n)
    have low := BigEndian.value_lt (raw.drop n)
    rw [highLength] at high
    rw [lowLength] at low
    have signature : IsSignature (BigEndian.value (raw.take n)) (BigEndian.value (raw.drop n))
        (ecdsaRawToDer raw) := by
      rcases short with small | signature
      · refine ⟨?_, signature_short small high low⟩
        rw [ecdsaRawToDer, show raw.length / 2 = n by omega]
      · exact signature
    exact (decodes _ raw).mpr ⟨_, _, signature, high, low, raw.take n, raw.drop n,
      (List.take_append_drop n raw).symm, highLength, lowLength, rfl, rfl⟩
  · intro sig other raw first second
    obtain ⟨r, s, signature, -, -, high, low, rfl, highLength, -, rfl, rfl⟩ :=
      (decodes sig raw).mp first
    obtain ⟨r', s', signatureToo, -, -, high', low', same, highLengthToo, -, rfl, rfl⟩ :=
      (decodes other _).mp second
    obtain ⟨rfl, rfl⟩ := List.append_inj same (highLength.trans highLengthToo.symm)
    rw [signature.octets, signatureToo.octets]

/-- Two scalars of a curve of one octet, the second of which needs a sign octet. -/
theorem ecdsa_decoding_exact_one_octet :
    ecdsaDerToRaw [0x30, 7, 2, 1, 5, 2, 2, 0, 0x80] 1 = some [5, 0x80] ∧
      ecdsaDerToRaw (ecdsaRawToDer [5, 0x80]) 1 = some [5, 0x80] ∧
      ecdsaRawToDer [5, 0x80] = [0x30, 7, 2, 1, 5, 2, 2, 0, 0x80] := by
  obtain ⟨-, -, inverts, unique⟩ := ecdsa_decoding_exact 1 (by decide)
  have read : ecdsaDerToRaw [0x30, 7, 2, 1, 5, 2, 2, 0, 0x80] 1 = some [5, 0x80] := by
    decide +kernel
  have again := inverts [5, 0x80] rfl (.inl (by decide))
  exact ⟨read, again, unique _ _ _ again read⟩

end UncrackableL5

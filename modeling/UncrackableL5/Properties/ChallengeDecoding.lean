import UncrackableL5.Android.Protocol
import UncrackableL5.Properties.ChallengeWindow

/-!
# The challenge on both sides

The app decodes a challenge with another decoder than the server, and without the key. Both take
the texts that are spelled as their octets would be encoded, so they part only over the tag and the
time.

## Main results

- `JavaBase64.urlDecode_urlEncode`: the decoder of the app reads what is encoded.
- `challenge_formats_agree`: what the server makes of a challenge, by what the app makes of it.
-/
namespace UncrackableL5

/-! ### The decoder of the app -/

namespace JavaBase64

private theorem sextet_letter : ∀ v < 64, sextet (letter urlAlphabet v) = some v := by decide

private theorem decodeLoop_letter {v : Nat} (small : v < 64) (rest : JavaString) (bits count : Nat)
    (within : count ≠ 3) :
    decodeLoop (letter urlAlphabet v :: rest) bits count =
      decodeLoop rest (bits * 64 + v) (count + 1) := by
  rw [decodeLoop, sextet_letter v small]
  exact if_neg within

/-- A unit of four letters gives the three octets that it spells. -/
private theorem decodeLoop_unit {n : Nat} (small : n < 2 ^ 24) (rest : JavaString) :
    decodeLoop (letter urlAlphabet (n / 262144) :: letter urlAlphabet (n / 4096 % 64) ::
        letter urlAlphabet (n / 64 % 64) :: letter urlAlphabet (n % 64) :: rest) 0 0 =
      (decodeLoop rest 0 0).map fun octets =>
        UInt8.ofNat (n / 65536) :: UInt8.ofNat (n / 256) :: UInt8.ofNat n :: octets := by
  have whole : (((0 * 64 + n / 262144) * 64 + n / 4096 % 64) * 64 + n / 64 % 64) * 64 + n % 64 = n := by
    omega
  rw [decodeLoop_letter (by omega) _ _ _ (by omega), decodeLoop_letter (by omega) _ _ _ (by omega),
    decodeLoop_letter (by omega) _ _ _ (by omega), decodeLoop, sextet_letter _ (by omega)]
  simp only [whole, Nat.reduceAdd, ↓reduceIte]

private theorem ofNat_octet {n : Nat} {b : UInt8} (same : n % 256 = b.toNat) :
    UInt8.ofNat n = b := by
  rw [← UInt8.toNat_inj, UInt8.toNat_ofNat']
  exact same

/-- The decoder reads back what is encoded without padding. -/
theorem urlDecode_urlEncode (bytes : Bytes) : urlDecode (urlEncode bytes) = some bytes := by
  rw [urlDecode, urlEncode]
  induction bytes using sextets.induct with
  | case1 b0 b1 b2 rest ih =>
    have first := b0.toNat_lt
    have second := b1.toNat_lt
    have third := b2.toNat_lt
    simp only [encode]
    rw [decodeLoop_unit (by omega), ih, Option.map_some, ofNat_octet (b := b0) (by omega),
      ofNat_octet (b := b1) (by omega), ofNat_octet (b := b2) (by omega)]
  -- The bits that are left over in the last unit are zero.
  | case2 b0 b1 =>
    have first := b0.toNat_lt
    have second := b1.toNat_lt
    simp only [encode, Bool.false_eq_true, ↓reduceIte, List.append_nil]
    rw [decodeLoop_letter (by omega) _ _ _ (by omega),
      decodeLoop_letter (by omega) _ _ _ (by omega),
      decodeLoop_letter (by omega) _ _ _ (by omega), decodeLoop, lastUnit,
      ofNat_octet (b := b0) (by omega), ofNat_octet (b := b1) (by omega)]
  | case3 b0 =>
    have first := b0.toNat_lt
    simp only [encode, Bool.false_eq_true, ↓reduceIte, List.append_nil]
    rw [decodeLoop_letter (by omega) _ _ _ (by omega),
      decodeLoop_letter (by omega) _ _ _ (by omega), decodeLoop, lastUnit,
      ofNat_octet (b := b0) (by omega)]
  | case4 => rfl

end JavaBase64

namespace Challenge

private theorem encoded_length {bytes : Bytes} (octets : bytes.length = 57) :
    (base64UrlEncodeNoPad bytes).length = 76 := by
  have total := base64UrlEncodeNoPad_length bytes
  rw [padLength, octets] at total
  exact total

/-- The texts that the app takes. -/
theorem decode_eq_ok_iff {encoded : JavaString} {bytes : Bytes} :
    decode encoded = .ok bytes ↔
      encoded = base64UrlEncodeNoPad bytes ∧ bytes.length = 57 ∧ bytes[0]? = some 1 := by
  constructor
  · intro decoded
    rw [decode] at decoded
    split at decoded
    next => cases decoded
    next =>
      split at decoded
      next => cases decoded
      next read found =>
        split at decoded
        next => cases decoded
        next form =>
          cases decoded
          simp only [not_or, not_not, ne_eq, size] at form
          exact ⟨form.2.2.symm, form.1, form.2.1⟩
  · rintro ⟨rfl, octets, version⟩
    have length : ¬(base64UrlEncodeNoPad bytes).length ≠ encodedLength :=
      not_not.mpr (encoded_length octets)
    have read : JavaBase64.urlDecode (base64UrlEncodeNoPad bytes) = some bytes :=
      JavaBase64.urlDecode_urlEncode bytes
    rw [decode, if_neg length, read]
    refine if_neg ?_
    simp only [octets, version, size, JavaBase64.urlEncode, base64UrlEncodeNoPad, ne_eq,
      not_true_eq_false, or_false, not_false_eq_true]

/-- The app refuses a challenge with one kind of exception. -/
theorem decode_illegalArgument {encoded : JavaString} {e : Throwable}
    (failed : decode encoded = .error e) : ∃ message, e = .illegalArgument message := by
  rw [decode] at failed
  split at failed
  next =>
    cases failed
    exact ⟨_, rfl⟩
  next =>
    split at failed
    next =>
      cases failed
      exact ⟨_, rfl⟩
    next =>
      split at failed
      next =>
        cases failed
        exact ⟨_, rfl⟩
      next => cases failed

end Challenge

/-! ### The two sides -/

/-- What the server has left to check of a text that the app takes. -/
private theorem verify_of_form (c : Challenges) {bytes : Bytes} (octets : bytes.length = 57)
    (version : bytes[0]? = some 1) (nowSeconds : Int) :
    c.verify (base64UrlEncodeNoPad bytes) nowSeconds =
      if c.tag (bytes.take 41) ≠ bytes.drop 41 then .error (.rejected .attestationInvalid)
      else if 0 ≤ Challenges.issuedAt bytes ∧ Challenges.issuedAt bytes ≤ nowSeconds ∧
          nowSeconds < Challenges.issuedAt bytes + challengeLifetimeSeconds then .ok bytes
      else .error (.rejected .challengeExpired) := by
  have valid : ¬(bytes.length ≠ 57 ∨ base64UrlEncodeNoPad bytes ≠ base64UrlEncodeNoPad bytes ∨
      bytes[0]? ≠ some 1) := by
    rintro (wrong | wrong | wrong)
    · exact wrong octets
    · exact wrong rfl
    · exact wrong version
  rw [Challenges.verify, if_neg (not_not.mpr (Challenge.encoded_length octets)),
    base64UrlDecode_base64UrlEncodeNoPad]
  simp only [Js.recover, ok_bind]
  rw [if_neg valid]
  simp only [bytesEqual_iff]
  split
  next => rfl
  next =>
    -- The same three bounds, refused on one side and asked for on the other.
    by_cases inside : 0 ≤ Challenges.issuedAt bytes ∧ Challenges.issuedAt bytes ≤ nowSeconds ∧
        nowSeconds < Challenges.issuedAt bytes + challengeLifetimeSeconds
    · rw [if_pos inside, if_neg (by omega)]
    · rw [if_neg inside, if_pos (by omega)]

/-- For every text and time, under every key: what the app refuses, it refuses with an
`IllegalArgumentException` and the server refuses as invalid; of what the app takes, the server
checks the tag and then the time, and reads the same octets. Every challenge that the server issues
is taken by the app. -/
theorem challenge_formats_agree (c : Challenges) (encoded : JavaString) (nowSeconds : Int) :
    (match Challenge.decode encoded with
      | .error e => (∃ message, e = .illegalArgument message) ∧
          c.verify encoded nowSeconds = .error (.rejected .attestationInvalid)
      | .ok bytes => c.verify encoded nowSeconds =
          if c.tag (bytes.take 41) ≠ bytes.drop 41 then .error (.rejected .attestationInvalid)
          else if 0 ≤ Challenges.issuedAt bytes ∧ Challenges.issuedAt bytes ≤ nowSeconds ∧
              nowSeconds < Challenges.issuedAt bytes + challengeLifetimeSeconds then .ok bytes
          else .error (.rejected .challengeExpired)) ∧
    ∀ nonce, nonce.length = 32 →
      Challenge.decode (c.issue nonce nowSeconds) = .ok (c.issuedBytes nonce nowSeconds) := by
  refine ⟨?_, ?_⟩
  · cases decoded : Challenge.decode encoded with
    | error e =>
      refine ⟨Challenge.decode_illegalArgument decoded, ?_⟩
      -- No octets are spelled by this text, so none carry the tag.
      apply Challenges.verify_invalid
      intro bytes authentic
      have taken := Challenge.decode_eq_ok_iff.mpr ⟨authentic.spelled, authentic.octets,
        authentic.version⟩
      rw [decoded] at taken
      cases taken
    | ok bytes =>
      obtain ⟨rfl, octets, version⟩ := Challenge.decode_eq_ok_iff.mp decoded
      exact verify_of_form c octets version nowSeconds
  · intro nonce random
    have authentic := c.authentic_issue random nowSeconds
    exact Challenge.decode_eq_ok_iff.mpr ⟨authentic.spelled, authentic.octets, authentic.version⟩

/-- The app takes an issued challenge, and the server accepts it for two minutes. -/
theorem challenge_formats_agree_sample :
    let issued := Sample.zeroKey.issue (List.replicate 32 7) 1000
    let bytes := Sample.zeroKey.issuedBytes (List.replicate 32 7) 1000
    Challenge.decode issued = .ok bytes ∧ Sample.zeroKey.verify issued 1119 = .ok bytes ∧
      Sample.zeroKey.verify issued 1120 = .error (.rejected .challengeExpired) := by
  intro issued bytes
  have size : (List.replicate 32 (7 : UInt8)).length = 32 := rfl
  have taken : Challenge.decode issued = .ok bytes :=
    (challenge_formats_agree Sample.zeroKey [] 1000).2 _ size
  have live := (challenge_formats_agree Sample.zeroKey issued 1119).1
  have expired := (challenge_formats_agree Sample.zeroKey issued 1120).1
  rw [taken] at live expired
  refine ⟨taken, live.trans ?_, expired.trans ?_⟩
  · decide +kernel
  · decide +kernel

end UncrackableL5

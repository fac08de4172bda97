import UncrackableL5.Properties.Base64
import UncrackableL5.Properties.ChallengeUse

/-!
# The spelling and the window of a challenge

A challenge is accepted in one spelling and for two minutes. The seconds are written as an unsigned
number and read as a signed one; the two differ only outside every window.

## Main results

- `Challenges.verify_eq_ok`, `Challenges.verify_expired`, `Challenges.verify_invalid`: the three
  outcomes of `verify`.
- `challenge_window`: issued challenges, accepted texts, and the expiry up to rounding.
-/
namespace UncrackableL5

namespace Challenges

/-- The octets that `issue` spells. -/
def issuedBytes (c : Challenges) (nonce : Bytes) (nowSeconds : Int) : Bytes :=
  let payload := 1 :: (bigUint64 nowSeconds ++ nonce)
  payload ++ c.tag payload

/-- The seconds of a challenge as they were written. -/
def issuedSeconds (bytes : Bytes) : Nat := BigEndian.value ((bytes.drop 1).take 8)

/-- The text spells a challenge that carries the tag of this key. -/
structure Authentic (c : Challenges) (encoded : JsString) (bytes : Bytes) : Prop where
  spelled : encoded = base64UrlEncodeNoPad bytes
  octets : bytes.length = 57
  version : bytes[0]? = some 1
  tag : bytes.drop 41 = c.tag (bytes.take 41)

/-- The seconds of the challenge lie in the last two minutes. -/
def InWindow (bytes : Bytes) (nowSeconds : Int) : Prop :=
  nowSeconds - challengeLifetimeSeconds < issuedSeconds bytes ∧ issuedSeconds bytes ≤ nowSeconds

theorem tag_length (c : Challenges) (payload : Bytes) : (c.tag payload).length = 16 := by
  rw [tag, List.length_take, c.size]
  rfl

theorem Authentic.decoded {c : Challenges} {encoded : JsString} {bytes : Bytes}
    (authentic : c.Authentic encoded bytes) : base64UrlDecode encoded = .ok bytes := by
  rw [authentic.spelled]
  exact base64UrlDecode_base64UrlEncodeNoPad bytes

theorem Authentic.unique {c : Challenges} {encoded : JsString} {bytes others : Bytes}
    (first : c.Authentic encoded bytes) (second : c.Authentic encoded others) : bytes = others := by
  exact Except.ok.inj (first.decoded.symm.trans second.decoded)

/-! ### Seconds -/

/-- The signed reading lies in a window exactly when the unsigned one does. -/
theorem inWindow_iff {bytes : Bytes} (octets : bytes.length = 57) {nowSeconds : Int}
    (bound : nowSeconds < 2 ^ 63) :
    InWindow bytes nowSeconds ↔ 0 ≤ issuedAt bytes ∧ issuedAt bytes ≤ nowSeconds ∧
      nowSeconds < issuedAt bytes + challengeLifetimeSeconds := by
  have length : ((bytes.drop 1).take 8).length = 8 := by
    rw [List.length_take, List.length_drop, octets]
    rfl
  unfold InWindow issuedAt issuedSeconds challengeLifetimeSeconds
  rcases Nat.lt_or_ge (2 * BigEndian.value ((bytes.drop 1).take 8)) (256 ^ 8) with small | large
  · rw [BigEndian.signedValue_eq_value _ (by rwa [length])]
    omega
  -- A seconds field with the top bit set is negative, and later than every reading.
  · have negative := BigEndian.signedValue_neg ((bytes.drop 1).take 8) (by rwa [length])
    omega

theorem bigUint64_length (v : Int) : (bigUint64 v).length = 8 := by simp [bigUint64]

theorem value_bigUint64 {v : Int} (nonneg : 0 ≤ v) (bound : v < 2 ^ 64) :
    (BigEndian.value (bigUint64 v) : Int) = v := by
  have fixed := BigEndian.value_fixed 8 (v % 2 ^ 64).toNat
  rw [bigUint64, fixed]
  omega

theorem issuedSeconds_issuedBytes (c : Challenges) (nonce : Bytes) {t : Int} (nonneg : 0 ≤ t)
    (bound : t < 2 ^ 64) : (issuedSeconds (c.issuedBytes nonce t) : Int) = t := by
  have field : ((c.issuedBytes nonce t).drop 1).take 8 = bigUint64 t := by
    simp [issuedBytes, bigUint64_length]
  rw [issuedSeconds, field, value_bigUint64 nonneg bound]

/-- The seconds are a double; their sum with the lifetime need not be. -/
theorem expiresAtSeconds_issuedBytes (c : Challenges) (nonce : Bytes) {t : Int} (nonneg : 0 ≤ t)
    (bound : t ≤ 2 ^ 53 - 1) :
    expiresAtSeconds (c.issuedBytes nonce t) = Number.round (t + 120 : Int) := by
  have seconds : issuedAt (c.issuedBytes nonce t) = t := by
    have value := c.issuedSeconds_issuedBytes nonce nonneg (by omega)
    rw [issuedAt, BigEndian.signedValue_eq_value]
    · exact value
    · have length : (((c.issuedBytes nonce t).drop 1).take 8).length = 8 := by
        simp [issuedBytes, bigUint64_length]
      rw [length]
      unfold issuedSeconds at value
      omega
  rw [expiresAtSeconds, seconds, Number.round_intCast _ (by omega), challengeLifetimeSeconds,
    Number.intCast_def, Number.add, Int.cast_add]

/-- What `issue` spells is authentic. -/
theorem authentic_issue (c : Challenges) {nonce : Bytes} (size : nonce.length = 32) (t : Int) :
    c.Authentic (c.issue nonce t) (c.issuedBytes nonce t) := by
  have payload : (1 :: (bigUint64 t ++ nonce)).length = 41 := by
    rw [List.length_cons, List.length_append, bigUint64_length, size]
  refine ⟨rfl, ?_, rfl, ?_⟩
  · rw [issuedBytes, List.length_append, payload, tag_length]
  · rw [issuedBytes, List.drop_left' payload, List.take_left' payload]

/-! ### The outcomes of `verify` -/

theorem Authentic.size {c : Challenges} {encoded : JsString} {bytes : Bytes}
    (authentic : c.Authentic encoded bytes) : encoded.length = 76 := by
  have total := base64UrlEncodeNoPad_length bytes
  rw [← authentic.spelled, padLength, authentic.octets] at total
  simpa using total

theorem verify_eq_ok (c : Challenges) (encoded : JsString) {nowSeconds : Int}
    (bound : nowSeconds < 2 ^ 63) (bytes : Bytes) :
    c.verify encoded nowSeconds = .ok bytes ↔
      c.Authentic encoded bytes ∧ InWindow bytes nowSeconds := by
  rw [verify_eq_ok_iff]
  constructor
  · intro a
    exact ⟨⟨a.canonical.symm, a.octets, a.version, a.authentic.symm⟩,
      (inWindow_iff a.octets bound).mpr ⟨a.positive, a.started, a.unexpired⟩⟩
  · rintro ⟨authentic, window⟩
    obtain ⟨positive, started, unexpired⟩ := (inWindow_iff authentic.octets bound).mp window
    exact {
      size := authentic.size
      decoded := authentic.spelled ▸ base64UrlDecode_base64UrlEncodeNoPad bytes
      octets := authentic.octets
      canonical := authentic.spelled.symm
      version := authentic.version
      authentic := authentic.tag.symm
      positive := positive
      started := started
      unexpired := unexpired }

/-- The only reason to refuse an authentic text is the time. -/
theorem verify_expired {c : Challenges} {encoded : JsString} {bytes : Bytes}
    (authentic : c.Authentic encoded bytes) {nowSeconds : Int} (bound : nowSeconds < 2 ^ 63)
    (outside : ¬InWindow bytes nowSeconds) :
    c.verify encoded nowSeconds = .error (.rejected .challengeExpired) := by
  have decoded : base64UrlDecode encoded = .ok bytes :=
    authentic.spelled ▸ base64UrlDecode_base64UrlEncodeNoPad bytes
  have valid : ¬(bytes.length ≠ 57 ∨ base64UrlEncodeNoPad bytes ≠ encoded ∨
      bytes[0]? ≠ some 1) := by
    rintro (octets | spelling | version)
    · exact octets authentic.octets
    · exact spelling authentic.spelled.symm
    · exact version authentic.version
  have tagged : ¬¬(bytesEqual (c.tag (bytes.take 41)) (bytes.drop 41) = true) := by
    rw [not_not, bytesEqual_iff]
    exact authentic.tag.symm
  rw [inWindow_iff authentic.octets bound] at outside
  rw [verify, if_neg (not_not.mpr authentic.size), decoded]
  simp only [Js.recover, ok_bind]
  rw [if_neg valid, if_neg tagged, if_pos]
  omega

/-- A text that is not authentic is refused for its format or its tag. -/
theorem verify_invalid {c : Challenges} {encoded : JsString}
    (forged : ∀ bytes, ¬c.Authentic encoded bytes) (nowSeconds : Int) :
    c.verify encoded nowSeconds = .error (.rejected .attestationInvalid) := by
  rw [verify]
  split
  next => rfl
  next =>
    cases decoded : base64UrlDecode encoded with
    | error => rfl
    | ok bytes =>
      simp only [Js.recover, ok_bind]
      split
      next => rfl
      next valid =>
        split
        next => rfl
        next tagged =>
          simp only [not_or, not_not] at valid
          rw [not_not, bytesEqual_iff] at tagged
          exact absurd ⟨valid.2.1.symm, valid.1, valid.2.2, tagged.symm⟩ (forged bytes)

end Challenges

open Challenges

/-- Issued challenges, accepted texts, and the expiry as the double nearest to it. -/
theorem challenge_window (c : Challenges) :
    (∀ nonce t nowSeconds, nonce.length = 32 → 0 ≤ t → t ≤ 2 ^ 53 - 1 → 0 ≤ nowSeconds →
      nowSeconds ≤ 2 ^ 53 - 1 →
      (c.issuedBytes nonce t).length = 57 ∧
        (c.verify (c.issue nonce t) nowSeconds = .ok (c.issuedBytes nonce t) ↔
          t ≤ nowSeconds ∧ nowSeconds < t + 120) ∧
        expiresAtSeconds (c.issuedBytes nonce t) = Number.round (t + 120 : Int) ∧
        (t + 120 ≤ 2 ^ 53 → expiresAtSeconds (c.issuedBytes nonce t) = (t + 120 : Int))) ∧
    ∀ encoded nowSeconds, 0 ≤ nowSeconds → nowSeconds ≤ 2 ^ 53 - 1 →
      (∀ bytes, c.verify encoded nowSeconds = .ok bytes ↔
        c.Authentic encoded bytes ∧ InWindow bytes nowSeconds) ∧
      (∀ bytes, c.Authentic encoded bytes → ¬InWindow bytes nowSeconds →
        c.verify encoded nowSeconds = .error (.rejected .challengeExpired)) ∧
      ((∀ bytes, ¬c.Authentic encoded bytes) →
        c.verify encoded nowSeconds = .error (.rejected .attestationInvalid)) ∧
      ∀ bytes other later, c.verify encoded nowSeconds = .ok bytes →
        c.verify other later = .ok bytes → encoded = other := by
  constructor
  · intro nonce t nowSeconds size nonneg bound _ boundNow
    have authentic := c.authentic_issue size t
    have seconds := c.issuedSeconds_issuedBytes nonce nonneg (by omega)
    have expiry := c.expiresAtSeconds_issuedBytes nonce nonneg bound
    refine ⟨authentic.octets, ?_, expiry, ?_⟩
    · rw [verify_eq_ok c _ (by omega), and_iff_right authentic, InWindow, seconds,
        challengeLifetimeSeconds]
      omega
    · intro small
      rw [expiry]
      exact Number.round_intCast_le _ (by omega)
  · intro encoded nowSeconds _ boundNow
    have bound : nowSeconds < 2 ^ 63 := by omega
    refine ⟨verify_eq_ok c encoded bound, fun bytes authentic outside => ?_, fun forged => ?_, ?_⟩
    · exact verify_expired authentic bound outside
    · exact verify_invalid forged nowSeconds
    · intro bytes other later first second
      have spelled := ((verify_eq_ok_iff ..).mp first).canonical
      exact spelled.symm.trans ((verify_eq_ok_iff ..).mp second).canonical

namespace Sample

/-- A key whose tags are zero. -/
def zeroKey : Challenges where
  sign := fun _ => List.replicate 32 0
  size := fun _ => List.length_replicate

end Sample

theorem challenge_window_sample :
    let issued := Sample.zeroKey.issue (List.replicate 32 7) 1000
    Sample.zeroKey.verify issued 1119 = .ok (Sample.zeroKey.issuedBytes (List.replicate 32 7) 1000) ∧
      Sample.zeroKey.verify issued 1120 = .error (.rejected .challengeExpired) ∧
      Sample.zeroKey.verify [] 1120 = .error (.rejected .attestationInvalid) ∧
      ∀ other later, Sample.zeroKey.verify other later =
        .ok (Sample.zeroKey.issuedBytes (List.replicate 32 7) 1000) → issued = other := by
  obtain ⟨issues, accepts⟩ := challenge_window Sample.zeroKey
  have size : (List.replicate 32 (7 : UInt8)).length = 32 := rfl
  intro issued
  obtain ⟨-, window, -⟩ := issues _ 1000 1119 size (by omega) (by omega) (by omega) (by omega)
  obtain ⟨-, -, -, unique⟩ := accepts issued 1119 (by omega) (by omega)
  obtain ⟨-, expired, -, -⟩ := accepts issued 1120 (by omega) (by omega)
  obtain ⟨-, -, invalid, -⟩ := accepts [] 1120 (by omega) (by omega)
  have live := window.mpr (by omega)
  refine ⟨live, ?_, ?_, fun other later => unique _ other later live⟩
  · apply expired _ (Sample.zeroKey.authentic_issue size 1000)
    rw [InWindow, Sample.zeroKey.issuedSeconds_issuedBytes _ (by omega) (by omega),
      challengeLifetimeSeconds]
    omega
  · apply invalid
    intro bytes authentic
    cases authentic.size

/-- The last second that a clock can count has an expiry that no double is equal to. -/
theorem latest_challenge_expires_late :
    ∃ t : Int, 0 ≤ t ∧ t ≤ 2 ^ 53 - 1 ∧
      expiresAtSeconds (Sample.zeroKey.issuedBytes (List.replicate 32 7) t) ≠
        ((t + 120 : Int) : Number) := by
  refine ⟨2 ^ 53 - 1, by omega, by omega, ?_⟩
  rw [expiresAtSeconds_issuedBytes _ _ (by omega) (by omega)]
  decide +kernel

end UncrackableL5

import UncrackableL5.Kotlin.Runtime

/-!
# Flag records

The layout of a record file: version (1), tier (1), IV length (1), IV, ciphertext with its GCM tag.
-/
namespace UncrackableL5

/-- `TAG_BYTES`: the GCM tag at the end of a ciphertext. -/
def tagBytes : Nat := 16

structure FlagRecord where
  version : Int
  tier : Int
  iv : Bytes
  ciphertext : Bytes
  valid : (1 ≤ version ∧ version ≤ 255) ∧ (1 ≤ tier ∧ tier ≤ 2) ∧
    (12 ≤ iv.length ∧ iv.length ≤ 255) ∧ tagBytes < ciphertext.length
  deriving DecidableEq

namespace FlagRecord

/-- The constructor with its `require`. -/
def create (version tier : Int) (iv ciphertext : Bytes) : Except Throwable FlagRecord :=
  if valid : (1 ≤ version ∧ version ≤ 255) ∧ (1 ≤ tier ∧ tier ≤ 2) ∧
      (12 ≤ iv.length ∧ iv.length ≤ 255) ∧ tagBytes < ciphertext.length then
    .ok { version := version, tier := tier, iv := iv, ciphertext := ciphertext, valid := valid }
  else .error (.illegalArgument "Failed requirement.")

/-- `VERSION` -/
def currentVersion : Int := 1

/-- `MAX_SIZE` -/
def maxSize : Nat := 4096

/-- `byteArrayOf(version.toByte(), tier.toByte())` -/
def aadOf (version tier : Int) : Bytes := [toByte version, toByte tier]

def aad (r : FlagRecord) : Bytes := aadOf r.version r.tier

def encode (r : FlagRecord) : Bytes :=
  toByte r.version :: toByte r.tier :: toByte r.iv.length :: (r.iv ++ r.ciphertext)

/-- `none` for anything that is not a well-formed record. -/
def decode (bytes : Bytes) : Except Throwable (Option FlagRecord) :=
  if ¬(3 ≤ bytes.length ∧ bytes.length ≤ maxSize) then .ok none
  else
    let version : Int := (bytes.getD 0 0).toNat
    let tier : Int := (bytes.getD 1 0).toNat
    let ivLength := (bytes.getD 2 0).toNat
    if version ≠ currentVersion ∨ ¬(1 ≤ tier ∧ tier ≤ 2) ∨ ivLength < 12 then .ok none
    else if bytes.length ≤ 3 + ivLength + tagBytes then .ok none
    else (create version tier ((bytes.drop 3).take ivLength) (bytes.drop (3 + ivLength))).map some

theorem encode_length (r : FlagRecord) :
    r.encode.length = 3 + r.iv.length + r.ciphertext.length := by
  simp only [encode, List.length_cons, List.length_append]
  omega

theorem create_eq_ok_iff {version tier : Int} {iv ciphertext : Bytes} {r : FlagRecord} :
    create version tier iv ciphertext = .ok r ↔
      r.version = version ∧ r.tier = tier ∧ r.iv = iv ∧ r.ciphertext = ciphertext := by
  constructor
  · intro created
    simp only [create] at created
    split at created
    · cases created
      exact ⟨rfl, rfl, rfl, rfl⟩
    · cases created
  · rintro ⟨rfl, rfl, rfl, rfl⟩
    rw [create, dif_pos r.valid]

theorem decode_version {bytes : Bytes} {r : FlagRecord} (decoded : decode bytes = .ok (some r)) :
    r.version = currentVersion := by
  simp only [decode] at decoded
  split at decoded
  next => cases decoded
  next =>
    split at decoded
    next => cases decoded
    next header =>
      split at decoded
      next => cases decoded
      next =>
        cases created : create (bytes.getD 0 0).toNat (bytes.getD 1 0).toNat
            ((bytes.drop 3).take (bytes.getD 2 0).toNat)
            (bytes.drop (3 + (bytes.getD 2 0).toNat)) with
        | error e =>
          rw [created] at decoded
          cases decoded
        | ok record =>
          rw [created] at decoded
          cases decoded
          rw [(create_eq_ok_iff.mp created).1]
          by_contra other
          exact header (Or.inl other)

/-- The constructor's `require` holds wherever `decode` gets as far as it. -/
theorem decode_total (bytes : Bytes) : ∃ result, decode bytes = .ok result := by
  simp only [decode]
  split
  next => exact ⟨none, rfl⟩
  next bounds =>
    split
    next => exact ⟨none, rfl⟩
    next header =>
      split
      next => exact ⟨none, rfl⟩
      next room =>
        have small := (bytes.getD 2 0).toNat_lt
        simp only [currentVersion, tagBytes] at *
        rw [create, dif_pos]
        · exact ⟨_, rfl⟩
        · simp only [List.length_take, List.length_drop, tagBytes]
          omega

/-- A record of the current version survives the round trip unless it is too long. -/
theorem decode_encode (r : FlagRecord) (current : r.version = currentVersion) :
    decode r.encode = .ok (if r.encode.length ≤ maxSize then some r else none) := by
  obtain ⟨versions, tiers, ivs, room⟩ := r.valid
  have size := encode_length r
  split
  next fits =>
    have version : (r.encode.getD 0 0).toNat = r.version := toByte_toNat (by omega) (by omega)
    have tier : (r.encode.getD 1 0).toNat = r.tier := toByte_toNat (by omega) (by omega)
    have ivLength : (r.encode.getD 2 0).toNat = r.iv.length := by
      have := toByte_toNat (v := r.iv.length) (by omega) (by omega)
      exact_mod_cast this
    have iv : (r.encode.drop 3).take r.iv.length = r.iv := List.take_left
    have ciphertext : r.encode.drop (3 + r.iv.length) = r.ciphertext := by
      rw [← List.drop_drop]
      exact List.drop_left
    simp only [decode, version, tier, ivLength, iv, ciphertext]
    rw [if_neg (by omega), if_neg (by omega), if_neg (by omega),
      create_eq_ok_iff.mpr ⟨rfl, rfl, rfl, rfl⟩]
    rfl
  next long => rw [decode, if_pos (by omega)]

end FlagRecord

end UncrackableL5

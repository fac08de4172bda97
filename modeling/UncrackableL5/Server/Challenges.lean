import UncrackableL5.Library.BigEndian
import UncrackableL5.Js.Number
import UncrackableL5.Verifier.Base64
import UncrackableL5.Verifier.Der

/-!
# Challenges

A challenge is 57 octets: version 1, the second it was issued at (8), a nonce (32) and the first 16
octets of their HMAC-SHA256.
-/
namespace UncrackableL5

def challengeLifetimeSeconds : Int := 120

/-- A server key: HMAC-SHA256 under it. -/
structure Challenges where
  sign : Bytes → Bytes
  size : ∀ payload, (sign payload).length = 32

namespace Challenges

def tag (c : Challenges) (payload : Bytes) : Bytes := (c.sign payload).take 16

/-- `setBigUint64(0, v)` -/
def bigUint64 (v : Int) : Bytes :=
  (List.range 8).map fun i => UInt8.ofNat ((v % 2 ^ 64).toNat / 256 ^ (7 - i))

/-- `issue`; `nonce` is what `getRandomValues` gives. -/
def issue (c : Challenges) (nonce : Bytes) (nowSeconds : Int) : JsString :=
  let payload := 1 :: (bigUint64 nowSeconds ++ nonce)
  base64UrlEncodeNoPad (payload ++ c.tag payload)

/-- `getBigInt64(1)` -/
def issuedAt (bytes : Bytes) : Int := BigEndian.signedValue ((bytes.drop 1).take 8)

/-- Returns the 57 challenge bytes or throws `attestation_invalid` or `challenge_expired`. -/
def verify (c : Challenges) (encoded : JsString) (nowSeconds : Int) : Js Bytes :=
  if encoded.length ≠ 76 then .error (.rejected .attestationInvalid)
  else do
    let bytes ← (base64UrlDecode encoded).recover fun _ => .error (.rejected .attestationInvalid)
    if bytes.length ≠ 57 ∨ base64UrlEncodeNoPad bytes ≠ encoded ∨ bytes[0]? ≠ some 1 then
      .error (.rejected .attestationInvalid)
    else
      let expected := c.tag (bytes.take 41)
      if ¬bytesEqual expected (bytes.drop 41) then .error (.rejected .attestationInvalid)
      else
        let issued := issuedAt bytes
        if issued < 0 ∨ issued > nowSeconds ∨ nowSeconds - issued ≥ challengeLifetimeSeconds then
          .error (.rejected .challengeExpired)
        else .ok bytes

/-- `Number(getBigInt64(1)) + CHALLENGE_LIFETIME_SECONDS` -/
def expiresAtSeconds (bytes : Bytes) : Number :=
  (Number.round (issuedAt bytes)).add challengeLifetimeSeconds

def id (sha256 : Bytes → Bytes) (bytes : Bytes) : JsString := hex (sha256 bytes)

end Challenges

end UncrackableL5

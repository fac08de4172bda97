import UncrackableL5.Verifier.Path
import UncrackableL5.Verifier.Base64

/-!
# Attestation verifier

Request-level validation, root completion from trusted anchors, revocation, Google's
verifier with the crackme's constraints, proof of possession and leaf validity, followed
by the server policy.
-/
namespace UncrackableL5

structure AttestRequest where
  challenge : JsString
  chain : List JsString
  pop : JsString
  deriving DecidableEq, Repr

structure AndroidVerifierConfig where
  anchors : List Certificate
  packageName : JsString
  /-- Lowercase hex SHA-256 of the expected signing certificate. -/
  signerSha256Hex : JsString

/-- A configuration the constructor accepts. -/
structure AndroidVerifier extends AndroidVerifierConfig where
  anchored : anchors ≠ []
  named : packageName ≠ []
  signed : isSha256Hex signerSha256Hex = true

/-- `new AndroidVerifier(config)` -/
def AndroidVerifier.new (config : AndroidVerifierConfig) : Js AndroidVerifier :=
  if anchored : config.anchors ≠ [] then
    if valid : config.packageName ≠ [] ∧ isSha256Hex config.signerSha256Hex = true then
      .ok { config with anchored := anchored, named := valid.1, signed := valid.2 }
    else .error (.error "bad verifier config")
  else .error (.error "no anchors")

/-! ### Constraints -/

/-- Exactly the configured package and exactly the configured signer. -/
def appMatches (packageName signerHex : JsString) (d : KeyDescription) : Bool :=
  match d.softwareEnforced.attestationApplicationId with
  | none => false
  | some app =>
    match app.packages, app.signatures with
    -- The version of the package does not matter.
    | [package], [signature] => package.name = packageName && signature = signerHex
    | _, _ => false

def appIdentity (packageName signerHex : JsString) : Constraint where
  label := "App identity"
  check d _ :=
    if appMatches packageName signerHex d then none else some "App identity violates constraint"

/-- Locked, with a verified boot. -/
def deviceSound (d : KeyDescription) : Bool :=
  match d.hardwareEnforced.rootOfTrust with
  | none => false
  | some boot => boot.deviceLocked && boot.verifiedBootState = .verified

def deviceIntegrity : Constraint where
  label := "Device integrity"
  check d _ := if deviceSound d then none else some "Device integrity violates constraint"

/-- A P-256 key for signing SHA-256 digests and nothing else. -/
def signingKeyOnly (d : KeyDescription) : Bool :=
  let a := d.hardwareEnforced
  a.purposes = some [2] && a.algorithms = some 3 && a.keySize = some 256 &&
    a.ecCurve = some 1 && a.digests = some [4]

def signingKey : Constraint where
  label := "Signing key"
  check d _ := if signingKeyOnly d then none else some "Signing key violates constraint"

def constraintsFor (tables : CaseTables) (packageName signerHex : JsString) : List Constraint :=
  [matchesCertificate tables, appIdentity packageName signerHex, deviceIntegrity, signingKey]

/-! ### Server policy -/

def maxPatchAgeMonths : Int := 12

/-- `Number(digits.slice(start, stop))` of decimal digits. -/
def decimalSlice (digits : JsString) (start stop : Nat) : Nat :=
  ((digits.drop start).take (stop - start)).foldl (fun v u => v * 10 + (u.toNat - 48)) 0

/-- Month index of a YYYYMM or YYYYMMDD patch level, or `none` when malformed. -/
def patchMonth (level : Option Int) : Option Int :=
  match level with
  | none => none
  | some level =>
    let digits := bigIntToString 10 level
    if (digits.length = 6 ∨ digits.length = 8) ∧
        digits.all fun u => 48 ≤ u.toNat && u.toNat ≤ 57 then
      let month := decimalSlice digits 4 6
      if month < 1 ∨ month > 12 then none
      else some (decimalSlice digits 0 4 * 12 + month - 1)
    else none

/-- A patch level at most `maxPatchAgeMonths` old and at most one month ahead. -/
def patchCurrent (nowMs : Number) (level : Option Int) : Bool :=
  match Date.ofNumber nowMs, patchMonth level with
  | some now, some month =>
    let current := now.year * 12 + now.month
    month ≥ current - maxPatchAgeMonths && month ≤ current + 1
  | _, _ => false

/-- OS, vendor and boot patch levels must all be hardware-enforced and current. -/
def patchesCurrent (hw : AuthorizationList) (nowMs : Number) : Bool :=
  [hw.osPatchLevel, hw.vendorPatchLevel, hw.bootPatchLevel].all (patchCurrent nowMs)

/-! ### Verification -/

variable {CryptoKey : Type}

/-- One entry of the request's chain. -/
def parseEntry (tables : CaseTables) (encoded : JsString) : Js Certificate :=
  if encoded.length < 1 ∨ encoded.length > 5464 then .error (.error "length")
  else do
    let der ← base64Decode encoded
    if der.length > 4096 then .error (.error "size") else parseCertificate tables der

/-- The anchors that could complete a chain ending in `tail`. -/
def completingRoots (host : Host CryptoKey) (anchors : List Certificate) (tail : Certificate) :
    List Certificate :=
  anchors.filter fun root =>
    namesEqual tail.issuer root.subject && verifyCertificate host tail root.publicKey

/-- Adds the root to a chain that does not end in a self-issued certificate. -/
def completeChain (host : Host CryptoKey) (anchors : List Certificate) (chain : List Certificate) :
    Js (List Certificate) :=
  match chain.getLast? with
  | none => .error (.typeError "Cannot read properties of undefined")
  | some tail =>
    if isSelfIssued tail then .ok chain
    else
      match completingRoots host anchors tail with
      | [root] => .ok (chain ++ [root])
      | _ => .error (.error "no single completing root")

/-- The parsed chain of a request, completed with its root. -/
def loadChain (host : Host CryptoKey) (anchors : List Certificate) (encoded : List JsString) :
    Js (List Certificate) := do
  completeChain host anchors (← encoded.mapM (parseEntry host.tables))

def rejected {α : Type} (code : RejectCode) : Js α := .error (.rejected code)

/-- `rejectListed` -/
def rejectListed (chain : List Certificate) (serials : List JsString) : Js Unit :=
  if chain.any fun c => serials.contains c.serialHex then rejected .attestationInvalid else .ok ()

/-- The code for a violated constraint. -/
def violationCode (label : String) : RejectCode :=
  if label = "App identity" then .appIntegrity
  else if label = "Device integrity" then .deviceIntegrity
  else if label = "Security level" then .noHardwareAttestation
  else .attestationInvalid

/-- Leaf validity, key type and proof of possession of a verified chain. -/
def checkPossession (host : Host CryptoKey) (leaf : Certificate) (key : PublicKeyInfo)
    (pop : JsString) (challenge : Bytes) (nowMs : Number) : Js Unit :=
  if nowMs < leaf.notBefore ∨ nowMs > leaf.notAfter then rejected .attestationInvalid
  else if key.algorithm ≠ Oid.ecPublicKey ∨ key.curve ≠ some Oid.p256 then
    rejected .attestationInvalid
  else do
    let signature ← (base64Decode pop).recover fun _ => rejected .attestationInvalid
    if verifySignature host key Oid.ecdsaSha256 signature challenge then .ok ()
    else rejected .attestationInvalid

/-- Policy beyond the reference verifier, applied only to an otherwise valid attestation. -/
def checkPolicy (chain : List Certificate) (d : KeyDescription) (nowMs : Number) : Js Unit := do
  let path ← CertPath.new chain
  -- The path was built before, so this cannot throw.
  if path.provisioningMethod ≠ .remotelyProvisioned then rejected .noRemoteProvisioning
  else if ¬patchesCurrent d.hardwareEnforced nowMs then rejected .securityPatchOutdated
  else .ok ()

namespace AndroidVerifier

def options (v : AndroidVerifier) (tables : CaseTables) (revokedSerials : List JsString)
    (nowMs : Number) : VerifierOptions :=
  { anchors := v.anchors
    revokedSerials := revokedSerials
    nowMs := nowMs
    constraints := constraintsFor tables v.packageName v.signerSha256Hex
    limits := defaultLimits }

/-- `verify`: the protocol tier, always 2, or a thrown `Rejected`. -/
def verify (host : Host CryptoKey) (v : AndroidVerifier) (request : AttestRequest)
    (challenge : Bytes) (revokedSerials : List JsString) (nowMs : Number) : Js Nat := do
  if request.chain.length < 2 ∨ request.chain.length > 6 then rejected .attestationInvalid
  else if request.pop.length < 1 ∨ request.pop.length > 128 then rejected .attestationInvalid
  else do
    let chain ← (loadChain host v.anchors request.chain).recover fun _ =>
      rejected .attestationInvalid
    rejectListed chain revokedSerials
    match verifyChain host chain (some challenge) (v.options host.tables revokedSerials nowMs) with
    | .success publicKey keyDescription =>
      -- Not reached: a verified chain has a leaf.
      match chain.head? with
      | none => .error (.typeError "Cannot read properties of undefined")
      | some leaf => do
        checkPossession host leaf publicKey request.pop challenge nowMs
        checkPolicy chain keyDescription nowMs
        rejectListed chain revokedSerials
        .ok 2
    | .constraintViolation label _ => rejected (violationCode label)
    | _ => rejected .attestationInvalid

end AndroidVerifier

end UncrackableL5

import UncrackableL5.Verifier.X509
import UncrackableL5.Verifier.KeyDescription

/-!
# Certification paths

Port of Google's KeyAttestationCertPath, KeyAttestationCertPathValidator and Verifier.
A `CertPath` carries what its constructor checked, so its accessors are total.
-/
namespace UncrackableL5

inductive ProvisioningMethod where
  | unknown
  | factoryProvisioned
  | remotelyProvisioned
  deriving DecidableEq, Repr

structure CertPath where
  /-- Full input chain including the supplied root. -/
  certificatesWithAnchor : List Certificate
  enough : 3 ≤ certificatesWithAnchor.length
  rooted : ∀ root, certificatesWithAnchor.getLast? = some root → isSelfIssued root = true

/-- `new CertPath(certs)` -/
def CertPath.new (certs : List Certificate) : Js CertPath :=
  if enough : 3 ≤ certs.length then
    if rooted : ∀ root, certs.getLast? = some root → isSelfIssued root = true then
      .ok { certificatesWithAnchor := certs, enough := enough, rooted := rooted }
    else .error (.chainError "Root certificate not found")
  else .error (.chainError "At least 3 certificates are required")

namespace CertPath

/-- Chain without the last (root) certificate; index 0 is the leaf. -/
def certificates (path : CertPath) : List Certificate := path.certificatesWithAnchor.dropLast

theorem certificates_length (path : CertPath) :
    path.certificates.length = path.certificatesWithAnchor.length - 1 := by simp [certificates]

theorem two_le_certificates (path : CertPath) : 2 ≤ path.certificates.length := by
  have := path.enough
  rw [certificates_length]
  omega

def leafCert (path : CertPath) : Certificate :=
  path.certificates.get ⟨0, by have := path.two_le_certificates; omega⟩

def attestationCert (path : CertPath) : Certificate :=
  path.certificates.get ⟨1, by have := path.two_le_certificates; omega⟩

def intermediateCert (path : CertPath) : Certificate :=
  path.certificates.get ⟨path.certificates.length - 1, by have := path.two_le_certificates; omega⟩

def provisioningMethod (path : CertPath) : ProvisioningMethod :=
  let subject := path.intermediateCert.subject
  if nameHasAttribute subject Oid.serialNumber then .factoryProvisioned
  else if nameAttribute subject Oid.commonName = some (js "Droid CA2") ∧
      nameAttribute subject Oid.organization = some (js "Google LLC") then .remotelyProvisioned
  else .unknown

def securityLevel (tables : CaseTables) (path : CertPath) : Option SecurityLevel :=
  match path.provisioningMethod with
  | .unknown => none
  | .remotelyProvisioned =>
    let o := nameAttribute path.attestationCert.subject Oid.organization
    if o = some (js "TEE") then some .trustedEnvironment
    else if o = some (js "StrongBox") then some .strongBox
    else some .software
  | .factoryProvisioned =>
    if nameContains tables path.attestationCert.subject (js "strongbox") then some .strongBox
    else if nameContains tables path.intermediateCert.subject (js "strongbox") then some .strongBox
    else none

end CertPath

/-- The positions of the validator's step machine. -/
inductive Step where
  | factoryIntermediate
  | rkpIntermediate
  | rkpServer
  | attestation
  | target
  deriving DecidableEq, Repr

/-- A critical attestation extension does not count here. -/
def hasAttestationExtension (c : Certificate) : Bool :=
  match getExtension c Oid.keyAttestation with
  | some ext => !ext.critical
  | none => false

/-- `getStep`: the step of the next certificate; `none` after the target. -/
def nextStep (method : ProvisioningMethod) (lengthWithAnchor : Nat) : Option Step → Option Step
  | none =>
    if method = .remotelyProvisioned then some .rkpIntermediate
    else if method = .factoryProvisioned ∨ lengthWithAnchor = 4 then some .factoryIntermediate
    else some .attestation
  | some .rkpIntermediate => some .rkpServer
  | some .rkpServer => some .attestation
  | some .factoryIntermediate => some .attestation
  | some .attestation => some .target
  | some .target => none

variable {CryptoKey : Type}

/-- What the validation loop reads besides the certificates. -/
structure Validation where
  method : ProvisioningMethod
  lengthWithAnchor : Nat
  revokedSerials : List JsString
  nowMs : Number

/-- One round of the validation loop: the step of `cert`, when it passes every check.
`remaining` certificates come after it. -/
def checkCertificate (host : Host CryptoKey) (v : Validation) (step : Option Step)
    (remaining : Nat) (prevKey : PublicKeyInfo) (prevSubject : Name) (cert : Certificate) :
    Js Step :=
  match nextStep v.method v.lengthWithAnchor step with
  | none =>
    .error (.pathError (if hasAttestationExtension cert then
      "Unexpected attestation extension after the target certificate"
      else "Unexpected certificate after the target certificate"))
  | some step =>
    if ¬namesEqual cert.issuer prevSubject then
      .error (.pathError "Subject/Issuer name chaining check failed")
    else if ¬verifyCertificate host cert prevKey then
      .error (.pathError "Signature check failed")
    -- The validity of the leaf is left to the caller.
    else if remaining ≠ 0 ∧ v.nowMs < cert.notBefore then
      .error (.pathError "Validity check failed: not yet valid")
    -- Factory chains outlive their certificates.
    else if remaining ≠ 0 ∧ v.nowMs > cert.notAfter ∧ v.method ≠ .factoryProvisioned then
      .error (.pathError "Validity check failed: expired")
    else if step = .target ∧ ¬hasAttestationExtension cert then
      .error (.pathError "Target certificate does not contain an attestation extension")
    else if step ≠ .target ∧ hasAttestationExtension cert then
      .error (.pathError "Only the target certificate should contain an attestation extension")
    else if v.revokedSerials.contains cert.serialHex then
      .error (.pathError "Certificate has been revoked")
    else .ok step

/-- The validation loop, from the certificate below the anchor to the leaf; returns the key
of the last certificate. -/
def validateLoop (host : Host CryptoKey) (v : Validation) :
    Option Step → PublicKeyInfo → Name → List Certificate → Js PublicKeyInfo
  | _, prevKey, _, [] => .ok prevKey
  | step, prevKey, prevSubject, cert :: rest => do
    let step ← checkCertificate host v step rest.length prevKey prevSubject cert
    validateLoop host v (some step) cert.publicKey cert.subject rest

def CertPath.validation (path : CertPath) (revokedSerials : List JsString) (nowMs : Number) :
    Validation :=
  { method := path.provisioningMethod
    lengthWithAnchor := path.certificatesWithAnchor.length
    revokedSerials := revokedSerials
    nowMs := nowMs }

def validateWithAnchor (host : Host CryptoKey) (path : CertPath) (anchor : Certificate)
    (revokedSerials : List JsString) (nowMs : Number) : Js PublicKeyInfo :=
  validateLoop host (path.validation revokedSerials nowMs) none anchor.publicKey anchor.subject
    path.certificates.reverse

structure Constraint where
  label : String
  /-- `none` when satisfied. -/
  check : KeyDescription → CertPath → Option String

inductive VerificationResult where
  | success (publicKey : PublicKeyInfo) (keyDescription : KeyDescription)
  | challengeMismatch
  | pathValidationFailure (message : String)
  | chainParsingFailure (message : String)
  | extensionParsingFailure (message : String)
  | constraintViolation (label message : String)
  deriving DecidableEq, Repr

structure VerifierOptions where
  anchors : List Certificate
  revokedSerials : List JsString
  nowMs : Number
  constraints : List Constraint
  limits : InputLimits

def originConstraint : Constraint where
  label := "Origin"
  check d _ :=
    if d.hardwareEnforced.origin = some .generated then none else some "Origin violates constraint"

def securityLevelConstraint : Constraint where
  label := "Security level"
  check d _ :=
    if d.keyMintSecurityLevel = d.attestationSecurityLevel ∧
        d.attestationSecurityLevel ≠ .software then none
    else some "Security level violates constraint"

def rootOfTrustConstraint : Constraint where
  label := "Root of trust"
  check d _ :=
    if d.hardwareEnforced.rootOfTrust ≠ none then none else some "Root of trust violates constraint"

def defaultConstraints : List Constraint :=
  [originConstraint, securityLevelConstraint, rootOfTrustConstraint]

/-- Whether the KeyMint level agrees with the level the chain names. -/
def levelMatches (keyMintSecurityLevel : SecurityLevel) (level : Option SecurityLevel) : Bool :=
  match keyMintSecurityLevel with
  -- A chain that names no level rules out StrongBox only.
  | .software => level = none || level = some .software
  | .trustedEnvironment => level = none || level = some .trustedEnvironment
  | .strongBox => level = some .strongBox

/-- `MATCHES_CERTIFICATE` -/
def matchesCertificate (tables : CaseTables) : Constraint where
  label := "Security level"
  check d path :=
    if levelMatches d.keyMintSecurityLevel (path.securityLevel tables) then none
    else some "Security level of KeyMint does not match attestation certificate"

/-- The anchor loop: the key from the first anchor that validates the path, or the message
of the last failure. -/
def selectAnchor (host : Host CryptoKey) (path : CertPath) (revokedSerials : List JsString)
    (nowMs : Number) : List Certificate → Option String → Except (Option String) PublicKeyInfo
  | [], lastError => .error lastError
  | anchor :: rest, lastError =>
    -- Anchors of other names leave the last error as it was.
    if namesEqual anchor.subject path.intermediateCert.issuer then
      match validateWithAnchor host path anchor revokedSerials nowMs with
      | .ok publicKey => .ok publicKey
      | .error e => selectAnchor host path revokedSerials nowMs rest (some e.message)
    else selectAnchor host path revokedSerials nowMs rest lastError

/-- The label and message of the first constraint that is not satisfied. -/
def firstViolation (d : KeyDescription) (path : CertPath) : List Constraint → Option (String × String)
  | [] => none
  | c :: rest =>
    match c.check d path with
    | some failure => some (c.label, failure)
    | none => firstViolation d path rest

/-- The key description of the leaf's attestation extension, critical or not. -/
def leafDescription (path : CertPath) (limits : InputLimits) : Js KeyDescription :=
  match extensionValue path.leafCert Oid.keyAttestation with
  | none => .error (.error "Key attestation extension not found")
  | some ext => parseKeyDescription ext limits

/-- Verifier.verify: chain[0] is the leaf, chain[n-1] the self-issued root. -/
def verifyChain (host : Host CryptoKey) (chain : List Certificate)
    (expectedChallenge : Option Bytes) (opts : VerifierOptions) : VerificationResult :=
  match CertPath.new chain with
  | .error e => .chainParsingFailure e.message
  | .ok path =>
    match selectAnchor host path opts.revokedSerials opts.nowMs opts.anchors none with
    | .error lastError =>
      .pathValidationFailure (lastError.getD "No matching trust anchor found")
    | .ok publicKey =>
      -- The path check did not need to reach the leaf's extension for this lookup to find it.
      match leafDescription path opts.limits with
      | .error e => .extensionParsingFailure e.message
      | .ok keyDescription =>
        if expectedChallenge.any fun c => !bytesEqual keyDescription.attestationChallenge c then
          .challengeMismatch
        else
          match firstViolation keyDescription path (defaultConstraints ++ opts.constraints) with
          | some (label, message) => .constraintViolation label message
          | none => .success publicKey keyDescription

end UncrackableL5

import UncrackableL5.Properties.Base64
import UncrackableL5.Properties.ChainShape
import UncrackableL5.Verifier.Verifier

/-!
# What the attestation verifier accepts

A request that passes everything before the constraints is `Presented`. From there on the
verdict depends on the path and the key description alone: the first violated constraint, the
checks on the leaf, and the server policy (`Accepted`).

## Main results

- `verify_eq_ok_iff`: the exact condition for acceptance.
- `acceptance_sound`: what an accepted request guarantees.
-/
namespace UncrackableL5

variable {CryptoKey : Type}

/-- A request that passes the request-level checks, whose chain parses, can be completed, has no
listed serial number, and is attested. -/
structure Presented (host : Host CryptoKey) (v : AndroidVerifier) (request : AttestRequest)
    (challenge : Bytes) (revokedSerials : List JsString) (nowMs : Number) (path : CertPath)
    (d : KeyDescription) : Prop where
  chainSize : 2 ≤ request.chain.length ∧ request.chain.length ≤ 6
  popSize : 1 ≤ request.pop.length ∧ request.pop.length ≤ 128
  loaded : loadChain host v.anchors request.chain = .ok path.certificatesWithAnchor
  unlisted : ∀ cert ∈ path.certificatesWithAnchor, cert.serialHex ∉ revokedSerials
  attested : Attested host path.certificatesWithAnchor (some challenge)
    (v.options host.tables revokedSerials nowMs) path d

/-- The constraints of a presented request, in the order they are checked. -/
def AndroidVerifier.allConstraints (v : AndroidVerifier) (tables : CaseTables) :
    List Constraint :=
  defaultConstraints ++ constraintsFor tables v.packageName v.signerSha256Hex

/-- What `verify` does with a loaded chain, with `finish` in the place of what follows a
successful chain verification. -/
def judgeChain (host : Host CryptoKey) (v : AndroidVerifier) (challenge : Bytes)
    (revokedSerials : List JsString) (nowMs : Number)
    (finish : List Certificate → Certificate → PublicKeyInfo → KeyDescription → Js Nat)
    (chain : List Certificate) : Js Nat := do
  rejectListed chain revokedSerials
  match verifyChain host chain (some challenge) (v.options host.tables revokedSerials nowMs) with
  | .success publicKey keyDescription =>
    match chain.head? with
    | none => .error (.typeError "Cannot read properties of undefined")
    | some leaf => finish chain leaf publicKey keyDescription
  | .constraintViolation label _ => rejected (violationCode label)
  | _ => rejected .attestationInvalid

/-- `verify`, continued by `finish`. -/
def verifyThen (host : Host CryptoKey) (v : AndroidVerifier) (request : AttestRequest)
    (challenge : Bytes) (revokedSerials : List JsString) (nowMs : Number)
    (finish : List Certificate → Certificate → PublicKeyInfo → KeyDescription → Js Nat) :
    Js Nat :=
  if request.chain.length < 2 ∨ request.chain.length > 6 then rejected .attestationInvalid
  else if request.pop.length < 1 ∨ request.pop.length > 128 then rejected .attestationInvalid
  else do
    let chain ← (loadChain host v.anchors request.chain).recover fun _ =>
      rejected .attestationInvalid
    judgeChain host v challenge revokedSerials nowMs finish chain

/-- Leaf, key and possession checks, then the policy. -/
def finishVerify (host : Host CryptoKey) (request : AttestRequest) (challenge : Bytes)
    (revokedSerials : List JsString) (nowMs : Number) (chain : List Certificate)
    (leaf : Certificate) (key : PublicKeyInfo) (d : KeyDescription) : Js Nat := do
  checkPossession host leaf key request.pop challenge nowMs
  checkPolicy chain d nowMs
  rejectListed chain revokedSerials
  .ok 2

theorem verify_eq_verifyThen (host : Host CryptoKey) (v : AndroidVerifier)
    (request : AttestRequest) (challenge : Bytes) (revokedSerials : List JsString)
    (nowMs : Number) :
    v.verify host request challenge revokedSerials nowMs =
      verifyThen host v request challenge revokedSerials nowMs
        (finishVerify host request challenge revokedSerials nowMs) := rfl

/-- The verdict on a presented request. -/
def verdict (v : AndroidVerifier) (tables : CaseTables) (path : CertPath) (d : KeyDescription)
    (finish : List Certificate → Certificate → PublicKeyInfo → KeyDescription → Js Nat) :
    Js Nat :=
  match firstViolation d path (v.allConstraints tables) with
  | some (label, _) => rejected (violationCode label)
  | none => finish path.certificatesWithAnchor path.leafCert path.leafCert.publicKey d

theorem rejectListed_of_unlisted {chain : List Certificate} {serials : List JsString}
    (unlisted : ∀ cert ∈ chain, cert.serialHex ∉ serials) :
    rejectListed chain serials = .ok () := by
  rw [rejectListed, if_neg (by simpa using unlisted)]

private theorem rejectListed_of_listed {chain : List Certificate} {serials : List JsString}
    (listed : ¬∀ cert ∈ chain, cert.serialHex ∉ serials) :
    rejectListed chain serials = rejected .attestationInvalid := by
  rw [rejectListed, if_pos (by simpa using listed)]

private theorem judgeChain_cases (host : Host CryptoKey) (v : AndroidVerifier)
    (challenge : Bytes) (revokedSerials : List JsString) (nowMs : Number)
    (finish : List Certificate → Certificate → PublicKeyInfo → KeyDescription → Js Nat)
    (chain : List Certificate) :
    (∃ path d, (∀ cert ∈ chain, cert.serialHex ∉ revokedSerials) ∧
      Attested host chain (some challenge) (v.options host.tables revokedSerials nowMs) path d ∧
      judgeChain host v challenge revokedSerials nowMs finish chain =
        verdict v host.tables path d finish) ∨
    (¬∃ path d, (∀ cert ∈ chain, cert.serialHex ∉ revokedSerials) ∧
      Attested host chain (some challenge) (v.options host.tables revokedSerials nowMs) path d) ∧
      judgeChain host v challenge revokedSerials nowMs finish chain =
        rejected .attestationInvalid := by
  -- Serial numbers are looked up before the chain is verified.
  by_cases unlisted : ∀ cert ∈ chain, cert.serialHex ∉ revokedSerials
  · rw [judgeChain, rejectListed_of_unlisted unlisted, ok_bind]
    rcases verifyChain_cases host chain (some challenge)
      (v.options host.tables revokedSerials nowMs) with
      ⟨path, d, attested, result⟩ | ⟨unattested, refused⟩
    · refine Or.inl ⟨path, d, unlisted, attested, ?_⟩
      obtain rfl := attested.built
      rw [result, path.head_certificatesWithAnchor]
      simp only [constraintResult, verdict, AndroidVerifier.allConstraints,
        AndroidVerifier.options]
      cases firstViolation d path
        (defaultConstraints ++ constraintsFor host.tables v.packageName v.signerSha256Hex) <;> rfl
    · refine Or.inr ⟨?_, ?_⟩
      · rintro ⟨path, d, -, attested⟩
        exact unattested ⟨path, d, attested⟩
      -- Whatever the refusal says, it becomes the one code.
      · cases outcome : verifyChain host chain (some challenge)
            (v.options host.tables revokedSerials nowMs) with
        | success => simp [outcome, VerificationResult.Refused] at refused
        | constraintViolation => simp [outcome, VerificationResult.Refused] at refused
        | _ => rfl
  · refine Or.inr ⟨?_, ?_⟩
    · rintro ⟨path, d, clear, -⟩
      exact unlisted clear
    · rw [judgeChain, rejectListed_of_listed unlisted]
      rfl

/-- A presented request gets its verdict; every other request is refused as invalid. -/
theorem verifyThen_cases (host : Host CryptoKey) (v : AndroidVerifier) (request : AttestRequest)
    (challenge : Bytes) (revokedSerials : List JsString) (nowMs : Number)
    (finish : List Certificate → Certificate → PublicKeyInfo → KeyDescription → Js Nat) :
    (∃ path d, Presented host v request challenge revokedSerials nowMs path d ∧
      verifyThen host v request challenge revokedSerials nowMs finish =
        verdict v host.tables path d finish) ∨
    (¬∃ path d, Presented host v request challenge revokedSerials nowMs path d) ∧
      verifyThen host v request challenge revokedSerials nowMs finish =
        rejected .attestationInvalid := by
  by_cases chainSize : request.chain.length < 2 ∨ request.chain.length > 6
  · refine Or.inr ⟨?_, by simp only [verifyThen, chainSize, ↓reduceIte]⟩
    rintro ⟨path, d, presented⟩
    have := presented.chainSize
    omega
  by_cases popSize : request.pop.length < 1 ∨ request.pop.length > 128
  · refine Or.inr ⟨?_, by simp only [verifyThen, chainSize, popSize, ↓reduceIte]⟩
    rintro ⟨path, d, presented⟩
    have := presented.popSize
    omega
  -- Whatever loading throws is caught and becomes the one code.
  cases loaded : loadChain host v.anchors request.chain with
  | error e =>
    refine Or.inr ⟨?_, ?_⟩
    · rintro ⟨path, d, presented⟩
      rw [presented.loaded] at loaded
      cases loaded
    · simp only [verifyThen, chainSize, popSize, loaded, ↓reduceIte]
      rfl
  | ok chain =>
    have start : verifyThen host v request challenge revokedSerials nowMs finish =
        judgeChain host v challenge revokedSerials nowMs finish chain := by
      simp only [verifyThen, chainSize, popSize, loaded, ↓reduceIte]
      rfl
    rw [start]
    rcases judgeChain_cases host v challenge revokedSerials nowMs finish chain with
      ⟨path, d, unlisted, attested, judged⟩ | ⟨unattested, judged⟩
    -- The path is the loaded chain.
    · obtain rfl := attested.built
      exact Or.inl ⟨path, d, ⟨by omega, by omega, loaded, unlisted, attested⟩, judged⟩
    · refine Or.inr ⟨?_, judged⟩
      rintro ⟨path, d, presented⟩
      have same := presented.loaded
      rw [loaded] at same
      cases same
      exact unattested ⟨path, d, presented.unlisted, presented.attested⟩

/-! ### Acceptance -/

/-- A presented request that satisfies every constraint and the checks on the leaf. -/
structure Qualified (host : Host CryptoKey) (v : AndroidVerifier) (request : AttestRequest)
    (challenge : Bytes) (nowMs : Number) (path : CertPath) (d : KeyDescription) : Prop where
  generated : d.hardwareEnforced.origin = some .generated
  levels : d.keyMintSecurityLevel = d.attestationSecurityLevel
  hardware : d.attestationSecurityLevel ≠ .software
  bound : d.hardwareEnforced.rootOfTrust ≠ none
  named : levelMatches d.keyMintSecurityLevel (path.securityLevel host.tables) = true
  app : appMatches v.packageName v.signerSha256Hex d = true
  sound : deviceSound d = true
  signing : signingKeyOnly d = true
  timely : ¬nowMs < path.leafCert.notBefore ∧ ¬nowMs > path.leafCert.notAfter
  curve : path.leafCert.publicKey.algorithm = Oid.ecPublicKey ∧
    path.leafCert.publicKey.curve = some Oid.p256
  possessed : ∃ signature, base64Decode request.pop = .ok signature ∧
    verifySignature host path.leafCert.publicKey Oid.ecdsaSha256 signature challenge = true

/-- A qualified request that the policy lets through. -/
structure Accepted (host : Host CryptoKey) (v : AndroidVerifier) (request : AttestRequest)
    (challenge : Bytes) (nowMs : Number) (path : CertPath) (d : KeyDescription) : Prop
    extends Qualified host v request challenge nowMs path d where
  remote : path.provisioningMethod = .remotelyProvisioned
  patched : patchesCurrent d.hardwareEnforced nowMs = true

theorem checkPossession_eq_ok_iff (host : Host CryptoKey) (leaf : Certificate)
    (key : PublicKeyInfo) (pop : JsString) (challenge : Bytes) (nowMs : Number) :
    checkPossession host leaf key pop challenge nowMs = .ok () ↔
      (¬nowMs < leaf.notBefore ∧ ¬nowMs > leaf.notAfter) ∧
        (key.algorithm = Oid.ecPublicKey ∧ key.curve = some Oid.p256) ∧
        ∃ signature, base64Decode pop = .ok signature ∧
          verifySignature host key Oid.ecdsaSha256 signature challenge = true := by
  simp only [checkPossession, rejected, guard_eq_ok_iff, bind_ok_iff, not_or, not_not, ne_eq]
  cases base64Decode pop with
  | error e => simp [Js.recover]
  | ok signature =>
    simp only [Js.recover, Except.ok.injEq, exists_eq_left']
    split <;> simp_all

theorem checkPolicy_eq_ok_iff (path : CertPath) (d : KeyDescription) (nowMs : Number) :
    checkPolicy path.certificatesWithAnchor d nowMs = .ok () ↔
      path.provisioningMethod = .remotelyProvisioned ∧
        patchesCurrent d.hardwareEnforced nowMs = true := by
  have built := (CertPath.new_eq_ok_iff _ path).mpr rfl
  simp only [checkPolicy, built, ok_bind, rejected, guard_eq_ok_iff, not_not, and_true, ne_eq]

theorem satisfied_iff (v : AndroidVerifier) (tables : CaseTables) (path : CertPath)
    (d : KeyDescription) :
    firstViolation d path (v.allConstraints tables) = none ↔
      d.hardwareEnforced.origin = some .generated ∧
        (d.keyMintSecurityLevel = d.attestationSecurityLevel ∧
          d.attestationSecurityLevel ≠ .software) ∧
        d.hardwareEnforced.rootOfTrust ≠ none ∧
        levelMatches d.keyMintSecurityLevel (path.securityLevel tables) = true ∧
        appMatches v.packageName v.signerSha256Hex d = true ∧ deviceSound d = true ∧
        signingKeyOnly d = true := by
  simp [firstViolation_eq_none_iff, AndroidVerifier.allConstraints, defaultConstraints,
    constraintsFor, originConstraint, securityLevelConstraint, rootOfTrustConstraint,
    matchesCertificate, appIdentity, deviceIntegrity, signingKey]

theorem finishVerify_eq_ok_iff (host : Host CryptoKey) (request : AttestRequest)
    (challenge : Bytes) (revokedSerials : List JsString) (nowMs : Number) (path : CertPath)
    (d : KeyDescription) (tier : Nat)
    (unlisted : ∀ cert ∈ path.certificatesWithAnchor, cert.serialHex ∉ revokedSerials) :
    finishVerify host request challenge revokedSerials nowMs path.certificatesWithAnchor
        path.leafCert path.leafCert.publicKey d = .ok tier ↔
      tier = 2 ∧
        checkPossession host path.leafCert path.leafCert.publicKey request.pop challenge nowMs =
          .ok () ∧
        checkPolicy path.certificatesWithAnchor d nowMs = .ok () := by
  simp only [finishVerify, bind_ok_iff, rejectListed_of_unlisted unlisted, Except.ok.injEq]
  constructor
  · rintro ⟨_, possession, _, policy, _, _, rfl⟩
    exact ⟨rfl, possession, policy⟩
  · rintro ⟨rfl, possession, policy⟩
    exact ⟨(), possession, (), policy, (), trivial, rfl⟩

theorem Presented.unique {host : Host CryptoKey} {v : AndroidVerifier} {request : AttestRequest}
    {challenge : Bytes} {revokedSerials : List JsString} {nowMs : Number} {path path₂ : CertPath}
    {d d₂ : KeyDescription}
    (first : Presented host v request challenge revokedSerials nowMs path d)
    (second : Presented host v request challenge revokedSerials nowMs path₂ d₂) :
    path = path₂ ∧ d = d₂ := by
  have same := first.loaded
  rw [second.loaded] at same
  have attested := second.attested
  rw [Except.ok.inj same] at attested
  exact first.attested.unique attested

theorem Presented.trusted {host : Host CryptoKey} {v : AndroidVerifier} {request : AttestRequest}
    {challenge : Bytes} {revokedSerials : List JsString} {nowMs : Number} {path : CertPath}
    {d : KeyDescription} (presented : Presented host v request challenge revokedSerials nowMs path d) :
    ∃ anchor ∈ v.anchors, path.Validated host revokedSerials nowMs anchor :=
  presented.attested.trusted

theorem verify_eq_ok_iff (host : Host CryptoKey) (v : AndroidVerifier) (request : AttestRequest)
    (challenge : Bytes) (revokedSerials : List JsString) (nowMs : Number) (tier : Nat) :
    v.verify host request challenge revokedSerials nowMs = .ok tier ↔
      tier = 2 ∧ ∃ path d, Presented host v request challenge revokedSerials nowMs path d ∧
        Accepted host v request challenge nowMs path d := by
  rw [verify_eq_verifyThen]
  rcases verifyThen_cases host v request challenge revokedSerials nowMs
    (finishVerify host request challenge revokedSerials nowMs) with
    ⟨path, d, presented, judged⟩ | ⟨absent, refused⟩
  · rw [judged, verdict]
    cases violation : firstViolation d path (v.allConstraints host.tables) with
    | some failure =>
      simp only [rejected, reduceCtorEq, false_iff, not_and, not_exists]
      rintro - other description also a
      obtain ⟨rfl, rfl⟩ := presented.unique also
      rw [(satisfied_iff v host.tables path d).mpr ⟨a.generated, ⟨a.levels, a.hardware⟩, a.bound,
        a.named, a.app, a.sound, a.signing⟩] at violation
      cases violation
    | none =>
      rw [finishVerify_eq_ok_iff host request challenge revokedSerials nowMs path d tier
        presented.unlisted, checkPossession_eq_ok_iff, checkPolicy_eq_ok_iff]
      constructor
      · rintro ⟨rfl, ⟨timely, curve, possessed⟩, remote, patched⟩
        obtain ⟨generated, ⟨levels, hardware⟩, bound, named, app, sound, signing⟩ :=
          (satisfied_iff v host.tables path d).mp violation
        exact ⟨rfl, path, d, presented, ⟨generated, levels, hardware, bound, named, app, sound,
          signing, timely, curve, possessed⟩, remote, patched⟩
      · rintro ⟨rfl, other, description, also, a⟩
        obtain ⟨rfl, rfl⟩ := presented.unique also
        exact ⟨rfl, ⟨a.timely, a.curve, a.possessed⟩, a.remote, a.patched⟩
  · rw [refused]
    simp only [rejected, reduceCtorEq, false_iff, not_and]
    rintro - ⟨path, d, presented, -⟩
    exact absent ⟨path, d, presented⟩

/-! ### Soundness -/

/-- What an accepted request says about the attested key `d` of `path`. -/
structure GenuineKey (host : Host CryptoKey) (v : AndroidVerifier) (request : AttestRequest)
    (challenge : Bytes) (nowMs : Number) (path : CertPath) (d : KeyDescription) : Prop where
  parsed : ∃ ext, extensionValue path.leafCert Oid.keyAttestation = some ext ∧
    parseKeyDescription ext defaultLimits = .ok d
  fresh : d.attestationChallenge = challenge
  levels : d.keyMintSecurityLevel = d.attestationSecurityLevel ∧
    d.attestationSecurityLevel ≠ .software
  named : nameAttribute path.attestationCert.subject Oid.organization = some (js "TEE") ∧
      d.attestationSecurityLevel = .trustedEnvironment ∨
    nameAttribute path.attestationCert.subject Oid.organization = some (js "StrongBox") ∧
      d.attestationSecurityLevel = .strongBox
  generated : d.hardwareEnforced.origin = some .generated
  boot : ∃ boot, d.hardwareEnforced.rootOfTrust = some boot ∧ boot.deviceLocked = true ∧
    boot.verifiedBootState = .verified
  signing : d.hardwareEnforced.purposes = some [2] ∧ d.hardwareEnforced.algorithms = some 3 ∧
    d.hardwareEnforced.keySize = some 256 ∧ d.hardwareEnforced.ecCurve = some 1 ∧
    d.hardwareEnforced.digests = some [4]
  app : ∃ version, d.softwareEnforced.attestationApplicationId = some {
    packages := [{ name := v.packageName, version := version }]
    signatures := [v.signerSha256Hex] }
  curve : path.leafCert.publicKey.algorithm = Oid.ecPublicKey ∧
    path.leafCert.publicKey.curve = some Oid.p256
  possessed : ∃ signature, base64Decode request.pop = .ok signature ∧
    verifySignature host path.leafCert.publicKey Oid.ecdsaSha256 signature challenge = true
  remote : path.provisioningMethod = .remotelyProvisioned
  patched : patchesCurrent d.hardwareEnforced nowMs = true

/-- On a remotely provisioned path the level check names the level. -/
private theorem level_named (tables : CaseTables) (path : CertPath) (level : SecurityLevel)
    (remote : path.provisioningMethod = .remotelyProvisioned) (hardware : level ≠ .software)
    (agrees : levelMatches level (path.securityLevel tables) = true) :
    nameAttribute path.attestationCert.subject Oid.organization = some (js "TEE") ∧
        level = .trustedEnvironment ∨
      nameAttribute path.attestationCert.subject Oid.organization = some (js "StrongBox") ∧
        level = .strongBox := by
  simp only [CertPath.securityLevel, remote] at agrees
  cases level with
  | software => exact absurd rfl hardware
  | trustedEnvironment =>
    left
    split at agrees
    next tee => exact ⟨tee, rfl⟩
    next => split at agrees <;> simp [levelMatches] at agrees
  | strongBox =>
    right
    split at agrees
    next => simp [levelMatches] at agrees
    next =>
      split at agrees
      next strongBox => exact ⟨strongBox, rfl⟩
      next => simp [levelMatches] at agrees

/-- The patch window holds at no infinite time and not at `NaN`. -/
private theorem finite_of_patchesCurrent {hw : AuthorizationList} {nowMs : Number}
    (current : patchesCurrent hw nowMs = true) : ∃ value, nowMs = .finite value := by
  simp only [patchesCurrent, List.all_cons, Bool.and_eq_true] at current
  cases nowMs with
  | finite value => exact ⟨value, rfl⟩
  | _ => simp [patchCurrent, Date.ofNumber] at current

/-- At a finite time the validity checks are the bounds. -/
private theorem within_of_not_outside (value : ℚ) (early late : Int)
    (inside : ¬Number.finite value < early ∧ ¬Number.finite value > late) :
    (early : Number) ≤ .finite value ∧ Number.finite value ≤ late := by
  simpa [Number.intCast_def] using inside

theorem appMatches_iff (packageName signerHex : JsString) (d : KeyDescription) :
    appMatches packageName signerHex d = true ↔
      ∃ version, d.softwareEnforced.attestationApplicationId = some {
        packages := [{ name := packageName, version := version }]
        signatures := [signerHex] } := by
  simp only [appMatches]
  cases d.softwareEnforced.attestationApplicationId with
  | none => simp
  | some app =>
    obtain ⟨packages, signatures⟩ := app
    simp only [Option.some.injEq, AttestationApplicationId.mk.injEq]
    split
    next package signature =>
      obtain ⟨name, version⟩ := package
      simp
    next shape =>
      simp only [Bool.false_eq_true, false_iff, not_exists]
      rintro version ⟨rfl, rfl⟩
      exact shape _ _ rfl rfl

theorem deviceSound_iff (d : KeyDescription) :
    deviceSound d = true ↔ ∃ boot, d.hardwareEnforced.rootOfTrust = some boot ∧
      boot.deviceLocked = true ∧ boot.verifiedBootState = .verified := by
  simp only [deviceSound]
  cases d.hardwareEnforced.rootOfTrust <;> simp

/-- Acceptance is sound: the chain leads to a configured anchor, is valid at the time of
verification and not revoked, and the leaf attests a genuine key of the app. -/
theorem acceptance_sound (host : Host CryptoKey) (v : AndroidVerifier) (request : AttestRequest)
    (challenge : Bytes) (revokedSerials : List JsString) (nowMs : Number)
    (accepted : v.verify host request challenge revokedSerials nowMs = .ok 2) :
    ∃ (path : CertPath) (d : KeyDescription),
      loadChain host v.anchors request.chain = .ok path.certificatesWithAnchor ∧
      (∃ anchor ∈ v.anchors, IssuedBy host path.intermediateCert anchor) ∧
      path.certificates.IsChain (IssuedBy host) ∧
      (∀ cert ∈ path.certificates, cert.notBefore ≤ nowMs ∧ nowMs ≤ cert.notAfter) ∧
      (∀ cert ∈ path.certificatesWithAnchor, cert.serialHex ∉ revokedSerials) ∧
      GenuineKey host v request challenge nowMs path d := by
  obtain ⟨-, path, d, presented, a⟩ := (verify_eq_ok_iff _ _ _ _ _ _ _).mp accepted
  obtain ⟨anchor, configured, validated⟩ := presented.trusted
  obtain ⟨value, rfl⟩ := finite_of_patchesCurrent a.patched
  refine ⟨path, d, presented.loaded, ⟨anchor, configured, validated.issued⟩, ?_, ?_,
    presented.unlisted, ?_⟩
  · exact (List.isChain_append.mp validated.linked).1
  -- The possession check looks at the leaf, the path validation at the certificates above it.
  · intro cert member
    rw [path.certificates_eq_cons, List.mem_cons] at member
    apply within_of_not_outside
    rcases member with rfl | above
    · exact a.timely
    · obtain ⟨early, late | factory⟩ := validated.timely cert above
      · exact ⟨early, late⟩
      -- Only a factory chain may be past its validity.
      · rw [CertPath.validation, a.remote] at factory
        cases factory
  · exact {
      parsed := by
        have described := presented.attested.described
        simp only [leafDescription] at described
        split at described
        next => simp at described
        next ext found => exact ⟨ext, found, described⟩
      fresh := presented.attested.fresh challenge rfl
      levels := ⟨a.levels, a.hardware⟩
      named := level_named host.tables path _ a.remote a.hardware (a.levels ▸ a.named)
      generated := a.generated
      boot := (deviceSound_iff d).mp a.sound
      signing := by simpa [signingKeyOnly, and_assoc] using a.signing
      app := (appMatches_iff _ _ d).mp a.app
      curve := a.curve
      possessed := a.possessed
      remote := a.remote
      patched := a.patched }

/-! ### A chain that is accepted -/

namespace Sample

/-- A leaf issued by the attestation certificate. -/
def leafDer : Bytes :=
  unpackWords 540
    [0x30820218308201bea003020102020101300a06082a8648ce3d040302300e310c,
    0x300a060355040a1303544545301e170d3234313230313030303030305a170d32,
    0x35303230313030303030305a300e310c300a060355040313034b657930593013,
    0x06072a8648ce3d020106082a8648ce3d030107034200048884be8f110aff2b4f,
    0x56f5d5cadc826e7ed143dbee4d70ec3e48735554dc7bdddaeb297ba4b35cc53d,
    0x77cfaa5ac58ba72b62b00473a236e124459870af13f246a382010b3082010730,
    0x820103060a2b06010401d6790201110481f43081f10202012c0a01010202012c,
    0x0a0101043901000000006774858078377b525757b494427f89014f97d79928f3,
    0x938d14eb51e20fb5dec9834eb30432f993e45c19f34e48bf17e15f77ad0c0400,
    0x3051bf85454d044b304931233021041c6f72672e6f776173702e6d617374672e,
    0x756e637261636b61626c65350201013122042004040404040404040404040404,
    0x040404040404040404040404040404040404043051a1053103020102a2030201,
    0x03a30402020100a5053103020104aa03020101bf853e03020100bf85400b3009,
    0x0401070101ff0a0100bf85420502030316acbf854e0602040134db31bf854f06,
    0x02040134db31300a06082a8648ce3d04030203480030450220063ff776408d6c,
    0x2779716b072e0c701a8dc57439f5a96050884908d064bf7728022100c5e481b3,
    0x46f2e89c7fa5adb0f395750e36bb8f04610f389f9051b75cea195d6b00000000]

/-- `O=TEE`, issued by the RKP intermediate. -/
def attestationDer : Bytes :=
  unpackWords 272
    [0x3082010c3081b2020300f00d300a06082a8648ce3d0403023014311230100603,
    0x550403130944726f696420434133301e170d3234313230313030303030305a17,
    0x0d3235303230313030303030305a300e310c300a060355040a13035445453059,
    0x301306072a8648ce3d020106082a8648ce3d03010703420004a81348d455b97d,
    0x367adfc9e90d5c7946c102fbaa4400fbbe398e8c3b57dbd2965cddad93fd2ac2,
    0x1c36e94ded475d26eb0c0d167d8920ebe64964e55b7df2a6f4300a06082a8648,
    0xce3d0403020349003046022100cffc82efa5b3de6fb482ca0f5d5b8cf195bebb,
    0x0c98304456c5991481ce15ed97022100f58eb6a007bc3e1bfdc838033d1b628a,
    0x3d5d6a0bda440040fb5545fb14f80f6b00000000000000000000000000000000]

/-- `CN=Droid CA3`, issued by the RKP server certificate. -/
def rkpDer : Bytes :=
  unpackWords 298
    [0x308201263081cc02021235300a06082a8648ce3d040302302931123010060355,
    0x0403130944726f69642043413231133011060355040a130a476f6f676c65204c,
    0x4c43301e170d3234313230313030303030305a170d3235303230313030303030,
    0x305a3014311230100603550403130944726f6964204341333059301306072a86,
    0x48ce3d020106082a8648ce3d03010703420004b8cbb0d4daa8d5ef91803d9927,
    0x17d0e7e589fc9c99afb7c75313615616ec1a452c5bbee27d9a862b980f8d64ff,
    0xb681a0b8f31c64de3eadd11fbbdf29033189d2300a06082a8648ce3d04030203,
    0x49003046022100bd2deab3ad1a677dee2559141f65bf991b4ca6db6c9035816d,
    0x3c3a7eccd91d36022100c525a3690ebc6c518975afaf307fccb3a7ff7ef5b2f2,
    0xd49668e7b7f21436edbe00000000000000000000000000000000000000000000]

/-- `CN=Droid CA2, O=Google LLC`, issued by the root. -/
def remoteDer : Bytes :=
  unpackWords 292
    [0x308201203081c702021234300a06082a8648ce3d040302300f310d300b060355,
    0x04031304526f6f74301e170d3234313230313030303030305a170d3235303230,
    0x313030303030305a3029311230100603550403130944726f6964204341323113,
    0x3011060355040a130a476f6f676c65204c4c433059301306072a8648ce3d0201,
    0x06082a8648ce3d030107034200047fcad46e0b548b51655377c03e4bdbe964cf,
    0xf68bf820a646b379c895a0843c3ec7fafd14c0145f5ae3e5877fe54e10d16561,
    0x9182f5c0931d49b1d6ce227c274d300a06082a8648ce3d040302034800304502,
    0x20183d95a0fe0c3ca04f1629698053d26bddc3c24b6aecef098c451418057b02,
    0x9a022100de50aabb47225c2dc888af759bff6614a8e5aa33c7e69d4f513efe4a,
    0x0e798a9600000000000000000000000000000000000000000000000000000000]

/-- The signature over the challenge by the key of the leaf. -/
def pop : Bytes :=
  unpackWords 70
    [0x3044022059572c0fcc6272045b8cfb519d71c5a8cf2c60e43f54f538697227b0,
    0x0e644579022053005a320781a8025616424f6faaf0a09d9a56df52627ed8e073,
    0x54a096416bb20000000000000000000000000000000000000000000000000000]

def verifier : AndroidVerifier where
  anchors := certificates [rootDer]
  packageName := js "org.owasp.mastg.uncrackable5"
  signerSha256Hex := js "0404040404040404040404040404040404040404040404040404040404040404"
  anchored := by decide +kernel
  named := by decide
  signed := by decide +kernel

def request : AttestRequest where
  challenge := base64UrlEncodeNoPad challenge
  chain := [leafDer, attestationDer, rkpDer, remoteDer, rootDer].map base64Encode
  pop := base64Encode pop

end Sample

/-- An encoded certificate within the size limit is parsed. -/
theorem parseEntry_base64Encode (tables : CaseTables) (der : Bytes)
    (size : 1 ≤ der.length ∧ der.length ≤ 4096) :
    parseEntry tables (base64Encode der) = parseCertificate tables der := by
  have length : (base64Encode der).length = (der.length + 2) / 3 * 4 := by
    rw [base64Encode, encode_eq, ← sextets_length]
    simp
  rw [parseEntry, length, if_neg (by omega), base64Decode_base64Encode, ok_bind,
    if_neg (by omega)]

theorem mapM_parseEntry (tables : CaseTables) (ders : List Bytes)
    (sizes : ∀ der ∈ ders, 1 ≤ der.length ∧ der.length ≤ 4096) :
    (ders.map base64Encode).mapM (parseEntry tables) = ders.mapM (parseCertificate tables) := by
  induction ders with
  | nil => rfl
  | cons der ders ih =>
    simp only [List.map_cons, List.mapM_cons, parseEntry_base64Encode tables der (sizes der (by simp)),
      ih fun d member => sizes d (by simp [member])]

namespace Sample

theorem mapM_parseCertificate (ders : List Bytes)
    (count : (certificates ders).length = ders.length) :
    ders.mapM (parseCertificate host.tables) = .ok (certificates ders) := by
  induction ders with
  | nil => rfl
  | cons der ders ih =>
    have few : (certificates ders).length ≤ ders.length := List.length_filterMap_le _ _
    rw [certificates, List.filterMap_cons, ← certificates] at count ⊢
    rw [List.mapM_cons]
    cases parsed : parseCertificate host.tables der with
    | error e =>
      rw [parsed] at count
      change (certificates ders).length = ders.length + 1 at count
      omega
    | ok cert =>
      rw [parsed] at count
      rw [ok_bind, ih (Nat.succ.inj count), ok_bind]
      rfl

end Sample

theorem completeChain_of_rooted (host : Host CryptoKey) (anchors chain : List Certificate)
    (rooted : chain.getLast?.any isSelfIssued = true) :
    completeChain host anchors chain = .ok chain := by
  simp only [completeChain]
  cases top : chain.getLast? with
  | none => simp [top] at rooted
  | some tail =>
    simp only [top, Option.any_some] at rooted
    simp [rooted]

namespace Sample

/-- The request with other certificates. -/
def requestWith (ders : List Bytes) : AttestRequest :=
  { request with chain := ders.map base64Encode }

theorem loadChain_requestWith (ders : List Bytes)
    (sizes : ∀ der ∈ ders, 1 ≤ der.length ∧ der.length ≤ 4096)
    (count : (certificates ders).length = ders.length)
    (rooted : (certificates ders).getLast?.any isSelfIssued = true) :
    loadChain host verifier.anchors (requestWith ders).chain = .ok (certificates ders) := by
  rw [requestWith, loadChain, mapM_parseEntry _ _ sizes, mapM_parseCertificate _ count, ok_bind,
    completeChain_of_rooted _ _ _ rooted]

/-- Once the chain is loaded, the verdict is that on its certificates. -/
theorem verify_requestWith (ders : List Bytes) (revokedSerials : List JsString)
    (loaded : loadChain host verifier.anchors (requestWith ders).chain = .ok (certificates ders))
    (few : 2 ≤ ders.length ∧ ders.length ≤ 6) :
    verifier.verify host (requestWith ders) challenge revokedSerials nowMs =
      judgeChain host verifier challenge revokedSerials nowMs
        (finishVerify host (requestWith ders) challenge revokedSerials nowMs)
        (certificates ders) := by
  have size : (requestWith ders).chain.length = ders.length := List.length_map _
  have signed : ¬((requestWith ders).pop.length < 1 ∨ (requestWith ders).pop.length > 128) := by
    change ¬(request.pop.length < 1 ∨ request.pop.length > 128)
    decide +kernel
  rw [verify_eq_verifyThen, verifyThen, size, if_neg (by omega), if_neg signed, loaded]
  rfl

end Sample

theorem sample_accepted :
    Sample.verifier.verify Sample.host Sample.request Sample.challenge [] Sample.nowMs = .ok 2 := by
  have loaded := Sample.loadChain_requestWith
    [Sample.leafDer, Sample.attestationDer, Sample.rkpDer, Sample.remoteDer, Sample.rootDer]
    (by decide +kernel) (by decide +kernel) (by decide +kernel)
  have judged := Sample.verify_requestWith _ [] loaded (by decide)
  apply judged.trans
  decide +kernel

theorem acceptance_sound_sample :
    ∃ (path : CertPath) (d : KeyDescription),
      loadChain Sample.host Sample.verifier.anchors Sample.request.chain =
        .ok path.certificatesWithAnchor ∧
      (∃ anchor ∈ Sample.verifier.anchors, IssuedBy Sample.host path.intermediateCert anchor) ∧
      path.certificates.IsChain (IssuedBy Sample.host) ∧
      (∀ cert ∈ path.certificates,
        cert.notBefore ≤ Sample.nowMs ∧ Sample.nowMs ≤ cert.notAfter) ∧
      (∀ cert ∈ path.certificatesWithAnchor, cert.serialHex ∉ ([] : List JsString)) ∧
      GenuineKey Sample.host Sample.verifier Sample.request Sample.challenge Sample.nowMs path d :=
  acceptance_sound Sample.host Sample.verifier Sample.request Sample.challenge [] Sample.nowMs
    sample_accepted

end UncrackableL5

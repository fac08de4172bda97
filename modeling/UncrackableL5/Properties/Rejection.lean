import UncrackableL5.Properties.Acceptance

/-!
# What the rejection codes mean

On a presented request the verdict is a fixed sequence of questions (`verdict_eq`), the two
policy questions last. Everything raised below the verifier ends as one of its six codes.

## Main results

- `rejection_codes_faithful`: what each code says about the request, and that the policy can only
  replace an acceptance.
- `verify_clean`: no other exception escapes.
-/
namespace UncrackableL5

variable {CryptoKey : Type}

/-- What a list of constraints makes of a presented request. -/
def judged (d : KeyDescription) (path : CertPath) (accept : Js Nat) (constraints : List Constraint) :
    Js Nat :=
  match firstViolation d path constraints with
  | some (label, _) => rejected (violationCode label)
  | none => accept

/-- A constraint is one question: a violation decides, otherwise the others are asked. -/
private theorem judged_cons {d : KeyDescription} {path : CertPath} {accept : Js Nat} {c : Constraint}
    {rest : List Constraint} {p : Prop} [Decidable p] {message : String}
    (asks : c.check d path = if p then none else some message) :
    judged d path accept (c :: rest) =
      if ¬p then rejected (violationCode c.label) else judged d path accept rest := by
  simp only [judged, firstViolation, asks]
  by_cases satisfied : p
  · simp only [satisfied, ↓reduceIte, not_true_eq_false]
  · simp only [satisfied, ↓reduceIte, not_false_eq_true]

/-- The verdict on a presented request, question by question. -/
theorem verdict_eq (v : AndroidVerifier) (tables : CaseTables) (path : CertPath)
    (d : KeyDescription)
    (finish : List Certificate → Certificate → PublicKeyInfo → KeyDescription → Js Nat) :
    verdict v tables path d finish =
      if d.hardwareEnforced.origin ≠ some .generated then rejected .attestationInvalid
      else if ¬(d.keyMintSecurityLevel = d.attestationSecurityLevel ∧
          d.attestationSecurityLevel ≠ .software) then rejected .noHardwareAttestation
      else if d.hardwareEnforced.rootOfTrust = none then rejected .attestationInvalid
      else if ¬levelMatches d.keyMintSecurityLevel (path.securityLevel tables) then
        rejected .noHardwareAttestation
      else if ¬appMatches v.packageName v.signerSha256Hex d then rejected .appIntegrity
      else if ¬deviceSound d then rejected .deviceIntegrity
      else if ¬signingKeyOnly d then rejected .attestationInvalid
      else finish path.certificatesWithAnchor path.leafCert path.leafCert.publicKey d := by
  have start : verdict v tables path d finish = judged d path
      (finish path.certificatesWithAnchor path.leafCert path.leafCert.publicKey d)
      (originConstraint :: securityLevelConstraint :: rootOfTrustConstraint ::
        matchesCertificate tables :: appIdentity v.packageName v.signerSha256Hex ::
        deviceIntegrity :: signingKey :: []) := rfl
  rw [start, judged_cons rfl, judged_cons rfl, judged_cons rfl, judged_cons rfl, judged_cons rfl,
    judged_cons rfl, judged_cons rfl]
  simp only [not_not, ne_eq]
  rfl

theorem checkPossession_cases (host : Host CryptoKey) (leaf : Certificate) (key : PublicKeyInfo)
    (pop : JsString) (challenge : Bytes) (nowMs : Number) :
    checkPossession host leaf key pop challenge nowMs = .ok () ∨
      checkPossession host leaf key pop challenge nowMs = rejected .attestationInvalid := by
  simp only [checkPossession]
  split
  · exact Or.inr rfl
  · split
    · exact Or.inr rfl
    · cases base64Decode pop with
      | error e => exact Or.inr rfl
      | ok signature =>
        simp only [Js.recover, ok_bind]
        split
        · exact Or.inl rfl
        · exact Or.inr rfl

/-! ### The procedure without the policy -/

/-- What follows a successful chain verification, without the policy. -/
def finishWithoutPolicy (host : Host CryptoKey) (request : AttestRequest) (challenge : Bytes)
    (revokedSerials : List JsString) (nowMs : Number) (chain : List Certificate)
    (leaf : Certificate) (key : PublicKeyInfo) (_ : KeyDescription) : Js Nat := do
  checkPossession host leaf key request.pop challenge nowMs
  rejectListed chain revokedSerials
  .ok 2

/-- `verify` without its two policy checks. -/
def verifyWithoutPolicy (host : Host CryptoKey) (v : AndroidVerifier) (request : AttestRequest)
    (challenge : Bytes) (revokedSerials : List JsString) (nowMs : Number) : Js Nat := do
  if request.chain.length < 2 ∨ request.chain.length > 6 then rejected .attestationInvalid
  else if request.pop.length < 1 ∨ request.pop.length > 128 then rejected .attestationInvalid
  else do
    let chain ← (loadChain host v.anchors request.chain).recover fun _ =>
      rejected .attestationInvalid
    rejectListed chain revokedSerials
    match verifyChain host chain (some challenge) (v.options host.tables revokedSerials nowMs) with
    | .success publicKey _ =>
      match chain.head? with
      | none => .error (.typeError "Cannot read properties of undefined")
      | some leaf => do
        checkPossession host leaf publicKey request.pop challenge nowMs
        rejectListed chain revokedSerials
        .ok 2
    | .constraintViolation label _ => rejected (violationCode label)
    | _ => rejected .attestationInvalid

private theorem verifyWithoutPolicy_eq_verifyThen (host : Host CryptoKey) (v : AndroidVerifier)
    (request : AttestRequest) (challenge : Bytes) (revokedSerials : List JsString)
    (nowMs : Number) :
    verifyWithoutPolicy host v request challenge revokedSerials nowMs =
      verifyThen host v request challenge revokedSerials nowMs
        (finishWithoutPolicy host request challenge revokedSerials nowMs) := rfl

/-- The levels that the key description claims are equal, in hardware, and those of the chain. -/
def LevelsHold (tables : CaseTables) (path : CertPath) (d : KeyDescription) : Prop :=
  d.keyMintSecurityLevel = d.attestationSecurityLevel ∧
    d.attestationSecurityLevel ≠ .software ∧
    levelMatches d.keyMintSecurityLevel (path.securityLevel tables) = true

/-- How a presented request ends: at the first question with the wrong answer, or accepted. -/
inductive Outcome (host : Host CryptoKey) (v : AndroidVerifier) (request : AttestRequest)
    (challenge : Bytes) (nowMs : Number) (path : CertPath) (d : KeyDescription) :
    Js Nat → Js Nat → Prop where
  | invalid : Outcome host v request challenge nowMs path d (rejected .attestationInvalid)
      (rejected .attestationInvalid)
  | levels (generated : d.hardwareEnforced.origin = some .generated)
      (fails : ¬LevelsHold host.tables path d) :
      Outcome host v request challenge nowMs path d (rejected .noHardwareAttestation)
        (rejected .noHardwareAttestation)
  | app (generated : d.hardwareEnforced.origin = some .generated)
      (levels : LevelsHold host.tables path d) (bound : d.hardwareEnforced.rootOfTrust ≠ none)
      (fails : appMatches v.packageName v.signerSha256Hex d = false) :
      Outcome host v request challenge nowMs path d (rejected .appIntegrity)
        (rejected .appIntegrity)
  | device (generated : d.hardwareEnforced.origin = some .generated)
      (levels : LevelsHold host.tables path d) (bound : d.hardwareEnforced.rootOfTrust ≠ none)
      (app : appMatches v.packageName v.signerSha256Hex d = true)
      (fails : deviceSound d = false) :
      Outcome host v request challenge nowMs path d (rejected .deviceIntegrity)
        (rejected .deviceIntegrity)
  | provisioning (qualified : Qualified host v request challenge nowMs path d)
      (fails : path.provisioningMethod ≠ .remotelyProvisioned) :
      Outcome host v request challenge nowMs path d (rejected .noRemoteProvisioning) (.ok 2)
  | patches (qualified : Qualified host v request challenge nowMs path d)
      (remote : path.provisioningMethod = .remotelyProvisioned)
      (fails : patchesCurrent d.hardwareEnforced nowMs = false) :
      Outcome host v request challenge nowMs path d (rejected .securityPatchOutdated) (.ok 2)
  | accepted (accepted : Accepted host v request challenge nowMs path d) :
      Outcome host v request challenge nowMs path d (.ok 2) (.ok 2)

theorem outcome_of_presented {host : Host CryptoKey} {v : AndroidVerifier}
    {request : AttestRequest} {challenge : Bytes} {revokedSerials : List JsString}
    {nowMs : Number} {path : CertPath} {d : KeyDescription}
    (presented : Presented host v request challenge revokedSerials nowMs path d) :
    Outcome host v request challenge nowMs path d
      (verdict v host.tables path d (finishVerify host request challenge revokedSerials nowMs))
      (verdict v host.tables path d
        (finishWithoutPolicy host request challenge revokedSerials nowMs)) := by
  rw [verdict_eq, verdict_eq]
  -- The default constraints.
  by_cases generated : d.hardwareEnforced.origin = some .generated
  case neg => simpa only [ne_eq, generated, not_false_eq_true, ↓reduceIte] using .invalid
  simp only [ne_eq, generated, not_true_eq_false, ↓reduceIte]
  by_cases levels : d.keyMintSecurityLevel = d.attestationSecurityLevel ∧
    ¬d.attestationSecurityLevel = .software
  case neg =>
    simp only [levels, not_false_eq_true, ↓reduceIte]
    exact .levels generated fun hold => levels ⟨hold.1, hold.2.1⟩
  simp only [levels, not_true_eq_false, not_false_eq_true, and_self, ↓reduceIte]
  by_cases bound : d.hardwareEnforced.rootOfTrust = none
  case pos => simpa only [bound, ↓reduceIte] using .invalid
  simp only [bound, ↓reduceIte]
  -- The constraints of the server.
  by_cases named : levelMatches d.keyMintSecurityLevel (path.securityLevel host.tables) = true
  case neg =>
    simp only [levels.1 ▸ named]
    exact .levels generated fun hold => named hold.2.2
  have hold : LevelsHold host.tables path d := ⟨levels.1, levels.2, named⟩
  simp only [levels.1 ▸ named, not_true_eq_false, ↓reduceIte]
  by_cases app : appMatches v.packageName v.signerSha256Hex d = true
  case neg =>
    simp only [app]
    exact .app generated hold bound (by simpa using app)
  simp only [app, not_true_eq_false, ↓reduceIte]
  by_cases sound : deviceSound d = true
  case neg =>
    simp only [sound]
    exact .device generated hold bound app (by simpa using sound)
  simp only [sound, not_true_eq_false, ↓reduceIte]
  by_cases signing : signingKeyOnly d = true
  case neg => simpa only [signing, not_false_eq_true, ↓reduceIte] using .invalid
  simp only [signing, not_true_eq_false, ↓reduceIte, finishVerify, finishWithoutPolicy,
    rejectListed_of_unlisted presented.unlisted, ok_bind]
  -- The checks on the leaf, which both procedures make.
  rcases checkPossession_cases host path.leafCert path.leafCert.publicKey request.pop challenge
    nowMs with possession | refused
  case inr => simpa only [refused] using .invalid
  obtain ⟨timely, curve, possessed⟩ := (checkPossession_eq_ok_iff _ _ _ _ _ _).mp possession
  have qualified : Qualified host v request challenge nowMs path d :=
    ⟨generated, levels.1, levels.2, bound, named, app, sound, signing, timely, curve, possessed⟩
  rw [possession, ok_bind, checkPolicy, (CertPath.new_eq_ok_iff _ path).mpr rfl, ok_bind]
  -- The policy, which only one of them asks.
  by_cases remote : path.provisioningMethod = .remotelyProvisioned
  case neg => simpa only [ne_eq, remote, not_false_eq_true, ↓reduceIte] using
    .provisioning qualified remote
  by_cases patched : patchesCurrent d.hardwareEnforced nowMs = true
  case neg => simpa only [ne_eq, remote, patched, not_true_eq_false, not_false_eq_true,
    ↓reduceIte] using .patches qualified remote (by simpa using patched)
  simpa only [ne_eq, remote, patched, not_true_eq_false, ↓reduceIte] using
    .accepted ⟨qualified, remote, patched⟩

/-- A request that is not presented is invalid for both procedures. -/
theorem verify_outcome (host : Host CryptoKey) (v : AndroidVerifier) (request : AttestRequest)
    (challenge : Bytes) (revokedSerials : List JsString) (nowMs : Number) :
    (∃ path d, Presented host v request challenge revokedSerials nowMs path d ∧
      Outcome host v request challenge nowMs path d
        (v.verify host request challenge revokedSerials nowMs)
        (verifyWithoutPolicy host v request challenge revokedSerials nowMs)) ∨
    v.verify host request challenge revokedSerials nowMs = rejected .attestationInvalid ∧
      verifyWithoutPolicy host v request challenge revokedSerials nowMs =
        rejected .attestationInvalid := by
  rw [verify_eq_verifyThen, verifyWithoutPolicy_eq_verifyThen]
  rcases verifyThen_cases host v request challenge revokedSerials nowMs
    (finishVerify host request challenge revokedSerials nowMs) with
    ⟨path, d, presented, judged⟩ | ⟨absent, refused⟩
  all_goals
    rcases verifyThen_cases host v request challenge revokedSerials nowMs
      (finishWithoutPolicy host request challenge revokedSerials nowMs) with
      ⟨path₂, d₂, presented₂, judged₂⟩ | ⟨absent₂, refused₂⟩
  -- Both procedures present the same path.
  · obtain ⟨rfl, rfl⟩ := presented.unique presented₂
    left
    refine ⟨path, d, presented, ?_⟩
    rw [judged, judged₂]
    exact outcome_of_presented presented
  · exact absurd ⟨path, d, presented⟩ absent₂
  · exact absurd ⟨path₂, d₂, presented₂⟩ absent
  · exact Or.inr ⟨refused, refused₂⟩

/-- Each code names the question that failed, every earlier question having passed; the policy
codes replace acceptances only. -/
theorem rejection_codes_faithful (host : Host CryptoKey) (v : AndroidVerifier)
    (request : AttestRequest) (challenge : Bytes) (revokedSerials : List JsString)
    (nowMs : Number) :
    (v.verify host request challenge revokedSerials nowMs = rejected .noHardwareAttestation →
      ∃ path d, Presented host v request challenge revokedSerials nowMs path d ∧
        d.hardwareEnforced.origin = some .generated ∧ ¬LevelsHold host.tables path d) ∧
    (v.verify host request challenge revokedSerials nowMs = rejected .appIntegrity →
      ∃ path d, Presented host v request challenge revokedSerials nowMs path d ∧
        d.hardwareEnforced.origin = some .generated ∧ LevelsHold host.tables path d ∧
        d.hardwareEnforced.rootOfTrust ≠ none ∧
        ¬∃ version, d.softwareEnforced.attestationApplicationId = some {
          packages := [{ name := v.packageName, version := version }]
          signatures := [v.signerSha256Hex] }) ∧
    (v.verify host request challenge revokedSerials nowMs = rejected .deviceIntegrity →
      ∃ path d, Presented host v request challenge revokedSerials nowMs path d ∧
        d.hardwareEnforced.origin = some .generated ∧ LevelsHold host.tables path d ∧
        (∃ version, d.softwareEnforced.attestationApplicationId = some {
          packages := [{ name := v.packageName, version := version }]
          signatures := [v.signerSha256Hex] }) ∧
        ∃ boot, d.hardwareEnforced.rootOfTrust = some boot ∧
          (boot.deviceLocked = false ∨ boot.verifiedBootState ≠ .verified)) ∧
    (v.verify host request challenge revokedSerials nowMs = rejected .noRemoteProvisioning →
      ∃ path d, Presented host v request challenge revokedSerials nowMs path d ∧
        Qualified host v request challenge nowMs path d ∧
        path.provisioningMethod ≠ .remotelyProvisioned) ∧
    (v.verify host request challenge revokedSerials nowMs = rejected .securityPatchOutdated →
      ∃ path d, Presented host v request challenge revokedSerials nowMs path d ∧
        Qualified host v request challenge nowMs path d ∧
        path.provisioningMethod = .remotelyProvisioned ∧
        ∃ level ∈ [d.hardwareEnforced.osPatchLevel, d.hardwareEnforced.vendorPatchLevel,
          d.hardwareEnforced.bootPatchLevel], patchCurrent nowMs level = false) ∧
    (∀ e, verifyWithoutPolicy host v request challenge revokedSerials nowMs = .error e →
      v.verify host request challenge revokedSerials nowMs = .error e) ∧
    (∀ tier, verifyWithoutPolicy host v request challenge revokedSerials nowMs = .ok tier →
      v.verify host request challenge revokedSerials nowMs = .ok tier ∨
      v.verify host request challenge revokedSerials nowMs = rejected .noRemoteProvisioning ∨
      v.verify host request challenge revokedSerials nowMs = rejected .securityPatchOutdated) := by
  rcases verify_outcome host v request challenge revokedSerials nowMs with
    ⟨path, d, presented, outcome⟩ | ⟨refused, refused₂⟩
  · generalize v.verify host request challenge revokedSerials nowMs = result at outcome ⊢
    generalize
      verifyWithoutPolicy host v request challenge revokedSerials nowMs = reference at outcome ⊢
    -- Each code belongs to one case of the outcome and clashes with the others.
    refine ⟨fun code => ?_, fun code => ?_, fun code => ?_, fun code => ?_, fun code => ?_,
      fun e code => ?_, fun tier code => ?_⟩
    · cases outcome <;> cases code
      next generated fails => exact ⟨path, d, presented, generated, fails⟩
    · cases outcome <;> cases code
      next generated levels bound fails =>
        refine ⟨path, d, presented, generated, levels, bound, ?_⟩
        rw [← appMatches_iff, fails]
        exact Bool.false_ne_true
    · cases outcome <;> cases code
      next generated levels bound app fails =>
        refine ⟨path, d, presented, generated, levels, (appMatches_iff _ _ d).mp app, ?_⟩
        obtain ⟨boot, present⟩ := Option.ne_none_iff_exists'.mp bound
        refine ⟨boot, present, ?_⟩
        rw [deviceSound, present] at fails
        simpa [or_iff_not_imp_left] using fails
    · cases outcome <;> cases code
      next qualified fails => exact ⟨path, d, presented, qualified, fails⟩
    · cases outcome <;> cases code
      next qualified remote fails =>
        rw [patchesCurrent, List.all_eq_false] at fails
        obtain ⟨level, member, old⟩ := fails
        exact ⟨path, d, presented, qualified, remote, level, member, by simpa using old⟩
    · cases outcome <;> cases code <;> rfl
    · cases outcome <;> cases code
      · exact Or.inr (Or.inl rfl)
      · exact Or.inr (Or.inr rfl)
      · exact Or.inl rfl
  · simp [refused, refused₂, rejected]

/-- The codes of the verifier. -/
def verifierCodes : List RejectCode :=
  [.attestationInvalid, .appIntegrity, .deviceIntegrity, .noHardwareAttestation,
    .noRemoteProvisioning, .securityPatchOutdated]

/-- The verifier accepts or throws a `Rejected` with one of its codes, whatever the request. -/
theorem verify_clean (host : Host CryptoKey) (v : AndroidVerifier) (request : AttestRequest)
    (challenge : Bytes) (revokedSerials : List JsString) (nowMs : Number) :
    v.verify host request challenge revokedSerials nowMs = .ok 2 ∨
      ∃ code ∈ verifierCodes,
        v.verify host request challenge revokedSerials nowMs = .error (.rejected code) := by
  rcases verify_outcome host v request challenge revokedSerials nowMs with
    ⟨path, d, presented, outcome⟩ | ⟨refused, -⟩
  · generalize v.verify host request challenge revokedSerials nowMs = result at outcome ⊢
    generalize
      verifyWithoutPolicy host v request challenge revokedSerials nowMs = reference at outcome
    cases outcome with
    | accepted => exact Or.inl rfl
    | _ => exact Or.inr ⟨_, by simp [verifierCodes], rfl⟩
  · exact Or.inr ⟨_, by simp [verifierCodes], refused⟩

end UncrackableL5

import UncrackableL5.Properties.PathValidation

/-!
# What chain verification accepts

`verifyChain` reads its anchors in order, and its constraints in order. Success is characterised
by conditions on the input alone.

## Main results

- `verifyChain_cases`: on an attested chain the constraints decide; every other chain is refused.
- `verifyChain_eq_success_iff`: the exact condition for success.
-/
namespace UncrackableL5

variable {CryptoKey : Type}

@[simp] theorem CertPath.new_eq_ok_iff (chain : List Certificate) (path : CertPath) :
    CertPath.new chain = .ok path ↔ path.certificatesWithAnchor = chain := by
  simp only [CertPath.new]
  constructor
  · intro built
    split at built
    · split at built
      · cases built
        rfl
      · simp at built
    · simp at built
  · rintro rfl
    rw [dif_pos path.enough, dif_pos path.rooted]

namespace CertPath

theorem ext_iff (path other : CertPath) :
    path = other ↔ path.certificatesWithAnchor = other.certificatesWithAnchor := by
  cases path
  cases other
  simp

theorem intermediateCert_mem_getLast (path : CertPath) :
    path.certificates.getLast? = some path.intermediateCert := by
  have := path.two_le_certificates
  rw [List.getLast?_eq_getElem?, intermediateCert, List.get_eq_getElem]
  exact List.getElem?_eq_getElem (by omega)

/-- A validated path ends under a certificate that its anchor issued. -/
theorem Validated.issued {host : Host CryptoKey} {path : CertPath}
    {revokedSerials : List JsString} {nowMs : Number} {anchor : Certificate}
    (validated : path.Validated host revokedSerials nowMs anchor) :
    IssuedBy host path.intermediateCert anchor := by
  have linked := validated.linked
  rw [List.isChain_append] at linked
  exact linked.2.2 _ path.intermediateCert_mem_getLast _ rfl

end CertPath

/-! ### Anchor selection -/

/-- The anchor loop succeeds exactly when some anchor validates the path. -/
theorem selectAnchor_eq_ok_iff (host : Host CryptoKey) (path : CertPath)
    (revokedSerials : List JsString) (nowMs : Number) (anchors : List Certificate)
    (lastError : Option String) (key : PublicKeyInfo) :
    selectAnchor host path revokedSerials nowMs anchors lastError = .ok key ↔
      key = path.leafCert.publicKey ∧
        ∃ anchor ∈ anchors, path.Validated host revokedSerials nowMs anchor := by
  induction anchors generalizing lastError with
  | nil => simp [selectAnchor]
  | cons anchor rest ih =>
    simp only [selectAnchor, List.mem_cons, exists_eq_or_imp]
    -- A validating anchor passes the name filter, so the filter does not show.
    by_cases validated : path.Validated host revokedSerials nowMs anchor
    · have named : namesEqual anchor.subject path.intermediateCert.issuer = true := by
        rw [namesEqual_comm]
        exact validated.issued.1
      have accepted := (validateWithAnchor_eq_ok_iff host path anchor revokedSerials nowMs
        path.leafCert.publicKey).mpr ⟨rfl, validated⟩
      simp only [named, ↓reduceIte, accepted, Except.ok.injEq, validated, true_or, and_true]
      exact eq_comm
    · simp only [validated, false_or]
      split
      -- The failure is kept for the message, and the loop goes on.
      · cases outcome : validateWithAnchor host path anchor revokedSerials nowMs with
        | error e => exact ih _
        | ok other =>
          exact absurd ((validateWithAnchor_eq_ok_iff _ _ _ _ _ _).mp outcome).2 validated
      · exact ih _

/-- The certificate whose issuance decides which anchor is used: among the anchors, the first
that issued the top of the path. -/
def issuingAnchor (host : Host CryptoKey) (path : CertPath) (anchors : List Certificate) :
    Option Certificate :=
  anchors.find? fun anchor => namesEqual path.intermediateCert.issuer anchor.subject &&
    verifyCertificate host path.intermediateCert anchor.publicKey

/-! ### Constraints -/

theorem firstViolation_eq_none_iff (d : KeyDescription) (path : CertPath)
    (constraints : List Constraint) :
    firstViolation d path constraints = none ↔ ∀ c ∈ constraints, c.check d path = none := by
  induction constraints with
  | nil => simp [firstViolation]
  | cons c rest ih =>
    simp only [firstViolation, List.mem_cons, forall_eq_or_imp]
    cases checked : c.check d path <;> simp [ih]

/-- The chain is a path that an anchor validates and whose leaf describes its key under the
expected challenge: everything `verifyChain` asks before the constraints. -/
structure Attested (host : Host CryptoKey) (chain : List Certificate)
    (expectedChallenge : Option Bytes) (opts : VerifierOptions) (path : CertPath)
    (d : KeyDescription) : Prop where
  built : path.certificatesWithAnchor = chain
  trusted : ∃ anchor ∈ opts.anchors, path.Validated host opts.revokedSerials opts.nowMs anchor
  described : leafDescription path opts.limits = .ok d
  fresh : ∀ challenge ∈ expectedChallenge, d.attestationChallenge = challenge

/-- The path and the description are read off the chain. -/
theorem Attested.unique {host : Host CryptoKey} {chain : List Certificate}
    {expectedChallenge : Option Bytes} {opts : VerifierOptions} {path path₂ : CertPath}
    {d d₂ : KeyDescription} (first : Attested host chain expectedChallenge opts path d)
    (second : Attested host chain expectedChallenge opts path₂ d₂) : path = path₂ ∧ d = d₂ := by
  obtain rfl : path = path₂ :=
    (CertPath.ext_iff _ _).mpr (first.built.trans second.built.symm)
  refine ⟨rfl, ?_⟩
  have described := first.described
  rw [second.described] at described
  cases described
  rfl

/-- The result on an attested chain. -/
def constraintResult (path : CertPath) (d : KeyDescription) (constraints : List Constraint) :
    VerificationResult :=
  match firstViolation d path constraints with
  | some (label, message) => .constraintViolation label message
  | none => .success path.leafCert.publicKey d

/-- A result that neither accepts nor names a constraint. -/
def VerificationResult.Refused : VerificationResult → Prop
  | .success _ _ | .constraintViolation _ _ => False
  | _ => True

/-- On an attested chain the constraints decide; every other chain is refused. -/
theorem verifyChain_cases (host : Host CryptoKey) (chain : List Certificate)
    (expectedChallenge : Option Bytes) (opts : VerifierOptions) :
    (∃ path d, Attested host chain expectedChallenge opts path d ∧
      verifyChain host chain expectedChallenge opts =
        constraintResult path d (defaultConstraints ++ opts.constraints)) ∨
    (¬∃ path d, Attested host chain expectedChallenge opts path d) ∧
      (verifyChain host chain expectedChallenge opts).Refused := by
  cases built : CertPath.new chain with
  | error e =>
    refine Or.inr ⟨?_, by simp only [verifyChain, built, VerificationResult.Refused]⟩
    rintro ⟨path, d, attested⟩
    rw [(CertPath.new_eq_ok_iff chain path).mpr attested.built] at built
    cases built
  | ok path =>
    -- The chain is a path, so every attested path of it is this one.
    have same := (CertPath.new_eq_ok_iff chain path).mp built
    have only : ∀ other d, Attested host chain expectedChallenge opts other d → other = path :=
      fun other d attested => (CertPath.ext_iff _ _).mpr (attested.built.trans same.symm)
    cases selected : selectAnchor host path opts.revokedSerials opts.nowMs opts.anchors none with
    | error e =>
      refine Or.inr ⟨?_, by simp only [verifyChain, built, selected, VerificationResult.Refused]⟩
      rintro ⟨other, d, attested⟩
      obtain rfl := only other d attested
      rw [(selectAnchor_eq_ok_iff _ _ _ _ _ _ _).mpr ⟨rfl, attested.trusted⟩] at selected
      cases selected
    | ok publicKey =>
      obtain ⟨rfl, trusted⟩ := (selectAnchor_eq_ok_iff _ _ _ _ _ _ _).mp selected
      cases described : leafDescription path opts.limits with
      | error e =>
        refine Or.inr
          ⟨?_, by simp only [verifyChain, built, selected, described, VerificationResult.Refused]⟩
        rintro ⟨other, d, attested⟩
        obtain rfl := only other d attested
        have := attested.described
        rw [described] at this
        cases this
      | ok d =>
        -- Nothing is compared when no challenge is expected.
        have compared : (expectedChallenge.any fun c => !bytesEqual d.attestationChallenge c) =
            decide (¬∀ challenge ∈ expectedChallenge, d.attestationChallenge = challenge) := by
          cases expectedChallenge <;> simp [bytesEqual_eq_decide]
        simp only [verifyChain, built, selected, described, compared, decide_eq_true_eq]
        by_cases fresh : ∀ challenge ∈ expectedChallenge, d.attestationChallenge = challenge
        · left
          refine ⟨path, d, ⟨same, trusted, described, fresh⟩, ?_⟩
          rw [if_neg (not_not.mpr fresh)]
          rfl
        · right
          rw [if_pos fresh]
          refine ⟨?_, trivial⟩
          rintro ⟨other, d₂, attested⟩
          obtain rfl := only other d₂ attested
          have agree := attested.described
          rw [described] at agree
          cases agree
          exact fresh attested.fresh

theorem verifyChain_eq_success_iff (host : Host CryptoKey) (chain : List Certificate)
    (expectedChallenge : Option Bytes) (opts : VerifierOptions) (key : PublicKeyInfo)
    (d : KeyDescription) :
    verifyChain host chain expectedChallenge opts = .success key d ↔
      ∃ path, Attested host chain expectedChallenge opts path d ∧ key = path.leafCert.publicKey ∧
        ∀ c ∈ defaultConstraints ++ opts.constraints, c.check d path = none := by
  rcases verifyChain_cases host chain expectedChallenge opts with
    ⟨path, d₂, attested, result⟩ | ⟨unattested, refused⟩
  · rw [result, constraintResult]
    constructor
    · intro success
      cases violation : firstViolation d₂ path (defaultConstraints ++ opts.constraints) with
      | some failure => simp [violation] at success
      | none =>
        simp only [violation, VerificationResult.success.injEq] at success
        obtain ⟨rfl, rfl⟩ := success
        exact ⟨path, attested, rfl, (firstViolation_eq_none_iff _ _ _).mp violation⟩
    · rintro ⟨other, also, rfl, satisfied⟩
      obtain ⟨rfl, rfl⟩ := attested.unique also
      rw [(firstViolation_eq_none_iff _ _ _).mpr satisfied]
  · constructor
    · intro success
      simp [success, VerificationResult.Refused] at refused
    · rintro ⟨path, attested, -⟩
      exact absurd ⟨path, d, attested⟩ unattested

end UncrackableL5

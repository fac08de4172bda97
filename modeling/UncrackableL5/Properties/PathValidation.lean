import Mathlib.Data.List.Chain
import UncrackableL5.Verifier.Path

/-!
# What path validation accepts

The validation loop runs a step machine over the certificates from the top of the chain down to
the leaf. Its successful runs are characterised without the machine: a chain of issuers, the
validity periods above the leaf, no revoked serial number, and one condition on the attestation
extensions (`Shaped`).

## Main result

`validateWithAnchor_eq_ok_iff`: an anchor validates a path exactly when the path is `Validated`
under it.
-/
namespace UncrackableL5

variable {CryptoKey : Type}

/-- `cert` names `issuer` as its issuer and verifies under the key of `issuer`. -/
def IssuedBy (host : Host CryptoKey) (cert issuer : Certificate) : Prop :=
  namesEqual cert.issuer issuer.subject = true ∧
    verifyCertificate host cert issuer.publicKey = true

/-- The validity check made on every certificate above the leaf. -/
def Timely (v : Validation) (cert : Certificate) : Prop :=
  ¬v.nowMs < cert.notBefore ∧ (¬v.nowMs > cert.notAfter ∨ v.method = .factoryProvisioned)

/-- The steps that can still follow `step`. -/
def stepsAfter (method : ProvisioningMethod) (lengthWithAnchor : Nat) : Option Step → List Step
  | none =>
    if method = .remotelyProvisioned then [.rkpIntermediate, .rkpServer, .attestation, .target]
    else if method = .factoryProvisioned ∨ lengthWithAnchor = 4 then
      [.factoryIntermediate, .attestation, .target]
    else [.attestation, .target]
  | some .rkpIntermediate => [.rkpServer, .attestation, .target]
  | some .rkpServer => [.attestation, .target]
  | some .factoryIntermediate => [.attestation, .target]
  | some .attestation => [.target]
  | some .target => []

/-- The machine takes the first of its remaining steps. -/
private theorem nextStep_eq_some_iff (method : ProvisioningMethod) (length : Nat)
    (step : Option Step) (next : Step) :
    nextStep method length step = some next ↔
      stepsAfter method length step = next :: stepsAfter method length (some next) := by
  cases step with
  | none =>
    simp only [nextStep, stepsAfter]
    split
    · cases next <;> simp
    · split <;> cases next <;> simp
  | some step => cases step <;> cases next <;> simp [nextStep, stepsAfter]

private theorem no_steps_left {method : ProvisioningMethod} {length : Nat} {step : Option Step}
    (stopped : nextStep method length step = none) : stepsAfter method length step = [] := by
  cases step with
  | none =>
    simp only [nextStep] at stopped
    split at stopped
    · simp at stopped
    · split at stopped <;> simp at stopped
  | some step => cases step <;> simp_all [nextStep, stepsAfter]

private theorem target_iff_last (method : ProvisioningMethod) (length : Nat) (step : Step) :
    step = .target ↔ (stepsAfter method length (some step)).length = 0 := by
  cases step <;> simp [stepsAfter]

theorem checkCertificate_eq_ok_iff (host : Host CryptoKey) (v : Validation) (step : Option Step)
    (remaining : Nat) (prev cert : Certificate) (next : Step) :
    checkCertificate host v step remaining prev.publicKey prev.subject cert = .ok next ↔
      nextStep v.method v.lengthWithAnchor step = some next ∧ IssuedBy host cert prev ∧
        (remaining ≠ 0 → Timely v cert) ∧
        (hasAttestationExtension cert = true ↔ next = .target) ∧
        cert.serialHex ∉ v.revokedSerials := by
  simp only [checkCertificate]
  cases machine : nextStep v.method v.lengthWithAnchor step with
  | none => simp
  | some taken =>
    simp only [guard_eq_ok_iff, Except.ok.injEq, Option.some.injEq, IssuedBy, Timely,
      List.contains_iff_mem, not_not]
    constructor
    · rintro ⟨named, signed, early, expired, target, only, clear, rfl⟩
      refine ⟨rfl, ⟨named, signed⟩, ?_, by tauto, clear⟩
      intro above
      exact ⟨by simp_all, by by_cases h : v.method = .factoryProvisioned <;> simp_all⟩
    -- The guards of the round in their order, each of them passed.
    · rintro ⟨rfl, ⟨named, signed⟩, timely, extension, clear⟩
      refine ⟨named, signed, ?_, ?_, by tauto, by tauto, clear, rfl⟩
      · rintro ⟨above, early⟩
        exact (timely above).1 early
      · rintro ⟨above, late, method⟩
        rcases (timely above).2 with inTime | factory
        · exact inTime late
        · exact method factory

/-- The attestation extension stands on the certificate of the last step and nowhere else. -/
def ShapedFor (steps : List Step) (certs : List Certificate) : Prop :=
  certs.length ≤ steps.length ∧
    (∀ cert ∈ certs.dropLast, hasAttestationExtension cert = false) ∧
    ∀ cert, certs.getLast? = some cert →
      (hasAttestationExtension cert = true ↔ certs.length = steps.length)

private theorem shapedFor_cons (method : ProvisioningMethod) (length : Nat) (next : Step)
    (cert : Certificate) (rest : List Certificate) :
    ShapedFor (next :: stepsAfter method length (some next)) (cert :: rest) ↔
      (hasAttestationExtension cert = true ↔ next = .target) ∧
        ShapedFor (stepsAfter method length (some next)) rest := by
  rw [target_iff_last method length next]
  generalize stepsAfter method length (some next) = steps
  cases rest with
  -- The chain ends with this certificate, which is the leaf.
  | nil =>
    simp only [ShapedFor, List.length_cons, List.length_nil, List.dropLast_singleton,
      List.getLast?_singleton, Option.some.injEq, List.not_mem_nil, List.dropLast_nil,
      List.getLast?_nil]
    constructor
    · rintro ⟨-, -, last⟩
      have := last cert rfl
      simp only [this]
      exact ⟨by omega, by omega, by simp, by simp⟩
    · rintro ⟨here, -⟩
      refine ⟨by omega, by simp, ?_⟩
      rintro _ rfl
      rw [here]
      omega
  -- A certificate follows, so this one is above the leaf.
  | cons below rest =>
    simp only [ShapedFor, List.length_cons, List.dropLast_cons_cons, List.mem_cons,
      List.getLast?_cons_cons, forall_eq_or_imp]
    constructor
    · rintro ⟨room, ⟨here, others⟩, last⟩
      have more : steps.length ≠ 0 := by omega
      refine ⟨by simp [here, more], by omega, others, fun c top => ?_⟩
      rw [last c top]
      omega
    · rintro ⟨here, room, others, last⟩
      have above : steps.length ≠ 0 := by omega
      refine ⟨by omega, ⟨by simpa [above] using here, others⟩, fun c top => ?_⟩
      rw [last c top]
      omega

/-- The loop under `prev` succeeds exactly on a shaped chain of issuers, and returns the key of
its last certificate. -/
theorem validateLoop_eq_ok_iff (host : Host CryptoKey) (v : Validation) (step : Option Step)
    (prev : Certificate) (certs : List Certificate) (key : PublicKeyInfo) :
    validateLoop host v step prev.publicKey prev.subject certs = .ok key ↔
      key = (certs.getLastD prev).publicKey ∧
        (prev :: certs).IsChain (fun above below => IssuedBy host below above) ∧
        (∀ cert ∈ certs.dropLast, Timely v cert) ∧
        (∀ cert ∈ certs, cert.serialHex ∉ v.revokedSerials) ∧
        ShapedFor (stepsAfter v.method v.lengthWithAnchor step) certs := by
  -- On the certificates, top first; each round hands the machine's state and its own key on.
  induction certs generalizing step prev with
  | nil => simp [validateLoop, ShapedFor, eq_comm (a := key)]
  | cons cert rest ih =>
    simp only [validateLoop, bind_ok_iff, checkCertificate_eq_ok_iff, ih, List.isChain_cons_cons,
      List.mem_cons, forall_eq_or_imp, nextStep_eq_some_iff, List.getLastD_cons]
    constructor
    · rintro ⟨next, ⟨machine, issued, timely, extension, clear⟩, last, linked, times, serials,
        shaped⟩
      refine ⟨last, ⟨issued, linked⟩, ?_, ⟨clear, serials⟩, ?_⟩
      · cases rest with
        | nil => simp
        | cons below rest => simpa using ⟨timely (by simp), times⟩
      · rw [machine, shapedFor_cons]
        exact ⟨extension, shaped⟩
    · rintro ⟨last, ⟨issued, linked⟩, times, ⟨clear, serials⟩, shaped⟩
      -- A certificate is left, so a step is.
      obtain ⟨next, machine⟩ :
          ∃ next, stepsAfter v.method v.lengthWithAnchor step =
            next :: stepsAfter v.method v.lengthWithAnchor (some next) := by
        cases taken : nextStep v.method v.lengthWithAnchor step with
        | some next => exact ⟨next, (nextStep_eq_some_iff _ _ _ _).mp taken⟩
        | none => exact absurd shaped.1 (by rw [no_steps_left taken]; simp)
      rw [machine, shapedFor_cons] at shaped
      refine ⟨next, ⟨machine, issued, ?_, shaped.1, clear⟩, last, linked, ?_, serials, shaped.2⟩
      · intro above
        cases rest with
        | nil => simp at above
        | cons below rest => exact times cert (by simp)
      · cases rest with
        | nil => simp
        | cons below rest => exact fun c member => times c (by simp [member])

/-! ### Whole paths -/

namespace CertPath

/-- The certificates above the leaf and below the root, leaf side first. -/
def issuers (path : CertPath) : List Certificate := path.certificates.tail

theorem certificates_eq_cons (path : CertPath) :
    path.certificates = path.leafCert :: path.issuers := by
  have nonempty : path.certificates ≠ [] := by
    have := path.two_le_certificates
    exact List.ne_nil_of_length_pos (by omega)
  simp only [issuers, leafCert, List.get_eq_getElem, ← List.head_eq_getElem nonempty,
    List.cons_head_tail]

theorem head_certificatesWithAnchor (path : CertPath) :
    path.certificatesWithAnchor.head? = some path.leafCert := by
  have leaf := congrArg List.head? path.certificates_eq_cons
  rwa [certificates, List.head?_dropLast, if_pos (by have := path.enough; omega)] at leaf

/-- The number of certificates, root included, of a complete chain. -/
def fullLength (path : CertPath) : Nat :=
  match path.provisioningMethod with
  | .remotelyProvisioned => 5
  | .factoryProvisioned => 4
  | .unknown => if path.certificatesWithAnchor.length = 4 then 4 else 3

theorem steps_length (path : CertPath) :
    (stepsAfter path.provisioningMethod path.certificatesWithAnchor.length none).length + 1 =
      path.fullLength := by
  simp only [stepsAfter, fullLength]
  cases path.provisioningMethod with
  | remotelyProvisioned => rfl
  | factoryProvisioned => rfl
  | unknown => by_cases four : path.certificatesWithAnchor.length = 4 <;> simp [four]

/-- The condition on lengths and attestation extensions: the leaf carries one exactly when the
chain is complete, and no certificate above it does. -/
structure Shaped (path : CertPath) : Prop where
  bounded : path.certificatesWithAnchor.length ≤ path.fullLength
  bare : ∀ cert ∈ path.issuers, hasAttestationExtension cert = false
  leaf : hasAttestationExtension path.leafCert = true ↔
    path.certificatesWithAnchor.length = path.fullLength

theorem shaped_iff (path : CertPath) :
    path.Shaped ↔ ShapedFor
      (stepsAfter path.provisioningMethod path.certificatesWithAnchor.length none)
      path.certificates.reverse := by
  have total := path.steps_length
  have count := path.certificates_length
  have enough := path.enough
  rw [certificates_eq_cons, List.length_cons] at count
  rw [certificates_eq_cons, ShapedFor, List.reverse_cons]
  simp only [List.length_append, List.length_reverse, List.length_singleton,
    List.dropLast_concat, List.mem_reverse, List.getLast?_concat, Option.some.injEq]
  constructor
  · rintro ⟨bounded, bare, leaf⟩
    refine ⟨by omega, bare, ?_⟩
    rintro _ rfl
    rw [leaf]
    omega
  · rintro ⟨bounded, bare, leaf⟩
    refine ⟨by omega, bare, ?_⟩
    rw [leaf _ rfl]
    omega

/-- What `anchor` validates, stated without the step machine. -/
structure Validated (host : Host CryptoKey) (path : CertPath) (revokedSerials : List JsString)
    (nowMs : Number) (anchor : Certificate) : Prop where
  linked : (path.certificates ++ [anchor]).IsChain (IssuedBy host)
  timely : ∀ cert ∈ path.issuers, Timely (path.validation revokedSerials nowMs) cert
  clear : ∀ cert ∈ path.certificates, cert.serialHex ∉ revokedSerials
  shaped : path.Shaped

end CertPath

/-- An anchor validates a path exactly when the path is `Validated` under it; the key that comes
back is the leaf's. -/
theorem validateWithAnchor_eq_ok_iff (host : Host CryptoKey) (path : CertPath)
    (anchor : Certificate) (revokedSerials : List JsString) (nowMs : Number) (key : PublicKeyInfo) :
    validateWithAnchor host path anchor revokedSerials nowMs = .ok key ↔
      key = path.leafCert.publicKey ∧ path.Validated host revokedSerials nowMs anchor := by
  -- The loop runs from the anchor down; the statement reads from the leaf up.
  have links : (anchor :: path.certificates.reverse).IsChain
        (fun above below => IssuedBy host below above) ↔
      (path.certificates ++ [anchor]).IsChain (IssuedBy host) := by
    rw [← List.isChain_reverse, List.reverse_cons, List.reverse_reverse]
  simp only [validateWithAnchor, validateLoop_eq_ok_iff, links, ← CertPath.shaped_iff,
    CertPath.validation]
  rw [path.certificates_eq_cons]
  simp only [List.reverse_cons, List.getLastD_concat, List.dropLast_concat, List.mem_reverse,
    List.mem_append, List.mem_singleton]
  rw [← path.certificates_eq_cons]
  constructor
  · rintro ⟨last, linked, timely, clear, shaped⟩
    refine ⟨last, linked, timely, fun cert member => ?_, shaped⟩
    rw [path.certificates_eq_cons, List.mem_cons] at member
    exact clear cert member.symm
  · rintro ⟨last, linked, timely, clear, shaped⟩
    refine ⟨last, linked, timely, fun cert member => clear cert ?_, shaped⟩
    rw [path.certificates_eq_cons, List.mem_cons]
    exact member.symm

end UncrackableL5

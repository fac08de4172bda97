import UncrackableL5.Properties.Acceptance
import UncrackableL5.Properties.PatchWindow

/-!
# When a request is accepted

Everything that `verify` checks of a request but its times and its serial numbers is `Eligible`,
and says nothing of the clock or the revocation list. The validity periods of the certificates have
one intersection, the patch levels one interval of months.

## Main result

`acceptance_window`: for each request, one window of time and the serial numbers of its completed
chain decide.
-/
namespace UncrackableL5

variable {CryptoKey : Type}

/-- What acceptance asks of a request at any time and under any revocation list. -/
structure Eligible (host : Host CryptoKey) (v : AndroidVerifier) (request : AttestRequest)
    (challenge : Bytes) (path : CertPath) (d : KeyDescription) : Prop where
  chainSize : 2 ≤ request.chain.length ∧ request.chain.length ≤ 6
  popSize : 1 ≤ request.pop.length ∧ request.pop.length ≤ 128
  loaded : loadChain host v.anchors request.chain = .ok path.certificatesWithAnchor
  trusted : ∃ anchor ∈ v.anchors, (path.certificates ++ [anchor]).IsChain (IssuedBy host)
  shaped : path.Shaped
  described : leafDescription path defaultLimits = .ok d
  fresh : d.attestationChallenge = challenge
  generated : d.hardwareEnforced.origin = some .generated
  levels : d.keyMintSecurityLevel = d.attestationSecurityLevel
  hardware : d.attestationSecurityLevel ≠ .software
  bound : d.hardwareEnforced.rootOfTrust ≠ none
  named : levelMatches d.keyMintSecurityLevel (path.securityLevel host.tables) = true
  app : appMatches v.packageName v.signerSha256Hex d = true
  sound : deviceSound d = true
  signing : signingKeyOnly d = true
  curve : path.leafCert.publicKey.algorithm = Oid.ecPublicKey ∧
    path.leafCert.publicKey.curve = some Oid.p256
  possessed : ∃ signature, base64Decode request.pop = .ok signature ∧
    verifySignature host path.leafCert.publicKey Oid.ecdsaSha256 signature challenge = true
  remote : path.provisioningMethod = .remotelyProvisioned

/-- The path and the description are those of the chain. -/
private theorem Eligible.unique {host : Host CryptoKey} {v : AndroidVerifier}
    {request : AttestRequest} {challenge : Bytes} {path path₂ : CertPath} {d d₂ : KeyDescription}
    (first : Eligible host v request challenge path d)
    (second : Eligible host v request challenge path₂ d₂) : path = path₂ ∧ d = d₂ := by
  have same := first.loaded
  rw [second.loaded] at same
  obtain rfl : path = path₂ := (CertPath.ext_iff _ _).mpr (Except.ok.inj same).symm
  have described := first.described
  rw [second.described] at described
  cases described
  exact ⟨rfl, rfl⟩

/-- All certificates of the path are in their validity at the time. -/
def CertPath.InValidity (path : CertPath) (value : ℚ) : Prop :=
  ∀ cert ∈ path.certificates, (cert.notBefore : ℚ) ≤ value ∧ value ≤ cert.notAfter

/-- The patch levels are current only at a time that a `Date` takes. -/
private theorem range_of_patchesCurrent {hw : AuthorizationList} {nowMs : Number}
    (current : patchesCurrent hw nowMs = true) :
    ∃ value, nowMs = .finite value ∧ InDateRange value := by
  simp only [patchesCurrent, List.all_cons, Bool.and_eq_true] at current
  cases nowMs with
  | finite value =>
    refine ⟨value, rfl, ?_⟩
    by_contra outside
    rw [InDateRange] at outside
    simp [patchCurrent, Date.ofNumber, outside] at current
  | _ => simp [patchCurrent, Date.ofNumber] at current

private theorem within_iff (cert : Certificate) (value : ℚ) :
    (¬Number.finite value < cert.notBefore ∧ ¬Number.finite value > cert.notAfter) ↔
      (cert.notBefore : ℚ) ≤ value ∧ value ≤ cert.notAfter := by
  simp [Number.intCast_def]

/-- Acceptance, with the parts that time and the revocation list decide set apart. -/
private theorem verify_accepts_iff (host : Host CryptoKey) (v : AndroidVerifier)
    (request : AttestRequest) (challenge : Bytes) (revokedSerials : List JsString)
    (nowMs : Number) :
    v.verify host request challenge revokedSerials nowMs = .ok 2 ↔
      ∃ path d, Eligible host v request challenge path d ∧
        (∀ cert ∈ path.certificatesWithAnchor, cert.serialHex ∉ revokedSerials) ∧
        ∃ value, nowMs = .finite value ∧ InDateRange value ∧ path.InValidity value ∧
          patchesCurrent d.hardwareEnforced (.finite value) = true := by
  rw [verify_eq_ok_iff]
  constructor
  · rintro ⟨-, path, d, presented, a⟩
    obtain ⟨anchor, configured, validated⟩ := presented.trusted
    obtain ⟨value, rfl, range⟩ := range_of_patchesCurrent a.patched
    refine ⟨path, d, ?_, presented.unlisted, value, rfl, range, ?_, a.patched⟩
    · exact {
        chainSize := presented.chainSize
        popSize := presented.popSize
        loaded := presented.loaded
        trusted := ⟨anchor, configured, validated.linked⟩
        shaped := validated.shaped
        described := presented.attested.described
        fresh := presented.attested.fresh challenge rfl
        generated := a.generated
        levels := a.levels
        hardware := a.hardware
        bound := a.bound
        named := a.named
        app := a.app
        sound := a.sound
        signing := a.signing
        curve := a.curve
        possessed := a.possessed
        remote := a.remote }
    · intro cert member
      rw [path.certificates_eq_cons, List.mem_cons] at member
      apply (within_iff cert value).mp
      rcases member with rfl | above
      · exact a.timely
      · obtain ⟨early, late | factory⟩ := validated.timely cert above
        · exact ⟨early, late⟩
        -- Only a factory chain may be past its validity.
        · rw [CertPath.validation, a.remote] at factory
          cases factory
  · rintro ⟨path, d, e, unlisted, value, rfl, -, valid, patched⟩
    obtain ⟨anchor, configured, linked⟩ := e.trusted
    have timely := fun cert member => (within_iff cert value).mpr (valid cert member)
    have inside : ∀ cert ∈ path.certificates, cert ∈ path.certificatesWithAnchor :=
      fun cert member => List.mem_of_mem_dropLast member
    refine ⟨rfl, path, d, ?_, ?_⟩
    · exact {
        chainSize := e.chainSize
        popSize := e.popSize
        loaded := e.loaded
        unlisted := unlisted
        attested := {
          built := rfl
          trusted := ⟨anchor, configured, {
            linked := linked
            timely := fun cert member =>
              have here := timely cert (List.mem_of_mem_tail member)
              ⟨here.1, Or.inl here.2⟩
            clear := fun cert member => unlisted cert (inside cert member)
            shaped := e.shaped }⟩
          described := e.described
          fresh := by
            rintro _ ⟨⟩
            exact e.fresh } }
    · have leaf : path.leafCert ∈ path.certificates := by
        rw [path.certificates_eq_cons]
        exact List.mem_cons_self
      exact {
        generated := e.generated
        levels := e.levels
        hardware := e.hardware
        bound := e.bound
        named := e.named
        app := e.app
        sound := e.sound
        signing := e.signing
        timely := timely _ leaf
        curve := e.curve
        possessed := e.possessed
        remote := e.remote
        patched := patched }

/-- The validity periods of a path have one intersection. -/
private theorem exists_validity (cert : Certificate) (certs : List Certificate) :
    ∃ early late : Int, ∀ value : ℚ,
      (∀ c ∈ cert :: certs, (c.notBefore : ℚ) ≤ value ∧ value ≤ c.notAfter) ↔
        (early : ℚ) ≤ value ∧ value ≤ late := by
  induction certs generalizing cert with
  | nil => exact ⟨cert.notBefore, cert.notAfter, fun value => by simp⟩
  | cons next certs ih =>
    obtain ⟨early, late, same⟩ := ih next
    refine ⟨max cert.notBefore early, min cert.notAfter late, ?_⟩
    intro value
    rw [List.forall_mem_cons, same value]
    push_cast
    rw [max_le_iff, le_min_iff]
    constructor
    · rintro ⟨⟨a, b⟩, c, d⟩
      exact ⟨⟨a, c⟩, b, d⟩
    · rintro ⟨⟨a, c⟩, b, d⟩
      exact ⟨⟨a, b⟩, c, d⟩

/-- For each request there is one period and one interval of months: it is accepted at the times of
the period in these months, as long as no certificate of its completed chain is revoked. -/
theorem acceptance_window (host : Host CryptoKey) (v : AndroidVerifier) (request : AttestRequest)
    (challenge : Bytes) :
    ∃ early late first last : Int, ∀ revokedSerials nowMs,
      (v.verify host request challenge revokedSerials nowMs = .ok 2 ↔
        (∃ chain, loadChain host v.anchors request.chain = .ok chain ∧
          ∀ cert ∈ chain, cert.serialHex ∉ revokedSerials) ∧
        ∃ value now, nowMs = .finite value ∧ InDateRange value ∧ UtcMonth value now ∧
          (early : ℚ) ≤ value ∧ value ≤ late ∧ first ≤ now ∧ now ≤ last) := by
  by_cases eligible : ∃ path d, Eligible host v request challenge path d
  · obtain ⟨path, d, e⟩ := eligible
    obtain ⟨early, late, valid⟩ := exists_validity path.leafCert path.issuers
    obtain ⟨first, last, window⟩ := patchesCurrent_interval d.hardwareEnforced
    refine ⟨early, late, first, last, ?_⟩
    intro revokedSerials nowMs
    rw [verify_accepts_iff]
    rw [← path.certificates_eq_cons] at valid
    constructor
    · rintro ⟨path₂, d₂, other, unlisted, value, finite, range, inside, patched⟩
      obtain ⟨rfl, rfl⟩ := e.unique other
      obtain ⟨now, inMonth, -⟩ := existsUnique_utcMonth value
      obtain ⟨since, till⟩ := (valid value).mp inside
      obtain ⟨after, before⟩ := (window value now range inMonth).mp patched
      exact ⟨⟨_, e.loaded, unlisted⟩, value, now, finite, range, inMonth, since, till, after, before⟩
    · rintro ⟨⟨chain, loaded, unlisted⟩, value, now, finite, range, inMonth, since, till, after,
        before⟩
      rw [e.loaded] at loaded
      cases loaded
      exact ⟨path, d, e, unlisted, value, finite, range, (valid value).mpr ⟨since, till⟩,
        (window value now range inMonth).mpr ⟨after, before⟩⟩
  · -- Such a request is never accepted: the empty period.
    refine ⟨1, 0, 0, 0, ?_⟩
    intro revokedSerials nowMs
    rw [verify_accepts_iff]
    constructor
    · rintro ⟨path, d, e, -⟩
      exact absurd ⟨path, d, e⟩ eligible
    · rintro ⟨-, value, _, -, -, -, since, till, -⟩
      push_cast at since till
      linarith

end UncrackableL5

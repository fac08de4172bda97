import UncrackableL5.Properties.Acceptance

/-!
# Revocation of the trust anchor

The revocation checks look at the chain of the request and at the path without its root. The
anchor that the path is validated under is among them when the verifier completed the chain
itself. A self-issued certificate that the client sends as the root is compared with no anchor,
so there the anchor goes unchecked.

## Main results

- `completed_anchor_unlisted`: on a completed chain the anchor is the checked root.
- `anchorUnlisted_iff`: the anchor of an accepted request is unlisted exactly when the request is
  not an acceptable one whose supplied root hides a listed anchor.
-/
namespace UncrackableL5

variable {CryptoKey : Type}

/-- The anchor that `verifyChain` validates the path under: the first that validates it. -/
def chosenAnchor (host : Host CryptoKey) (path : CertPath) (revokedSerials : List JsString)
    (nowMs : Number) (anchors : List Certificate) : Option Certificate :=
  anchors.find? fun anchor => namesEqual anchor.subject path.intermediateCert.issuer &&
    (validateWithAnchor host path anchor revokedSerials nowMs).isOk

/-- The anchor loop returns the key found under the chosen anchor. -/
theorem selectAnchor_eq_ok_iff_chosen (host : Host CryptoKey) (path : CertPath)
    (revokedSerials : List JsString) (nowMs : Number) (anchors : List Certificate)
    (lastError : Option String) (key : PublicKeyInfo) :
    selectAnchor host path revokedSerials nowMs anchors lastError = .ok key ↔
      ∃ anchor, chosenAnchor host path revokedSerials nowMs anchors = some anchor ∧
        validateWithAnchor host path anchor revokedSerials nowMs = .ok key := by
  induction anchors generalizing lastError with
  | nil => simp [selectAnchor, chosenAnchor]
  | cons anchor rest ih =>
    simp only [selectAnchor, chosenAnchor, List.find?_cons]
    by_cases named : namesEqual anchor.subject path.intermediateCert.issuer = true
    · cases outcome : validateWithAnchor host path anchor revokedSerials nowMs with
      | ok found => simp [named, outcome, Except.isOk, Except.toBool]
      | error e =>
        simpa [named, Except.isOk, Except.toBool, chosenAnchor] using ih (some e.message)
    · simpa [named, chosenAnchor] using ih lastError

/-- Whether a path validates depends on the anchor through the last link only. -/
theorem CertPath.Validated.of_issued {host : Host CryptoKey} {path : CertPath}
    {revokedSerials : List JsString} {nowMs : Number} {anchor other : Certificate}
    (validated : path.Validated host revokedSerials nowMs anchor)
    (issued : IssuedBy host path.intermediateCert other) :
    path.Validated host revokedSerials nowMs other := by
  refine ⟨?_, validated.timely, validated.clear, validated.shaped⟩
  have linked := validated.linked
  rw [List.isChain_append] at linked ⊢
  refine ⟨linked.1, .singleton other, ?_⟩
  simp only [path.intermediateCert_mem_getLast, List.head?_cons, Option.mem_def,
    Option.some.injEq, forall_eq']
  exact issued

/-- On a path that some anchor validates, the chosen anchor is the first that issued the top
certificate. -/
theorem chosenAnchor_eq_issuingAnchor {host : Host CryptoKey} {path : CertPath}
    {revokedSerials : List JsString} {nowMs : Number} {anchor : Certificate}
    (validated : path.Validated host revokedSerials nowMs anchor) (anchors : List Certificate) :
    chosenAnchor host path revokedSerials nowMs anchors = issuingAnchor host path anchors := by
  simp only [chosenAnchor, issuingAnchor]
  congr 1
  funext other
  rw [namesEqual_comm other.subject, Bool.eq_iff_iff, Bool.and_eq_true, Bool.and_eq_true]
  apply and_congr_right
  intro named
  cases outcome : validateWithAnchor host path other revokedSerials nowMs with
  | ok key =>
    have issued := ((validateWithAnchor_eq_ok_iff _ _ _ _ _ _).mp outcome).2.issued
    simp [Except.isOk, Except.toBool, issued.2]
  | error e =>
    simp only [Except.isOk, Except.toBool, Bool.false_eq_true, false_iff]
    intro signed
    rw [(validateWithAnchor_eq_ok_iff _ _ _ _ _ _).mpr
      ⟨rfl, validated.of_issued ⟨named, signed⟩⟩] at outcome
    cases outcome

theorem Presented.chosen {host : Host CryptoKey} {v : AndroidVerifier} {request : AttestRequest}
    {challenge : Bytes} {revokedSerials : List JsString} {nowMs : Number} {path : CertPath}
    {d : KeyDescription} (presented : Presented host v request challenge revokedSerials nowMs path d) :
    ∃ anchor ∈ v.anchors,
      chosenAnchor host path revokedSerials nowMs v.anchors = some anchor := by
  obtain ⟨anchor, chosen, -⟩ := (selectAnchor_eq_ok_iff_chosen host path revokedSerials nowMs
    v.anchors none path.leafCert.publicKey).mp
      ((selectAnchor_eq_ok_iff _ _ _ _ _ _ _).mpr ⟨rfl, presented.trusted⟩)
  exact ⟨anchor, List.mem_of_find?_eq_some chosen, chosen⟩

/-- The chain of the request ends in a self-issued certificate of its own. -/
def SuppliesRoot (host : Host CryptoKey) (request : AttestRequest) (path : CertPath) : Prop :=
  request.chain.mapM (parseEntry host.tables) = .ok path.certificatesWithAnchor

/-- A chain is loaded as it is, or completed with the one anchor that issued its last
certificate. -/
theorem loadChain_cases {host : Host CryptoKey} {v : AndroidVerifier} {request : AttestRequest}
    {path : CertPath}
    (loaded : loadChain host v.anchors request.chain = .ok path.certificatesWithAnchor) :
    SuppliesRoot host request path ∨
      ∃ root, path.certificatesWithAnchor.getLast? = some root ∧
        completingRoots host v.anchors path.intermediateCert = [root] := by
  simp only [loadChain, bind_ok_iff, completeChain] at loaded
  obtain ⟨chain, parsed, completed⟩ := loaded
  cases top : chain.getLast? with
  | none => simp [top] at completed
  | some tail =>
    simp only [top] at completed
    split at completed
    · cases completed
      -- Nothing is added below a self-issued end.
      exact Or.inl parsed
    · right
      split at completed
      next root single =>
        -- The one completing anchor is the new last certificate; the path is the chain below it.
        have whole := Except.ok.inj completed
        refine ⟨root, by simp [← whole], ?_⟩
        have below : path.certificates = chain := by
          rw [CertPath.certificates, ← whole, List.dropLast_concat]
        have last := path.intermediateCert_mem_getLast
        rw [below, top, Option.some.injEq] at last
        rw [← last, single]
      · simp at completed

/-- On a completed chain the anchor is the root that was checked. -/
theorem completed_anchor_unlisted {host : Host CryptoKey} {v : AndroidVerifier}
    {path : CertPath} {revokedSerials : List JsString} {root anchor : Certificate}
    (top : path.certificatesWithAnchor.getLast? = some root)
    (single : completingRoots host v.anchors path.intermediateCert = [root])
    (unlisted : ∀ cert ∈ path.certificatesWithAnchor, cert.serialHex ∉ revokedSerials)
    (configured : anchor ∈ v.anchors) (issued : IssuedBy host path.intermediateCert anchor) :
    anchor.serialHex ∉ revokedSerials := by
  have completing : anchor ∈ completingRoots host v.anchors path.intermediateCert := by
    simp [completingRoots, configured, issued.1, issued.2]
  rw [single, List.mem_singleton] at completing
  subst completing
  exact unlisted anchor (List.mem_of_getLast? top)

/-- The anchor that an accepted request is validated under is not listed. -/
def AnchorUnlisted (host : Host CryptoKey) (v : AndroidVerifier) (request : AttestRequest)
    (challenge : Bytes) (revokedSerials : List JsString) (nowMs : Number) : Prop :=
  v.verify host request challenge revokedSerials nowMs = .ok 2 →
    ∀ path anchor, loadChain host v.anchors request.chain = .ok path.certificatesWithAnchor →
      chosenAnchor host path revokedSerials nowMs v.anchors = some anchor →
        anchor.serialHex ∉ revokedSerials

/-- An acceptable request that supplies its own root, where the first configured anchor that
issued the certificate below that root is listed. -/
structure HidesListedAnchor (host : Host CryptoKey) (v : AndroidVerifier)
    (request : AttestRequest) (challenge : Bytes) (revokedSerials : List JsString) (nowMs : Number)
    (path : CertPath) (d : KeyDescription) (anchor : Certificate) : Prop where
  supplied : SuppliesRoot host request path
  issuing : issuingAnchor host path v.anchors = some anchor
  listed : anchor.serialHex ∈ revokedSerials
  presented : Presented host v request challenge revokedSerials nowMs path d
  accepted : Accepted host v request challenge nowMs path d

/-- The revocation check covers the anchor exactly when no supplied root hides a listed one. -/
theorem anchorUnlisted_iff (host : Host CryptoKey) (v : AndroidVerifier)
    (request : AttestRequest) (challenge : Bytes) (revokedSerials : List JsString)
    (nowMs : Number) :
    AnchorUnlisted host v request challenge revokedSerials nowMs ↔
      ¬∃ path d anchor,
        HidesListedAnchor host v request challenge revokedSerials nowMs path d anchor := by
  constructor
  · rintro covered ⟨path, d, anchor, hidden⟩
    obtain ⟨other, -, validated⟩ := hidden.presented.trusted
    have success := (verify_eq_ok_iff host v request challenge revokedSerials nowMs 2).mpr
      ⟨rfl, path, d, hidden.presented, hidden.accepted⟩
    refine covered success path anchor hidden.presented.loaded ?_ hidden.listed
    rw [chosenAnchor_eq_issuingAnchor validated]
    exact hidden.issuing
  · intro none success path anchor loaded chosen listed
    obtain ⟨-, other, d, presented, accepted⟩ := (verify_eq_ok_iff _ _ _ _ _ _ _).mp success
    have same := presented.loaded
    rw [loaded] at same
    obtain rfl := (CertPath.ext_iff _ _).mpr (Except.ok.inj same)
    obtain ⟨trusted, -, validated⟩ := presented.trusted
    rw [chosenAnchor_eq_issuingAnchor validated] at chosen
    rcases loadChain_cases loaded with supplied | ⟨root, top, single⟩
    -- The client's own root: the chosen anchor was compared with nothing.
    · exact none ⟨path, d, anchor, supplied, chosen, listed, presented, accepted⟩
    -- A completed chain: its root is the only anchor that issued the top of the path.
    · have issued := List.find?_some chosen
      rw [Bool.and_eq_true] at issued
      exact completed_anchor_unlisted top single presented.unlisted
        (List.mem_of_find?_eq_some chosen) issued listed

/-! ### A listed anchor behind a supplied root -/

namespace Sample

/-- `CN=Mallory`, self-issued, serial number 2a. -/
def foreignDer : Bytes :=
  unpackWords 270
    [0x3082010a3081b202012a300a06082a8648ce3d04030230123110300e06035504,
    0x0313074d616c6c6f7279301e170d3234313230313030303030305a170d323530,
    0x3230313030303030305a30123110300e060355040313074d616c6c6f72793059,
    0x301306072a8648ce3d020106082a8648ce3d03010703420004da239fb0435ee0,
    0xd7c1f6fa399784e4af4c94799f0622708a69cc4457b7533e7b3cd08a2510f9e7,
    0xac900a3df3d212f33719075975ca0d45eeab3f5f8c3f43fa0e300a06082a8648,
    0xce3d0403020347003044022059efca52cfd9e4b3ebf6aaa9351794ce7cce0a76,
    0x9b02d78a61c74005b0f86ea402201522892f030ab38d9d6f3cfdfcacf878797e,
    0xd7b1daaeac05e9f250b445db17f6000000000000000000000000000000000000]

/-- The accepted request, with another self-issued certificate in the place of the root. -/
def hidingRequest : AttestRequest :=
  { request with
    chain := [leafDer, attestationDer, rkpDer, remoteDer, foreignDer].map base64Encode }

end Sample

/-- A request is accepted under an anchor whose serial number is listed. -/
theorem listed_anchor_accepted :
    ¬AnchorUnlisted Sample.host Sample.verifier Sample.hidingRequest Sample.challenge
      [js "ca11cafe"] Sample.nowMs := by
  intro covered
  have loaded := Sample.loadChain_requestWith
    [Sample.leafDer, Sample.attestationDer, Sample.rkpDer, Sample.remoteDer, Sample.foreignDer]
    (by decide +kernel) (by decide +kernel) (by decide +kernel)
  have success : Sample.verifier.verify Sample.host Sample.hidingRequest Sample.challenge
      [js "ca11cafe"] Sample.nowMs = .ok 2 := by
    have judged := Sample.verify_requestWith _ [js "ca11cafe"] loaded (by decide)
    apply judged.trans
    decide +kernel
  obtain ⟨-, path, d, presented, -⟩ := (verify_eq_ok_iff _ _ _ _ _ _ _).mp success
  obtain ⟨anchor, configured, chosen⟩ := presented.chosen
  have listed : ∀ anchor ∈ Sample.verifier.anchors, anchor.serialHex ∈ [js "ca11cafe"] := by
    decide +kernel
  exact covered success path anchor presented.loaded chosen
    (listed anchor configured)

end UncrackableL5

import UncrackableL5.Properties.ChainVerification

/-!
# The shape of accepted chains

The step machine ends wherever the chain ends, and the loop does not ask whether that was the
target step. A complete chain has its attestation extension checked at the target step. A chain
that ends earlier passes when its leaf carries none that counts, and the later lookup of the
extension finds a critical one.

## Main results

- `accepted_complete_or_truncated`: every accepted chain is complete or truncated.
- `keepsShape_iff`: the chain shape holds exactly of the inputs without an acceptable truncated
  chain.
-/
namespace UncrackableL5

variable {CryptoKey : Type}

/-- The shape an accepted chain is meant to have: an attestation extension that is not critical
on the leaf and on no other certificate below the root, and the length of its provisioning
method. -/
structure CompleteShape (path : CertPath) : Prop where
  leaf : hasAttestationExtension path.leafCert = true
  bare : ∀ cert ∈ path.issuers, hasAttestationExtension cert = false
  remote : path.provisioningMethod = .remotelyProvisioned →
    path.certificatesWithAnchor.length = 5
  factory : path.provisioningMethod = .factoryProvisioned →
    path.certificatesWithAnchor.length = 4
  unknown : path.provisioningMethod = .unknown →
    path.certificatesWithAnchor.length = 3 ∨ path.certificatesWithAnchor.length = 4

/-- Every success of `verifyChain` on this input is a complete chain. -/
def KeepsShape (host : Host CryptoKey) (chain : List Certificate)
    (expectedChallenge : Option Bytes) (opts : VerifierOptions) : Prop :=
  ∀ key d, verifyChain host chain expectedChallenge opts = .success key d →
    ∃ path : CertPath, path.certificatesWithAnchor = chain ∧ CompleteShape path

/-- A remotely provisioned chain of three or four certificates, or a factory provisioned chain of
three. -/
def TooShort (path : CertPath) : Prop :=
  path.provisioningMethod = .remotelyProvisioned ∧ path.certificatesWithAnchor.length < 5 ∨
    path.provisioningMethod = .factoryProvisioned ∧ path.certificatesWithAnchor.length < 4

/-- A chain that is too short, with a critical attestation extension on its leaf, and in order
otherwise. -/
structure Truncated (host : Host CryptoKey) (chain : List Certificate)
    (expectedChallenge : Option Bytes) (opts : VerifierOptions) (path : CertPath)
    (d : KeyDescription) : Prop where
  built : path.certificatesWithAnchor = chain
  short : TooShort path
  critical : ∃ ext, getExtension path.leafCert Oid.keyAttestation = some ext ∧
    ext.critical = true ∧ parseKeyDescription ext.value opts.limits = .ok d
  bare : ∀ cert ∈ path.issuers, hasAttestationExtension cert = false
  linked : ∃ anchor ∈ opts.anchors, (path.certificates ++ [anchor]).IsChain (IssuedBy host)
  timely : ∀ cert ∈ path.issuers, Timely (path.validation opts.revokedSerials opts.nowMs) cert
  clear : ∀ cert ∈ path.certificates, cert.serialHex ∉ opts.revokedSerials
  fresh : ∀ challenge ∈ expectedChallenge, d.attestationChallenge = challenge
  satisfied : ∀ c ∈ defaultConstraints ++ opts.constraints, c.check d path = none

private theorem tooShort_iff (path : CertPath) :
    TooShort path ↔ path.certificatesWithAnchor.length < path.fullLength := by
  have enough := path.enough
  simp only [TooShort, CertPath.fullLength]
  cases path.provisioningMethod with
  | remotelyProvisioned => simp
  | factoryProvisioned => simp
  | unknown =>
    simp only [reduceCtorEq, false_and, or_self, false_iff]
    split <;> omega

/-- Only an extension that is critical hides from the path check and is found by the lookup. -/
private theorem described_iff (path : CertPath) (limits : InputLimits) (d : KeyDescription) :
    leafDescription path limits = .ok d ↔
      ∃ ext, getExtension path.leafCert Oid.keyAttestation = some ext ∧
        parseKeyDescription ext.value limits = .ok d := by
  simp only [leafDescription, extensionValue]
  cases getExtension path.leafCert Oid.keyAttestation <;> simp

/-- The accepted chains that end at the target step are complete. -/
private theorem complete_of_full {path : CertPath} (shaped : path.Shaped)
    (full : path.certificatesWithAnchor.length = path.fullLength) : CompleteShape path := by
  refine ⟨shaped.leaf.mpr full, shaped.bare, ?_, ?_, ?_⟩ <;> intro method <;>
    rw [full, CertPath.fullLength, method]
  by_cases four : path.certificatesWithAnchor.length = 4 <;> simp [four]

private theorem not_complete_of_short {path : CertPath} (short : TooShort path) :
    ¬CompleteShape path := by
  intro complete
  rcases short with ⟨method, bound⟩ | ⟨method, bound⟩
  · have := complete.remote method
    omega
  · have := complete.factory method
    omega

theorem accepted_complete_or_truncated (host : Host CryptoKey) (chain : List Certificate)
    (expectedChallenge : Option Bytes) (opts : VerifierOptions) (key : PublicKeyInfo)
    (d : KeyDescription)
    (accepted : verifyChain host chain expectedChallenge opts = .success key d) :
    ∃ path : CertPath, path.certificatesWithAnchor = chain ∧
      (CompleteShape path ∨ Truncated host chain expectedChallenge opts path d) := by
  obtain ⟨path, attested, -, satisfied⟩ :=
    (verifyChain_eq_success_iff _ _ _ _ _ _).mp accepted
  obtain ⟨anchor, configured, validated⟩ := attested.trusted
  refine ⟨path, attested.built, ?_⟩
  by_cases full : path.certificatesWithAnchor.length = path.fullLength
  · exact Or.inl (complete_of_full validated.shaped full)
  · right
    obtain ⟨ext, found, parsed⟩ := (described_iff _ _ _).mp attested.described
    -- The loop ended above the target step and saw no extension on the leaf; the lookup found one.
    have hidden : ext.critical = true := by
      have := mt validated.shaped.leaf.mp full
      simpa [hasAttestationExtension, found] using this
    have bounded := validated.shaped.bounded
    exact {
      built := attested.built
      short := (tooShort_iff path).mpr (by omega)
      critical := ⟨ext, found, hidden, parsed⟩
      bare := validated.shaped.bare
      linked := ⟨anchor, configured, validated.linked⟩
      timely := validated.timely
      clear := validated.clear
      fresh := attested.fresh
      satisfied := satisfied }

theorem truncated_accepted {host : Host CryptoKey} {chain : List Certificate}
    {expectedChallenge : Option Bytes} {opts : VerifierOptions} {path : CertPath}
    {d : KeyDescription} (truncated : Truncated host chain expectedChallenge opts path d) :
    verifyChain host chain expectedChallenge opts = .success path.leafCert.publicKey d := by
  obtain ⟨ext, found, hidden, parsed⟩ := truncated.critical
  obtain ⟨anchor, configured, linked⟩ := truncated.linked
  have short := (tooShort_iff path).mp truncated.short
  have shaped : path.Shaped := by
    refine ⟨by omega, truncated.bare, ?_⟩
    simp only [hasAttestationExtension, found, hidden, Bool.not_true, Bool.false_eq_true,
      false_iff]
    omega
  rw [verifyChain_eq_success_iff]
  refine ⟨path, ?_, rfl, truncated.satisfied⟩
  exact {
    built := truncated.built
    trusted := ⟨anchor, configured, linked, truncated.timely, truncated.clear, shaped⟩
    described := (described_iff _ _ _).mpr ⟨ext, found, parsed⟩
    fresh := truncated.fresh }

/-- The accepted chains have the shape they are meant to have exactly when the input is not an
acceptable truncated chain. -/
theorem keepsShape_iff (host : Host CryptoKey) (chain : List Certificate)
    (expectedChallenge : Option Bytes) (opts : VerifierOptions) :
    KeepsShape host chain expectedChallenge opts ↔
      ¬∃ path d, Truncated host chain expectedChallenge opts path d := by
  constructor
  · rintro keeps ⟨path, d, truncated⟩
    -- A truncated chain is accepted, and too short to be complete.
    obtain ⟨other, built, complete⟩ := keeps _ _ (truncated_accepted truncated)
    obtain rfl := (CertPath.ext_iff _ _).mpr (built.trans truncated.built.symm)
    exact not_complete_of_short truncated.short complete
  · intro none key d accepted
    obtain ⟨path, built, complete | truncated⟩ :=
      accepted_complete_or_truncated _ _ _ _ _ _ accepted
    · exact ⟨path, built, complete⟩
    · exact absurd ⟨path, d, truncated⟩ none

/-! ### A truncated chain that is accepted -/

/-- The `count` big-endian octets of a number. -/
def unpack : Nat → Nat → Bytes → Bytes
  | 0, _, out => out
  | count + 1, n, out => unpack count (n / 256) (UInt8.ofNat n :: out)

/-- `length` octets written as 32-octet words, the last one filled up with zeros. -/
def unpackWords (length : Nat) (words : List Nat) : Bytes :=
  (words.flatMap fun word => unpack 32 word []).take length

namespace Sample

/-- Certificates with ASCII names, and signatures that verify. -/
def host : Host Bytes where
  tables := { upper := id, lower := id }
  importKey spki _ := some spki
  verify _ _ _ _ := some true

def nowMs : Number := .finite 1735689600000

/-- Issued at 1735689600, with a tag under the key of the samples. -/
def challenge : Bytes :=
  unpackWords 57
    [0x01000000006774858078377b525757b494427f89014f97d79928f3938d14eb51,
    0xe20fb5dec9834eb30432f993e45c19f34e48bf17e15f77ad0c00000000000000]

/-- `CN=Root`, self-issued, serial number ca11cafe. -/
def rootDer : Bytes :=
  unpackWords 269
    [0x308201093081b0020500ca11cafe300a06082a8648ce3d040302300f310d300b,
    0x06035504031304526f6f74301e170d3234313230313030303030305a170d3235,
    0x303230313030303030305a300f310d300b06035504031304526f6f7430593013,
    0x06072a8648ce3d020106082a8648ce3d0301070342000497750120fdca753cc9,
    0x6908dedf9f22bce6d9da3c6f0171ff3ba717cf02ab5a11a5e87a027b81b4a8d1,
    0xec588962b7ecadb4c45fd397bfa2d5e8c90bfd7f7f21d9300a06082a8648ce3d,
    0x040302034800304502210081a8c83f0b43065bfe3085442480f57b0f2b9bea95,
    0xf47f78961167dc390a1c5502205684b6ebfdc2cd6d17a792d54f5b9ef0c169f1,
    0x327fa191de23fb557682221cf000000000000000000000000000000000000000]

/-- `serialNumber=e18c`, issued by the root. -/
def factoryDer : Bytes :=
  unpackWords 264
    [0x308201043081ac020177300a06082a8648ce3d040302300f310d300b06035504,
    0x031304526f6f74301e170d3234313230313030303030305a170d323530323031,
    0x3030303030305a300f310d300b06035504051304653138633059301306072a86,
    0x48ce3d020106082a8648ce3d03010703420004759387a9c30297525a88c65f4e,
    0xd133fddd73e3c370caec59cbe44778834c8cfa4d9d4cc8eff8833bc7dcffd794,
    0xd5e237aa00a77561b6f80ce6b6175e38e999bc300a06082a8648ce3d04030203,
    0x4700304402207ac2ac44faa9f0e9662c01a16ac61a25b650e93a341c3b8fc986,
    0xa71c3824e906022022fed06becfd65d471e7a31804d3f8a6c09d3ac968c42eaa,
    0x1dda72cf3d27e134000000000000000000000000000000000000000000000000]

/-- A leaf issued by the factory certificate, its attestation extension critical. -/
def shortDer : Bytes :=
  unpackWords 544
    [0x3082021c308201c2a003020102020102300a06082a8648ce3d040302300f310d,
    0x300b0603550405130465313863301e170d3234313230313030303030305a170d,
    0x3235303230313030303030305a300e310c300a060355040313034b6579305930,
    0x1306072a8648ce3d020106082a8648ce3d030107034200048884be8f110aff2b,
    0x4f56f5d5cadc826e7ed143dbee4d70ec3e48735554dc7bdddaeb297ba4b35cc5,
    0x3d77cfaa5ac58ba72b62b00473a236e124459870af13f246a382010e3082010a,
    0x30820106060a2b06010401d6790201110101ff0481f43081f10202012c0a0101,
    0x0202012c0a0101043901000000006774858078377b525757b494427f89014f97,
    0xd79928f3938d14eb51e20fb5dec9834eb30432f993e45c19f34e48bf17e15f77,
    0xad0c04003051bf85454d044b304931233021041c6f72672e6f776173702e6d61,
    0x7374672e756e637261636b61626c653502010131220420040404040404040404,
    0x04040404040404040404040404040404040404040404043051a1053103020102,
    0xa203020103a30402020100a5053103020104aa03020101bf853e03020100bf85,
    0x400b30090401070101ff0a0100bf85420502030316acbf854e0602040134db31,
    0xbf854f0602040134db31300a06082a8648ce3d0403020348003045022100df73,
    0x0fbc30dbfdf252846a839e7efae6fa76faa360b60b9964bc9e27b00a0d730220,
    0x70c6e1a8b97b6567808bd3a0b8a597563c5d0329f637ebd1cfe25747da9e39fe]

/-- The certificates of the encodings that parse. -/
def certificates (ders : List Bytes) : List Certificate :=
  ders.filterMap fun der => (parseCertificate host.tables der).toOption

def options : VerifierOptions where
  anchors := certificates [rootDer]
  revokedSerials := []
  nowMs := nowMs
  constraints := [matchesCertificate host.tables]
  limits := defaultLimits

end Sample

private def succeeded : VerificationResult → Bool
  | .success _ _ => true
  | _ => false

/-- Three certificates under a factory intermediate pass with a critical attestation extension. -/
theorem factory_chain_of_three_passes :
    ¬KeepsShape Sample.host (Sample.certificates [Sample.shortDer, Sample.factoryDer,
      Sample.rootDer]) (some Sample.challenge) Sample.options := by
  intro keeps
  have accepted : succeeded (verifyChain Sample.host (Sample.certificates [Sample.shortDer,
      Sample.factoryDer, Sample.rootDer]) (some Sample.challenge) Sample.options) = true := by
    decide +kernel
  have hidden : (Sample.certificates [Sample.shortDer, Sample.factoryDer,
      Sample.rootDer]).head?.any hasAttestationExtension = false := by
    decide +kernel
  cases outcome : verifyChain Sample.host (Sample.certificates [Sample.shortDer,
      Sample.factoryDer, Sample.rootDer]) (some Sample.challenge) Sample.options with
  | success key d =>
    obtain ⟨path, built, complete⟩ := keeps key d outcome
    -- A complete leaf has an extension that counts.
    rw [← built, path.head_certificatesWithAnchor] at hidden
    simp [complete.leaf] at hidden
  | _ => simp [outcome, succeeded] at accepted

end UncrackableL5

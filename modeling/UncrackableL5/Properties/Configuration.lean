import UncrackableL5.Properties.AnchorBundles
import UncrackableL5.Properties.Base64Grammar
import UncrackableL5.Server.Config

/-!
# Accepted configurations

The checks of `load` in one condition on the environment. The checks that `Challenges.create` and
the constructor of the verifier make once more never fail.

## Main results

- `load_eq_ok_iff`: the environments that `load` accepts, and the runtime it builds from them.
- `Configured.anchors_genuine`: what is known of each trust anchor.
-/
namespace UncrackableL5

variable {CryptoKey : Type}

/-- The certificate was parsed, has BasicConstraints, is self-signed and is not one of the software
attestation roots. -/
structure GenuineAnchor (engine : Engine) (host : Host CryptoKey) (anchor : Certificate) :
    Prop where
  parsed : ∃ der, parseCertificate host.tables der = .ok anchor
  constrained : ∃ ca, anchor.basicConstraintsCa = some ca
  selfIssued : namesEqual anchor.issuer anchor.subject = true
  selfSigned : verifyCertificate host anchor anchor.publicKey = true
  notSoftware : hex (engine.sha256 anchor.publicKey.spki) ∉ softwareRootSpkiDigests

/-- The environment is complete and well-formed, and the runtime holds what it says. -/
structure Configured (engine : Engine) (host : Host CryptoKey) (hmac : Hmac) (roots : JsString)
    (env : Env) (rt : Runtime) : Prop where
  package : rt.verifier.packageName = env.appPackage.getD appPackage ∧
    (rt.verifier.packageName = appPackage ∨ rt.verifier.packageName = appPackage ++ js ".debug")
  key : ∃ text rawKey, env.challengeHmacKey = some text ∧ base64Decode text = .ok rawKey ∧
    32 ≤ rawKey.length ∧ rt.challenges.sign = hmac.sign rawKey
  flag : env.flagTier2 = some rt.flag ∧ trim rt.flag ≠ []
  signer : ∃ text, env.appSignerSha256 = some text ∧ trim text ≠ [] ∧
    rt.verifier.signerSha256Hex = toLowerCase engine.tables text
  anchors : parseAnchors host (env.attestationRoots.getD roots) = .ok rt.verifier.anchors
  notSoftware : ∀ anchor ∈ rt.verifier.anchors,
    hex (engine.sha256 anchor.publicKey.spki) ∉ softwareRootSpkiDigests

private theorem required_eq_ok_iff (name : String) (value : Option JsString) (text : JsString) :
    required name value = .ok text ↔ value = some text ∧ trim text ≠ [] := by
  cases value with
  | none => simp [required]
  | some v =>
    rw [required, guard_eq_ok_iff]
    constructor
    · rintro ⟨filled, ⟨⟩⟩
      exact ⟨rfl, filled⟩
    · rintro ⟨⟨⟩, filled⟩
      exact ⟨filled, rfl⟩

/-- A text of whitespace is no key. -/
private theorem trim_ne_nil_of_decoded {text : JsString} {key : Bytes}
    (decoded : base64Decode text = .ok key) (long : 32 ≤ key.length) : trim text ≠ [] := by
  intro blank
  have spaces := trim_eq_nil blank
  have octets : (stdAlphabet.all fun u => u.toNat ≤ 255) = true := by decide +kernel
  have within := fun u member => of_decide_eq_true (List.all_eq_true.mp octets u member)
  have size : stdAlphabet.length = 64 := by decide +kernel
  have other : (61 : UInt16) ∉ stdAlphabet := by decide +kernel
  obtain ⟨letters, pad, isText, -⟩ := (decode_eq_ok_iff size within other text key).mp decoded
  have read := (decode_octets size within other isText decoded).1
  cases letters with
  | nil =>
    simp only [List.length_nil] at read
    omega
  | cons u rest =>
    -- No letter of the alphabet is whitespace.
    have dark : (stdAlphabet.all fun u => !isSpace u) = true := by decide +kernel
    have letter := List.all_eq_true.mp dark u (isText.run u (by simp))
    rw [spaces u (by simp [isText.text])] at letter
    cases letter

private theorem hmacKey_eq_ok_iff (env : Env) (key : Bytes) :
    hmacKey env = .ok key ↔
      ∃ text, env.challengeHmacKey = some text ∧ base64Decode text = .ok key ∧ 32 ≤ key.length := by
  simp only [hmacKey, bind_ok_iff, recover_error_eq_ok_iff, guard_eq_ok_iff, not_lt,
    required_eq_ok_iff, Except.ok.injEq]
  constructor
  · rintro ⟨_, ⟨text, ⟨present, -⟩, decoded⟩, long, rfl⟩
    exact ⟨text, present, decoded, long⟩
  · rintro ⟨text, present, decoded, long⟩
    exact ⟨key, ⟨text, ⟨present, trim_ne_nil_of_decoded decoded long⟩, decoded⟩, long, rfl⟩

private theorem rejectSoftwareRoots_eq_ok_iff (sha256 : Bytes → Bytes)
    (anchors : List Certificate) :
    rejectSoftwareRoots sha256 anchors = .ok () ↔
      ∀ a ∈ anchors, hex (sha256 a.publicKey.spki) ∉ softwareRootSpkiDigests := by
  induction anchors with
  | nil => simp [rejectSoftwareRoots]
  | cons a anchors ih =>
    rw [rejectSoftwareRoots, guard_eq_ok_iff, ih, List.forall_mem_cons, List.contains_iff_mem]

private theorem create_eq_ok (hmac : Hmac) {key : Bytes} (long : 32 ≤ key.length) :
    Challenges.create hmac key = .ok { sign := hmac.sign key, size := hmac.size key } :=
  if_neg (by omega)

/-- The constructor accepts what `load` has checked. -/
private theorem new_eq_ok_iff (config : AndroidVerifierConfig) (v : AndroidVerifier) :
    AndroidVerifier.new config = .ok v ↔ v.toAndroidVerifierConfig = config := by
  constructor
  · intro built
    simp only [AndroidVerifier.new] at built
    split at built
    next =>
      split at built
      next =>
        cases built
        rfl
      next => cases built
    next => cases built
  · rintro rfl
    simp [AndroidVerifier.new, v.anchored, v.named, v.signed]

/-- `load` accepts exactly the complete and well-formed environments. -/
theorem load_eq_ok_iff (engine : Engine) (host : Host CryptoKey) (hmac : Hmac) (roots : JsString)
    (env : Env) (rt : Runtime) :
    load engine host hmac roots env = .ok rt ↔ Configured engine host hmac roots env rt := by
  simp only [load, guard_eq_ok_iff, bind_ok_iff, hmacKey_eq_ok_iff, required_eq_ok_iff,
    new_eq_ok_iff, not_and_or, not_not, ne_eq]
  constructor
  · rintro ⟨package, key, ⟨text, keyed, decoded, long⟩, flag, flagged, signerText, signed, -, anchors,
      parsed, ⟨⟩, notSoftware, challenges, created, verifier, built, ended⟩
    rw [create_eq_ok hmac long] at created
    rw [rejectSoftwareRoots_eq_ok_iff] at notSoftware
    cases created
    cases ended
    have same := congrArg AndroidVerifierConfig.anchors built
    have named := congrArg AndroidVerifierConfig.packageName built
    have signer := congrArg AndroidVerifierConfig.signerSha256Hex built
    simp only at same named signer
    exact {
      package := by rw [named]; exact ⟨rfl, package⟩
      key := ⟨text, key, keyed, decoded, long, rfl⟩
      flag := flagged
      signer := ⟨signerText, signed.1, signed.2, signer⟩
      anchors := by rw [same]; exact parsed
      notSoftware := by rw [same]; exact notSoftware }
  · intro c
    obtain ⟨text, key, keyed, decoded, long, signs⟩ := c.key
    obtain ⟨signerText, present, filled, signer⟩ := c.signer
    obtain ⟨name, named⟩ := c.package
    rw [name] at named
    refine ⟨named, key, ⟨text, keyed, decoded, long⟩, rt.flag, c.flag, signerText,
      ⟨present, filled⟩, signer ▸ rt.verifier.signed, rt.verifier.anchors, c.anchors, (),
      (rejectSoftwareRoots_eq_ok_iff _ _).mpr c.notSoftware, rt.challenges, ?_, rt.verifier, ?_, rfl⟩
    · rw [create_eq_ok hmac long]
      obtain ⟨⟨sign, size⟩, verifier, flag⟩ := rt
      cases signs
      rfl
    · rw [← name, ← signer]

/-- Every trust anchor of an accepted configuration is genuine. -/
theorem Configured.anchors_genuine {engine : Engine} {host : Host CryptoKey} {hmac : Hmac}
    {roots : JsString} {env : Env} {rt : Runtime} (c : Configured engine host hmac roots env rt) :
    ∀ anchor ∈ rt.verifier.anchors, GenuineAnchor engine host anchor := by
  intro anchor member
  obtain ⟨-, -, -, carried, checked⟩ := parseAnchors_eq_ok c.anchors
  obtain ⟨_, -, _, _, -, -, -, parsed⟩ := Pairing.exists_partner carried.flip member
  obtain ⟨-, constrained, issued, signed⟩ := (checkAnchor_eq_ok_iff ..).mp (checked anchor member)
  exact ⟨⟨_, parsed⟩, constrained, issued, signed, c.notSoftware anchor member⟩

end UncrackableL5

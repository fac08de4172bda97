import UncrackableL5.Properties.DerCanonical
import UncrackableL5.Verifier.X509

/-!
# What the signature of a certificate covers

Everything that is decoded from a certificate is decoded from its TBS octets, apart from the
signature itself. The outer algorithm identifier is no exception: it is compared with the one inside
the TBS octet by octet, and an element is determined by its octets.

## Main results

- `parseCertificate_eq_ok`: an accepted certificate, as the fields read from its TBS.
- `signed_fields_determined`: certificates with the same TBS have the same fields.
-/
namespace UncrackableL5

/-- What is read from the body of a TBS. -/
structure SignedFields where
  serial : Int
  algorithm : AlgorithmIdentifier
  issuer : Name
  subject : Name
  notBefore : Int
  notAfter : Int
  publicKey : PublicKeyInfo
  loaded : ExtensionState

/-- The sequential read of a TBS body. -/
def readSigned (tables : CaseTables) (body : Bytes) : Js SignedFields := do
  let (version, first, p) ← readVersion body
  let serial ← integerValue first
  let (algorithmT, p) ← nextField body p "signature"
  let algorithm ← parseAlgorithmIdentifier algorithmT
  let (issuerT, p) ← nextField body p "issuer"
  let issuer ← parseName tables issuerT
  let (validityT, p) ← nextField body p "validity"
  match ← sequence validityT "Validity" with
  | [notBeforeT, notAfterT] => do
    let notBefore ← timeValue notBeforeT
    let notAfter ← timeValue notAfterT
    let (subjectT, p) ← nextField body p "subject"
    let subject ← parseName tables subjectT
    let (spkiT, p) ← nextField body p "subjectPublicKeyInfo"
    let publicKey ← parseSpki spkiT
    let p ← skipOptional body p 1 "issuerUniqueID"
    let p ← skipOptional body p 2 "subjectUniqueID"
    let loaded ← readExtensions body p version
    .ok {
      serial := serial
      algorithm := algorithm
      issuer := issuer
      subject := subject
      notBefore := notBefore
      notAfter := notAfter
      publicKey := publicKey
      loaded := loaded }
  | _ => .error (.derError "Validity")

/-- The certificate with these fields. -/
def SignedFields.certificate (f : SignedFields) (der tbs signature : Bytes)
    (signatureAlgorithm : JsString) : Certificate where
  der := der
  tbs := tbs
  serial := f.serial
  serialHex := bigIntToString 16 f.serial
  tbsSignatureAlgorithm := f.algorithm.oid
  signatureAlgorithm := signatureAlgorithm
  signature := signature
  issuer := f.issuer
  subject := f.subject
  notBefore := f.notBefore
  notAfter := f.notAfter
  publicKey := f.publicKey
  extensions := f.loaded.extensions
  basicConstraintsCa := f.loaded.basicConstraintsCa

/-! ### Elements that were read -/

theorem expect_eq_ok_iff (t u : Tlv) (tag : Nat) (what : String) (constructed : Option Bool) :
    expect t tag what constructed = .ok u ↔ isUniversal t tag constructed = true ∧ t = u := by
  rw [expect]
  split <;> simp [*]

theorem encoded_of_sequence {t : Tlv} {what : String} {items : List Tlv}
    (read : sequence t what = .ok items) : ∀ c ∈ items, c.Encoded := by
  obtain ⟨u, -, kids⟩ := (bind_ok_iff _ _ _).mp read
  exact (concat_children kids).2

theorem encoded_of_nextField {body : Bytes} {p q : Nat} {what : String} {t : Tlv}
    (read : nextField body p what = .ok (t, q)) : t.Encoded := by
  obtain ⟨-, read⟩ := (guard_eq_ok_iff _ _ _).mp read
  exact ((readTlv_eq_ok_iff _ _ _ _).mp read).1

theorem raw_of_parseAlgorithmIdentifier {t : Tlv} {a : AlgorithmIdentifier}
    (parsed : parseAlgorithmIdentifier t = .ok a) : a.raw = t.raw := by
  obtain ⟨kids, -, parsed⟩ := (bind_ok_iff _ _ _).mp parsed
  split at parsed
  next =>
    obtain ⟨_, -, built⟩ := (bind_ok_iff _ _ _).mp parsed
    cases built
    rfl
  next =>
    obtain ⟨_, -, built⟩ := (bind_ok_iff _ _ _).mp parsed
    cases built
    rfl
  next => cases parsed

/-! ### Accepted certificates -/

theorem readSigned_extensions {tables : CaseTables} {body : Bytes} {f : SignedFields}
    (read : readSigned tables body = .ok f) :
    ∃ p version, readExtensions body p version = .ok f.loaded := by
  simp only [readSigned, bind_ok_iff] at read
  obtain ⟨⟨version, _⟩, -, _, -, _, -, _, -, _, -, _, -, _, -, _, -, read⟩ := read
  split at read
  next =>
    simp only [bind_ok_iff] at read
    obtain ⟨_, -, _, -, _, -, _, -, _, -, _, -, _, -, p, -, loaded, isLoaded, built⟩ := read
    cases built
    exact ⟨p, version, isLoaded⟩
  next => cases read

/-- An accepted certificate is what is read from its TBS, with its octets and its signature. -/
theorem parseCertificate_eq_ok {tables : CaseTables} {der : Bytes} {c : Certificate}
    (parsed : parseCertificate tables der = .ok c) :
    ∃ tbsT f signature, tbsT.Encoded ∧ isUniversal tbsT U.sequence (some true) = true ∧
      readSigned tables tbsT.content = .ok f ∧
      c = f.certificate der tbsT.raw signature f.algorithm.oid := by
  simp only [parseCertificate, bind_ok_iff] at parsed
  obtain ⟨cert, -, kids, outer, parsed⟩ := parsed
  have encoded := encoded_of_sequence outer
  split at parsed
  next tbsT sigAlgT sigT =>
    simp only [bind_ok_iff] at parsed
    obtain ⟨_, expected, version, isVersion, serial, isSerial, algorithmT, nextAlgorithm, algorithm,
      isAlgorithm, issuerT, nextIssuer, issuer, isIssuer, validityT, nextValidity, validity,
      isValidity, parsed⟩ := parsed
    obtain ⟨universal, rfl⟩ := (expect_eq_ok_iff _ _ _ _ _).mp expected
    split at parsed
    next notBeforeT notAfterT =>
      simp only [bind_ok_iff] at parsed
      obtain ⟨notBefore, isNotBefore, notAfter, isNotAfter, subjectT, nextSubject, subject,
        isSubject, spkiT, nextKey, publicKey, isKey, p, skipped, q, skippedToo, loaded, isLoaded,
        sigAlg, isOuter, parsed⟩ := parsed
      have read : readSigned tables tbsT.content = .ok {
          serial := serial
          algorithm := algorithm
          issuer := issuer
          subject := subject
          notBefore := notBefore
          notAfter := notAfter
          publicKey := publicKey
          loaded := loaded } := by
        simp only [readSigned, isVersion, isSerial, nextAlgorithm, isAlgorithm, nextIssuer,
          isIssuer, nextValidity, isValidity, isNotBefore, isNotAfter, nextSubject, isSubject,
          nextKey, isKey, skipped, skippedToo, isLoaded, ok_bind]
      split at parsed
      next same =>
        obtain ⟨signature, -, built⟩ := (bind_ok_iff _ _ _).mp parsed
        cases built
        -- The outer identifier is the element that stands inside the TBS.
        have outerElement : sigAlgT = algorithmT.1 := by
          apply (encoded sigAlgT (by simp)).ext (encoded_of_nextField nextAlgorithm)
          rw [← raw_of_parseAlgorithmIdentifier isOuter,
            ← raw_of_parseAlgorithmIdentifier isAlgorithm]
          exact (bytesEqual_iff _ _).mp same
        rw [outerElement] at isOuter
        cases isOuter.symm.trans isAlgorithm
        exact ⟨tbsT, _, signature, encoded tbsT (by simp), universal, read, rfl⟩
      next => cases parsed
    next => cases parsed
  next => cases parsed

/-- The TBS octets of an accepted certificate are an element whose body holds all its fields. -/
theorem parseCertificate_signed {tables : CaseTables} {der : Bytes} {c : Certificate}
    (parsed : parseCertificate tables der = .ok c) :
    ∃ tbsT f, parseSingle c.tbs = .ok tbsT ∧ readSigned tables tbsT.content = .ok f ∧
      c = f.certificate c.der c.tbs c.signature f.algorithm.oid := by
  obtain ⟨tbsT, f, signature, encoded, -, read, rfl⟩ := parseCertificate_eq_ok parsed
  exact ⟨tbsT, f, (parseSingle_eq_ok_iff _ _).mpr ⟨encoded, rfl⟩, read, rfl⟩

/-- The signed octets determine the certificate: two accepted inputs with the same TBS differ at
most in their octets as a whole and in the signature, and the algorithm that the signature is
verified with is the one inside the TBS. -/
theorem signed_fields_determined {CryptoKey : Type} (host : Host CryptoKey) (tables : CaseTables) :
    (∀ der other c d, parseCertificate tables der = .ok c →
      parseCertificate tables other = .ok d → c.tbs = d.tbs →
      c = { d with der := c.der, signature := c.signature }) ∧
    (∀ der c, parseCertificate tables der = .ok c →
      (∃ tbsT f, parseSingle c.tbs = .ok tbsT ∧ readSigned tables tbsT.content = .ok f ∧
        c.tbsSignatureAlgorithm = f.algorithm.oid) ∧
      ∀ issuerKey, verifyCertificate host c issuerKey =
        verifySignature host issuerKey c.tbsSignatureAlgorithm c.signature c.tbs) := by
  constructor
  · intro der other c d parsed parsedToo same
    obtain ⟨tbsT, f, whole, read, isCertificate⟩ := parseCertificate_signed parsed
    obtain ⟨_, g, wholeToo, readToo, isCertificateToo⟩ := parseCertificate_signed parsedToo
    rw [← same, whole] at wholeToo
    cases wholeToo
    cases read.symm.trans readToo
    rw [isCertificateToo, isCertificate]
    simp [SignedFields.certificate, same]
  · intro der c parsed
    obtain ⟨tbsT, f, whole, read, isCertificate⟩ := parseCertificate_signed parsed
    have algorithm : c.signatureAlgorithm = f.algorithm.oid := by rw [isCertificate]; rfl
    have inside : c.tbsSignatureAlgorithm = f.algorithm.oid := by rw [isCertificate]; rfl
    refine ⟨⟨tbsT, f, whole, read, inside⟩, fun issuerKey => ?_⟩
    rw [verifyCertificate, algorithm, inside]

namespace Sample

open DerWriter

/-- A certificate without names, with this octet for its signature. -/
def signedWith (signature : UInt8) : Bytes :=
  let oid := element .universal false U.oid [0x2a, 3]
  let algorithm := seq [oid]
  let time := element .universal false U.utcTime
    [0x32, 0x35, 0x30, 0x31, 0x30, 0x31, 0x30, 0x30, 0x30, 0x30, 0x30, 0x30, 0x5a]
  let key := seq [algorithm, element .universal false U.bitString [0, 7]]
  let tbs := seq [int 1, algorithm, seq [], seq [time, time], seq [], key]
  (seq [tbs, algorithm, element .universal false U.bitString [0, signature]]).raw

def tables : CaseTables := { upper := id, lower := id }

end Sample

/-- Two certificates that differ in the signature alone. -/
theorem signed_fields_determined_sample :
    ∃ c d, parseCertificate Sample.tables (Sample.signedWith 1) = .ok c ∧
      parseCertificate Sample.tables (Sample.signedWith 2) = .ok d ∧ c.signature = [1] ∧
      c = { d with der := c.der, signature := c.signature } ∧
      ∃ tbsT f, parseSingle c.tbs = .ok tbsT ∧ readSigned Sample.tables tbsT.content = .ok f ∧
        c.tbsSignatureAlgorithm = f.algorithm.oid := by
  have accepts : ∀ n ∈ [1, 2], ∃ c, parseCertificate Sample.tables (Sample.signedWith n) = .ok c ∧
      c.tbs = (parseCertificate Sample.tables (Sample.signedWith 1)).toOption.elim [] (·.tbs) ∧
      c.signature = [n] := by
    intro n member
    have checked : (parseCertificate Sample.tables (Sample.signedWith n)).toOption.any fun c =>
        c.tbs = (parseCertificate Sample.tables (Sample.signedWith 1)).toOption.elim [] (·.tbs) ∧
          c.signature = [n] := by
      revert n
      decide +kernel
    cases parsed : parseCertificate Sample.tables (Sample.signedWith n) with
    | error => rw [parsed] at checked; cases checked
    | ok c =>
      rw [parsed] at checked
      exact ⟨c, rfl, by simpa using of_decide_eq_true checked⟩
  obtain ⟨c, parsed, tbs, signature⟩ := accepts 1 (by simp)
  obtain ⟨d, parsedToo, tbsToo, -⟩ := accepts 2 (by simp)
  obtain ⟨determined, verified⟩ := signed_fields_determined
    { tables := Sample.tables, importKey := fun spki _ => some spki, verify := fun _ _ _ _ => none }
    Sample.tables
  exact ⟨c, d, parsed, parsedToo, signature,
    determined _ _ c d parsed parsedToo (tbs.trans tbsToo.symm), (verified _ c parsed).1⟩

end UncrackableL5

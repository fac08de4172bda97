import UncrackableL5.Verifier.Der
import UncrackableL5.Js.Sort

/-!
# X.509 certificates

Certificate parsing, distinguished names and signature verification. The cryptography of
`crypto.subtle` is a parameter: an import or a verification that rejects is `none`.
-/
namespace UncrackableL5

namespace Oid

def ecPublicKey : JsString := js "1.2.840.10045.2.1"
def rsaEncryption : JsString := js "1.2.840.113549.1.1.1"
def p256 : JsString := js "1.2.840.10045.3.1.7"
def p384 : JsString := js "1.3.132.0.34"
def p521 : JsString := js "1.3.132.0.35"
def ecdsaSha256 : JsString := js "1.2.840.10045.4.3.2"
def ecdsaSha384 : JsString := js "1.2.840.10045.4.3.3"
def ecdsaSha512 : JsString := js "1.2.840.10045.4.3.4"
def sha256Rsa : JsString := js "1.2.840.113549.1.1.11"
def sha384Rsa : JsString := js "1.2.840.113549.1.1.12"
def sha512Rsa : JsString := js "1.2.840.113549.1.1.13"
def keyAttestation : JsString := js "1.3.6.1.4.1.11129.2.1.17"
def basicConstraints : JsString := js "2.5.29.19"
def commonName : JsString := js "2.5.4.3"
def organization : JsString := js "2.5.4.10"
def serialNumber : JsString := js "2.5.4.5"

end Oid

structure Attribute where
  oid : JsString
  /-- Normalised string value, or "#"+hex for the other types. -/
  canonical : JsString
  /-- Decoded string value when the attribute is a string type. -/
  text : Option JsString
  deriving DecidableEq, Repr

structure Name where
  der : Bytes
  /-- RDNs in order, each a list of attributes. -/
  rdns : List (List Attribute)
  deriving DecidableEq, Repr

structure PublicKeyInfo where
  spki : Bytes
  algorithm : JsString
  /-- Named curve OID for EC keys. -/
  curve : Option JsString
  /-- Modulus bit length for RSA keys. -/
  rsaBits : Option Nat
  deriving DecidableEq, Repr

structure Extension where
  critical : Bool
  value : Bytes
  deriving DecidableEq, Repr

structure Certificate where
  der : Bytes
  tbs : Bytes
  serial : Int
  /-- Unpadded lowercase hex. -/
  serialHex : JsString
  tbsSignatureAlgorithm : JsString
  signatureAlgorithm : JsString
  signature : Bytes
  issuer : Name
  subject : Name
  notBefore : Int
  notAfter : Int
  publicKey : PublicKeyInfo
  /-- Extension OID and content, in the order of the certificate. -/
  extensions : List (JsString × Extension)
  basicConstraintsCa : Option Bool
  deriving DecidableEq, Repr

/-! ### Distinguished names -/

def bmpText : Bytes → JsString
  | a :: b :: rest => UInt16.ofNat (a.toNat * 256 + b.toNat) :: bmpText rest
  | _ => []

/-- Four octets a code point, read as a signed 32-bit integer. -/
def universalText : Bytes → Js JsString
  | a :: b :: c :: d :: rest => do
    let n := BigEndian.value [a, b, c, d]
    let s ← fromCodePoint (if n < 2 ^ 31 then n else (n : Int) - 2 ^ 32)
    let more ← universalText rest
    .ok (s ++ more)
  | _ => .ok []

/-- The text of a string type; `none` for every other type. -/
def decodeDirectoryString (t : Tlv) : Js (Option JsString) :=
  if t.cls ≠ .universal ∨ t.constructed then .ok none
  else if t.tag = U.utf8String then (utf8Decode t.content).map some
  else if t.tag = U.printableString ∨ t.tag = U.ia5String ∨ t.tag = U.t61String then
    .ok (some (fromCharCodes t.content))
  else if t.tag = U.bmpString then
    if t.content.length % 2 ≠ 0 then .error (.derError "BMPString length")
    else .ok (some (bmpText t.content))
  else if t.tag = U.universalString then
    if t.content.length % 4 ≠ 0 then .error (.derError "UniversalString length")
    else (universalText t.content).map some
  else .ok none

/-- Attribute types that X500Principal's canonical form normalises as strings. -/
def canonicalStringTypes : List JsString :=
  [js "2.5.4.3", js "2.5.4.6", js "2.5.4.7", js "2.5.4.8", js "2.5.4.10", js "2.5.4.11",
    js "2.5.4.9", js "0.9.2342.19200300.100.1.25", js "0.9.2342.19200300.100.1.1"]

def canonicalText (tables : CaseTables) (text : JsString) : JsString :=
  toLowerCase tables (toUpperCase tables (collapseSpaces false (trim text)))

def parseAttribute (tables : CaseTables) (atv : Tlv) : Js Attribute := do
  match ← sequence atv "AttributeTypeAndValue" with
  | [oidT, valT] => do
    let oid ← oidValue oidT
    let text ← decodeDirectoryString valT
    -- Texts of other types and of other attributes compare by their octets.
    let normalisable := canonicalStringTypes.contains oid &&
      (isUniversal valT U.printableString none || isUniversal valT U.utf8String none)
    let canonical :=
      match text with
      | some s => if normalisable then canonicalText tables s else js "#" ++ hex valT.raw
      | none => js "#" ++ hex valT.raw
    .ok { oid := oid, canonical := canonical, text := text }
  | _ => .error (.derError "AttributeTypeAndValue")

def parseRdn (tables : CaseTables) (rdn : Tlv) : Js (List Attribute) := do
  let attrs ← (← derSet rdn "RDN").mapM (parseAttribute tables)
  if attrs = [] then .error (.derError "empty RDN") else .ok attrs

def parseName (tables : CaseTables) (t : Tlv) : Js Name := do
  let rdns ← (← sequence t "Name").mapM (parseRdn tables)
  .ok { der := t.raw, rdns := rdns }

/-- The comparison keys of one RDN. -/
def rdnKeys (rdn : List Attribute) : List JsString :=
  sortStrings (rdn.map fun v => v.oid ++ js "=" ++ v.canonical)

/-- X500Principal.equals approximation: same RDN sequence, each RDN the same attribute set. -/
def namesEqual (a b : Name) : Bool :=
  if bytesEqual a.der b.der then true
  else if a.rdns.length ≠ b.rdns.length then false
  else (a.rdns.zip b.rdns).all fun (x, y) => rdnKeys x = rdnKeys y

theorem namesEqual_iff (a b : Name) :
    namesEqual a b = true ↔ a.der = b.der ∨ a.rdns.map rdnKeys = b.rdns.map rdnKeys := by
  simp only [namesEqual]
  by_cases same : a.der = b.der
  · simp [same]
  · simp only [bytesEqual_iff, same, ↓reduceIte, false_or]
    generalize a.rdns = xs
    generalize b.rdns = ys
    induction xs generalizing ys with
    | nil => cases ys <;> simp
    | cons x xs ih =>
      cases ys with
      | nil => simp
      | cons y ys =>
        have tail := ih ys
        by_cases count : xs.length = ys.length <;> simp_all

theorem namesEqual_comm (a b : Name) : namesEqual a b = namesEqual b a := by
  rw [Bool.eq_iff_iff, namesEqual_iff, namesEqual_iff]
  constructor <;> rintro (h | h) <;> simp [h]

/-- Last value of an attribute by OID across the DN. -/
def nameAttribute (n : Name) (oid : JsString) : Option JsString :=
  (n.rdns.flatten.filterMap fun a => if a.oid = oid then a.text else none).getLast?.map trim

def nameHasAttribute (n : Name) (oid : JsString) : Bool :=
  n.rdns.any fun rdn => rdn.any fun a => a.oid = oid

/-- True when any string attribute value contains `needle` case-insensitively. -/
def nameContains (tables : CaseTables) (n : Name) (needle : JsString) : Bool :=
  let lower := toLowerCase tables needle
  n.rdns.any fun rdn => rdn.any fun a =>
    match a.text with
    | some text => includes (toLowerCase tables text) lower
    | none => false

/-! ### Parsing -/

structure AlgorithmIdentifier where
  oid : JsString
  params : Option Tlv
  raw : Bytes

def parseAlgorithmIdentifier (t : Tlv) : Js AlgorithmIdentifier := do
  match ← sequence t "AlgorithmIdentifier" with
  | [oidT] => do .ok { oid := ← oidValue oidT, params := none, raw := t.raw }
  | [oidT, params] => do .ok { oid := ← oidValue oidT, params := some params, raw := t.raw }
  | _ => .error (.derError "AlgorithmIdentifier")

/-- The modulus bit length of an RSAPublicKey. -/
def parseRsaBits (key : Bytes) : Js Nat := do
  match ← sequence (← parseSingle key) "RSAPublicKey" with
  | [n, e] => do
    let modulus ← integerValue n
    let exponent ← integerValue e
    if modulus ≤ 0 ∨ exponent ≤ 0 then .error (.derError "RSA key values")
    else .ok (natToString 2 modulus.natAbs).length
  | _ => .error (.derError "RSAPublicKey")

def parseSpki (t : Tlv) : Js PublicKeyInfo := do
  match ← sequence t "SubjectPublicKeyInfo" with
  | [algT, keyT] => do
    let alg ← parseAlgorithmIdentifier algT
    let key ← bitString keyT
    if alg.oid = Oid.ecPublicKey then
      match alg.params with
      | some params =>
        if isUniversal params U.oid (some false) then do
          let curve ← oidValue params
          -- The point itself is left to the key import.
          if (key.headD 0).toNat ≠ 0x04 then .error (.derError "EC point must be uncompressed")
          else .ok { spki := t.raw, algorithm := alg.oid, curve := some curve, rsaBits := none }
        else .error (.derError "EC key without named curve")
      | none => .error (.derError "EC key without named curve")
    else if alg.oid = Oid.rsaEncryption then do
      let bits ← parseRsaBits key
      .ok { spki := t.raw, algorithm := alg.oid, curve := none, rsaBits := some bits }
    else .ok { spki := t.raw, algorithm := alg.oid, curve := none, rsaBits := none }
  | _ => .error (.derError "SubjectPublicKeyInfo")

def checkKeyIdentifierPart (k : Tlv) : Js Unit :=
  if k.cls ≠ .contextSpecific ∨ k.tag > 2 then .error (.derError "AuthorityKeyIdentifier")
  else if k.tag = 2 then do
    let _ ← integerValue { k with cls := .universal, tag := U.integer, constructed := false }
    .ok ()
  else .ok ()

/-- An element of the sequence extensions that are not decoded any further. -/
def checkEntry (oid : JsString) (k : Tlv) : Js Unit :=
  if oid = js "2.5.29.17" ∨ oid = js "2.5.29.18" then
    if k.cls ≠ .contextSpecific ∨ k.tag > 8 then .error (.derError "GeneralName") else .ok ()
  else do
    let _ ← sequence k "extension entry"
    .ok ()

/-- The structural part of the checks that X509CertImpl makes on the extensions it knows. -/
def checkKnownExtension (oid : JsString) (value : Bytes) : Js Unit :=
  if oid = js "2.5.29.15" then do
    let _ ← bitString (← parseSingle value)
    .ok ()
  else if oid = js "2.5.29.14" then do
    let _ ← octetString (← parseSingle value)
    .ok ()
  else if oid = js "2.5.29.35" then do
    for k in ← sequence (← parseSingle value) "AuthorityKeyIdentifier" do
      checkKeyIdentifierPart k
  else if oid = js "2.5.29.37" then do
    let kids ← sequence (← parseSingle value) "ExtendedKeyUsage"
    if kids = [] then .error (.derError "ExtendedKeyUsage")
    else for k in kids do
      let _ ← oidValue k
  else if oid = js "2.5.29.31" ∨ oid = js "2.5.29.32" ∨ oid = js "2.5.29.17" ∨
      oid = js "2.5.29.18" ∨ oid = js "1.3.6.1.5.5.7.1.1" then do
    let kids ← sequence (← parseSingle value) "extension"
    if kids = [] then .error (.derError "empty extension sequence")
    else for k in kids do
      checkEntry oid k
  else .ok ()

/-- BasicConstraints: an absent or non-BOOLEAN first element means "not a CA". -/
def decodeBasicConstraints (value : Bytes) : Js Bool := do
  match ← sequence (← parseSingle value) "BasicConstraints" with
  | [] => .ok false
  | first :: rest =>
    if isUniversal first U.boolean none then do
      let ca ← booleanValue first
      match rest with
      | [] => .ok ca
      | pathLen :: _ => do
        let _ ← integerValue pathLen
        .ok ca
    else .ok false

/-- What the extension loop accumulates. -/
structure ExtensionState where
  extensions : List (JsString × Extension)
  basicConstraintsCa : Option Bool

/-- OID, optional BOOLEAN, OCTET STRING; anything after is ignored. -/
def readExtension (extT : Tlv) : Js (JsString × Extension) := do
  match ← sequence extT "Extension" with
  | oidT :: second :: rest => do
    let oid ← oidValue oidT
    if isUniversal second U.boolean none then do
      let critical ← booleanValue second
      match rest with
      | [] => .error (.derError "Extension")
      | valT :: _ => do
        let value ← octetString valT
        .ok (oid, { critical := critical, value := value })
    else do
      let value ← octetString second
      .ok (oid, { critical := false, value := value })
  | _ => .error (.derError "Extension")

/-- One round of the extension loop. Known extensions are decoded on load; a malformed one
is fatal only when critical. -/
def addExtension (state : ExtensionState) (extT : Tlv) : Js ExtensionState := do
  let (oid, extension) ← readExtension extT
  if state.extensions.any fun e => e.1 = oid then .error (.derError "duplicate extension")
  else
    let extensions := state.extensions ++ [(oid, extension)]
    if oid = Oid.basicConstraints then
      match decodeBasicConstraints extension.value with
      | .ok ca => .ok { extensions := extensions, basicConstraintsCa := some ca }
      | .error e =>
        -- A malformed one is dropped, and no CA.
        if extension.critical then .error e
        else .ok { extensions := extensions, basicConstraintsCa := none }
    else
      match checkKnownExtension oid extension.value with
      | .ok () => .ok { state with extensions := extensions }
      | .error e =>
        if extension.critical then .error e else .ok { state with extensions := extensions }

/-- `next(what)`: the element at `p` of the TBS body and the offset after it. -/
def nextField (body : Bytes) (p : Nat) (what : String) : Js (Tlv × Nat) :=
  if p ≥ body.length then .error (.derError ("missing " ++ what)) else readTlv body p

/-- `peek()`: the element at `p`, if one can be read. -/
def peekField (body : Bytes) (p : Nat) : Option Tlv :=
  if p ≥ body.length then none
  else
    match readTlv body p with
    | .ok (t, _) => some t
    | .error _ => none

/-- The optional version and the serial number, with the offset after them. -/
def readVersion (body : Bytes) : Js (Int × Tlv × Nat) := do
  let (first, p) ← nextField body 0 "serialNumber"
  if first.cls = .contextSpecific ∧ first.tag = 0 ∧ first.constructed then
    -- The element was the version, and the serial number is the next one.
    match ← children first with
    | [v] => do
      let version ← integerValue v
      if version < 0 ∨ version > 2 then .error (.derError "version")
      else do
        let (serial, p) ← nextField body p "serialNumber"
        .ok (version, serial, p)
    | _ => .error (.derError "version")
  else .ok (0, first, p)

/-- Passes over an optional element with context tag `tag`. -/
def skipOptional (body : Bytes) (p tag : Nat) (what : String) : Js Nat :=
  match peekField body p with
  | some t =>
    if t.cls = .contextSpecific ∧ t.tag = tag then do
      let (_, p) ← nextField body p what
      .ok p
    else .ok p
  | none => .ok p

/-- The extensions at `p`, read on v3 only. -/
def readExtensions (body : Bytes) (p : Nat) (version : Int) : Js ExtensionState :=
  match peekField body p with
  | some t =>
    -- On v1 and v2 the element is left unread.
    if version = 2 ∧ t.cls = .contextSpecific ∧ t.tag = 3 then do
      let (wrapper, _) ← nextField body p "extensions"
      match ← children wrapper with
      | [list] => do
        (← sequence list "Extensions").foldlM addExtension
          { extensions := [], basicConstraintsCa := none }
      | _ => .error (.derError "extensions")
    else .ok { extensions := [], basicConstraintsCa := none }
  | none => .ok { extensions := [], basicConstraintsCa := none }

/-- Parses one DER certificate that must occupy the whole buffer. The TBS is read
sequentially: fixed fields, optional [1] [2], [3] on v3, and nothing after that. -/
def parseCertificate (tables : CaseTables) (der : Bytes) : Js Certificate := do
  let cert ← parseSingle der
  match ← sequence cert "Certificate" with
  | [tbsT, sigAlgT, sigT] => do
    let tbsT ← expect tbsT U.sequence "TBSCertificate" (some true)
    let body := tbsT.content
    let (version, first, p) ← readVersion body
    let serial ← integerValue first
    let (tbsAlgT, p) ← nextField body p "signature"
    let tbsAlg ← parseAlgorithmIdentifier tbsAlgT
    let (issuerT, p) ← nextField body p "issuer"
    let issuer ← parseName tables issuerT
    let (validityT, p) ← nextField body p "validity"
    match ← sequence validityT "Validity" with
    | [notBeforeT, notAfterT] => do
      let notBefore ← timeValue notBeforeT
      let notAfter ← timeValue notAfterT
      let (subjectT, p) ← nextField body p "subject"
      let subject ← parseName tables subjectT
      let (spkiT, p) ← nextField body p "subjectPublicKeyInfo"
      let publicKey ← parseSpki spkiT
      let p ← skipOptional body p 1 "issuerUniqueID"
      let p ← skipOptional body p 2 "subjectUniqueID"
      let loaded ← readExtensions body p version
      let sigAlg ← parseAlgorithmIdentifier sigAlgT
      -- Both identifiers with their parameters, octet by octet.
      if bytesEqual sigAlg.raw tbsAlg.raw then do
        let signature ← bitString sigT
        .ok {
          der := der
          tbs := tbsT.raw
          serial := serial
          serialHex := bigIntToString 16 serial
          tbsSignatureAlgorithm := tbsAlg.oid
          signatureAlgorithm := sigAlg.oid
          signature := signature
          issuer := issuer
          subject := subject
          notBefore := notBefore
          notAfter := notAfter
          publicKey := publicKey
          extensions := loaded.extensions
          basicConstraintsCa := loaded.basicConstraintsCa }
      else .error (.derError "Signature algorithm mismatch")
    | _ => .error (.derError "Validity")
  | _ => .error (.derError "Certificate")

def isSelfIssued (c : Certificate) : Bool := namesEqual c.issuer c.subject

/-- `c.extensions.get(oid)` -/
def getExtension (c : Certificate) (oid : JsString) : Option Extension :=
  (c.extensions.find? fun e => e.1 = oid).map (·.2)

def extensionValue (c : Certificate) (oid : JsString) : Option Bytes :=
  (getExtension c oid).map (·.value)

/-! ### Signature verification -/

inductive SignatureKind where
  | ecdsa
  | rsa
  deriving DecidableEq, Repr

structure HashSpec where
  kind : SignatureKind
  hash : String

/-- The algorithm argument of `crypto.subtle.importKey`. -/
inductive ImportAlgorithm where
  | ecdsa (namedCurve : String)
  | rsassaPkcs1 (hash : String)
  deriving DecidableEq, Repr

/-- The algorithm argument of `crypto.subtle.verify`. -/
inductive VerifyAlgorithm where
  | ecdsa (hash : String)
  | rsassaPkcs1
  deriving DecidableEq, Repr

/-- What the verifier uses of the JavaScript runtime; `none` is a rejected promise. -/
structure Host (CryptoKey : Type) where
  tables : CaseTables
  importKey : Bytes → ImportAlgorithm → Option CryptoKey
  verify : VerifyAlgorithm → CryptoKey → Bytes → Bytes → Option Bool

variable {CryptoKey : Type}

def hashFor (sigOid : JsString) : Option HashSpec :=
  if sigOid = Oid.ecdsaSha256 then some ⟨.ecdsa, "SHA-256"⟩
  else if sigOid = Oid.ecdsaSha384 then some ⟨.ecdsa, "SHA-384"⟩
  else if sigOid = Oid.ecdsaSha512 then some ⟨.ecdsa, "SHA-512"⟩
  else if sigOid = Oid.sha256Rsa then some ⟨.rsa, "SHA-256"⟩
  else if sigOid = Oid.sha384Rsa then some ⟨.rsa, "SHA-384"⟩
  else if sigOid = Oid.sha512Rsa then some ⟨.rsa, "SHA-512"⟩
  else none

/-- Name and coordinate size of a curve. -/
def curveName (oid : Option JsString) : Option (String × Nat) :=
  if oid = some Oid.p256 then some ("P-256", 32)
  else if oid = some Oid.p384 then some ("P-384", 48)
  else if oid = some Oid.p521 then some ("P-521", 66)
  else none

/-- Imports a public key for verification with the given signature algorithm. -/
def importVerifyKey (host : Host CryptoKey) (key : PublicKeyInfo) (sigOid : JsString) :
    Option CryptoKey := do
  let spec ← hashFor sigOid
  match spec.kind with
  | .ecdsa =>
    if key.algorithm ≠ Oid.ecPublicKey then none
    else do
      let (name, _) ← curveName key.curve
      host.importKey key.spki (.ecdsa name)
  | .rsa =>
    if key.algorithm ≠ Oid.rsaEncryption then none
    else host.importKey key.spki (.rsassaPkcs1 spec.hash)

/-- The value of a lowercase hex digit. -/
def unitDigit (u : UInt16) : Nat := if u.toNat < 58 then u.toNat - 48 else u.toNat - 87

/-- `parseInt` of every two digits. -/
def hexPairs : JsString → Bytes
  | a :: b :: rest => UInt8.ofNat (unitDigit a * 16 + unitDigit b) :: hexPairs rest
  | _ => []

/-- The fixed-width octets of `put`. -/
def fixedWidth (v : Nat) (size : Nat) : Js Bytes :=
  let digits := natToString 16 v
  let h := List.replicate (size * 2 - digits.length) 48 ++ digits
  if h.length > size * 2 then .error (.derError "integer too large") else .ok (hexPairs h)

def ecdsaScalars (sig : Bytes) (size : Nat) : Js (Option Bytes) := do
  match ← sequence (← parseSingle sig) "ECDSA-Sig-Value" with
  | [rT, sT] => do
    let r ← integerValue rT
    let s ← integerValue sT
    -- `put` throws on a scalar that is too large, which the caller catches.
    if r < 0 ∨ s < 0 then .ok none
    else do
      let high ← fixedWidth r.natAbs size
      let low ← fixedWidth s.natAbs size
      .ok (some (high ++ low))
  | _ => .ok none

/-- DER ECDSA-Sig-Value to fixed-width r||s; `none` when malformed. -/
def ecdsaDerToRaw (sig : Bytes) (size : Nat) : Option Bytes :=
  match ecdsaScalars sig size with
  | .ok raw => raw
  | .error _ => none

/-- Verifies `signature` over `data` under `sigOid` with `key`. False on any failure. -/
def verifySignature (host : Host CryptoKey) (key : PublicKeyInfo) (sigOid : JsString)
    (signature data : Bytes) : Bool :=
  match hashFor sigOid, importVerifyKey host key sigOid with
  | some spec, some cryptoKey =>
    match spec.kind with
    | .ecdsa =>
      match curveName key.curve with
      | some (_, size) =>
        match ecdsaDerToRaw signature size with
        | some raw => (host.verify (.ecdsa spec.hash) cryptoKey raw data).getD false
        | none => false
      | none => false
    | .rsa => (host.verify .rsassaPkcs1 cryptoKey signature data).getD false
  | _, _ => false

/-- The certificate's signature checks under the issuer's key. -/
def verifyCertificate (host : Host CryptoKey) (cert : Certificate) (issuerKey : PublicKeyInfo) :
    Bool :=
  verifySignature host issuerKey cert.signatureAlgorithm cert.signature cert.tbs

end UncrackableL5

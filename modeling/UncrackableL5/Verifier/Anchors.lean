import UncrackableL5.Library.Scan
import UncrackableL5.Verifier.Base64
import UncrackableL5.Verifier.X509

/-!
# Trust anchors

The PEM bundle of self-signed CA certificates that the server is configured with.
-/
namespace UncrackableL5

def beginCertificate : JsString := js "-----BEGIN CERTIFICATE-----"

def endCertificate : JsString := js "-----END CERTIFICATE-----"

/-- `[\sA-Za-z0-9+/=]` -/
def isBodyUnit (u : UInt16) : Bool :=
  let n := u.toNat
  isSpace u || (65 ≤ n && n ≤ 90) || (97 ≤ n && n ≤ 122) || (48 ≤ n && n ≤ 57) || n = 43 ||
    n = 47 || n = 61

/-- `[A-Z ]` -/
def isMarkerUnit (u : UInt16) : Bool := (65 ≤ u.toNat && u.toNat ≤ 90) || u.toNat = 32

/-- `/-----BEGIN CERTIFICATE-----[\sA-Za-z0-9+/=]+-----END CERTIFICATE-----/g`. A run stops before
the first dash, so a match has no other length. -/
def certificateLength (text : JsString) : Nat :=
  Scan.enclosedLength beginCertificate endCertificate isBodyUnit text

/-- `/-----[A-Z ]+-----/g` -/
def markerLength (text : JsString) : Nat :=
  Scan.enclosedLength (js "-----") (js "-----") isMarkerUnit text

/-- `s.replace(/\s+/g, "")` -/
def removeSpaces (s : JsString) : JsString := s.filter fun u => !isSpace u

/-- What `parsePemCertificates` does with a block. -/
def parseBlock (tables : CaseTables) (block : JsString) : Js Certificate := do
  parseCertificate tables (← base64Decode (removeSpaces (Scan.removeAll markerLength block)))

/-- Parses every PEM certificate block without further checks. -/
def parsePemCertificates (tables : CaseTables) (pem : JsString) : Js (List Certificate) :=
  (Scan.findAll certificateLength pem).mapM (parseBlock tables)

variable {CryptoKey : Type}

/-- One round of the loop in `parseAnchors`. -/
def checkAnchor (host : Host CryptoKey) (cert : Certificate) : Js Certificate :=
  if cert.basicConstraintsCa = none ∨ isSelfIssued cert = false then
    .error (.error "ATTESTATION_ROOTS: not a self-signed CA")
  else if verifyCertificate host cert cert.publicKey = false then
    .error (.error "ATTESTATION_ROOTS: bad self-signature")
  else .ok cert

/-- Parses a PEM bundle of self-signed CA certificates. -/
def parseAnchors (host : Host CryptoKey) (pem : JsString) : Js (List Certificate) :=
  if pem.length > 64 * 1024 then .error (.error "ATTESTATION_ROOTS too large")
  else
    let blocks := Scan.findAll certificateLength pem
    if blocks.length < 1 ∨ blocks.length > 16 ∨
        trim (Scan.removeAll certificateLength pem) ≠ [] then
      .error (.error "ATTESTATION_ROOTS malformed")
    else do
      let certs ← parsePemCertificates host.tables pem
      certs.mapM (checkAnchor host)

end UncrackableL5

import UncrackableL5.Kotlin.Base64

/-!
# The wire model

The challenge as the app reads it: 57 octets in base64url without padding, of which it looks at the
version only.
-/
namespace UncrackableL5

namespace Challenge

def size : Nat := 57
def encodedLength : Nat := 76

def decode (encoded : JavaString) : Except Throwable Bytes :=
  if encoded.length ≠ encodedLength then .error (.illegalArgument "challenge length")
  else
    match JavaBase64.urlDecode encoded with
    | none => .error (.illegalArgument "challenge encoding")
    | some bytes =>
      if bytes.length ≠ size ∨ bytes[0]? ≠ some 1 ∨ JavaBase64.urlEncode bytes ≠ encoded then
        .error (.illegalArgument "challenge format")
      else .ok bytes

end Challenge

end UncrackableL5

import UncrackableL5.Kotlin.Runtime

/-!
# The backend client

What `Backend.attest` makes of the response to an attest request. The decoders of other packages
are parameters: okio's `readUtf8` and the JSON serializers.
-/
namespace UncrackableL5

/-- `FlagResponse`, as far as it is read. -/
structure FlagResponse where
  tier : Int
  flag : JavaString

/-- Code of other packages; `none` is an exception of the serializer. -/
structure Decoders where
  readUtf8 : Bytes → JavaString
  flagResponse : JavaString → Option FlagResponse
  errorResponse : JavaString → Option JavaString

inductive AttestOutcome where
  | accepted (tier : Int) (flag : Bytes)
  | rejected (code : JavaString)
  | unavailable

/-- `ProtocolException` -/
structure ProtocolException where
  message : String

namespace Backend

def maxBody : Nat := 8 * 1024

/-- Reads at most `maxBody` octets; anything larger is outside the protocol. -/
def bounded (decoders : Decoders) (body : Option Bytes) : Except ProtocolException JavaString :=
  match body with
  | none => .error { message := "empty" }
  | some octets =>
    if octets.length < maxBody + 1 then .ok (decoders.readUtf8 octets)
    else .error { message := "too large" }

/-- `decode` -/
def decodeBody {α : Type} (parsed : Option α) : Except ProtocolException α :=
  match parsed with
  | some value => .ok value
  | none => .error { message := "body" }

/-- `attest` from the response on. -/
def attestResponse (decoders : Decoders) (code : Nat) (body : Option Bytes) :
    Except ProtocolException AttestOutcome := do
  let text ← bounded decoders body
  match code with
  | 200 => do
    let parsed ← decodeBody (decoders.flagResponse text)
    if parsed.tier ≠ 2 then .error { message := "tier" }
    else .ok (.accepted parsed.tier (encodeToByteArray parsed.flag))
  | 403 => do .ok (.rejected (← decodeBody (decoders.errorResponse text)))
  | 429 | 503 => .ok .unavailable
  | _ => .error { message := "status" }

end Backend

end UncrackableL5

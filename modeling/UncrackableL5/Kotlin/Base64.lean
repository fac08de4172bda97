import UncrackableL5.Kotlin.Runtime
import UncrackableL5.Verifier.Base64

/-!
# java.util.Base64

The URL decoder and encoder, and the basic encoder. The decoder reads units of four characters; it
takes a last unit with or without its padding, and drops the bits left over in it.
-/
namespace UncrackableL5.JavaBase64

/-- `fromBase64URL[u]`; `none` where that is negative. -/
def sextet (u : UInt16) : Option Nat := urlAlphabet.findIdx? fun letter => letter = u

/-- The octets of the last unit: `bits` holds its `count` sextets. -/
def lastUnit (bits count : Nat) : Option Bytes :=
  match count with
  | 0 => some []
  | 2 => some [UInt8.ofNat (bits / 16)]
  | 3 => some [UInt8.ofNat (bits / 1024), UInt8.ofNat (bits / 4)]
  -- a single sextet is dangling
  | _ => none

/-- From a `=` on, with the characters after it. -/
def padding (rest : JavaString) (bits count : Nat) : Option Bytes :=
  match count, rest with
  | 2, [61] => lastUnit bits 2
  | 3, [] => lastUnit bits 3
  | _, _ => none

/-- `decode0` on the rest of the text, in a unit that has `count` sextets so far. -/
def decodeLoop : JavaString → Nat → Nat → Option Bytes
  | [], bits, count => lastUnit bits count
  | u :: rest, bits, count =>
    match sextet u with
    | some b =>
      let bits := bits * 64 + b
      if count = 3 then
        (decodeLoop rest 0 0).map fun octets =>
          UInt8.ofNat (bits / 65536) :: UInt8.ofNat (bits / 256) :: UInt8.ofNat bits :: octets
      else decodeLoop rest bits (count + 1)
    | none => if u = 61 then padding rest bits count else none

/-- `getUrlDecoder().decode(text)`; `none` is an `IllegalArgumentException`. -/
def urlDecode (text : JavaString) : Option Bytes := decodeLoop text 0 0

/-- `getUrlEncoder().withoutPadding().encodeToString(bytes)` -/
def urlEncode (bytes : Bytes) : JavaString := encode urlAlphabet false bytes

/-- `getEncoder().encodeToString(bytes)` -/
def encodeToString (bytes : Bytes) : JavaString := encode stdAlphabet true bytes

end UncrackableL5.JavaBase64

import UncrackableL5.Js.Text

/-! Base64 decoders with the semantics of `java.util.Base64`, and the encoders. -/
namespace UncrackableL5

def stdAlphabet : JsString :=
  js "ABCDEFGHIJKLMNOPQRSTUVWXYZabcdefghijklmnopqrstuvwxyz0123456789+/"

def urlAlphabet : JsString :=
  js "ABCDEFGHIJKLMNOPQRSTUVWXYZabcdefghijklmnopqrstuvwxyz0123456789-_"

/-- The decoding table: the index of a character code, or -1. -/
def table (alphabet : JsString) (code : Nat) : Int :=
  match alphabet.idxOf? (UInt16.ofNat code) with
  | some i => i
  | none => -1

/-- The length without padding, and the number of `=` signs stripped. -/
def stripPadding (s : JsString) : Nat × Nat :=
  let stop := s.length
  if 0 < stop ∧ s[stop - 1]? = some 61 then
    if 0 < stop - 1 ∧ s[stop - 2]? = some 61 then (stop - 2, 2) else (stop - 1, 1)
  else (stop, 0)

/-- The decoding loop; `acc` is a 32-bit integer that keeps the bits shifted out of it
no longer than JavaScript does. -/
def decodeLoop (t : Nat → Int) : JsString → BitVec 32 → Nat → Js Bytes
  | [], _, _ => .ok []
  | u :: rest, acc, bits =>
    let v := t (u.toNat % 256)
    if v < 0 ∨ u.toNat > 255 then .error (.error "base64: illegal character")
    else
      let acc := (acc <<< 6) ||| BitVec.ofInt 32 v
      if bits + 6 ≥ 8 then do
        let out ← decodeLoop t rest acc (bits + 6 - 8)
        .ok (UInt8.ofNat (acc.sshiftRight (bits + 6 - 8)).toNat :: out)
      else decodeLoop t rest acc (bits + 6)

def decode (s : JsString) (t : Nat → Int) : Js Bytes :=
  let (stop, pad) := stripPadding s
  let rem := stop % 4
  if rem = 1 then .error (.error "base64: dangling sextet")
  else if pad > 0 ∧ ((rem = 0 ∧ pad ≠ 0) ∨ (rem = 2 ∧ pad ≠ 2) ∨ (rem = 3 ∧ pad ≠ 1)) then
    .error (.error "base64: bad padding")
  else decodeLoop t (s.take stop) 0 0

def base64Decode (s : JsString) : Js Bytes := decode s (table stdAlphabet)

def base64UrlDecode (s : JsString) : Js Bytes := decode s (table urlAlphabet)

/-- `alphabet[i]` -/
def letter (alphabet : JsString) (i : Nat) : UInt16 := alphabet.getD i 0

def encode (alphabet : JsString) (padding : Bool) : Bytes → JsString
  | b0 :: b1 :: b2 :: rest =>
    let n := b0.toNat * 65536 + b1.toNat * 256 + b2.toNat
    letter alphabet (n / 262144) :: letter alphabet (n / 4096 % 64) ::
      letter alphabet (n / 64 % 64) :: letter alphabet (n % 64) :: encode alphabet padding rest
  | [b0, b1] =>
    let n := b0.toNat * 65536 + b1.toNat * 256
    [letter alphabet (n / 262144), letter alphabet (n / 4096 % 64),
      letter alphabet (n / 64 % 64)] ++ (if padding then [61] else [])
  | [b0] =>
    let n := b0.toNat * 65536
    [letter alphabet (n / 262144), letter alphabet (n / 4096 % 64)] ++
      (if padding then [61] else []) ++ (if padding then [61] else [])
  | [] => []

def base64Encode (b : Bytes) : JsString := encode stdAlphabet true b

def base64UrlEncodeNoPad (b : Bytes) : JsString := encode urlAlphabet false b

end UncrackableL5

import UncrackableL5.Js.Number
import UncrackableL5.Js.Sort

/-!
# Google attestation status feed

Parsing of the feed body, and how long a snapshot of it may be reused.
-/
namespace UncrackableL5

def maxTtlSeconds : Number := .finite 300

def maxFeedBytes : Nat := 4 * 1024 * 1024

/-- What `JSON.parse` builds, as far as the server looks at it. -/
inductive Json where
  | null
  | boolean
  | number
  | string (text : JsString)
  | array (items : List Json)
  -- the own enumerable keys, in the order of `Object.entries`
  | object (entries : List (JsString × Json))

/-- `object[key]`; `none` is `undefined`. -/
def property (entries : List (JsString × Json)) (key : JsString) : Option Json :=
  (entries.find? fun e => e.1 = key).map (·.2)

/-- The parts of the JavaScript engine that the server relies on besides the language. -/
structure Engine where
  tables : CaseTables
  -- `JSON.parse`, which throws a SyntaxError
  parseJson : JsString → Option Json
  -- `Number(text)` of any string
  number : JsString → Number
  sha256 : Bytes → Bytes

/-- Normalises a hex serial like BigInteger(serial, 16).toString(16). -/
def normaliseSerial (tables : CaseTables) (serial : JsString) : JsString :=
  let s := (toLowerCase tables serial).dropWhile (· = 48)
  if s = [] then [48] else s

def isHexUnit (u : UInt16) : Bool :=
  (48 ≤ u.toNat && u.toNat ≤ 57) || (97 ≤ u.toNat && u.toNat ≤ 102) ||
    (65 ≤ u.toNat && u.toNat ≤ 70)

/-- `/^[0-9a-fA-F]{1,128}$/` -/
def isFeedKey (serial : JsString) : Bool :=
  1 ≤ serial.length && serial.length ≤ 128 && serial.all isHexUnit

/-- One round of the loop over the entries. -/
def addEntry (tables : CaseTables) (out : List JsString) (entry : JsString × Json) :
    Js (List JsString) :=
  if ¬isFeedKey entry.1 then .error .unavailable
  else
    match entry.2 with
    | .object fields =>
      match property fields (js "status") with
      | some (.string status) =>
        if trim status = [] then .error .unavailable
        else .ok (pushNew out (normaliseSerial tables entry.1))
      | _ => .error .unavailable
    | _ => .error .unavailable

/-- The entries object of a feed body. -/
def feedEntries (engine : Engine) (body : JsString) : Js (List (JsString × Json)) :=
  match engine.parseJson body with
  | some (.object root) =>
    match property root (js "entries") with
    | some (.object entries) => .ok entries
    | _ => .error .unavailable
  | _ => .error .unavailable

/-- Parses the feed body; every listed serial is rejected regardless of status. -/
def parseFeed (engine : Engine) (body : JsString) : Js (List JsString) := do
  (← feedEntries engine body).foldlM (addEntry engine.tables) []

/-! ### Lifetime of a snapshot -/

def isDigitUnit (u : UInt16) : Bool := 48 ≤ u.toNat && u.toNat ≤ 57

/-- `Number(digits)` of a run of decimal digits. -/
def numberOfDigits (digits : JsString) : Number :=
  Number.round (digits.foldl (fun v u => v * 10 + (u.toNat - 48)) 0 : Nat)

/-- The digits of `\s*max-age=(\d+)` at the start of a string. -/
def maxAgeDigits (s : JsString) : Option JsString :=
  let s := s.dropWhile isSpace
  let name := js "max-age="
  if name.isPrefixOf (s.map asciiLower) then
    let digits := (s.drop name.length).takeWhile isDigitUnit
    if digits = [] then none else some digits
  else none

/-- What follows each comma. -/
def afterCommas : JsString → List JsString
  | [] => []
  | u :: rest => if u = 44 then rest :: afterCommas rest else afterCommas rest

/-- `/(?:^|,)\s*max-age=(\d+)/i.exec(cache)` -/
def maxAgeMatch (cache : JsString) : Option JsString :=
  (cache :: afterCommas cache).findSome? maxAgeDigits

/-- How long a snapshot may be reused: at most `maxTtlSeconds`, and never past the origin's own
max-age minus the Age a CDN cache reports. 0 means unusable. -/
def snapshotTtl (cacheControl ageHeader : Option JsString) : Number :=
  let cache := cacheControl.getD []
  if includesIgnoringCase cache (js "no-cache") ∨ includesIgnoringCase cache (js "no-store") then
    .finite 0
  else
    let originMaxAge :=
      match maxAgeMatch cache with
      | some digits => numberOfDigits digits
      | none => maxTtlSeconds
    let parsedAge :=
      match ageHeader with
      | some age =>
        let age := trim age
        if age ≠ [] ∧ age.all isDigitUnit then numberOfDigits age else .finite 0
      | none => .finite 0
    let remaining := originMaxAge.sub (Number.max (.finite 0) parsedAge)
    if remaining ≤ .finite 0 then .finite 0 else Number.min remaining maxTtlSeconds

end UncrackableL5

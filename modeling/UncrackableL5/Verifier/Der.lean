import UncrackableL5.Library.BigEndian
import UncrackableL5.Js.Date
import UncrackableL5.Js.Text

/-!
# DER reader

Definite, minimal lengths only; INTEGER and ENUMERATED must be minimal. Offsets are
positions in the octet list, and the loops over the input are bounded by its length.
-/
namespace UncrackableL5

inductive TagClass where
  | universal
  | application
  | contextSpecific
  | privateUse
  deriving DecidableEq, Repr

/-- The class in the first two bits of an identifier octet. -/
def TagClass.ofBits : Nat → TagClass
  | 0 => .universal
  | 1 => .application
  | 2 => .contextSpecific
  | _ => .privateUse

structure Tlv where
  /-- Tag class. -/
  cls : TagClass
  /-- Constructed bit. -/
  constructed : Bool
  /-- Tag number. -/
  tag : Nat
  /-- Bytes of the whole TLV (header + content). -/
  raw : Bytes
  /-- Content bytes. -/
  content : Bytes
  deriving DecidableEq, Repr

namespace U

abbrev boolean : Nat := 1
abbrev integer : Nat := 2
abbrev bitString : Nat := 3
abbrev octetString : Nat := 4
abbrev oid : Nat := 6
abbrev enumerated : Nat := 10
abbrev utf8String : Nat := 12
abbrev sequence : Nat := 16
abbrev set : Nat := 17
abbrev printableString : Nat := 19
abbrev t61String : Nat := 20
abbrev ia5String : Nat := 22
abbrev utcTime : Nat := 23
abbrev generalizedTime : Nat := 24
abbrev universalString : Nat := 28
abbrev bmpString : Nat := 30

end U

/-- `b.subarray(start, stop)`. -/
def subarray (b : Bytes) (start stop : Nat) : Bytes := (b.drop start).take (stop - start)

/-- The octets of a tag number from 31 on; `count` octets were read before `p`. The fifth
octet throws, so five rounds are enough. -/
def readHighTag (b : Bytes) : Nat → Nat → Nat → Nat → Js (Nat × Nat)
  | 0, _, _, _ => .error (.derError "tag too large")
  | rounds + 1, p, tag, count =>
    match b[p]? with
    | none => .error (.derError "truncated tag")
    | some octet =>
      if count = 0 ∧ octet.toNat = 0x80 then .error (.derError "non-minimal tag")
      else if count + 1 > 4 then .error (.derError "tag too large")
      else if octet.toNat ≥ 0x80 then
        readHighTag b rounds (p + 1) (tag * 128 + octet.toNat % 128) (count + 1)
      else .ok (tag * 128 + octet.toNat % 128, p + 1)

/-- The tag number whose identifier octet `first` is before `p`, and the offset after it. -/
def readTag (b : Bytes) (first : UInt8) (p : Nat) : Js (Nat × Nat) :=
  -- Low tag numbers are in the identifier octet itself.
  if first.toNat % 32 = 0x1f then do
    let (tag, p) ← readHighTag b 5 p 0 0
    if tag < 0x1f then .error (.derError "non-minimal tag") else .ok (tag, p)
  else .ok (first.toNat % 32, p)

/-- The length at `p` and the offset after it. -/
def readLength (b : Bytes) (p : Nat) : Js (Nat × Nat) :=
  match b[p]? with
  | none => .error (.derError "truncated length")
  | some octet =>
    if octet.toNat = 0x80 then .error (.derError "indefinite length")
    else if octet.toNat > 0x80 then
      let n := octet.toNat % 128
      if n > 4 then .error (.derError "length too large")
      else if p + 1 + n > b.length then .error (.derError "truncated length")
      else
        let len := BigEndian.value (subarray b (p + 1) (p + 1 + n))
        -- The long form is for lengths that need it, without leading zeros.
        if n = 1 ∧ len < 0x80 then .error (.derError "non-minimal length")
        else if n > 1 ∧ len < 2 ^ (8 * (n - 1)) then .error (.derError "non-minimal length")
        else .ok (len, p + 1 + n)
    else .ok (octet.toNat, p + 1)

/-- Reads one TLV at `offset`; returns it and the offset after it. -/
def readTlv (b : Bytes) (offset : Nat) : Js (Tlv × Nat) :=
  match b[offset]? with
  | none => .error (.derError "unexpected end of data")
  | some first => do
    let (tag, p) ← readTag b first (offset + 1)
    let (len, p) ← readLength b p
    if p + len > b.length then .error (.derError "truncated content")
    else .ok ({
      cls := .ofBits (first.toNat / 64)
      constructed := first.toNat / 32 % 2 = 1
      tag := tag
      raw := subarray b offset (p + len)
      content := subarray b p (p + len) }, p + len)

/-- Parses exactly one TLV occupying the whole buffer. -/
def parseSingle (b : Bytes) : Js Tlv := do
  let (tlv, stop) ← readTlv b 0
  if stop ≠ b.length then .error (.derError "extra data after element") else .ok tlv

/-- The elements from offset `p` on. Each one is at least two octets long, so the length of
the content bounds the rounds. -/
def childrenFrom (content : Bytes) : Nat → Nat → Js (List Tlv)
  | 0, p => if p < content.length then .error (.derError "unexpected end of data") else .ok []
  | rounds + 1, p =>
    if p < content.length then do
      let (c, next) ← readTlv content p
      let out ← childrenFrom content rounds next
      .ok (c :: out)
    else .ok []

/-- Parses the content of a constructed element into its children. -/
def children (t : Tlv) : Js (List Tlv) :=
  if t.constructed then childrenFrom t.content t.content.length 0
  else .error (.derError "primitive element has no children")

/-- `isUniversal(t, tag)` or, with a constructed bit, `isUniversal(t, tag, constructed)`. -/
def isUniversal (t : Tlv) (tag : Nat) (constructed : Option Bool) : Bool :=
  t.cls = .universal && t.tag = tag && (constructed = none || constructed = some t.constructed)

def expect (t : Tlv) (tag : Nat) (what : String) (constructed : Option Bool) : Js Tlv :=
  if isUniversal t tag constructed then .ok t
  else .error (.derError ("expected " ++ what))

def sequence (t : Tlv) (what : String) : Js (List Tlv) := do
  children (← expect t U.sequence what (some true))

def derSet (t : Tlv) (what : String) : Js (List Tlv) := do
  children (← expect t U.set what (some true))

def checkMinimalInteger : Bytes → Js Unit
  | [] => .error (.derError "empty INTEGER")
  | [_] => .ok ()
  | b :: c :: _ =>
    if b.toNat = 0 ∧ c.toNat < 0x80 then .error (.derError "non-minimal INTEGER")
    else if b.toNat = 0xff ∧ c.toNat ≥ 0x80 then .error (.derError "non-minimal INTEGER")
    else .ok ()

/-- Signed big-endian two's complement content of an element with universal tag `tag`. -/
def integerValueAs (t : Tlv) (tag : Nat) : Js Int :=
  if t.cls ≠ .universal ∨ t.tag ≠ tag ∨ t.constructed then
    .error (.derError (if tag = U.integer then "expected INTEGER" else "expected ENUMERATED"))
  else do
    checkMinimalInteger t.content
    -- The top bit of the first octet is the sign.
    let v : Int := BigEndian.value t.content
    .ok (if (t.content.headD 0).toNat ≥ 0x80 then v - 256 ^ t.content.length else v)

/-- `integerValue(t)`. -/
def integerValue (t : Tlv) : Js Int := integerValueAs t U.integer

def booleanValue (t : Tlv) : Js Bool := do
  let t ← expect t U.boolean "BOOLEAN" (some false)
  match t.content with
  | [b] => .ok (b.toNat ≠ 0)
  | _ => .error (.derError "BOOLEAN length")

def octetString (t : Tlv) : Js Bytes := do
  let t ← expect t U.octetString "OCTET STRING" (some false)
  .ok t.content

/-- BIT STRING content without the unused-bits octet; unused bits are masked out. -/
def bitString (t : Tlv) : Js Bytes := do
  let t ← expect t U.bitString "BIT STRING" (some false)
  match t.content with
  | [] => .error (.derError "empty BIT STRING")
  | unused :: body =>
    if unused.toNat > 7 then .error (.derError "BIT STRING unused bits")
    else
      match body.getLast? with
      | none => .ok body
      | some last =>
        -- The unused bits are the low ones of the last octet.
        let kept := last.toNat - last.toNat % 2 ^ unused.toNat
        .ok (body.dropLast ++ [UInt8.ofNat kept])

/-- The loop of `oidValue`: the dotted parts of the remaining content. -/
def oidLoop : Bytes → Nat → Bool → Bool → Js (List JsString)
  | [], _, _, inSub => if inSub then .error (.derError "truncated OID") else .ok []
  | o :: rest, v, first, inSub =>
    if inSub = false ∧ o.toNat = 0x80 then
      .error (.derError "non-minimal OID subidentifier")
    else
      let v := v * 128 + o.toNat % 128
      if o.toNat ≥ 0x80 then oidLoop rest v first true
      else do
        let parts :=
          -- The first subidentifier holds two arcs.
          if first then
            if v < 40 then [natToString 10 0, natToString 10 v]
            else if v < 80 then [natToString 10 1, natToString 10 (v - 40)]
            else [natToString 10 2, natToString 10 (v - 80)]
          else [natToString 10 v]
        let more ← oidLoop rest 0 false false
        .ok (parts ++ more)

def oidValue (t : Tlv) : Js JsString := do
  let t ← expect t U.oid "OBJECT IDENTIFIER" (some false)
  match t.content with
  | [] => .error (.derError "empty OID")
  | content => do
    let parts ← oidLoop content 0 true false
    .ok (join (js ".") parts)

/-! ### Times -/

def isDigit (b : UInt8) : Bool := 48 ≤ b.toNat && b.toNat ≤ 57

/-- `Number(text)` of a run of digits. -/
def digitsValue (text : Bytes) : Nat := text.foldl (fun v b => v * 10 + (b.toNat - 48)) 0

/-- The number written in `text` at `[start, start + width)`. -/
def field (text : Bytes) (start width : Nat) : Nat := digitsValue (subarray text start (start + width))

def utc (y : Int) (mo d h mi s : Nat) : Js Int :=
  if mo < 1 ∨ mo > 12 ∨ d < 1 ∨ d > 31 ∨ h > 23 ∨ mi > 59 ∨ s > 60 then
    .error (.derError "invalid time")
  else
    let ms := Date.utc y (mo - 1) d h mi s
    match Date.ofTime ms with
    | none => .error (.derError "invalid date")
    | some check =>
      if check.month ≠ (mo : Int) - 1 ∨ check.day ≠ d then .error (.derError "invalid date")
      else .ok ms

/-- The fraction digits in what follows the seconds of a GeneralizedTime. -/
def fractionDigits : Bytes → Option Bytes
  | [] => none
  | c :: rest =>
    if c.toNat = 90 then if rest = [] then some [] else none
    else if c.toNat = 46 ∧ rest.getLast? = some 90 then
      let digits := rest.dropLast
      if 1 ≤ digits.length ∧ digits.length ≤ 3 ∧ digits.all isDigit then some digits else none
    else none

/-- Number of milliseconds since the epoch for UTCTime or GeneralizedTime (DER profile). -/
def timeValue (t : Tlv) : Js Int :=
  let text := t.content
  if isUniversal t U.utcTime (some false) then
    if text.length = 13 ∧ (text.take 12).all isDigit ∧ text.drop 12 = [90] then
      let yy := field text 0 2
      -- Two-digit years are of 1950 to 2049.
      let year := if yy ≥ 50 then 1900 + yy else 2000 + yy
      utc year (field text 2 2) (field text 4 2) (field text 6 2) (field text 8 2) (field text 10 2)
    else .error (.derError "malformed UTCTime")
  else if isUniversal t U.generalizedTime (some false) then
    match fractionDigits (text.drop 14) with
    | none => .error (.derError "malformed GeneralizedTime")
    | some digits =>
      if (text.take 14).all isDigit then do
        let ms ← utc (field text 0 4) (field text 4 2) (field text 6 2) (field text 8 2)
          (field text 10 2) (field text 12 2)
        -- `padEnd(3, "0")`, and no fraction adds nothing
        .ok (ms + digitsValue (digits ++ List.replicate (3 - digits.length) 48))
      else .error (.derError "malformed GeneralizedTime")
  else .error (.derError "expected Time")

/-- Equality by length and the accumulated difference of the octets. -/
def bytesEqual (a b : Bytes) : Bool :=
  if a.length ≠ b.length then false
  else (List.zipWith (· ^^^ ·) a b).foldl (· ||| ·) 0 = 0

private theorem foldl_or_eq_zero_iff (xs : Bytes) (diff : UInt8) :
    xs.foldl (· ||| ·) diff = 0 ↔ diff = 0 ∧ ∀ x ∈ xs, x = 0 := by
  induction xs generalizing diff with
  | nil => simp
  | cons x xs ih => simp [ih, and_assoc]

private theorem zipWith_xor_zero_iff (a b : Bytes) (same : a.length = b.length) :
    (∀ x ∈ List.zipWith (· ^^^ ·) a b, x = 0) ↔ a = b := by
  induction a generalizing b with
  | nil => cases b <;> simp_all
  | cons x a ih =>
    cases b with
    | nil => simp at same
    | cons y b => simp [ih b (by simpa using same)]

@[simp] theorem bytesEqual_iff (a b : Bytes) : bytesEqual a b = true ↔ a = b := by
  simp only [bytesEqual]
  split
  next differ =>
    simp only [Bool.false_eq_true, false_iff]
    rintro rfl
    exact differ rfl
  next same =>
    rw [decide_eq_true_iff, foldl_or_eq_zero_iff, zipWith_xor_zero_iff a b (by omega)]
    simp

theorem bytesEqual_eq_decide (a b : Bytes) : bytesEqual a b = decide (a = b) := by
  rw [Bool.eq_iff_iff, bytesEqual_iff, decide_eq_true_iff]

end UncrackableL5

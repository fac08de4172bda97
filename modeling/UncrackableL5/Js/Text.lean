import UncrackableL5.Js.Exception
import Mathlib.Data.List.Induction
import Mathlib.Data.Nat.Digits.Lemmas

/-!
# Strings

A string is its list of UTF-16 code units, so lone surrogates are values like any other.
-/
namespace UncrackableL5

/-- A `Uint8Array`. -/
abbrev Bytes := List UInt8

/-- A string: its UTF-16 code units. -/
abbrev JsString := List UInt16

/-- The code units of a Unicode scalar value. -/
def utf16 (codePoint : Nat) : JsString :=
  if codePoint < 0x10000 then [UInt16.ofNat codePoint]
  else [UInt16.ofNat (0xD800 + (codePoint - 0x10000) / 0x400),
    UInt16.ofNat (0xDC00 + (codePoint - 0x10000) % 0x400)]

/-- A string literal of the source. -/
def js (literal : String) : JsString := literal.toList.flatMap fun c => utf16 c.toNat

/-- `String.fromCharCode(...bytes)`. -/
def fromCharCodes (bytes : Bytes) : JsString := bytes.map fun b => UInt16.ofNat b.toNat

/-- `String.fromCodePoint(n)`; surrogate code points are accepted. -/
def fromCodePoint (n : Int) : Js JsString :=
  if 0 ≤ n ∧ n ≤ 0x10FFFF then .ok (utf16 n.toNat)
  else .error (.rangeError "Invalid code point")

/-- WhiteSpace and LineTerminator, the characters of `trim` and of `\s`. -/
def isSpace (u : UInt16) : Bool :=
  let n := u.toNat
  (9 ≤ n && n ≤ 13) || n == 0x20 || n == 0xA0 || n == 0x1680 || (0x2000 ≤ n && n ≤ 0x200A) ||
    n == 0x2028 || n == 0x2029 || n == 0x202F || n == 0x205F || n == 0x3000 || n == 0xFEFF

def trim (s : JsString) : JsString :=
  ((s.dropWhile isSpace).reverse.dropWhile isSpace).reverse

/-- `s.replace(/\s+/g, " ")`; `inRun` says that the run before `s` was replaced already. -/
def collapseSpaces (inRun : Bool) : JsString → JsString
  | [] => []
  | u :: rest =>
    if isSpace u then
      if inRun then collapseSpaces true rest else 0x20 :: collapseSpaces true rest
    else u :: collapseSpaces false rest

/-- `s.includes(needle)`. -/
def includes (s needle : JsString) : Bool := s.tails.any fun tail => needle.isPrefixOf tail

def asciiUpper (u : UInt16) : UInt16 := if 97 ≤ u.toNat ∧ u.toNat ≤ 122 then u - 32 else u

def asciiLower (u : UInt16) : UInt16 := if 65 ≤ u.toNat ∧ u.toNat ≤ 90 then u + 32 else u

/-- `needle.test(s)` of a lowercase ASCII pattern without operators, with the flag `i`. -/
def includesIgnoringCase (s needle : JsString) : Bool :=
  s.tails.any fun tail => needle.isPrefixOf (tail.map asciiLower)

/-- The Unicode case tables of the JavaScript engine, consulted for text outside ASCII. -/
structure CaseTables where
  upper : JsString → JsString
  lower : JsString → JsString

def isAscii (s : JsString) : Bool := s.all fun u => u.toNat < 128

def toUpperCase (tables : CaseTables) (s : JsString) : JsString :=
  if isAscii s then s.map asciiUpper else tables.upper s

def toLowerCase (tables : CaseTables) (s : JsString) : JsString :=
  if isAscii s then s.map asciiLower else tables.lower s

/-! ### Numerals -/

/-- The numeral of a digit below 16. -/
def digitUnit (d : Nat) : UInt16 := UInt16.ofNat (if d < 10 then 48 + d else 87 + d)

@[simp] theorem digitUnit_toNat {d : Nat} (small : d < 16) :
    (digitUnit d).toNat = if d < 10 then 48 + d else 87 + d := by
  simp only [digitUnit]
  split <;> simp <;> omega

theorem digitUnit_injective {d e : Nat} (hd : d < 16) (he : e < 16)
    (same : digitUnit d = digitUnit e) : d = e := by
  have units := congrArg UInt16.toNat same
  rw [digitUnit_toNat hd, digitUnit_toNat he] at units
  split at units <;> split at units <;> omega

/-- `n.toString(radix)` of a non-negative BigInt. -/
def natToString (radix n : Nat) : JsString :=
  if n = 0 then [digitUnit 0] else (Nat.digits radix n).reverse.map digitUnit

theorem mem_natToString {radix n : Nat} {u : UInt16} (base : 1 < radix)
    (member : u ∈ natToString radix n) : ∃ d < radix, u = digitUnit d := by
  simp only [natToString] at member
  split at member
  · exact ⟨0, by omega, List.mem_singleton.mp member⟩
  · obtain ⟨d, present, rfl⟩ := List.mem_map.mp member
    exact ⟨d, Nat.digits_lt_base base (List.mem_reverse.mp present), rfl⟩

theorem map_digitUnit_injective {ds es : List Nat} (first : ∀ d ∈ ds, d < 16)
    (second : ∀ e ∈ es, e < 16) (same : ds.map digitUnit = es.map digitUnit) : ds = es := by
  induction ds generalizing es with
  | nil => exact (List.map_eq_nil_iff.mp same.symm).symm
  | cons d ds ih =>
    cases es with
    | nil => cases same
    | cons e es =>
      obtain ⟨head, tail⟩ := List.cons.inj same
      rw [digitUnit_injective (first d (by simp)) (second e (by simp)) head,
        ih (fun x member => first x (by simp [member]))
          (fun x member => second x (by simp [member])) tail]

/-- The digits that are printed: those of Mathlib, and one for zero. -/
theorem natToString_eq_map {radix : Nat} (base : 1 < radix) (n : Nat) :
    ∃ ds : List Nat, natToString radix n = ds.map digitUnit ∧ (∀ d ∈ ds, d < radix) ∧
      Nat.ofDigits radix ds.reverse = n := by
  by_cases zero : n = 0
  · refine ⟨[0], by rw [natToString, if_pos zero]; rfl, ?_, by simp [zero]⟩
    intro d member
    rw [List.mem_singleton.mp member]
    omega
  · refine ⟨(Nat.digits radix n).reverse, by rw [natToString, if_neg zero], ?_, ?_⟩
    · intro d member
      exact Nat.digits_lt_base base (List.mem_reverse.mp member)
    · rw [List.reverse_reverse, Nat.ofDigits_digits]

/-- A number is printed in one way, and no other number is printed so. -/
theorem natToString_inj {radix m n : Nat} (base : 1 < radix) (small : radix ≤ 16) :
    natToString radix m = natToString radix n ↔ m = n := by
  constructor
  · intro same
    obtain ⟨ds, first, below, rfl⟩ := natToString_eq_map base m
    obtain ⟨es, second, belowToo, rfl⟩ := natToString_eq_map base n
    rw [first, second] at same
    rw [map_digitUnit_injective (fun d member => (below d member).trans_le small)
      (fun e member => (belowToo e member).trans_le small) same]
  · rintro rfl
    rfl

theorem natToString_length_le_iff {radix v k : Nat} (base : 1 < radix) (positive : 0 < k) :
    (natToString radix v).length ≤ k ↔ v < radix ^ k := by
  by_cases zero : v = 0
  · have : 0 < radix ^ k := Nat.pow_pos (by omega)
    rw [natToString, if_pos zero]
    simp only [List.length_singleton]
    omega
  · rw [natToString, if_neg zero, List.length_map, List.length_reverse,
      Nat.digits_length_le_iff base]

/-- The number that a run of decimal digits writes. -/
def decimalNumber (digits : JsString) : Nat := digits.foldl (fun v u => v * 10 + (u.toNat - 48)) 0

theorem decimalNumber_snoc (s : JsString) (u : UInt16) :
    decimalNumber (s ++ [u]) = decimalNumber s * 10 + (u.toNat - 48) := by
  simp [decimalNumber]

theorem decimalNumber_append (s t : JsString) :
    decimalNumber (s ++ t) = decimalNumber s * 10 ^ t.length + decimalNumber t := by
  induction t using List.reverseRecOn with
  | nil => simp [decimalNumber]
  | append_singleton t u ih =>
    rw [← List.append_assoc, decimalNumber_snoc, decimalNumber_snoc, ih, List.length_append,
      List.length_singleton, Nat.pow_succ]
    ring

theorem decimalNumber_lt (s : JsString) (digits : ∀ u ∈ s, 48 ≤ u.toNat ∧ u.toNat ≤ 57) :
    decimalNumber s < 10 ^ s.length := by
  induction s using List.reverseRecOn with
  | nil => simp [decimalNumber]
  | append_singleton s u ih =>
    have last := digits u (by simp)
    have front := ih fun v member => digits v (by simp [member])
    rw [decimalNumber_snoc, List.length_append, List.length_singleton, Nat.pow_succ]
    omega

theorem decimalNumber_natToString (n : Nat) : decimalNumber (natToString 10 n) = n := by
  obtain ⟨ds, printed, small, number⟩ := natToString_eq_map (show 1 < 10 by omega) n
  rw [printed, ← number]
  clear printed number
  induction ds using List.reverseRecOn with
  | nil => rfl
  | append_singleton ds d ih =>
    have last := small d (by simp)
    rw [List.map_append, List.map_singleton, decimalNumber_snoc,
      ih fun e member => small e (by simp [member]), digitUnit_toNat (by omega), if_pos last,
      List.reverse_append, List.reverse_singleton, List.singleton_append, Nat.ofDigits_cons]
    omega

/-- `v.toString(radix)` of a BigInt. -/
def bigIntToString (radix : Nat) (v : Int) : JsString :=
  if v < 0 then 45 :: natToString radix v.natAbs else natToString radix v.natAbs

/-- `hex`: two lowercase digits an octet. -/
def hex (b : Bytes) : JsString :=
  b.flatMap fun x => [digitUnit (x.toNat / 16), digitUnit (x.toNat % 16)]

theorem hex_injective {a b : Bytes} (same : hex a = hex b) : a = b := by
  induction a generalizing b with
  | nil =>
    cases b with
    | nil => rfl
    | cons y b => cases same
  | cons x a ih =>
    cases b with
    | nil => cases same
    | cons y b =>
      simp only [hex, List.flatMap_cons, List.cons_append, List.nil_append, List.cons.injEq] at same
      obtain ⟨high, low, rest⟩ := same
      have hx := x.toNat_lt
      have hy := y.toNat_lt
      have high := digitUnit_injective (by omega) (by omega) high
      have low := digitUnit_injective (by omega) (by omega) low
      have first : x = y := by
        rw [← UInt8.toNat_inj]
        omega
      rw [first, ih rest]

/-- `/^[0-9a-f]{64}$/.test(s)` -/
def isSha256Hex (s : JsString) : Bool :=
  s.length = 64 && s.all fun u =>
    (48 ≤ u.toNat && u.toNat ≤ 57) || (97 ≤ u.toNat && u.toNat ≤ 102)

private theorem hex_length (b : Bytes) : (hex b).length = 2 * b.length := by
  induction b with
  | nil => rfl
  | cons x b ih =>
    simp only [hex, List.flatMap_cons, List.length_append, List.length_cons,
      List.length_nil] at ih ⊢
    omega

theorem isSha256Hex_hex {b : Bytes} (octets : b.length = 32) : isSha256Hex (hex b) = true := by
  have digit : ∀ d < 16, (48 ≤ (digitUnit d).toNat && (digitUnit d).toNat ≤ 57) ||
      (97 ≤ (digitUnit d).toNat && (digitUnit d).toNat ≤ 102) := by decide
  have size : (hex b).length = 64 := by rw [hex_length, octets]
  simp only [isSha256Hex, size, decide_true, Bool.true_and, List.all_eq_true]
  intro u member
  obtain ⟨x, -, unit⟩ := List.mem_flatMap.mp member
  have bound := x.toNat_lt
  rcases List.mem_pair.mp unit with rfl | rfl
  · exact digit _ (by omega)
  · exact digit _ (by omega)

/-- `parts.join(separator)`. -/
def join (separator : JsString) (parts : List JsString) : JsString :=
  (parts.intersperse separator).flatten

/-- A unit of a joined text is one of the separator or of a part. -/
theorem mem_join {separator : JsString} {parts : List JsString} {u : UInt16}
    (member : u ∈ join separator parts) : u ∈ separator ∨ ∃ part ∈ parts, u ∈ part := by
  obtain ⟨piece, present, inside⟩ := List.mem_flatten.mp member
  have either : piece = separator ∨ piece ∈ parts := by
    clear member inside
    induction parts with
    | nil => simp at present
    | cons s rest ih =>
      cases rest with
      | nil => exact Or.inr (by simpa using present)
      | cons next rest =>
        simp only [List.intersperse_cons_cons, List.mem_cons] at present
        rcases present with rfl | rfl | present
        · simp
        · simp
        · exact (ih present).imp id fun member => List.mem_cons_of_mem s member
  rcases either with rfl | listed
  · exact Or.inl inside
  · exact Or.inr ⟨piece, listed, inside⟩

/-- A text is split at the first occurrence of a unit in one way only. -/
theorem append_separator_inj {u : UInt16} {xs ys as bs : JsString} (first : u ∉ xs)
    (second : u ∉ ys) (same : xs ++ u :: as = ys ++ u :: bs) : xs = ys ∧ as = bs := by
  induction xs generalizing ys with
  | nil =>
    cases ys with
    | nil => exact ⟨rfl, (List.cons.inj same).2⟩
    | cons y ys =>
      obtain ⟨rfl, -⟩ := List.cons.inj same
      simp at second
  | cons x xs ih =>
    cases ys with
    | nil =>
      obtain ⟨rfl, -⟩ := List.cons.inj same
      simp at first
    | cons y ys =>
      obtain ⟨rfl, rest⟩ := List.cons.inj same
      obtain ⟨rfl, rfl⟩ := ih (fun member => first (List.mem_cons_of_mem _ member))
        (fun member => second (List.mem_cons_of_mem _ member)) rest
      exact ⟨rfl, rfl⟩

theorem join_cons_cons (separator x y : JsString) (rest : List JsString) :
    join separator (x :: y :: rest) = x ++ separator ++ join separator (y :: rest) := by
  simp [join, List.append_assoc]

/-- Parts that do not hold the separator are told apart in the joined text. -/
theorem join_inj {u : UInt16} {xs ys : List JsString} (first : ∀ x ∈ xs, u ∉ x)
    (second : ∀ y ∈ ys, u ∉ y) (nonempty : xs ≠ []) (nonemptyToo : ys ≠ [])
    (same : join [u] xs = join [u] ys) : xs = ys := by
  -- A text with another part after its first one holds the separator.
  have alone : ∀ (x y : JsString) (rest : List JsString), u ∉ x → x ≠ y ++ [u] ++ rest.flatten := by
    intro x y rest clean same
    rw [same] at clean
    simp at clean
  induction xs generalizing ys with
  | nil => exact absurd rfl nonempty
  | cons x xs ih =>
    obtain ⟨y, ys, rfl⟩ := List.exists_cons_of_ne_nil nonemptyToo
    cases xs with
    | nil =>
      cases ys with
      | nil => simpa [join] using same
      | cons z ys =>
        rw [join_cons_cons] at same
        simp only [join, List.intersperse_singleton, List.flatten_singleton] at same
        exact absurd same (alone x y _ (first x (by simp)))
    | cons w xs =>
      cases ys with
      | nil =>
        rw [join_cons_cons] at same
        simp only [join, List.intersperse_singleton, List.flatten_singleton] at same
        exact absurd same.symm (alone y x _ (second y (by simp)))
      | cons z ys =>
        rw [join_cons_cons, join_cons_cons, List.append_assoc, List.append_assoc,
          List.singleton_append, List.singleton_append] at same
        obtain ⟨rfl, rest⟩ := append_separator_inj (first x (by simp)) (second y (by simp)) same
        rw [ih (fun v member => first v (by simp [member]))
          (fun v member => second v (by simp [member])) (List.cons_ne_nil w xs)
          (List.cons_ne_nil z ys) rest]

/-! ### UTF-8 -/

/-- A continuation octet. -/
def isTail (b : UInt8) : Bool := 0x80 ≤ b.toNat && b.toNat ≤ 0xBF

/-- The first scalar value of a well-formed UTF-8 string and the octets after it. -/
def utf8Next : Bytes → Option (Nat × Bytes)
  | [] => none
  | a :: rest =>
    let n := a.toNat
    if n < 0x80 then some (n, rest)
    else if 0xC2 ≤ n ∧ n ≤ 0xDF then
      match rest with
      | b :: rest =>
        if isTail b then some ((n % 0x20) * 0x40 + b.toNat % 0x40, rest) else none
      | _ => none
    else if 0xE0 ≤ n ∧ n ≤ 0xEF then
      match rest with
      | b :: c :: rest =>
        if isTail b ∧ isTail c ∧ (n = 0xE0 → 0xA0 ≤ b.toNat) ∧ (n = 0xED → b.toNat ≤ 0x9F) then
          some ((n % 0x10) * 0x1000 + (b.toNat % 0x40) * 0x40 + c.toNat % 0x40, rest)
        else none
      | _ => none
    else if 0xF0 ≤ n ∧ n ≤ 0xF4 then
      match rest with
      | b :: c :: d :: rest =>
        if isTail b ∧ isTail c ∧ isTail d ∧
            (n = 0xF0 → 0x90 ≤ b.toNat) ∧ (n = 0xF4 → b.toNat ≤ 0x8F) then
          some ((n % 0x08) * 0x40000 + (b.toNat % 0x40) * 0x1000 + (c.toNat % 0x40) * 0x40 +
            d.toNat % 0x40, rest)
        else none
      | _ => none
    else none

/-- The strings before a malformed sequence; the number of octets bounds the steps. -/
def utf8Loop : Nat → Bytes → Option JsString
  | _, [] => some []
  | 0, _ => none
  | steps + 1, b =>
    match utf8Next b with
    | some (n, rest) => (utf8Loop steps rest).map (utf16 n ++ ·)
    | none => none

/-- `new TextDecoder("utf-8", { fatal: true, ignoreBOM: true }).decode(b)`. -/
def utf8Decode (b : Bytes) : Js JsString :=
  match utf8Loop b.length b with
  | some s => .ok s
  | none => .error (.typeError "The encoded data was not valid for encoding utf-8")

/-- The octets of a Unicode scalar value. -/
def utf8Octets (n : Nat) : Bytes :=
  if n < 0x80 then [UInt8.ofNat n]
  else if n < 0x800 then [UInt8.ofNat (0xC0 + n / 0x40), UInt8.ofNat (0x80 + n % 0x40)]
  else if n < 0x10000 then
    [UInt8.ofNat (0xE0 + n / 0x1000), UInt8.ofNat (0x80 + n / 0x40 % 0x40),
      UInt8.ofNat (0x80 + n % 0x40)]
  else
    [UInt8.ofNat (0xF0 + n / 0x40000), UInt8.ofNat (0x80 + n / 0x1000 % 0x40),
      UInt8.ofNat (0x80 + n / 0x40 % 0x40), UInt8.ofNat (0x80 + n % 0x40)]

/-- `new TextEncoder().encode(s)`: a lone surrogate becomes U+FFFD. -/
def utf8Encode : JsString → Bytes
  | [] => []
  | high :: low :: rest =>
    let h := high.toNat
    let l := low.toNat
    if 0xD800 ≤ h ∧ h ≤ 0xDBFF ∧ 0xDC00 ≤ l ∧ l ≤ 0xDFFF then
      utf8Octets (0x10000 + (h - 0xD800) * 0x400 + (l - 0xDC00)) ++ utf8Encode rest
    else if 0xD800 ≤ h ∧ h ≤ 0xDFFF then utf8Octets 0xFFFD ++ utf8Encode (low :: rest)
    else utf8Octets h ++ utf8Encode (low :: rest)
  | [u] =>
    if 0xD800 ≤ u.toNat ∧ u.toNat ≤ 0xDFFF then utf8Octets 0xFFFD else utf8Octets u.toNat

/-- ASCII text is encoded octet for unit. -/
theorem utf8Encode_ascii (s : JsString) (ascii : ∀ u ∈ s, u.toNat < 0x80) :
    utf8Encode s = s.map fun u => UInt8.ofNat u.toNat := by
  induction s with
  | nil => rfl
  | cons u rest ih =>
    have small := ascii u (by simp)
    have tail := ih fun x member => ascii x (by simp [member])
    cases rest with
    | nil =>
      rw [utf8Encode, if_neg (by omega), utf8Octets, if_pos small]
      rfl
    | cons v rest =>
      rw [utf8Encode, if_neg (by omega), if_neg (by omega), utf8Octets, if_pos small, tail]
      rfl

private theorem utf8Loop_ascii (s : JsString) (ascii : ∀ u ∈ s, u.toNat < 0x80) :
    utf8Loop (s.map fun u => UInt8.ofNat u.toNat).length (s.map fun u => UInt8.ofNat u.toNat) =
      some s := by
  induction s with
  | nil => rfl
  | cons u rest ih =>
    have small := ascii u (by simp)
    have octet : (UInt8.ofNat u.toNat).toNat = u.toNat := by
      rw [UInt8.toNat_ofNat']
      omega
    have unit : utf16 u.toNat = [u] := by
      rw [utf16, if_pos (by omega)]
      simp
    simp only [List.map_cons, List.length_cons, utf8Loop, utf8Next, octet, small, ↓reduceIte,
      ih fun x member => ascii x (by simp [member]), Option.map_some, unit, List.cons_append,
      List.nil_append]

/-- ASCII text is decoded from its encoding. -/
theorem utf8Decode_utf8Encode (s : JsString) (ascii : ∀ u ∈ s, u.toNat < 0x80) :
    utf8Decode (utf8Encode s) = .ok s := by
  rw [utf8Encode_ascii s ascii, utf8Decode, utf8Loop_ascii s ascii]

/-- Text in ASCII is read back from its octets. -/
theorem fromCharCodes_ascii {s : JsString} (ascii : ∀ u ∈ s, u.toNat < 0x80) :
    fromCharCodes (s.map fun u => UInt8.ofNat u.toNat) = s := by
  rw [fromCharCodes, List.map_map]
  conv_rhs => rw [← List.map_id s]
  apply List.map_congr_left
  intro u member
  have small := ascii u member
  rw [← UInt16.toNat_inj]
  simp
  omega

/-- The octets that one replacement character stands for, at the start of an ill-formed string:
the longest start of a well-formed sequence, or a single octet. -/
def illFormedLength : Bytes → Nat
  | a :: b :: rest =>
    let n := a.toNat
    if 0xE0 ≤ n ∧ n ≤ 0xF4 ∧ isTail b ∧ (n = 0xE0 → 0xA0 ≤ b.toNat) ∧ (n = 0xED → b.toNat ≤ 0x9F) ∧
        (n = 0xF0 → 0x90 ≤ b.toNat) ∧ (n = 0xF4 → b.toNat ≤ 0x8F) then
      if 0xF0 ≤ n ∧ rest.head?.any isTail then 3 else 2
    else 1
  | _ => 1

/-- The strings before and after replacements; the number of octets bounds the steps. -/
def utf8LossyLoop : Nat → Bytes → JsString
  | _, [] => []
  | 0, _ => []
  | steps + 1, b =>
    match utf8Next b with
    | some (n, rest) => utf16 n ++ utf8LossyLoop steps rest
    | none => 0xFFFD :: utf8LossyLoop steps (b.drop (illFormedLength b))

/-- `new TextDecoder().decode(b)`: a byte order mark is dropped. -/
def utf8DecodeLossy (b : Bytes) : JsString :=
  if b.take 3 = [0xEF, 0xBB, 0xBF] then utf8LossyLoop b.length (b.drop 3)
  else utf8LossyLoop b.length b

end UncrackableL5

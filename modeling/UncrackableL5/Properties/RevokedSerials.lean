import UncrackableL5.Properties.ChainShape
import UncrackableL5.Properties.SignedFields
import UncrackableL5.Server.State

/-!
# Matching revoked serials

A certificate's `serialHex` and a normalised feed key are both the lowercase hexadecimal numeral
of a number without leading zeros, so they are equal exactly when the numbers are. Storage joins
the serials with newlines, which no numeral contains.

## Main results

- `storedSerials_joinSerials`: what is stored is read back, the empty list included.
- `matchesFeed_of_parsed`: the parsed list contains a certificate's serial exactly when the feed
  has a key with its value.
-/
namespace UncrackableL5

/-! ### Hexadecimal numerals -/

/-- The value of a hexadecimal digit of either case. -/
def hexDigit (u : UInt16) : Nat :=
  if u.toNat ≤ 57 then u.toNat - 48 else if u.toNat ≤ 70 then u.toNat - 55 else u.toNat - 87

/-- The number that a run of hexadecimal digits writes. -/
def hexValue (digits : JsString) : Nat := digits.foldl (fun v u => v * 16 + hexDigit u) 0

private theorem isHexUnit_iff (u : UInt16) :
    isHexUnit u = true ↔ 48 ≤ u.toNat ∧ u.toNat ≤ 57 ∨ 97 ≤ u.toNat ∧ u.toNat ≤ 102 ∨
      65 ≤ u.toNat ∧ u.toNat ≤ 70 := by
  simp [isHexUnit, or_assoc]

private theorem hexDigit_lt {u : UInt16} (digit : isHexUnit u = true) : hexDigit u < 16 := by
  rw [isHexUnit_iff] at digit
  simp only [hexDigit]
  split
  · omega
  · split <;> omega

private theorem asciiLower_eq {u : UInt16} (digit : isHexUnit u = true) :
    asciiLower u = digitUnit (hexDigit u) := by
  have small := hexDigit_lt digit
  rw [← UInt16.toNat_inj, digitUnit_toNat small]
  rw [isHexUnit_iff] at digit
  simp only [asciiLower, hexDigit] at small ⊢
  split
  next upper =>
    rw [UInt16.toNat_add]
    simp only [UInt16.reduceToNat]
    split_ifs <;> omega
  next => split_ifs <;> omega

/-- Hexadecimal digits, most significant first, as Mathlib's little-endian digits. -/
private theorem hexValue_eq_ofDigits (digits : JsString) :
    hexValue digits = Nat.ofDigits 16 (digits.map hexDigit).reverse := by
  rw [Nat.ofDigits_eq_foldr, List.foldr_reverse, List.foldl_map, hexValue]
  congr 1
  funext v u
  simp [Nat.mul_comm, Nat.add_comm]

private theorem dropWhile_zeros (ds : List Nat) (small : ∀ d ∈ ds, d < 16) :
    (ds.map digitUnit).dropWhile (· = 48) = (ds.dropWhile (· = 0)).map digitUnit := by
  induction ds with
  | nil => rfl
  | cons d ds ih =>
    have digit : digitUnit d = 48 ↔ d = 0 := by
      rw [← UInt16.toNat_inj, digitUnit_toNat (small d (by simp))]
      simp only [UInt16.reduceToNat]
      split <;> omega
    simp only [List.map_cons, List.dropWhile_cons, digit, decide_eq_true_eq]
    split
    · exact ih fun x member => small x (by simp [member])
    · rfl

private theorem ofDigits_dropWhile_zeros (ds : List Nat) :
    Nat.ofDigits 16 (ds.dropWhile (· = 0)).reverse = Nat.ofDigits 16 ds.reverse := by
  induction ds with
  | nil => rfl
  | cons d ds ih =>
    rw [List.dropWhile_cons]
    split
    next zero =>
      rw [ih, List.reverse_cons, Nat.ofDigits_append]
      simp [of_decide_eq_true zero]
    next => rfl

/-- A digit list without leading zeros is the numeral of its value. -/
private theorem natToString_ofDigits (ds : List Nat) (small : ∀ d ∈ ds, d < 16)
    (nonempty : ds ≠ []) (leading : ds.head? ≠ some 0) :
    natToString 16 (Nat.ofDigits 16 ds.reverse) = ds.map digitUnit := by
  -- Mathlib's digits are little-endian, so the leading digit is their last.
  have reversed : ds.reverse ≠ [] := by simpa using nonempty
  have last : ∀ h : ds.reverse ≠ [], ds.reverse.getLast h ≠ 0 := by
    intro h zero
    rw [List.getLast_reverse] at zero
    rw [List.head?_eq_some_head (by simpa using h), zero] at leading
    exact leading rfl
  have digits := Nat.digits_ofDigits 16 (by omega) ds.reverse
    (fun d member => small d (List.mem_reverse.mp member)) last
  have positive : Nat.ofDigits 16 ds.reverse ≠ 0 := by
    intro zero
    rw [zero, Nat.digits_zero] at digits
    exact reversed digits.symm
  rw [natToString, if_neg positive, digits, List.reverse_reverse]

/-- A feed key is normalised to the numeral of its value, whatever its case and zeros. -/
theorem normaliseSerial_eq (tables : CaseTables) (key : JsString)
    (hexadecimal : key.all isHexUnit = true) :
    normaliseSerial tables key = natToString 16 (hexValue key) := by
  rw [List.all_eq_true] at hexadecimal
  have small : ∀ d ∈ key.map hexDigit, d < 16 := by
    intro d member
    obtain ⟨u, present, rfl⟩ := List.mem_map.mp member
    exact hexDigit_lt (hexadecimal u present)
  have ascii : isAscii key = true := by
    rw [isAscii, List.all_eq_true]
    intro u present
    have := (isHexUnit_iff u).mp (hexadecimal u present)
    simp only [decide_eq_true_eq]
    omega
  have lowered : toLowerCase tables key = (key.map hexDigit).map digitUnit := by
    rw [toLowerCase, if_pos ascii, List.map_map]
    exact List.map_congr_left fun u present => asciiLower_eq (hexadecimal u present)
  rw [normaliseSerial, lowered, dropWhile_zeros _ small, hexValue_eq_ofDigits,
    ← ofDigits_dropWhile_zeros]
  have leading : ((key.map hexDigit).dropWhile (· = 0)).head? ≠ some 0 := by
    intro zero
    have := List.head?_dropWhile_not (· = 0) (key.map hexDigit)
    rw [zero] at this
    simp at this
  have kept : ∀ d ∈ (key.map hexDigit).dropWhile (· = 0), d < 16 := fun d member =>
    small d ((List.dropWhile_sublist _).mem member)
  generalize (key.map hexDigit).dropWhile (· = 0) = ds at leading kept
  -- Nothing but zeros was there, and the code puts one back.
  by_cases empty : ds = []
  · subst empty
    rfl
  · rw [natToString_ofDigits ds kept empty leading]
    simp [empty]

/-! ### The feed -/

private theorem addEntry_eq_ok {tables : CaseTables} {out next : List JsString}
    {entry : JsString × Json} (added : addEntry tables out entry = .ok next) :
    isFeedKey entry.1 = true ∧ next = pushNew out (normaliseSerial tables entry.1) := by
  rw [addEntry, guard_eq_ok_iff, not_not] at added
  obtain ⟨key, added⟩ := added
  refine ⟨key, ?_⟩
  split at added
  next =>
    split at added
    next =>
      rw [guard_eq_ok_iff] at added
      exact (Except.ok.inj added.2).symm
    next => cases added
  next => cases added

private theorem hexadecimal_of_feedKey {key : JsString} (valid : isFeedKey key = true) :
    key.all isHexUnit = true := by
  simp only [isFeedKey, Bool.and_eq_true] at valid
  exact valid.2

private theorem mem_foldlM_addEntry {tables : CaseTables} {entries : List (JsString × Json)}
    {out serials : List JsString} (parsed : entries.foldlM (addEntry tables) out = .ok serials)
    (s : JsString) :
    s ∈ serials ↔ s ∈ out ∨ ∃ e ∈ entries, s = natToString 16 (hexValue e.1) := by
  induction entries generalizing out with
  | nil =>
    cases parsed
    simp
  | cons entry entries ih =>
    rw [List.foldlM_cons, bind_ok_iff] at parsed
    obtain ⟨next, added, parsed⟩ := parsed
    obtain ⟨valid, rfl⟩ := addEntry_eq_ok added
    rw [ih parsed, mem_pushNew, normaliseSerial_eq tables _ (hexadecimal_of_feedKey valid)]
    simp only [List.mem_cons, exists_eq_or_imp, or_assoc]

/-- The parsed set holds the numerals of the keys of the entries object. -/
theorem mem_parseFeed {engine : Engine} {body : JsString} {serials : List JsString}
    (parsed : parseFeed engine body = .ok serials) :
    ∃ entries, feedEntries engine body = .ok entries ∧
      ∀ s, s ∈ serials ↔ ∃ e ∈ entries, s = natToString 16 (hexValue e.1) := by
  rw [parseFeed, bind_ok_iff] at parsed
  obtain ⟨entries, found, parsed⟩ := parsed
  exact ⟨entries, found, fun s => by simpa using mem_foldlM_addEntry parsed s⟩

/-! ### Storage -/

/-- A serial as the feed parser leaves it. -/
def IsNumeral (s : JsString) : Prop := ∃ n, s = natToString 16 n

private theorem natToString_ne_nil (n : Nat) : natToString 16 n ≠ [] := by
  simp only [natToString]
  split
  · simp
  next positive => simpa using Nat.digits_ne_nil_iff_ne_zero.mpr positive

private theorem natToString_units {n : Nat} {u : UInt16} (member : u ∈ natToString 16 n) :
    48 ≤ u.toNat ∧ u.toNat < 0x80 := by
  obtain ⟨d, small, rfl⟩ := mem_natToString (by omega) member
  rw [digitUnit_toNat small]
  split <;> omega

theorem joinSerials_ascii (serials : List JsString) (numerals : ∀ s ∈ serials, IsNumeral s) :
    ∀ u ∈ joinSerials serials, u.toNat < 0x80 := by
  intro u member
  rcases mem_join member with newline | ⟨part, listed, inside⟩
  · rw [List.mem_singleton.mp newline]
    decide
  · obtain ⟨n, rfl⟩ := numerals part listed
    exact (natToString_units inside).2

theorem storedSerials_joinSerials (serials : List JsString)
    (numerals : ∀ s ∈ serials, IsNumeral s) :
    storedSerials (joinSerials serials) = serials := by
  cases serials with
  | nil => rfl
  | cons first rest =>
    have clean : ∀ s ∈ first :: rest, (10 : UInt16) ∉ s := by
      intro s member newline
      obtain ⟨n, rfl⟩ := numerals s member
      have := (natToString_units newline).1
      simp at this
    -- An empty text would be read as the empty list.
    have filled : joinSerials (first :: rest) ≠ [] := by
      obtain ⟨n, rfl⟩ := numerals first (by simp)
      have := natToString_ne_nil n
      cases rest <;> simp [joinSerials, join, this]
    rw [storedSerials, if_neg filled]
    exact List.splitOn_intercalate 10 clean (by simp)

theorem parseFeed_numerals {engine : Engine} {body : JsString} {serials : List JsString}
    (parsed : parseFeed engine body = .ok serials) : ∀ s ∈ sortStrings serials, IsNumeral s := by
  intro s member
  obtain ⟨entries, -, listed⟩ := mem_parseFeed parsed
  obtain ⟨e, -, same⟩ := (listed s).mp ((mem_sortStrings s serials).mp member)
  exact ⟨_, same⟩

/-! ### Certificates -/

theorem parseCertificate_serialHex {tables : CaseTables} {der : Bytes} {cert : Certificate}
    (parsed : parseCertificate tables der = .ok cert) :
    cert.serialHex = bigIntToString 16 cert.serial := by
  obtain ⟨_, _, _, -, -, -, rfl⟩ := parseCertificate_eq_ok parsed
  rfl

/-- The list contains a certificate's serial exactly when the body has a key with that value; a
negative serial is never in it. -/
def MatchesFeed (engine : Engine) (body : JsString) (listed : List JsString) : Prop :=
  ∃ entries, feedEntries engine body = .ok entries ∧
    ∀ tables der cert, parseCertificate tables der = .ok cert →
      (0 ≤ cert.serial → (listed.contains cert.serialHex = true ↔
        ∃ e ∈ entries, (hexValue e.1 : Int) = cert.serial)) ∧
      (cert.serial < 0 → listed.contains cert.serialHex = false)

theorem matchesFeed_of_parsed {engine : Engine} {body : JsString} {serials : List JsString}
    (parsed : parseFeed engine body = .ok serials) :
    MatchesFeed engine body (sortStrings serials) := by
  obtain ⟨entries, found, listed⟩ := mem_parseFeed parsed
  refine ⟨entries, found, fun tables der cert certified => ⟨?_, ?_⟩⟩
  · intro nonneg
    obtain ⟨n, same⟩ := Int.eq_ofNat_of_zero_le nonneg
    rw [List.contains_iff_mem, mem_sortStrings, listed, parseCertificate_serialHex certified,
      bigIntToString, if_neg (by omega), same, Int.natAbs_natCast]
    constructor
    · rintro ⟨e, member, equal⟩
      exact ⟨e, member, congrArg Nat.cast ((natToString_inj (by omega) le_rfl).mp equal).symm⟩
    · rintro ⟨e, member, equal⟩
      exact ⟨e, member, (natToString_inj (by omega) le_rfl).mpr (Int.natCast_inj.mp equal).symm⟩
  · intro negative
    rw [← Bool.not_eq_true, List.contains_iff_mem, mem_sortStrings, listed,
      parseCertificate_serialHex certified, bigIntToString, if_pos negative]
    rintro ⟨e, -, equal⟩
    -- A negative number is written with a sign, and no numeral has one.
    have sign : (45 : UInt16) ∈ natToString 16 (hexValue e.1) := by simp [← equal]
    have := (natToString_units sign).1
    simp at this

/-! ### A listed root -/

namespace Sample

def feedBody : JsString :=
  js "\x7b\"entries\":\x7b\"00CA11CAFE\":\x7b\"status\":\"REVOKED\"\x7d\x7d\x7d"

def emptyFeedBody : JsString := js "\x7b\"entries\":\x7b\x7d\x7d"

-- the two bodies, the length and the two stored texts that the samples parse and hash
def engine : Engine where
  tables := host.tables
  parseJson text :=
    if text = feedBody then
      some (.object [(js "entries", .object
        [(js "00CA11CAFE", .object [(js "status", .string (js "REVOKED"))])])])
    else if text = emptyFeedBody then some (.object [(js "entries", .object [])])
    else none
  number text := if text = js "0" then .finite 0 else .nan
  sha256 message :=
    unpackWords 32
      [if message = [] then 0xe3b0c44298fc1c149afbf4c8996fb92427ae41e4649b934ca495991b7852b855
      else if message = utf8Encode (js "ca11cafe") then
        0x4c0baeaf378c57200da46fdd6e2d9f6c2cc4dddfca3e92d2df8017419da75232
      else 0]

end Sample

end UncrackableL5

import UncrackableL5.Library.Pairing
import UncrackableL5.Properties.SignedFields

/-!
# Equality of distinguished names

A name is compared by one text for each attribute, in which a normalised string and the hexadecimal
octets of any other value share one space: the text `#` and the digits may be the one or the other.
So a string that spells the encoding of a value passes for it.

## Main results

- `namesEqual_iff_paired`: what the code compares, in terms of the elements of the names.
- `namesEqual_exact_iff`: it is the intended equality unless a string passes for another value.
- `namesEqual_impersonated`: two names that pass for one another.
-/
namespace UncrackableL5

open Pairing DerWriter

/-! ### The elements of a name -/

/-- An attribute as it stands in a name. -/
structure NameEntry where
  oid : JsString
  value : Tlv
  deriving DecidableEq

def readEntry (atv : Tlv) : Js NameEntry := do
  match ← sequence atv "AttributeTypeAndValue" with
  | [oidT, valT] => do .ok { oid := ← oidValue oidT, value := valT }
  | _ => .error (.derError "AttributeTypeAndValue")

def rdnEntries (rdn : Tlv) : Js (List NameEntry) := do (← derSet rdn "RDN").mapM readEntry

/-- The attributes of a name, RDN by RDN. -/
def nameEntries (t : Tlv) : Js (List (List NameEntry)) := do
  (← sequence t "Name").mapM rdnEntries

namespace NameEntry

/-- A PrintableString or UTF8String of a keyword type. -/
def isString (e : NameEntry) : Bool :=
  canonicalStringTypes.contains e.oid &&
    (isUniversal e.value U.printableString (some false) ||
      isUniversal e.value U.utf8String (some false))

def text (e : NameEntry) : JsString :=
  if e.value.tag = U.utf8String then (utf8Decode e.value.content).toOption.getD []
  else fromCharCodes e.value.content

/-- The same attribute: strings by their trimmed, space-collapsed and case-folded texts, all other
values by their octets. -/
structure Same (tables : CaseTables) (e f : NameEntry) : Prop where
  oid : e.oid = f.oid
  value : e.isString = true ∧ f.isString = true ∧
      canonicalText tables e.text = canonicalText tables f.text ∨
    e.isString = false ∧ f.isString = false ∧ e.value.raw = f.value.raw

/-- A string whose text is `#` and the hexadecimal octets of a value that is none. -/
structure Impersonates (tables : CaseTables) (e f : NameEntry) : Prop where
  oid : e.oid = f.oid
  string : e.isString = true
  other : f.isString = false
  spelled : canonicalText tables e.text = js "#" ++ hex f.value.raw

end NameEntry

/-- RDN by RDN the same attributes, in any order. -/
def SameName (tables : CaseTables) (x y : List (List NameEntry)) : Prop :=
  List.Forall₂ (Paired (NameEntry.Same tables)) x y

/-! ### What is compared -/

/-- What stands for a value: a text or its octets. -/
inductive Comparand where
  | text (folded : JsString)
  | der (octets : Bytes)
  deriving DecidableEq

def Comparand.canonical : Comparand → JsString
  | .text folded => folded
  | .der octets => js "#" ++ hex octets

namespace NameEntry

def comparand (tables : CaseTables) (e : NameEntry) : Comparand :=
  if e.isString then .text (canonicalText tables e.text) else .der e.value.raw

/-- An attribute up to the differences that do not count. -/
def identity (tables : CaseTables) (e : NameEntry) : JsString × Comparand :=
  (e.oid, e.comparand tables)

/-- The text that the code compares. -/
def key (tables : CaseTables) (e : NameEntry) : JsString :=
  e.oid ++ js "=" ++ (e.comparand tables).canonical

theorem same_iff (tables : CaseTables) (e f : NameEntry) :
    e.Same tables f ↔ e.identity tables = f.identity tables := by
  simp only [identity, comparand, Prod.mk.injEq]
  constructor
  · rintro ⟨oid, ⟨string, stringToo, text⟩ | ⟨other, otherToo, octets⟩⟩
    · simp [oid, string, stringToo, text]
    · simp [oid, other, otherToo, octets]
  · rintro ⟨oid, value⟩
    refine ⟨oid, ?_⟩
    cases string : e.isString <;> cases stringToo : f.isString <;>
      simp_all

instance (tables : CaseTables) (e f : NameEntry) : Decidable (e.Same tables f) :=
  decidable_of_iff _ (e.same_iff tables f).symm

/-- The texts of two attributes agree when the attributes do, or when one impersonates the other. -/
theorem canonical_eq_iff {tables : CaseTables} {e f : NameEntry} (oid : e.oid = f.oid) :
    (e.comparand tables).canonical = (f.comparand tables).canonical ↔
      e.Same tables f ∨ e.Impersonates tables f ∨ f.Impersonates tables e := by
  have split : e.Same tables f ↔ e.comparand tables = f.comparand tables := by
    rw [same_iff, identity, identity, Prod.mk.injEq, and_iff_right oid]
  rw [split]
  simp only [comparand]
  cases string : e.isString <;> cases stringToo : f.isString
  · have digits : js "#" ++ hex e.value.raw = js "#" ++ hex f.value.raw ↔
        e.value.raw = f.value.raw :=
      ⟨fun same => hex_injective (List.append_cancel_left same), fun same => by rw [same]⟩
    simp only [Comparand.canonical, digits, Bool.false_eq_true, ↓reduceIte, Comparand.der.injEq]
    constructor
    · exact Or.inl
    · rintro (same | imp | imp)
      · exact same
      · cases string.symm.trans imp.string
      · cases stringToo.symm.trans imp.string
  · simp only [Comparand.canonical, Bool.false_eq_true, ↓reduceIte, reduceCtorEq, false_or]
    constructor
    · exact fun same => Or.inr ⟨oid.symm, stringToo, string, same.symm⟩
    · rintro (imp | imp)
      · cases string.symm.trans imp.string
      · exact imp.spelled.symm
  · simp only [Comparand.canonical, Bool.false_eq_true, ↓reduceIte, reduceCtorEq, false_or]
    constructor
    · exact fun same => Or.inl ⟨oid, string, stringToo, same⟩
    · rintro (imp | imp)
      · exact imp.spelled
      · cases stringToo.symm.trans imp.string
  · simp only [Comparand.canonical, ↓reduceIte, Comparand.text.injEq]
    constructor
    · exact Or.inl
    · rintro (same | imp | imp)
      · exact same
      · cases stringToo.symm.trans imp.other
      · cases string.symm.trans imp.other

end NameEntry

/-! ### Parsed names -/

/-- An OID is digits and dots. -/
theorem oidValue_units {t : Tlv} {oid : JsString} (parsed : oidValue t = .ok oid) :
    (61 : UInt16) ∉ oid := by
  have digits : ∀ (content : Bytes) (v : Nat) (first inSub : Bool) (parts : List JsString),
      oidLoop content v first inSub = .ok parts → ∀ part ∈ parts, ∃ n, part = natToString 10 n := by
    intro content
    induction content with
    | nil =>
      intro v first inSub parts looped
      rw [oidLoop] at looped
      split at looped
      · cases looped
      · cases looped
        simp
    | cons o rest ih =>
      intro v first inSub parts looped
      rw [oidLoop, guard_eq_ok_iff] at looped
      obtain ⟨-, looped⟩ := looped
      split at looped
      next => exact ih _ _ _ _ looped
      next =>
        obtain ⟨more, later, built⟩ := (bind_ok_iff _ _ _).mp looped
        cases built
        intro part member
        rcases List.mem_append.mp member with here | there
        · split_ifs at here <;> simp only [List.mem_cons, List.not_mem_nil, or_false] at here
          · rcases here with rfl | rfl <;> exact ⟨_, rfl⟩
          · rcases here with rfl | rfl <;> exact ⟨_, rfl⟩
          · rcases here with rfl | rfl <;> exact ⟨_, rfl⟩
          · exact ⟨_, here⟩
        · exact ih _ _ _ _ later part there
  obtain ⟨u, -, parsed⟩ := (bind_ok_iff _ _ _).mp parsed
  split at parsed
  next => cases parsed
  next =>
    obtain ⟨parts, looped, built⟩ := (bind_ok_iff _ _ _).mp parsed
    cases built
    intro member
    rcases mem_join member with dot | ⟨part, listed, inside⟩
    · revert dot
      decide
    · obtain ⟨n, rfl⟩ := digits _ _ _ _ _ looped part listed
      obtain ⟨d, small, same⟩ := mem_natToString (by omega) inside
      have code := congrArg UInt16.toNat same
      rw [digitUnit_toNat (by omega), if_pos small] at code
      simp at code
      omega

/-- The test that the parser makes on an attribute that has a text. -/
private def normalisable (e : NameEntry) : Bool :=
  canonicalStringTypes.contains e.oid &&
    (isUniversal e.value U.printableString none || isUniversal e.value U.utf8String none)

/-- A string is decoded to its text. -/
private theorem text_of_isString {e : NameEntry} {text : Option JsString}
    (string : e.isString = true) (decoded : decodeDirectoryString e.value = .ok text) :
    normalisable e = true ∧ text = some e.text := by
  simp only [NameEntry.isString, Bool.and_eq_true, Bool.or_eq_true, isUniversal_eq_true] at string
  obtain ⟨keyword, kind⟩ := string
  have universal : e.value.cls = .universal := by rcases kind with kind | kind <;> exact kind.1
  have primitive : e.value.constructed = false := by rcases kind with kind | kind <;> exact kind.2.2
  rw [decodeDirectoryString, if_neg (by simp [universal, primitive])] at decoded
  rcases kind with ⟨-, printable, -⟩ | ⟨-, utf8, -⟩
  · rw [printable, if_neg (by decide), if_pos (by decide)] at decoded
    cases decoded
    rw [NameEntry.text, printable, if_neg (by decide)]
    exact ⟨by simp only [normalisable, keyword]; simp [isUniversal, universal, printable], rfl⟩
  · rw [utf8, if_pos rfl] at decoded
    rw [NameEntry.text, utf8, if_pos rfl]
    cases read : utf8Decode e.value.content with
    | error => rw [read] at decoded; cases decoded
    | ok s =>
      rw [read] at decoded
      cases decoded
      exact ⟨by simp only [normalisable, keyword]; simp [isUniversal, universal, utf8], rfl⟩

/-- An attribute that has a text and passes the test is a string: constructed ones have no text. -/
private theorem isString_of_normalisable {e : NameEntry} {s : JsString}
    (decoded : decodeDirectoryString e.value = .ok (some s)) (passes : normalisable e = true) :
    e.isString = true := by
  have primitive : e.value.constructed = false := by
    by_contra constructed
    rw [decodeDirectoryString, if_pos (Or.inr (by simpa using constructed))] at decoded
    cases decoded
  simp only [normalisable, NameEntry.isString, isUniversal, Bool.and_eq_true, Bool.or_eq_true]
    at passes ⊢
  simpa [primitive] using passes

theorem readEntry_of_parseAttribute {tables : CaseTables} {atv : Tlv} {a : Attribute}
    (parsed : parseAttribute tables atv = .ok a) :
    ∃ e, readEntry atv = .ok e ∧ a.oid ++ js "=" ++ a.canonical = e.key tables ∧
      (61 : UInt16) ∉ e.oid := by
  obtain ⟨kids, opened, parsed⟩ := (bind_ok_iff _ _ _).mp parsed
  split at parsed
  next oidT valT =>
    obtain ⟨oid, isOid, parsed⟩ := (bind_ok_iff _ _ _).mp parsed
    obtain ⟨text, decoded, built⟩ := (bind_ok_iff _ _ _).mp parsed
    cases built
    refine ⟨{ oid := oid, value := valT }, ?_, ?_, oidValue_units isOid⟩
    · simp only [readEntry, opened, isOid, ok_bind]
    · rw [NameEntry.key, NameEntry.comparand]
      congr 1
      by_cases string : NameEntry.isString { oid := oid, value := valT } = true
      · obtain ⟨passes, rfl⟩ := text_of_isString string decoded
        rw [if_pos string]
        exact if_pos passes
      · rw [if_neg string]
        cases text with
        | none => rfl
        | some s => exact if_neg fun passes => string (isString_of_normalisable decoded passes)
  next => cases parsed

theorem rdnEntries_of_parseRdn {tables : CaseTables} {rdn : Tlv} {attrs : List Attribute}
    (parsed : parseRdn tables rdn = .ok attrs) :
    ∃ entries, rdnEntries rdn = .ok entries ∧
      rdnKeys attrs = sortStrings (entries.map (NameEntry.key tables)) ∧
      ∀ e ∈ entries, (61 : UInt16) ∉ e.oid := by
  obtain ⟨kids, opened, parsed⟩ := (bind_ok_iff _ _ _).mp parsed
  obtain ⟨found, each, parsed⟩ := (bind_ok_iff _ _ _).mp parsed
  obtain ⟨-, same⟩ := (guard_eq_ok_iff _ _ _).mp parsed
  cases same
  obtain ⟨entries, readEach, related⟩ := mapM_transfer
    (fun _ _ _ parsed => readEntry_of_parseAttribute parsed) each
  obtain ⟨keys, clean⟩ := map_eq_of_forall₂ related
  refine ⟨entries, by simp only [rdnEntries, opened, ok_bind, readEach], ?_, clean⟩
  rw [← keys, rdnKeys]

/-- The entries of a parsed name, and the texts by which the code compares it. -/
theorem nameEntries_of_parseName {tables : CaseTables} {t : Tlv} {n : Name}
    (parsed : parseName tables t = .ok n) :
    n.der = t.raw ∧ ∃ entries, nameEntries t = .ok entries ∧
      n.rdns.map rdnKeys = entries.map (fun rdn => sortStrings (rdn.map (NameEntry.key tables))) ∧
      ∀ rdn ∈ entries, ∀ e ∈ rdn, (61 : UInt16) ∉ e.oid := by
  obtain ⟨kids, opened, parsed⟩ := (bind_ok_iff _ _ _).mp parsed
  obtain ⟨rdns, each, built⟩ := (bind_ok_iff _ _ _).mp parsed
  cases built
  obtain ⟨entries, readEach, related⟩ := mapM_transfer
    (fun _ _ _ parsed => rdnEntries_of_parseRdn parsed) each
  obtain ⟨keys, clean⟩ := map_eq_of_forall₂ related
  exact ⟨rfl, entries, by simp only [nameEntries, opened, ok_bind, readEach], keys, clean⟩

/-! ### What the code compares -/

/-- The same attribute, or one that passes for the other. -/
def NameEntry.Confusable (tables : CaseTables) (e f : NameEntry) : Prop :=
  e.Same tables f ∨ e.Impersonates tables f ∨ f.Impersonates tables e

private theorem key_eq_iff (tables : CaseTables) {e f : NameEntry} (clean : (61 : UInt16) ∉ e.oid)
    (cleanToo : (61 : UInt16) ∉ f.oid) :
    e.key tables = f.key tables ↔ e.Confusable tables f := by
  have sign : js "=" = [61] := by decide
  simp only [NameEntry.key, NameEntry.Confusable, sign, List.append_assoc, List.singleton_append]
  constructor
  · intro same
    obtain ⟨oid, canonical⟩ := append_separator_inj clean cleanToo same
    exact (NameEntry.canonical_eq_iff oid).mp canonical
  · intro confusable
    have oid : e.oid = f.oid := by
      rcases confusable with same | imp | imp
      · exact same.oid
      · exact imp.oid
      · exact imp.oid.symm
    rw [oid, (NameEntry.canonical_eq_iff oid).mpr confusable]

/-- On parsed names the code looks for a pairing in each RDN, of attributes that are the same or
pass for one another. The comparison of the octets decides nothing else. -/
theorem namesEqual_iff_paired {tables : CaseTables} {t u : Tlv} {a b : Name} (first : t.Encoded)
    (second : u.Encoded) (parsed : parseName tables t = .ok a)
    (parsedToo : parseName tables u = .ok b) :
    ∃ x y, nameEntries t = .ok x ∧ nameEntries u = .ok y ∧
      (∀ rdn ∈ x, ∀ e ∈ rdn, (61 : UInt16) ∉ e.oid) ∧
      (∀ rdn ∈ y, ∀ e ∈ rdn, (61 : UInt16) ∉ e.oid) ∧
      (namesEqual a b = true ↔
        List.Forall₂ (Paired (NameEntry.Confusable tables)) x y) := by
  obtain ⟨der, x, isName, keys, clean⟩ := nameEntries_of_parseName parsed
  obtain ⟨derToo, y, isNameToo, keysToo, cleanToo⟩ := nameEntries_of_parseName parsedToo
  refine ⟨x, y, isName, isNameToo, clean, cleanToo, ?_⟩
  have octets : a.der = b.der → a = b := by
    intro same
    rw [der, derToo] at same
    rw [first.ext second same] at parsed
    exact Except.ok.inj (parsed.symm.trans parsedToo)
  have compared : namesEqual a b = true ↔ a.rdns.map rdnKeys = b.rdns.map rdnKeys := by
    rw [namesEqual_iff]
    constructor
    · rintro (same | same)
      · rw [octets same]
      · exact same
    · exact Or.inr
  rw [compared, keys, keysToo, ← forall₂_iff_map_eq]
  refine forall₂_congr fun r inX s inY => ?_
  rw [sortStrings_eq_iff, ← paired_iff_perm]
  exact paired_congr fun e inR f inS => key_eq_iff tables (clean r inX e inR) (cleanToo s inY f inS)

/-! ### When that is the intended equality -/

private theorem count_key {tables : CaseTables} {e : NameEntry} (entries : List NameEntry)
    (clean : ∀ f ∈ entries, (61 : UInt16) ∉ f.oid) (cleanKey : (61 : UInt16) ∉ e.oid)
    (other : e.isString = false) :
    (entries.map (NameEntry.key tables)).count (e.key tables) =
      (entries.map (NameEntry.identity tables)).count (e.identity tables) +
      (entries.map (NameEntry.identity tables)).count
        (e.oid, .text (js "#" ++ hex e.value.raw)) := by
  -- The text of a value that is no string is also that of the strings that spell it.
  have der : e.comparand tables = .der e.value.raw := by
    rw [NameEntry.comparand, if_neg (by simp [other])]
  induction entries with
  | nil => simp
  | cons f entries ih =>
    have rest := ih fun g member => clean g (by simp [member])
    have split := key_eq_iff tables (clean f (by simp)) cleanKey
    have spelled : f.Impersonates tables e ↔
        f.identity tables = (e.oid, .text (js "#" ++ hex e.value.raw)) := by
      simp only [NameEntry.identity, NameEntry.comparand, Prod.mk.injEq]
      constructor
      · rintro ⟨oid, string, -, text⟩
        simp [oid, string, text]
      · rintro ⟨oid, text⟩
        cases string : f.isString
        · simp [string] at text
        · exact ⟨oid, string, other, by simpa [string] using text⟩
    have never : ¬e.Impersonates tables f := fun imp => by cases other.symm.trans imp.string
    simp only [NameEntry.Confusable, spelled, never, or_false, NameEntry.same_iff] at split
    simp only [List.map_cons, List.count_cons, beq_iff_eq, rest, split]
    have apart : e.identity tables ≠ (e.oid, .text (js "#" ++ hex e.value.raw)) := by
      simp [NameEntry.identity, der]
    by_cases same : f.identity tables = e.identity tables
    · rw [if_pos (Or.inl same), if_pos same, if_neg fun text => apart (same.symm.trans text)]
      omega
    · by_cases text : f.identity tables = (e.oid, .text (js "#" ++ hex e.value.raw))
      · rw [if_pos (Or.inr text), if_neg same, if_pos text]
        omega
      · rw [if_neg (not_or.mpr ⟨same, text⟩), if_neg same, if_neg text]
        omega

/-- Where the code finds a pairing, there is a pairing of the same attributes exactly when every
string has as many matches in the one RDN as in the other. -/
private theorem paired_same_iff {tables : CaseTables} {r s : List NameEntry}
    (clean : ∀ e ∈ r ++ s, (61 : UInt16) ∉ e.oid)
    (confused : Paired (NameEntry.Confusable tables) r s) :
    Paired (NameEntry.Same tables) r s ↔ ∀ e ∈ r ++ s, e.isString = true →
      (r.map (NameEntry.identity tables)).count (e.identity tables) =
        (s.map (NameEntry.identity tables)).count (e.identity tables) := by
  have cleanLeft : ∀ e ∈ r, (61 : UInt16) ∉ e.oid := fun e member => clean e (by simp [member])
  have cleanRight : ∀ e ∈ s, (61 : UInt16) ∉ e.oid := fun e member => clean e (by simp [member])
  have identities : Paired (NameEntry.Same tables) r s ↔ ∀ v,
      (r.map (NameEntry.identity tables)).count v =
        (s.map (NameEntry.identity tables)).count v := by
    rw [← paired_iff_count]
    exact paired_congr fun e _ f _ => e.same_iff tables f
  rw [identities]
  constructor
  · intro counts e _ _
    exact counts _
  · intro strings v
    by_cases occurs : ∃ e ∈ r ++ s, e.identity tables = v
    · obtain ⟨e, member, rfl⟩ := occurs
      cases kind : e.isString with
      | true => exact strings e member kind
      | false =>
        have keys : (r.map (NameEntry.key tables)).count (e.key tables) =
            (s.map (NameEntry.key tables)).count (e.key tables) := by
          have order : Paired (fun e f => e.key tables = f.key tables) r s := (paired_congr
            fun e inR f inS => key_eq_iff tables (cleanLeft e inR) (cleanRight f inS)).mpr confused
          exact (paired_iff_count _ _ r s).mp order _
        rw [count_key r cleanLeft (clean e member) kind,
          count_key s cleanRight (clean e member) kind] at keys
        -- The strings that spell the value are as many on both sides, so the values are.
        suffices spelling : (r.map (NameEntry.identity tables)).count
            (e.oid, .text (js "#" ++ hex e.value.raw)) = (s.map (NameEntry.identity tables)).count
              (e.oid, .text (js "#" ++ hex e.value.raw)) by omega
        by_cases string : ∃ f ∈ r ++ s,
            f.identity tables = (e.oid, .text (js "#" ++ hex e.value.raw))
        · obtain ⟨f, present, same⟩ := string
          have isText : f.isString = true := by
            by_contra other
            simp [NameEntry.identity, NameEntry.comparand, other] at same
          rw [← same]
          exact strings f present isText
        · push Not at string
          rw [count_map_eq_zero fun f inR => string f (by simp [inR]),
            count_map_eq_zero fun f inS => string f (by simp [inS])]
    · push Not at occurs
      rw [count_map_eq_zero fun f inR => occurs f (by simp [inR]),
        count_map_eq_zero fun f inS => occurs f (by simp [inS])]

/-- The names are the same but for strings that pass for other values, and in some RDN one of them
does: it has not as many matches in the one name as in the other. -/
structure Impersonated (tables : CaseTables) (x y : List (List NameEntry)) : Prop where
  confused : List.Forall₂ (Paired (NameEntry.Confusable tables)) x y
  uneven : ∃ rs ∈ x.zip y, ∃ e ∈ rs.1 ++ rs.2, e.isString = true ∧
    (rs.1.map (NameEntry.identity tables)).count (e.identity tables) ≠
      (rs.2.map (NameEntry.identity tables)).count (e.identity tables)

private theorem sameName_iff {tables : CaseTables} {x y : List (List NameEntry)}
    (clean : ∀ rdn ∈ x, ∀ e ∈ rdn, (61 : UInt16) ∉ e.oid)
    (cleanToo : ∀ rdn ∈ y, ∀ e ∈ rdn, (61 : UInt16) ∉ e.oid)
    (confused : List.Forall₂ (Paired (NameEntry.Confusable tables)) x y) :
    SameName tables x y ↔ ¬Impersonated tables x y := by
  have even : SameName tables x y ↔ ∀ rs ∈ x.zip y, ∀ e ∈ rs.1 ++ rs.2, e.isString = true →
      (rs.1.map (NameEntry.identity tables)).count (e.identity tables) =
        (rs.2.map (NameEntry.identity tables)).count (e.identity tables) := by
    rw [SameName]
    induction confused with
    | nil => simp
    | @cons r s x y here _ ih =>
      have cleanHere : ∀ e ∈ r ++ s, (61 : UInt16) ∉ e.oid := by
        intro e member
        rcases List.mem_append.mp member with inR | inS
        · exact clean r (by simp) e inR
        · exact cleanToo s (by simp) e inS
      rw [List.forall₂_cons, ih (fun rdn member => clean rdn (by simp [member]))
        (fun rdn member => cleanToo rdn (by simp [member])), paired_same_iff cleanHere here,
        List.zip_cons_cons, List.forall_mem_cons]
  rw [even]
  constructor
  · rintro counts ⟨-, rs, member, e, present, string, differ⟩
    exact differ (counts rs member e present string)
  · intro none rs member e present string
    by_contra differ
    exact none ⟨confused, rs, member, e, present, string, differ⟩

/-- A name that the parser returned. -/
def ParsedName (tables : CaseTables) : Type :=
  { n : Name // ∃ t, t.Encoded ∧ parseName tables t = .ok n }

private theorem namesEqual_iff_keys {tables : CaseTables} (a b : ParsedName tables) :
    namesEqual a.1 b.1 = true ↔ a.1.rdns.map rdnKeys = b.1.rdns.map rdnKeys := by
  obtain ⟨a, t, first, parsed⟩ := a
  obtain ⟨b, u, second, parsedToo⟩ := b
  rw [namesEqual_iff]
  constructor
  · rintro (same | same)
    · rw [(nameEntries_of_parseName parsed).1, (nameEntries_of_parseName parsedToo).1] at same
      rw [first.ext second same] at parsed
      cases parsed.symm.trans parsedToo
      rfl
    · exact same
  · exact Or.inr

/-- The code compares two parsed names as intended exactly when no string of the one passes for
another value of the other, and it is an equivalence relation on parsed names. -/
theorem namesEqual_exact_iff (tables : CaseTables) :
    (∀ t u a b, t.Encoded → u.Encoded → parseName tables t = .ok a → parseName tables u = .ok b →
      ∃ x y, nameEntries t = .ok x ∧ nameEntries u = .ok y ∧
        ((namesEqual a b = true ↔ SameName tables x y) ↔ ¬Impersonated tables x y)) ∧
    Equivalence fun a b : ParsedName tables => namesEqual a.1 b.1 = true := by
  constructor
  · intro t u a b first second parsed parsedToo
    obtain ⟨x, y, isName, isNameToo, clean, cleanToo, compared⟩ :=
      namesEqual_iff_paired first second parsed parsedToo
    refine ⟨x, y, isName, isNameToo, ?_⟩
    rw [compared]
    constructor
    · rintro agree impersonated
      have same := agree.mp impersonated.confused
      exact (sameName_iff clean cleanToo impersonated.confused).mp same impersonated
    · intro none
      constructor
      · exact fun confused => (sameName_iff clean cleanToo confused).mpr none
      · exact fun same => same.imp fun _ _ paired => paired.mono fun _ _ => Or.inl
  · constructor
    · intro a
      exact (namesEqual_iff_keys a a).mpr rfl
    · intro a b same
      exact (namesEqual_iff_keys b a).mpr ((namesEqual_iff_keys a b).mp same).symm
    · intro a b c same sameToo
      exact (namesEqual_iff_keys a c).mpr
        (((namesEqual_iff_keys a b).mp same).trans ((namesEqual_iff_keys b c).mp sameToo))

namespace Sample

/-- A name with one common name. -/
def commonName (value : Tlv) : Tlv :=
  seq [set [seq [element .universal false U.oid [0x55, 4, 3], value]]]

/-- The UTF8String `#140161`. -/
def spelledValue : Tlv :=
  element .universal false U.utf8String [0x23, 0x31, 0x34, 0x30, 0x31, 0x36, 0x31]

/-- The TeletexString `a`, with the octets 14 01 61. -/
def teletexValue : Tlv := element .universal false U.t61String [0x61]

def commonNameEntry (value : Tlv) : NameEntry := { oid := js "2.5.4.3", value := value }

def parsedCommonName (value : Tlv) (canonical text : String) : Name where
  der := (commonName value).raw
  rdns := [[{ oid := js "2.5.4.3", canonical := js canonical, text := some (js text) }]]

end Sample

/-- The UTF8String `#140161` passes for the TeletexString `a`. -/
theorem namesEqual_impersonated :
    ∃ a b x y,
      parseName Sample.tables (Sample.commonName Sample.spelledValue) = .ok a ∧
      parseName Sample.tables (Sample.commonName Sample.teletexValue) = .ok b ∧
      nameEntries (Sample.commonName Sample.spelledValue) = .ok x ∧
      nameEntries (Sample.commonName Sample.teletexValue) = .ok y ∧
      namesEqual a b = true ∧ ¬SameName Sample.tables x y := by
  refine ⟨Sample.parsedCommonName Sample.spelledValue "#140161" "#140161",
    Sample.parsedCommonName Sample.teletexValue "#140161" "a",
    [[Sample.commonNameEntry Sample.spelledValue]], [[Sample.commonNameEntry Sample.teletexValue]],
    by decide +kernel, by decide +kernel, by decide +kernel, by decide +kernel, by decide +kernel,
    ?_⟩
  intro same
  obtain ⟨zs, order, related⟩ := (List.forall₂_cons.mp same).1
  rw [List.perm_singleton.mp order] at related
  -- The one is a string and the other is none.
  have value := (List.forall₂_cons.mp related).1.value
  revert value
  decide +kernel

/-- The PrintableString `CA` and the UTF8String ` ca`, which are the same. -/
theorem namesEqual_exact_iff_sample :
    let printable := element .universal false U.printableString [0x43, 0x41]
    let utf8 := element .universal false U.utf8String [0x20, 0x63, 0x61]
    ∃ x y, nameEntries (Sample.commonName printable) = .ok x ∧
      nameEntries (Sample.commonName utf8) = .ok y ∧
      ((namesEqual (Sample.parsedCommonName printable "ca" "CA")
        (Sample.parsedCommonName utf8 "ca" " ca") = true ↔ SameName Sample.tables x y) ↔
        ¬Impersonated Sample.tables x y) := by
  have encoded : ∀ value : Tlv, (Sample.commonName value).content.length < 2 ^ 32 →
      (Sample.commonName value).Encoded := fun value short =>
    { toWritten := element_written _ _ _ _ (by decide), short := short }
  exact (namesEqual_exact_iff Sample.tables).1 _ _ _ _ (encoded _ (by decide +kernel))
    (encoded _ (by decide +kernel)) (by decide +kernel) (by decide +kernel)

end UncrackableL5

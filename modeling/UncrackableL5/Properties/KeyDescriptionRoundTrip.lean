import UncrackableL5.Properties.IntegerContents
import UncrackableL5.Verifier.KeyDescriptionWriter

/-!
# The parser inverts the encoding of a key description

Every conversion inverts the encoding of its kind of value. A tag is assigned once, so the element
that the parser keeps for a tag is the encoding of the value of that tag, and an attribute converts
to that value. Sets are compared as sets: the reader keeps the first of equal members.

## Main results

- `convertObjects_objects`: the attributes of an authorization list.
- `parseAuthorizationList_authorizationList`, `parseKeyDescription_keyDescription`.
-/
namespace UncrackableL5

open DerWriter

/-! ### Elements that the writer builds -/

@[simp] theorem seq_written (items : List Tlv) : (seq items).Written :=
  element_written _ _ _ _ (by decide)

@[simp] theorem set_written (items : List Tlv) : (set items).Written :=
  element_written _ _ _ _ (by decide)

@[simp] theorem octet_written (b : Bytes) : (octet b).Written := element_written _ _ _ _ (by decide)

@[simp] theorem bool_written (v : Bool) : (bool v).Written := element_written _ _ _ _ (by decide)

@[simp] theorem int_written (v : Int) : (int v).Written := element_written _ _ _ _ (by decide)

@[simp] theorem enumerated_written (v : Int) : (enumerated v).Written :=
  element_written _ _ _ _ (by decide)

@[simp] theorem packageInfo_written (p : String × Int) : (packageInfo p).Written := seq_written _

@[simp] theorem attributeValue_written (v : AttributeValue) : (attributeValue v).Written := by
  cases v with
  | other t written => exact written
  | _ => simp [attributeValue, rootOfTrust, appId]

theorem kindOf_known {tag : Nat} {k : Kind} (kind : kindOf tag = some k) : tag ∈ knownTags := by
  rw [kindOf] at kind
  split at kind
  next => cases kind
  next known => exact not_not.mp known

theorem ctx_written {tag : Nat} (known : tag ∈ knownTags) (inner : Tlv) :
    (ctx tag inner).Written := by
  have small : ∀ tag ∈ knownTags, tag < 2 ^ 28 := by decide
  exact element_written _ _ _ _ (small tag known)

theorem isUniversal_seq (items : List Tlv) : isUniversal (seq items) U.sequence (some true) := rfl

theorem isUniversal_set (items : List Tlv) :
    isUniversal (DerWriter.set items) U.set (some true) := rfl

theorem isUniversal_int (v : Int) : isUniversal (int v) U.integer (some false) := rfl

theorem isUniversal_octet (b : Bytes) : isUniversal (octet b) U.octetString (some false) := rfl

/-- The members of a sequence are shorter than it. -/
theorem raw_lt_seq {t : Tlv} {items : List Tlv} (member : t ∈ items) :
    t.raw.length < (seq items).raw.length :=
  (raw_length_le member).trans_lt (seq_written items).content_lt

theorem raw_lt_set {t : Tlv} {items : List Tlv} (member : t ∈ items) :
    t.raw.length < (set items).raw.length :=
  (raw_length_le member).trans_lt (set_written items).content_lt

/-! ### Conversions -/

@[simp] theorem integerValue_int (v : Int) : integerValue (int v) = .ok v :=
  (integerValueAs_eq_ok_iff _ _ _).mpr ⟨isUniversal_int v, rfl⟩

@[simp] theorem toInt_int (v : Int) : toInt (int v) = .ok v := by
  rw [toInt, if_pos (isUniversal_int v), integerValue_int]

@[simp] theorem toEnumeratedValue_enumerated (v : Int) :
    toEnumeratedValue (enumerated v) = .ok v := by
  have universal : isUniversal (enumerated v) U.enumerated (some false) := rfl
  rw [toEnumeratedValue, if_pos universal]
  exact (integerValueAs_eq_ok_iff _ _ _).mpr ⟨universal, rfl⟩

@[simp] theorem toBytes_octet (b : Bytes) : toBytes (octet b) = .ok b := rfl

@[simp] theorem toBoolean_bool (v : Bool) : toBoolean (bool v) = .ok v := by cases v <;> rfl

@[simp] theorem toStr_utf8 (s : String) : toStr (octet (utf8 s)) = .ok (js s) := by
  rw [toStr, toBytes_octet, ok_bind, utf8Decode_utf8]
  rfl

@[simp] theorem toSecurityLevel_enumerated (level : SecurityLevel) :
    toSecurityLevel (enumerated level.number) = .ok level := by
  rw [toSecurityLevel, toEnumeratedValue_enumerated, ok_bind]
  cases level <;> rfl

@[simp] theorem toOrigin_int (o : Origin) : toOrigin (int o.number) = .ok o := by
  rw [toOrigin, toInt_int, ok_bind]
  cases o <;> rfl

theorem toSetOf_set {items : List Tlv} (elementTag : Nat) (what : String)
    (written : ∀ t ∈ items, t.Written) (short : (set items).raw.length < 2 ^ 32)
    (each : ∀ t ∈ items, isUniversal t elementTag none) :
    toSetOf (set items) elementTag what = .ok items := by
  rw [toSetOf, if_pos (isUniversal_set _), derSet_set _ written short, ok_bind,
    if_pos (List.all_eq_true.mpr each)]

theorem toIntSet_set {values : List Int} (short : (set (values.map int)).raw.length < 2 ^ 32) :
    toIntSet (set (values.map int)) = .ok (values.foldl pushNew []) := by
  have items := toSetOf_set U.integer "ASN1Integer" (by simp) short
    (by simp [isUniversal, int, element])
  have numbers : (values.map int).mapM integerValue = .ok (values.map id) :=
    mapM_map_eq_ok fun v _ => integerValue_int v
  rw [toIntSet, items, ok_bind, numbers, ok_bind, List.map_id]

theorem toRootOfTrust_rootOfTrust {root : RootOfTrust}
    (short : (rootOfTrust root).raw.length < 2 ^ 32) :
    toRootOfTrust (rootOfTrust root) = .ok root := by
  rw [rootOfTrust] at short
  have items := sequence_seq "SEQUENCE" (by simp) short
  rw [toRootOfTrust, rootOfTrust, if_pos (isUniversal_seq _), items, ok_bind]
  obtain ⟨key, locked, state, hash⟩ := root
  cases hash <;> cases state <;> simp <;> rfl

private theorem toPackageInfo_packageInfo {p : String × Int}
    (short : (packageInfo p).raw.length < 2 ^ 32) :
    toPackageInfo (packageInfo p) = .ok { name := js p.1, version := p.2 } := by
  rw [toPackageInfo, packageInfo, sequence_seq _ (by simp) short, ok_bind]
  simp only [toStr_utf8, toInt_int, ok_bind]

private theorem checkSetSize_set {items : List Tlv} (max : Nat) (what : String)
    (written : ∀ t ∈ items, t.Written) (short : (set items).raw.length < 2 ^ 32)
    (few : items.length ≤ max) : checkSetSize (set items) max what = .ok () := by
  rw [checkSetSize, if_pos (isUniversal_set _), derSet_set _ written short, ok_bind,
    if_neg (by omega)]

/-- The application id that is read, with equal members once. -/
def ApplicationId.read (id : ApplicationId) : AttestationApplicationId where
  packages := (id.packages.map fun p => { name := js p.1, version := p.2 }).foldl pushNew []
  signatures := (id.signatures.map hex).foldl pushNew []

theorem toAttestationApplicationId_appId {id : ApplicationId}
    (short : (appId id).raw.length < 2 ^ 32) :
    toAttestationApplicationId (appId id) defaultLimits = .ok id.read := by
  -- Both sets are read back, first for their sizes and then for their members.
  have packages_written : ∀ t ∈ id.packages.map packageInfo, t.Written :=
    List.forall_mem_map.mpr fun p _ => packageInfo_written p
  have signatures_written : ∀ t ∈ id.signatures.map octet, t.Written :=
    List.forall_mem_map.mpr fun b _ => octet_written b
  have inner_short : (seq [DerWriter.set (id.packages.map packageInfo),
      DerWriter.set (id.signatures.map octet)]).raw.length < 2 ^ 32 :=
    (octet_written _).content_lt.trans short
  have packages_short : (DerWriter.set (id.packages.map packageInfo)).raw.length < 2 ^ 32 :=
    (raw_lt_seq (by simp)).trans inner_short
  have signatures_short : (DerWriter.set (id.signatures.map octet)).raw.length < 2 ^ 32 :=
    (raw_lt_seq (by simp)).trans inner_short
  have packages_few := checkSetSize_set 32 "packages" packages_written packages_short
    (by simpa using id.packages_le)
  have signatures_few := checkSetSize_set 10 "signatures" signatures_written signatures_short
    (by simpa using id.signatures_le)
  have packages := toSetOf_set U.sequence "ASN1Sequence" packages_written packages_short
    (List.forall_mem_map.mpr fun p _ => rfl)
  have signatures := toSetOf_set U.octetString "ASN1OctetString" signatures_written signatures_short
    (List.forall_mem_map.mpr fun b _ => rfl)
  -- The members of the sets are converted one by one.
  have infos : (id.packages.map packageInfo).mapM toPackageInfo =
      .ok (id.packages.map fun p => { name := js p.1, version := p.2 }) :=
    mapM_map_eq_ok fun p member => toPackageInfo_packageInfo
      ((raw_lt_set (List.mem_map_of_mem member)).trans packages_short)
  have digests : (id.signatures.map octet).map (fun s => hex s.content) = id.signatures.map hex := by
    rw [List.map_map]
    rfl
  have whole : parseSingle (octet (seq [DerWriter.set (id.packages.map packageInfo),
      DerWriter.set (id.signatures.map octet)]).raw).content = _ :=
    parseSingle_raw (seq_written _) inner_short
  rw [toAttestationApplicationId, appId, if_pos (isUniversal_octet _), whole, ok_bind,
    sequence_seq _ (by simp) inner_short, ok_bind]
  simp only [defaultLimits, packages_few, signatures_few, packages, signatures, infos, digests,
    ok_bind]
  rfl

/-! ### Authorization lists -/

def AttributeValue.ints? : AttributeValue → Option (List Int)
  | .ints values => some values
  | _ => none

def AttributeValue.int? : AttributeValue → Option Int
  | .int v => some v
  | _ => none

def AttributeValue.origin? : AttributeValue → Option Origin
  | .origin o => some o
  | _ => none

def AttributeValue.rootOfTrust? : AttributeValue → Option RootOfTrust
  | .rootOfTrust root => some root
  | _ => none

def AttributeValue.applicationId? : AttributeValue → Option ApplicationId
  | .applicationId id => some id
  | _ => none

def AttributeValue.text? : AttributeValue → Option String
  | .text s => some s
  | _ => none

def AttributeValue.bytes? : AttributeValue → Option Bytes
  | .bytes b => some b
  | _ => none

def AttributeValue.readInts (v : AttributeValue) : Option (List Int) :=
  v.ints?.map fun values => values.foldl pushNew []

def AttributeValue.readApplicationId (v : AttributeValue) : Option AttestationApplicationId :=
  v.applicationId?.map ApplicationId.read

/-- The elements by tag, as the parser collects them. -/
def Authorizations.objects (a : Authorizations) : List (Nat × Tlv) :=
  a.attributes.map fun e => (e.tag, attributeValue e.value)

/-- Where at most one element has a property, it is found from either end. -/
private theorem find?_reverse {α : Type} (p : α → Bool) (xs : List α)
    (one : xs.Pairwise fun x y => p x → ¬p y) : xs.reverse.find? p = xs.find? p := by
  induction xs with
  | nil => rfl
  | cons x xs ih =>
    obtain ⟨first, rest⟩ := List.pairwise_cons.mp one
    rw [List.reverse_cons, List.find?_append, ih rest, List.find?_cons]
    cases here : p x with
    | true =>
      have others : xs.find? p = none := List.find?_eq_none.mpr fun y member => first y member here
      simp [others, here]
    | false => simp [here]

theorem Authorizations.lastWith_objects (a : Authorizations) (tag : Nat) :
    lastWith a.objects tag = (a.value tag).map attributeValue := by
  -- No two attributes share a tag.
  have one : a.attributes.Pairwise fun x y => decide (x.tag = tag) → ¬decide (y.tag = tag) := by
    have distinct := a.distinct
    rw [List.Nodup, List.pairwise_map] at distinct
    refine distinct.imp fun differ here there => differ ?_
    rw [of_decide_eq_true here, of_decide_eq_true there]
  rw [lastWith, objects, ← List.map_reverse, List.find?_map, value, ← find?_reverse _ _ one]
  simp only [Option.map_map]
  rfl

theorem Authorizations.value_eq_some {a : Authorizations} {tag : Nat} {v : AttributeValue}
    (assigned : a.value tag = some v) : ∃ e ∈ a.attributes, e.tag = tag ∧ e.value = v := by
  rw [value, Option.map_eq_some_iff] at assigned
  obtain ⟨e, found, rfl⟩ := assigned
  exact ⟨e, List.mem_of_find?_eq_some found, by simpa using List.find?_some found, rfl⟩

/-- `fn` converts the encodings of one kind of value to what `read` gives. -/
def Converts {α : Type} (k : Kind) (fn : Tlv → Js α) (read : AttributeValue → Option α) : Prop :=
  ∀ v, v.kind = k → (attributeValue v).raw.length < 2 ^ 32 →
    ∃ x, read v = some x ∧ fn (attributeValue v) = .ok x

theorem converts_ints :
    Converts .ints toIntSet AttributeValue.readInts
  | .ints _, _, short => ⟨_, rfl, toIntSet_set short⟩

theorem converts_int : Converts .int toInt AttributeValue.int?
  | .int v, _, _ => ⟨v, rfl, toInt_int v⟩

theorem converts_origin : Converts .origin toOrigin AttributeValue.origin?
  | .origin o, _, _ => ⟨o, rfl, toOrigin_int o⟩

theorem converts_rootOfTrust : Converts .rootOfTrust toRootOfTrust AttributeValue.rootOfTrust?
  | .rootOfTrust root, _, short => ⟨root, rfl, toRootOfTrust_rootOfTrust short⟩

theorem converts_applicationId :
    Converts .applicationId (fun t => toAttestationApplicationId t defaultLimits)
      AttributeValue.readApplicationId
  | .applicationId _, _, short => ⟨_, rfl, toAttestationApplicationId_appId short⟩

theorem converts_text : Converts .text toStr fun v => v.text?.map js
  | .text s, _, _ => ⟨_, rfl, toStr_utf8 s⟩

theorem converts_bytes : Converts .bytes toBytes AttributeValue.bytes?
  | .bytes b, _, _ => ⟨b, rfl, toBytes_octet b⟩

theorem patchLevel_objects (a : Authorizations) (tag : Nat) (kind : kindOf tag = some .int) :
    patchLevel a.objects tag = .ok ((a.value tag).bind AttributeValue.int?) := by
  rw [patchLevel, a.lastWith_objects]
  cases assigned : a.value tag with
  | none => rfl
  | some v =>
    obtain ⟨e, _, rfl, rfl⟩ := Authorizations.value_eq_some assigned
    have same : e.value.kind = .int := Option.some.inj (e.typed.symm.trans kind)
    -- The kind of the tag leaves one constructor.
    match e.value, same with
    | .int v, _ =>
      simp only [Option.map_some, attributeValue]
      rw [if_pos (isUniversal_int v), integerValue_int]
      rfl

/-- An authorization list as it is read, with equal members of a set once. -/
def Authorizations.read (a : Authorizations) : AuthorizationList where
  purposes := (a.value Tag.purpose).bind AttributeValue.readInts
  algorithms := (a.value Tag.algorithm).bind AttributeValue.int?
  keySize := (a.value Tag.keySize).bind AttributeValue.int?
  digests := (a.value Tag.digest).bind AttributeValue.readInts
  ecCurve := (a.value Tag.ecCurve).bind AttributeValue.int?
  origin := (a.value Tag.origin).bind AttributeValue.origin?
  rootOfTrust := (a.value Tag.rootOfTrust).bind AttributeValue.rootOfTrust?
  attestationApplicationId :=
    (a.value Tag.attestationApplicationId).bind AttributeValue.readApplicationId
  osPatchLevel := (a.value Tag.osPatchLevel).bind AttributeValue.int?
  vendorPatchLevel := (a.value Tag.vendorPatchLevel).bind AttributeValue.int?
  bootPatchLevel := (a.value Tag.bootPatchLevel).bind AttributeValue.int?

theorem readTagged_ctx {tag : Nat} {inner : Tlv} (known : tag ∈ knownTags) (written : inner.Written)
    (short : (ctx tag inner).raw.length < 2 ^ 32) : readTagged (ctx tag inner) = .ok (tag, inner) := by
  have content := (ctx_written known inner).content_lt.trans short
  have child : children (ctx tag inner) = .ok [inner] :=
    children_concat rfl (by simp [concat, ctx, element]) (by simpa using written) content
  rw [readTagged, if_neg (by simp [ctx, element]),
    if_neg (show ¬(ctx tag inner).tag ∉ knownTags from not_not.mpr known),
    if_neg (by simp [ctx, element]), child, ok_bind]
  rfl

section Objects

variable {a : Authorizations}
  (short : ∀ e ∈ a.attributes, (attributeValue e.value).raw.length < 2 ^ 32)

include short

theorem parseAttributeOf_objects {α : Type} {k : Kind} {fn : Tlv → Js α}
    {read : AttributeValue → Option α} (converts : Converts k fn read) (tag : Nat)
    (kind : kindOf tag = some k) :
    parseAttributeOf a.objects tag fn = .ok ((a.value tag).bind read) := by
  rw [parseAttributeOf, a.lastWith_objects]
  cases assigned : a.value tag with
  | none => rfl
  | some v =>
    obtain ⟨e, member, rfl, rfl⟩ := Authorizations.value_eq_some assigned
    have same : e.value.kind = k := Option.some.inj (e.typed.symm.trans kind)
    obtain ⟨x, reads, converted⟩ := converts e.value same (short e member)
    simp only [Option.map_some, Option.bind_some, reads, converted, recoverAttribute]

theorem checkUnread_objects {α : Type} {k : Kind} {fn : Tlv → Js α}
    {read : AttributeValue → Option α} (converts : Converts k fn read) (tags : List Nat)
    (kind : ∀ tag ∈ tags, kindOf tag = some k) : checkUnread a.objects fn tags = .ok () := by
  induction tags with
  | nil => rfl
  | cons tag tags ih =>
    rw [checkUnread, parseAttributeOf_objects short converts tag (kind tag (by simp)), ok_bind]
    exact ih fun t member => kind t (by simp [member])

theorem convertObjects_objects : convertObjects a.objects defaultLimits = .ok a.read := by
  -- Conversions for their errors only.
  have sets := checkUnread_objects short converts_ints unreadIntSetTags (by decide)
  have numbers := checkUnread_objects short converts_int unreadIntTags (by decide)
  have texts := checkUnread_objects short converts_text unreadStrTags (by decide)
  have hash := checkUnread_objects short converts_bytes [Tag.moduleHash] (by decide)
  -- Conversions whose values are kept.
  have ints := parseAttributeOf_objects short converts_ints
  have int := parseAttributeOf_objects short converts_int
  have origin := parseAttributeOf_objects short converts_origin Tag.origin (by decide)
  have root := parseAttributeOf_objects short converts_rootOfTrust Tag.rootOfTrust (by decide)
  have id := parseAttributeOf_objects short converts_applicationId Tag.attestationApplicationId
    (by decide)
  rw [convertObjects, sets, numbers, texts, hash, patchLevel_objects a Tag.osPatchLevel (by decide),
    patchLevel_objects a Tag.vendorPatchLevel (by decide),
    patchLevel_objects a Tag.bootPatchLevel (by decide), origin, root, id,
    ints Tag.purpose (by decide), ints Tag.digest (by decide), int Tag.algorithm (by decide),
    int Tag.keySize (by decide), int Tag.ecCurve (by decide)]
  rfl

end Objects

theorem parseAuthorizationList_authorizationList {a : Authorizations}
    (short : (authorizationList a).raw.length < 2 ^ 32) :
    parseAuthorizationList (authorizationList a) defaultLimits = .ok a.read := by
  have known : ∀ e ∈ a.attributes, e.tag ∈ knownTags := fun e _ => kindOf_known e.typed
  have written : ∀ t ∈ a.attributes.map (fun e => ctx e.tag (attributeValue e.value)), t.Written :=
    List.forall_mem_map.mpr fun e member => ctx_written (known e member) _
  -- Every part is shorter than the whole.
  have members_short : ∀ e ∈ a.attributes, (ctx e.tag (attributeValue e.value)).raw.length < 2 ^ 32 :=
    fun e member => (raw_lt_seq (List.mem_map_of_mem member)).trans short
  have values_short : ∀ e ∈ a.attributes, (attributeValue e.value).raw.length < 2 ^ 32 :=
    fun e member => (ctx_written (known e member) _).content_lt.trans (members_short e member)
  have tagged : (a.attributes.map fun e => ctx e.tag (attributeValue e.value)).mapM readTagged =
      .ok a.objects :=
    mapM_map_eq_ok fun e member => readTagged_ctx (known e member) (attributeValue_written e.value)
      (members_short e member)
  rw [parseAuthorizationList, authorizationList, if_pos (isUniversal_seq _),
    sequence_seq _ written short, ok_bind, tagged, ok_bind, convertObjects_objects values_short]

/-! ### Key descriptions -/

/-- A key description as it is read. -/
def Description.read (d : Description) : KeyDescription where
  attestationVersion := d.attestationVersion
  attestationSecurityLevel := d.attestationSecurityLevel
  keyMintVersion := d.keyMintVersion
  keyMintSecurityLevel := d.keyMintSecurityLevel
  attestationChallenge := d.challenge
  uniqueId := d.uniqueId
  softwareEnforced := d.sw.read
  hardwareEnforced := d.hw.read

theorem parseKeyDescription_keyDescription {d : Description}
    (short : (keyDescription d).raw.length < 2 ^ 32) :
    parseKeyDescription (keyDescription d).raw defaultLimits = .ok d.read := by
  have sw := parseAuthorizationList_authorizationList (a := d.sw)
    ((raw_lt_seq (by simp)).trans short)
  have hw := parseAuthorizationList_authorizationList (a := d.hw)
    ((raw_lt_seq (by simp)).trans short)
  have whole := parseSingle_raw (t := keyDescription d) (seq_written _) short
  have items := sequence_seq "KeyDescription" (by simp [authorizationList]) short
  rw [parseKeyDescription, whole, ok_bind, keyDescription, items, ok_bind]
  simp only [toInt_int, toSecurityLevel_enumerated, toBytes_octet, sw, hw, ok_bind]
  rfl

/-! ### Comparison as sets -/

/-- Equal as sets. -/
def SameMembers {α : Type} (xs ys : List α) : Prop := ∀ x, x ∈ xs ↔ x ∈ ys

theorem sameMembers_foldl_pushNew {α : Type} [DecidableEq α] (xs : List α) :
    SameMembers (xs.foldl pushNew []) xs := fun x => by simp [mem_foldl_pushNew]

structure AttestationApplicationId.Describes (read : AttestationApplicationId) (id : ApplicationId) :
    Prop where
  packages : SameMembers read.packages (id.packages.map fun p => { name := js p.1, version := p.2 })
  signatures : SameMembers read.signatures (id.signatures.map hex)

/-- What is read under each tag is the value assigned to it, and nothing where none is. -/
structure AuthorizationList.Describes (read : AuthorizationList) (a : Authorizations) : Prop where
  purposes : Option.Rel SameMembers read.purposes ((a.value Tag.purpose).bind AttributeValue.ints?)
  algorithms : read.algorithms = (a.value Tag.algorithm).bind AttributeValue.int?
  keySize : read.keySize = (a.value Tag.keySize).bind AttributeValue.int?
  digests : Option.Rel SameMembers read.digests ((a.value Tag.digest).bind AttributeValue.ints?)
  ecCurve : read.ecCurve = (a.value Tag.ecCurve).bind AttributeValue.int?
  origin : read.origin = (a.value Tag.origin).bind AttributeValue.origin?
  rootOfTrust : read.rootOfTrust = (a.value Tag.rootOfTrust).bind AttributeValue.rootOfTrust?
  attestationApplicationId : Option.Rel AttestationApplicationId.Describes
    read.attestationApplicationId
    ((a.value Tag.attestationApplicationId).bind AttributeValue.applicationId?)
  osPatchLevel : read.osPatchLevel = (a.value Tag.osPatchLevel).bind AttributeValue.int?
  vendorPatchLevel : read.vendorPatchLevel = (a.value Tag.vendorPatchLevel).bind AttributeValue.int?
  bootPatchLevel : read.bootPatchLevel = (a.value Tag.bootPatchLevel).bind AttributeValue.int?

structure KeyDescription.Describes (read : KeyDescription) (d : Description) : Prop where
  attestationVersion : read.attestationVersion = d.attestationVersion
  attestationSecurityLevel : read.attestationSecurityLevel = d.attestationSecurityLevel
  keyMintVersion : read.keyMintVersion = d.keyMintVersion
  keyMintSecurityLevel : read.keyMintSecurityLevel = d.keyMintSecurityLevel
  attestationChallenge : read.attestationChallenge = d.challenge
  uniqueId : read.uniqueId = d.uniqueId
  softwareEnforced : read.softwareEnforced.Describes d.sw
  hardwareEnforced : read.hardwareEnforced.Describes d.hw

private theorem rel_bind_map {α β γ : Type} {R : γ → β → Prop} (v : Option α) (f : α → Option β)
    (g : β → γ) (related : ∀ b, R (g b) b) :
    Option.Rel R (v.bind fun a => (f a).map g) (v.bind f) := by
  cases v with
  | none => exact .none
  | some a =>
    rw [Option.bind_some, Option.bind_some]
    cases f a with
    | none => exact .none
    | some b => exact .some (related b)

theorem ApplicationId.read_describes (id : ApplicationId) : id.read.Describes id where
  packages := sameMembers_foldl_pushNew _
  signatures := sameMembers_foldl_pushNew _

theorem Authorizations.read_describes (a : Authorizations) : a.read.Describes a where
  purposes := rel_bind_map _ _ _ sameMembers_foldl_pushNew
  algorithms := rfl
  keySize := rfl
  digests := rel_bind_map _ _ _ sameMembers_foldl_pushNew
  ecCurve := rfl
  origin := rfl
  rootOfTrust := rfl
  attestationApplicationId := rel_bind_map _ _ _ ApplicationId.read_describes
  osPatchLevel := rfl
  vendorPatchLevel := rfl
  bootPatchLevel := rfl

/-- The parser reads the encoding of a key description as that key description. -/
theorem keyDescription_round_trip (d : Description)
    (short : (keyDescription d).raw.length < 2 ^ 32) :
    ∃ read, parseKeyDescription (keyDescription d).raw defaultLimits = .ok read ∧
      read.Describes d := by
  refine ⟨d.read, parseKeyDescription_keyDescription short, ?_⟩
  exact
    { attestationVersion := rfl
      attestationSecurityLevel := rfl
      keyMintVersion := rfl
      keyMintSecurityLevel := rfl
      attestationChallenge := rfl
      uniqueId := rfl
      softwareEnforced := d.sw.read_describes
      hardwareEnforced := d.hw.read_describes }

namespace Sample

/-- The lists of a key that an app generated in a trusted environment. -/
def description : Description where
  attestationVersion := 300
  attestationSecurityLevel := .trustedEnvironment
  keyMintVersion := 300
  keyMintSecurityLevel := .trustedEnvironment
  challenge := [1, 2, 3]
  uniqueId := []
  sw := {
    attributes := [
      { tag := Tag.creationDateTime, value := .int 1700000000000, typed := rfl },
      { tag := Tag.attestationApplicationId
        value := .applicationId {
          packages := [("org.example", 1)]
          signatures := [[0xab], [0x01, 0xff], [0xab]]
          packages_le := by decide
          signatures_le := by decide }
        typed := rfl }]
    distinct := by decide }
  hw := {
    attributes := [
      { tag := Tag.origin, value := .origin .generated, typed := rfl },
      { tag := Tag.purpose, value := .ints [2, -129, 2], typed := rfl },
      { tag := Tag.rootOfTrust
        value := .rootOfTrust {
          verifiedBootKey := [7]
          deviceLocked := true
          verifiedBootState := .selfSigned
          verifiedBootHash := some [8] }
        typed := rfl },
      { tag := Tag.osPatchLevel, value := .int 202409, typed := rfl }]
    distinct := by decide }

end Sample

theorem keyDescription_round_trip_sample :
    (keyDescription Sample.description).raw.length < 2 ^ 32 ∧
      ∃ read, parseKeyDescription (keyDescription Sample.description).raw defaultLimits = .ok read ∧
        read.Describes Sample.description := by
  have short : (keyDescription Sample.description).raw.length < 2 ^ 32 := by decide +kernel
  exact ⟨short, keyDescription_round_trip Sample.description short⟩

end UncrackableL5

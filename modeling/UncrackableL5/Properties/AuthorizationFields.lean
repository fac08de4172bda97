import Mathlib.Tactic.FinCases
import UncrackableL5.Properties.IntegerContents
import UncrackableL5.Properties.SignedFields
import UncrackableL5.Verifier.KeyDescription

/-!
# Authorization lists, field by field

`parseAuthorizationList` puts the elements into a map and converts what the map holds, so
only the last element of each tag matters once every element is known to be valid. This
module states that as one equivalence and derives the frame properties from it.

## Main results

- `parseAuthorizationList_eq_ok_iff`: when a list is read, and what is read from it.
- `authorization_list_fieldwise`: order, duplicates and recoverable errors.
-/
namespace UncrackableL5

/-! ### The two failure classes -/

/-- The call ended with an error that `recover` does not catch. -/
def Fatal {α : Type} (x : Js α) : Prop := ∃ e, x = .error e ∧ ∀ message, e ≠ .attributeError message

@[simp] theorem not_fatal_ok {α : Type} (a : α) : ¬Fatal (.ok a : Js α) := by
  rintro ⟨e, raised, -⟩
  cases raised

@[simp] theorem not_fatal_attributeError {α : Type} (message : String) :
    ¬Fatal (.error (.attributeError message) : Js α) := by
  rintro ⟨e, raised, other⟩
  cases raised
  exact other message rfl

@[simp] theorem fatal_error_iff {α : Type} (e : Exception) :
    Fatal (.error e : Js α) ↔ ∀ message, e ≠ .attributeError message := by
  constructor
  · rintro ⟨_, raised, other⟩
    cases raised
    exact other
  · intro other
    exact ⟨e, rfl, other⟩

theorem recoverAttribute_eq_ok_iff {α : Type} (x : Js α) (found : Option α) :
    recoverAttribute x = .ok found ↔ ¬Fatal x ∧ found = x.toOption := by
  cases x with
  | ok a => simp [recoverAttribute, Except.toOption, eq_comm]
  | error e => cases e <;> simp [recoverAttribute, Except.toOption, eq_comm]

/-- No last element of `tag` makes its conversion fail for good. -/
def Survives {α : Type} (last : Nat → Option Tlv) (tag : Nat) (fn : Tlv → Js α) : Prop :=
  ∀ v, last tag = some v → ¬Fatal (fn v)

/-- What a surviving conversion leaves in its field. -/
def fieldOf {α : Type} (last : Nat → Option Tlv) (tag : Nat) (fn : Tlv → Js α) : Option α :=
  (last tag).bind fun v => (fn v).toOption

theorem parseAttributeOf_eq_ok_iff {α : Type} (objects : List (Nat × Tlv)) (tag : Nat)
    (fn : Tlv → Js α) (found : Option α) :
    parseAttributeOf objects tag fn = .ok found ↔
      Survives (lastWith objects) tag fn ∧ found = fieldOf (lastWith objects) tag fn := by
  rw [parseAttributeOf, Survives, fieldOf]
  cases lastWith objects tag with
  | none => simp [eq_comm]
  | some v => simp [recoverAttribute_eq_ok_iff]

theorem checkUnread_eq_ok_iff {α : Type} (objects : List (Nat × Tlv)) (fn : Tlv → Js α)
    (tags : List Nat) (done : Unit) :
    checkUnread objects fn tags = .ok done ↔ ∀ tag ∈ tags, Survives (lastWith objects) tag fn := by
  induction tags with
  | nil => simp [checkUnread]
  | cons tag tags ih =>
    simp only [checkUnread, bind_ok_iff, ih, parseAttributeOf_eq_ok_iff, List.forall_mem_cons]
    constructor
    · rintro ⟨_, ⟨here, -⟩, rest⟩
      exact ⟨here, rest⟩
    · rintro ⟨here, rest⟩
      exact ⟨_, ⟨here, rfl⟩, rest⟩

/-- The conversion in `patchLevel`. -/
def toPatchLevel (v : Tlv) : Js Int :=
  if isUniversal v U.integer (some false) then integerValue v
  else .error (.error "Must be an ASN1Integer")

theorem integerValue_ne_attributeError (v : Tlv) (message : String) :
    integerValue v ≠ .error (.attributeError message) := by
  intro raised
  rcases integerValueAs_cases v U.integer with ⟨n, decoded⟩ | ⟨other, raised'⟩
  · cases decoded.symm.trans raised
  · cases raised'.symm.trans raised

/-- No conversion of a patch level is recoverable. -/
theorem toPatchLevel_ne_attributeError (v : Tlv) (message : String) :
    toPatchLevel v ≠ .error (.attributeError message) := by
  unfold toPatchLevel
  split
  next => exact integerValue_ne_attributeError v message
  next => simp

theorem patchLevel_eq_ok_iff (objects : List (Nat × Tlv)) (tag : Nat) (found : Option Int) :
    patchLevel objects tag = .ok found ↔
      Survives (lastWith objects) tag toPatchLevel ∧
        found = fieldOf (lastWith objects) tag toPatchLevel := by
  rw [patchLevel, Survives, fieldOf]
  cases lastWith objects tag with
  | none => simp [eq_comm]
  | some v =>
    have same : (if isUniversal v U.integer (some false) then (integerValue v).map some
        else .error (.error "Must be an ASN1Integer")) = (toPatchLevel v).map some := by
      unfold toPatchLevel
      split <;> rfl
    simp only [same, Option.some.injEq, forall_eq', Option.bind_some]
    cases converted : toPatchLevel v with
    | ok level => simp [Except.map, Except.toOption, eq_comm]
    | error e =>
      have fatal : ∀ message, e ≠ .attributeError message := fun message recoverable =>
        toPatchLevel_ne_attributeError v message (recoverable ▸ converted)
      simp [Except.map, fatal]

/-! ### All conversions -/

/-- A conversion without its value. -/
def discard {α : Type} (fn : Tlv → Js α) (v : Tlv) : Js Unit := (fn v).map fun _ => ()

/-- What `parseAuthorizationList` converts the child of a tag with, if it does. -/
def conversion (limits : InputLimits) (tag : Nat) : Option (Tlv → Js Unit) :=
  if tag ∈ [Tag.purpose, Tag.digest] ++ unreadIntSetTags then some (discard toIntSet)
  else if tag ∈ [Tag.algorithm, Tag.keySize, Tag.ecCurve] ++ unreadIntTags then some (discard toInt)
  else if tag ∈ [Tag.osPatchLevel, Tag.vendorPatchLevel, Tag.bootPatchLevel] then
    some (discard toPatchLevel)
  else if tag ∈ unreadStrTags then some (discard toStr)
  else if tag = Tag.moduleHash then some (discard toBytes)
  else if tag = Tag.origin then some (discard toOrigin)
  else if tag = Tag.rootOfTrust then some (discard toRootOfTrust)
  else if tag = Tag.attestationApplicationId then
    some (discard fun v => toAttestationApplicationId v limits)
  else none

/-- The list with the fields that surviving conversions leave. -/
def fieldsOf (limits : InputLimits) (last : Nat → Option Tlv) : AuthorizationList where
  purposes := fieldOf last Tag.purpose toIntSet
  algorithms := fieldOf last Tag.algorithm toInt
  keySize := fieldOf last Tag.keySize toInt
  digests := fieldOf last Tag.digest toIntSet
  ecCurve := fieldOf last Tag.ecCurve toInt
  origin := fieldOf last Tag.origin toOrigin
  rootOfTrust := fieldOf last Tag.rootOfTrust toRootOfTrust
  attestationApplicationId := fieldOf last Tag.attestationApplicationId
    fun v => toAttestationApplicationId v limits
  osPatchLevel := fieldOf last Tag.osPatchLevel toPatchLevel
  vendorPatchLevel := fieldOf last Tag.vendorPatchLevel toPatchLevel
  bootPatchLevel := fieldOf last Tag.bootPatchLevel toPatchLevel

/-- The conversion of every last child survives. -/
def AllSurvive (limits : InputLimits) (last : Nat → Option Tlv) : Prop :=
  ∀ tag fn, conversion limits tag = some fn → Survives last tag fn

theorem fatal_discard_iff {α : Type} (fn : Tlv → Js α) (v : Tlv) :
    Fatal (discard fn v) ↔ Fatal (fn v) := by
  unfold discard
  cases fn v <;> simp [Except.map]

theorem survives_discard_iff {α : Type} (last : Nat → Option Tlv) (tag : Nat) (fn : Tlv → Js α) :
    Survives last tag (discard fn) ↔ Survives last tag fn := by
  simp only [Survives, fatal_discard_iff]

theorem allSurvive_iff (limits : InputLimits) (last : Nat → Option Tlv) :
    AllSurvive limits last ↔
      (∀ tag ∈ [Tag.purpose, Tag.digest] ++ unreadIntSetTags, Survives last tag toIntSet) ∧
      (∀ tag ∈ [Tag.algorithm, Tag.keySize, Tag.ecCurve] ++ unreadIntTags,
        Survives last tag toInt) ∧
      (∀ tag ∈ [Tag.osPatchLevel, Tag.vendorPatchLevel, Tag.bootPatchLevel],
        Survives last tag toPatchLevel) ∧
      (∀ tag ∈ unreadStrTags, Survives last tag toStr) ∧
      Survives last Tag.moduleHash toBytes ∧ Survives last Tag.origin toOrigin ∧
      Survives last Tag.rootOfTrust toRootOfTrust ∧
      Survives last Tag.attestationApplicationId fun v => toAttestationApplicationId v limits := by
  constructor
  · intro all
    -- The groups have no tag in common.
    have group : ∀ {α : Type} {tag : Nat} {fn : Tlv → Js α},
        conversion limits tag = some (discard fn) → Survives last tag fn := by
      intro α tag fn converts
      exact (survives_discard_iff last tag fn).mp (all tag _ converts)
    refine ⟨fun tag member => group ?_, fun tag member => group ?_, fun tag member => group ?_,
      fun tag member => group ?_, group rfl, group rfl, group rfl, group rfl⟩
    all_goals fin_cases member <;> rfl
  · rintro ⟨sets, numbers, levels, texts, hash, origin, root, id⟩ tag fn converts
    unfold conversion at converts
    repeat' split at converts
    · cases converts
      exact (survives_discard_iff ..).mpr (sets tag ‹_›)
    · cases converts
      exact (survives_discard_iff ..).mpr (numbers tag ‹_›)
    · cases converts
      exact (survives_discard_iff ..).mpr (levels tag ‹_›)
    · cases converts
      exact (survives_discard_iff ..).mpr (texts tag ‹_›)
    · next is =>
      cases converts
      exact (survives_discard_iff ..).mpr (is ▸ hash)
    · next is =>
      cases converts
      exact (survives_discard_iff ..).mpr (is ▸ origin)
    · next is =>
      cases converts
      exact (survives_discard_iff ..).mpr (is ▸ root)
    · next is =>
      cases converts
      exact (survives_discard_iff ..).mpr (is ▸ id)
    · cases converts

theorem convertObjects_eq_ok_iff (objects : List (Nat × Tlv)) (limits : InputLimits)
    (list : AuthorizationList) :
    convertObjects objects limits = .ok list ↔
      AllSurvive limits (lastWith objects) ∧ list = fieldsOf limits (lastWith objects) := by
  simp only [convertObjects, bind_ok_iff, checkUnread_eq_ok_iff, patchLevel_eq_ok_iff,
    parseAttributeOf_eq_ok_iff, allSurvive_iff, List.forall_mem_append, List.forall_mem_cons,
    List.not_mem_nil, false_imp_iff, implies_true, true_and, Except.ok.injEq, and_assoc,
    exists_and_left, exists_eq_left, exists_const]
  constructor
  · rintro ⟨sets, numbers, os, vendor, boot, texts, hash, origin, purpose, algorithm, keySize,
      digest, ecCurve, root, id, rfl⟩
    exact ⟨purpose, digest, sets, algorithm, keySize, ecCurve, numbers, os, vendor, boot, texts,
      hash, origin, root, id, rfl⟩
  · rintro ⟨purpose, digest, sets, algorithm, keySize, ecCurve, numbers, os, vendor, boot, texts,
      hash, origin, root, id, rfl⟩
    exact ⟨sets, numbers, os, vendor, boot, texts, hash, origin, purpose, algorithm, keySize,
      digest, ecCurve, root, id, rfl⟩

/-! ### Elements -/

/-- The child of an element that has exactly one. -/
def onlyChild (el : Tlv) : Option Tlv :=
  match children el with
  | .ok [inner] => some inner
  | _ => none

/-- The structure that every element of a list has to have. -/
structure StructurallyValid (el : Tlv) : Prop where
  tagged : el.cls ≠ .universal
  known : el.tag ∈ knownTags
  constructed : el.constructed = true
  single : (onlyChild el).isSome

instance (el : Tlv) : Decidable (StructurallyValid el) :=
  decidable_of_iff (el.cls ≠ .universal ∧ el.tag ∈ knownTags ∧ el.constructed = true ∧
      (onlyChild el).isSome)
    ⟨fun ⟨tagged, known, constructed, single⟩ => ⟨tagged, known, constructed, single⟩,
      fun valid => ⟨valid.tagged, valid.known, valid.constructed, valid.single⟩⟩

/-- The last element with this tag number. -/
def lastElement (els : List Tlv) (tag : Nat) : Option Tlv :=
  els.reverse.find? fun el => el.tag = tag

def lastChild (els : List Tlv) (tag : Nat) : Option Tlv := (lastElement els tag).bind onlyChild

theorem readTagged_eq_ok_iff (el : Tlv) (entry : Nat × Tlv) :
    readTagged el = .ok entry ↔
      StructurallyValid el ∧ entry.1 = el.tag ∧ some entry.2 = onlyChild el := by
  unfold readTagged
  constructor
  · intro read
    simp only [guard_eq_ok_iff, bind_ok_iff, not_not, Bool.not_eq_false] at read
    obtain ⟨tagged, known, constructed, kids, found, read⟩ := read
    split at read
    next inner =>
      cases read
      have only : onlyChild el = some inner := by rw [onlyChild, found]
      exact ⟨⟨tagged, known, constructed, by rw [only]; rfl⟩, rfl, only.symm⟩
    next => cases read
  · rintro ⟨⟨tagged, known, constructed, -⟩, number, only⟩
    rw [onlyChild] at only
    split at only
    next inner found =>
      cases only
      rw [if_neg tagged, if_neg (not_not.mpr known), if_neg (by simp [constructed]), found]
      cases entry
      cases number
      rfl
    next => cases only

private theorem find?_tagged {els : List Tlv} {objects : List (Nat × Tlv)} (tag : Nat)
    (read : List.Forall₂ (fun el entry => readTagged el = .ok entry) els objects) :
    (objects.find? fun e => e.1 = tag).map (·.2) =
      (els.find? fun el => el.tag = tag).bind onlyChild := by
  induction read with
  | nil => rfl
  | @cons el entry els objects here _ ih =>
    obtain ⟨-, number, child⟩ := (readTagged_eq_ok_iff el entry).mp here
    by_cases found : el.tag = tag
    · simp [number, found, child]
    · simp [number, found, ih]

theorem mapM_readTagged_eq_ok {els : List Tlv} {objects : List (Nat × Tlv)}
    (read : els.mapM readTagged = .ok objects) :
    (∀ el ∈ els, StructurallyValid el) ∧ lastWith objects = lastChild els := by
  rw [mapM_ok_iff_forall₂] at read
  constructor
  · have valid := read.imp fun el entry here =>
      And.intro ((readTagged_eq_ok_iff el entry).mp here).1 here
    exact ((List.forall₂_and_left els objects).mp valid).1
  · funext tag
    exact find?_tagged tag (List.forall₂_reverse_iff.mpr read)

theorem exists_mapM_readTagged {els : List Tlv} (valid : ∀ el ∈ els, StructurallyValid el) :
    ∃ objects, els.mapM readTagged = .ok objects := by
  induction els with
  | nil => exact ⟨[], rfl⟩
  | cons el els ih =>
    obtain ⟨here, rest⟩ := List.forall_mem_cons.mp valid
    obtain ⟨inner, child⟩ := Option.isSome_iff_exists.mp here.single
    obtain ⟨objects, read⟩ := ih rest
    have first : readTagged el = .ok (el.tag, inner) :=
      (readTagged_eq_ok_iff el _).mpr ⟨here, rfl, child.symm⟩
    exact ⟨(el.tag, inner) :: objects, by rw [List.mapM_cons, first, ok_bind, read]; rfl⟩

/-- When a list is read, and what is read from it. -/
theorem parseAuthorizationList_eq_ok_iff {t : Tlv} {els : List Tlv} (limits : InputLimits)
    (elements : sequence t "SEQUENCE" = .ok els) (list : AuthorizationList) :
    parseAuthorizationList t limits = .ok list ↔
      (∀ el ∈ els, StructurallyValid el) ∧ AllSurvive limits (lastChild els) ∧
        list = fieldsOf limits (lastChild els) := by
  obtain ⟨_, expected, -⟩ := (bind_ok_iff ..).mp elements
  obtain ⟨isSequence, -⟩ := (expect_eq_ok_iff ..).mp expected
  rw [parseAuthorizationList, if_pos isSequence, elements, ok_bind, bind_ok_iff]
  simp only [convertObjects_eq_ok_iff]
  constructor
  · rintro ⟨objects, read, converted⟩
    obtain ⟨valid, last⟩ := mapM_readTagged_eq_ok read
    exact ⟨valid, last ▸ converted⟩
  · rintro ⟨valid, converted⟩
    obtain ⟨objects, read⟩ := exists_mapM_readTagged valid
    obtain ⟨-, last⟩ := mapM_readTagged_eq_ok read
    exact ⟨objects, read, last ▸ converted⟩

/-! ### Frame properties -/

theorem toOption_eq_of_iff {α : Type} {x y : Js α} (same : ∀ a, x = .ok a ↔ y = .ok a) :
    x.toOption = y.toOption := by
  ext a
  rw [toOption_eq_some_iff, toOption_eq_some_iff, same]

/-- The outcome depends on validity and on the last children only. -/
theorem parseAuthorizationList_congr {t u : Tlv} {els others : List Tlv} (limits : InputLimits)
    (elements : sequence t "SEQUENCE" = .ok els) (elementsToo : sequence u "SEQUENCE" = .ok others)
    (valid : (∀ el ∈ els, StructurallyValid el) ↔ ∀ el ∈ others, StructurallyValid el)
    (last : lastChild els = lastChild others) :
    (parseAuthorizationList t limits).toOption = (parseAuthorizationList u limits).toOption := by
  apply toOption_eq_of_iff
  intro list
  rw [parseAuthorizationList_eq_ok_iff limits elements,
    parseAuthorizationList_eq_ok_iff limits elementsToo, valid, last]

/-- An element with a later one of its tag is never the last. -/
theorem lastElement_skip (before middle after : List Tlv) {dup later : Tlv}
    (same : later.tag = dup.tag) :
    lastElement (before ++ dup :: middle ++ later :: after) =
      lastElement (before ++ middle ++ later :: after) := by
  funext tag
  unfold lastElement
  by_cases here : dup.tag = tag
  · simp [List.find?_append, same, here]
  · simp [List.find?_append, same, here]

/-- With a new last element of its tag, only the last child of that tag changes. -/
theorem lastChild_replace (before after : List Tlv) {el el' : Tlv} (same : el'.tag = el.tag)
    (isLast : ∀ x ∈ after, x.tag ≠ el.tag) :
    lastChild (before ++ el' :: after) =
      Function.update (lastChild (before ++ el :: after)) el.tag (onlyChild el') := by
  have unseen : after.reverse.find? (fun x => x.tag = el.tag) = none := by
    simpa [List.find?_eq_none] using isLast
  funext tag
  unfold lastChild lastElement
  by_cases here : tag = el.tag
  · subst here
    simp [List.find?_append, same, unseen]
  · have other : el.tag ≠ tag := Ne.symm here
    simp [List.find?_append, same, here, other]

/-- The list with the field of `tag` null; a tag without a field changes nothing. -/
def AuthorizationList.without (list : AuthorizationList) (tag : Nat) : AuthorizationList where
  purposes := if tag = Tag.purpose then none else list.purposes
  algorithms := if tag = Tag.algorithm then none else list.algorithms
  keySize := if tag = Tag.keySize then none else list.keySize
  digests := if tag = Tag.digest then none else list.digests
  ecCurve := if tag = Tag.ecCurve then none else list.ecCurve
  origin := if tag = Tag.origin then none else list.origin
  rootOfTrust := if tag = Tag.rootOfTrust then none else list.rootOfTrust
  attestationApplicationId :=
    if tag = Tag.attestationApplicationId then none else list.attestationApplicationId
  osPatchLevel := if tag = Tag.osPatchLevel then none else list.osPatchLevel
  vendorPatchLevel := if tag = Tag.vendorPatchLevel then none else list.vendorPatchLevel
  bootPatchLevel := if tag = Tag.bootPatchLevel then none else list.bootPatchLevel

section Replacement

variable {limits : InputLimits} {last : Nat → Option Tlv} {tag : Nat} {fn : Tlv → Js Unit} {v : Tlv}
  {message : String}

/-- Before and after the child of one tag is replaced, by one that cannot be converted. -/
private theorem fieldOf_update {α : Type} (field : Nat) {convert : Tlv → Js α}
    (converts : conversion limits field = some (discard convert))
    (here : conversion limits tag = some fn) (raised : fn v = .error (.attributeError message)) :
    fieldOf (Function.update last tag (some v)) field convert =
      if tag = field then none else fieldOf last field convert := by
  unfold fieldOf
  split
  next same =>
    subst same
    obtain rfl : discard convert = fn := Option.some.inj (converts.symm.trans here)
    rw [Function.update_self, Option.bind_some]
    unfold discard at raised
    cases outcome : convert v with
    | ok => rw [outcome] at raised; cases raised
    | error => rfl
  next other => rw [Function.update_of_ne (Ne.symm other)]

theorem fieldsOf_update (here : conversion limits tag = some fn)
    (raised : fn v = .error (.attributeError message)) :
    fieldsOf limits (Function.update last tag (some v)) = (fieldsOf limits last).without tag := by
  unfold fieldsOf AuthorizationList.without
  simp only [AuthorizationList.mk.injEq]
  refine ⟨?_, ?_, ?_, ?_, ?_, ?_, ?_, ?_, ?_, ?_, ?_⟩
  all_goals exact fieldOf_update _ rfl here raised

theorem allSurvive_update (survive : AllSurvive limits last)
    (here : conversion limits tag = some fn) (raised : fn v = .error (.attributeError message)) :
    AllSurvive limits (Function.update last tag (some v)) := by
  intro field convert converts child found
  by_cases same : field = tag
  · subst same
    obtain rfl : convert = fn := Option.some.inj (converts.symm.trans here)
    rw [Function.update_self] at found
    cases found
    rw [raised]
    exact not_fatal_attributeError message
  · rw [Function.update_of_ne same] at found
    exact survive field convert converts child found

end Replacement

/-- An authorization list is read field by field, whatever the order of its elements. -/
theorem authorization_list_fieldwise (limits : InputLimits) :
    -- Only validity and the last child of each tag matter.
    (∀ t u els others, sequence t "SEQUENCE" = .ok els → sequence u "SEQUENCE" = .ok others →
      ((∀ el ∈ els, StructurallyValid el) ↔ ∀ el ∈ others, StructurallyValid el) →
      (∀ tag, lastChild els tag = lastChild others tag) →
      (parseAuthorizationList t limits).toOption = (parseAuthorizationList u limits).toOption) ∧
    -- Reordering.
    (∀ t u els others, sequence t "SEQUENCE" = .ok els → sequence u "SEQUENCE" = .ok others →
      els.Perm others → (∀ tag, lastElement els tag = lastElement others tag) →
      (parseAuthorizationList t limits).toOption = (parseAuthorizationList u limits).toOption) ∧
    -- Earlier duplicates.
    (∀ t u before middle after dup later,
      sequence t "SEQUENCE" = .ok (before ++ dup :: middle ++ later :: after) →
      sequence u "SEQUENCE" = .ok (before ++ middle ++ later :: after) →
      StructurallyValid dup → later.tag = dup.tag →
      (parseAuthorizationList t limits).toOption = (parseAuthorizationList u limits).toOption) ∧
    -- A last child whose conversion raises `AttributeError` takes the place of another one.
    (∀ t u before after el el' v fn message list,
      sequence t "SEQUENCE" = .ok (before ++ el :: after) →
      sequence u "SEQUENCE" = .ok (before ++ el' :: after) →
      (∀ x ∈ after, x.tag ≠ el.tag) → el'.tag = el.tag → StructurallyValid el' →
      onlyChild el' = some v → conversion limits el.tag = some fn →
      fn v = .error (.attributeError message) → parseAuthorizationList t limits = .ok list →
      parseAuthorizationList u limits = .ok (list.without el.tag)) ∧
    -- Every other error of a last child's conversion.
    (∀ t els tag v fn e, sequence t "SEQUENCE" = .ok els → lastChild els tag = some v →
      conversion limits tag = some fn → fn v = .error e → (∀ message, e ≠ .attributeError message) →
      ∃ e', parseAuthorizationList t limits = .error e') := by
  refine ⟨?_, ?_, ?_, ?_, ?_⟩
  · intro t u els others elements elementsToo valid last
    exact parseAuthorizationList_congr limits elements elementsToo valid (funext last)
  · intro t u els others elements elementsToo perm last
    apply parseAuthorizationList_congr limits elements elementsToo
    · simp only [perm.mem_iff]
    · funext tag
      rw [lastChild, lastChild, last]
  · intro t u before middle after dup later elements elementsToo valid same
    apply parseAuthorizationList_congr limits elements elementsToo
    · simp only [List.forall_mem_append, List.forall_mem_cons, valid, true_and]
    · funext tag
      rw [lastChild, lastChild, lastElement_skip before middle after same]
  · intro t u before after el el' v fn message list elements elementsToo isLast same valid child
      here raised parsed
    obtain ⟨valids, survive, rfl⟩ := (parseAuthorizationList_eq_ok_iff limits elements _).mp parsed
    rw [parseAuthorizationList_eq_ok_iff limits elementsToo,
      lastChild_replace before after same isLast, child]
    refine ⟨?_, allSurvive_update survive here raised, (fieldsOf_update here raised).symm⟩
    simp only [List.forall_mem_append, List.forall_mem_cons] at valids ⊢
    exact ⟨valids.1, valid, valids.2.2⟩
  · intro t els tag v fn e elements child here raised fatal
    cases parsed : parseAuthorizationList t limits with
    | error e' => exact ⟨e', rfl⟩
    | ok list =>
      obtain ⟨-, survive, -⟩ := (parseAuthorizationList_eq_ok_iff limits elements _).mp parsed
      exact absurd ⟨e, raised, fatal⟩ (survive tag fn here v child)

namespace Sample

open DerWriter

def sizeElement (bits : Int) : Tlv := ctx Tag.keySize (int bits)

def algorithmElement : Tlv := ctx Tag.algorithm (int 3)

/-- An OCTET STRING where another type is expected. -/
def octetElement (tag : Nat) : Tlv := ctx tag (octet [])

theorem lastElement_swap (tag : Nat) :
    lastElement [sizeElement 256, algorithmElement] tag =
      lastElement [algorithmElement, sizeElement 256] tag := by
  have size : (sizeElement 256).tag = Tag.keySize := rfl
  have algorithm : algorithmElement.tag = Tag.algorithm := rfl
  by_cases here : Tag.keySize = tag
  · subst here
    simp [lastElement, size, algorithm]
  · simp [lastElement, List.find?_cons, size, algorithm, here]

end Sample

/-- A key size given twice, in another order, replaced, and beside a patch level without a value. -/
theorem authorization_list_fieldwise_sample :
    let parse := fun els => parseAuthorizationList (DerWriter.seq els) defaultLimits
    let size := Sample.sizeElement
    let algorithm := Sample.algorithmElement
    (parse [size 256, algorithm]).toOption = (parse [size 384, algorithm, size 256]).toOption ∧
      (parse [size 256, algorithm]).toOption = (parse [algorithm, size 256]).toOption ∧
      (parse [size 256, algorithm, size 384]).toOption = (parse [algorithm, size 384]).toOption ∧
      (∃ list, parse [size 384, algorithm] = .ok list ∧ list.keySize = some 384 ∧
        parse [Sample.octetElement Tag.keySize, algorithm] = .ok (list.without Tag.keySize)) ∧
      ∃ e, parse [Sample.octetElement Tag.osPatchLevel, algorithm] = .error e := by
  obtain ⟨depends, reorder, duplicates, replace, fatal⟩ :=
    authorization_list_fieldwise defaultLimits
  intro parse size algorithm
  refine ⟨?_, ?_, ?_, ?_, ?_⟩
  · have skipped : lastElement [size 384, algorithm, size 256] =
        lastElement [algorithm, size 256] := lastElement_skip [] [algorithm] [] rfl
    refine depends _ _ [size 256, algorithm] [size 384, algorithm, size 256] (by decide +kernel)
      (by decide +kernel) (by decide +kernel) ?_
    intro tag
    rw [lastChild, lastChild, Sample.lastElement_swap, skipped]
  · exact reorder _ _ [size 256, algorithm] [algorithm, size 256] (by decide +kernel)
      (by decide +kernel) (.swap _ _ []) Sample.lastElement_swap
  · exact duplicates _ _ [] [algorithm] [] (size 256) (size 384) (by decide +kernel)
      (by decide +kernel) (by decide +kernel) rfl
  · have read : (parse [size 384, algorithm]).toOption.map (·.keySize) = some (some 384) := by
      decide +kernel
    obtain ⟨list, found, keySize⟩ := Option.map_eq_some_iff.mp read
    have parsed := toOption_eq_some_iff.mp found
    exact ⟨list, parsed, keySize, replace _ _ [] [algorithm] (size 384)
      (Sample.octetElement Tag.keySize) (DerWriter.octet []) _ _ list (by decide +kernel)
      (by decide +kernel) (by decide +kernel) rfl (by decide +kernel) (by decide +kernel) rfl rfl
      parsed⟩
  · exact fatal _ [Sample.octetElement Tag.osPatchLevel, algorithm] Tag.osPatchLevel
      (DerWriter.octet []) _ _ (by decide +kernel) (by decide +kernel) rfl rfl (by simp)

end UncrackableL5

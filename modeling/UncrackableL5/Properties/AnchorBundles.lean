import UncrackableL5.Library.Pairing
import UncrackableL5.Properties.ChainShape
import UncrackableL5.Properties.SignedFields
import UncrackableL5.Verifier.Anchors

/-!
# Which certificates become trust anchors

A bundle is cut into blocks by two passes of one pattern, and each block into its body by another
one. What is checked of a certificate is that it carries a BasicConstraints extension that decodes,
not that the extension makes it a CA.

## Main results

- `parseCertificate_basicConstraints`: what the three-valued field says about the extensions.
- `anchors_selfSigned_iff`: when every anchor is a self-signed CA.
-/
namespace UncrackableL5

/-! ### The field of the certificate -/

/-- The field holds a value exactly when a BasicConstraints extension decodes to it. -/
def ExtensionState.Sound (state : ExtensionState) : Prop :=
  ∀ ca, state.basicConstraintsCa = some ca ↔
    ∃ e ∈ state.extensions, e.1 = Oid.basicConstraints ∧ decodeBasicConstraints e.2.value = .ok ca

theorem ExtensionState.Sound.append {state : ExtensionState} (sound : state.Sound) {oid : JsString}
    (extension : Extension) (unseen : oid ∉ state.extensions.map (·.1)) {field : Option Bool}
    (decodes : ∀ ca, field = some ca ↔
      if oid = Oid.basicConstraints then decodeBasicConstraints extension.value = .ok ca
      else state.basicConstraintsCa = some ca) :
    ExtensionState.Sound {
      extensions := state.extensions ++ [(oid, extension)]
      basicConstraintsCa := field } := by
  intro ca
  simp only [decodes, List.mem_append, List.mem_singleton, or_and_right, exists_or,
    exists_eq_left]
  split
  next isBasic =>
    -- No earlier extension has this name.
    have none : ¬∃ e ∈ state.extensions, e.1 = Oid.basicConstraints ∧
        decodeBasicConstraints e.2.value = .ok ca := by
      rintro ⟨e, present, same, -⟩
      exact unseen (List.mem_map.mpr ⟨e, present, same.trans isBasic.symm⟩)
    simp only [none, isBasic, true_and, false_or]
  next other => simp only [sound ca, other, false_and, or_false]

theorem addExtension_sound {state next : ExtensionState} {extT : Tlv} (sound : state.Sound)
    (added : addExtension state extT = .ok next) : next.Sound := by
  unfold addExtension at added
  obtain ⟨⟨oid, extension⟩, -, added⟩ := (bind_ok_iff ..).mp added
  dsimp only at added
  split at added
  next => cases added
  next fresh =>
    have unseen : oid ∉ state.extensions.map (·.1) := by
      intro member
      obtain ⟨e, present, same⟩ := List.mem_map.mp member
      exact fresh (List.any_eq_true.mpr ⟨e, present, by simpa using same⟩)
    split at added
    next isBasic =>
      split at added
      next ca decoded =>
        cases added
        apply sound.append extension unseen
        intro other
        rw [if_pos isBasic, decoded, Option.some.injEq, Except.ok.injEq]
      next e malformed =>
        split at added
        next => cases added
        next =>
          cases added
          apply sound.append extension unseen
          intro other
          rw [if_pos isBasic, malformed]
          simp
    next other =>
      have kept : ∀ ca, state.basicConstraintsCa = some ca ↔
          if oid = Oid.basicConstraints then decodeBasicConstraints extension.value = .ok ca
          else state.basicConstraintsCa = some ca := by
        intro ca
        rw [if_neg other]
      split at added
      next =>
        cases added
        exact sound.append extension unseen kept
      next =>
        split at added
        next => cases added
        next =>
          cases added
          exact sound.append extension unseen kept

theorem foldlM_addExtension_sound {items : List Tlv} {state final : ExtensionState}
    (sound : state.Sound) (loaded : items.foldlM addExtension state = .ok final) : final.Sound := by
  induction items generalizing state with
  | nil =>
    cases loaded
    exact sound
  | cons item items ih =>
    rw [List.foldlM_cons] at loaded
    obtain ⟨next, added, rest⟩ := (bind_ok_iff ..).mp loaded
    exact ih (addExtension_sound sound added) rest

theorem readExtensions_sound {body : Bytes} {p : Nat} {version : Int} {loaded : ExtensionState}
    (read : readExtensions body p version = .ok loaded) : loaded.Sound := by
  have empty : ExtensionState.Sound { extensions := [], basicConstraintsCa := none } := by
    simp [ExtensionState.Sound]
  unfold readExtensions at read
  split at read
  next =>
    split at read
    next =>
      obtain ⟨⟨wrapper, _⟩, -, read⟩ := (bind_ok_iff ..).mp read
      obtain ⟨kids, -, read⟩ := (bind_ok_iff ..).mp read
      split at read
      next =>
        obtain ⟨items, -, read⟩ := (bind_ok_iff ..).mp read
        exact foldlM_addExtension_sound empty read
      next => cases read
    next =>
      cases read
      exact empty
  next =>
    cases read
    exact empty

/-- What the three-valued field says about the extensions of a certificate. -/
theorem parseCertificate_basicConstraints {tables : CaseTables} {der : Bytes} {cert : Certificate}
    (parsed : parseCertificate tables der = .ok cert) (ca : Bool) :
    cert.basicConstraintsCa = some ca ↔
      ∃ e ∈ cert.extensions, e.1 = Oid.basicConstraints ∧
        decodeBasicConstraints e.2.value = .ok ca := by
  obtain ⟨tbsT, f, -, read, isCertificate⟩ := parseCertificate_signed parsed
  obtain ⟨p, version, loaded⟩ := readSigned_extensions read
  rw [isCertificate]
  exact readExtensions_sound loaded ca

/-! ### The text -/

/-- A certificate block with this body. -/
def blockOf (body : JsString) : JsString := beginCertificate ++ body ++ endCertificate

/-- A body is not empty and has units of its class only. -/
structure IsBody (body : JsString) : Prop where
  nonempty : body ≠ []
  units : ∀ u ∈ body, isBodyUnit u = true

/-- The text is these blocks, with whitespace between and around them. -/
inductive Bundle : JsString → List JsString → Prop
  | nil : Bundle [] []
  | space {u : UInt16} {rest : JsString} {blocks : List JsString} (isWhite : isSpace u = true)
      (others : Bundle rest blocks) : Bundle (u :: rest) blocks
  | block {body rest : JsString} {blocks : List JsString} (isBody : IsBody body)
      (others : Bundle rest blocks) : Bundle (blockOf body ++ rest) (blockOf body :: blocks)

theorem trim_eq_nil {s : JsString} (empty : trim s = []) : ∀ u ∈ s, isSpace u = true := by
  have rest : ∀ u ∈ s.dropWhile isSpace, isSpace u = true := by
    have none := List.dropWhile_eq_nil_iff.mp (List.reverse_eq_nil_iff.mp empty)
    exact fun u member => none u (List.mem_reverse.mpr member)
  intro u member
  rw [← @List.takeWhile_append_dropWhile _ isSpace s] at member
  rcases List.mem_append.mp member with front | back
  · exact List.mem_takeWhile_imp front
  · exact rest u back

/-- A scan that keeps nothing but whitespace has cut the text into blocks. -/
theorem bundle_of_scanned {text kept : JsString} {blocks : List JsString}
    (scanned : Scan.Scanned certificateLength text blocks kept)
    (white : ∀ u ∈ kept, isSpace u = true) : Bundle text blocks := by
  induction scanned with
  | nil => exact .nil
  | keep _ _ ih =>
    obtain ⟨first, rest⟩ := List.forall_mem_cons.mp white
    exact .space first (ih rest)
  | @pass piece rest found kept nonempty length _ ih =>
    have matched : certificateLength (piece ++ rest) ≠ 0 := by
      rw [length]
      exact fun empty => nonempty (List.eq_nil_of_length_eq_zero empty)
    obtain ⟨body, after, some_, units, shape, size⟩ := Scan.enclosedLength_spec matched
    have same : piece = blockOf body := by
      exact (List.append_inj shape (length.symm.trans size)).1
    rw [same]
    exact .block ⟨some_, units⟩ (ih white)

private theorem markerLength_marker (name rest : JsString) (nonempty : name ≠ [])
    (units : ∀ u ∈ name, isMarkerUnit u = true) :
    markerLength (js "-----" ++ name ++ js "-----" ++ rest) =
      (js "-----" ++ name ++ js "-----").length :=
  Scan.enclosedLength_eq rest nonempty units ⟨45, js "----", by decide, by decide⟩

/-- Units of a body are no marker's start. -/
private theorem scanned_body {body : JsString} (units : ∀ u ∈ body, isBodyUnit u = true)
    {rest kept : JsString} {found : List JsString}
    (others : Scan.Scanned markerLength rest found kept) :
    Scan.Scanned markerLength (body ++ rest) found (body ++ kept) := by
  induction body with
  | nil => exact others
  | cons u body ih =>
    obtain ⟨unit, units⟩ := List.forall_mem_cons.mp units
    refine .keep ?_ (ih units)
    by_contra matched
    obtain ⟨run, after, -, -, shape, -⟩ := Scan.enclosedLength_spec matched
    have dash : u = 45 := by
      have first := congrArg List.head? shape
      simpa [js, utf16] using first
    rw [dash] at unit
    exact absurd unit (by decide)

/-- What the marker pattern leaves of a block is its body. -/
theorem removeAll_markerLength {body : JsString} (isBody : IsBody body) :
    Scan.removeAll markerLength (blockOf body) = body := by
  have begins : beginCertificate = js "-----" ++ js "BEGIN CERTIFICATE" ++ js "-----" := by decide
  have ends : endCertificate = js "-----" ++ js "END CERTIFICATE" ++ js "-----" := by decide
  have last : Scan.Scanned markerLength (endCertificate ++ []) [endCertificate] [] := by
    refine .pass (by decide) ?_ .nil
    rw [ends]
    exact markerLength_marker (js "END CERTIFICATE") [] (by decide) (List.all_eq_true.mp (by decide))
  have whole : Scan.Scanned markerLength (beginCertificate ++ (body ++ (endCertificate ++ [])))
      [beginCertificate, endCertificate] (body ++ []) := by
    refine .pass (by decide) ?_ (scanned_body isBody.units last)
    rw [begins]
    exact markerLength_marker (js "BEGIN CERTIFICATE") _ (by decide)
      (List.all_eq_true.mp (by decide))
  rw [List.append_nil, List.append_nil, ← List.append_assoc] at whole
  exact ((Scan.scanned Scan.enclosedLength_le _).unique whole).2

/-- The block carries this certificate: its body without whitespace is the certificate in Base64. -/
def Carries (tables : CaseTables) (block : JsString) (cert : Certificate) : Prop :=
  ∃ body der, IsBody body ∧ block = blockOf body ∧ base64Decode (removeSpaces body) = .ok der ∧
    parseCertificate tables der = .ok cert

theorem Carries.unique {tables : CaseTables} {block : JsString} {cert other : Certificate}
    (first : Carries tables block cert) (second : Carries tables block other) : cert = other := by
  obtain ⟨body, der, -, rfl, decoded, parsed⟩ := first
  obtain ⟨body', der', -, same, decodedToo, parsedToo⟩ := second
  have bodies : body = body' :=
    List.append_cancel_left (List.append_cancel_right same)
  rw [bodies, decodedToo] at decoded
  cases decoded
  rw [parsedToo] at parsed
  exact (Except.ok.inj parsed).symm

theorem carries_of_parseBlock {tables : CaseTables} {body : JsString} {cert : Certificate}
    (isBody : IsBody body) (parsed : parseBlock tables (blockOf body) = .ok cert) :
    Carries tables (blockOf body) cert := by
  rw [parseBlock, removeAll_markerLength isBody, bind_ok_iff] at parsed
  obtain ⟨der, decoded, parsed⟩ := parsed
  exact ⟨body, der, isBody, rfl, decoded, parsed⟩

theorem Bundle.isBlock {text : JsString} {blocks : List JsString} (bundle : Bundle text blocks) :
    ∀ block ∈ blocks, ∃ body, IsBody body ∧ block = blockOf body := by
  induction bundle with
  | nil => simp
  | space _ _ ih => exact ih
  | block isBody _ ih => exact List.forall_mem_cons.mpr ⟨⟨_, isBody, rfl⟩, ih⟩

/-! ### Accepted bundles -/

/-- A BasicConstraints value: a SEQUENCE that starts with this BOOLEAN, and if there is more, an
INTEGER is next. -/
def StatesCa (value : Bytes) (ca : Bool) : Prop :=
  ∃ t flag rest, parseSingle value = .ok t ∧ sequence t "BasicConstraints" = .ok (flag :: rest) ∧
    isUniversal flag U.boolean none = true ∧ booleanValue flag = .ok ca ∧
      ∀ pathLen, rest.head? = some pathLen → ∃ n, integerValue pathLen = .ok n

/-- Only an explicit TRUE is decoded to a CA. -/
theorem decodeBasicConstraints_true_iff (value : Bytes) :
    decodeBasicConstraints value = .ok true ↔ StatesCa value true := by
  simp only [decodeBasicConstraints, bind_ok_iff, StatesCa]
  constructor
  · rintro ⟨t, parsed, items, elements, decoded⟩
    split at decoded
    next => cases decoded
    next flag rest =>
      split at decoded
      next isFlag =>
        obtain ⟨ca, isCa, decoded⟩ := (bind_ok_iff ..).mp decoded
        cases rest with
        | nil =>
          cases decoded
          exact ⟨t, flag, [], parsed, elements, isFlag, isCa, by simp⟩
        | cons pathLen rest =>
          obtain ⟨n, isNumber, decoded⟩ := (bind_ok_iff ..).mp decoded
          cases decoded
          exact ⟨t, flag, _, parsed, elements, isFlag, isCa, by simp [isNumber]⟩
      next => cases decoded
  · rintro ⟨t, flag, rest, parsed, elements, isFlag, isCa, number⟩
    refine ⟨t, parsed, _, elements, ?_⟩
    simp only [isFlag, if_true, isCa, ok_bind]
    cases rest with
    | nil => rfl
    | cons pathLen rest =>
      obtain ⟨n, isNumber⟩ := number pathLen rfl
      simp only [isNumber, ok_bind]

variable {CryptoKey : Type}

theorem checkAnchor_eq_ok_iff (host : Host CryptoKey) (cert anchor : Certificate) :
    checkAnchor host cert = .ok anchor ↔
      anchor = cert ∧ (∃ ca, cert.basicConstraintsCa = some ca) ∧
        namesEqual cert.issuer cert.subject = true ∧
          verifyCertificate host cert cert.publicKey = true := by
  rw [checkAnchor, guard_eq_ok_iff, guard_eq_ok_iff, not_or, Bool.not_eq_false, Bool.not_eq_false,
    isSelfIssued, ← ne_eq, Option.ne_none_iff_exists', Except.ok.injEq]
  constructor
  · rintro ⟨⟨carries, issued⟩, signed, rfl⟩
    exact ⟨rfl, carries, issued, signed⟩
  · rintro ⟨rfl, carries, issued, signed⟩
    exact ⟨⟨carries, issued⟩, signed, rfl⟩

/-- An accepted bundle: its blocks, and what is known of the certificate of each. -/
theorem parseAnchors_eq_ok {host : Host CryptoKey} {pem : JsString} {list : List Certificate}
    (returned : parseAnchors host pem = .ok list) :
    let blocks := Scan.findAll certificateLength pem
    Bundle pem blocks ∧ 1 ≤ blocks.length ∧ blocks.length ≤ 16 ∧
      List.Forall₂ (Carries host.tables) blocks list ∧
        ∀ cert ∈ list, checkAnchor host cert = .ok cert := by
  intro blocks
  simp only [parseAnchors, guard_eq_ok_iff, bind_ok_iff, not_or, not_lt, not_not] at returned
  obtain ⟨-, ⟨some_, few, white⟩, certs, parsed, checked⟩ := returned
  have bundle : Bundle pem blocks :=
    bundle_of_scanned (Scan.scanned Scan.enclosedLength_le pem) (trim_eq_nil white)
  rw [parsePemCertificates, mapM_ok_iff_forall₂] at parsed
  rw [mapM_ok_iff_forall₂] at checked
  have same : certs = list := by
    rw [← List.forall₂_eq_eq_eq]
    exact checked.imp fun cert anchor here => ((checkAnchor_eq_ok_iff ..).mp here).1.symm
  subst same
  refine ⟨bundle, some_, few, ?_, ?_⟩
  · refine ((List.forall₂_and_left _ _).mpr ⟨bundle.isBlock, parsed⟩).imp ?_
    rintro block cert ⟨⟨body, isBody, rfl⟩, here⟩
    exact carries_of_parseBlock isBody here
  · exact List.forall₂_same.mp checked

/-- What is asked of a bundle of anchors. -/
structure TrustedBundle (host : Host CryptoKey) (pem : JsString) (list : List Certificate) :
    Prop where
  text : ∃ blocks, Bundle pem blocks ∧ 1 ≤ blocks.length ∧ blocks.length ≤ 16 ∧
    List.Forall₂ (Carries host.tables) blocks list
  selfIssued : ∀ cert ∈ list, namesEqual cert.issuer cert.subject = true
  selfSigned : ∀ cert ∈ list, verifyCertificate host cert cert.publicKey = true
  ca : ∀ cert ∈ list, ∃ e ∈ cert.extensions, e.1 = Oid.basicConstraints ∧ StatesCa e.2.value true

/-- BasicConstraints decodes to no CA: an empty SEQUENCE, one that does not start with a BOOLEAN, or
one that starts with FALSE. -/
def DeniesCa (cert : Certificate) : Prop :=
  ∃ e ∈ cert.extensions, e.1 = Oid.basicConstraints ∧ decodeBasicConstraints e.2.value = .ok false

/-- A block of the text carries a certificate whose BasicConstraints denies that it is a CA. -/
def CarriesNonCa (tables : CaseTables) (pem : JsString) : Prop :=
  ∃ block ∈ Scan.findAll certificateLength pem, ∃ cert, Carries tables block cert ∧ DeniesCa cert

/-- In an accepted bundle the certificates of the blocks are those of the list. -/
theorem carriesNonCa_iff {host : Host CryptoKey} {pem : JsString} {list : List Certificate}
    (returned : parseAnchors host pem = .ok list) :
    CarriesNonCa host.tables pem ↔ ∃ cert ∈ list, DeniesCa cert := by
  obtain ⟨-, -, -, carried, -⟩ := parseAnchors_eq_ok returned
  constructor
  · rintro ⟨block, inText, cert, carries, denied⟩
    obtain ⟨anchor, listed, carriesToo⟩ := Pairing.exists_partner carried inText
    exact ⟨anchor, listed, carries.unique carriesToo ▸ denied⟩
  · rintro ⟨cert, listed, denied⟩
    obtain ⟨block, inText, carries⟩ := Pairing.exists_partner carried.flip listed
    exact ⟨block, inText, cert, carries, denied⟩

/-- The BasicConstraints of a parsed certificate either states or denies that it is a CA. -/
theorem not_deniesCa_iff {tables : CaseTables} {block : JsString} {cert : Certificate}
    (carries : Carries tables block cert) {ca : Bool} (field : cert.basicConstraintsCa = some ca) :
    ¬DeniesCa cert ↔
      ∃ e ∈ cert.extensions, e.1 = Oid.basicConstraints ∧ StatesCa e.2.value true := by
  obtain ⟨_, _, -, -, -, parsed⟩ := carries
  have decodes := parseCertificate_basicConstraints parsed
  simp only [DeniesCa, ← decodeBasicConstraints_true_iff, ← decodes, field, Option.some.injEq,
    Bool.not_eq_false]

/-- A bundle that is accepted holds self-signed CAs only, unless a block carries a certificate whose
BasicConstraints says that it is none. -/
theorem anchors_selfSigned_iff (host : Host CryptoKey) (pem : JsString) (list : List Certificate)
    (returned : parseAnchors host pem = .ok list) :
    TrustedBundle host pem list ↔ ¬CarriesNonCa host.tables pem := by
  obtain ⟨bundle, some_, few, carried, checked⟩ := parseAnchors_eq_ok returned
  have each := fun cert member => (checkAnchor_eq_ok_iff host cert cert).mp (checked cert member)
  have states : ∀ cert ∈ list, ¬DeniesCa cert ↔
      ∃ e ∈ cert.extensions, e.1 = Oid.basicConstraints ∧ StatesCa e.2.value true := by
    intro cert listed
    obtain ⟨-, ⟨ca, field⟩, -, -⟩ := each cert listed
    obtain ⟨block, -, carries⟩ := Pairing.exists_partner carried.flip listed
    exact not_deniesCa_iff carries field
  rw [carriesNonCa_iff returned]
  constructor
  · rintro trusted ⟨cert, listed, denied⟩
    exact (states cert listed).mpr (trusted.ca cert listed) denied
  · intro none
    refine ⟨⟨_, bundle, some_, few, carried⟩, ?_, ?_, ?_⟩
    · exact fun cert listed => (each cert listed).2.2.1
    · exact fun cert listed => (each cert listed).2.2.2
    · exact fun cert listed => (states cert listed).mp fun denied => none ⟨cert, listed, denied⟩

namespace Sample

/-- `CN=Root`, self-signed, with a critical BasicConstraints that says TRUE. -/
def caDer : Bytes :=
  unpackWords 322
    [0x3082013e3081e5a003020102020101300a06082a8648ce3d040302300f310d30,
    0x0b06035504030c04526f6f74301e170d3236313132303030353633315a170d33,
    0x36313131373030353633315a300f310d300b06035504030c04526f6f74305930,
    0x1306072a8648ce3d020106082a8648ce3d030107034200045c1d0c505a0c965d,
    0xf499ac88ed5f46b12e41f4d44fe5a3609cc599258a5a5724555baa50087e68db,
    0x0f948050bc3a7d540c1f75b24e1840b2563875835866de08a3323030300f0603,
    0x551d130101ff040530030101ff301d0603551d0e041604144bcf3f39caf85f62,
    0xa4d7666ce841d984cb937ede300a06082a8648ce3d0403020348003045022100,
    0xeb7ef17a8ac46f436ddb6bdaf7a6df33d7274d4a1fbd64681c7cdad6da683c54,
    0x02204ae15ec61fd6be8d095ba14e86971c493e6b4521407fd9dc9c847da48b86,
    0xef70000000000000000000000000000000000000000000000000000000000000]

/-- `CN=Not a CA`, self-signed, with the BasicConstraints that encodes FALSE. -/
def nonCaDer : Bytes :=
  unpackWords 323
    [0x3082013f3081e7a003020102020101300a06082a8648ce3d0403023013311130,
    0x0f06035504030c084e6f742061204341301e170d323631313230303035363331,
    0x5a170d3336313131373030353633315a30133111300f06035504030c084e6f74,
    0x20612043413059301306072a8648ce3d020106082a8648ce3d03010703420004,
    0x3e34831306c868b43db31a9800a7a9b506e2826c2f8a6650ab3077b8ec38b585,
    0x612783f28bd1e35bc2c9303a1e1772edb59749b6b2e05533684853a856cb6e83,
    0xa32c302a30090603551d1304023000301d0603551d0e0416041401d96b82951c,
    0x86706574b1e454efdd496140891e300a06082a8648ce3d040302034700304402,
    0x204afc472fd1f739048797e06df0900ace937699eaaa547605d6ea058b841008,
    0x730220537ad5a2c43cb42c95ab1c502560cd45ad9dc338ac3036986779f4b61c,
    0x2befc40000000000000000000000000000000000000000000000000000000000]

def bundleOf (der : Bytes) : JsString := blockOf (base64Encode der) ++ js "\n"

end Sample

instance (cert : Certificate) : Decidable (DeniesCa cert) :=
  inferInstanceAs (Decidable (∃ e ∈ cert.extensions, e.1 = Oid.basicConstraints ∧
    decodeBasicConstraints e.2.value = .ok false))

/-- Both bundles are accepted; their one certificate denies to be a CA or does not. -/
private theorem Sample.bundle_accepted (der : Bytes) (denies : Bool)
    (evaluated : (parseAnchors Sample.host (Sample.bundleOf der)).toOption.any fun list =>
      decide (∃ cert ∈ list, DeniesCa cert) = denies) :
    ∃ list, parseAnchors Sample.host (Sample.bundleOf der) = .ok list ∧
      ((∃ cert ∈ list, DeniesCa cert) ↔ denies = true) := by
  cases parsed : parseAnchors Sample.host (Sample.bundleOf der) with
  | error => rw [parsed] at evaluated; cases evaluated
  | ok list =>
    rw [parsed] at evaluated
    have same : decide (∃ cert ∈ list, DeniesCa cert) = denies := of_decide_eq_true evaluated
    exact ⟨list, rfl, by rw [← same, decide_eq_true_eq]⟩

theorem anchors_selfSigned_iff_sample :
    ∃ list, parseAnchors Sample.host (Sample.bundleOf Sample.caDer) = .ok list ∧
      TrustedBundle Sample.host (Sample.bundleOf Sample.caDer) list := by
  obtain ⟨list, parsed, denies⟩ := Sample.bundle_accepted Sample.caDer false (by decide +kernel)
  refine ⟨list, parsed, (anchors_selfSigned_iff _ _ _ parsed).mpr fun carries => ?_⟩
  exact absurd (denies.mp ((carriesNonCa_iff parsed).mp carries)) (by decide)

/-- A self-signed certificate that says it is no CA becomes an anchor. -/
theorem nonCa_becomes_anchor :
    ∃ list, parseAnchors Sample.host (Sample.bundleOf Sample.nonCaDer) = .ok list ∧
      ¬TrustedBundle Sample.host (Sample.bundleOf Sample.nonCaDer) list := by
  obtain ⟨list, parsed, denies⟩ := Sample.bundle_accepted Sample.nonCaDer true (by decide +kernel)
  obtain ⟨cert, listed, denied⟩ := denies.mpr rfl
  refine ⟨list, parsed, fun trusted => ?_⟩
  obtain ⟨-, -, -, carried, checked⟩ := parseAnchors_eq_ok parsed
  obtain ⟨-, ⟨ca, field⟩, -⟩ := (checkAnchor_eq_ok_iff ..).mp (checked cert listed)
  obtain ⟨block, -, carries⟩ := Pairing.exists_partner carried.flip listed
  exact (not_deniesCa_iff carries field).mpr (trusted.ca cert listed) denied

end UncrackableL5

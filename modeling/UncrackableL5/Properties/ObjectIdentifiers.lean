import UncrackableL5.Properties.DerRoundTrip
import UncrackableL5.Properties.SignedFields

/-!
# Object identifiers

An OBJECT IDENTIFIER holds its arcs as base-128 numbers of which the first stands for two arcs. The
reader goes through the octets once and prints the arcs in decimal.

## Main results

- `oidLoop_cons`: what one octet does.
- `oidValue_eq_ok_iff`: the accepted contents are the shortest encodings of arcs.
- `oid_decoding_injective`: the text determines the content.
-/
namespace UncrackableL5

/-- The arcs of the first subidentifier. -/
def splitFirst (v : Nat) : List Nat :=
  if v < 40 then [0, v] else if v < 80 then [1, v - 40] else [2, v - 80]

/-- The arcs of a subidentifier. -/
def arcsOf (first : Bool) (v : Nat) : List Nat := if first then splitFirst v else [v]

/-- The arcs of an identifier: at least two, and below 40 after the first two roots. -/
def IsIdentifier : List Nat → Prop
  | a :: b :: _ => a ≤ 2 ∧ (a < 2 → b < 40)
  | _ => False

/-- The first two arcs in one subidentifier. -/
def subidentifiers : List Nat → List Nat
  | a :: b :: rest => (40 * a + b) :: rest
  | arcs => arcs

/-- The shortest base-128 content of an identifier. -/
def oidContent (arcs : List Nat) : Bytes := (subidentifiers arcs).flatMap Base128.encode

/-- The arcs in decimal with dots between them. -/
def dotted (arcs : List Nat) : JsString := join (js ".") (arcs.map (natToString 10))

theorem splitFirst_identifier (v : Nat) (rest : List Nat) :
    IsIdentifier (splitFirst v ++ rest) ∧ subidentifiers (splitFirst v ++ rest) = v :: rest := by
  rw [splitFirst]
  split
  next small => exact ⟨⟨by omega, fun _ => small⟩, by simp [subidentifiers]⟩
  next =>
    split
    next small => exact ⟨⟨by omega, fun _ => by omega⟩, by simp [subidentifiers]; omega⟩
    next => exact ⟨⟨le_rfl, fun low => by omega⟩, by simp [subidentifiers]; omega⟩

theorem splitFirst_subidentifier {a b : Nat} (root : a ≤ 2) (small : a < 2 → b < 40) :
    splitFirst (40 * a + b) = [a, b] := by
  rw [splitFirst]
  split
  next => simp; omega
  next =>
    split
    next => simp; omega
    next => simp; omega

/-! ### The loop -/

/-- The parts that a subidentifier adds. -/
private theorem parts_eq (first : Bool) (v : Nat) :
    (if first then
      if v < 40 then [natToString 10 0, natToString 10 v]
      else if v < 80 then [natToString 10 1, natToString 10 (v - 40)]
      else [natToString 10 2, natToString 10 (v - 80)]
    else [natToString 10 v]) = (arcsOf first v).map (natToString 10) := by
  rw [arcsOf, splitFirst]
  split_ifs <;> rfl

/-- An octet continues its subidentifier, or ends it and adds its arcs. -/
theorem oidLoop_cons (o : UInt8) (rest : Bytes) (v : Nat) (first inSub : Bool)
    (parts : List JsString) :
    oidLoop (o :: rest) v first inSub = .ok parts ↔
      ¬(inSub = false ∧ o.toNat = 0x80) ∧
        (128 ≤ o.toNat ∧ oidLoop rest (v * 128 + o.toNat % 128) first true = .ok parts ∨
          o.toNat < 128 ∧ ∃ more, oidLoop rest 0 false false = .ok more ∧
            parts = (arcsOf first (v * 128 + o.toNat % 128)).map (natToString 10) ++ more) := by
  rw [oidLoop, guard_eq_ok_iff]
  apply and_congr_right
  intro started
  dsimp only
  split
  next follows =>
    constructor
    · exact fun looped => .inl ⟨follows, looped⟩
    · rintro (⟨-, looped⟩ | ⟨low, -⟩)
      · exact looped
      · omega
  next last =>
    rw [parts_eq, bind_ok_iff]
    constructor
    · rintro ⟨more, looped, built⟩
      exact .inr ⟨by omega, more, looped, (Except.ok.inj built).symm⟩
    · rintro (⟨high, -⟩ | ⟨-, more, looped, rfl⟩)
      · omega
      · exact ⟨more, looped, rfl⟩

/-- The groups of a subidentifier are added up and its arcs printed. -/
private theorem oidLoop_groups {leading : Bytes} {last : UInt8} {rest : Bytes} {v : Nat}
    {first inSub : Bool} {more : List JsString} (high : ∀ b ∈ leading, 128 ≤ b.toNat)
    (low : last.toNat < 128)
    (head : inSub = false → ∀ b bs, leading = b :: bs → b.toNat ≠ 128)
    (looped : oidLoop rest 0 false false = .ok more) :
    oidLoop (leading ++ last :: rest) v first inSub = .ok
      ((arcsOf first ((leading ++ [last]).foldl (fun v b => v * 128 + b.toNat % 128) v)).map
        (natToString 10) ++ more) := by
  induction leading generalizing v inSub with
  | nil =>
    refine (oidLoop_cons last rest v first inSub _).mpr ⟨?_, .inr ⟨low, more, looped, rfl⟩⟩
    rintro ⟨-, empty⟩
    omega
  | cons b bs ih =>
    have follows := high b (by simp)
    refine (oidLoop_cons b (bs ++ last :: rest) v first inSub _).mpr ⟨?_, .inl ⟨follows, ?_⟩⟩
    · rintro ⟨starts, empty⟩
      exact head starts b bs rfl empty
    · apply ih
      · exact fun c member => high c (by simp [member])
      · intro starts
        cases starts

private theorem oidLoop_encode {rest : Bytes} {more : List JsString} (n : Nat) (first : Bool)
    (looped : oidLoop rest 0 false false = .ok more) :
    oidLoop (Base128.encode n ++ rest) 0 first false =
      .ok ((arcsOf first n).map (natToString 10) ++ more) := by
  have small : (UInt8.ofNat (n % 128)).toNat < 128 := by
    rw [UInt8.toNat_ofNat']
    omega
  have read : oidLoop _ 0 first false = _ := oidLoop_groups (Base128.leading_high (n / 128)) small
    (fun _ b bs => Base128.leading_head (n / 128) b bs) looped
  have decoded : (Base128.leading (n / 128) ++ [UInt8.ofNat (n % 128)]).foldl
      (fun v b => v * 128 + b.toNat % 128) 0 = n := Base128.value_encode n
  rw [decoded] at read
  rwa [Base128.encode, List.append_assoc, List.singleton_append]

private theorem oidLoop_arcs (arcs : List Nat) :
    oidLoop (arcs.flatMap Base128.encode) 0 false false = .ok (arcs.map (natToString 10)) := by
  induction arcs with
  | nil => rfl
  | cons arc arcs ih => exact oidLoop_encode arc false ih

/-- What the loop accepts after the groups `before` of a subidentifier: the shortest strings of
subidentifiers, printed one after the other. -/
private theorem oidLoop_sound (content before : Bytes) (first : Bool) (parts : List JsString)
    (high : ∀ b ∈ before, 128 ≤ b.toNat) (head : ∀ b bs, before = b :: bs → b.toNat ≠ 128)
    (looped : oidLoop content (Base128.value before) first (!before.isEmpty) = .ok parts) :
    (before ++ content = [] ∧ parts = []) ∨
      ∃ v arcs, before ++ content = Base128.encode v ++ arcs.flatMap Base128.encode ∧
        parts = (arcsOf first v ++ arcs).map (natToString 10) := by
  -- On the octets still to be read; those of an unfinished subidentifier move to `before`.
  induction content generalizing before first parts with
  | nil =>
    cases before with
    | nil =>
      cases looped
      exact .inl ⟨rfl, rfl⟩
    | cons b bs => cases looped
  | cons o rest ih =>
    right
    obtain ⟨started, ⟨continued, looped⟩ | ⟨low, more, later, rfl⟩⟩ :=
      (oidLoop_cons o rest _ first _ parts).mp looped
    · rw [← Base128.value_snoc] at looped
      have flag : true = !(before ++ [o]).isEmpty := by simp
      rw [flag] at looped
      have result := ih (before ++ [o]) first parts ?_ ?_ looped
      · rcases result with ⟨empty, -⟩ | found
        · simp at empty
        · simpa using found
      · intro b member
        rcases List.mem_append.mp member with earlier | here
        · exact high b earlier
        · rw [List.mem_singleton.mp here]
          exact continued
      · intro b bs shape
        cases before with
        | nil =>
          obtain ⟨rfl, -⟩ := List.cons.inj shape
          exact fun empty => started ⟨rfl, empty⟩
        | cons c cs =>
          obtain ⟨rfl, -⟩ := List.cons.inj shape
          exact head _ cs rfl
    · have shortest := Base128.encode_value before o high head low
      rw [Base128.value_snoc] at shortest
      have split : before ++ o :: rest = (before ++ [o]) ++ rest := by simp
      rcases ih [] false more (by simp) (by simp) later with ⟨empty, rfl⟩ | ⟨w, arcs, others, rfl⟩
      · refine ⟨Base128.value before * 128 + o.toNat % 128, [], ?_, by simp⟩
        rw [split, ← shortest]
        simpa using empty
      · refine ⟨Base128.value before * 128 + o.toNat % 128, w :: arcs, ?_, by simp [arcsOf]⟩
        rw [split, ← shortest]
        simpa using others

/-- An identifier that ends inside a subidentifier is not read to its end. -/
theorem oidLoop_truncated (content : Bytes) (last : UInt8) (v : Nat) (first inSub : Bool)
    (parts : List JsString) (high : 128 ≤ last.toNat) :
    oidLoop (content ++ [last]) v first inSub ≠ .ok parts := by
  induction content generalizing v first inSub parts with
  | nil =>
    intro looped
    obtain ⟨-, ⟨-, looped⟩ | ⟨low, -⟩⟩ := (oidLoop_cons last [] v first inSub parts).mp looped
    · cases looped
    · omega
  | cons o rest ih =>
    intro looped
    obtain ⟨-, ⟨-, looped⟩ | ⟨-, more, looped, -⟩⟩ :=
      (oidLoop_cons o (rest ++ [last]) v first inSub parts).mp looped
    · exact ih _ _ _ _ looped
    · exact ih _ _ _ _ looped

/-- Nor is one of which a subidentifier starts with an empty group. -/
theorem oidLoop_padded (before after : Bytes) (v : Nat) (first inSub : Bool)
    (parts : List JsString) (start : before = [] → inSub = false)
    (ended : ∀ b, before.getLast? = some b → b.toNat < 128) :
    oidLoop (before ++ 0x80 :: after) v first inSub ≠ .ok parts := by
  induction before generalizing v first inSub parts with
  | nil =>
    intro looped
    obtain ⟨started, -⟩ := (oidLoop_cons 0x80 after v first inSub parts).mp looped
    exact started ⟨start rfl, rfl⟩
  | cons o rest ih =>
    have endedToo : ∀ b, rest.getLast? = some b → b.toNat < 128 := by
      intro b last
      exact ended b (by rw [List.getLast?_cons, last]; rfl)
    intro looped
    obtain ⟨-, ⟨high, looped⟩ | ⟨-, more, looped, -⟩⟩ :=
      (oidLoop_cons o (rest ++ 0x80 :: after) v first inSub parts).mp looped
    · apply ih _ _ _ _ ?_ endedToo looped
      -- An octet that continues its subidentifier is not the last one before the empty group.
      rintro rfl
      have := ended o rfl
      omega
    · exact ih _ _ _ _ (fun _ => rfl) endedToo looped

theorem oidLoop_cases (content : Bytes) (v : Nat) (first inSub : Bool) :
    (∃ parts, oidLoop content v first inSub = .ok parts) ∨
      ∃ message, oidLoop content v first inSub = .error (.derError message) := by
  induction content generalizing v first inSub with
  | nil =>
    cases inSub with
    | false => exact .inl ⟨[], rfl⟩
    | true => exact .inr ⟨_, rfl⟩
  | cons o rest ih =>
    rw [oidLoop]
    split
    next => exact .inr ⟨_, rfl⟩
    next =>
      dsimp only
      split
      next => exact ih _ _ _
      next =>
        rcases ih 0 false false with ⟨more, looped⟩ | ⟨message, raised⟩
        · rw [looped]
          exact .inl ⟨_, rfl⟩
        · rw [raised]
          exact .inr ⟨message, rfl⟩

/-! ### Identifiers -/

/-- An element is decoded when it is primitive and the loop reads its content, which is not empty. -/
private theorem oidValue_eq_ok_iff_looped (t : Tlv) (s : JsString) :
    oidValue t = .ok s ↔
      isUniversal t U.oid (some false) = true ∧ t.content ≠ [] ∧
        ∃ parts, oidLoop t.content 0 true false = .ok parts ∧ s = join (js ".") parts := by
  constructor
  · intro decoded
    obtain ⟨u, expected, decoded⟩ := (bind_ok_iff _ _ _).mp decoded
    obtain ⟨primitive, rfl⟩ := (expect_eq_ok_iff _ _ _ _ _).mp expected
    split at decoded
    next => cases decoded
    next nonempty =>
      obtain ⟨parts, looped, joined⟩ := (bind_ok_iff _ _ _).mp decoded
      exact ⟨primitive, nonempty, parts, looped, (Except.ok.inj joined).symm⟩
  · rintro ⟨primitive, nonempty, parts, looped, rfl⟩
    rw [oidValue, (expect_eq_ok_iff _ _ _ _ _).mpr ⟨primitive, rfl⟩, ok_bind]
    split
    next empty => exact absurd empty nonempty
    next =>
      rw [looped]
      rfl

/-- What is not decoded raises a `DerError`. -/
theorem oidValue_cases (t : Tlv) :
    (∃ s, oidValue t = .ok s) ∨ ∃ message, oidValue t = .error (.derError message) := by
  rw [oidValue, expect]
  split
  next =>
    rw [ok_bind]
    split
    next => exact .inr ⟨_, rfl⟩
    next =>
      rcases oidLoop_cases t.content 0 true false with ⟨parts, looped⟩ | ⟨message, raised⟩
      · exact .inl ⟨_, by rw [looped]; rfl⟩
      · exact .inr ⟨message, by rw [raised]; rfl⟩
  next => exact .inr ⟨_, rfl⟩

theorem oidContent_ne_nil {arcs : List Nat} (identifier : IsIdentifier arcs) :
    oidContent arcs ≠ [] := by
  match arcs, identifier with
  | a :: b :: rest, _ => simp [oidContent, subidentifiers, Base128.encode]

/-- An element is decoded exactly when it is primitive and holds the shortest encoding of arcs, and
then as these arcs in decimal. -/
theorem oidValue_eq_ok_iff (t : Tlv) (s : JsString) :
    oidValue t = .ok s ↔
      isUniversal t U.oid (some false) = true ∧
        ∃ arcs, IsIdentifier arcs ∧ t.content = oidContent arcs ∧ s = dotted arcs := by
  rw [oidValue_eq_ok_iff_looped]
  constructor
  · rintro ⟨primitive, nonempty, parts, looped, rfl⟩
    refine ⟨primitive, ?_⟩
    rcases oidLoop_sound t.content [] true parts (by simp) (by simp) looped with
      ⟨none, -⟩ | ⟨v, arcs, content, printed⟩
    · exact absurd none nonempty
    · obtain ⟨identifier, joined⟩ := splitFirst_identifier v arcs
      refine ⟨splitFirst v ++ arcs, identifier, ?_, ?_⟩
      · rw [oidContent, joined]
        exact content
      · rw [dotted, printed]
        rfl
  · rintro ⟨primitive, arcs, identifier, content, rfl⟩
    have nonempty := oidContent_ne_nil identifier
    rw [← content] at nonempty
    refine ⟨primitive, nonempty, arcs.map (natToString 10), ?_, rfl⟩
    match arcs, identifier with
    | a :: b :: rest, ⟨root, small⟩ =>
      have looped := oidLoop_encode (40 * a + b) true (oidLoop_arcs rest)
      rw [content, oidContent, subidentifiers, List.flatMap_cons, looped, arcsOf, if_pos rfl,
        splitFirst_subidentifier root small]
      rfl

/-- Two identifiers are printed the same only when they are the same. -/
theorem dotted_inj {arcs others : List Nat} (nonempty : arcs ≠ []) (nonemptyToo : others ≠ [])
    (same : dotted arcs = dotted others) : arcs = others := by
  have dot : js "." = [46] := by decide
  have digits : ∀ (arcs : List Nat), ∀ part ∈ arcs.map (natToString 10), (46 : UInt16) ∉ part := by
    intro arcs part listed member
    obtain ⟨n, -, rfl⟩ := List.mem_map.mp listed
    obtain ⟨d, small, unit⟩ := mem_natToString (by omega) member
    have code := congrArg UInt16.toNat unit
    rw [digitUnit_toNat (by omega), if_pos small] at code
    simp at code
    omega
  rw [dotted, dotted, dot] at same
  have parts := join_inj (digits arcs) (digits others) (by simpa using nonempty)
    (by simpa using nonemptyToo) same
  apply List.map_injective_iff.mpr ?_ parts
  intro m n printed
  exact (natToString_inj (by omega) (by omega)).mp printed

theorem IsIdentifier.ne_nil {arcs : List Nat} (identifier : IsIdentifier arcs) : arcs ≠ [] := by
  rintro rfl
  exact identifier

/-- Of two identifiers that are decoded, the texts are the same exactly when the contents are; the
shortest encoding of arcs is decoded as the arcs in decimal; and a content that is empty, ends
inside a subidentifier or starts one with `0x80` is rejected. -/
theorem oid_decoding_injective :
    (∀ (t u : Tlv) (s r : JsString), oidValue t = .ok s → oidValue u = .ok r →
      (s = r ↔ t.content = u.content)) ∧
    (∀ (t : Tlv) (a b : Nat) (rest : List Nat), isUniversal t U.oid (some false) = true →
      a ≤ 2 → (a < 2 → b < 40) →
      t.content = Base128.encode (40 * a + b) ++ rest.flatMap Base128.encode →
      oidValue t = .ok (join (js ".") ((a :: b :: rest).map (natToString 10)))) ∧
    (∀ t : Tlv,
      t.content = [] ∨
      (∃ before last, t.content = before ++ [last] ∧ 128 ≤ last.toNat) ∨
      (∃ before after, t.content = before ++ 0x80 :: after ∧
        ∀ b, before.getLast? = some b → b.toNat < 128) →
      ∃ message, oidValue t = .error (.derError message)) := by
  refine ⟨?_, ?_, ?_⟩
  · intro t u s r first second
    obtain ⟨-, arcs, identifier, content, rfl⟩ := (oidValue_eq_ok_iff t s).mp first
    obtain ⟨-, others, identifierToo, contentToo, rfl⟩ := (oidValue_eq_ok_iff u r).mp second
    constructor
    · intro same
      rw [content, contentToo, dotted_inj identifier.ne_nil identifierToo.ne_nil same]
    · intro same
      -- The loop reads nothing but the content.
      obtain ⟨-, -, parts, looped, joined⟩ := (oidValue_eq_ok_iff_looped t _).mp first
      obtain ⟨-, -, partsToo, loopedToo, joinedToo⟩ := (oidValue_eq_ok_iff_looped u _).mp second
      rw [same, loopedToo] at looped
      rw [joined, joinedToo, Except.ok.inj looped]
  · intro t a b rest primitive root small content
    exact (oidValue_eq_ok_iff t _).mpr ⟨primitive, a :: b :: rest, ⟨root, small⟩, content, rfl⟩
  · intro t malformed
    rcases oidValue_cases t with ⟨s, decoded⟩ | raised
    · exfalso
      obtain ⟨-, nonempty, parts, looped, -⟩ := (oidValue_eq_ok_iff_looped t s).mp decoded
      rcases malformed with empty | ⟨before, last, shape, high⟩ | ⟨before, after, shape, ended⟩
      · exact nonempty empty
      · rw [shape] at looped
        exact oidLoop_truncated before last 0 true false parts high looped
      · rw [shape] at looped
        exact oidLoop_padded before after 0 true false parts (fun _ => rfl) ended looped
    · exact raised

theorem oid_decoding_injective_key_description :
    let t := DerWriter.element .universal false U.oid
      [0x2b, 0x06, 0x01, 0x04, 0x01, 0xd6, 0x79, 0x02, 0x01, 0x11]
    let truncated := DerWriter.element .universal false U.oid [0x2b, 0x86]
    oidValue t = .ok (js "1.3.6.1.4.1.11129.2.1.17") ∧
      (js "1.3.6" ≠ js "1.3.7" ↔ ([0x2b, 0x06] : Bytes) ≠ [0x2b, 0x07]) ∧
      ∃ message, oidValue truncated = .error (.derError message) := by
  intro t truncated
  obtain ⟨injective, printed, rejects⟩ := oid_decoding_injective
  have arcs := printed t 1 3 [6, 1, 4, 1, 11129, 2, 1, 17] rfl (by omega) (by omega)
    (by simp [t, DerWriter.element, Base128.encode, Base128.leading])
  refine ⟨arcs.trans (congrArg Except.ok (by decide +kernel)), ?_, ?_⟩
  · exact (injective (DerWriter.element .universal false U.oid [0x2b, 0x06])
      (DerWriter.element .universal false U.oid [0x2b, 0x07]) _ _ (by decide +kernel)
      (by decide +kernel)).not
  · exact rejects truncated (.inr (.inl ⟨[0x2b], 0x86, rfl, by decide⟩))

end UncrackableL5

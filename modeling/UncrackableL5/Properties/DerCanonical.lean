import UncrackableL5.Properties.DerRoundTrip

/-!
# One encoding for each element

What the reader accepts is what the writer writes: the octets of a tag number, of a length and of an
element are those that the writer gives their value, so an input is determined by what is read from
it.

## Main results

- `readTlv_eq_ok_iff`: reading at an offset succeeds exactly on an encoding that starts there.
- `childrenFrom_loops`: the loop over the content ends, with the elements that make it up.
- `der_reader_canonical`: the reader accepts one encoding for each element and loses no octet.
-/
namespace UncrackableL5

open DerWriter

/-! ### Offsets -/

private theorem drop_of_getElem? {b : Bytes} {p : Nat} {x : UInt8} (here : b[p]? = some x) :
    b.drop p = x :: b.drop (p + 1) := by
  obtain ⟨bound, rfl⟩ := List.getElem?_eq_some_iff.mp here
  exact List.drop_eq_getElem_cons bound

private theorem drop_eq_subarray {b : Bytes} {p q : Nat} (order : p ≤ q) :
    b.drop p = subarray b p q ++ b.drop q := by
  have rest : b.drop q = (b.drop p).drop (q - p) := by
    rw [List.drop_drop, Nat.add_sub_cancel' order]
  rw [subarray, rest, List.take_append_drop]

private theorem subarray_length {b : Bytes} {p q : Nat} (bound : q ≤ b.length) :
    (subarray b p q).length = q - p := by
  rw [subarray, List.length_take, List.length_drop]
  omega

/-! ### Tags -/

/-- The groups of a tag number from 31 on: those before the last one, and the last one. -/
private structure TagGroups (count : Nat) (leading : Bytes) (last : UInt8) : Prop where
  high : ∀ x ∈ leading, 128 ≤ x.toNat
  low : last.toNat < 128
  nonempty : count = 0 → ∀ x xs, leading = x :: xs → x.toNat ≠ 128
  few : count + leading.length + 1 ≤ 4

private theorem readHighTag_eq_ok {b : Bytes} {rounds p tag count n q : Nat}
    (read : readHighTag b rounds p tag count = .ok (n, q)) :
    ∃ leading last, TagGroups count leading last ∧ b.drop p = leading ++ last :: b.drop q ∧
      n = (leading ++ [last]).foldl (fun v b => v * 128 + b.toNat % 128) tag := by
  induction rounds generalizing p tag count with
  | zero => cases read
  | succ rounds ih =>
    simp only [readHighTag] at read
    split at read
    next => cases read
    next octet here =>
      obtain ⟨nonempty, read⟩ := (guard_eq_ok_iff _ _ _).mp read
      obtain ⟨few, read⟩ := (guard_eq_ok_iff _ _ _).mp read
      split at read
      -- Another group follows.
      next follows =>
        obtain ⟨leading, last, groups, octets, value⟩ := ih read
        refine ⟨octet :: leading, last, ⟨?_, groups.low, ?_, ?_⟩, ?_, ?_⟩
        · intro x member
          rcases List.mem_cons.mp member with rfl | later
          · exact follows
          · exact groups.high x later
        · rintro zero x xs shape
          obtain ⟨rfl, -⟩ := List.cons.inj shape
          exact fun empty => nonempty ⟨zero, empty⟩
        · have := groups.few
          simp only [List.length_cons]
          omega
        · rw [drop_of_getElem? here, octets, List.cons_append]
        · exact value
      next ends =>
        cases read
        refine ⟨[], octet, ⟨by simp, by omega, by simp, by simp; omega⟩, ?_, rfl⟩
        rw [drop_of_getElem? here, List.nil_append]

private theorem bits_ofBits {n : Nat} (small : n < 4) : (TagClass.ofBits n).bits = n := by
  match n, small with
  | 0, _ | 1, _ | 2, _ | 3, _ => rfl

/-- An identifier octet is its class, its constructed bit and its low bits. -/
private theorem identifier_of_octet (first : UInt8) :
    UInt8.ofNat (firstOctet (.ofBits (first.toNat / 64)) (first.toNat / 32 % 2 = 1) +
      first.toNat % 32) = first := by
  have octet := first.toNat_lt
  have bit : (decide (first.toNat / 32 % 2 = 1)).toNat = first.toNat / 32 % 2 := by
    rcases Nat.mod_two_eq_zero_or_one (first.toNat / 32) with even | odd
    · rw [even]; rfl
    · rw [odd]; rfl
  rw [← UInt8.toNat_inj, identifier_toNat _ _ (by omega), bits_ofBits (by omega), bit]
  omega

private theorem readTag_eq_ok {b : Bytes} {offset tag p : Nat} {first : UInt8}
    (here : b[offset]? = some first) (read : readTag b first (offset + 1) = .ok (tag, p)) :
    b.drop offset = encodeTag (.ofBits (first.toNat / 64)) (first.toNat / 32 % 2 = 1) tag ++
      b.drop p ∧ tag < 2 ^ 28 := by
  have identified := identifier_of_octet first
  rw [drop_of_getElem? here]
  simp only [readTag] at read
  split at read
  next high =>
    obtain ⟨⟨number, q⟩, groups, read⟩ := (bind_ok_iff _ _ _).mp read
    obtain ⟨large, same⟩ := (guard_eq_ok_iff _ _ _).mp read
    cases same
    obtain ⟨leading, last, groups, octets, value⟩ := readHighTag_eq_ok groups
    have value : number = Base128.value (leading ++ [last]) := value
    have short := Base128.value_lt (leading ++ [last])
    have few := groups.few
    have encoded := Base128.encode_value leading last groups.high (groups.nonempty rfl) groups.low
    constructor
    · rw [encodeTag, if_neg (by omega), octets, value, encoded, ← high, identified]
      simp
    · rw [value]
      calc Base128.value (leading ++ [last]) < 128 ^ (leading ++ [last]).length := short
        _ ≤ 128 ^ 4 := Nat.pow_le_pow_right (by omega) (by simp; omega)
  next low =>
    cases read
    have small : first.toNat % 32 < 31 := by omega
    constructor
    · rw [encodeTag, if_pos small, identified, List.singleton_append]
    · omega

/-! ### Lengths -/

private theorem head_of_value {bs : Bytes} (large : 256 ^ (bs.length - 1) ≤ BigEndian.value bs) :
    ∀ b rest, bs = b :: rest → b.toNat ≠ 0 := by
  rintro b rest rfl zero
  have := BigEndian.value_lt rest
  rw [BigEndian.value_cons, zero, List.length_cons, Nat.add_sub_cancel] at large
  omega

private theorem readLength_eq_ok {b : Bytes} {p len q : Nat}
    (read : readLength b p = .ok (len, q)) :
    b.drop p = encodeLength len ++ b.drop q ∧ len < 2 ^ 32 := by
  simp only [readLength] at read
  split at read
  next => cases read
  next octet here =>
    rw [drop_of_getElem? here]
    have low := octet.toNat_lt
    obtain ⟨definite, read⟩ := (guard_eq_ok_iff _ _ _).mp read
    split at read
    next long =>
      obtain ⟨few, read⟩ := (guard_eq_ok_iff _ _ _).mp read
      obtain ⟨inside, read⟩ := (guard_eq_ok_iff _ _ _).mp read
      obtain ⟨single, read⟩ := (guard_eq_ok_iff _ _ _).mp read
      obtain ⟨several, read⟩ := (guard_eq_ok_iff _ _ _).mp read
      cases read
      -- The octets of the length are the shortest ones of their value.
      have count : (subarray b (p + 1) (p + 1 + octet.toNat % 128)).length = octet.toNat % 128 := by
        rw [subarray_length (by omega), Nat.add_sub_cancel_left]
      have rest : b.drop (p + 1) = subarray b (p + 1) (p + 1 + octet.toNat % 128) ++
          b.drop (p + 1 + octet.toNat % 128) := drop_eq_subarray (by omega)
      generalize subarray b (p + 1) (p + 1 + octet.toNat % 128) = bs at *
      have one : 0 < bs.length := by omega
      have large : 0x80 ≤ BigEndian.value bs ∧ 256 ^ (bs.length - 1) ≤ BigEndian.value bs := by
        rw [← count] at single several
        rw [Nat.pow_mul, show (2 : Nat) ^ 8 = 256 from rfl] at several
        by_cases alone : bs.length = 1
        · rw [alone] at single several ⊢
          omega
        · have power : 256 ^ 1 ≤ 256 ^ (bs.length - 1) := Nat.pow_le_pow_right (by omega) (by omega)
          omega
      have shortest := BigEndian.octets_value bs (head_of_value large.2)
      constructor
      · rw [encodeLength, if_neg (by omega), shortest, count, rest,
          show 0x80 + octet.toNat % 128 = octet.toNat by omega, UInt8.ofNat_toNat, List.cons_append]
      · calc BigEndian.value bs < 256 ^ bs.length := BigEndian.value_lt bs
          _ ≤ 256 ^ 4 := Nat.pow_le_pow_right (by omega) (by omega)
    next short =>
      cases read
      constructor
      · rw [encodeLength, if_pos (by omega), UInt8.ofNat_toNat, List.singleton_append]
      · omega

/-! ### Elements -/

/-- An element that the reader takes. -/
structure Tlv.Encoded (t : Tlv) : Prop extends t.Written where
  short : t.content.length < 2 ^ 32

private theorem drop_of_readTlv {b : Bytes} {offset stop : Nat} {t : Tlv}
    (read : readTlv b offset = .ok (t, stop)) :
    b.drop offset = tlv t.cls t.constructed t.tag t.content ++ b.drop stop ∧
      t.tag < 2 ^ 28 ∧ t.content.length < 2 ^ 32 ∧ t.raw = subarray b offset stop ∧
      offset < b.length ∧ stop ≤ b.length := by
  simp only [readTlv] at read
  split at read
  next => cases read
  next first here =>
    obtain ⟨⟨tag, p⟩, tagRead, read⟩ := (bind_ok_iff _ _ _).mp read
    obtain ⟨⟨len, q⟩, lengthRead, read⟩ := (bind_ok_iff _ _ _).mp read
    obtain ⟨inside, same⟩ := (guard_eq_ok_iff _ _ _).mp read
    cases same
    obtain ⟨tagOctets, small⟩ := readTag_eq_ok here tagRead
    obtain ⟨lengthOctets, short⟩ := readLength_eq_ok lengthRead
    have content : (subarray b q (q + len)).length = len := by
      rw [subarray_length (by omega), Nat.add_sub_cancel_left]
    obtain ⟨bound, -⟩ := List.getElem?_eq_some_iff.mp here
    refine ⟨?_, small, by rw [content]; exact short, rfl, bound, by omega⟩
    rw [tagOctets, lengthOctets, drop_eq_subarray (Nat.le_add_right q len), tlv, content]
    simp only [List.append_assoc]

/-- Reading succeeds exactly where an encoding starts, and reads all of it. -/
theorem readTlv_eq_ok_iff (b : Bytes) (offset stop : Nat) (t : Tlv) :
    readTlv b offset = .ok (t, stop) ↔ t.Encoded ∧ ∃ before after,
      b = before ++ t.raw ++ after ∧ before.length = offset ∧ stop = offset + t.raw.length := by
  constructor
  · intro read
    obtain ⟨octets, small, short, raw, start, bound⟩ := drop_of_readTlv read
    have size : (tlv t.cls t.constructed t.tag t.content).length = stop - offset ∧
        offset ≤ stop := by
      have := congrArg List.length octets
      simp only [List.length_append, List.length_drop] at this
      omega
    have same : t.raw = tlv t.cls t.constructed t.tag t.content := by
      rw [raw, subarray, octets, ← size.1, List.take_left]
    refine ⟨⟨⟨same, small⟩, short⟩, b.take offset, b.drop stop, ?_, ?_, ?_⟩
    · rw [same, List.append_assoc, ← octets, List.take_append_drop]
    · rw [List.length_take]
      omega
    · rw [same, size.1]
      omega
  · rintro ⟨encoded, before, after, rfl, rfl, rfl⟩
    have read := readTlv_tlv t.cls t.constructed t.tag t.content encoded.tag_lt encoded.short
      before after
    rw [← encoded.raw_eq] at read
    have same : element t.cls t.constructed t.tag t.content = t := by
      rw [element, ← encoded.raw_eq]
    rwa [same] at read

theorem Tlv.Encoded.raw_pos {t : Tlv} (encoded : t.Encoded) : 0 < t.raw.length :=
  Nat.zero_lt_of_lt encoded.content_lt

/-- An element is determined by its octets. -/
theorem Tlv.Encoded.ext {t u : Tlv} (first : t.Encoded) (second : u.Encoded)
    (same : t.raw = u.raw) : t = u := by
  have read := (readTlv_eq_ok_iff t.raw 0 t.raw.length t).mpr
    ⟨first, [], [], by simp, rfl, by simp⟩
  have again := (readTlv_eq_ok_iff t.raw 0 t.raw.length u).mpr
    ⟨second, [], [], by simp [same], rfl, by simp [same]⟩
  cases read.symm.trans again
  rfl

theorem parseSingle_eq_ok_iff (b : Bytes) (t : Tlv) :
    parseSingle b = .ok t ↔ t.Encoded ∧ b = t.raw := by
  simp only [parseSingle, bind_ok_iff, Prod.exists, guard_eq_ok_iff, not_not, Except.ok.injEq,
    readTlv_eq_ok_iff]
  constructor
  · rintro ⟨_, stop, ⟨encoded, before, after, octets, start, rfl⟩, whole, rfl⟩
    -- Nothing is before the element, and nothing after it.
    obtain rfl := List.eq_nil_of_length_eq_zero start
    have rest : after = [] := by
      apply List.eq_nil_of_length_eq_zero
      rw [octets] at whole
      simp only [List.length_append, List.length_nil] at whole
      omega
    exact ⟨encoded, by rw [octets, rest]; simp⟩
  · rintro ⟨encoded, rfl⟩
    exact ⟨t, t.raw.length, ⟨encoded, [], [], by simp, rfl, by simp⟩, rfl, rfl⟩

/-! ### The loop over the children -/

/-- The loop of `children` from offset `p` on, without a bound on its rounds: it ends with this
outcome. -/
inductive ChildrenLoop (content : Bytes) : Nat → Js (List Tlv) → Prop where
  | done (p : Nat) (past : content.length ≤ p) : ChildrenLoop content p (.ok [])
  | throws (p : Nat) (e : Exception) (more : p < content.length)
      (read : readTlv content p = .error e) : ChildrenLoop content p (.error e)
  | next (p q : Nat) (c : Tlv) (rest : Js (List Tlv)) (more : p < content.length)
      (read : readTlv content p = .ok (c, q)) (later : ChildrenLoop content q rest) :
      ChildrenLoop content p (rest.map (c :: ·))

/-- Every round passes over an element, so the length of the content is enough of them. -/
theorem childrenFrom_loops (content : Bytes) (rounds p : Nat)
    (enough : content.length ≤ p + rounds) :
    ChildrenLoop content p (childrenFrom content rounds p) := by
  induction rounds generalizing p with
  | zero =>
    rw [childrenFrom, if_neg (by omega)]
    exact .done p (by omega)
  | succ rounds ih =>
    rw [childrenFrom]
    split
    next more =>
      cases read : readTlv content p with
      | error e => exact .throws p e more read
      | ok result =>
        obtain ⟨c, q⟩ := result
        obtain ⟨encoded, _, _, _, _, passed⟩ := (readTlv_eq_ok_iff _ _ _ _).mp read
        have := encoded.raw_pos
        have later := ih q (by omega)
        have shape : (childrenFrom content rounds q).map (c :: ·) =
            (do let out ← childrenFrom content rounds q; .ok (c :: out)) := by
          cases childrenFrom content rounds q <;> rfl
        simp only [ok_bind, ← shape]
        exact .next p q c _ more read later
    next stop => exact .done p (by omega)

theorem ChildrenLoop.unique {content : Bytes} {p : Nat} {r s : Js (List Tlv)}
    (first : ChildrenLoop content p r) (second : ChildrenLoop content p s) : r = s := by
  induction first generalizing s with
  | done p past =>
    cases second with
    | done => rfl
    | throws _ _ more => omega
    | next _ _ _ _ more => omega
  | throws p e more read =>
    cases second with
    | done _ past => omega
    | throws _ _ _ again =>
      cases read.symm.trans again
      rfl
    | next _ _ _ _ _ again => cases read.symm.trans again
  | next p q c rest more read later ih =>
    cases second with
    | done _ past => omega
    | throws _ _ _ again => cases read.symm.trans again
    | next _ _ _ _ _ again laterToo =>
      cases read.symm.trans again
      rw [ih laterToo]

/-- The loop loses no octet of the content. -/
theorem ChildrenLoop.concat_eq {content : Bytes} {p : Nat} {items : List Tlv}
    (loop : ChildrenLoop content p (.ok items)) :
    concat items = content.drop p ∧ ∀ c ∈ items, c.Encoded := by
  generalize outcome : Except.ok items = r at loop
  induction loop generalizing items with
  | done p past =>
    cases outcome
    exact ⟨by rw [List.drop_eq_nil_of_le past]; rfl, by simp⟩
  | throws => cases outcome
  | next p q c rest more read later ih =>
    cases rest with
    | error => cases outcome
    | ok others =>
      cases outcome
      obtain ⟨octets, each⟩ := ih rfl
      obtain ⟨encoded, before, after, rfl, rfl, rfl⟩ := (readTlv_eq_ok_iff _ _ _ _).mp read
      constructor
      · rw [List.append_assoc, List.drop_left, ← List.append_assoc, ← List.length_append,
          List.drop_left] at *
        simp only [concat, List.map_cons, List.flatten_cons] at octets ⊢
        rw [octets]
      · intro x member
        rcases List.mem_cons.mp member with rfl | other
        · exact encoded
        · exact each x other

theorem children_loops {t : Tlv} (constructed : t.constructed = true) :
    ChildrenLoop t.content 0 (children t) := by
  rw [children, if_pos constructed]
  exact childrenFrom_loops t.content _ 0 (by omega)

/-- The children make up the content. -/
theorem concat_children {t : Tlv} {items : List Tlv} (read : children t = .ok items) :
    concat items = t.content ∧ ∀ c ∈ items, c.Encoded := by
  have constructed : t.constructed = true := by
    by_contra primitive
    rw [children, if_neg primitive] at read
    cases read
  have loop := children_loops constructed
  rw [read] at loop
  exact loop.concat_eq

/-! ### Trees -/

/-- The fields of an element, with its children down to any depth. -/
inductive FieldTree where
  | leaf (cls : TagClass) (constructed : Bool) (tag : Nat) (content : Bytes)
  | node (cls : TagClass) (tag : Nat) (items : List FieldTree)

mutual

/-- What is read from the element is this tree. -/
def Tlv.Yields (t : Tlv) : FieldTree → Prop
  | .leaf cls constructed tag content =>
    t.cls = cls ∧ t.constructed = constructed ∧ t.tag = tag ∧ t.content = content
  | .node cls tag items =>
    t.cls = cls ∧ t.tag = tag ∧ ∃ kids, children t = .ok kids ∧ YieldsEach kids items

def YieldsEach : List Tlv → List FieldTree → Prop
  | [], [] => True
  | t :: kids, tree :: items => t.Yields tree ∧ YieldsEach kids items
  | _, _ => False

end

private theorem constructed_of_children {t : Tlv} {kids : List Tlv}
    (read : children t = .ok kids) : t.constructed = true := by
  by_contra primitive
  rw [children, if_neg primitive] at read
  cases read

mutual

/-- Elements with the same tree are the same octets. -/
theorem raw_of_yields {t u : Tlv} (first : t.Encoded) (second : u.Encoded) :
    ∀ tree : FieldTree, t.Yields tree → u.Yields tree → t.raw = u.raw
  | .leaf cls constructed tag content, yields, alike => by
    obtain ⟨rfl, rfl, rfl, rfl⟩ := yields
    obtain ⟨sameClass, sameBit, sameTag, sameContent⟩ := alike
    rw [first.raw_eq, second.raw_eq, sameClass, sameBit, sameTag, sameContent]
  | .node cls tag items, yields, alike => by
    obtain ⟨rfl, rfl, kids, read, each⟩ := yields
    obtain ⟨sameClass, sameTag, others, readToo, eachToo⟩ := alike
    obtain ⟨content, encoded⟩ := concat_children read
    obtain ⟨contentToo, encodedToo⟩ := concat_children readToo
    have inner := concat_of_yields encoded encodedToo items each eachToo
    rw [first.raw_eq, second.raw_eq, sameClass, sameTag, ← content, ← contentToo, inner,
      constructed_of_children read, constructed_of_children readToo]

theorem concat_of_yields {kids others : List Tlv} (first : ∀ t ∈ kids, t.Encoded)
    (second : ∀ t ∈ others, t.Encoded) :
    ∀ items : List FieldTree, YieldsEach kids items → YieldsEach others items →
      concat kids = concat others
  | [], yields, alike => by
    cases kids with
    | nil =>
      cases others with
      | nil => rfl
      | cons => exact alike.elim
    | cons => exact yields.elim
  | tree :: items, yields, alike => by
    cases kids with
    | nil => exact yields.elim
    | cons t kids =>
      cases others with
      | nil => exact alike.elim
      | cons u others =>
        have head := raw_of_yields (first t (by simp)) (second u (by simp)) tree yields.1 alike.1
        have tail := concat_of_yields (fun x member => first x (by simp [member]))
          (fun x member => second x (by simp [member])) items yields.2 alike.2
        simp only [concat, List.map_cons, List.flatten_cons] at tail ⊢
        rw [head, tail]

end

/-- The reader accepts exactly one encoding of each element and loses no octet: what it reads is the
shortest encoding of what it returns, every encoding is read wherever it stands, the children of a
constructed element end and make up its content, and inputs with the same tree of fields are the
same. -/
theorem der_reader_canonical :
    (∀ b offset t stop, readTlv b offset = .ok (t, stop) →
      offset < stop ∧ stop ≤ b.length ∧ t.raw = subarray b offset stop ∧
        t.raw = tlv t.cls t.constructed t.tag t.content ∧ t.content <:+ t.raw) ∧
    (∀ cls constructed tag content before after, tag < 2 ^ 28 → content.length < 2 ^ 32 →
      readTlv (before ++ tlv cls constructed tag content ++ after) before.length =
        .ok (element cls constructed tag content,
          before.length + (tlv cls constructed tag content).length)) ∧
    (∀ t, t.constructed = true →
      (∀ outcome, ChildrenLoop t.content 0 outcome ↔ children t = outcome) ∧
        ∀ items, children t = .ok items → concat items = t.content) ∧
    (∀ b c t u tree, parseSingle b = .ok t → parseSingle c = .ok u → t.Yields tree →
      u.Yields tree → b = c) := by
  refine ⟨?_, ?_, ?_, ?_⟩
  · intro b offset t stop read
    obtain ⟨encoded, before, after, rfl, rfl, rfl⟩ := (readTlv_eq_ok_iff _ _ _ _).mp read
    have positive := encoded.raw_pos
    refine ⟨by omega, by simp, (subarray_at before t.raw after).symm, encoded.raw_eq, ?_⟩
    rw [encoded.raw_eq]
    exact List.suffix_append _ _
  · intro cls constructed tag content before after small short
    exact readTlv_tlv cls constructed tag content small short before after
  · intro t constructed
    have loop := children_loops constructed
    refine ⟨fun outcome => ⟨loop.unique, ?_⟩, fun items read => (concat_children read).1⟩
    rintro rfl
    exact loop
  · intro b c t u tree first second yields alike
    obtain ⟨encoded, rfl⟩ := (parseSingle_eq_ok_iff b t).mp first
    obtain ⟨encodedToo, rfl⟩ := (parseSingle_eq_ok_iff c u).mp second
    exact raw_of_yields encoded encodedToo tree yields alike

/-- A sequence of one integer, and a private tag of two octets. -/
theorem der_reader_canonical_sample :
    (seq [int 5]).raw = tlv .universal true U.sequence (seq [int 5]).content ∧
      (∃ stop, readTlv ([0] ++ tlv .privateUse true 709 [5, 0] ++ [0]) 1 =
        .ok (element .privateUse true 709 [5, 0], stop)) ∧
      ChildrenLoop (seq [int 5]).content 0 (.ok [int 5]) ∧
      concat [int 5] = (seq [int 5]).content ∧ (seq [int 5]).raw = [0x30, 3, 2, 1, 5] := by
  obtain ⟨sound, complete, loops, unique⟩ := der_reader_canonical
  have read : readTlv [0x30, 3, 2, 1, 5, 0] 0 = .ok (seq [int 5], 5) := by decide +kernel
  have kids : children (seq [int 5]) = .ok [int 5] := by decide +kernel
  have whole : parseSingle (seq [int 5]).raw = .ok (seq [int 5]) := by decide +kernel
  have octets : parseSingle [0x30, 3, 2, 1, 5] = .ok (seq [int 5]) := by decide +kernel
  have tree : (seq [int 5]).Yields (.node .universal U.sequence
      [.leaf .universal false U.integer [5]]) :=
    ⟨rfl, rfl, [int 5], kids, ⟨rfl, rfl, rfl, by decide +kernel⟩, trivial⟩
  obtain ⟨ends, whole_content⟩ := loops (seq [int 5]) rfl
  exact ⟨(sound _ _ _ _ read).2.2.2.1,
    ⟨_, complete .privateUse true 709 [5, 0] [0] [0] (by decide) (by decide)⟩, (ends _).mpr kids,
    whole_content _ kids, unique _ _ _ _ _ whole octets tree tree⟩

end UncrackableL5

import UncrackableL5.Verifier.DerWriter

/-!
# The reader inverts the writer

An element is read back at any offset of any octets, so the elements of a sequence are read back one
after the other. Tags have at most four octets and lengths at most four.

## Main results

- `readTlv_tlv`: an element between any octets.
- `children_concat`, `parseSingle_raw`: a content, and a whole encoding.
- `utf8Decode_utf8`: text.
-/
namespace UncrackableL5

open DerWriter

/-! ### Tags -/

@[simp] theorem TagClass.ofBits_bits (cls : TagClass) : .ofBits cls.bits = cls := by
  cases cls <;> rfl

theorem TagClass.bits_lt (cls : TagClass) : cls.bits < 4 := by cases cls <;> decide

private theorem firstOctet_eq (cls : TagClass) (constructed : Bool) :
    firstOctet cls constructed = cls.bits * 64 + constructed.toNat * 32 := by
  cases constructed <;> rfl

theorem identifier_toNat (cls : TagClass) (constructed : Bool) {low : Nat}
    (small : low < 32) :
    (UInt8.ofNat (firstOctet cls constructed + low)).toNat =
      cls.bits * 64 + constructed.toNat * 32 + low := by
  have := cls.bits_lt
  have := constructed.toNat_lt
  rw [firstOctet_eq, UInt8.toNat_ofNat']
  omega

theorem getElem?_at (before : Bytes) (x : UInt8) (after : Bytes) :
    (before ++ x :: after)[before.length]? = some x := by
  simp

theorem subarray_at (before middle after : Bytes) :
    subarray (before ++ middle ++ after) before.length (before.length + middle.length) = middle := by
  rw [subarray, List.append_assoc, List.drop_left, Nat.add_sub_cancel_left, List.take_left]

/-- The groups of a tag number are read one after the other. -/
private theorem readHighTag_groups (leading : Bytes) (last : UInt8) (before after : Bytes)
    (rounds tag count : Nat) (high : ∀ b ∈ leading, 128 ≤ b.toNat) (low : last.toNat < 128)
    (nonempty : count = 0 → ∀ b bs, leading = b :: bs → b.toNat ≠ 128)
    (short : count + leading.length + 1 ≤ 4) (enough : leading.length < rounds) :
    readHighTag (before ++ leading ++ last :: after) rounds before.length tag count =
      .ok ((leading ++ [last]).foldl (fun v b => v * 128 + b.toNat % 128) tag,
        before.length + leading.length + 1) := by
  -- On the groups before the last; the octets already read move to `before`.
  induction leading generalizing before rounds tag count with
  | nil =>
    obtain ⟨rounds, rfl⟩ := Nat.exists_eq_succ_of_ne_zero (by omega : rounds ≠ 0)
    rw [readHighTag, List.append_nil, getElem?_at]
    simp only
    rw [if_neg (by omega), if_neg (by simp at short; omega), if_neg (by omega)]
    rfl
  | cons b leading ih =>
    obtain ⟨rounds, rfl⟩ := Nat.exists_eq_succ_of_ne_zero (by omega : rounds ≠ 0)
    have follows := high b (by simp)
    have shape : before ++ (b :: leading) ++ last :: after =
        (before ++ [b]) ++ leading ++ last :: after := by simp
    rw [readHighTag, List.append_assoc, List.cons_append, getElem?_at]
    simp only
    simp only [List.length_cons] at short enough
    rw [if_neg fun empty => nonempty empty.1 b leading rfl empty.2, if_neg (by omega),
      if_pos follows]
    have rest := ih (before ++ [b]) rounds (tag * 128 + b.toNat % 128) (count + 1)
      (fun x member => high x (by simp [member])) (fun empty => absurd empty (by omega))
      (by omega) (by omega)
    simp only [List.append_assoc, List.length_append, List.length_singleton, List.cons_append,
      List.nil_append] at rest ⊢
    rw [rest]
    simp
    omega

/-- What the identifier octets of an element are read as. -/
private theorem readTag_encodeTag (cls : TagClass) (constructed : Bool) (tag : Nat)
    (small : tag < 2 ^ 28) (before after : Bytes) :
    ∃ first, (before ++ encodeTag cls constructed tag ++ after)[before.length]? = some first ∧
      TagClass.ofBits (first.toNat / 64) = cls ∧
      decide (first.toNat / 32 % 2 = 1) = constructed ∧
      readTag (before ++ encodeTag cls constructed tag ++ after) first (before.length + 1) =
        .ok (tag, before.length + (encodeTag cls constructed tag).length) := by
  have bits := cls.bits_lt
  have bit := constructed.toNat_lt
  have identifies : ∀ low < 32,
      let first := UInt8.ofNat (firstOctet cls constructed + low)
      TagClass.ofBits (first.toNat / 64) = cls ∧
        decide (first.toNat / 32 % 2 = 1) = constructed ∧ first.toNat % 32 = low := by
    intro low below
    simp only [identifier_toNat cls constructed below]
    refine ⟨?_, ?_, by omega⟩
    · rw [show (cls.bits * 64 + constructed.toNat * 32 + low) / 64 = cls.bits by omega,
        TagClass.ofBits_bits]
    · rw [show (cls.bits * 64 + constructed.toNat * 32 + low) / 32 % 2 = constructed.toNat by omega]
      cases constructed <;> rfl
  -- Low tag numbers are in the identifier octet, the others follow it in groups of seven bits.
  by_cases low : tag < 31
  · obtain ⟨isClass, isConstructed, number⟩ := identifies tag (by omega)
    refine ⟨UInt8.ofNat (firstOctet cls constructed + tag), ?_, isClass, isConstructed, ?_⟩
    · simp [encodeTag, low]
    · rw [readTag, number, if_neg (by omega), encodeTag, if_pos low]
      rfl
  · obtain ⟨isClass, isConstructed, number⟩ := identifies 31 (by omega)
    refine ⟨UInt8.ofNat (firstOctet cls constructed + 31), ?_, isClass, isConstructed, ?_⟩
    · simp [encodeTag, low]
    · have few : (Base128.leading (tag / 128)).length ≤ 3 :=
        Base128.leading_length_le _ _ (by omega)
      have read := readHighTag_groups (Base128.leading (tag / 128)) (UInt8.ofNat (tag % 128))
        (before ++ [UInt8.ofNat (firstOctet cls constructed + 31)]) after 5 0 0
        (Base128.leading_high _) (by rw [UInt8.toNat_ofNat']; omega)
        (fun _ b bs shape => Base128.leading_head _ b bs shape) (by omega) (by omega)
      have decoded : (Base128.leading (tag / 128) ++ [UInt8.ofNat (tag % 128)]).foldl
          (fun v b => v * 128 + b.toNat % 128) 0 = tag := Base128.value_encode tag
      rw [decoded] at read
      rw [readTag, number, if_pos rfl, encodeTag, if_neg low, Base128.encode]
      simp only [List.append_assoc, List.cons_append, List.nil_append, List.length_append,
        List.length_cons, List.length_nil] at read ⊢
      rw [read, ok_bind]
      simp only
      rw [if_neg (by omega)]
      congr 2
      omega

/-! ### Lengths -/

private theorem readLength_encodeLength (n : Nat) (small : n < 2 ^ 32) (before after : Bytes) :
    readLength (before ++ encodeLength n ++ after) before.length =
      .ok (n, before.length + (encodeLength n).length) := by
  -- One octet, or their number and the octets.
  by_cases short : n < 0x80
  · have octet : (UInt8.ofNat n).toNat = n := by
      rw [UInt8.toNat_ofNat']
      omega
    rw [encodeLength, if_pos short, List.append_assoc, List.singleton_append, readLength, getElem?_at]
    simp only [octet, List.length_singleton]
    rw [if_neg (by omega), if_neg (by omega)]
  · have few : (BigEndian.octets n).length ≤ 4 := BigEndian.octets_length_le n 4 (by omega)
    have some_ : 0 < (BigEndian.octets n).length := BigEndian.octets_length_pos n (by omega)
    have octet : (UInt8.ofNat (0x80 + (BigEndian.octets n).length)).toNat =
        0x80 + (BigEndian.octets n).length := by
      rw [UInt8.toNat_ofNat']
      omega
    have read := subarray_at (before ++ [UInt8.ofNat (0x80 + (BigEndian.octets n).length)])
      (BigEndian.octets n) after
    simp only [List.append_assoc, List.length_append, List.length_cons, List.length_nil,
      List.cons_append, List.nil_append, Nat.zero_add] at read
    have minimal : ¬n < 2 ^ (8 * ((BigEndian.octets n).length - 1)) := by
      have := BigEndian.le_of_octets_length n ((BigEndian.octets n).length - 1) (by omega)
      rw [Nat.pow_mul, show (2 : Nat) ^ 8 = 256 from rfl]
      omega
    have count : (0x80 + (BigEndian.octets n).length) % 128 = (BigEndian.octets n).length := by omega
    rw [encodeLength, if_neg short, List.append_assoc, List.cons_append, readLength, getElem?_at]
    simp only [octet, count, read, BigEndian.value_octets]
    rw [if_neg (by omega), if_pos (by omega), if_neg (by omega),
      if_neg (by simp only [List.length_append, List.length_cons]; omega),
      if_neg (by omega), if_neg fun long => minimal long.2]
    simp only [List.length_cons]
    congr 2
    omega

/-! ### Elements -/

/-- An element is read back between any octets. -/
theorem readTlv_tlv (cls : TagClass) (constructed : Bool) (tag : Nat) (content : Bytes)
    (small : tag < 2 ^ 28) (short : content.length < 2 ^ 32) (before after : Bytes) :
    readTlv (before ++ tlv cls constructed tag content ++ after) before.length =
      .ok (element cls constructed tag content,
        before.length + (tlv cls constructed tag content).length) := by
  obtain ⟨first, here, isClass, isConstructed, identified⟩ :=
    readTag_encodeTag cls constructed tag small before
      (encodeLength content.length ++ content ++ after)
  have measured := readLength_encodeLength content.length short
    (before ++ encodeTag cls constructed tag) (content ++ after)
  have raw := subarray_at before (tlv cls constructed tag content) after
  have body := subarray_at (before ++ encodeTag cls constructed tag ++
    encodeLength content.length) content after
  have total : (tlv cls constructed tag content).length =
      (encodeTag cls constructed tag).length + (encodeLength content.length).length +
        content.length := by simp [tlv, Nat.add_assoc]
  -- The same octets, split at the tag, at the length and at the content.
  have at_tag : before ++ tlv cls constructed tag content ++ after =
      before ++ encodeTag cls constructed tag ++
        (encodeLength content.length ++ content ++ after) := by simp [tlv]
  have at_length : before ++ tlv cls constructed tag content ++ after =
      before ++ encodeTag cls constructed tag ++ encodeLength content.length ++
        (content ++ after) := by simp [tlv]
  have at_content : before ++ tlv cls constructed tag content ++ after =
      before ++ encodeTag cls constructed tag ++ encodeLength content.length ++ content ++ after := by
    simp [tlv]
  rw [← at_tag] at here identified
  rw [← at_length, List.length_append] at measured
  rw [← at_content] at body
  simp only [List.length_append] at body
  rw [total, ← Nat.add_assoc, ← Nat.add_assoc] at raw
  rw [readTlv, here]
  simp only [identified, measured, ok_bind]
  rw [if_neg (by simp only [List.length_append, total]; omega), raw, body, isClass, isConstructed,
    total, ← Nat.add_assoc, ← Nat.add_assoc]
  rfl

theorem element_written (cls : TagClass) (constructed : Bool) (tag : Nat) (content : Bytes)
    (small : tag < 2 ^ 28) : (element cls constructed tag content).Written := ⟨rfl, small⟩

theorem Tlv.Written.eq_element {t : Tlv} (written : t.Written) :
    t = element t.cls t.constructed t.tag t.content := by
  rw [element, ← written.raw_eq]

theorem Tlv.Written.content_lt {t : Tlv} (written : t.Written) :
    t.content.length < t.raw.length := by
  have head : 0 < (encodeTag t.cls t.constructed t.tag).length := by
    rw [encodeTag]
    split <;> simp
  rw [written.raw_eq, tlv]
  simp only [List.length_append]
  omega

/-- An element that was written is read back between any octets. -/
theorem Tlv.Written.readTlv_raw {t : Tlv} (written : t.Written) (short : t.raw.length < 2 ^ 32)
    (before after : Bytes) :
    readTlv (before ++ t.raw ++ after) before.length = .ok (t, before.length + t.raw.length) := by
  have read := readTlv_tlv t.cls t.constructed t.tag t.content written.tag_lt
    (written.content_lt.trans short) before after
  rw [← written.raw_eq] at read
  have same : element t.cls t.constructed t.tag t.content = t := by
    rw [element, ← written.raw_eq]
  rwa [same] at read

theorem parseSingle_raw {t : Tlv} (written : t.Written) (short : t.raw.length < 2 ^ 32) :
    parseSingle t.raw = .ok t := by
  have read := written.readTlv_raw short [] []
  simp only [List.nil_append, List.append_nil, List.length_nil, Nat.zero_add] at read
  rw [parseSingle, read, ok_bind]
  simp

theorem raw_length_le {t : Tlv} {items : List Tlv} (member : t ∈ items) :
    t.raw.length ≤ (concat items).length :=
  (List.sublist_flatten_of_mem (List.mem_map_of_mem member)).length_le

private theorem childrenFrom_concat (items : List Tlv) (before : Bytes) (rounds : Nat)
    (written : ∀ t ∈ items, t.Written) (short : (concat items).length < 2 ^ 32)
    (enough : items.length ≤ rounds) :
    childrenFrom (before ++ concat items) rounds before.length = .ok items := by
  -- On the elements; those already read move to `before`.
  induction items generalizing before rounds with
  | nil =>
    have stop : ¬before.length < (before ++ concat []).length := by simp [concat]
    cases rounds with
    | zero => rw [childrenFrom, if_neg stop]
    | succ rounds => rw [childrenFrom, if_neg stop]
  | cons t items ih =>
    obtain ⟨rounds, rfl⟩ := Nat.exists_eq_succ_of_ne_zero (by simp at enough; omega : rounds ≠ 0)
    have split : concat (t :: items) = t.raw ++ concat items := by simp [concat]
    have first := written t (by simp)
    have positive := first.content_lt
    rw [split, List.length_append] at short
    have read := first.readTlv_raw (by omega) before (concat items)
    have rest := ih (before ++ t.raw) rounds (fun x member => written x (by simp [member]))
      (by omega) (by simpa using enough)
    rw [List.length_append] at rest
    rw [split, ← List.append_assoc, childrenFrom, if_pos (by simp; omega), read, ok_bind]
    simp only [rest, ok_bind]

/-- The children of a constructed element are read back in order. -/
theorem children_concat {t : Tlv} {items : List Tlv} (constructed : t.constructed = true)
    (content : t.content = concat items) (written : ∀ x ∈ items, x.Written)
    (short : t.content.length < 2 ^ 32) : children t = .ok items := by
  have enough : items.length ≤ (concat items).length := by
    clear content
    induction items with
    | nil => simp
    | cons x items ih =>
      have := (written x (by simp)).content_lt
      have := ih fun y member => written y (by simp [member])
      simp only [concat, List.map_cons, List.flatten_cons, List.length_append,
        List.length_cons] at this ⊢
      omega
  rw [children, if_pos constructed, content]
  exact childrenFrom_concat items [] _ written (content ▸ short) enough

/-! ### Universal elements -/

theorem isUniversal_eq_true (t : Tlv) (tag : Nat) (constructed : Bool) :
    isUniversal t tag (some constructed) = true ↔
      t.cls = .universal ∧ t.tag = tag ∧ t.constructed = constructed := by
  simp only [isUniversal, Bool.and_eq_true, decide_eq_true_eq, and_assoc]
  simp [eq_comm (a := constructed)]

theorem sequence_seq {items : List Tlv} (what : String) (written : ∀ x ∈ items, x.Written)
    (short : (seq items).raw.length < 2 ^ 32) : sequence (seq items) what = .ok items := by
  have content := (element_written .universal true U.sequence (concat items) (by decide)).content_lt
  exact children_concat rfl rfl written (content.trans short)

theorem derSet_set {items : List Tlv} (what : String) (written : ∀ x ∈ items, x.Written)
    (short : (set items).raw.length < 2 ^ 32) : derSet (set items) what = .ok items := by
  have content := (element_written .universal true U.set (concat items) (by decide)).content_lt
  exact children_concat rfl rfl written (content.trans short)

/-! ### Text -/

private theorem octet_toNat {n : Nat} (small : n < 256) : (UInt8.ofNat n).toNat = n := by
  rw [UInt8.toNat_ofNat']
  omega

private theorem isTail_octet (n : Nat) : isTail (UInt8.ofNat (0x80 + n % 0x40)) = true := by
  simp only [isTail, octet_toNat (show 0x80 + n % 0x40 < 256 by omega), Bool.and_eq_true,
    decide_eq_true_eq]
  omega

/-- The octets of a scalar value are read as that value. -/
theorem utf8Next_utf8Octets (n : Nat) (rest : Bytes)
    (scalar : n < 0xD800 ∨ 0xDFFF < n ∧ n < 0x110000) :
    utf8Next (utf8Octets n ++ rest) = some (n, rest) := by
  have tail := fun m => octet_toNat (show 0x80 + m % 0x40 < 256 by omega)
  -- One to four octets, by the size of the value.
  rw [utf8Octets]
  split
  next one =>
    simp only [List.cons_append, List.nil_append, utf8Next, octet_toNat (show n < 256 by omega)]
    rw [if_pos one]
  next =>
    split
    next two =>
      simp only [List.cons_append, List.nil_append, utf8Next, isTail_octet, tail,
        octet_toNat (show 0xC0 + n / 0x40 < 256 by omega)]
      rw [if_neg (by omega), if_pos (by omega), if_pos trivial]
      congr 2
      omega
    next =>
      split
      next three =>
        simp only [List.cons_append, List.nil_append, utf8Next, isTail_octet, tail,
          octet_toNat (show 0xE0 + n / 0x1000 < 256 by omega)]
        rw [if_neg (by omega), if_neg (by omega), if_pos (by omega),
          if_pos ⟨trivial, trivial, fun _ => by omega, fun _ => by omega⟩]
        congr 2
        omega
      next =>
        simp only [List.cons_append, List.nil_append, utf8Next, isTail_octet, tail,
          octet_toNat (show 0xF0 + n / 0x40000 < 256 by omega)]
        rw [if_neg (by omega), if_neg (by omega), if_neg (by omega), if_pos (by omega),
          if_pos ⟨trivial, trivial, trivial, fun _ => by omega, fun _ => by omega⟩]
        congr 2
        omega

private theorem utf8Octets_length_pos (n : Nat) : 0 < (utf8Octets n).length := by
  rw [utf8Octets]
  split_ifs <;> simp

private theorem char_scalar (c : Char) : c.toNat < 0xD800 ∨ 0xDFFF < c.toNat ∧ c.toNat < 0x110000 :=
  c.valid

private theorem utf8Loop_chars (cs : List Char) (steps : Nat)
    (enough : (cs.flatMap fun c => utf8Octets c.toNat).length ≤ steps) :
    utf8Loop steps (cs.flatMap fun c => utf8Octets c.toNat) =
      some (cs.flatMap fun c => utf16 c.toNat) := by
  -- Every scalar value takes at least one octet, so the octets are enough steps.
  induction cs generalizing steps with
  | nil => cases steps <;> rfl
  | cons c cs ih =>
    have positive := utf8Octets_length_pos c.toNat
    simp only [List.flatMap_cons, List.length_append] at enough ⊢
    obtain ⟨steps, rfl⟩ := Nat.exists_eq_succ_of_ne_zero (by omega : steps ≠ 0)
    have read := utf8Next_utf8Octets c.toNat (cs.flatMap fun c => utf8Octets c.toNat) (char_scalar c)
    cases octets : utf8Octets c.toNat ++ cs.flatMap fun c => utf8Octets c.toNat with
    | nil => simp [octets, utf8Next] at read
    | cons b bs =>
      rw [octets] at read
      simp only [utf8Loop, read, ih steps (by omega), Option.map_some]

theorem utf8Decode_utf8 (text : String) : utf8Decode (utf8 text) = .ok (js text) := by
  rw [utf8Decode, utf8, utf8Loop_chars _ _ le_rfl]
  rfl

end UncrackableL5

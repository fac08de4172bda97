import UncrackableL5.Library.BigEndian
import UncrackableL5.Properties.Base64

/-!
# The grammar of Base64

What the decoder accepts is a run of letters and the padding that completes it, if any. The octets
it returns are the sextets read as one number, less the bits that do not fill an octet.

## Main results

- `regroup_spec`: the octets of a run of sextets.
- `decode_eq_ok_iff`: the accepted texts, and what they stand for.
- `base64_grammar`: both alphabets.
-/
namespace UncrackableL5

/-- The number that a run of sextets writes, most significant first. -/
def sextetsValue (vs : List Nat) : Nat := Nat.ofDigits 64 vs.reverse

@[simp] theorem sextetsValue_nil : sextetsValue [] = 0 := rfl

theorem sextetsValue_cons (v : Nat) (vs : List Nat) :
    sextetsValue (v :: vs) = v * 64 ^ vs.length + sextetsValue vs := by
  rw [sextetsValue, List.reverse_cons, Nat.ofDigits_append, Nat.ofDigits_singleton,
    List.length_reverse, sextetsValue]
  ring

/-! ### Octets -/

/-- The octets that the loop writes from `bits` pending bits and a run of sextets on: as many as
there are whole ones, and of the value that is left when the other bits are dropped. -/
theorem regroup_spec (vs : List Nat) (small : ∀ v ∈ vs, v < 64) (pending bits : Nat)
    (room : bits ≤ 7) (below : pending < 2 ^ bits) :
    (regroup pending bits vs).length = (bits + 6 * vs.length) / 8 ∧
      BigEndian.value (regroup pending bits vs) =
        (pending * 64 ^ vs.length + sextetsValue vs) / 2 ^ ((bits + 6 * vs.length) % 8) := by
  induction vs generalizing pending bits with
  | nil =>
    have rest : bits % 8 = bits := Nat.mod_eq_of_lt (by omega)
    simp only [regroup, List.length_nil, Nat.mul_zero, Nat.add_zero, rest, BigEndian.value_nil,
      Nat.pow_zero, Nat.mul_one, sextetsValue_nil]
    exact ⟨by omega, (Nat.div_eq_of_lt below).symm⟩
  | cons v vs ih =>
    have sextet := small v (by simp)
    have rest : ∀ w ∈ vs, w < 64 := fun w member => small w (by simp [member])
    have pushed : pending * 64 + v < 2 ^ (bits + 6) := by
      rw [Nat.pow_add]
      omega
    have total : pending * 64 ^ (v :: vs).length + sextetsValue (v :: vs) =
        (pending * 64 + v) * 64 ^ vs.length + sextetsValue vs := by
      rw [List.length_cons, sextetsValue_cons, Nat.pow_succ]
      ring
    rw [total, regroup]
    split
    next full =>
      -- The top eight of the pending bits go out, and the others stay.
      obtain ⟨k, rfl⟩ : ∃ k, bits = k + 2 := ⟨bits - 2, by omega⟩
      simp only [Nat.add_sub_cancel]
      obtain ⟨length, value⟩ := ih rest ((pending * 64 + v) % 2 ^ k) k (by omega)
        (Nat.mod_lt _ (Nat.two_pow_pos k))
      have octet : (UInt8.ofNat ((pending * 64 + v) / 2 ^ k)).toNat =
          (pending * 64 + v) / 2 ^ k := by
        rw [UInt8.toNat_ofNat', Nat.mod_eq_of_lt]
        rw [Nat.div_lt_iff_lt_mul (Nat.two_pow_pos k), ← Nat.pow_add,
          show 8 + k = k + 2 + 6 by omega]
        exact pushed
      have left : (k + 2 + 6 * (v :: vs).length) % 8 = (k + 6 * vs.length) % 8 := by
        rw [List.length_cons]
        omega
      refine ⟨by rw [List.length_cons, length, List.length_cons]; omega, ?_⟩
      rw [BigEndian.value_cons, length, value, octet, left]
      have scale : 2 ^ k * 64 ^ vs.length =
          2 ^ ((k + 6 * vs.length) % 8) * 256 ^ ((k + 6 * vs.length) / 8) := by
        rw [show 64 = 2 ^ 6 from rfl, show 256 = 2 ^ 8 from rfl, ← Nat.pow_mul, ← Nat.pow_mul,
          ← Nat.pow_add, ← Nat.pow_add]
        congr 1
        omega
      have split : (pending * 64 + v) * 64 ^ vs.length + sextetsValue vs =
          2 ^ ((k + 6 * vs.length) % 8) *
              ((pending * 64 + v) / 2 ^ k * 256 ^ ((k + 6 * vs.length) / 8)) +
            ((pending * 64 + v) % 2 ^ k * 64 ^ vs.length + sextetsValue vs) := by
        calc (pending * 64 + v) * 64 ^ vs.length + sextetsValue vs
            = (2 ^ k * ((pending * 64 + v) / 2 ^ k) + (pending * 64 + v) % 2 ^ k) *
                64 ^ vs.length + sextetsValue vs := by rw [Nat.div_add_mod]
          _ = (pending * 64 + v) / 2 ^ k * (2 ^ k * 64 ^ vs.length) +
                ((pending * 64 + v) % 2 ^ k * 64 ^ vs.length + sextetsValue vs) := by ring
          _ = _ := by rw [scale]; ring
      rw [split, Nat.mul_add_div (Nat.two_pow_pos _)]
    next short =>
      obtain ⟨length, value⟩ := ih rest (pending * 64 + v) (bits + 6) (by omega) pushed
      have same : bits + 6 + 6 * vs.length = bits + 6 * (v :: vs).length := by
        rw [List.length_cons]
        omega
      rw [same] at length value
      exact ⟨length, value⟩

private theorem group_sextets (n : Nat) :
    n = n / 262144 * 262144 + n / 4096 % 64 * 4096 + n / 64 % 64 * 64 + n % 64 := by
  omega

/-- The sextets of the encoder write its octets and the zero bits that fill the last sextet. -/
theorem sextetsValue_sextets (b : Bytes) :
    sextetsValue (sextets b) = BigEndian.value b * 4 ^ padLength b := by
  induction b using sextets.induct with
  | case1 b0 b1 b2 rest ih =>
    have same : padLength (b0 :: b1 :: b2 :: rest) = padLength rest := by
      simp only [padLength, List.length_cons]
      omega
    have scale : 64 ^ (sextets rest).length = 256 ^ rest.length * 4 ^ padLength rest := by
      have total := sextets_length rest
      rw [show 64 = 2 ^ 6 from rfl, show 256 = 2 ^ 8 from rfl, show 4 = 2 ^ 2 from rfl,
        ← Nat.pow_mul, ← Nat.pow_mul, ← Nat.pow_mul, ← Nat.pow_add]
      congr 1
      simp only [padLength] at total ⊢
      omega
    have := b0.toNat_lt
    have := b1.toNat_lt
    have := b2.toNat_lt
    obtain ⟨n, written⟩ : ∃ n, n = b0.toNat * 65536 + b1.toNat * 256 + b2.toNat := ⟨_, rfl⟩
    have number := group_sextets n
    simp only [sextets, ← written, sextetsValue_cons, List.length_cons, same, ih, Nat.pow_succ,
      scale]
    calc _ = (n / 262144 * 262144 + n / 4096 % 64 * 4096 + n / 64 % 64 * 64 + n % 64) *
            (256 ^ rest.length * 4 ^ padLength rest) +
          BigEndian.value rest * 4 ^ padLength rest := by ring
      _ = _ := by
        rw [← number, written]
        simp only [BigEndian.value_cons, List.length_cons, Nat.pow_succ]
        ring
  | case2 b0 b1 =>
    have := b0.toNat_lt
    have := b1.toNat_lt
    have written : BigEndian.value [b0, b1] = b0.toNat * 256 + b1.toNat := by
      simp [BigEndian.value_cons]
    rw [written, show padLength [b0, b1] = 1 from rfl]
    simp only [sextets, sextetsValue_cons, sextetsValue_nil, List.length_cons, List.length_nil]
    omega
  | case3 b0 =>
    have := b0.toNat_lt
    rw [BigEndian.value_singleton, show padLength [b0] = 2 from rfl]
    simp only [sextets, sextetsValue_cons, sextetsValue_nil, List.length_cons, List.length_nil]
    omega
  | case4 => rfl

/-! ### Letters and padding -/

/-- `s` is a run of letters of the alphabet and `pad` padding signs: none, or those that complete
the run to a multiple of four. -/
structure IsText (alphabet s letters : JsString) (pad : Nat) : Prop where
  text : s = letters ++ List.replicate pad 61
  run : ∀ u ∈ letters, u ∈ alphabet
  whole : letters.length % 4 ≠ 1
  padding : pad = 0 ∨ pad = (4 - letters.length % 4) % 4

/-- The sextets that letters stand for. -/
def sextetsOf (alphabet letters : JsString) : List Nat := letters.map alphabet.idxOf

/-- What is stripped is padding, at most two signs of it. -/
theorem stripPadding_spec (s : JsString) :
    ∃ letters pad, stripPadding s = (letters.length, pad) ∧
      s = letters ++ List.replicate pad 61 ∧ pad ≤ 2 := by
  rcases s.eq_nil_or_concat with rfl | ⟨front, last, rfl⟩
  · exact ⟨[], 0, rfl, rfl, by omega⟩
  · by_cases sign : last = 61
    · subst sign
      rcases front.eq_nil_or_concat with rfl | ⟨letters, before, rfl⟩
      · exact ⟨[], 1, rfl, rfl, by omega⟩
      · by_cases another : before = 61
        · subst another
          exact ⟨letters, 2, by simp [stripPadding], by simp, le_rfl⟩
        · exact ⟨letters ++ [before], 1, by simp [stripPadding, another], by simp, by omega⟩
    · exact ⟨front ++ [last], 0, by simp [stripPadding, sign], by simp, by omega⟩

/-- The loop refuses what the table has no value for. -/
theorem decodeLoop_run {alphabet s : JsString} {acc : BitVec 32} {bits : Nat} {out : Bytes}
    (decoded : decodeLoop (table alphabet) s acc bits = .ok out) : ∀ u ∈ s, u ∈ alphabet := by
  induction s generalizing acc bits out with
  | nil => simp
  | cons u rest ih =>
    rw [decodeLoop, guard_eq_ok_iff] at decoded
    obtain ⟨legal, decoded⟩ := decoded
    have code : UInt16.ofNat (u.toNat % 256) = u := by
      rw [Nat.mod_eq_of_lt (by omega), UInt16.ofNat_toNat]
    have listed : u ∈ alphabet := by
      by_contra absent
      apply legal
      left
      rw [table, code, List.idxOf?_eq_none_iff.mpr absent]
      decide
    have others : ∀ w ∈ rest, w ∈ alphabet := by
      dsimp only at decoded
      split at decoded
      next =>
        obtain ⟨more, decoded, -⟩ := (bind_ok_iff _ _ _).mp decoded
        exact ih decoded
      next => exact ih decoded
    exact List.forall_mem_cons.mpr ⟨listed, others⟩

section Grammar

variable {alphabet : JsString} (size : alphabet.length = 64)
  (octets : ∀ u ∈ alphabet, u.toNat ≤ 255) (other : 61 ∉ alphabet)

include size octets in
private theorem spells_idxOf {u : UInt16} (listed : u ∈ alphabet) :
    Spells (table alphabet) u (alphabet.idxOf u) := by
  have inside := List.idxOf_lt_length_of_mem listed
  refine ⟨octets u listed, ?_, by omega⟩
  rw [table, UInt16.ofNat_toNat, List.idxOf_eq_getD_idxOf?]
  cases found : alphabet.idxOf? u with
  | none => exact absurd listed (List.idxOf?_eq_none_iff.mp found)
  | some i => rfl

include size in
private theorem sextetsOf_lt {letters : JsString} (run : ∀ u ∈ letters, u ∈ alphabet) :
    ∀ v ∈ sextetsOf alphabet letters, v < 64 := by
  intro v member
  obtain ⟨u, present, rfl⟩ := List.mem_map.mp member
  have := List.idxOf_lt_length_of_mem (run u present)
  omega

private theorem letters_sextetsOf {letters : JsString} (run : ∀ u ∈ letters, u ∈ alphabet) :
    (sextetsOf alphabet letters).map (letter alphabet) = letters := by
  rw [sextetsOf, List.map_map]
  conv_rhs => rw [← List.map_id letters]
  apply List.map_congr_left
  intro u present
  simp [letter, List.getElem?_idxOf (run u present)]

include size octets other

/-- The texts that are accepted, and the octets they stand for. -/
theorem decode_eq_ok_iff (s : JsString) (b : Bytes) :
    decode s (table alphabet) = .ok b ↔
      ∃ letters pad, IsText alphabet s letters pad ∧
        b = regroup 0 0 (sextetsOf alphabet letters) := by
  have loop : ∀ letters : JsString, (∀ u ∈ letters, u ∈ alphabet) →
      decodeLoop (table alphabet) letters 0 0 =
        .ok (regroup 0 0 (sextetsOf alphabet letters)) := by
    intro letters run
    have spelled : List.Forall₂ (Spells (table alphabet)) letters
        (sextetsOf alphabet letters) := by
      rw [sextetsOf, List.forall₂_map_right_iff, List.forall₂_same]
      exact fun u present => spells_idxOf size octets (run u present)
    exact decodeLoop_eq_regroup _ _ _ spelled 0 0 (by omega)
  constructor
  · intro decoded
    obtain ⟨letters, pad, strip, text, few⟩ := stripPadding_spec s
    have front : s.take letters.length = letters := by rw [text, List.take_left]
    simp only [decode, strip, front] at decoded
    rw [guard_eq_ok_iff, guard_eq_ok_iff] at decoded
    obtain ⟨whole, padding, decoded⟩ := decoded
    have run := decodeLoop_run decoded
    rw [loop letters run] at decoded
    exact ⟨letters, pad, ⟨text, run, whole, by omega⟩, (Except.ok.inj decoded).symm⟩
  · rintro ⟨letters, pad, ⟨text, run, whole, padding⟩, rfl⟩
    have strip : stripPadding s = (letters.length, pad) := by
      rw [text]
      apply stripPadding_append letters pad (by omega)
      intro ends
      exact other (run 61 (List.mem_of_getLast? ends))
    have front : s.take letters.length = letters := by rw [text, List.take_left]
    simp only [decode, strip, front]
    rw [if_neg whole, if_neg (by omega), loop letters run]

private theorem decode_text {s letters : JsString} {pad : Nat} {b : Bytes}
    (text : IsText alphabet s letters pad) (decoded : decode s (table alphabet) = .ok b) :
    b = regroup 0 0 (sextetsOf alphabet letters) := by
  have read := (decode_eq_ok_iff size octets other s _).mpr ⟨letters, pad, text, rfl⟩
  exact Except.ok.inj (decoded.symm.trans read)

/-- The octets of a text: the whole ones of its sextets, and the bits of these that fill them. -/
theorem decode_octets {s letters : JsString} {pad : Nat} {b : Bytes}
    (text : IsText alphabet s letters pad) (decoded : decode s (table alphabet) = .ok b) :
    b.length = 6 * letters.length / 8 ∧
      BigEndian.value b =
        sextetsValue (sextetsOf alphabet letters) / 2 ^ (6 * letters.length % 8) := by
  obtain ⟨length, value⟩ := regroup_spec (sextetsOf alphabet letters)
    (sextetsOf_lt size text.run) 0 0 (by omega) (by simp)
  rw [decode_text size octets other text decoded, length, value]
  simp [sextetsOf]

/-- A text is written again as it was when its padding is the encoder's and no bits were dropped. -/
theorem encode_decode_iff (spells : ∀ v < 64, Spells (table alphabet) (letter alphabet v) v)
    (padding : Bool) {s letters : JsString} {pad : Nat} {b : Bytes}
    (text : IsText alphabet s letters pad) (decoded : decode s (table alphabet) = .ok b) :
    encode alphabet padding b = s ↔
      pad = (if padding then (4 - letters.length % 4) % 4 else 0) ∧
        sextetsValue (sextetsOf alphabet letters) % 2 ^ (6 * letters.length % 8) = 0 := by
  obtain ⟨length, value⟩ := decode_octets size octets other text decoded
  have whole := text.whole
  have total := sextets_length b
  have signs : padLength b = (4 - letters.length % 4) % 4 := by
    rw [padLength, length]
    have rest : letters.length % 4 = 0 ∨ letters.length % 4 = 2 ∨ letters.length % 4 = 3 := by omega
    rcases rest with zero | two | three
    · omega
    · omega
    · omega
  have same : (sextets b).length = letters.length := by
    rw [signs] at total
    omega
  have dropped : 4 ^ padLength b = 2 ^ (6 * letters.length % 8) := by
    rw [show 4 = 2 ^ 2 from rfl, ← Nat.pow_mul, signs]
    congr 1
    omega
  have written := sextetsValue_sextets b
  rw [dropped] at written
  rw [encode_eq, signs]
  constructor
  · intro again
    rw [text.text] at again
    obtain ⟨run, fill⟩ := List.append_inj again (by simpa using same)
    refine ⟨by simpa using (congrArg List.length fill).symm, ?_⟩
    -- The table gives every letter of the encoder the sextet it was written for.
    have back : sextetsOf alphabet letters = sextets b := by
      rw [← run, sextetsOf, List.map_map]
      conv_rhs => rw [← List.map_id (sextets b)]
      apply List.map_congr_left
      intro v member
      have small := sextets_lt b v member
      have listed : letter alphabet v ∈ alphabet := by
        apply text.run
        rw [← run]
        exact List.mem_map_of_mem member
      have index := (spells_idxOf size octets listed).2.1.symm.trans (spells v small).2.1
      exact_mod_cast index
    rw [back, written, Nat.mul_mod_left]
  · rintro ⟨fill, rest⟩
    have sextetsSame : sextetsValue (sextetsOf alphabet letters) = sextetsValue (sextets b) := by
      rw [written, value, Nat.div_mul_cancel (Nat.dvd_of_mod_eq_zero rest)]
    have back : sextetsOf alphabet letters = sextets b := by
      apply List.reverse_injective
      apply Nat.ofDigits_inj_of_len_eq (b := 64) (by omega) (by simp [sextetsOf, same]) _ _
        sextetsSame
      · intro v member
        exact sextetsOf_lt size text.run v (List.mem_reverse.mp member)
      · intro v member
        exact sextets_lt b v (List.mem_reverse.mp member)
    rw [← back, letters_sextetsOf text.run, ← fill, ← text.text]

end Grammar

/-- What a decoder and an encoder of an alphabet do: the accepted texts and their octets, the round
trip, and the texts that are written again as they were. -/
structure IsBase64 (alphabet : JsString) (padding : Bool) (decodes : JsString → Js Bytes)
    (encodes : Bytes → JsString) : Prop where
  accepts : ∀ s, (∃ b, decodes s = .ok b) ↔ ∃ letters pad, IsText alphabet s letters pad
  octets : ∀ s letters pad b, IsText alphabet s letters pad → decodes s = .ok b →
    b.length = 6 * letters.length / 8 ∧
      BigEndian.value b =
        sextetsValue (sextetsOf alphabet letters) / 2 ^ (6 * letters.length % 8)
  decodes_encodes : ∀ b, decodes (encodes b) = .ok b
  encodes_decodes : ∀ s letters pad b, IsText alphabet s letters pad → decodes s = .ok b →
    (encodes b = s ↔
      pad = (if padding then (4 - letters.length % 4) % 4 else 0) ∧
        sextetsValue (sextetsOf alphabet letters) % 2 ^ (6 * letters.length % 8) = 0)

private theorem isBase64_decode {alphabet : JsString} (padding : Bool)
    (size : alphabet.length = 64) (octets : ∀ u ∈ alphabet, u.toNat ≤ 255)
    (spells : ∀ v < 64, Spells (table alphabet) (letter alphabet v) v) (other : 61 ∉ alphabet) :
    IsBase64 alphabet padding (fun s => decode s (table alphabet)) (encode alphabet padding) where
  accepts s := by
    constructor
    · rintro ⟨b, decoded⟩
      obtain ⟨letters, pad, text, -⟩ := (decode_eq_ok_iff size octets other s b).mp decoded
      exact ⟨letters, pad, text⟩
    · rintro ⟨letters, pad, text⟩
      exact ⟨_, (decode_eq_ok_iff size octets other s _).mpr ⟨letters, pad, text, rfl⟩⟩
  octets _ _ _ _ text decoded := decode_octets size octets other text decoded
  decodes_encodes b := by
    apply decode_encode spells
    intro v small sign
    apply other
    have inside : v < alphabet.length := by omega
    rw [← sign, letter, List.getD_eq_getElem?_getD, List.getElem?_eq_getElem inside]
    exact List.getElem_mem inside
  encodes_decodes _ _ _ _ text decoded :=
    encode_decode_iff size octets other spells padding text decoded

/-- Both alphabets: the standard one, encoded with padding, and the URL-safe one, encoded
without. -/
theorem base64_grammar :
    IsBase64 stdAlphabet true base64Decode base64Encode ∧
      IsBase64 urlAlphabet false base64UrlDecode base64UrlEncodeNoPad := by
  constructor
  · have octets : (stdAlphabet.all fun u => u.toNat ≤ 255) = true := by decide +kernel
    have within := fun u member => of_decide_eq_true (List.all_eq_true.mp octets u member)
    exact isBase64_decode true (by decide +kernel) within std_spells (by decide +kernel)
  · have octets : (urlAlphabet.all fun u => u.toNat ≤ 255) = true := by decide +kernel
    have within := fun u member => of_decide_eq_true (List.all_eq_true.mp octets u member)
    exact isBase64_decode false (by decide +kernel) within url_spells (by decide +kernel)

end UncrackableL5

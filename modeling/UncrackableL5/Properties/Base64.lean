import UncrackableL5.Verifier.Base64

/-!
# Base64

The decoding loop keeps its sextets in a 32-bit accumulator that it never clears. Only the bits
not yet written out matter, so the loop is the regrouping of six-bit numbers into octets
(`regroup`).

## Main results

- `decode_encode`: the decoder inverts the encoder of the same alphabet, with and without padding.
- `base64Decode_base64Encode`, `base64UrlDecode_base64UrlEncodeNoPad`: the two alphabets.
-/
namespace UncrackableL5

/-- The octets of a run of sextets, after `bits` pending bits with value `pending`; bits left
over at the end are dropped. -/
def regroup : Nat → Nat → List Nat → Bytes
  | _, _, [] => []
  | pending, bits, v :: vs =>
    if bits + 6 ≥ 8 then
      UInt8.ofNat ((pending * 64 + v) / 2 ^ (bits - 2)) ::
        regroup ((pending * 64 + v) % 2 ^ (bits - 2)) (bits - 2) vs
    else regroup (pending * 64 + v) (bits + 6) vs

/-- `u` is the letter that the table gives the value `v`. -/
def Spells (t : Nat → Int) (u : UInt16) (v : Nat) : Prop :=
  u.toNat ≤ 255 ∧ t u.toNat = v ∧ v < 64

private theorem low_octet_sshiftRight (acc : BitVec 32) (k : Nat) (small : k ≤ 24) :
    (acc.sshiftRight k).toNat % 256 = acc.toNat / 2 ^ k % 256 := by
  have same : (acc.sshiftRight k).setWidth 8 = (acc >>> k).setWidth 8 := by
    apply BitVec.eq_of_getLsbD_eq
    intro i bound
    have inside : k + i < 32 := by omega
    simp [BitVec.getLsbD_sshiftRight, bound, inside]
    omega
  simpa [Nat.shiftRight_eq_div_pow] using congrArg BitVec.toNat same

private theorem ofNat_congr {a b : Nat} (same : a % 256 = b % 256) :
    UInt8.ofNat a = UInt8.ofNat b := by
  simpa [← UInt8.toNat_inj] using same

/-- Pushing a sextet multiplies the pending bits. -/
private theorem pushed_toNat (acc : BitVec 32) (v bits : Nat) (sextet : v < 64) (room : bits ≤ 7) :
    ((acc <<< 6) ||| BitVec.ofInt 32 v).toNat % 2 ^ (bits + 6) =
      acc.toNat % 2 ^ bits * 64 + v := by
  -- Bits shifted out at the top are above the pending ones.
  have shifted : acc.toNat <<< 6 % 2 ^ 32 = 2 ^ 6 * (acc.toNat % 2 ^ 26) := by
    rw [Nat.shiftLeft_eq]
    omega
  have small : (BitVec.ofInt 32 v).toNat = v := by
    rw [BitVec.ofInt_natCast, BitVec.toNat_ofNat]
    omega
  rw [BitVec.toNat_or, BitVec.toNat_shiftLeft, shifted, small,
    ← Nat.two_pow_add_eq_or_of_lt (by omega), Nat.add_comm bits, Nat.pow_add, Nat.mod_mul,
    Nat.mul_add_mod, Nat.mul_add_div (by omega), Nat.mod_eq_of_lt (b := 2 ^ 6) (by omega),
    Nat.div_eq_of_lt (b := 2 ^ 6) (by omega), Nat.add_zero,
    Nat.mod_mod_of_dvd _ (Nat.pow_dvd_pow 2 (by omega))]
  omega

/-- The loop regroups the sextets that its input spells. -/
theorem decodeLoop_eq_regroup (t : Nat → Int) (s : JsString) (vs : List Nat)
    (spelled : List.Forall₂ (Spells t) s vs) (acc : BitVec 32) (bits : Nat) (room : bits ≤ 7) :
    decodeLoop t s acc bits = .ok (regroup (acc.toNat % 2 ^ bits) bits vs) := by
  induction spelled generalizing acc bits with
  | nil => rfl
  | @cons u v s vs letter _ ih =>
    obtain ⟨byte, value, sextet⟩ := letter
    have code : t (u.toNat % 256) = v := by rw [Nat.mod_eq_of_lt (by omega), value]
    have pushed := pushed_toNat acc v bits sextet room
    have legal : ¬((v : Int) < 0 ∨ u.toNat > 255) := by omega
    simp only [decodeLoop, code, legal, ↓reduceIte, regroup]
    split
    next full =>
      rw [ih _ (bits + 6 - 8) (by omega), ok_bind, ← pushed]
      -- An octet is written out: the top eight of the pending bits, and the rest stays pending.
      obtain ⟨k, rfl⟩ : ∃ k, bits = k + 2 := ⟨bits - 2, by omega⟩
      have split : 2 ^ (k + 2 + 6) = 2 ^ k * 256 := by rw [Nat.pow_add, Nat.pow_add]; omega
      simp only [show k + 2 + 6 - 8 = k by omega, show k + 2 - 2 = k by omega]
      congr 2
      · apply ofNat_congr
        rw [low_octet_sshiftRight _ _ (by omega), split, Nat.mod_mul_right_div_self, Nat.mod_mod]
      · rw [split, Nat.mod_mul_right_mod]
    next => rw [ih _ (bits + 6) (by omega), pushed]

/-! ### Round trip -/

/-- The sextets of the encoder. -/
def sextets : Bytes → List Nat
  | b0 :: b1 :: b2 :: rest =>
    let n := b0.toNat * 65536 + b1.toNat * 256 + b2.toNat
    n / 262144 :: n / 4096 % 64 :: n / 64 % 64 :: n % 64 :: sextets rest
  | [b0, b1] =>
    let n := b0.toNat * 65536 + b1.toNat * 256
    [n / 262144, n / 4096 % 64, n / 64 % 64]
  | [b0] =>
    let n := b0.toNat * 65536
    [n / 262144, n / 4096 % 64]
  | [] => []

/-- The number of `=` signs that complete an encoding. -/
def padLength (b : Bytes) : Nat := (3 - b.length % 3) % 3

theorem encode_eq (alphabet : JsString) (padding : Bool) (b : Bytes) :
    encode alphabet padding b =
      (sextets b).map (letter alphabet) ++
        List.replicate (if padding then padLength b else 0) 61 := by
  induction b using sextets.induct with
  | case1 b0 b1 b2 rest ih =>
    have same : padLength (b0 :: b1 :: b2 :: rest) = padLength rest := by
      simp only [padLength, List.length_cons]
      omega
    simp only [encode, sextets, ih, same, List.map_cons, List.cons_append]
  | case2 => cases padding <;> rfl
  | case3 => cases padding <;> rfl
  | case4 => cases padding <;> rfl

/-- Base64 text is ASCII. -/
theorem encode_ascii {alphabet : JsString} (letters : isAscii alphabet = true) (padding : Bool)
    (b : Bytes) : ∀ u ∈ encode alphabet padding b, u.toNat < 0x80 := by
  intro u member
  rw [encode_eq, List.mem_append, List.mem_map] at member
  rcases member with ⟨i, -, rfl⟩ | pad
  · rw [letter, List.getD_eq_getElem?_getD]
    cases found : alphabet[i]? with
    | none => decide
    | some u => exact of_decide_eq_true (List.all_eq_true.mp letters u (List.mem_of_getElem? found))
  · obtain rfl := List.eq_of_mem_replicate pad
    decide

theorem sextets_lt (b : Bytes) : ∀ v ∈ sextets b, v < 64 := by
  induction b using sextets.induct with
  | case1 b0 b1 b2 rest ih =>
    have := b0.toNat_lt
    have := b1.toNat_lt
    have := b2.toNat_lt
    simp only [sextets, List.mem_cons, forall_eq_or_imp]
    refine ⟨by omega, by omega, by omega, by omega, ih⟩
  | case2 b0 b1 =>
    have := b0.toNat_lt
    have := b1.toNat_lt
    simp only [sextets, List.mem_cons, forall_eq_or_imp]
    refine ⟨by omega, by omega, by omega, by simp⟩
  | case3 b0 =>
    have := b0.toNat_lt
    simp only [sextets, List.mem_cons, forall_eq_or_imp]
    refine ⟨by omega, by omega, by simp⟩
  | case4 => simp [sextets]

theorem sextets_length (b : Bytes) :
    (sextets b).length + padLength b = (b.length + 2) / 3 * 4 := by
  induction b using sextets.induct with
  | case1 b0 b1 b2 rest ih =>
    simp only [sextets, padLength, List.length_cons] at ih ⊢
    omega
  | case2 => simp [sextets, padLength]
  | case3 => simp [sextets, padLength]
  | case4 => rfl

private theorem octet_of {a : Nat} (b : UInt8) (same : a = b.toNat) : UInt8.ofNat a = b := by
  simp [same]

theorem regroup_sextets (b : Bytes) : regroup 0 0 (sextets b) = b := by
  induction b using sextets.induct with
  | case1 b0 b1 b2 rest ih =>
    have := b0.toNat_lt
    have := b1.toNat_lt
    have := b2.toNat_lt
    simp only [sextets, regroup, ge_iff_le, Nat.reduceAdd, Nat.reduceLeDiff, ↓reduceIte,
      Nat.reduceSub, Nat.reducePow, Nat.mod_one, List.cons.injEq]
    exact ⟨octet_of b0 (by omega), octet_of b1 (by omega), octet_of b2 (by omega), ih⟩
  | case2 b0 b1 =>
    have := b0.toNat_lt
    have := b1.toNat_lt
    simp only [sextets, regroup, ge_iff_le, Nat.reduceAdd, Nat.reduceLeDiff, ↓reduceIte,
      Nat.reduceSub, Nat.reducePow, List.cons.injEq]
    exact ⟨octet_of b0 (by omega), octet_of b1 (by omega), trivial⟩
  | case3 b0 =>
    have := b0.toNat_lt
    simp only [sextets, regroup, ge_iff_le, Nat.reduceAdd, Nat.reduceLeDiff, ↓reduceIte,
      Nat.reduceSub, Nat.reducePow, List.cons.injEq]
    exact ⟨octet_of b0 (by omega), trivial⟩
  | case4 => rfl

/-- Padding is stripped whole when what precedes it is not `=`. -/
theorem stripPadding_append (s : JsString) (pad : Nat) (few : pad ≤ 2)
    (ends : s.getLast? ≠ some 61) :
    stripPadding (s ++ List.replicate pad 61) = (s.length, pad) := by
  -- With one sign the octet before it is looked at, with two it is not.
  rcases pad with _ | _ | _ | pad
  · rw [List.getLast?_eq_getElem?] at ends
    simp [stripPadding, ends]
  · rcases s.eq_nil_or_concat with rfl | ⟨s, u, rfl⟩
    · rfl
    · have other : u ≠ 61 := by simpa using ends
      simp [stripPadding, other]
  · simp [stripPadding]
  · omega

section Alphabets

variable {alphabet : JsString}
  -- The table of the alphabet inverts its letters, and none of them is the padding sign.
  (spells : ∀ v < 64, Spells (table alphabet) (letter alphabet v) v)
  (other : ∀ v < 64, letter alphabet v ≠ 61)

include spells other

theorem decode_encode (padding : Bool) (b : Bytes) :
    decode (encode alphabet padding b) (table alphabet) = .ok b := by
  obtain ⟨pad, isPad⟩ : ∃ pad, pad = if padding then padLength b else 0 := ⟨_, rfl⟩
  have few : padLength b < 3 := Nat.mod_lt _ (by omega)
  have total := sextets_length b
  have pads : pad = 0 ∨ pad = padLength b := by
    rw [isPad]
    split <;> simp
  have encoded : encode alphabet padding b =
      (sextets b).map (letter alphabet) ++ List.replicate pad 61 := by
    rw [isPad, encode_eq]
  have strip : stripPadding (encode alphabet padding b) = ((sextets b).length, pad) := by
    rw [encoded, stripPadding_append, List.length_map]
    · omega
    -- The last letter is no padding.
    · rw [List.getLast?_map]
      intro ends
      simp only [Option.map_eq_some_iff] at ends
      obtain ⟨v, member, equal⟩ := ends
      exact other v (sextets_lt b v (List.mem_of_getLast? member)) equal
  have letters : (encode alphabet padding b).take (sextets b).length =
      (sextets b).map (letter alphabet) := by
    rw [encoded, List.take_left' (by simp)]
  have spelled : List.Forall₂ (Spells (table alphabet))
      ((sextets b).map (letter alphabet)) (sextets b) := by
    rw [List.forall₂_map_left_iff, List.forall₂_same]
    exact fun v member => spells v (sextets_lt b v member)
  simp only [decode, strip, letters]
  rw [if_neg (by omega), if_neg (by omega),
    decodeLoop_eq_regroup _ _ _ spelled _ _ (by omega)]
  simpa using regroup_sextets b

end Alphabets

theorem std_spells : ∀ v < 64, Spells (table stdAlphabet) (letter stdAlphabet v) v := by
  unfold Spells
  decide +kernel

theorem url_spells : ∀ v < 64, Spells (table urlAlphabet) (letter urlAlphabet v) v := by
  unfold Spells
  decide +kernel

theorem base64Decode_base64Encode (b : Bytes) : base64Decode (base64Encode b) = .ok b :=
  decode_encode std_spells (by decide +kernel) true b

theorem base64UrlDecode_base64UrlEncodeNoPad (b : Bytes) :
    base64UrlDecode (base64UrlEncodeNoPad b) = .ok b :=
  decode_encode url_spells (by decide +kernel) false b

theorem base64UrlEncodeNoPad_length (b : Bytes) :
    (base64UrlEncodeNoPad b).length + padLength b = (b.length + 2) / 3 * 4 := by
  have total := sextets_length b
  simpa [base64UrlEncodeNoPad, encode_eq] using total

end UncrackableL5

import UncrackableL5.Js.Text

/-!
# Kotlin

What the app uses of Kotlin and Java: the exception classes that it catches or throws, and the
conversions between numbers, strings and octets. A `ByteArray` is its octets.
-/
namespace UncrackableL5

/-- A `String`: its UTF-16 code units. -/
abbrev JavaString := List UInt16

/-- Exception classes, as far as a handler tells them apart. -/
inductive Throwable where
  -- `GeneralSecurityException` and its subclasses but the next one
  | generalSecurity (message : String)
  | keyPermanentlyInvalidated
  -- `ProviderException` and its subclasses but the next one
  | provider
  | strongBoxUnavailable
  | io (message : String)
  | illegalArgument (message : String)
  | other
  deriving DecidableEq, Repr

/-- `v.toByte()` -/
def toByte (v : Int) : UInt8 := UInt8.ofNat (v % 256).toNat

@[simp] theorem toByte_toNat {v : Int} (positive : 0 ≤ v) (small : v < 256) :
    ((toByte v).toNat : Int) = v := by
  simp only [toByte, UInt8.toNat_ofNat']
  omega

/-- `s.encodeToByteArray()`: a lone surrogate becomes a question mark. -/
def encodeToByteArray : JavaString → Bytes
  | [] => []
  | high :: low :: rest =>
    let h := high.toNat
    let l := low.toNat
    if 0xD800 ≤ h ∧ h ≤ 0xDBFF ∧ 0xDC00 ≤ l ∧ l ≤ 0xDFFF then
      utf8Octets (0x10000 + (h - 0xD800) * 0x400 + (l - 0xDC00)) ++ encodeToByteArray rest
    else if 0xD800 ≤ h ∧ h ≤ 0xDFFF then 0x3F :: encodeToByteArray (low :: rest)
    else utf8Octets h ++ encodeToByteArray (low :: rest)
  | [u] => if 0xD800 ≤ u.toNat ∧ u.toNat ≤ 0xDFFF then [0x3F] else utf8Octets u.toNat

/-- ASCII text is encoded octet for unit. -/
theorem encodeToByteArray_ascii (s : JavaString) (ascii : ∀ u ∈ s, u.toNat < 0x80) :
    encodeToByteArray s = s.map fun u => UInt8.ofNat u.toNat := by
  induction s with
  | nil => rfl
  | cons u rest ih =>
    have small := ascii u (by simp)
    have tail := ih fun x member => ascii x (by simp [member])
    cases rest with
    | nil =>
      rw [encodeToByteArray, if_neg (by omega), utf8Octets, if_pos small]
      rfl
    | cons v rest =>
      rw [encodeToByteArray, if_neg (by omega), if_neg (by omega), utf8Octets, if_pos small, tail]
      rfl

end UncrackableL5

import UncrackableL5.Library.Base128
import UncrackableL5.Verifier.Der

/-!
# DER writer

The encodings that the reader is meant for. An element is written as a `Tlv` whose `raw` octets are
its encoding.
-/
namespace UncrackableL5

/-- The bits of a class in an identifier octet. -/
def TagClass.bits : TagClass → Nat
  | .universal => 0
  | .application => 1
  | .contextSpecific => 2
  | .privateUse => 3

namespace DerWriter

def encodeLength (n : Nat) : Bytes :=
  if n < 0x80 then [UInt8.ofNat n]
  else UInt8.ofNat (0x80 + (BigEndian.octets n).length) :: BigEndian.octets n

/-- The identifier octet before the number of the tag is added. -/
def firstOctet (cls : TagClass) (constructed : Bool) : Nat :=
  cls.bits * 64 + if constructed then 0x20 else 0

def encodeTag (cls : TagClass) (constructed : Bool) (tag : Nat) : Bytes :=
  if tag < 31 then [UInt8.ofNat (firstOctet cls constructed + tag)]
  else UInt8.ofNat (firstOctet cls constructed + 0x1f) :: Base128.encode tag

def tlv (cls : TagClass) (constructed : Bool) (tag : Nat) (content : Bytes) : Bytes :=
  encodeTag cls constructed tag ++ encodeLength content.length ++ content

def element (cls : TagClass) (constructed : Bool) (tag : Nat) (content : Bytes) : Tlv where
  cls := cls
  constructed := constructed
  tag := tag
  raw := tlv cls constructed tag content
  content := content

/-- The elements one after the other. -/
def concat (items : List Tlv) : Bytes := (items.map Tlv.raw).flatten

def seq (items : List Tlv) : Tlv := element .universal true U.sequence (concat items)

def set (items : List Tlv) : Tlv := element .universal true U.set (concat items)

def octet (b : Bytes) : Tlv := element .universal false U.octetString b

def bool (v : Bool) : Tlv := element .universal false U.boolean [if v then 0xff else 0]

/-- Context-specific EXPLICIT tag. -/
def ctx (tag : Nat) (inner : Tlv) : Tlv := element .contextSpecific true tag inner.raw

/-- The shortest two's complement octets. -/
def integerContent (v : Int) : Bytes := BigEndian.twosComplement v

def int (v : Int) : Tlv := element .universal false U.integer (integerContent v)

def enumerated (v : Int) : Tlv := element .universal false U.enumerated (integerContent v)

/-- Raw r||s ECDSA signature to DER ECDSA-Sig-Value. -/
def ecdsaRawToDer (raw : Bytes) : Bytes :=
  let half := raw.length / 2
  (seq [int (BigEndian.value (raw.take half)), int (BigEndian.value (raw.drop half))]).raw

/-- The octets of a text. -/
def utf8 (text : String) : Bytes := text.toList.flatMap fun c => utf8Octets c.toNat

end DerWriter

/-- An element as the writer builds it, with a tag that the reader takes. -/
structure Tlv.Written (t : Tlv) : Prop where
  raw_eq : t.raw = DerWriter.tlv t.cls t.constructed t.tag t.content
  tag_lt : t.tag < 2 ^ 28

end UncrackableL5

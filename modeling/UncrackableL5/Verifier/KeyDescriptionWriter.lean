import UncrackableL5.Verifier.DerWriter
import UncrackableL5.Verifier.KeyDescription

/-!
# Key descriptions as they are written

What a key description says, apart from its octets, and the encoding of it. Lists give their
elements in the order in which these are written.
-/
namespace UncrackableL5

/-! ### Numbers of the enumerations -/

def SecurityLevel.number : SecurityLevel → Int
  | .software => 0
  | .trustedEnvironment => 1
  | .strongBox => 2

def Origin.number : Origin → Int
  | .generated => 0
  | .derived => 1
  | .imported => 2
  | .reserved => 3
  | .securelyImported => 4

def VerifiedBootState.number : VerifiedBootState → Int
  | .verified => 0
  | .selfSigned => 1
  | .unverified => 2
  | .failed => 3

/-! ### Attributes -/

/-- What a tag says about its value. -/
inductive Kind where
  | ints
  | int
  | origin
  | rootOfTrust
  | applicationId
  | text
  | bytes
  -- Never looked at.
  | other
  deriving DecidableEq, Repr

def intSetTags : List Nat := Tag.purpose :: Tag.digest :: unreadIntSetTags

def intTags : List Nat :=
  [Tag.algorithm, Tag.keySize, Tag.ecCurve, Tag.osPatchLevel, Tag.vendorPatchLevel,
    Tag.bootPatchLevel] ++ unreadIntTags

/-- The kind of value under a known tag. -/
def kindOf (tag : Nat) : Option Kind :=
  if tag ∉ knownTags then none
  else if tag ∈ intSetTags then some .ints
  else if tag ∈ intTags then some .int
  else if tag = Tag.origin then some .origin
  else if tag = Tag.rootOfTrust then some .rootOfTrust
  else if tag = Tag.attestationApplicationId then some .applicationId
  else if tag ∈ unreadStrTags then some .text
  else if tag = Tag.moduleHash then some .bytes
  else some .other

/-- The applications that share a key, within the limits of the reader. -/
structure ApplicationId where
  packages : List (String × Int)
  signatures : List Bytes
  packages_le : packages.length ≤ 32
  signatures_le : signatures.length ≤ 10

inductive AttributeValue where
  | ints (values : List Int)
  | int (v : Int)
  | origin (o : Origin)
  | rootOfTrust (root : RootOfTrust)
  | applicationId (id : ApplicationId)
  | text (s : String)
  | bytes (b : Bytes)
  | other (t : Tlv) (written : t.Written)

def AttributeValue.kind : AttributeValue → Kind
  | .ints _ => .ints
  | .int _ => .int
  | .origin _ => .origin
  | .rootOfTrust _ => .rootOfTrust
  | .applicationId _ => .applicationId
  | .text _ => .text
  | .bytes _ => .bytes
  | .other _ _ => .other

/-- A known tag with a value of its kind. -/
structure Assignment where
  tag : Nat
  value : AttributeValue
  typed : kindOf tag = some value.kind

/-- A finite assignment of values to tags. -/
structure Authorizations where
  attributes : List Assignment
  distinct : (attributes.map Assignment.tag).Nodup

def Authorizations.value (a : Authorizations) (tag : Nat) : Option AttributeValue :=
  (a.attributes.find? fun e => e.tag = tag).map Assignment.value

structure Description where
  attestationVersion : Int
  attestationSecurityLevel : SecurityLevel
  keyMintVersion : Int
  keyMintSecurityLevel : SecurityLevel
  challenge : Bytes
  uniqueId : Bytes
  sw : Authorizations
  hw : Authorizations

/-! ### Encodings -/

namespace DerWriter

def packageInfo (p : String × Int) : Tlv := seq [octet (utf8 p.1), int p.2]

def appId (id : ApplicationId) : Tlv :=
  octet (seq [set (id.packages.map packageInfo), set (id.signatures.map octet)]).raw

def rootOfTrust (root : RootOfTrust) : Tlv :=
  seq ([octet root.verifiedBootKey, bool root.deviceLocked, enumerated root.verifiedBootState.number]
    ++ root.verifiedBootHash.toList.map octet)

def attributeValue : AttributeValue → Tlv
  | .ints values => set (values.map int)
  | .int v => int v
  | .origin o => int o.number
  | .rootOfTrust root => rootOfTrust root
  | .applicationId id => appId id
  | .text s => octet (utf8 s)
  | .bytes b => octet b
  | .other t _ => t

def authorizationList (a : Authorizations) : Tlv :=
  seq (a.attributes.map fun e => ctx e.tag (attributeValue e.value))

def keyDescription (d : Description) : Tlv :=
  seq [int d.attestationVersion, enumerated d.attestationSecurityLevel.number, int d.keyMintVersion,
    enumerated d.keyMintSecurityLevel.number, octet d.challenge, octet d.uniqueId,
    authorizationList d.sw, authorizationList d.hw]

end DerWriter

end UncrackableL5

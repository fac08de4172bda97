import UncrackableL5.Verifier.Der
import UncrackableL5.Js.Sort

/-!
# KeyDescription

Port of Google's KeyDescription parser. An attribute whose conversion raises an
`AttributeError` becomes null and parsing continues; every other error is fatal.
-/
namespace UncrackableL5

inductive SecurityLevel where
  | software
  | trustedEnvironment
  | strongBox
  deriving DecidableEq, Repr

inductive Origin where
  | generated
  | derived
  | imported
  | reserved
  | securelyImported
  deriving DecidableEq, Repr

inductive VerifiedBootState where
  | verified
  | selfSigned
  | unverified
  | failed
  deriving DecidableEq, Repr

structure InputLimits where
  maxPackages : Nat
  maxSignatures : Nat

def defaultLimits : InputLimits := { maxPackages := 32, maxSignatures := 10 }

structure RootOfTrust where
  verifiedBootKey : Bytes
  deviceLocked : Bool
  verifiedBootState : VerifiedBootState
  verifiedBootHash : Option Bytes
  deriving DecidableEq, Repr

structure PackageInfo where
  name : JsString
  version : Int
  deriving DecidableEq, Repr

structure AttestationApplicationId where
  packages : List PackageInfo
  /-- Unique signature digests, as lowercase hex. -/
  signatures : List JsString
  deriving DecidableEq, Repr

structure AuthorizationList where
  purposes : Option (List Int)
  algorithms : Option Int
  keySize : Option Int
  digests : Option (List Int)
  ecCurve : Option Int
  origin : Option Origin
  rootOfTrust : Option RootOfTrust
  attestationApplicationId : Option AttestationApplicationId
  /-- Raw INTEGER values, interpreted only by server policy. -/
  osPatchLevel : Option Int
  vendorPatchLevel : Option Int
  bootPatchLevel : Option Int
  deriving DecidableEq, Repr

structure KeyDescription where
  attestationVersion : Int
  attestationSecurityLevel : SecurityLevel
  keyMintVersion : Int
  keyMintSecurityLevel : SecurityLevel
  attestationChallenge : Bytes
  uniqueId : Bytes
  softwareEnforced : AuthorizationList
  hardwareEnforced : AuthorizationList
  deriving DecidableEq, Repr

def knownTags : List Nat :=
  [1, 2, 3, 4, 5, 6, 10, 11, 200, 203, 400, 401, 402, 405, 503, 504, 505, 506, 507, 508, 509,
    701, 702, 703, 704, 705, 706, 709, 710, 711, 712, 713, 714, 715, 716, 717, 718, 719, 723, 724]

namespace Tag

abbrev purpose : Nat := 1
abbrev algorithm : Nat := 2
abbrev keySize : Nat := 3
abbrev blockMode : Nat := 4
abbrev digest : Nat := 5
abbrev padding : Nat := 6
abbrev ecCurve : Nat := 10
abbrev mlDsaVariant : Nat := 11
abbrev rsaPublicExponent : Nat := 200
abbrev rsaOaepMgfDigest : Nat := 203
abbrev activeDateTime : Nat := 400
abbrev originationExpireDateTime : Nat := 401
abbrev usageExpireDateTime : Nat := 402
abbrev usageCountLimit : Nat := 405
abbrev userAuthType : Nat := 504
abbrev authTimeout : Nat := 505
abbrev creationDateTime : Nat := 701
abbrev origin : Nat := 702
abbrev rootOfTrust : Nat := 704
abbrev osVersion : Nat := 705
abbrev osPatchLevel : Nat := 706
abbrev attestationApplicationId : Nat := 709
abbrev attestationIdBrand : Nat := 710
abbrev attestationIdDevice : Nat := 711
abbrev attestationIdProduct : Nat := 712
abbrev attestationIdSerial : Nat := 713
abbrev attestationIdImei : Nat := 714
abbrev attestationIdMeid : Nat := 715
abbrev attestationIdManufacturer : Nat := 716
abbrev attestationIdModel : Nat := 717
abbrev vendorPatchLevel : Nat := 718
abbrev bootPatchLevel : Nat := 719
abbrev attestationIdSecondImei : Nat := 723
abbrev moduleHash : Nat := 724

end Tag

/-! ### Conversions that throw `AttributeError` -/

def toInt (t : Tlv) : Js Int :=
  if isUniversal t U.integer (some false) then integerValue t
  else .error (.attributeError "Must be an ASN1Integer")

def toEnumeratedValue (t : Tlv) : Js Int :=
  if isUniversal t U.enumerated (some false) then integerValueAs t U.enumerated
  else .error (.attributeError "Must be an ASN1Enumerated")

def toBoolean (t : Tlv) : Js Bool :=
  if isUniversal t U.boolean (some false) then booleanValue t
  else .error (.attributeError "Must be an ASN1Boolean")

def toBytes (t : Tlv) : Js Bytes :=
  if isUniversal t U.octetString (some false) then .ok t.content
  else .error (.attributeError "Must be an ASN1OctetString")

def toStr (t : Tlv) : Js JsString := do
  let b ← toBytes t
  (utf8Decode b).recover fun _ => .error (.attributeError "error decoding ASN.1")

def toSetOf (t : Tlv) (elementTag : Nat) (what : String) : Js (List Tlv) :=
  if isUniversal t U.set (some true) then do
    let items ← derSet t "SET"
    if items.all fun it => isUniversal it elementTag none then .ok items
    else .error (.attributeError ("Object must be a " ++ what))
  else .error (.attributeError "Object must be an ASN1Set")

/-- Set semantics: distinct values, order irrelevant. -/
def toIntSet (t : Tlv) : Js (List Int) := do
  let values ← (← toSetOf t U.integer "ASN1Integer").mapM integerValue
  .ok (values.foldl pushNew [])

def bootState (state : Int) : Option VerifiedBootState :=
  [VerifiedBootState.verified, .selfSigned, .unverified, .failed][state.toNat]?

def toRootOfTrust (t : Tlv) : Js RootOfTrust :=
  if isUniversal t U.sequence (some true) then do
    match ← sequence t "SEQUENCE" with
    | key :: locked :: state :: rest =>
      if rest.length > 1 then .error (.error "RootOfTrust size")
      else do
        -- The state is converted first: the order decides which error is raised.
        let stateValue ← toEnumeratedValue state
        let verifiedBootKey ← toBytes key
        let deviceLocked ← toBoolean locked
        if stateValue < 0 ∨ stateValue > 3 then .error (.error "unknown VerifiedBootState")
        else do
          -- A fourth element is the hash.
          let verifiedBootHash ←
            match rest with
            | [] => .ok none
            | hash :: _ => (toBytes hash).map some
          match bootState stateValue with
          | none => .error (.error "unknown VerifiedBootState")
          | some verifiedBootState =>
            .ok {
              verifiedBootKey := verifiedBootKey
              deviceLocked := deviceLocked
              verifiedBootState := verifiedBootState
              verifiedBootHash := verifiedBootHash }
    | _ => .error (.error "RootOfTrust size")
  else .error (.attributeError "Object must be an ASN1Sequence")

/-- A set larger than `max` is refused before its elements are looked at. -/
def checkSetSize (t : Tlv) (max : Nat) (what : String) : Js Unit :=
  if isUniversal t U.set (some true) then do
    if (← derSet t "SET").length > max then .error (.attributeError ("too many " ++ what))
    else .ok ()
  else .ok ()

def toPackageInfo (p : Tlv) : Js PackageInfo := do
  match ← sequence p "SEQUENCE" with
  | [nameT, versionT] => do
    let name ← toStr nameT
    let version ← toInt versionT
    .ok { name := name, version := version }
  | _ => .error (.error "AttestationPackageInfo size")

def toAttestationApplicationId (t : Tlv) (limits : InputLimits) : Js AttestationApplicationId :=
  if isUniversal t U.octetString (some false) then do
    match ← sequence (← parseSingle t.content) "SEQUENCE" with
    | [packagesSet, signaturesSet] => do
      -- Both sizes are checked before an element is looked at.
      checkSetSize packagesSet limits.maxPackages "packages"
      checkSetSize signaturesSet limits.maxSignatures "signatures"
      let packageSeqs ← toSetOf packagesSet U.sequence "ASN1Sequence"
      let signatureOcts ← toSetOf signaturesSet U.octetString "ASN1OctetString"
      let packages ← packageSeqs.mapM toPackageInfo
      .ok {
        packages := packages.foldl pushNew []
        signatures := (signatureOcts.map fun s => hex s.content).foldl pushNew [] }
    | _ => .error (.error "AttestationApplicationId size")
  else .error (.attributeError "Object must be an ASN1OctetString")

/-! ### Authorization lists -/

/-- `recover`: an `AttributeError` makes the attribute null. -/
def recoverAttribute {α : Type} (x : Js α) : Js (Option α) :=
  match x with
  | .ok a => .ok (some a)
  | .error (.attributeError _) => .ok none
  | .error e => .error e

/-- One element of the list: its tag number and the single child of the explicit tag. -/
def readTagged (el : Tlv) : Js (Nat × Tlv) :=
  if el.cls = .universal then .error (.error "Must be an ASN1TaggedObject")
  else if el.tag ∉ knownTags then
    .error (.error ("unknown tag number: " ++ toString el.tag))
  else if el.constructed = false then .error (.error "implicit tagging")
  else do
    match ← children el with
    | [inner] => .ok (el.tag, inner)
    | _ => .error (.error "implicit tagging")

/-- `objects.get(tag)` when later entries replace earlier ones. -/
def lastWith (objects : List (Nat × Tlv)) (tag : Nat) : Option Tlv :=
  (objects.reverse.find? fun e => e.1 = tag).map (·.2)

/-- `parse(tag, fn)` -/
def parseAttributeOf {α : Type} (objects : List (Nat × Tlv)) (tag : Nat) (fn : Tlv → Js α) :
    Js (Option α) :=
  match lastWith objects tag with
  | none => .ok none
  | some v => recoverAttribute (fn v)

def patchLevel (objects : List (Nat × Tlv)) (tag : Nat) : Js (Option Int) :=
  match lastWith objects tag with
  | none => .ok none
  | some v =>
    -- Fatal, unlike the other conversions.
    if isUniversal v U.integer (some false) then (integerValue v).map some
    else .error (.error "Must be an ASN1Integer")

/-- Attributes that are converted only because their fatal errors abort the parse. -/
def checkUnread {α : Type} (objects : List (Nat × Tlv)) (fn : Tlv → Js α) : List Nat → Js Unit
  | [] => .ok ()
  | tag :: rest => do
    let _ ← parseAttributeOf objects tag fn
    checkUnread objects fn rest

def toOrigin (v : Tlv) : Js Origin := do
  let n ← toInt v
  if n < 0 ∨ n > 4 then .error (.error "unknown Origin")
  else
    match [Origin.generated, .derived, .imported, .reserved, .securelyImported][n.toNat]? with
    | none => .error (.error "unknown Origin")
    | some origin => .ok origin

def unreadIntSetTags : List Nat := [Tag.blockMode, Tag.padding, Tag.rsaOaepMgfDigest]

def unreadIntTags : List Nat :=
  [Tag.mlDsaVariant, Tag.rsaPublicExponent, Tag.activeDateTime, Tag.originationExpireDateTime,
    Tag.usageExpireDateTime, Tag.usageCountLimit, Tag.userAuthType, Tag.authTimeout,
    Tag.creationDateTime, Tag.osVersion]

def unreadStrTags : List Nat :=
  [Tag.attestationIdBrand, Tag.attestationIdDevice, Tag.attestationIdProduct,
    Tag.attestationIdSerial, Tag.attestationIdImei, Tag.attestationIdMeid,
    Tag.attestationIdManufacturer, Tag.attestationIdModel, Tag.attestationIdSecondImei]

/-- The conversions of `parseAuthorizationList` once the elements are read. -/
def convertObjects (objects : List (Nat × Tlv)) (limits : InputLimits) : Js AuthorizationList := do
  -- Attributes that the server does not read, in the order their errors can abort the parse.
  checkUnread objects toIntSet unreadIntSetTags
  checkUnread objects toInt unreadIntTags
  let osPatchLevel ← patchLevel objects Tag.osPatchLevel
  let vendorPatchLevel ← patchLevel objects Tag.vendorPatchLevel
  let bootPatchLevel ← patchLevel objects Tag.bootPatchLevel
  checkUnread objects toStr unreadStrTags
  checkUnread objects toBytes [Tag.moduleHash]
  -- Attributes that it reads.
  let origin ← parseAttributeOf objects Tag.origin toOrigin
  let purposes ← parseAttributeOf objects Tag.purpose toIntSet
  let algorithms ← parseAttributeOf objects Tag.algorithm toInt
  let keySize ← parseAttributeOf objects Tag.keySize toInt
  let digests ← parseAttributeOf objects Tag.digest toIntSet
  let ecCurve ← parseAttributeOf objects Tag.ecCurve toInt
  let rootOfTrust ← parseAttributeOf objects Tag.rootOfTrust toRootOfTrust
  let attestationApplicationId ← parseAttributeOf objects Tag.attestationApplicationId
    fun v => toAttestationApplicationId v limits
  .ok {
    purposes := purposes
    algorithms := algorithms
    keySize := keySize
    digests := digests
    ecCurve := ecCurve
    origin := origin
    rootOfTrust := rootOfTrust
    attestationApplicationId := attestationApplicationId
    osPatchLevel := osPatchLevel
    vendorPatchLevel := vendorPatchLevel
    bootPatchLevel := bootPatchLevel }

def parseAuthorizationList (t : Tlv) (limits : InputLimits) : Js AuthorizationList :=
  if isUniversal t U.sequence (some true) then do
    let objects ← (← sequence t "SEQUENCE").mapM readTagged
    convertObjects objects limits
  else .error (.attributeError "Object must be an ASN1Sequence")

def toSecurityLevel (t : Tlv) : Js SecurityLevel := do
  let v ← toEnumeratedValue t
  if v < 0 ∨ v > 2 then .error (.error "unknown SecurityLevel")
  else
    match [SecurityLevel.software, .trustedEnvironment, .strongBox][v.toNat]? with
    | none => .error (.error "unknown SecurityLevel")
    | some level => .ok level

/-- Parses the KeyDescription from the content of the extension's OCTET STRING. -/
def parseKeyDescription (bytes : Bytes) (limits : InputLimits) : Js KeyDescription := do
  match ← sequence (← parseSingle bytes) "KeyDescription" with
  | [versionT, levelT, keyMintVersionT, keyMintLevelT, challengeT, uniqueIdT, swT, hwT] => do
    let attestationVersion ← toInt versionT
    let attestationSecurityLevel ← toSecurityLevel levelT
    let keyMintVersion ← toInt keyMintVersionT
    let keyMintSecurityLevel ← toSecurityLevel keyMintLevelT
    let attestationChallenge ← toBytes challengeT
    let uniqueId ← toBytes uniqueIdT
    let softwareEnforced ← parseAuthorizationList swT limits
    let hardwareEnforced ← parseAuthorizationList hwT limits
    .ok {
      attestationVersion := attestationVersion
      attestationSecurityLevel := attestationSecurityLevel
      keyMintVersion := keyMintVersion
      keyMintSecurityLevel := keyMintSecurityLevel
      attestationChallenge := attestationChallenge
      uniqueId := uniqueId
      softwareEnforced := softwareEnforced
      hardwareEnforced := hardwareEnforced }
  | _ => .error (.error "KeyDescription size")

end UncrackableL5

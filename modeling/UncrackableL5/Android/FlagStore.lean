import Mathlib.Logic.Function.Basic
import UncrackableL5.Android.FlagRecord

/-!
# The flag store

`FlagStore` over the files of its directory and the Keystore entry `flag-store`. Each call runs
under conditions: what the platform answers to it and where it fails. AES-GCM is ideal: what was
not encrypted under the same key, IV and associated data does not decrypt.
-/
namespace UncrackableL5

/-! ### Keystore -/

/-- What `KeyInfo` says about a key. -/
structure KeyInfo where
  securityLevel : Int
  isInsideSecureHardware : Bool

/-- AES-GCM with a tag of 16 octets. -/
structure Gcm (Key : Type) where
  encrypt (key : Key) (iv aad plaintext : Bytes) : Bytes
  decrypt (key : Key) (iv aad ciphertext : Bytes) : Option Bytes
  decrypt_encrypt (key : Key) (iv aad plaintext : Bytes) :
    decrypt key iv aad (encrypt key iv aad plaintext) = some plaintext
  length_encrypt (key : Key) (iv aad plaintext : Bytes) :
    (encrypt key iv aad plaintext).length = plaintext.length + tagBytes

/-- What is stored under the alias. -/
inductive KeyEntry (Key : Type) where
  | secretKey (key : Key)
  -- no `SecretKey`
  | other
  deriving DecidableEq

/-- A `doFinal`, whether or not it returns. -/
inductive Use (Key : Type) where
  | encrypted (key : Key) (iv aad plaintext ciphertext : Bytes)
  | decrypted (key : Key) (iv aad ciphertext : Bytes)
  deriving DecidableEq

namespace Use

variable {Key : Type}

def key : Use Key → Key
  | .encrypted key _ _ _ _ | .decrypted key _ _ _ => key

/-- An encryption under this key, IV and associated data that gave this ciphertext. -/
def produces [DecidableEq Key] (key : Key) (iv aad ciphertext : Bytes) : Use Key → Bool
  | .encrypted key' iv' aad' _ ciphertext' =>
    key' = key && iv' = iv && aad' = aad && ciphertext' = ciphertext
  | .decrypted _ _ _ _ => false

end Use

/-! ### Device -/

inductive FileName where
  -- `tier$tier.bin`, and with `.tmp`
  | record (tier : Int)
  | temp (tier : Int)
  deriving DecidableEq

structure Device (Key : Type) where
  files : FileName → Option Bytes
  entry : Option (KeyEntry Key)
  -- what the Keystore has done so far
  uses : List (Use Key)
  -- the array that the caller passed to `store`
  flag : Bytes

/-- How `writeBytes` fails: before the file is opened, or after this many octets. -/
inductive WriteFault where
  | notOpened
  | stopped (written : Nat)

/-- How the platform answers during one call. -/
structure Conditions (Key : Type) where
  sdkInt : Nat
  hasStrongBox : Bool
  -- `KeyStore.getInstance` and `load`, and `getKey` with whatever entry there is
  load : Except Throwable Unit
  getKey : Except Throwable Unit
  getKeySpec (key : Key) : Except Throwable KeyInfo
  generateKey (strongBox : Bool) : Except Throwable Key
  -- `deleteEntry` of a refused key, and after StrongBox failed
  deleteRefused (key : Key) : Except Throwable Unit
  deleteFailed : Except Throwable Unit
  -- `Cipher.getInstance`, `init` and `doFinal`, and the IV of an encryption
  getInstance : Except Throwable Unit
  init (key : Key) : Except Throwable Unit
  iv : Bytes
  doFinal : Except Throwable Unit
  isReadable : Bool
  write : Except WriteFault Unit
  renames : Bool
  deletes (name : FileName) : Bool

/-- The app's code: it changes the device also where it throws. -/
abbrev App (Key : Type) := EStateM Throwable (Device Key)

variable {Key : Type}

namespace FlagStore

/-- What a call to the platform returns or throws. -/
def call {α : Type} (answer : Except Throwable α) : App Key α :=
  match answer with
  | .ok a => pure a
  | .error e => throw e

def deleteFile (c : Conditions Key) (name : FileName) : App Key Unit :=
  modify fun d =>
    if c.deletes name then { d with files := Function.update d.files name none } else d

/-- `keyStore.deleteEntry(ALIAS)` -/
def deleteEntry (answer : Except Throwable Unit) : App Key Unit := do
  call answer
  modify fun d => { d with entry := none }

/-! ### The key -/

def securityLevelStrongBox : Int := 2
def securityLevelTrustedEnvironment : Int := 1

/-- `hardware`; 31 is `VERSION_CODES.S`. -/
def isHardware (sdkInt : Nat) (info : KeyInfo) : Bool :=
  if sdkInt ≥ 31 then
    info.securityLevel = securityLevelStrongBox ||
      info.securityLevel = securityLevelTrustedEnvironment
  else info.isInsideSecureHardware

/-- The loop over the tiers in `requireHardware`. -/
def deleteRecords (c : Conditions Key) : App Key Unit := do
  deleteFile c (.record 1)
  deleteFile c (.temp 1)
  deleteFile c (.record 2)
  deleteFile c (.temp 2)

/-- Checks this AES key itself, including when loading an existing installation's key. -/
def requireHardware (c : Conditions Key) (key : Key) : App Key Key := do
  let info ← call (c.getKeySpec key)
  if isHardware c.sdkInt info then return key
  else
    deleteEntry (c.deleteRefused key)
    deleteRecords c
    throw (.generalSecurity "Hardware-backed flag storage required")

def generate (c : Conditions Key) (strongBox : Bool) : App Key Key := do
  let key ← call (c.generateKey strongBox)
  modify fun d => { d with entry := some (.secretKey key) }
  return key

/-- The StrongBox attempt of `key`; `none` when the provider fails. -/
def generateStrongBox (c : Conditions Key) : App Key (Option Key) :=
  tryCatch
    (do
      let key ← requireHardware c (← generate c true)
      return some key)
    fun e =>
      match e with
      | .strongBoxUnavailable | .provider => do
        tryCatch (deleteEntry c.deleteFailed) fun _ => pure ()
        return none
      | e => throw e

/-- `keyStore.getKey(ALIAS, null) as? SecretKey` -/
def getKey (c : Conditions Key) : App Key (Option Key) := do
  call c.getKey
  match (← get).entry with
  | some (.secretKey key) => return some key
  | _ => return none

def key (c : Conditions Key) (create : Bool) : App Key (Option Key) := do
  call c.load
  match ← getKey c with
  | some key => return some (← requireHardware c key)
  | none =>
    if !create then return none
    else
      let strong ← if c.hasStrongBox then generateStrongBox c else pure none
      match strong with
      | some key => return some key
      | none => return some (← requireHardware c (← generate c false))

/-! ### Ciphers -/

/-- `cipher.init` -/
def initCipher (c : Conditions Key) (key : Option Key) : App Key Key :=
  match key with
  | some key => do
    call (c.init key)
    return key
  | none => throw (.generalSecurity "key == null")

/-- `doFinal` in `ENCRYPT_MODE`, with the IV that the Keystore has chosen. -/
def encryptFinal (gcm : Gcm Key) (c : Conditions Key) (key : Key) (aad plaintext : Bytes) :
    App Key Bytes := do
  let ciphertext := gcm.encrypt key c.iv aad plaintext
  modify fun d => { d with uses := d.uses ++ [.encrypted key c.iv aad plaintext ciphertext] }
  call c.doFinal
  return ciphertext

/-- `doFinal` in `DECRYPT_MODE` -/
def decryptFinal [DecidableEq Key] (gcm : Gcm Key) (c : Conditions Key) (key : Key)
    (iv aad ciphertext : Bytes) : App Key Bytes := do
  let produced := (← get).uses.any (Use.produces key iv aad ciphertext)
  modify fun d => { d with uses := d.uses ++ [.decrypted key iv aad ciphertext] }
  call c.doFinal
  match if produced then gcm.decrypt key iv aad ciphertext else none with
  | some plaintext => return plaintext
  | none => throw (.generalSecurity "AEADBadTagException")

/-! ### Files -/

/-- `temp.writeBytes(bytes)` -/
def writeBytes (c : Conditions Key) (name : FileName) (bytes : Bytes) : App Key Unit :=
  match c.write with
  | .ok () => modify fun d => { d with files := Function.update d.files name (some bytes) }
  | .error .notOpened => throw (.io "open")
  | .error (.stopped written) => do
    modify fun d => { d with
      files := Function.update d.files name (some (bytes.take written)) }
    throw (.io "write")

/-- `source.renameTo(target)`, which is atomic -/
def renameTo (c : Conditions Key) (source target : FileName) : App Key Bool := do
  if c.renames then
    modify fun d => { d with
      files := Function.update (Function.update d.files target (d.files source)) source none }
  return c.renames

/-! ### The store -/

/-- `require(tier in 1..2)` -/
def requireTier (tier : Int) : App Key Unit :=
  if 1 ≤ tier ∧ tier ≤ 2 then pure () else throw (.illegalArgument "Failed requirement.")

/-- The encryption in `store`. -/
def encryptFlag (gcm : Gcm Key) (c : Conditions Key) (tier : Int) (flag : Bytes) :
    App Key FlagRecord := do
  let key ← initCipher c (← key c true)
  let version := FlagRecord.currentVersion
  let ciphertext ← encryptFinal gcm c key (FlagRecord.aadOf version tier) flag
  call (FlagRecord.create version tier c.iv ciphertext)

/-- `finally { flag.fill(0) }` -/
def zeroing {α : Type} (x : App Key α) : App Key α := do
  let fill : App Key Unit := modify fun d => { d with flag := List.replicate d.flag.length 0 }
  let a ← tryCatch x fun e => do
    fill
    throw e
  fill
  return a

/-- Encrypts `flag` and atomically replaces the record for `tier`. Zeroes the array afterwards. -/
def store (gcm : Gcm Key) (c : Conditions Key) (tier : Int) (flag : Bytes) : App Key Unit := do
  modify fun d => { d with flag := flag }
  requireTier tier
  tryCatch
    (do
      call c.getInstance
      let record ← zeroing (encryptFlag gcm c tier flag)
      writeBytes c (.temp tier) record.encode
      if !(← renameTo c (.temp tier) (.record tier)) then
        deleteFile c (.temp tier)
        throw (.io "rename"))
    fun e =>
      match e with
      | .generalSecurity _ | .keyPermanentlyInvalidated => throw (.io "store")
      | e => throw e

/-- `target.readBytes()` and `decode`; `none` also when the file cannot be read. -/
def readRecord (c : Conditions Key) (bytes : Bytes) : App Key (Option FlagRecord) :=
  if c.isReadable then call (FlagRecord.decode bytes) else pure none

/-- The decryption in `read`; `none` when there is no key. -/
def decryptRecord [DecidableEq Key] (gcm : Gcm Key) (c : Conditions Key) (target : FileName)
    (record : FlagRecord) : App Key (Option Bytes) := do
  match ← key c false with
  | none => do
    deleteFile c target
    return none
  | some key => do
    call c.getInstance
    let key ← initCipher c (some key)
    let flag ← decryptFinal gcm c key record.iv record.aad record.ciphertext
    return some flag

/-- Decrypts the record for `tier`. `none` for a record that is there also deletes it. -/
def read [DecidableEq Key] (gcm : Gcm Key) (c : Conditions Key) (tier : Int) :
    App Key (Option Bytes) := do
  requireTier tier
  let target := FileName.record tier
  match (← get).files target with
  | none => return none
  | some bytes =>
    match ← readRecord c bytes with
    | none => do
      deleteFile c target
      return none
    | some record =>
      if record.tier ≠ tier then
        deleteFile c target
        return none
      else
        tryCatch (decryptRecord gcm c target record) fun e =>
          match e with
          | .keyPermanentlyInvalidated => do
            deleteFile c target
            return none
          | .generalSecurity _ => do
            deleteFile c target
            return none
          | e => throw e

end FlagStore

/-! ### Calls and what others do -/

inductive DeviceEvent (Key : Type) where
  | store (tier : Int) (flag : Bytes) (c : Conditions Key)
  | read (tier : Int) (c : Conditions Key)
  -- somebody else writes or deletes a file, or deletes or replaces the key
  | tamper (name : FileName) (content : Option Bytes)
  | rekey (entry : Option (KeyEntry Key))

namespace Device

/-- No key has been used yet. -/
def initial (files : FileName → Option Bytes) (entry : Option (KeyEntry Key)) : Device Key where
  files := files
  entry := entry
  uses := []
  flag := []

/-- The device that a call leaves, also when it throws. -/
def after {α : Type} (d : Device Key) (x : App Key α) : Device Key :=
  match x d with
  | .ok _ t | .error _ t => t

def step [DecidableEq Key] (gcm : Gcm Key) (d : Device Key) :
    DeviceEvent Key → Option (Device Key)
  | .store tier flag c => some (d.after (FlagStore.store gcm c tier flag))
  | .read tier c => some (d.after (FlagStore.read gcm c tier))
  | .tamper name content => some { d with files := Function.update d.files name content }
  | .rekey entry => some { d with entry := entry }

end Device

end UncrackableL5

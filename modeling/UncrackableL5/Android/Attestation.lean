import Mathlib.Logic.Function.Basic
import UncrackableL5.Android.Protocol
import UncrackableL5.Kotlin.Failure
import UncrackableL5.Verifier.Der

/-!
# The attestation

`Attestation.prove` over the entries of the Keystore: a throwaway key, attested for one challenge,
that signs the challenge and is deleted. Each call runs under conditions: what the platform answers
to it and where it fails.
-/
namespace UncrackableL5

/-- `KeyGenParameterSpec`, as far as it differs from call to call. -/
structure KeySpec where
  keyAlias : JavaString
  challenge : Bytes
  validityEnd : Int
  strongBox : Bool
  deriving DecidableEq

/-- An entry that `generateKeyPair` leaves, with what it was asked for. -/
structure KeyPair (Key : Type) where
  key : Key
  spec : KeySpec
  deriving DecidableEq

/-- The entries by their aliases. -/
abbrev Keystore (Key : Type) := JavaString → Option (KeyPair Key)

/-- `AttestationProof` -/
structure AttestationProof where
  chain : List JavaString
  pop : JavaString
  deriving DecidableEq

/-- How the platform answers during one call of `prove`. -/
structure ProofConditions (Key : Type) where
  hasStrongBox : Bool
  -- `KeyStore.getInstance` and `load`
  load : Except Failure Unit
  -- `SecureRandom`, and `System.currentTimeMillis` in the two attempts
  random : Bytes
  currentTimeMillis (strongBox : Bool) : Int
  -- up to `generateKeyPair`: a key, or the exception and the key of a partial entry
  generateKeyPair (spec : KeySpec) : Except (Failure × Option Key) Key
  -- `getCertificateChain` of an entry, and `encoded` of the certificates
  getCertificateChain (pair : KeyPair Key) : Except Failure (Option (List (Except Failure Bytes)))
  -- `getKey` of an entry that is there; `false` for one that holds no `PrivateKey`
  getKey (pair : KeyPair Key) : Except Failure Bool
  -- `Signature` up to `sign`
  sign (key : Key) (message : Bytes) : Except Failure Bytes
  -- `deleteEntry` after StrongBox failed, and at the end
  deleteFailed : Except Failure Unit
  delete : Except Failure Unit

variable {Key : Type}

/-- The app's code: it changes the Keystore also where it throws. -/
abbrev KeystoreM (Key : Type) := EStateM Failure (Keystore Key)

namespace Attestation

def aliasPrefix : JavaString := js "attest-"

/-- Five minutes. -/
def keyLifetimeMs : Int := 5 * 60000

/-- `runCatching { keyStore.deleteEntry(alias) }` -/
def deleteEntry (answer : Except Failure Unit) (keyAlias : JavaString) : KeystoreM Key Unit :=
  modify fun entries =>
    match answer with
    | .ok () => Function.update entries keyAlias none
    | .error _ => entries

def generateKey (c : ProofConditions Key) (keyAlias : JavaString) (challenge : Bytes)
    (strongBox : Bool) : KeystoreM Key Unit := do
  let spec : KeySpec := {
    keyAlias := keyAlias
    challenge := challenge
    validityEnd := c.currentTimeMillis strongBox + keyLifetimeMs
    strongBox := strongBox }
  match c.generateKeyPair spec with
  | .ok key =>
    modify fun entries => Function.update entries keyAlias (some { key := key, spec := spec })
  | .error (e, partialKey) => do
    match partialKey with
    | some key =>
      modify fun entries => Function.update entries keyAlias (some { key := key, spec := spec })
    | none => pure ()
    throw e

/-- StrongBox first; the TEE when its provider fails. -/
def generate (c : ProofConditions Key) (keyAlias : JavaString) (challenge : Bytes) :
    KeystoreM Key Unit := do
  let generated ←
    if c.hasStrongBox then
      tryCatch
        (do
          generateKey c keyAlias challenge true
          return true)
        fun e =>
          match e.self with
          | .strongBoxUnavailable | .provider => do
            deleteEntry c.deleteFailed keyAlias
            return false
          | _ => throw e
    else pure false
  if generated then return ()
  generateKey c keyAlias challenge false

/-- What `prove` does with the entry: its chain, and a signature by its key. -/
def proofOf (c : ProofConditions Key) (pair : KeyPair Key) (challenge : Bytes) :
    KeystoreM Key AttestationProof := do
  match ← MonadExcept.ofExcept (c.getCertificateChain pair) with
  | none => throw (.new .illegalState)
  | some chain => do
    if !(← MonadExcept.ofExcept (c.getKey pair)) then throw (.new .illegalState)
    let pop ← MonadExcept.ofExcept (c.sign pair.key challenge)
    let encoded ← MonadExcept.ofExcept (chain.mapM fun certificate => certificate)
    return {
      chain := encoded.map JavaBase64.encodeToString
      pop := JavaBase64.encodeToString pop }

/-- What `prove` does between `try` and `finally`. -/
def proveUnder (c : ProofConditions Key) (keyAlias : JavaString) (challenge : Bytes) :
    KeystoreM Key AttestationProof := do
  generate c keyAlias challenge
  match (← get) keyAlias with
  | none => throw (.new .illegalState)
  | some pair => proofOf c pair challenge

/-- `ALIAS_PREFIX + ByteArray(12).also(random::nextBytes).toHex()` -/
def aliasOf (c : ProofConditions Key) : JavaString := aliasPrefix ++ hex c.random

def prove (c : ProofConditions Key) (challenge : Bytes) : KeystoreM Key AttestationProof := do
  if challenge.length ≠ Challenge.size then throw (.new .illegalArgument)
  MonadExcept.ofExcept c.load
  let keyAlias := aliasOf c
  let proof ← tryCatch (proveUnder c keyAlias challenge) fun e => do
    deleteEntry c.delete keyAlias
    throw e
  deleteEntry c.delete keyAlias
  return proof

end Attestation

end UncrackableL5

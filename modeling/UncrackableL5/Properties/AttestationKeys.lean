import UncrackableL5.Android.Attestation
import UncrackableL5.Library.Effects

/-!
# The keys of attestations

A call of `prove` works on the entry under its own alias, and deletes it whichever way it ends. What
it returns comes from one entry: the certificates are that entry's, and its key signed the
challenge that it was generated for.

## Main results

- `Attestation.generate_spec`: which attempt the entry comes from.
- `Attestation.prove_spec`: what a proof consists of, and what is left in the Keystore.
-/
namespace UncrackableL5

open Std.Do

set_option mvcgen.warning false

variable {Key : Type}

/-- Nothing but the entry under this alias differs. -/
def Keystore.SameBut (keyAlias : JavaString) (d t : Keystore Key) : Prop :=
  ∀ other, other ≠ keyAlias → t other = d other

namespace Attestation

/-- What `generateKey` asks for. -/
def specOf (c : ProofConditions Key) (keyAlias : JavaString) (challenge : Bytes)
    (strongBox : Bool) : KeySpec where
  keyAlias := keyAlias
  challenge := challenge
  validityEnd := c.currentTimeMillis strongBox + keyLifetimeMs
  strongBox := strongBox

/-- The provider of StrongBox fails. -/
def StrongBoxFails (c : ProofConditions Key) (keyAlias : JavaString) (challenge : Bytes) : Prop :=
  ∃ e partialKey, c.generateKeyPair (specOf c keyAlias challenge true) = .error (e, partialKey) ∧
    (e.self = .strongBoxUnavailable ∨ e.self = .provider)

/-- The proof is made of this entry. -/
structure Exports (c : ProofConditions Key) (pair : KeyPair Key) (challenge : Bytes)
    (proof : AttestationProof) : Prop where
  chain : ∃ certificates : List Bytes, c.getCertificateChain pair =
      .ok (some (certificates.map .ok)) ∧ proof.chain = certificates.map JavaBase64.encodeToString
  pop : ∃ signature, c.sign pair.key challenge = .ok signature ∧
    proof.pop = JavaBase64.encodeToString signature

/-- The entry was generated for this challenge, in StrongBox where there is one that does not
fail. -/
structure Generated (c : ProofConditions Key) (pair : KeyPair Key) (challenge : Bytes) :
    Prop where
  made : c.generateKeyPair pair.spec = .ok pair.key
  spec : pair.spec = specOf c (aliasOf c) challenge pair.spec.strongBox
  fallback : pair.spec.strongBox = false → c.hasStrongBox = true →
    StrongBoxFails c (aliasOf c) challenge

@[spec] theorem deleteEntry_spec (answer : Except Failure Unit) (keyAlias : JavaString)
    (d : Keystore Key) :
    ⦃fun s => ⌜s = d⌝⦄ deleteEntry answer keyAlias
    ⦃post⟨fun _ s => ⌜d.SameBut keyAlias s ∧ (answer = .ok () → s keyAlias = none)⌝,
      fun _ _ => ⌜False⌝⟩⦄ := by
  mvcgen [deleteEntry] with (simp_all +zetaDelta [Keystore.SameBut])
  cases answer <;> simp_all

/-- A generation that returns has put its key under the alias; one that throws has touched nothing
else. -/
@[spec] theorem generateKey_spec (c : ProofConditions Key) (keyAlias : JavaString)
    (challenge : Bytes) (strongBox : Bool) (d : Keystore Key) :
    ⦃fun s => ⌜s = d⌝⦄ generateKey c keyAlias challenge strongBox
    ⦃post⟨fun _ s => ⌜d.SameBut keyAlias s ∧
        ∃ key, c.generateKeyPair (specOf c keyAlias challenge strongBox) = .ok key ∧
          s keyAlias = some { key := key, spec := specOf c keyAlias challenge strongBox }⌝,
      fun e s => ⌜d.SameBut keyAlias s ∧ ∃ partialKey,
        c.generateKeyPair (specOf c keyAlias challenge strongBox) = .error (e, partialKey)⌝⟩⦄ := by
  mvcgen [generateKey] with (simp_all +zetaDelta [Keystore.SameBut, specOf])

/-- The entry of a challenge: in StrongBox where there is one that does not fail, else in the
TEE. -/
@[spec] theorem generate_spec (c : ProofConditions Key) (keyAlias : JavaString)
    (challenge : Bytes) (d : Keystore Key) :
    ⦃fun s => ⌜s = d⌝⦄ generate c keyAlias challenge
    ⦃post⟨fun _ s => ⌜d.SameBut keyAlias s ∧ ∃ strongBox key,
        c.generateKeyPair (specOf c keyAlias challenge strongBox) = .ok key ∧
          s keyAlias = some { key := key, spec := specOf c keyAlias challenge strongBox } ∧
          (strongBox = false → c.hasStrongBox = true → StrongBoxFails c keyAlias challenge)⌝,
      fun _ s => ⌜d.SameBut keyAlias s⌝⟩⦄ := by
  mvcgen [generate]
  all_goals
    try simp only [Effects.restore_save] at *
    grind [Keystore.SameBut, StrongBoxFails]

private theorem exports_of {c : ProofConditions Key} {pair : KeyPair Key} {challenge : Bytes}
    {certificates : List (Except Failure Bytes)} {octets : List Bytes} {signature : Bytes}
    (chain : c.getCertificateChain pair = .ok (some certificates))
    (encoded : certificates.mapM (fun certificate => certificate) = .ok octets)
    (signed : c.sign pair.key challenge = .ok signature) :
    Exports c pair challenge {
      chain := octets.map JavaBase64.encodeToString
      pop := JavaBase64.encodeToString signature } := by
  have whole : certificates = octets.map .ok := by
    rw [mapM_ok_iff_forall₂] at encoded
    clear chain
    induction encoded with
    | nil => rfl
    | cons here _ ih => rw [here, ih, List.map_cons]
  subst whole
  exact ⟨⟨octets, chain, rfl⟩, signature, signed, rfl⟩

@[spec] theorem proofOf_spec (c : ProofConditions Key) (pair : KeyPair Key) (challenge : Bytes)
    (d : Keystore Key) :
    ⦃fun s => ⌜s = d⌝⦄ proofOf c pair challenge
    ⦃post⟨fun proof s => ⌜s = d ∧ Exports c pair challenge proof⌝, fun _ s => ⌜s = d⌝⟩⦄ := by
  mvcgen [proofOf]
  all_goals grind [exports_of]

/-- The proof is made of the entry that was generated. -/
@[spec] theorem proveUnder_spec (c : ProofConditions Key) (challenge : Bytes) (d : Keystore Key) :
    ⦃fun s => ⌜s = d⌝⦄ proveUnder c (aliasOf c) challenge
    ⦃post⟨fun proof s => ⌜d.SameBut (aliasOf c) s ∧
          ∃ pair, Generated c pair challenge ∧ Exports c pair challenge proof⌝,
      fun _ s => ⌜d.SameBut (aliasOf c) s⌝⟩⦄ := by
  mvcgen [proveUnder]
  all_goals grind [Generated, specOf]

/-- The entry of a call is gone, as far as it can be deleted. -/
def Disposed (c : ProofConditions Key) (d t : Keystore Key) : Prop :=
  d.SameBut (aliasOf c) t ∧ (c.delete = .ok () → t (aliasOf c) = none)

/-- Whichever way a call ends, it has not come to its entry or has disposed of it. -/
@[spec] theorem prove_spec (c : ProofConditions Key) (challenge : Bytes) (d : Keystore Key) :
    ⦃fun s => ⌜s = d⌝⦄ prove c challenge
    ⦃post⟨fun proof s => ⌜Disposed c d s ∧
          ∃ pair, Generated c pair challenge ∧ Exports c pair challenge proof⌝,
      fun _ s => ⌜s = d ∨ Disposed c d s⌝⟩⦄ := by
  mvcgen [prove]
  all_goals
    try simp only [Effects.restore_save] at *
    grind [Disposed, Keystore.SameBut]

end Attestation

end UncrackableL5

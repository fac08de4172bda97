import UncrackableL5.Properties.Acceptance

/-!
# The order of the anchors

The anchors are scanned to complete a chain without a root, where exactly one of them must match,
and again to validate the path, where the first that succeeds is taken. Neither scan shows in the
result which anchor it was, so a permutation of the anchors changes nothing.

## Main results

- `loadChain_perm`: the completed chain.
- `verify_anchor_order`: the result of a verifier whose anchors are in another order.
-/
namespace UncrackableL5

variable {CryptoKey : Type}

/-- A chain is completed alike. -/
theorem completeChain_perm (host : Host CryptoKey) {anchors others : List Certificate}
    (permuted : anchors.Perm others) (chain : List Certificate) :
    completeChain host anchors chain = completeChain host others chain := by
  rw [completeChain, completeChain]
  cases chain.getLast? with
  | none => rfl
  | some tail =>
    have roots : (completingRoots host anchors tail).Perm (completingRoots host others tail) :=
      permuted.filter _
    dsimp only
    -- No root, one root or several, in either order.
    cases found : completingRoots host anchors tail with
    | nil =>
      rw [found] at roots
      rw [roots.symm.eq_nil]
    | cons root more =>
      rw [found] at roots
      cases more with
      | nil => rw [roots.symm.eq_singleton]
      | cons second more =>
        have length := roots.length_eq
        generalize completingRoots host others tail = more' at length ⊢
        cases more' with
        | nil => simp at length
        | cons first rest =>
          cases rest with
          | nil => simp at length
          | cons => rfl

theorem loadChain_perm (host : Host CryptoKey) {anchors others : List Certificate}
    (permuted : anchors.Perm others) (encoded : List JsString) :
    loadChain host anchors encoded = loadChain host others encoded := by
  simp only [loadChain, completeChain_perm host permuted]

/-- Two verifiers that differ in the order of their anchors alone. -/
structure SameAnchors (v w : AndroidVerifier) : Prop where
  anchors : v.anchors.Perm w.anchors
  package : v.packageName = w.packageName
  signer : v.signerSha256Hex = w.signerSha256Hex

theorem SameAnchors.symm {v w : AndroidVerifier} (same : SameAnchors v w) : SameAnchors w v :=
  ⟨same.anchors.symm, same.package.symm, same.signer.symm⟩

/-- What is presented to one is presented to the other. -/
theorem Presented.of_sameAnchors {host : Host CryptoKey} {v w : AndroidVerifier}
    {request : AttestRequest} {challenge : Bytes} {revokedSerials : List JsString}
    {nowMs : Number} {path : CertPath} {d : KeyDescription} (same : SameAnchors v w)
    (presented : Presented host v request challenge revokedSerials nowMs path d) :
    Presented host w request challenge revokedSerials nowMs path d where
  chainSize := presented.chainSize
  popSize := presented.popSize
  loaded := by rw [← loadChain_perm host same.anchors, presented.loaded]
  unlisted := presented.unlisted
  attested := {
    built := rfl
    trusted := by
      obtain ⟨anchor, configured, validated⟩ := presented.trusted
      exact ⟨anchor, same.anchors.mem_iff.mp configured, validated⟩
    described := presented.attested.described
    fresh := presented.attested.fresh }

theorem verify_of_sameAnchors (host : Host CryptoKey) {v w : AndroidVerifier}
    (same : SameAnchors v w) (request : AttestRequest) (challenge : Bytes)
    (revokedSerials : List JsString) (nowMs : Number) :
    v.verify host request challenge revokedSerials nowMs =
      w.verify host request challenge revokedSerials nowMs := by
  have verdicts : ∀ path d finish,
      verdict v host.tables path d finish = verdict w host.tables path d finish := by
    intro path d finish
    simp only [verdict, AndroidVerifier.allConstraints, same.package, same.signer]
  rw [verify_eq_verifyThen, verify_eq_verifyThen]
  rcases verifyThen_cases host v request challenge revokedSerials nowMs
    (finishVerify host request challenge revokedSerials nowMs) with
    ⟨path, d, presented, judged⟩ | ⟨absent, refused⟩
  · rcases verifyThen_cases host w request challenge revokedSerials nowMs
      (finishVerify host request challenge revokedSerials nowMs) with
      ⟨pathToo, dToo, presentedToo, judgedToo⟩ | ⟨absentToo, -⟩
    · obtain ⟨rfl, rfl⟩ := presentedToo.unique (presented.of_sameAnchors same)
      rw [judged, judgedToo, verdicts]
    · exact absurd ⟨path, d, presented.of_sameAnchors same⟩ absentToo
  · rcases verifyThen_cases host w request challenge revokedSerials nowMs
      (finishVerify host request challenge revokedSerials nowMs) with
      ⟨path, d, presented, -⟩ | ⟨-, refusedToo⟩
    · exact absurd ⟨path, d, presented.of_sameAnchors same.symm⟩ absent
    · rw [refused, refusedToo]

/-- A verifier with its anchors in another order accepts the same requests and refuses the others
with the same codes; a configuration without anchors is refused in either order. -/
theorem verify_anchor_order (host : Host CryptoKey) (config : AndroidVerifierConfig)
    (anchors : List Certificate) (permuted : config.anchors.Perm anchors)
    (request : AttestRequest) (challenge : Bytes) (revokedSerials : List JsString)
    (nowMs : Number) :
    ((AndroidVerifier.new config).bind fun v =>
        v.verify host request challenge revokedSerials nowMs) =
      (AndroidVerifier.new { config with anchors := anchors }).bind fun v =>
        v.verify host request challenge revokedSerials nowMs := by
  simp only [AndroidVerifier.new]
  by_cases anchored : config.anchors ≠ []
  · have anchoredToo : anchors ≠ [] := fun none => anchored (by
      rw [none] at permuted
      exact permuted.eq_nil)
    rw [dif_pos anchored, dif_pos anchoredToo]
    split
    next =>
      apply verify_of_sameAnchors host
      exact ⟨permuted, rfl, rfl⟩
    next => rfl
  · have anchoredToo : ¬anchors ≠ [] := by
      push Not at anchored ⊢
      rw [anchored] at permuted
      exact permuted.symm.eq_nil
    rw [dif_neg anchored, dif_neg anchoredToo]

namespace Sample

/-- A certificate with the name of the root and another key. -/
def impostor : Certificate :=
  let root := verifier.anchors.head verifier.anchored
  { root with publicKey := { root.publicKey with spki := [] } }

def twoAnchors : AndroidVerifierConfig :=
  { verifier.toAndroidVerifierConfig with anchors := impostor :: verifier.anchors }

end Sample

theorem verify_anchor_order_sample :
    ((AndroidVerifier.new Sample.twoAnchors).bind fun v =>
        v.verify Sample.host Sample.request Sample.challenge [] Sample.nowMs) =
      (AndroidVerifier.new { Sample.twoAnchors with
        anchors := Sample.verifier.anchors ++ [Sample.impostor] }).bind fun v =>
        v.verify Sample.host Sample.request Sample.challenge [] Sample.nowMs :=
  verify_anchor_order Sample.host Sample.twoAnchors (Sample.verifier.anchors ++ [Sample.impostor])
    (List.perm_append_singleton Sample.impostor Sample.verifier.anchors).symm Sample.request
    Sample.challenge [] Sample.nowMs

end UncrackableL5

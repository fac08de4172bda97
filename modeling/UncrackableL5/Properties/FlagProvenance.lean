import UncrackableL5.Properties.AuthorizationFields
import UncrackableL5.Properties.GenuineClient
import UncrackableL5.Properties.RedeemedChallenges

/-!
# Where a flag comes from

The invariant says of every attempt what it has behind it: the call for a list, at a reading of its
clock, a list that the object answered it with, a verification against that list. The object's part
comes from `Coherent`; a list stays backed by its download, as no download and no refresh is
forgotten.

## Main results

- `Deployment.Stepped.progress`: one event keeps what an attempt has behind it.
- `flag_provenance`: every flag was earned.
-/
namespace UncrackableL5

open Transition

/-! ### What the object answers -/

/-- The list comes from a genuine download, by a refresh that was started at `startedAt`, and had
not expired at `nowSeconds`. -/
structure Supplied (engine : Engine) (o : Object) (nowSeconds : Int) (listed : List JsString)
    (d : Download) (startedAt : Int) : Prop where
  downloaded : d ∈ o.downloads
  genuine : Genuine engine d
  listed_eq : listed = d.serials
  started : ∃ r, o.refreshes[d.refresh]? = some r ∧ r.nowSeconds = startedAt
  fresh : (nowSeconds : Number) < snapshotExpiry d.response startedAt

/-- Downloads and refreshes are not forgotten. -/
structure Object.Grows (o t : Object) : Prop where
  downloads : o.downloads ⊆ t.downloads
  keeps : Keeps o t

theorem Object.Grows.refl (o : Object) : o.Grows o := ⟨List.Subset.refl _, .refl o⟩

theorem Object.Stepped.grows {engine : Engine} {o t : Object} {event : Event}
    (taken : Object.Stepped engine o event t) : o.Grows t :=
  ⟨taken.downloads_subset, taken.keeps⟩

variable {CryptoKey : Type} {engine : Engine}

theorem Supplied.mono {o t : Object} {nowSeconds startedAt : Int} {listed : List JsString}
    {d : Download} (supplied : Supplied engine o nowSeconds listed d startedAt)
    (grows : o.Grows t) : Supplied engine t nowSeconds listed d startedAt := by
  obtain ⟨r, running, time⟩ := supplied.started
  obtain ⟨r', running', same, -⟩ := grows.keeps _ r running
  exact { supplied with
    downloaded := grows.downloads supplied.downloaded
    started := ⟨r', running', same.trans time⟩ }

/-- A list that the object answers with is backed by a download. -/
theorem supplied_of_answered {o : Object} (coherent : Coherent engine o) {nowSeconds : Int}
    {view : RevocationView} (answered : o.answer = some (nowSeconds, view))
    {listed : List JsString} (present : view.serials = some listed) :
    ∃ d startedAt, Supplied engine o nowSeconds listed d startedAt := by
  cases coherent.answered nowSeconds view answered with
  | stale => cases present
  | fresh row stored live =>
    cases present
    obtain ⟨d, r, served⟩ := coherent.servedFrom stored live
    exact ⟨d, r.nowSeconds, served.downloaded, served.genuine, served.listed_eq,
      ⟨r, served.running, rfl⟩, served.fresh⟩

private theorem intCast_lt_of_le {a b : Int} {x : Number} (order : a ≤ b)
    (less : (b : Number) < x) : (a : Number) < x := by
  cases x with
  | nan => exact absurd less (Number.not_lt_nan _)
  | negInfinity => exact absurd less (Number.not_lt_negInfinity _)
  | posInfinity => exact rfl
  | finite q =>
    rw [Number.intCast_def, Number.finite_lt_finite] at less ⊢
    exact (Int.cast_le.mpr order).trans_lt less

private theorem min_le_left {a b : Number} (number : a.min b ≠ .nan) : a.min b ≤ a := by
  rw [Number.min] at number ⊢
  split at number
  next => exact absurd rfl number
  next numbers =>
    rw [if_neg numbers]
    rw [not_or] at numbers
    split
    next less =>
      refine (Number.le_iff _ _).mpr ⟨?_, numbers.2, numbers.1⟩
      cases a <;> cases b <;> simp_all
      exact less.le
    next => cases a <;> simp_all

/-- A snapshot that has not expired was started less than 300 seconds before. -/
theorem lt_of_fresh {response : Response} {nowSeconds startedAt : Int}
    (second : IsSecond startedAt)
    (fresh : (nowSeconds : Number) < snapshotExpiry response startedAt) :
    nowSeconds < startedAt + 300 := by
  rw [snapshotExpiry] at fresh
  have number : Number.min maxTtlSeconds
      (Number.max (.finite 0) (snapshotTtl response.cacheControl response.age)) ≠ .nan := by
    intro nan
    rw [nan] at fresh
    exact Number.not_lt_nan _ fresh
  have bound := Number.not_add_lt_add (startedAt : Number) (min_le_left number)
  have most : (startedAt : Number).add maxTtlSeconds = ((startedAt + 300 : Int) : Number) :=
    Number.add_intCast startedAt 300 (by simp only [IsSecond] at second; omega)
  rw [most] at bound
  by_contra late
  exact bound (intCast_lt_of_le (not_lt.mp late) fresh)

/-! ### What a request has behind it -/

namespace Deployment

/-- Attempt `k` reads its clock. -/
def Took (k : Nat) (nowSeconds : Int) (s : Deployment) (event : DeploymentEvent) : Prop :=
  event = .attest k (.value nowSeconds) ∧ s.service.Reads nowSeconds

/-- The object runs the call of attempt `k` for a list, made with this reading. -/
def Asked (k : Nat) (nowSeconds : Int) (s : Deployment) (event : DeploymentEvent) : Prop :=
  event = .lookup k ∧ ∃ a bytes, s.service.attempts[k]? = some a ∧
    a.phase = .lookingUp bytes nowSeconds

/-- A list reaches attempt `k`, which goes on to verify at `nowMs`. -/
def Received (k : Nat) (listed : List JsString) (nowMs : Number) (s : Deployment)
    (event : DeploymentEvent) : Prop :=
  ∃ view, event = .attest k (.view view nowMs) ∧ view.serials = some listed ∧
    s.service.ReadsMs nowMs

section Behind

variable (engine : Engine) (host : Host CryptoKey) (rt : Runtime) (start : Deployment)
  (past : List DeploymentEvent)

/-- The attempt read its clock, asked for the list with that reading, and then got one that was
fresh at it. -/
structure Informed (s : Deployment) (k : Nat) (listed : List JsString) (nowMs : Number)
    (d : Download) (asked startedAt : Int) : Prop where
  took : InTurn (step engine host rt) (Took k asked) (Asked k asked) start past
  received : InTurn (step engine host rt) (Asked k asked) (Received k listed nowMs) start past
  supplied : Supplied engine s.object asked listed d startedAt

/-- The request was verified against a fresh list. -/
def Attested (s : Deployment) (k : Nat) (request : AttestRequest) (bytes : Bytes) : Prop :=
  ∃ listed nowMs d asked startedAt,
    Informed engine host rt start past s k listed nowMs d asked startedAt ∧
      rt.verifier.verify host request bytes listed nowMs = .ok 2

/-- What an attempt has behind it, besides its challenge. -/
def Progress (s : Deployment) (k : Nat) (a : Attempt) : Prop :=
  match a.phase with
  | .lookingUp _ nowSeconds => Happened (step engine host rt) (Took k nowSeconds) start past
  | .attesting _ listed nowMs =>
    ∃ d asked startedAt, Informed engine host rt start past s k listed nowMs d asked startedAt
  | .reverifying bytes _ | .hashing bytes | .consuming bytes _ _ _ | .consumed bytes _
  | .confirming bytes _ => Attested engine host rt start past s k a.request bytes
  | .done (.flag _ _) => ∃ bytes, base64UrlDecode a.request.challenge = .ok bytes ∧
      Attested engine host rt start past s k a.request bytes
  | .verifying _ | .done (.error _ _) | .dropped => True

/-- What the call for a list has behind it. -/
def LookupSound (s : Deployment) (k : Nat) : Lookup → Prop
  | .refreshing i => ∃ r, s.object.refreshes[i]? = some r ∧
      InTurn (step engine host rt) (Took k r.nowSeconds) (Asked k r.nowSeconds) start past
  | .answered nowSeconds view =>
    InTurn (step engine host rt) (Took k nowSeconds) (Asked k nowSeconds) start past ∧
      ∀ listed, view.serials = some listed →
        ∃ d startedAt, Supplied engine s.object nowSeconds listed d startedAt

end Behind

variable {host : Host CryptoKey} {rt : Runtime} {start s t : Deployment}
  {past : List DeploymentEvent} {event : DeploymentEvent} {k : Nat}

/-! ### What happened stays -/

section Later

variable (grows : s.object.Grows t.object)

include grows

private theorem Informed.later {listed : List JsString} {nowMs : Number} {d : Download}
    {asked startedAt : Int}
    (informed : Informed engine host rt start past s k listed nowMs d asked startedAt) :
    Informed engine host rt start (past ++ [event]) t k listed nowMs d asked startedAt :=
  ⟨informed.took.later [event], informed.received.later [event], informed.supplied.mono grows⟩

private theorem Attested.later {request : AttestRequest} {bytes : Bytes}
    (attested : Attested engine host rt start past s k request bytes) :
    Attested engine host rt start (past ++ [event]) t k request bytes := by
  obtain ⟨listed, nowMs, d, asked, startedAt, informed, verified⟩ := attested
  exact ⟨listed, nowMs, d, asked, startedAt, informed.later grows, verified⟩

private theorem Progress.later {a : Attempt} (progress : Progress engine host rt start past s k a) :
    Progress engine host rt start (past ++ [event]) t k a := by
  obtain ⟨request, phase⟩ := a
  cases phase with
  | verifying | dropped => trivial
  | lookingUp => exact Happened.later progress [event]
  | attesting =>
    obtain ⟨d, asked, startedAt, informed⟩ := progress
    exact ⟨d, asked, startedAt, informed.later grows⟩
  | reverifying | hashing | consuming | consumed | confirming =>
    exact Attested.later grows progress
  | done response =>
    cases response with
    | error => trivial
    | flag =>
      obtain ⟨bytes, decoded, attested⟩ := progress
      exact ⟨bytes, decoded, Attested.later grows attested⟩

private theorem LookupSound.later {lookup : Lookup}
    (sound : LookupSound engine host rt start past s k lookup) :
    LookupSound engine host rt start (past ++ [event]) t k lookup := by
  cases lookup with
  | refreshing i =>
    obtain ⟨r, running, asked⟩ := sound
    obtain ⟨r', running', same, -⟩ := grows.keeps i r running
    exact ⟨r', running', same ▸ asked.later [event]⟩
  | answered nowSeconds view =>
    refine ⟨sound.1.later [event], fun listed present => ?_⟩
    obtain ⟨d, startedAt, supplied⟩ := sound.2 listed present
    exact ⟨d, startedAt, supplied.mono grows⟩

end Later

/-! ### One event -/

/-- The call of an attempt for a list. -/
private theorem delivered_supplied {view : RevocationView} {nowMs : Number}
    {listed : List JsString} (taken : Run (step engine host rt) start past s)
    (lookups : ∀ lookup, s.lookups k = some lookup →
      LookupSound engine host rt start past s k lookup)
    (delivered : s.delivers k (.view view nowMs) = true) (present : view.serials = some listed) :
    ∃ d asked startedAt, Informed engine host rt start (past ++ [.attest k (.view view nowMs)]) s k
      listed nowMs d asked startedAt := by
  simp only [delivers, Bool.and_eq_true, decide_eq_true_eq] at delivered
  obtain ⟨reads, answered⟩ := delivered
  split at answered
  next asked answer arrived =>
    obtain rfl : view = answer := of_decide_eq_true answered
    obtain ⟨called, backed⟩ := lookups _ arrived
    obtain ⟨d, startedAt, supplied⟩ := backed listed present
    exact ⟨d, asked, startedAt, called.later _,
      called.happened.inTurn taken ⟨view, rfl, present, reads⟩, supplied⟩
  next => cases answered

private theorem progress_of_moves {a b : Attempt} (taken : Run (step engine host rt) start past s)
    (grows : s.object.Grows t.object)
    (lookups : ∀ lookup, s.lookups k = some lookup →
      LookupSound engine host rt start past s k lookup)
    (redeeming : Redeeming engine host rt start past k a)
    (progress : Progress engine host rt start past s k a)
    (moves : Moves engine host rt s k a event b) :
    Progress engine host rt start (past ++ [event]) t k b := by
  cases moves with
  | stays => exact Progress.later grows progress
  | consumes bytes id expiresAt nowSeconds phase =>
    rw [Progress, phase] at progress
    exact Attested.later grows progress
  | resumes settled phase delivered admitted resumed =>
    rw [Progress] at progress
    cases resumed with
    | failed | lost => trivial
    | verified now next bytes phase accepts =>
      exact (happened_snoc taken _).mpr (.inr ⟨rfl, of_decide_eq_true admitted⟩)
    | viewed bytes now view serials nowMs phase fresh =>
      obtain ⟨d, asked, startedAt, informed⟩ := delivered_supplied taken lookups delivered fresh
      exact ⟨d, asked, startedAt, informed.took, informed.received, informed.supplied.mono grows⟩
    | attested bytes snapshot nowMs next phase accepted =>
      rw [phase] at progress
      obtain ⟨d, asked, startedAt, informed⟩ := progress
      exact ⟨snapshot, nowMs, d, asked, startedAt, informed.later grows, accepted⟩
    | reverified bytes again now next phase accepts =>
      rw [phase] at progress
      exact Attested.later grows progress
    | hashed bytes next phase =>
      rw [phase] at progress
      exact Attested.later grows progress
    | granted bytes next phase =>
      rw [phase] at progress
      exact Attested.later grows progress
    | confirmed bytes again now next phase accepts =>
      rw [phase] at progress
      rw [Redeeming, phase] at redeeming
      exact ⟨bytes, redeeming.1, Attested.later grows progress⟩

/-- One event keeps what an attempt has behind it. -/
theorem Stepped.progress (taken : Run (step engine host rt) start past s)
    (stepped : Stepped engine host rt s event t) (grows : s.object.Grows t.object)
    (lookups : ∀ k lookup, s.lookups k = some lookup →
      LookupSound engine host rt start past s k lookup)
    (redeeming : ∀ (k : Nat) a, s.service.attempts[k]? = some a →
      Redeeming engine host rt start past k a)
    (progress : ∀ (k : Nat) a, s.service.attempts[k]? = some a →
      Progress engine host rt start past s k a) :
    ∀ (k : Nat) a, t.service.attempts[k]? = some a →
      Progress engine host rt start (past ++ [event]) t k a := by
  intro k b found
  rcases stepped.moves found with ⟨nowSeconds, began⟩ | ⟨a, running, moves⟩
  · rw [Progress, began]
    trivial
  · exact progress_of_moves taken grows (lookups k) (redeeming k a running) (progress k a running)
      moves

/-- A call that is answered at once, or waits for a refresh of its own. -/
private theorem lookupOf_sound {object : Object} {nowSeconds : Int}
    (moves : s.object.step engine (.revocations nowSeconds) = some object)
    (asked : InTurn (step engine host rt) (Took k nowSeconds) (Asked k nowSeconds) start past)
    (coherent : Coherent engine object) (lookups : Nat → Option Lookup) :
    LookupSound engine host rt start past { s with object := object, lookups := lookups } k
      (lookupOf s.object object) := by
  have answered : ∀ view, object.answer = some (nowSeconds, view) → ∀ {listed : List JsString},
      view.serials = some listed →
        ∃ d startedAt, Supplied engine object nowSeconds listed d startedAt :=
    fun _ => supplied_of_answered coherent
  simp only [Object.step] at moves
  split at moves
  next outcome live =>
    cases moves
    exact ⟨asked, fun listed present => answered outcome.1 rfl present⟩
  next stale =>
    cases moves
    exact ⟨_, List.getElem?_concat_length, asked⟩

/-- The end of a refresh answers the call that awaits it, with the reading the call was made
with. -/
private theorem resume_answer {o object : Object} {i : Nat} {nowSeconds : Int}
    {view : RevocationView} (moves : o.step engine (.resume i) = some object)
    (answered : object.answer = some (nowSeconds, view)) :
    ∃ r, o.refreshes[i]? = some r ∧ r.nowSeconds = nowSeconds := by
  simp only [Object.step] at moves
  split at moves
  next r running =>
    split at moves
    next =>
      cases moves
      cases answered
      exact ⟨r, running, rfl⟩
    next => cases moves
  next => cases moves

private theorem returned_sound {own : Event} {object : Object} {lookup : Lookup}
    (grows : s.object.Grows object)
    (moves : s.object.step engine own = some object) (coherent : Coherent engine object)
    (sound : ∀ lookup, s.lookups k = some lookup →
      LookupSound engine host rt start past s k lookup)
    (lookups : Nat → Option Lookup) (found : returned s.lookups own object k = some lookup) :
    LookupSound engine host rt start (past ++ [event])
      { s with object := object, lookups := lookups } k lookup := by
  simp only [returned] at found
  split at found
  next i j nowSeconds view waiting answered =>
    split at found
    next same =>
      subst same
      cases found
      obtain ⟨r, running, asked⟩ := sound _ waiting
      obtain ⟨r', also, time⟩ := resume_answer moves answered
      cases running.symm.trans also
      exact ⟨time ▸ asked.later [event], fun listed present =>
        supplied_of_answered coherent answered present⟩
    next => exact LookupSound.later grows (sound lookup found)
  next => exact LookupSound.later grows (sound lookup found)

/-- Only the object answers a call: at once from a fresh row, or when its refresh ends. -/
theorem Stepped.lookups (taken : Run (step engine host rt) start past s)
    (stepped : Stepped engine host rt s event t) (grows : s.object.Grows t.object)
    (coherent : Coherent engine t.object)
    (lookups : ∀ k lookup, s.lookups k = some lookup →
      LookupSound engine host rt start past s k lookup)
    (progress : ∀ (k : Nat) a, s.service.attempts[k]? = some a →
      Progress engine host rt start past s k a) :
    ∀ k lookup, t.lookups k = some lookup →
      LookupSound engine host rt start (past ++ [event]) t k lookup := by
  intro j lookup found
  cases stepped with
  | looked k a bytes nowSeconds object running phase moves =>
    have behind := progress k a running
    rw [Progress, phase] at behind
    by_cases same : j = k
    · subst same
      simp only [Function.update_self, Option.some.injEq] at found
      have now : Asked j nowSeconds s (.lookup j) := ⟨rfl, a, bytes, running, phase⟩
      have asked := Happened.inTurn behind taken now
      exact found ▸ lookupOf_sound moves asked coherent _
    · simp only [Function.update_of_ne same] at found
      exact LookupSound.later grows (lookups j lookup found)
  | moved own object timely moves =>
    exact returned_sound grows moves coherent (lookups j) _ found
  | _ => exact LookupSound.later grows (lookups j lookup found)

/-! ### Runs -/

/-- Refreshes are started at readings of a clock. -/
private theorem object_seconds {o object : Object} {own : Event}
    (moves : o.step engine own = some object) (seconds : ∀ r ∈ o.refreshes, IsSecond r.nowSeconds)
    (reading : ∀ now, own = .revocations now ∨ own = .alarm now → IsSecond now) :
    ∀ r ∈ object.refreshes, IsSecond r.nowSeconds := by
  have replaced : ∀ {i : Nat} {r new : Refresh}, o.refreshes[i]? = some r →
      new.nowSeconds = r.nowSeconds → ∀ x ∈ o.refreshes.set i new, IsSecond x.nowSeconds := by
    intro i r new running same x member
    rcases List.mem_or_eq_of_mem_set member with old | rfl
    · exact seconds x old
    · exact same ▸ seconds r (List.mem_of_getElem? running)
  cases Object.stepped_of_step moves with
  | answered => exact seconds
  | called now stale =>
    intro x member
    rcases List.mem_append.mp member with old | new
    · exact seconds x old
    · exact List.mem_singleton.mp new ▸ reading now (Or.inl rfl)
  | alarm now =>
    intro x member
    rcases List.mem_append.mp member with old | new
    · exact seconds x old
    · exact List.mem_singleton.mp new ▸ reading now (Or.inr rfl)
  | checked i r response running => exact replaced running rfl
  | read i r response body clock serials expiresAt running => exact replaced running rfl
  | wrote i r serials expiresAt store running => exact replaced running rfl
  | moved _ i r phase running => exact replaced running rfl
  | resumed i r running => exact replaced running rfl
  | restarted =>
    intro x member
    obtain ⟨r, old, rfl⟩ := List.mem_map.mp member
    exact seconds r old

/-- What holds of the attempts, of their calls for a list and of the object's refreshes. -/
structure Sound (engine : Engine) (host : Host CryptoKey) (rt : Runtime) (start : Deployment)
    (past : List DeploymentEvent) (s : Deployment) : Prop where
  progress : ∀ (k : Nat) a, s.service.attempts[k]? = some a →
    Progress engine host rt start past s k a
  lookups : ∀ k lookup, s.lookups k = some lookup →
    LookupSound engine host rt start past s k lookup
  seconds : ∀ r ∈ s.object.refreshes, IsSecond r.nowSeconds

private theorem Stepped.seconds (stepped : Stepped engine host rt s event t)
    (sound : Sound engine host rt start past s) :
    ∀ r ∈ t.object.refreshes, IsSecond r.nowSeconds := by
  cases stepped with
  | looked k a bytes nowSeconds object running phase moves =>
    have behind := sound.progress k a running
    rw [Progress, phase] at behind
    obtain ⟨_, _, _, _, -, -, -, reads⟩ := behind
    refine object_seconds moves sound.seconds ?_
    rintro now (⟨⟨⟩⟩ | ⟨⟨⟩⟩)
    exact reads.1
  | moved own object timely moves =>
    refine object_seconds moves sound.seconds ?_
    rintro now (rfl | rfl)
    · exact (of_decide_eq_true timely : s.service.Stamped now).1
    · exact (of_decide_eq_true timely : s.service.Reads now).1
  | _ => exact sound.seconds

theorem Stepped.object_grows (stepped : Stepped engine host rt s event t) :
    s.object.Grows t.object := by
  rcases stepped.object_eq with same | ⟨own, moves⟩
  · exact same ▸ .refl s.object
  · exact (Object.stepped_of_step moves).grows

theorem sound_of_run {clock : ℚ} {events : List DeploymentEvent}
    (taken : Run (step engine host rt) (.initial clock) events s)
    (distinct : CollisionFree engine s.object.downloads) :
    Sound engine host rt (.initial clock) events s := by
  refine taken.history (fun past s => CollisionFree engine s.object.downloads →
    Sound engine host rt (.initial clock) past s) ?_ ?_ distinct
  · intro _
    exact ⟨by simp [initial, Service.initial], by simp [initial], by simp [initial, Object.initial]⟩
  · intro past event s t reached holds step distinct
    have stepped := stepped_of_step step
    have grows := stepped.object_grows
    have sound := holds (distinct.of_subset grows.downloads)
    obtain ⟨own, objectRun⟩ := object_run ((run_snoc _ _ _ _).mpr ⟨s, reached, step⟩)
    have coherent := Object.coherent_of_run objectRun distinct
    exact ⟨stepped.progress reached grows sound.lookups (redeeming_of_run reached) sound.progress,
      stepped.lookups reached grows coherent sound.lookups sound.progress, stepped.seconds sound⟩

end Deployment

/-! ### Certificates -/

/-- Every certificate of a loaded chain was parsed, as the request's own are and the anchors. -/
private theorem parsed_of_loaded {host : Host CryptoKey} {anchors chain : List Certificate}
    {encoded : List JsString} (loaded : loadChain host anchors encoded = .ok chain)
    (genuine : ∀ anchor ∈ anchors, ∃ der, parseCertificate host.tables der = .ok anchor) :
    ∀ cert ∈ chain, ∃ der, parseCertificate host.tables der = .ok cert := by
  rw [loadChain, bind_ok_iff] at loaded
  obtain ⟨own, parsed, completed⟩ := loaded
  have each : ∀ cert ∈ own, ∃ der, parseCertificate host.tables der = .ok cert := by
    intro cert member
    rw [mapM_ok_iff_forall₂] at parsed
    obtain ⟨entry, -, read⟩ := Pairing.exists_partner parsed.flip member
    rw [parseEntry, guard_eq_ok_iff, bind_ok_iff] at read
    obtain ⟨-, der, -, read⟩ := read
    rw [guard_eq_ok_iff] at read
    exact ⟨der, read.2⟩
  rw [completeChain] at completed
  split at completed
  next => cases completed
  next tail _ =>
    split at completed
    next =>
      cases completed
      exact each
    next =>
      split at completed
      next root single =>
        cases completed
        intro cert member
        rcases List.mem_append.mp member with old | new
        · exact each cert old
        · rw [List.mem_singleton.mp new]
          have chosen : root ∈ completingRoots host anchors tail := by simp [single]
          exact genuine root (List.mem_filter.mp chosen).1
      next => cases completed

/-- No key of the feed is the serial number of a certificate that was checked against its list. -/
private theorem unrevoked_of_unlisted {d : Download} (genuine : Genuine engine d)
    {tables : CaseTables} {certs : List Certificate}
    (parsed : ∀ cert ∈ certs, ∃ der, parseCertificate tables der = .ok cert)
    (unlisted : ∀ cert ∈ certs, cert.serialHex ∉ d.serials) :
    ∃ entries, feedEntries engine (utf8DecodeLossy d.body.flatten) = .ok entries ∧
      ∀ cert ∈ certs, ∀ e ∈ entries, (hexValue e.1 : Int) ≠ cert.serial := by
  obtain ⟨serials, feed, sorted⟩ := genuine.parsed
  obtain ⟨entries, found, listed⟩ := mem_parseFeed feed
  refine ⟨entries, found, fun cert member e entry same => unlisted cert member ?_⟩
  obtain ⟨der, read⟩ := parsed cert member
  rw [sorted, mem_sortStrings, listed, parseCertificate_serialHex read, ← same, bigIntToString,
    if_neg (by omega), Int.natAbs_natCast]
  exact ⟨e, entry, rfl⟩

/-! ### Flags -/

/-- The verification that a flag rests on: with a list that was fresh at the reading with which the
attempt asked for it, and from a genuine anchor. -/
structure Vetted (engine : Engine) (host : Host CryptoKey) (rt : Runtime) (start : Deployment)
    (past : List DeploymentEvent) (s : Deployment) (k : Nat) (request : AttestRequest)
    (bytes : Bytes) (path : CertPath) (description : KeyDescription) : Prop where
  verified : ∃ listed nowMs d asked startedAt,
    Deployment.Informed engine host rt start past s k listed nowMs d asked startedAt ∧
      asked < startedAt + 300 ∧ rt.verifier.verify host request bytes listed nowMs = .ok 2 ∧
      Presented host rt.verifier request bytes listed nowMs path description ∧
      Accepted host rt.verifier request bytes nowMs path description ∧
      (∃ anchor ∈ rt.verifier.anchors, path.Validated host listed nowMs anchor ∧
        GenuineAnchor engine host anchor) ∧
      ∃ entries, feedEntries engine (utf8DecodeLossy d.body.flatten) = .ok entries ∧
        ∀ cert ∈ path.certificatesWithAnchor, ∀ e ∈ entries, (hexValue e.1 : Int) ≠ cert.serial

/-- In every run of a server with an accepted configuration, a request that is answered with the
flag was admitted by the budget, sent a body of at most 40 KiB, presented a valid attestation whose
certificates are not in the feed that the object had begun to download less than 300 seconds before
the attempt asked for it, and consumed its challenge, which was in its lifetime at a reading after
that. -/
theorem flag_provenance (engine : Engine) (host : Host CryptoKey) (hmac : Hmac) (roots : JsString)
    (env : Env) (rt : Runtime) (loaded : load engine host hmac roots env = .ok rt) (clock : ℚ)
    (events : List DeploymentEvent) (s : Deployment)
    (taken : Run (Deployment.step engine host rt) (.initial clock) events s)
    (distinct : CollisionFree engine s.object.downloads) (i tier : Nat) (flag : JsString)
    (answered : s.reply i = some (.other (.flag tier flag))) :
    tier = 2 ∧ env.flagTier2 = some flag ∧ ∃ k a bytes nowSeconds path description,
      Deployment.Attempted engine events s i k a ∧
        Deployment.Redeemed engine host rt (.initial clock) events k a.request.challenge bytes
          nowSeconds ∧
        Vetted engine host rt (.initial clock) events s k a.request bytes path description := by
  have configured := (load_eq_ok_iff ..).mp loaded
  have genuine := configured.anchors_genuine
  have sound := Deployment.sound_of_run taken distinct
  rcases Deployment.reply_cases taken answered with ⟨h, -, justified⟩ | ⟨k, a, response, attempted,
    done, same⟩
  · exact absurd rfl (justified.ne_flag tier flag)
  · cases same
    have progress := sound.progress k a attempted.running
    rw [Deployment.Progress, done] at progress
    have redeeming := Deployment.redeeming_of_run taken k a attempted.running
    rw [Deployment.Redeeming, done] at redeeming
    obtain ⟨two, rfl, bytes, now, redeemed⟩ := redeeming
    obtain ⟨_, decoded, listed, nowMs, d, asked, startedAt, informed, verified⟩ := progress
    cases decoded.symm.trans redeemed.accepted.decoded
    obtain ⟨-, path, description, presented, accepted⟩ := (verify_eq_ok_iff ..).mp verified
    obtain ⟨anchor, member, validated⟩ := presented.trusted
    have supplied := informed.supplied
    obtain ⟨r, running, time⟩ := supplied.started
    have second : IsSecond startedAt := time ▸ sound.seconds r (List.mem_of_getElem? running)
    have parsed :=
      parsed_of_loaded presented.loaded fun anchor member => (genuine anchor member).parsed
    refine ⟨two, configured.flag.1, k, a, bytes, now, path, description, attempted, redeemed,
      listed, nowMs, d, asked, startedAt, informed, lt_of_fresh second supplied.fresh, verified,
      presented, accepted, ⟨anchor, member, validated, genuine anchor member⟩, ?_⟩
    exact unrevoked_of_unlisted supplied.genuine parsed (supplied.listed_eq ▸ presented.unlisted)

namespace Sample

def env : Env where
  challengeHmacKey := some (js "AAECAwQFBgcICQoLDA0ODxAREhMUFRYXGBkaGxwdHh8=")
  flagTier2 := some (js "flag")
  appSignerSha256 := some verifier.signerSha256Hex
  appPackage := none
  attestationRoots := none

def hmac : Hmac where
  sign _ := challenges.sign
  size _ := challenges.size

theorem loaded :
    load servingEngine Sample.host hmac (bundleOf anchorDer) env = .ok anchoredRuntime := by
  obtain ⟨parsed, notSoftware, key, filled, signer⟩ :
      (parseAnchors Sample.host (bundleOf anchorDer)).toOption =
          some anchoredRuntime.verifier.anchors ∧
        (∀ anchor ∈ anchoredRuntime.verifier.anchors,
          hex (servingEngine.sha256 anchor.publicKey.spki) ∉ softwareRootSpkiDigests) ∧
        base64Decode (js "AAECAwQFBgcICQoLDA0ODxAREhMUFRYXGBkaGxwdHh8=") =
          .ok ((List.range 32).map UInt8.ofNat) ∧
        trim verifier.signerSha256Hex ≠ [] ∧
        anchoredRuntime.verifier.signerSha256Hex =
          toLowerCase servingEngine.tables verifier.signerSha256Hex := by
    decide +kernel
  have name : anchoredVerifier.packageName = appPackage := rfl
  have anchors := toOption_eq_some_iff.mp parsed
  have bundled : ∀ roots, env.attestationRoots.getD roots = roots := fun _ => rfl
  exact (load_eq_ok_iff ..).mpr {
    package := ⟨name, Or.inl name⟩
    key := ⟨_, _, rfl, key, by decide, rfl⟩
    flag := ⟨rfl, by decide⟩
    signer := ⟨verifier.signerSha256Hex, rfl, filled, signer⟩
    anchors := by rw [bundled, anchors]
    notSoftware := notSoftware }

end Sample

theorem flag_provenance_sample :
    ∃ events s, Run (Deployment.step Sample.servingEngine Sample.host Sample.anchoredRuntime)
        (.initial 1735689610) events s ∧ s.reply 0 = some (.other (.flag 2 (js "flag"))) ∧
      ∃ k a bytes nowSeconds path description,
        Deployment.Attempted Sample.servingEngine events s 0 k a ∧
          Deployment.Redeemed Sample.servingEngine Sample.host Sample.anchoredRuntime
            (.initial 1735689610) events k a.request.challenge bytes nowSeconds ∧
          Vetted Sample.servingEngine Sample.host Sample.anchoredRuntime (.initial 1735689610)
            events s k a.request bytes path description := by
  obtain ⟨events, s, taken, answered, distinct⟩ := Sample.served
  exact ⟨events, s, taken, answered, (flag_provenance Sample.servingEngine Sample.host Sample.hmac
    (Sample.bundleOf Sample.anchorDer) Sample.env Sample.anchoredRuntime Sample.loaded 1735689610
    events s taken distinct 0 2 (js "flag") answered).2.2⟩

end UncrackableL5

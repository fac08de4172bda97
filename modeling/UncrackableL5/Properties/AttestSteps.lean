import UncrackableL5.Properties.ChallengeUse
import UncrackableL5.Server.Worker

/-!
# Steps of the attest requests

What one event can do to a request and to the service, said once.

## Main results

- `Attempt.resumed_of_resume`: the cases of a request that resumes.
- `Service.stepped_of_step`: the cases of an event.
-/
namespace UncrackableL5

open Challenges (expiresAtSeconds)

/-! ### One request -/

variable {CryptoKey : Type} {engine : Engine} {host : Host CryptoKey} {rt : Runtime}

/-- What an await can lead to, with the conditions under which it does. -/
inductive Attempt.Resumed (engine : Engine) (host : Host CryptoKey) (rt : Runtime) (a : Attempt) :
    Settled → AttestPhase → Prop where
  | failed (settled : Settled) (status : Nat) (code : String) :
      Resumed engine host rt a settled (.done (.error status code))
  | lost : Resumed engine host rt a .lost .dropped
  | verified (now next : Int) (bytes : Bytes) (phase : a.phase = .verifying now)
      (accepts : rt.challenges.Accepts a.request.challenge now bytes) :
      Resumed engine host rt a (.value next) (.lookingUp bytes next)
  | viewed (bytes : Bytes) (now : Int) (view : RevocationView) (serials : List JsString)
      (nowMs : Number) (phase : a.phase = .lookingUp bytes now)
      (fresh : view.serials = some serials) :
      Resumed engine host rt a (.view view nowMs) (.attesting bytes serials nowMs)
  | attested (bytes : Bytes) (snapshot : List JsString) (nowMs : Number) (next : Int)
      (phase : a.phase = .attesting bytes snapshot nowMs)
      (accepted : rt.verifier.verify host a.request bytes snapshot nowMs = .ok 2) :
      Resumed engine host rt a (.value next) (.reverifying bytes next)
  | reverified (bytes again : Bytes) (now next : Int) (phase : a.phase = .reverifying bytes now)
      (accepts : rt.challenges.Accepts a.request.challenge now again) :
      Resumed engine host rt a (.value next) (.hashing bytes)
  | hashed (bytes : Bytes) (next : Int) (phase : a.phase = .hashing bytes) :
      Resumed engine host rt a (.value next)
        (.consuming bytes (Challenges.id engine.sha256 bytes) (expiresAtSeconds bytes) next)
  | granted (bytes : Bytes) (next : Int) (phase : a.phase = .consumed bytes (.ok true)) :
      Resumed engine host rt a (.value next) (.confirming bytes next)
  | confirmed (bytes again : Bytes) (now next : Int) (phase : a.phase = .confirming bytes now)
      (accepts : rt.challenges.Accepts a.request.challenge now again) :
      Resumed engine host rt a (.value next) (.done (.flag 2 rt.flag))

private theorem errorResponse_eq (e : Exception) :
    ∃ status code, errorResponse e = .error status code := by
  cases e <;> exact ⟨_, _, rfl⟩

private theorem resumed_of_failure {a : Attempt} {settled : Settled} {e : Exception}
    {phase : AttestPhase} (fails : some (AttestPhase.done (errorResponse e)) = some phase) :
    a.Resumed engine host rt settled phase := by
  obtain ⟨status, code, response⟩ := errorResponse_eq e
  cases fails
  rw [response]
  exact .failed settled status code

theorem Attempt.resumed_of_resume {a : Attempt} {settled : Settled} {next : AttestPhase}
    (resumed : a.resume engine host rt settled = some next) :
    a.Resumed engine host rt settled next := by
  simp only [Attempt.resume] at resumed
  split at resumed
  next => cases resumed
  next => cases resumed
  next =>
    cases resumed
    exact .lost
  next now nowSeconds phase =>
    split at resumed
    next bytes accepted =>
      cases resumed
      exact .verified now nowSeconds bytes phase
        ((rt.challenges.verify_eq_ok_iff _ _ _).mp accepted)
    next => exact resumed_of_failure resumed
  next bytes now view nowMs phase =>
    split at resumed
    next serials fresh =>
      cases resumed
      exact .viewed bytes now view serials nowMs phase fresh
    next => exact resumed_of_failure resumed
  next bytes snapshot nowMs nowSeconds phase =>
    split at resumed
    next tier accepted =>
      split at resumed
      next => exact resumed_of_failure resumed
      next two =>
        cases resumed
        rw [not_not] at two
        exact .attested bytes snapshot nowMs nowSeconds phase (two ▸ accepted)
    next => exact resumed_of_failure resumed
  next bytes now nowSeconds phase =>
    split at resumed
    next again accepted =>
      cases resumed
      exact .reverified bytes again now nowSeconds phase
        ((rt.challenges.verify_eq_ok_iff _ _ _).mp accepted)
    next => exact resumed_of_failure resumed
  next bytes nowSeconds phase =>
    cases resumed
    exact .hashed bytes nowSeconds phase
  next bytes outcome nowSeconds phase =>
    split at resumed
    next =>
      cases resumed
      exact .granted bytes nowSeconds phase
    next => exact resumed_of_failure resumed
    next => exact resumed_of_failure resumed
  next bytes now nowSeconds phase =>
    split at resumed
    next again accepted =>
      cases resumed
      exact .confirmed bytes again now nowSeconds phase
        ((rt.challenges.verify_eq_ok_iff _ _ _).mp accepted)
    next => exact resumed_of_failure resumed
  -- Every other exception is answered, and no other pair of phase and value can meet.
  all_goals first | exact resumed_of_failure resumed | cases resumed

/-! ### All requests -/

namespace Service

/-- What one event can do, with the conditions under which it does it. -/
inductive Stepped (engine : Engine) (host : Host CryptoKey) (rt : Runtime) (s : Service) :
    ServiceEvent → Service → Prop where
  | ticked (clock : ℚ) (later : s.clock ≤ clock) :
      Stepped engine host rt s (.tick clock) { s with clock := clock }
  | arrived (body : Bytes) (nowSeconds : Int) (request : AttestRequest)
      (reads : s.Reads nowSeconds) (decoded : decodeAttestRequest engine body = some request) :
      Stepped engine host rt s (.arrive body nowSeconds)
        { s with
          attempts := s.attempts ++ [{ request := request, phase := .verifying nowSeconds }] }
  | refused (body : Bytes) (nowSeconds : Int)
      (malformed : decodeAttestRequest engine body = none) :
      Stepped engine host rt s (.arrive body nowSeconds) s
  | resumed (i : Nat) (a : Attempt) (settled : Settled) (phase : AttestPhase)
      (running : s.attempts[i]? = some a) (admitted : s.admits settled = true)
      (resumed : a.Resumed engine host rt settled phase) :
      Stepped engine host rt s (.resume i settled) (s.setPhase i a phase)
  | consumed (i : Nat) (a : Attempt) (bytes : Bytes) (id : JsString) (expiresAt : Number)
      (nowSeconds : Int) (running : s.attempts[i]? = some a)
      (phase : a.phase = .consuming bytes id expiresAt nowSeconds) :
      Stepped engine host rt s (.consume i)
        { s.setPhase i a
            (.consumed bytes (UncrackableL5.consume s.used id expiresAt nowSeconds).1) with
          used := (UncrackableL5.consume s.used id expiresAt nowSeconds).2 }
  | called (id : JsString) (expiresAt : Number) (nowSeconds : Int) (second : IsSecond nowSeconds)
      (notAhead : (nowSeconds : ℚ) ≤ s.clock + skew) :
      Stepped engine host rt s (.call id expiresAt nowSeconds)
        { s with used := (UncrackableL5.consume s.used id expiresAt nowSeconds).2 }

theorem stepped_of_step {s t : Service} {event : ServiceEvent}
    (taken : s.step engine host rt event = some t) : Stepped engine host rt s event t := by
  cases event with
  | tick clock =>
    simp only [step] at taken
    split at taken
    next later =>
      cases taken
      exact .ticked clock later
    next => cases taken
  | arrive body nowSeconds =>
    simp only [step] at taken
    split at taken
    next reads =>
      split at taken
      next request decoded =>
        cases taken
        exact .arrived body nowSeconds request reads decoded
      next malformed =>
        cases taken
        exact .refused body nowSeconds malformed
    next => cases taken
  | resume i settled =>
    simp only [step] at taken
    split at taken
    next a running =>
      split at taken
      next admitted =>
        obtain ⟨phase, resumed, rfl⟩ := Option.map_eq_some_iff.mp taken
        exact .resumed i a settled phase running admitted (Attempt.resumed_of_resume resumed)
      next => cases taken
    next => cases taken
  | consume i =>
    simp only [step] at taken
    split at taken
    next a running =>
      split at taken
      next bytes id expiresAt nowSeconds phase =>
        cases taken
        exact .consumed i a bytes id expiresAt nowSeconds running phase
      next => cases taken
    next => cases taken
  | call id expiresAt nowSeconds =>
    simp only [step] at taken
    split at taken
    next valid =>
      cases taken
      exact .called id expiresAt nowSeconds valid.1 valid.2
    next => cases taken

end Service

end UncrackableL5

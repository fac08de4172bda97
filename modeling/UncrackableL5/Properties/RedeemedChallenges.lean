import UncrackableL5.Properties.DeploymentSteps
import UncrackableL5.Properties.RefusedAttempts

/-!
# Redeemed challenges

An attempt reads its clock for the last check when it learns that its `consume` was granted. So the
challenge of a flag was in its lifetime at a moment at which nobody else could spend it any more.

## Main results

- `Deployment.Stepped.redeeming`: one event keeps what an attempt has done with its challenge.
- `Deployment.redeeming_of_run`: a flag rests on a granted `consume` and a reading after it.
-/
namespace UncrackableL5

open Transition

variable {CryptoKey : Type}

namespace Deployment

/-- The object grants the `consume` of attempt `k`. -/
def Spent (k : Nat) (id : JsString) (s : Deployment) (event : DeploymentEvent) : Prop :=
  event = .consume k ∧ Service.Grants k id s.service (.consume k)

/-- Attempt `k` has its grant and reads its clock for the last check. -/
def LastRead (k : Nat) (nowSeconds : Int) (s : Deployment) (event : DeploymentEvent) : Prop :=
  event = .attest k (.value nowSeconds) ∧ s.service.Reads nowSeconds ∧
    ∃ a bytes, s.service.attempts[k]? = some a ∧ a.phase = .consumed bytes (.ok true)

section Behind

variable (engine : Engine) (host : Host CryptoKey) (rt : Runtime) (start : Deployment)
  (past : List DeploymentEvent)

/-- The challenge was spent for attempt `k`, and the last check, which accepted it, was made at a
reading after that. -/
structure Redeemed (k : Nat) (challenge : JsString) (bytes : Bytes) (nowSeconds : Int) : Prop where
  confirmed : InTurn (step engine host rt) (Spent k (Challenges.id engine.sha256 bytes))
    (LastRead k nowSeconds) start past
  accepted : rt.challenges.Accepts challenge nowSeconds bytes

/-- What attempt `k` has done with its challenge. -/
def Redeeming (k : Nat) (a : Attempt) : Prop :=
  match a.phase with
  | .lookingUp bytes _ | .attesting bytes _ _ | .reverifying bytes _ | .hashing bytes =>
    base64UrlDecode a.request.challenge = .ok bytes
  | .consuming bytes id _ _ => base64UrlDecode a.request.challenge = .ok bytes ∧
      id = Challenges.id engine.sha256 bytes
  | .consumed bytes outcome => base64UrlDecode a.request.challenge = .ok bytes ∧
      (outcome = .ok true → Happened (step engine host rt)
        (Spent k (Challenges.id engine.sha256 bytes)) start past)
  | .confirming bytes nowSeconds => base64UrlDecode a.request.challenge = .ok bytes ∧
      InTurn (step engine host rt) (Spent k (Challenges.id engine.sha256 bytes))
        (LastRead k nowSeconds) start past
  | .done (.flag tier flag) => tier = 2 ∧ flag = rt.flag ∧ ∃ bytes nowSeconds,
      Redeemed engine host rt start past k a.request.challenge bytes nowSeconds
  | .verifying _ | .done (.error _ _) | .dropped => True

end Behind

variable {engine : Engine} {host : Host CryptoKey} {rt : Runtime} {start s t : Deployment}
  {past : List DeploymentEvent} {event : DeploymentEvent} {k : Nat} {a b : Attempt}

private theorem Redeeming.later (redeeming : Redeeming engine host rt start past k a)
    (event : DeploymentEvent) : Redeeming engine host rt start (past ++ [event]) k a := by
  obtain ⟨request, phase⟩ := a
  cases phase with
  | verifying | dropped => trivial
  | lookingUp | attesting | reverifying | hashing | consuming => exact redeeming
  | consumed => exact ⟨redeeming.1, fun granted => (redeeming.2 granted).later [event]⟩
  | confirming => exact ⟨redeeming.1, redeeming.2.later [event]⟩
  | done response =>
    cases response with
    | error => trivial
    | flag =>
      obtain ⟨two, same, bytes, now, redeemed⟩ := redeeming
      exact ⟨two, same, bytes, now, redeemed.confirmed.later [event], redeemed.accepted⟩

private theorem redeeming_of_moves (taken : Run (step engine host rt) start past s)
    (running : s.service.attempts[k]? = some a)
    (redeeming : Redeeming engine host rt start past k a)
    (moves : Moves engine host rt s k a event b) :
    Redeeming engine host rt start (past ++ [event]) k b := by
  cases moves with
  | stays => exact redeeming.later event
  | consumes bytes id expiresAt nowSeconds phase =>
    rw [Redeeming, phase] at redeeming
    obtain ⟨decoded, rfl⟩ := redeeming
    refine ⟨decoded, fun granted => (happened_snoc taken _).mpr (.inr ⟨rfl, rfl, ?_⟩)⟩
    exact ⟨a, bytes, expiresAt, nowSeconds, running, phase, granted⟩
  | resumes settled phase delivered admitted resumed =>
    rw [Redeeming] at redeeming
    cases resumed with
    | failed | lost => trivial
    | verified now next bytes phase accepts => exact accepts.decoded
    | viewed bytes now view serials nowMs phase =>
      rw [phase] at redeeming
      exact redeeming
    | attested bytes snapshot nowMs next phase =>
      rw [phase] at redeeming
      exact redeeming
    | reverified bytes again now next phase =>
      rw [phase] at redeeming
      exact redeeming
    | hashed bytes next phase =>
      rw [phase] at redeeming
      exact ⟨redeeming, rfl⟩
    | granted bytes next phase =>
      rw [phase] at redeeming
      have reads : s.service.Reads next := of_decide_eq_true admitted
      exact ⟨redeeming.1,
        (redeeming.2 rfl).inTurn taken ⟨rfl, reads, a, bytes, running, phase⟩⟩
    | confirmed bytes again now next phase accepts =>
      rw [phase] at redeeming
      -- the third check decodes the same text as the first
      cases accepts.decoded.symm.trans redeeming.1
      exact ⟨rfl, rfl, bytes, now, redeeming.2.later _, accepts⟩

/-- One event keeps what an attempt has done with its challenge. -/
theorem Stepped.redeeming (stepped : Stepped engine host rt s event t)
    (taken : Run (step engine host rt) start past s)
    (redeeming : ∀ (k : Nat) a, s.service.attempts[k]? = some a →
      Redeeming engine host rt start past k a) :
    ∀ (k : Nat) a, t.service.attempts[k]? = some a →
      Redeeming engine host rt start (past ++ [event]) k a := by
  intro k b found
  rcases stepped.moves found with ⟨nowSeconds, began⟩ | ⟨a, running, moves⟩
  · rw [Redeeming, began]
    trivial
  · exact redeeming_of_moves taken running (redeeming k a running) moves

theorem redeeming_of_run {clock : ℚ} {events : List DeploymentEvent}
    (taken : Run (step engine host rt) (.initial clock) events s) :
    ∀ (k : Nat) a, s.service.attempts[k]? = some a →
      Redeeming engine host rt (.initial clock) events k a := by
  refine taken.history (fun past s => ∀ (k : Nat) a, s.service.attempts[k]? = some a →
    Redeeming engine host rt (.initial clock) past k a) (by simp [initial, Service.initial]) ?_
  intro past event s t reached redeeming step
  exact (stepped_of_step step).redeeming reached redeeming

end Deployment

end UncrackableL5

import Mathlib.Tactic.Linarith
import UncrackableL5.Properties.Acceptance
import UncrackableL5.Properties.AttestSteps

/-!
# Single use of a challenge

The row of a consumed challenge is purged a minute after the challenge expired, by a call whose
reading may be ahead of the clock. By then every isolate's clock is past the lifetime, so a request
that consumes the challenge again fails its third check. Up to that moment the row keeps all but
one request from consuming.

## Main results

- `Service.Stepped.once`: one event keeps `Once`.
- `challenge_single_use`: no two requests are answered with the flag for the same challenge.
-/
namespace UncrackableL5

open Transition
open Challenges (issuedAt expiresAtSeconds)

/-- The reading at which a challenge is expired. -/
def deadline (bytes : Bytes) : Int := issuedAt bytes + challengeLifetimeSeconds

/-! ### What a request knows -/

/-- The request carries these challenge octets, and they were in their lifetime once. -/
structure Attempt.Carries (a : Attempt) (bytes : Bytes) : Prop where
  decoded : base64UrlDecode a.request.challenge = .ok bytes
  second : IsSecond (issuedAt bytes)

/-- What holds of a request between two awaits. -/
def Attempt.Sound (engine : Engine) (clock : ℚ) (a : Attempt) : Prop :=
  match a.phase with
  | .verifying nowSeconds => IsSecond nowSeconds
  | .lookingUp bytes _ | .attesting bytes _ _ | .reverifying bytes _ | .hashing bytes
  | .consumed bytes _ | .confirming bytes _ => a.Carries bytes
  | .consuming bytes id expiresAt nowSeconds => a.Carries bytes ∧
      id = Challenges.id engine.sha256 bytes ∧ expiresAt = expiresAtSeconds bytes ∧
      IsSecond nowSeconds ∧ (nowSeconds : ℚ) ≤ clock + skew
  | .done _ | .dropped => True

/-- The flag was sent, or the third check goes by a reading before the deadline. -/
def AttestPhase.keeps (bytes : Bytes) : AttestPhase → Prop
  | .confirming _ nowSeconds => nowSeconds < deadline bytes
  | .done (.flag _ _) => True
  | _ => False

/-- The challenge was consumed for this request, and the flag may follow. -/
def AttestPhase.holds (bytes : Bytes) : AttestPhase → Prop
  | .consumed _ (.ok true) => True
  | phase => phase.keeps bytes

/-- The request carries `bytes` and its phase is of this kind. -/
def Attempt.With (bytes : Bytes) (kind : AttestPhase → Prop) (a : Attempt) : Prop :=
  base64UrlDecode a.request.challenge = .ok bytes ∧ kind a.phase

/-- At most one request keeps the challenge; until a call can purge its row, at most one holds it
and the row is there. -/
structure Once (engine : Engine) (bytes : Bytes) (s : Service) : Prop where
  sound : ∀ a ∈ s.attempts, a.Sound engine s.clock
  kept : AtMostOne (Attempt.With bytes (AttestPhase.keeps bytes)) s.attempts
  held : s.clock ≤ deadline bytes + skew →
    AtMostOne (Attempt.With bytes (AttestPhase.holds bytes)) s.attempts ∧
    ∀ a ∈ s.attempts, a.With bytes (AttestPhase.holds bytes) →
      (Challenges.id engine.sha256 bytes, (deadline bytes : Number)) ∈ s.used

/-! ### One request -/

variable {CryptoKey : Type} {engine : Engine} {host : Host CryptoKey} {rt : Runtime}

namespace Attempt

theorem Sound.mono {a : Attempt} {clock later : ℚ} (sound : a.Sound engine clock)
    (passed : clock ≤ later) : a.Sound engine later := by
  obtain ⟨request, phase⟩ := a
  cases phase with
  | consuming bytes id expiresAt nowSeconds =>
    obtain ⟨carries, sameId, sameExpiry, second, bound⟩ := sound
    exact ⟨carries, sameId, sameExpiry, second, by linarith⟩
  | _ => exact sound

private theorem carries_of_accepts {a : Attempt} {bytes : Bytes} {nowSeconds : Int}
    (second : IsSecond nowSeconds)
    (accepts : rt.challenges.Accepts a.request.challenge nowSeconds bytes) : a.Carries bytes where
  decoded := accepts.decoded
  second := by
    have positive := accepts.positive
    have started := accepts.started
    simp only [IsSecond] at second ⊢
    omega

/-- A request that resumes goes on with what it knew. -/
theorem Resumed.sound {a : Attempt} {settled : Settled} {phase : AttestPhase} {s : Service}
    (resumed : a.Resumed engine host rt settled phase) (admitted : s.admits settled = true)
    (sound : a.Sound engine s.clock) : Sound engine s.clock { a with phase := phase } := by
  simp only [Sound] at sound
  cases resumed with
  | failed => trivial
  | lost => trivial
  | confirmed => trivial
  | verified now next bytes phase accepts =>
    rw [phase] at sound
    exact carries_of_accepts sound accepts
  | viewed bytes now view serials nowMs phase =>
    rw [phase] at sound
    exact ⟨sound.decoded, sound.second⟩
  | attested bytes snapshot nowMs next phase =>
    rw [phase] at sound
    exact ⟨sound.decoded, sound.second⟩
  | reverified bytes again now next phase =>
    rw [phase] at sound
    exact ⟨sound.decoded, sound.second⟩
  | granted bytes next phase =>
    rw [phase] at sound
    exact ⟨sound.decoded, sound.second⟩
  | hashed bytes next phase =>
    rw [phase] at sound
    have reads : s.Reads next := of_decide_eq_true admitted
    -- The reading goes with the call, and no clock is further ahead than the skew.
    refine ⟨⟨sound.decoded, sound.second⟩, rfl, rfl, reads.1, ?_⟩
    have near := (abs_le.mp reads.2).2
    linarith

/-- Awaits other than the `consume` call do not make a request hold a challenge. -/
theorem Resumed.holds {a : Attempt} {settled : Settled} {phase : AttestPhase} {bytes : Bytes}
    (resumed : a.Resumed engine host rt settled phase)
    (after : With bytes (AttestPhase.holds bytes) { a with phase := phase }) :
    With bytes (AttestPhase.holds bytes) a := by
  obtain ⟨decoded, holds⟩ := after
  refine ⟨decoded, ?_⟩
  cases resumed with
  | granted _ next phase =>
    rw [phase]
    trivial
  | confirmed _ again now next phase accepts =>
    cases accepts.decoded.symm.trans decoded
    rw [phase]
    exact accepts.unexpired
  | _ => exact holds.elim

/-- A request that keeps a challenge kept it before the await, or held it and reads a clock that
is not past the purge. -/
theorem Resumed.keeps {a : Attempt} {settled : Settled} {phase : AttestPhase} {bytes : Bytes}
    {s : Service} (resumed : a.Resumed engine host rt settled phase)
    (admitted : s.admits settled = true) (past : ¬s.clock ≤ deadline bytes + skew)
    (after : With bytes (AttestPhase.keeps bytes) { a with phase := phase }) :
    With bytes (AttestPhase.keeps bytes) a := by
  obtain ⟨decoded, keeps⟩ := after
  refine ⟨decoded, ?_⟩
  cases resumed with
  | granted _ next phase =>
    have reads : s.Reads next := of_decide_eq_true admitted
    -- A clock of a live isolate cannot be before the deadline any more.
    have near := (abs_le.mp reads.2).1
    have before : (next : ℚ) < deadline bytes := by exact_mod_cast keeps
    exact absurd (by linarith) past
  | confirmed _ again now next phase accepts =>
    cases accepts.decoded.symm.trans decoded
    rw [phase]
    exact accepts.unexpired
  | _ => exact keeps.elim

end Attempt

/-! ### All requests -/

private theorem keeps_holds {bytes : Bytes} (a : Attempt)
    (keeps : a.With bytes (AttestPhase.keeps bytes)) :
    a.With bytes (AttestPhase.holds bytes) := by
  obtain ⟨request, phase⟩ := a
  refine ⟨keeps.1, ?_⟩
  have := keeps.2
  cases phase with
  | confirming => exact this
  | done => exact this
  | _ => exact this.elim

private theorem holds_consumed {bytes own : Bytes} {outcome : Js Bool} :
    (AttestPhase.consumed own outcome).holds bytes ↔ outcome = .ok true := by
  cases outcome with
  | error e => simp [AttestPhase.holds, AttestPhase.keeps]
  | ok granted => cases granted <;> simp [AttestPhase.holds, AttestPhase.keeps]

/-- While the clock is not past the purge, no call purges the row. -/
private theorem row_survives {clock : ℚ} {bytes : Bytes} {nowSeconds : Int}
    (early : clock ≤ deadline bytes + skew) (second : IsSecond nowSeconds)
    (notAhead : (nowSeconds : ℚ) ≤ clock + skew) :
    ¬((deadline bytes : Int) : Number) < Number.sub nowSeconds (.finite 60) := by
  have within : nowSeconds - 60 ≤ deadline bytes := by
    have : ((nowSeconds - 60 : Int) : ℚ) ≤ deadline bytes := by
      push_cast
      simp only [skew] at early notAhead
      linarith
    exact_mod_cast this
  have minute : (Number.finite 60) = ((60 : Int) : Number) := rfl
  simp only [IsSecond] at second
  rw [minute, Number.sub_intCast _ _ (by omega), Number.intCast_lt]
  omega

namespace Service

variable {s t : Service} {event : ServiceEvent} {bytes : Bytes}

private theorem Stepped.sound (taken : Stepped engine host rt s event t)
    (sound : ∀ a ∈ s.attempts, a.Sound engine s.clock) :
    ∀ a ∈ t.attempts, a.Sound engine t.clock := by
  cases taken with
  | ticked clock later => exact fun a member => (sound a member).mono later
  | arrived body nowSeconds request reads =>
    intro a member
    rcases List.mem_append.mp member with old | new
    · exact sound a old
    · rw [List.mem_singleton.mp new]
      exact reads.1
  | refused | called => exact sound
  | resumed i a settled phase running admitted resumed =>
    intro x member
    rcases List.mem_or_eq_of_mem_set member with old | rfl
    · exact sound x old
    · exact resumed.sound admitted (sound a (List.mem_of_getElem? running))
  | consumed i a bytes id expiresAt nowSeconds running phase =>
    intro x member
    rcases List.mem_or_eq_of_mem_set member with old | rfl
    · exact sound x old
    · have before := sound a (List.mem_of_getElem? running)
      rw [Attempt.Sound, phase] at before
      exact ⟨before.1.decoded, before.1.second⟩

private theorem Stepped.kept (taken : Stepped engine host rt s event t)
    (once : Once engine bytes s) :
    AtMostOne (Attempt.With bytes (AttestPhase.keeps bytes)) t.attempts := by
  cases taken with
  | ticked | refused | called => exact once.kept
  | arrived => exact once.kept.append fun keeps => keeps.2.elim
  | resumed i a settled phase running admitted resumed =>
    -- Until the purge at most one request holds the challenge, and keeping it takes holding it.
    -- After that, nobody comes to keep it: the third check reads a clock past the deadline.
    by_cases early : s.clock ≤ deadline bytes + skew
    · exact ((once.held early).1.set running resumed.holds).mono keeps_holds
    · exact once.kept.set running (resumed.keeps admitted early)
  | consumed i a _ _ _ _ running =>
    exact once.kept.set running fun keeps => keeps.2.elim

/-- A call for the challenge that succeeds while the clock is not past the purge is the first. -/
private theorem first_of_granted {used : UsedChallenges} {clock : ℚ} {expiresAt : Number}
    {nowSeconds : Int} (early : clock ≤ deadline bytes + skew) (second : IsSecond nowSeconds)
    (notAhead : (nowSeconds : ℚ) ≤ clock + skew)
    (granted : (UncrackableL5.consume used (Challenges.id engine.sha256 bytes) expiresAt
      nowSeconds).1 = .ok true) :
    (Challenges.id engine.sha256 bytes, (deadline bytes : Number)) ∉ used := fun member =>
  row_survives early second notAhead ((consume_eq_true granted).1 _ member rfl)

private theorem Stepped.held (taken : Stepped engine host rt s event t)
    (once : Once engine bytes s) (early : t.clock ≤ deadline bytes + skew) :
    AtMostOne (Attempt.With bytes (AttestPhase.holds bytes)) t.attempts ∧
      ∀ a ∈ t.attempts, a.With bytes (AttestPhase.holds bytes) →
        (Challenges.id engine.sha256 bytes, (deadline bytes : Number)) ∈ t.used := by
  cases taken with
  | ticked clock later => exact once.held (later.trans early)
  | refused => exact once.held early
  | arrived =>
    obtain ⟨unique, row⟩ := once.held early
    refine ⟨unique.append fun holds => holds.2.elim, fun a member holds => ?_⟩
    rcases List.mem_append.mp member with old | new
    · exact row a old holds
    · rw [List.mem_singleton.mp new] at holds
      exact holds.2.elim
  | resumed i a settled phase running admitted resumed =>
    obtain ⟨unique, row⟩ := once.held early
    refine ⟨unique.set running resumed.holds, fun x member holds => ?_⟩
    rcases List.mem_or_eq_of_mem_set member with old | rfl
    · exact row x old holds
    · exact row a (List.mem_of_getElem? running) (resumed.holds holds)
  | called id expiresAt nowSeconds second notAhead =>
    obtain ⟨unique, row⟩ := once.held early
    exact ⟨unique, fun a member holds =>
      consume_keeps_row _ _ _ (row a member holds) (row_survives early second notAhead)⟩
  | consumed i a own id expiresAt nowSeconds running phase =>
    obtain ⟨unique, row⟩ := once.held early
    have sound := once.sound a (List.mem_of_getElem? running)
    rw [Attempt.Sound, phase] at sound
    obtain ⟨carries, rfl, rfl, second, notAhead⟩ := sound
    by_cases winner : base64UrlDecode a.request.challenge = .ok bytes ∧
        (UncrackableL5.consume s.used (Challenges.id engine.sha256 own) (expiresAtSeconds own)
          nowSeconds).1 = .ok true
    · obtain ⟨decoded, granted⟩ := winner
      cases carries.decoded.symm.trans decoded
      -- The row was not there, so no request held the challenge before this one.
      have absent := first_of_granted early second notAhead granted
      have nobody : ∀ x ∈ s.attempts, ¬x.With bytes (AttestPhase.holds bytes) :=
        fun x member holds => absent (row x member holds)
      refine ⟨.set_of_none nobody i _, fun x member holds => ?_⟩
      have expiry : expiresAtSeconds bytes = (deadline bytes : Number) :=
        Challenges.expiresAtSeconds_eq bytes carries.second
      rw [← expiry]
      exact (consume_eq_true granted).2
    · -- the request does not hold this challenge afterwards either
      have other : ¬Attempt.With bytes (AttestPhase.holds bytes) (Attempt.mk a.request
          (.consumed own (UncrackableL5.consume s.used (Challenges.id engine.sha256 own)
            (expiresAtSeconds own) nowSeconds).1)) := fun holds =>
        winner ⟨holds.1, holds_consumed.mp holds.2⟩
      refine ⟨unique.set running fun holds => absurd holds other, fun x member holds => ?_⟩
      rcases List.mem_or_eq_of_mem_set member with old | rfl
      · exact consume_keeps_row _ _ _ (row x old holds) (row_survives early second notAhead)
      · exact absurd holds other

theorem Stepped.once (taken : Stepped engine host rt s event t) (once : Once engine bytes s) :
    Once engine bytes t where
  sound := taken.sound once.sound
  kept := taken.kept once
  held := taken.held once

end Service

/-! ### Runs -/

/-- The request carries these challenge octets and was answered with the flag. -/
def Attempt.ReceivedFlag (bytes : Bytes) (a : Attempt) : Prop :=
  base64UrlDecode a.request.challenge = .ok bytes ∧ ∃ tier flag, a.phase = .done (.flag tier flag)

theorem Service.initial_once (clock : ℚ) (used : UsedChallenges) (bytes : Bytes) :
    Once engine bytes (.initial clock used) where
  sound := by simp [Service.initial]
  kept := by simp [AtMostOne, Service.initial]
  held := by simp [AtMostOne, Service.initial]

/-- In every run, from any rows, at most one request that carries a given challenge is answered
with the flag. -/
theorem challenge_single_use (engine : Engine) (host : Host CryptoKey) (rt : Runtime) (clock : ℚ)
    (used : UsedChallenges) (events : List ServiceEvent) (s : Service)
    (taken : Run (Service.step engine host rt) (.initial clock used) events s) (bytes : Bytes) :
    AtMostOne (Attempt.ReceivedFlag bytes) s.attempts := by
  have once := taken.invariant (Once engine bytes)
    (fun s event t once step => (Service.stepped_of_step step).once once)
    (Service.initial_once clock used bytes)
  refine once.kept.mono fun a received => ⟨received.1, ?_⟩
  obtain ⟨tier, flag, phase⟩ := received.2
  rw [phase]
  trivial

/-! ### An undisturbed request -/

namespace Service

variable {s t : Service}

/-- The awaits of request `i`, all at one reading of the clock. -/
def undisturbed (i : Nat) (nowSeconds : Int) (view : RevocationView) (nowMs : Number) :
    List ServiceEvent :=
  [.resume i (.value nowSeconds), .resume i (.view view nowMs), .resume i (.value nowSeconds),
    .resume i (.value nowSeconds), .resume i (.value nowSeconds), .consume i,
    .resume i (.value nowSeconds), .resume i (.value nowSeconds)]

theorem lookup_setPhase {i : Nat} {a : Attempt} (running : s.attempts[i]? = some a)
    (phase : AttestPhase) :
    (s.setPhase i a phase).attempts[i]? = some { a with phase := phase } :=
  List.getElem?_set_self (List.getElem?_eq_some_iff.mp running).1

private theorem setPhase_setPhase (i : Nat) (a : Attempt) (first second : AttestPhase) :
    (s.setPhase i a first).setPhase i { a with phase := first } second = s.setPhase i a second := by
  simp [setPhase, List.set_set]

private theorem run_resume {i : Nat} {a : Attempt} {settled : Settled} {events : List ServiceEvent}
    {now next : AttestPhase} (running : s.attempts[i]? = some a)
    (admitted : s.admits settled = true)
    (resumed : Attempt.resume engine host rt { a with phase := now } settled = some next)
    (rest : Run (step engine host rt) (s.setPhase i a next) events t) :
    Run (step engine host rt) (s.setPhase i a now) (.resume i settled :: events) t := by
  refine (run_cons _ _ _ _).mpr ⟨s.setPhase i a next, ?_, rest⟩
  have admitted : (s.setPhase i a now).admits settled = true := admitted
  simp only [step, lookup_setPhase running, admitted, resumed, ↓reduceIte, Option.map_some,
    setPhase_setPhase]

/-- A valid request for a fresh challenge is answered with the flag. -/
theorem run_undisturbed (s : Service) (i : Nat) (request : AttestRequest) (nowSeconds : Int)
    (view : RevocationView) (serials : List JsString) (nowMs : Number) (bytes : Bytes)
    (running : s.attempts[i]? = some { request := request, phase := .verifying nowSeconds })
    (reads : s.Reads nowSeconds)
    (accepts : rt.challenges.Accepts request.challenge nowSeconds bytes)
    (fresh : view.serials = some serials)
    (genuine : rt.verifier.verify host request bytes serials nowMs = .ok 2)
    (unused : (UncrackableL5.consume s.used (Challenges.id engine.sha256 bytes)
      (expiresAtSeconds bytes) nowSeconds).1 = .ok true) :
    Run (step engine host rt) s (undisturbed i nowSeconds view nowMs)
      { s with
        used := (UncrackableL5.consume s.used (Challenges.id engine.sha256 bytes)
          (expiresAtSeconds bytes) nowSeconds).2
        attempts := s.attempts.set i { request := request, phase := .done (.flag 2 rt.flag) } } := by
  have admitted : s.admits (.value nowSeconds) = true := decide_eq_true reads
  have verified := (rt.challenges.verify_eq_ok_iff _ _ _).mpr accepts
  have same : s = s.setPhase i { request := request, phase := .verifying nowSeconds }
      (.verifying nowSeconds) := by
    obtain ⟨bound, self⟩ := List.getElem?_eq_some_iff.mp running
    simp [setPhase, ← self]
  suffices started : Run (step engine host rt)
      (s.setPhase i { request := request, phase := .verifying nowSeconds } (.verifying nowSeconds))
      (undisturbed i nowSeconds view nowMs) _ by
    rwa [← same] at started
  apply run_resume running admitted (by simp only [Attempt.resume, verified]; rfl)
  apply run_resume running rfl (by simp only [Attempt.resume, fresh]; rfl)
  apply run_resume running admitted (by simp only [Attempt.resume, genuine]; rfl)
  apply run_resume running admitted (by simp only [Attempt.resume, verified]; rfl)
  apply run_resume running admitted rfl
  -- the object runs the call; the rows change and the request is where it was
  let after : Service := { s with
    used := (UncrackableL5.consume s.used (Challenges.id engine.sha256 bytes)
      (expiresAtSeconds bytes) nowSeconds).2 }
  refine (run_cons _ _ _ _).mpr
    ⟨after.setPhase i { request := request, phase := .verifying nowSeconds }
      (.consumed bytes (.ok true)), ?_, ?_⟩
  · simp only [step, lookup_setPhase running]
    simp [setPhase, after, unused]
  · have still : after.attempts[i]? = some { request := request, phase := .verifying nowSeconds } :=
      running
    refine run_resume still admitted rfl ?_
    refine run_resume still admitted (by simp only [Attempt.resume, verified]; rfl) ?_
    exact (run_nil _ _).mpr rfl

end Service

namespace Sample

-- HMAC-SHA256 of the one payload under the octets 0 to 31
def challenges : Challenges where
  sign payload :=
    if payload = challenge.take 41 then
      unpackWords 32 [0x32f993e45c19f34e48bf17e15f77ad0c909c30b1940c44b31eba17b3610dc67a]
    else List.replicate 32 0
  size payload := by
    split
    · decide +kernel
    · rfl

def runtime : Runtime where
  challenges := challenges
  verifier := verifier
  flag := js "flag"

def attestText : JsString :=
  js "\x7b\"challenge\":\"" ++ request.challenge ++ js "\",\"chain\":[\"" ++
    join (js "\",\"") request.chain ++ js "\"],\"pop\":\"" ++ request.pop ++ js "\"\x7d"

-- the request as an object, and the digest of its challenge
def attestEngine : Engine where
  tables := Sample.host.tables
  parseJson text :=
    if text = attestText then
      some (.object [(js "challenge", .string request.challenge),
        (js "chain", .array (request.chain.map .string)), (js "pop", .string request.pop)])
    else none
  number _ := .nan
  sha256 message :=
    unpackWords 32 [if message = challenge then
      0x708a4d90ea5d6096e075c97b478db29e38d7c626ae8d8bda5317feb3f28fead4 else 0]

/-- Two requests with the same challenge arrive, and the first one goes through. -/
def attestRun : List ServiceEvent :=
  [.arrive (utf8Encode attestText) 1735689610, .arrive (utf8Encode attestText) 1735689610] ++
    Service.undisturbed 0 1735689610 { serials := some [], expiresAt := .finite 1735689900 } nowMs

/-- This many requests wait for their first check. -/
def waiting (n : Nat) : Service where
  clock := 1735689610
  used := []
  attempts := List.replicate n { request := request, phase := .verifying 1735689610 }

theorem waiting_reads (n : Nat) : (waiting n).Reads 1735689610 :=
  ⟨by decide, by norm_num [waiting, skew]⟩

theorem waiting_arrive (n : Nat) :
    (waiting n).step attestEngine host runtime (.arrive (utf8Encode attestText) 1735689610) =
      some (waiting (n + 1)) := by
  have decoded : decodeAttestRequest attestEngine (utf8Encode attestText) = some request := by
    decide +kernel
  simp only [Service.step, if_pos (waiting_reads n), decoded]
  simp only [waiting, List.replicate_succ']

theorem challenge_verified :
    challenges.verify request.challenge 1735689610 = .ok challenge := by decide +kernel

theorem challenge_accepted : challenges.Accepts request.challenge 1735689610 challenge :=
  (challenges.verify_eq_ok_iff _ _ _).mp challenge_verified

end Sample

theorem challenge_single_use_sample :
    ∃ s, Run (Service.step Sample.attestEngine Sample.host Sample.runtime)
        (.initial 1735689610 []) Sample.attestRun s ∧
      (∃ a ∈ s.attempts, a.ReceivedFlag Sample.challenge) ∧
      AtMostOne (Attempt.ReceivedFlag Sample.challenge) s.attempts := by
  have unused : (consume [] (Challenges.id Sample.attestEngine.sha256 Sample.challenge)
      (expiresAtSeconds Sample.challenge) (1735689610 : Int)).1 = .ok true := by decide +kernel
  have served : Run (Service.step Sample.attestEngine Sample.host Sample.runtime)
      (Sample.waiting 2) _ _ :=
    Service.run_undisturbed (Sample.waiting 2) 0 Sample.request 1735689610
      { serials := some [], expiresAt := .finite 1735689900 } [] Sample.nowMs Sample.challenge rfl
      (Sample.waiting_reads 2) Sample.challenge_accepted rfl sample_accepted unused
  have taken := (run_cons _ _ _ _).mpr ⟨_, Sample.waiting_arrive 0,
    (run_cons _ _ _ _).mpr ⟨_, Sample.waiting_arrive 1, served⟩⟩
  exact ⟨_, taken, ⟨_, List.mem_cons_self, Sample.challenge_accepted.decoded, 2, js "flag", rfl⟩,
    challenge_single_use Sample.attestEngine Sample.host Sample.runtime 1735689610 []
      Sample.attestRun _ taken Sample.challenge⟩

end UncrackableL5

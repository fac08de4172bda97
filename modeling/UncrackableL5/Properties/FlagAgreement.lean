import UncrackableL5.Properties.ChallengeWindow
import UncrackableL5.Properties.GenuineClient
import UncrackableL5.Properties.RedeemedChallenges

/-!
# Flags and the challenges they answer

A challenge is sent with one request, an attempt belongs to one request, and no two attempts are
answered with the flag for the same octets. So flags are matched with sent challenges one to one,
as soon as nobody but the server can make a challenge that is accepted.

## Main results

- `Deployment.Stepped.traced`: one event keeps track of attempts and sent challenges.
- `flags_answer_challenges`: every flag answers a challenge of its own, in the lifetime of it.
-/
namespace UncrackableL5

open Transition
open Challenges (issuedAt)

variable {CryptoKey : Type} {engine : Engine} {host : Host CryptoKey} {rt : Runtime}

/-! ### Sent challenges and begun attempts -/

namespace Deployment

/-- The request has come to attempt `k`. -/
def Owns (k : Nat) (h : HttpState) : Prop := ∃ body, h.phase = .attesting body k

/-- Attempts belong to one request each, and the sent challenges are the replies they were sent
in. -/
structure Traced (s : Deployment) : Prop where
  begun : ∀ h ∈ s.requests, ∀ k, Owns k h → k < s.service.attempts.length
  owned : ∀ k, AtMostOne (Owns k) s.requests
  sent : ∀ e ∈ s.sent, ∃ h expiresIn, s.requests[e.1]? = some h ∧
    h.phase = .replied (.challenge e.2 expiresIn)

variable {s t : Deployment} {event : DeploymentEvent}

/-- A request that resumes to another phase than an attempt comes to no attempt. -/
private theorem not_owns_of_resumed {h : HttpState} {settled : HttpSettled} {phase : HttpPhase}
    (resumed : h.Resumed engine.tables rt settled (.phase phase)) (k : Nat) :
    ¬Owns k { h with phase := phase } := by
  rintro ⟨body, reached⟩
  obtain rfl : phase = .attesting body k := reached
  cases resumed

private theorem Traced.begun_set (traced : Traced s) {i : Nat} {new : HttpState}
    (other : ∀ k, ¬Owns k new) :
    ∀ h ∈ s.requests.set i new, ∀ k, Owns k h → k < s.service.attempts.length := by
  intro x member k owns
  rcases List.mem_or_eq_of_mem_set member with old | rfl
  · exact traced.begun x old k owns
  · exact absurd owns (other k)

/-- The replies that carried a challenge are not touched any more. -/
private theorem Traced.sent_set (traced : Traced s) {i : Nat} {h new : HttpState}
    (running : s.requests[i]? = some h) (pending : h.phase.Pending) :
    ∀ e ∈ s.sent, ∃ x expiresIn, (s.requests.set i new)[e.1]? = some x ∧
      x.phase = .replied (.challenge e.2 expiresIn) := by
  intro e member
  obtain ⟨x, expiresIn, found, phase⟩ := traced.sent e member
  refine ⟨x, expiresIn, ?_, phase⟩
  rw [List.getElem?_set_ne, found]
  rintro rfl
  cases running.symm.trans found
  rw [phase] at pending
  exact pending

theorem Stepped.traced (stepped : Stepped engine host rt s event t) (traced : Traced s) :
    Traced t := by
  cases stepped with
  | arrived request nowSeconds phase entered =>
    have other : ∀ k, ¬Owns k { request := request, phase := phase } := by
      rintro k ⟨body, reached⟩
      obtain rfl : phase = .attesting body k := reached
      cases entered
    refine ⟨fun x member k owns => ?_, fun k => (traced.owned k).append (other k),
      fun e member => ?_⟩
    · rcases List.mem_append.mp member with old | new
      · exact traced.begun x old k owns
      · rw [List.mem_singleton.mp new] at owns
        exact absurd owns (other k)
    · obtain ⟨x, expiresIn, found, phase⟩ := traced.sent e member
      have bound := (List.getElem?_eq_some_iff.mp found).1
      exact ⟨x, expiresIn, (List.getElem?_append_left bound).trans found, phase⟩
  | admitted i h nowSeconds running phase =>
    have other : ∀ k,
        ¬Owns k { h with phase := .admitted (allowRequest s.budget nowSeconds).1 } := by
      rintro k ⟨body, ⟨⟩⟩
    have pending : h.phase.Pending := by
      rw [phase]
      trivial
    exact ⟨traced.begun_set other,
      fun k => (traced.owned k).set running fun owns => absurd owns (other k),
      traced.sent_set running pending⟩
  | went i h settled phase running admits resumed =>
    have other := not_owns_of_resumed resumed
    refine ⟨traced.begun_set other,
      fun k => (traced.owned k).set running fun owns => absurd owns (other k), fun e member => ?_⟩
    rcases List.mem_append.mp member with old | new
    · exact traced.sent_set running resumed.pending e old
    · -- the challenge goes out with this request
      unfold sentBy at new
      split at new
      next challenge expiresIn =>
        rw [List.mem_singleton.mp new]
        exact ⟨_, expiresIn, List.getElem?_set_self (List.getElem?_eq_some_iff.mp running).1, rfl⟩
      next => cases new
  | malformed i h settled body nowSeconds running resumed decoded =>
    have other : ∀ k, ¬Owns k { h with phase := .replied (.error 400 "invalid_request") } := by
      rintro k ⟨body, ⟨⟩⟩
    exact ⟨traced.begun_set other,
      fun k => (traced.owned k).set running fun owns => absurd owns (other k),
      traced.sent_set running resumed.pending⟩
  | began i h settled body nowSeconds request running resumed decoded arrives =>
    refine ⟨fun x member k owns => ?_, fun k => ?_,
      traced.sent_set running resumed.pending⟩
    · change k < (s.service.attempts ++ [_]).length
      rw [List.length_append]
      rcases List.mem_or_eq_of_mem_set member with old | rfl
      · exact Nat.lt_add_right 1 (traced.begun x old k owns)
      · obtain ⟨_, reached⟩ := owns
        cases reached
        exact Nat.lt_add_one _
    · -- The new attempt has a number of its own.
      by_cases fresh : k = s.service.attempts.length
      · subst fresh
        refine .set_of_none (fun x member owns => ?_) i _
        exact absurd (traced.begun x member _ owns) (lt_irrefl _)
      · refine (traced.owned k).set running fun owns => ?_
        obtain ⟨_, reached⟩ := owns
        cases reached
        exact absurd rfl fresh
  | served event own service same delivered serves =>
    refine ⟨fun x member k owns => ?_, traced.owned, traced.sent⟩
    have bound := traced.begun x member k owns
    obtain ⟨b, there, -⟩ := (Service.stepped_of_step serves).remains
      (List.getElem?_eq_getElem bound)
    exact (List.getElem?_eq_some_iff.mp there).1
  | admittedLate | looked | moved => exact ⟨traced.begun, traced.owned, traced.sent⟩

theorem traced_of_run {clock : ℚ} {events : List DeploymentEvent}
    (taken : Run (step engine host rt) (.initial clock) events s) : Traced s := by
  refine taken.invariant Traced (fun s event t traced step => (stepped_of_step step).traced traced)
    ⟨?_, ?_, ?_⟩
  · simp [initial]
  · simp [initial, AtMostOne]
  · simp [initial]

end Deployment

/-! ### Flags -/

/-- Whoever presents a challenge that can be accepted got it from the server: nobody else makes
the tag. -/
def Deployment.Unforged (rt : Runtime) (s : Deployment) : Prop :=
  ∀ a ∈ s.service.attempts, ∀ nowSeconds bytes,
    rt.challenges.Accepts a.request.challenge nowSeconds bytes →
      ∃ j, (j, a.request.challenge) ∈ s.sent

/-- Request `i` was answered with the flag for the challenge that request `j` had asked for, which
was in its lifetime at the reading for the last check, after it had been spent for request `i`. -/
structure Deployment.Answers (engine : Engine) (host : Host CryptoKey) (rt : Runtime)
    (start : Deployment) (events : List DeploymentEvent) (s : Deployment) (i j : Nat)
    (issuedSeconds confirmedSeconds : Int) (nonce : Bytes) : Prop where
  flagged : s.reply i = some (.other (.flag 2 rt.flag))
  asked : ∃ h, s.requests[j]? = some h ∧ h.request.AsksChallenge
  granted : s.Answered j true
  random : nonce.length = 32
  sent : (j, rt.challenges.issue nonce issuedSeconds) ∈ s.sent
  issued : s.reply j = some (.challenge (rt.challenges.issue nonce issuedSeconds) 120)
  presented : ∃ k a, Deployment.Attempted engine events s i k a ∧
    a.request.challenge = rt.challenges.issue nonce issuedSeconds ∧
    Redeemed engine host rt start events k a.request.challenge
      (rt.challenges.issuedBytes nonce issuedSeconds) confirmedSeconds
  notBefore : issuedSeconds ≤ confirmedSeconds
  notAfter : confirmedSeconds < issuedSeconds + 120

/-- The seconds of an accepted challenge are those it was issued at. -/
private theorem window_of_accepts {c : Challenges} {nonce bytes : Bytes} {issued now : Int}
    (random : nonce.length = 32) (issuedSecond : IsSecond issued) (second : IsSecond now)
    (accepts : c.Accepts (c.issue nonce issued) now bytes) : issued ≤ now ∧ now < issued + 120 := by
  simp only [IsSecond] at issuedSecond second
  have bound : now < 2 ^ 63 := by omega
  obtain ⟨authentic, window⟩ :=
    (c.verify_eq_ok _ bound _).mp ((c.verify_eq_ok_iff _ _ _).mpr accepts)
  rw [authentic.unique (c.authentic_issue random issued)] at window
  obtain ⟨late, early⟩ := window
  have field : (Challenges.issuedSeconds (c.issuedBytes nonce issued) : Int) = issued % 2 ^ 64 := by
    have octets : ((c.issuedBytes nonce issued).drop 1).take 8 = Challenges.bigUint64 issued := by
      simp [Challenges.issuedBytes, Challenges.bigUint64_length]
    have fixed := BigEndian.value_fixed 8 (issued % 2 ^ 64).toNat
    rw [Challenges.issuedSeconds, octets, Challenges.bigUint64, fixed]
    omega
  rw [field, challengeLifetimeSeconds] at late
  rw [field] at early
  omega

private theorem answers_of_flag {clock : ℚ} {events : List DeploymentEvent} {s : Deployment}
    (taken : Run (Deployment.step engine host rt) (.initial clock) events s)
    (unforged : s.Unforged rt) {i tier : Nat} {flag : JsString}
    (answered : s.reply i = some (.other (.flag tier flag))) :
    ∃ j issuedSeconds confirmedSeconds nonce, Deployment.Answers engine host rt (.initial clock)
      events s i j issuedSeconds confirmedSeconds nonce := by
  have traced := Deployment.traced_of_run taken
  rcases Deployment.reply_cases taken answered with ⟨h, -, justified⟩ | ⟨k, a, response, attempted,
    done, same⟩
  · exact absurd rfl (justified.ne_flag tier flag)
  cases same
  have redeeming := Deployment.redeeming_of_run taken k a attempted.running
  rw [Deployment.Redeeming, done] at redeeming
  obtain ⟨rfl, rfl, bytes, now, redeemed⟩ := redeeming
  have accepts := redeemed.accepted
  obtain ⟨_, _, _, _, -, -, -, reads, -⟩ := redeemed.confirmed.happened
  -- the challenge was sent with some request, for a reason
  obtain ⟨j, sent⟩ := unforged a (List.mem_of_getElem? attempted.running) now bytes accepts
  obtain ⟨x, expiresIn, found, phase⟩ := traced.sent _ sent
  have flow := Deployment.flow_of_run taken j x found
  rw [Deployment.Flow, phase] at flow
  generalize same : Reply.challenge a.request.challenge expiresIn = reply at flow
  cases flow with
  | issued nonce issued granted asks random issuedSecond =>
    obtain ⟨own, rfl⟩ := Reply.challenge.inj same
    obtain ⟨notBefore, notAfter⟩ := window_of_accepts random issuedSecond reads.1 (own ▸ accepts)
    have decoded := (rt.challenges.authentic_issue random issued).decoded
    have same := Except.ok.inj (accepts.decoded.symm.trans (own ▸ decoded))
    refine ⟨j, issued, now, nonce, answered, ⟨x, found, asks⟩, granted, random, own ▸ sent, ?_,
      ⟨k, a, attempted, own, same ▸ redeemed⟩, notBefore, notAfter⟩
    simp only [Deployment.reply, found, phase, own]
  | immediate _ routed => rcases HttpRequest.route_error routed with rfl | rfl <;> cases same
  | failed e _ kind => cases e <;> cases same
  | _ => cases same

private theorem done_of_flag {events : List DeploymentEvent} {s : Deployment} {i k tier : Nat}
    {a : Attempt} {flag : JsString} (attempted : Deployment.Attempted engine events s i k a)
    (answered : s.reply i = some (.other (.flag tier flag))) :
    a.phase = .done (.flag tier flag) := by
  obtain ⟨h, body, found, phase, -⟩ := attempted.reached
  simp only [Deployment.reply, found, phase, attempted.running] at answered
  split at answered
  next response done =>
    cases answered
    exact done
  next => cases answered

/-- No challenge gives two flags. -/
private theorem answers_once {clock : ℚ} {events : List DeploymentEvent} {s : Deployment}
    (taken : Run (Deployment.step engine host rt) (.initial clock) events s) {i i' j : Nat}
    {issued confirmed issued' confirmed' : Int} {nonce nonce' : Bytes}
    (first : Deployment.Answers engine host rt (.initial clock) events s i j issued confirmed nonce)
    (second : Deployment.Answers engine host rt (.initial clock) events s i' j issued' confirmed'
      nonce') : i = i' := by
  obtain ⟨own, taken'⟩ := Deployment.service_run taken
  obtain ⟨k, a, attempted, presented, -⟩ := first.presented
  obtain ⟨k', a', attempted', presented', -⟩ := second.presented
  -- both texts are the reply to request `j`
  have same : a'.request.challenge = a.request.challenge := by
    have replies := first.issued.symm.trans second.issued
    rw [presented, presented']
    exact ((Reply.challenge.inj (Option.some.inj replies)).1).symm
  have done := done_of_flag attempted first.flagged
  have done' := done_of_flag attempted' second.flagged
  have decoded : base64UrlDecode a.request.challenge =
      .ok (rt.challenges.issuedBytes nonce issued) := by
    rw [presented]
    exact (rt.challenges.authentic_issue first.random issued).decoded
  have once := taken'.invariant (Once engine (rt.challenges.issuedBytes nonce issued))
    (fun s event t once step => (Service.stepped_of_step step).once once)
    (Service.initial_once clock [] _)
  obtain rfl : k = k' := by
    refine once.kept k k' a a' attempted.running attempted'.running ⟨decoded, ?_⟩
      ⟨same ▸ decoded, ?_⟩
    · rw [done]
      trivial
    · rw [done']
      trivial
  obtain ⟨h, body, found, phase, -⟩ := attempted.reached
  obtain ⟨h', body', found', phase', -⟩ := attempted'.reached
  have owned := (Deployment.traced_of_run taken).owned k
  exact owned i i' h h' found found' ⟨body, phase⟩ ⟨body', phase'⟩

/-- In every run in which accepted challenges come from the server: every flag answers a challenge
that was sent with an admitted request, and lived at the reading for the last check, which was taken
after it had been spent for this flag; no two flags answer the same one, and there are at most as
many flags as sent challenges. -/
theorem flags_answer_challenges (engine : Engine) (host : Host CryptoKey) (rt : Runtime) (clock : ℚ)
    (events : List DeploymentEvent) (s : Deployment)
    (taken : Run (Deployment.step engine host rt) (.initial clock) events s)
    (unforged : s.Unforged rt) :
    (∀ i tier flag, s.reply i = some (.other (.flag tier flag)) →
      ∃ j issued confirmed nonce, Deployment.Answers engine host rt (.initial clock) events s i j
        issued confirmed nonce) ∧
    (∀ i i' j issued confirmed nonce issued' confirmed' nonce',
      Deployment.Answers engine host rt (.initial clock) events s i j issued confirmed nonce →
      Deployment.Answers engine host rt (.initial clock) events s i' j issued' confirmed' nonce' →
        i = i') ∧
    ∀ flagged : List Nat, flagged.Nodup →
      (∀ i ∈ flagged, ∃ tier flag, s.reply i = some (.other (.flag tier flag))) →
      flagged.length ≤ s.sent.length := by
  have matched : ∀ i tier flag, s.reply i = some (.other (.flag tier flag)) →
      ∃ j issued confirmed nonce, Deployment.Answers engine host rt (.initial clock) events s i j
        issued confirmed nonce :=
    fun _ _ _ => answers_of_flag taken unforged
  refine ⟨matched, fun i i' j _ _ _ _ _ _ first second => answers_once taken first second, ?_⟩
  intro flagged distinct each
  refine Pairing.length_le_of_partners (r := fun i e => ∃ issued confirmed nonce,
    Deployment.Answers engine host rt (.initial clock) events s i e.1 issued confirmed nonce)
    distinct ?_ ?_
  · intro i member
    obtain ⟨tier, flag, answered⟩ := each i member
    obtain ⟨j, issued, confirmed, nonce, answers⟩ := matched i tier flag answered
    exact ⟨_, answers.sent, issued, confirmed, nonce, answers⟩
  · rintro i i' e ⟨_, _, _, first⟩ ⟨_, _, _, second⟩
    exact answers_once taken first second

theorem flags_answer_challenges_sample :
    ∃ events s, Run (Deployment.step Sample.servingEngine Sample.host Sample.anchoredRuntime)
        (.initial 1735689610) events s ∧ s.reply 1 = some (.other (.flag 2 (js "flag"))) ∧
      ∃ j issued confirmed nonce, Deployment.Answers Sample.servingEngine Sample.host
        Sample.anchoredRuntime (.initial 1735689610) events s 1 j issued confirmed nonce := by
  obtain ⟨o, outcome, refreshed, live, fresh, -⟩ := Sample.refreshed
  have reads : (Service.initial 1735689610 []).Reads 1735689600 :=
    ⟨by decide, by norm_num [Service.initial, skew]⟩
  have asks : Sample.ask.AsksChallenge := ⟨rfl, rfl⟩
  have asked :
      Run (Deployment.step Sample.servingEngine Sample.host Sample.anchoredRuntime) _ _ _ :=
    Deployment.run_challenge { Deployment.initial 1735689610 with object := o } asks reads
      Sample.nonce_length Sample.calls_granted.2.1
  have before := (run_append _ _ _ _).mpr ⟨_, refreshed, asked⟩
  obtain ⟨later, s, continued, served⟩ := Deployment.run_offer before Sample.post_attests rfl
    Sample.body_fits Sample.body_decoded
    (Sample.offer rfl Sample.calls_granted.2.2.1 live fresh)
  have taken := (run_append _ _ _ _).mpr ⟨_, before, continued⟩
  refine ⟨_, s, taken, served.reply, (flags_answer_challenges Sample.servingEngine Sample.host
    Sample.anchoredRuntime 1735689610 _ s taken ?_).1 1 2 _ served.reply⟩
  -- the one attempt presents the challenge that was sent
  intro a member nowSeconds bytes accepts
  rw [served.attempts] at member
  obtain rfl := List.mem_singleton.mp member
  rw [served.sent]
  exact ⟨0, List.mem_singleton.mpr (congrArg (Prod.mk 0) Sample.issued.symm)⟩

end UncrackableL5

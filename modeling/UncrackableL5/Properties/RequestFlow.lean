import UncrackableL5.Properties.DeploymentSteps

/-!
# Requests before their attempt

Every phase of a request says what has happened to it: the object has granted its call, the route
and the method fit, and the octets buffered so far are those the stream delivered. The bound on the
body is kept chunk by chunk, so it does not depend on where the chunks end.

## Main results

- `Deployment.Stepped.flow`: one event keeps what the requests have behind them.
- `replies_justified`: every answer in front of the attest logic is given for its reason.
-/
namespace UncrackableL5

open Transition

variable {CryptoKey : Type}

/-- The octets that an event delivers to request `i`. -/
def DeploymentEvent.chunk (i : Nat) : DeploymentEvent → Option Bytes
  | .resume j (.chunk value) => if j = i then some value else none
  | _ => none

/-- What the body of request `i` has delivered. -/
def delivered (i : Nat) (events : List DeploymentEvent) : List Bytes :=
  events.filterMap (DeploymentEvent.chunk i)

/-- In front of the request budget only the health route is answered, or no route is found. -/
theorem HttpRequest.route_error {request : HttpRequest} {reply : Reply}
    (routed : request.route = .error reply) :
    reply = .health ∨ reply = .error 404 "not_found" := by
  rw [HttpRequest.route] at routed
  split at routed
  next => exact Or.inl (Except.error.inj routed).symm
  next =>
    split at routed
    next => cases routed
    next =>
      split at routed
      next => cases routed
      next => exact Or.inr (Except.error.inj routed).symm

namespace Deployment

/-- The object has granted, or refused, the `allowRequest` call of request `i`. -/
def Answered (s : Deployment) (i : Nat) (granted : Bool) : Prop :=
  ∃ a ∈ s.admissions, a.request = some i ∧ a.answer = .ok granted

section

variable (engine : Engine) (rt : Runtime) (past : List DeploymentEvent) (s : Deployment) (i : Nat)

/-- The reason for an answer that is given in front of the attest logic. -/
inductive Justified (request : HttpRequest) : Reply → Prop where
  | immediate (reply : Reply) (routed : request.route = .error reply) : Justified request reply
  | limited (refused : s.Answered i false) : Justified request (.error 429 "rate_limited")
  | wrongMethod (granted : s.Answered i true) (wrong : request.method ≠ request.allowedMethod) :
      Justified request (.error 405 "invalid_request")
  | wrongMedia (granted : s.Answered i true) (path : request.path = js "/v1/attest")
      (wrong : mediaType engine.tables request.contentType ≠ js "application/json") :
      Justified request (.error 415 "invalid_request")
  | tooLarge (granted : s.Answered i true) (attests : request.Attests engine.tables)
      (large : maxBody < (delivered i past).flatten.length) :
      Justified request (.error 413 "request_too_large")
  | malformed (granted : s.Answered i true) (attests : request.Attests engine.tables)
      (fits : (delivered i past).flatten.length ≤ maxBody)
      (undecoded : decodeAttestRequest engine (delivered i past).flatten = none) :
      Justified request (.error 400 "invalid_request")
  | issued (nonce : Bytes) (nowSeconds : Int) (granted : s.Answered i true)
      (asks : request.AsksChallenge) (random : nonce.length = 32) (second : IsSecond nowSeconds)
      (sent : (i, rt.challenges.issue nonce nowSeconds) ∈ s.sent) :
      Justified request (.challenge (rt.challenges.issue nonce nowSeconds) 120)
  -- a call of the handler failed
  | failed (e : Exception) (routed : ∃ route, request.route = .ok route)
      (kind : e = .unavailable ∨ e = .error "Error") : Justified request (.other (errorResponse e))

/-- What a request has behind it. -/
def Flow (h : HttpState) : Prop :=
  match h.phase with
  | .admitting nowSeconds =>
    (∃ route, h.request.route = .ok route) ∧ delivered i past = [] ∧ IsSecond nowSeconds
  | .admitted outcome =>
    (∃ route, h.request.route = .ok route) ∧ delivered i past = [] ∧
      ∀ granted, outcome = .ok granted → s.Answered i granted
  | .configuring =>
    (∃ route, h.request.route = .ok route) ∧ delivered i past = [] ∧ s.Answered i true
  | .issuing nonce nowSeconds =>
    (∃ route, h.request.route = .ok route) ∧ h.request.AsksChallenge ∧ s.Answered i true ∧
      nonce.length = 32 ∧ IsSecond nowSeconds
  | .reading total chunks =>
    (∃ route, h.request.route = .ok route) ∧ h.request.Attests engine.tables ∧ s.Answered i true ∧
      chunks = delivered i past ∧ total = chunks.flatten.length ∧ total ≤ maxBody
  | .cancelling =>
    (∃ route, h.request.route = .ok route) ∧ h.request.Attests engine.tables ∧ s.Answered i true ∧
      maxBody < (delivered i past).flatten.length
  | .attesting body k =>
    h.request.Attests engine.tables ∧ s.Answered i true ∧ body = (delivered i past).flatten ∧
      body.length ≤ maxBody ∧
      ∃ a, s.service.attempts[k]? = some a ∧ decodeAttestRequest engine body = some a.request
  | .replied reply => Justified engine rt past s i h.request reply
  | .dropped => True

end

/-! ### What stays -/

variable {engine : Engine} {host : Host CryptoKey} {rt : Runtime}
  {past : List DeploymentEvent} {s t : Deployment} {event : DeploymentEvent} {i : Nat}

/-- No admission, no sent challenge and no attempt is forgotten. -/
structure Follows (s t : Deployment) : Prop where
  admissions : s.admissions ⊆ t.admissions
  sent : s.sent ⊆ t.sent
  attempts : ∀ (k : Nat) a, s.service.attempts[k]? = some a →
    ∃ b, t.service.attempts[k]? = some b ∧ b.request = a.request

theorem Stepped.follows (taken : Stepped engine host rt s event t) : s.Follows t where
  admissions := by
    rcases taken.budget_eq with ⟨-, same⟩ | ⟨_, _, -, more, -⟩
    · exact same ▸ List.Subset.refl _
    · exact more ▸ List.subset_append_left _ _
  sent := by
    cases taken with
    | went => exact List.subset_append_left _ _
    | _ => exact List.Subset.refl _
  attempts _ _ found := taken.attempt_remains found

theorem Answered.later {granted : Bool} (answered : s.Answered i granted) (follows : s.Follows t) :
    t.Answered i granted := by
  obtain ⟨a, member, own, answer⟩ := answered
  exact ⟨a, follows.admissions member, own, answer⟩

private theorem delivered_snoc (i : Nat) (past : List DeploymentEvent) (event : DeploymentEvent) :
    delivered i (past ++ [event]) = delivered i past ++ (event.chunk i).toList := by
  cases chunk : event.chunk i with
  | none => simp [delivered, chunk]
  | some value => simp [delivered, chunk]

private theorem Justified.later {request : HttpRequest} {reply : Reply}
    (justified : Justified engine rt past s i request reply) (follows : s.Follows t)
    (quiet : event.chunk i = none) :
    Justified engine rt (past ++ [event]) t i request reply := by
  have same : delivered i (past ++ [event]) = delivered i past := by
    simp [delivered_snoc, quiet]
  cases justified with
  | immediate _ routed => exact .immediate _ routed
  | limited refused => exact .limited (refused.later follows)
  | wrongMethod granted wrong => exact .wrongMethod (granted.later follows) wrong
  | wrongMedia granted path wrong => exact .wrongMedia (granted.later follows) path wrong
  | tooLarge granted attests large =>
    exact .tooLarge (granted.later follows) attests (same ▸ large)
  | malformed granted attests fits undecoded =>
    exact .malformed (granted.later follows) attests (same ▸ fits) (same ▸ undecoded)
  | issued nonce nowSeconds granted asks random second sent =>
    exact .issued nonce nowSeconds (granted.later follows) asks random second (follows.sent sent)
  | failed e routed kind => exact .failed e routed kind

private theorem Flow.later {h : HttpState} (flow : Flow engine rt past s i h)
    (follows : s.Follows t) (quiet : event.chunk i = none) :
    Flow engine rt (past ++ [event]) t i h := by
  have same : delivered i (past ++ [event]) = delivered i past := by
    simp [delivered_snoc, quiet]
  obtain ⟨request, phase⟩ := h
  cases phase with
  | admitting => exact ⟨flow.1, same ▸ flow.2.1, flow.2.2⟩
  | admitted outcome =>
    exact ⟨flow.1, same ▸ flow.2.1, fun granted own => (flow.2.2 granted own).later follows⟩
  | configuring => exact ⟨flow.1, same ▸ flow.2.1, flow.2.2.later follows⟩
  | issuing =>
    obtain ⟨routed, asks, granted, drawn⟩ := flow
    exact ⟨routed, asks, granted.later follows, drawn⟩
  | reading =>
    obtain ⟨routed, attests, granted, read, bounds⟩ := flow
    exact ⟨routed, attests, granted.later follows, same ▸ read, bounds⟩
  | cancelling =>
    obtain ⟨routed, attests, granted, large⟩ := flow
    exact ⟨routed, attests, granted.later follows, same ▸ large⟩
  | attesting body k =>
    obtain ⟨attests, granted, read, fits, a, running, decoded⟩ := flow
    obtain ⟨b, there, request⟩ := follows.attempts k a running
    exact ⟨attests, granted.later follows, same ▸ read, fits, b, there, request ▸ decoded⟩
  | replied reply => exact Justified.later flow follows quiet
  | dropped => trivial

/-! ### One event -/

private theorem path_of_routed {request : HttpRequest} (routed : ∃ route, request.route = .ok route)
    (other : request.path ≠ js "/v1/challenge") : request.path = js "/v1/attest" := by
  obtain ⟨route, routed⟩ := routed
  simp only [HttpRequest.route, if_neg other] at routed
  split at routed
  next => cases routed
  next =>
    split at routed
    next path => exact path
    next => cases routed

private theorem routed_of_pending {h : HttpState} (pending : h.phase.Pending)
    (flow : Flow engine rt past s i h) : ∃ route, h.request.route = .ok route := by
  obtain ⟨request, phase⟩ := h
  cases phase with
  | attesting | replied | dropped => exact pending.elim
  | _ => exact flow.1

/-- A request that resumes goes on with what is true of it. -/
private theorem flow_of_resumed {h : HttpState} {settled : HttpSettled} {phase : HttpPhase}
    (admits : s.admits settled = true) (follows : s.Follows t)
    (sent : sentBy i phase ⊆ t.sent)
    (resumed : h.Resumed engine.tables rt settled (.phase phase))
    (flow : Flow engine rt past s i h) :
    Flow engine rt (past ++ [.resume i settled]) t i { h with phase := phase } := by
  have routes := fun pending => routed_of_pending pending flow
  simp only [Flow] at flow
  cases resumed with
  | lost => trivial
  | failed _ e pending kind => exact .failed e (routes pending) kind
  | admitted now nonce phase =>
    rw [phase] at flow
    obtain ⟨routed, empty, granted⟩ := flow
    exact ⟨routed, by simp [delivered_snoc, empty, DeploymentEvent.chunk],
      (granted true rfl).later follows⟩
  | limited now nonce phase =>
    rw [phase] at flow
    exact .limited ((flow.2.2 false rfl).later follows)
  | wrongMethod now nonce phase wrong =>
    rw [phase] at flow
    exact .wrongMethod (flow.2.2.later follows) wrong
  | wrongMedia now nonce phase path method wrong =>
    rw [phase] at flow
    exact .wrongMedia (flow.2.2.later follows) (path_of_routed flow.1 path) wrong
  | issues now nonce phase asks =>
    rw [phase] at flow
    have drawn : s.service.Reads now ∧ nonce.length = 32 := of_decide_eq_true admits
    exact ⟨flow.1, asks, flow.2.2.later follows, drawn.2, drawn.1.1⟩
  | reads now nonce phase path method media =>
    rw [phase] at flow
    obtain ⟨routed, empty, granted⟩ := flow
    exact ⟨routed, ⟨path_of_routed routed path, method, media⟩, granted.later follows,
      by simp [delivered_snoc, empty, DeploymentEvent.chunk], rfl, Nat.zero_le _⟩
  | issued issuedAt drawn nonce now phase =>
    rw [phase] at flow
    obtain ⟨-, asks, granted, random, second⟩ := flow
    exact .issued drawn issuedAt (granted.later follows) asks random second
      (sent (List.mem_singleton.mpr rfl))
  | tooLarge total chunks value phase large =>
    rw [phase] at flow
    obtain ⟨routed, attests, granted, rfl, rfl, -⟩ := flow
    exact ⟨routed, attests, granted.later follows, by
      simpa [delivered_snoc, DeploymentEvent.chunk] using large⟩
  | chunk total chunks value phase fits =>
    rw [phase] at flow
    obtain ⟨routed, attests, granted, rfl, rfl, -⟩ := flow
    exact ⟨routed, attests, granted.later follows, by simp [delivered_snoc, DeploymentEvent.chunk],
      by simp, fits⟩
  | cancelled now nonce phase =>
    rw [phase] at flow
    obtain ⟨-, attests, granted, large⟩ := flow
    exact .tooLarge (granted.later follows) attests (by
      simpa [delivered_snoc, DeploymentEvent.chunk] using large)

/-- The body that is decoded is the one that the stream delivered. -/
private theorem body_of_resumed {h : HttpState} {settled : HttpSettled} {body : Bytes}
    {nowSeconds : Int} (resumed : h.Resumed engine.tables rt settled (.body body nowSeconds))
    (flow : Flow engine rt past s i h) :
    h.request.Attests engine.tables ∧ s.Answered i true ∧ body = (delivered i past).flatten ∧
      body.length ≤ maxBody ∧ DeploymentEvent.chunk i (.resume i settled) = none := by
  simp only [Flow] at flow
  cases resumed with
  | bodiless _ nonce phase path method media =>
    rw [phase] at flow
    obtain ⟨routed, empty, granted⟩ := flow
    exact ⟨⟨path_of_routed routed path, method, media⟩, granted, by simp [empty],
      Nat.zero_le _, rfl⟩
  | finished total chunks _ phase =>
    rw [phase] at flow
    obtain ⟨-, attests, granted, rfl, rfl, bound⟩ := flow
    exact ⟨attests, granted, rfl, bound, rfl⟩

theorem Stepped.flow (stepped : Stepped engine host rt s event t)
    (flow : ∀ (i : Nat) h, s.requests[i]? = some h → Flow engine rt past s i h)
    (quiet : ∀ i, s.requests.length ≤ i → delivered i past = []) :
    (∀ (i : Nat) h, t.requests[i]? = some h → Flow engine rt (past ++ [event]) t i h) ∧
      ∀ i, t.requests.length ≤ i → delivered i (past ++ [event]) = [] := by
  have follows := stepped.follows
  have silent : ∀ i, event.chunk i = none → s.requests.length ≤ i →
      delivered i (past ++ [event]) = [] := by
    intro i none late
    simp [delivered_snoc, none, quiet i late]
  -- Only the request that resumes gets octets.
  have other : ∀ {i j settled}, j ≠ i → DeploymentEvent.chunk j (.resume i settled) = none := by
    intro i j settled different
    cases settled with
    | chunk value => exact if_neg (Ne.symm different)
    | _ => rfl
  have replaced : ∀ {i : Nat} {h : HttpState} {phase : HttpPhase} {settled : HttpSettled},
      s.requests[i]? = some h → event = .resume i settled →
      t.requests = s.requests.set i { h with phase := phase } →
      Flow engine rt (past ++ [event]) t i { h with phase := phase } →
      (∀ (j : Nat) x, t.requests[j]? = some x → Flow engine rt (past ++ [event]) t j x) ∧
        ∀ j, t.requests.length ≤ j → delivered j (past ++ [event]) = [] := by
    intro i h phase settled running same requests own
    have bound := (List.getElem?_eq_some_iff.mp running).1
    subst same
    refine ⟨fun j x found => ?_, fun j late => ?_⟩
    · rw [requests] at found
      rcases lookup_set found with ⟨rfl, rfl⟩ | ⟨different, present⟩
      · exact own
      · exact (flow j x present).later follows (other different)
    · rw [requests, List.length_set] at late
      exact silent j (other (by omega)) late
  cases stepped with
  | arrived request nowSeconds phase entered =>
    refine ⟨fun i h found => ?_, fun i late => ?_⟩
    · rw [List.getElem?_append] at found
      split at found
      next => exact (flow i h found).later follows rfl
      next new =>
        obtain rfl := List.mem_singleton.mp (List.mem_of_getElem? found)
        have empty := silent i rfl (Nat.le_of_not_lt new)
        cases entered with
        | answered reply routed => exact .immediate reply routed
        | routed route routed reads => exact ⟨⟨route, routed⟩, empty, reads.1⟩
    · rw [List.length_append] at late
      exact silent i rfl (by omega)
  | admitted i h nowSeconds running phase =>
    refine ⟨fun j x found => ?_, fun j late => ?_⟩
    · rcases lookup_set found with ⟨rfl, rfl⟩ | ⟨-, present⟩
      · have before := flow j h running
        rw [Flow, phase] at before
        refine ⟨before.1, by simp [delivered_snoc, before.2.1, DeploymentEvent.chunk],
          fun granted outcome => ?_⟩
        exact ⟨_, List.mem_append_right _ (List.mem_singleton.mpr rfl), rfl, outcome⟩
      · exact (flow j x present).later follows rfl
    · exact silent j rfl (by simpa [setRequest, allow] using late)
  | went i h settled phase running admits resumed =>
    exact replaced running rfl rfl (flow_of_resumed admits follows
      (List.subset_append_right _ _) resumed (flow i h running))
  | malformed i h settled body nowSeconds running resumed decoded =>
    obtain ⟨attests, granted, rfl, fits, still⟩ := body_of_resumed resumed (flow i h running)
    have same : delivered i (past ++ [.resume i settled]) = delivered i past := by
      simp [delivered_snoc, still]
    exact replaced running rfl rfl (.malformed (granted.later follows) attests (same ▸ fits)
      (same ▸ decoded))
  | began i h settled body nowSeconds request running resumed decoded arrives =>
    obtain ⟨attests, granted, rfl, fits, still⟩ := body_of_resumed resumed (flow i h running)
    have same : delivered i (past ++ [.resume i settled]) = delivered i past := by
      simp [delivered_snoc, still]
    exact replaced running rfl rfl ⟨attests, granted.later follows, by rw [same], fits, _,
      List.getElem?_concat_length, decoded⟩
  | served event own service same delivered serves =>
    have none : ∀ i, event.chunk i = none := by
      intro i
      cases event <;> first | rfl | cases same
    exact ⟨fun i h found => (flow i h found).later follows (none i),
      fun i late => silent i (none i) late⟩
  | admittedLate | looked | moved =>
    exact ⟨fun i h found => (flow i h found).later follows rfl, fun i late => silent i rfl late⟩

theorem flow_of_run {clock : ℚ} {events : List DeploymentEvent}
    (taken : Run (step engine host rt) (.initial clock) events s) :
    ∀ (i : Nat) h, s.requests[i]? = some h → Flow engine rt events s i h := by
  refine (taken.history (fun past s =>
    (∀ (i : Nat) h, s.requests[i]? = some h → Flow engine rt past s i h) ∧
      ∀ i, s.requests.length ≤ i → delivered i past = []) ?_ ?_).1
  · exact ⟨by simp [initial], fun _ _ => rfl⟩
  · rintro past event s t - ⟨flow, quiet⟩ step
    exact (stepped_of_step step).flow flow quiet

/-- Nothing in front of the attest logic answers with a flag. -/
theorem Justified.ne_flag {request : HttpRequest} {reply : Reply}
    (justified : Justified engine rt past s i request reply) (tier : Nat) (flag : JsString) :
    reply ≠ .other (.flag tier flag) := by
  rintro rfl
  generalize same : Reply.other (.flag tier flag) = reply at justified
  cases justified with
  | immediate reply routed => rcases HttpRequest.route_error routed with rfl | rfl <;> cases same
  | failed e routed kind =>
    cases e <;> cases same
  | _ => cases same

/-- The attempt that a request has come to, with what it was asked. -/
structure Attempted (engine : Engine) (events : List DeploymentEvent) (s : Deployment) (i k : Nat)
    (a : Attempt) : Prop where
  reached : ∃ h body, s.requests[i]? = some h ∧ h.phase = .attesting body k ∧
    h.request.Attests engine.tables
  granted : s.Answered i true
  running : s.service.attempts[k]? = some a
  fits : (delivered i events).flatten.length ≤ maxBody
  decoded : decodeAttestRequest engine (delivered i events).flatten = some a.request

theorem reply_cases {clock : ℚ} {events : List DeploymentEvent} {reply : Reply}
    (taken : Run (step engine host rt) (.initial clock) events s)
    (answered : s.reply i = some reply) :
    (∃ h, s.requests[i]? = some h ∧ Justified engine rt events s i h.request reply) ∨
      ∃ k a response, Attempted engine events s i k a ∧ a.phase = .done response ∧
        reply = .other response := by
  simp only [Deployment.reply] at answered
  split at answered
  next h found =>
    have flow := flow_of_run taken i h found
    split at answered
    next reply phase =>
      cases answered
      rw [Flow, phase] at flow
      exact Or.inl ⟨h, found, flow⟩
    next body k phase =>
      rw [Flow, phase] at flow
      obtain ⟨attests, granted, rfl, fits, a, running, decoded⟩ := flow
      simp only [running] at answered
      split at answered
      next response done =>
        cases answered
        exact Or.inr ⟨k, a, response, ⟨⟨h, _, found, phase, attests⟩, granted, running, fits,
          decoded⟩, done, rfl⟩
      next => cases answered
    next => cases answered
  next => cases answered

end Deployment

/-- In every run, and however the bodies are split into chunks: each answer is given for its
reason, an attempt is made of exactly the octets delivered, and no more than 40 KiB of a body are
buffered. -/
theorem replies_justified (engine : Engine) (host : Host CryptoKey) (rt : Runtime) (clock : ℚ)
    (events : List DeploymentEvent) (s : Deployment)
    (taken : Run (Deployment.step engine host rt) (.initial clock) events s) :
    (∀ i reply, s.reply i = some reply →
      (∃ h, s.requests[i]? = some h ∧
        Deployment.Justified engine rt events s i h.request reply) ∨
      ∃ k a response, Deployment.Attempted engine events s i k a ∧ a.phase = .done response ∧
        reply = .other response) ∧
    ∀ (i : Nat) h total chunks, s.requests[i]? = some h → h.phase = .reading total chunks →
      chunks = delivered i events ∧ chunks.flatten.length ≤ maxBody := by
  refine ⟨fun i reply answered => Deployment.reply_cases taken answered, ?_⟩
  intro i h total chunks found phase
  have flow := Deployment.flow_of_run taken i h found
  rw [Deployment.Flow, phase] at flow
  obtain ⟨-, -, -, read, rfl, bound⟩ := flow
  exact ⟨read, bound⟩

namespace Sample

/-- A request to the attest route with the wrong method. -/
def misplaced : List DeploymentEvent :=
  [.request
      { method := js "GET", path := js "/v1/attest", contentType := none, hasBody := false }
      1735689610,
    .allowRequest 0, .resume 0 (.value 1735689610 (List.replicate 32 0)),
    .resume 0 (.value 1735689610 (List.replicate 32 0))]

def isWrongMethod : Reply → Bool
  | .other (.error status code) => status = 405 ∧ code = "invalid_request"
  | _ => false

theorem isWrongMethod_iff (reply : Reply) :
    isWrongMethod reply = true ↔ reply = .error 405 "invalid_request" := by
  cases reply with
  | other response =>
    cases response <;> simp [isWrongMethod, Reply.error]
  | _ => simp [isWrongMethod, Reply.error]

end Sample

theorem replies_justified_sample :
    ∃ s, Run (Deployment.step Sample.attestEngine Sample.host Sample.runtime) (.initial 1735689610)
        Sample.misplaced s ∧ s.reply 0 = some (.error 405 "invalid_request") ∧
      ((∃ h, s.requests[0]? = some h ∧ Deployment.Justified Sample.attestEngine Sample.runtime
          Sample.misplaced s 0 h.request (.error 405 "invalid_request")) ∨
        ∃ k a response, Deployment.Attempted Sample.attestEngine Sample.misplaced s 0 k a ∧
          a.phase = .done response ∧ .error 405 "invalid_request" = Reply.other response) := by
  have answered : (run (Deployment.step Sample.attestEngine Sample.host Sample.runtime)
      (.initial 1735689610) Sample.misplaced).any (fun s =>
        (s.reply 0).any Sample.isWrongMethod) = true := by decide +kernel
  cases taken : run (Deployment.step Sample.attestEngine Sample.host Sample.runtime)
      (.initial 1735689610) Sample.misplaced with
  | none => simp [taken] at answered
  | some s =>
    rw [taken, Option.any_some] at answered
    cases replied : s.reply 0 with
    | none => simp [replied] at answered
    | some reply =>
      rw [replied, Option.any_some, Sample.isWrongMethod_iff] at answered
      subst answered
      exact ⟨s, taken, replied, (replies_justified Sample.attestEngine Sample.host Sample.runtime
        1735689610 Sample.misplaced s taken).1 0 _ replied⟩

end UncrackableL5

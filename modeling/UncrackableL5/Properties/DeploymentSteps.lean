import UncrackableL5.Properties.RefreshSteps
import UncrackableL5.Properties.RefusedAttempts
import UncrackableL5.Properties.RequestBudget
import UncrackableL5.Server.Deployment

/-!
# Steps of the deployed server

What one event can do to a request, and to the server, said once.

## Main results

- `HttpState.resumed_of_resume`: the cases of a request that resumes before its attempt.
- `Deployment.stepped_of_step`: the cases of an event.
- `Deployment.service_run`, `object_run`, `budget_run`: a run of the server is a run of the attempts,
  of the object's refreshes and of the request budget.
-/
namespace UncrackableL5

open Transition

/-! ### One request -/

variable {CryptoKey : Type} {engine : Engine} {host : Host CryptoKey} {rt : Runtime}

/-- The request goes to the attest route with a body in JSON. -/
structure HttpRequest.Attests (tables : CaseTables) (request : HttpRequest) : Prop where
  path : request.path = js "/v1/attest"
  method : request.method = js "POST"
  media : mediaType tables request.contentType = js "application/json"

/-- The request asks for a challenge. -/
structure HttpRequest.AsksChallenge (request : HttpRequest) : Prop where
  path : request.path = js "/v1/challenge"
  method : request.method = js "GET"

/-- The one method of a route. -/
def HttpRequest.allowedMethod (request : HttpRequest) : JsString :=
  if request.path = js "/v1/challenge" then js "GET" else js "POST"

/-- The request awaits something before its attempt. -/
def HttpPhase.Pending : HttpPhase → Prop
  | .attesting _ _ | .replied _ | .dropped => False
  | _ => True

/-- What an await before the attempt can lead to, with the conditions under which it does. -/
inductive HttpState.Resumed (tables : CaseTables) (rt : Runtime) (h : HttpState) :
    HttpSettled → HttpNext → Prop where
  | lost (pending : h.phase.Pending) : Resumed tables rt h .lost (.phase .dropped)
  | failed (settled : HttpSettled) (e : Exception) (pending : h.phase.Pending)
      (kind : e = .unavailable ∨ e = .error "Error") :
      Resumed tables rt h settled (.phase (.replied (.other (errorResponse e))))
  | admitted (now : Int) (nonce : Bytes) (phase : h.phase = .admitted (.ok true)) :
      Resumed tables rt h (.value now nonce) (.phase .configuring)
  | limited (now : Int) (nonce : Bytes) (phase : h.phase = .admitted (.ok false)) :
      Resumed tables rt h (.value now nonce) (.phase (.replied (.error 429 "rate_limited")))
  | wrongMethod (now : Int) (nonce : Bytes) (phase : h.phase = .configuring)
      (wrong : h.request.method ≠ h.request.allowedMethod) :
      Resumed tables rt h (.value now nonce) (.phase (.replied (.error 405 "invalid_request")))
  | wrongMedia (now : Int) (nonce : Bytes) (phase : h.phase = .configuring)
      (path : h.request.path ≠ js "/v1/challenge") (method : h.request.method = js "POST")
      (wrong : mediaType tables h.request.contentType ≠ js "application/json") :
      Resumed tables rt h (.value now nonce) (.phase (.replied (.error 415 "invalid_request")))
  | issues (now : Int) (nonce : Bytes) (phase : h.phase = .configuring)
      (asks : h.request.AsksChallenge) :
      Resumed tables rt h (.value now nonce) (.phase (.issuing nonce now))
  | bodiless (now : Int) (nonce : Bytes) (phase : h.phase = .configuring)
      (path : h.request.path ≠ js "/v1/challenge") (method : h.request.method = js "POST")
      (media : mediaType tables h.request.contentType = js "application/json") :
      Resumed tables rt h (.value now nonce) (.body [] now)
  | reads (now : Int) (nonce : Bytes) (phase : h.phase = .configuring)
      (path : h.request.path ≠ js "/v1/challenge") (method : h.request.method = js "POST")
      (media : mediaType tables h.request.contentType = js "application/json") :
      Resumed tables rt h (.value now nonce) (.phase (.reading 0 []))
  | issued (issuedAt : Int) (drawn nonce : Bytes) (now : Int)
      (phase : h.phase = .issuing drawn issuedAt) :
      Resumed tables rt h (.value now nonce)
        (.phase (.replied (.challenge (rt.challenges.issue drawn issuedAt) 120)))
  | tooLarge (total : Nat) (chunks : List Bytes) (value : Bytes)
      (phase : h.phase = .reading total chunks) (large : total + value.length > maxBody) :
      Resumed tables rt h (.chunk value) (.phase .cancelling)
  | chunk (total : Nat) (chunks : List Bytes) (value : Bytes)
      (phase : h.phase = .reading total chunks) (fits : total + value.length ≤ maxBody) :
      Resumed tables rt h (.chunk value)
        (.phase (.reading (total + value.length) (chunks ++ [value])))
  | finished (total : Nat) (chunks : List Bytes) (now : Int)
      (phase : h.phase = .reading total chunks) :
      Resumed tables rt h (.finished now) (.body chunks.flatten now)
  | cancelled (now : Int) (nonce : Bytes) (phase : h.phase = .cancelling) :
      Resumed tables rt h (.value now nonce) (.phase (.replied (.error 413 "request_too_large")))

/-- A request resumes only where it awaits something. -/
theorem HttpState.Resumed.pending {tables : CaseTables} {h : HttpState} {settled : HttpSettled}
    {next : HttpNext} (resumed : h.Resumed tables rt settled next) : h.phase.Pending := by
  cases resumed with
  | lost pending => exact pending
  | failed _ _ pending => exact pending
  | _ =>
    rw [‹h.phase = _›]
    trivial

private theorem pending_of_ne {phase : HttpPhase} (attesting : ∀ body k, phase ≠ .attesting body k)
    (replied : ∀ reply, phase ≠ .replied reply) (dropped : phase ≠ .dropped) : phase.Pending := by
  cases phase with
  | attesting body k => exact absurd rfl (attesting body k)
  | replied reply => exact absurd rfl (replied reply)
  | dropped => exact absurd rfl dropped
  | _ => trivial

private theorem resumed_of_dispatch {tables : CaseTables} {h : HttpState} {now : Int}
    {nonce : Bytes} (phase : h.phase = .configuring) :
    h.Resumed tables rt (.value now nonce) (h.request.dispatch tables now nonce) := by
  rw [HttpRequest.dispatch]
  split
  next path =>
    have allowed : h.request.allowedMethod = js "GET" := if_pos path
    split
    next method => exact .wrongMethod now nonce phase (allowed ▸ method)
    next method => exact .issues now nonce phase ⟨path, not_not.mp method⟩
  next path =>
    have allowed : h.request.allowedMethod = js "POST" := if_neg path
    split
    next method => exact .wrongMethod now nonce phase (allowed ▸ method)
    next method =>
      rw [not_not] at method
      split
      next media => exact .wrongMedia now nonce phase path method media
      next media =>
        rw [not_not] at media
        split
        next => exact .bodiless now nonce phase path method media
        next => exact .reads now nonce phase path method media

theorem HttpState.resumed_of_resume {tables : CaseTables} {h : HttpState} {settled : HttpSettled}
    {next : HttpNext} (resumed : h.resume tables rt settled = some next) :
    h.Resumed tables rt settled next := by
  simp only [HttpState.resume] at resumed
  split at resumed
  next => cases resumed
  next => cases resumed
  next => cases resumed
  next attesting replied dropped =>
    cases resumed
    exact .lost (pending_of_ne attesting replied dropped)
  next outcome now nonce phase =>
    split at resumed
    next =>
      cases resumed
      exact .admitted now nonce phase
    next =>
      cases resumed
      exact .limited now nonce phase
    next =>
      cases resumed
      exact .failed _ _ (phase ▸ trivial) (Or.inl rfl)
  next now nonce phase =>
    cases resumed
    exact resumed_of_dispatch phase
  next drawn issuedAt now nonce phase =>
    cases resumed
    exact .issued issuedAt drawn nonce now phase
  next total chunks value phase =>
    split at resumed
    next large =>
      cases resumed
      exact .tooLarge total chunks value phase large
    next fits =>
      cases resumed
      exact .chunk total chunks value phase (Nat.le_of_not_lt fits)
  next total chunks now phase =>
    cases resumed
    exact .finished total chunks now phase
  next now nonce phase =>
    cases resumed
    exact .cancelled now nonce phase
  -- Every failure is answered, and no other pair of phase and value can meet.
  all_goals
    first
    | cases resumed; exact .failed _ _ (by rw [‹h.phase = _›]; trivial) (Or.inl rfl)
    | cases resumed; exact .failed _ _ (by rw [‹h.phase = _›]; trivial) (Or.inr rfl)
    | cases resumed

/-! ### The server -/

/-- The attempts' part of an event. -/
def DeploymentEvent.service : DeploymentEvent → Option ServiceEvent
  | .tick clock => some (.tick clock)
  | .attest k settled => some (.resume k settled)
  | .consume k => some (.consume k)
  | .consumeLate id expiresAt nowSeconds => some (.call id expiresAt nowSeconds)
  | _ => none

namespace Deployment

/-- The challenge that a reply carries, with its request. -/
def sentBy (i : Nat) : HttpPhase → List (Nat × JsString)
  | .replied (.challenge challenge _) => [(i, challenge)]
  | _ => []

/-- How a request starts: it is answered at once, or asks the object. -/
inductive Entered (s : Deployment) (request : HttpRequest) (nowSeconds : Int) : HttpPhase → Prop
  where
  | answered (reply : Reply) (routed : request.route = .error reply) :
      Entered s request nowSeconds (.replied reply)
  | routed (route : Route) (routed : request.route = .ok route)
      (reads : s.service.Reads nowSeconds) :
      Entered s request nowSeconds (.admitting nowSeconds)

/-- What one event can do, with the conditions under which it does it. -/
inductive Stepped (engine : Engine) (host : Host CryptoKey) (rt : Runtime) (s : Deployment) :
    DeploymentEvent → Deployment → Prop where
  | arrived (request : HttpRequest) (nowSeconds : Int) (phase : HttpPhase)
      (entered : s.Entered request nowSeconds phase) :
      Stepped engine host rt s (.request request nowSeconds)
        { s with requests := s.requests ++ [{ request := request, phase := phase }] }
  | admitted (i : Nat) (h : HttpState) (nowSeconds : Int) (running : s.requests[i]? = some h)
      (phase : h.phase = .admitting nowSeconds) :
      Stepped engine host rt s (.allowRequest i)
        ((s.allow (some i) nowSeconds).setRequest i h
          (.admitted (allowRequest s.budget nowSeconds).1))
  | admittedLate (nowSeconds : Int) (stamped : s.service.Stamped nowSeconds) :
      Stepped engine host rt s (.allowLate nowSeconds) (s.allow none nowSeconds)
  | went (i : Nat) (h : HttpState) (settled : HttpSettled) (phase : HttpPhase)
      (running : s.requests[i]? = some h) (admits : s.admits settled = true)
      (resumed : h.Resumed engine.tables rt settled (.phase phase)) :
      Stepped engine host rt s (.resume i settled)
        { s.setRequest i h phase with sent := s.sent ++ sentBy i phase }
  | malformed (i : Nat) (h : HttpState) (settled : HttpSettled) (body : Bytes) (nowSeconds : Int)
      (running : s.requests[i]? = some h)
      (resumed : h.Resumed engine.tables rt settled (.body body nowSeconds))
      (decoded : decodeAttestRequest engine body = none) :
      Stepped engine host rt s (.resume i settled)
        (s.setRequest i h (.replied (.error 400 "invalid_request")))
  | began (i : Nat) (h : HttpState) (settled : HttpSettled) (body : Bytes) (nowSeconds : Int)
      (request : AttestRequest) (running : s.requests[i]? = some h)
      (resumed : h.Resumed engine.tables rt settled (.body body nowSeconds))
      (decoded : decodeAttestRequest engine body = some request)
      (arrives : s.service.step engine host rt (.arrive body nowSeconds) = some { s.service with
        attempts := s.service.attempts ++
          [{ request := request, phase := .verifying nowSeconds }] }) :
      Stepped engine host rt s (.resume i settled)
        { s.setRequest i h (.attesting body s.service.attempts.length) with
          service := { s.service with
            attempts := s.service.attempts ++
              [{ request := request, phase := .verifying nowSeconds }] } }
  | served (event : DeploymentEvent) (serviceEvent : ServiceEvent) (service : Service)
      (same : event.service = some serviceEvent)
      (delivered : ∀ k settled, event = .attest k settled → s.delivers k settled = true)
      (serves : s.service.step engine host rt serviceEvent = some service) :
      Stepped engine host rt s event { s with service := service }
  | looked (k : Nat) (a : Attempt) (bytes : Bytes) (nowSeconds : Int) (object : Object)
      (running : s.service.attempts[k]? = some a) (phase : a.phase = .lookingUp bytes nowSeconds)
      (moves : s.object.step engine (.revocations nowSeconds) = some object) :
      Stepped engine host rt s (.lookup k)
        { s with
          object := object
          lookups := Function.update s.lookups k (some (lookupOf s.object object)) }
  | moved (event : Event) (object : Object) (timely : s.timely event = true)
      (moves : s.object.step engine event = some object) :
      Stepped engine host rt s (.object event)
        { s with object := object, lookups := returned s.lookups event object }

variable {s t : Deployment}

private theorem stepped_of_served {event : DeploymentEvent} {serviceEvent : ServiceEvent}
    (same : event.service = some serviceEvent)
    (delivered : ∀ k settled, event = .attest k settled → s.delivers k settled = true)
    (taken : (s.service.step engine host rt serviceEvent).map
      (fun service => { s with service := service }) = some t) :
    Stepped engine host rt s event t := by
  obtain ⟨service, serves, rfl⟩ := Option.map_eq_some_iff.mp taken
  exact .served event serviceEvent service same delivered serves

private theorem stepped_of_proceed {i : Nat} {h : HttpState} {settled : HttpSettled}
    {next : HttpNext} (running : s.requests[i]? = some h) (admits : s.admits settled = true)
    (resumed : h.Resumed engine.tables rt settled next)
    (taken : s.proceed engine host rt i h next = some t) :
    Stepped engine host rt s (.resume i settled) t := by
  cases next with
  | phase phase =>
    simp only [proceed, Option.some.injEq] at taken
    subst taken
    exact .went i h settled phase running admits resumed
  | body body nowSeconds =>
    simp only [proceed] at taken
    split at taken
    next decoded =>
      cases taken
      exact .malformed i h settled body nowSeconds running resumed decoded
    next request decoded =>
      obtain ⟨service, arrives, rfl⟩ := Option.map_eq_some_iff.mp taken
      have arrived := arrives
      simp only [Service.step, decoded] at arrived
      split at arrived
      next =>
        cases arrived
        exact .began i h settled body nowSeconds request running resumed decoded arrives
      next => cases arrived

theorem stepped_of_step {event : DeploymentEvent}
    (taken : s.step engine host rt event = some t) : Stepped engine host rt s event t := by
  cases event with
  | tick clock => exact stepped_of_served rfl (by simp) taken
  | consume k => exact stepped_of_served rfl (by simp) taken
  | consumeLate id expiresAt nowSeconds => exact stepped_of_served rfl (by simp) taken
  | attest k settled =>
    simp only [step] at taken
    split at taken
    next delivered =>
      refine stepped_of_served rfl ?_ taken
      rintro _ _ ⟨⟩
      exact delivered
    next => cases taken
  | request request nowSeconds =>
    simp only [step] at taken
    split at taken
    next reply routed =>
      cases taken
      exact .arrived request nowSeconds _ (.answered reply routed)
    next route routed =>
      split at taken
      next reads =>
        cases taken
        exact .arrived request nowSeconds _ (.routed route routed reads)
      next => cases taken
  | allowRequest i =>
    simp only [step] at taken
    split at taken
    next h running =>
      split at taken
      next nowSeconds phase =>
        cases taken
        exact .admitted i h nowSeconds running phase
      next => cases taken
    next => cases taken
  | allowLate nowSeconds =>
    simp only [step] at taken
    split at taken
    next stamped =>
      cases taken
      exact .admittedLate nowSeconds stamped
    next => cases taken
  | resume i settled =>
    simp only [step] at taken
    split at taken
    next h running =>
      split at taken
      next admits =>
        obtain ⟨next, resumed, proceeds⟩ := Option.bind_eq_some_iff.mp taken
        exact stepped_of_proceed running admits (HttpState.resumed_of_resume resumed) proceeds
      next => cases taken
    next => cases taken
  | lookup k =>
    simp only [step] at taken
    split at taken
    next a running unasked =>
      split at taken
      next bytes nowSeconds phase =>
        obtain ⟨object, moves, rfl⟩ := Option.map_eq_some_iff.mp taken
        exact .looked k a bytes nowSeconds object running phase moves
      next => cases taken
    next => cases taken
  | object event =>
    simp only [step] at taken
    split at taken
    next timely =>
      obtain ⟨object, moves, rfl⟩ := Option.map_eq_some_iff.mp taken
      exact .moved event object timely moves
    next => cases taken

theorem Stepped.service_eq {event : DeploymentEvent}
    (taken : Stepped engine host rt s event t) :
    t.service = s.service ∨
      ∃ own, s.service.step engine host rt own = some t.service := by
  cases taken with
  | began i h settled body nowSeconds request running resumed decoded arrives =>
    exact Or.inr ⟨_, arrives⟩
  | served _ own service same delivered serves => exact Or.inr ⟨own, serves⟩
  | _ => exact Or.inl rfl

/-- What an event does to attempt `k`. -/
inductive Moves (engine : Engine) (host : Host CryptoKey) (rt : Runtime) (s : Deployment) (k : Nat)
    (a : Attempt) : DeploymentEvent → Attempt → Prop where
  | stays (event : DeploymentEvent) : Moves engine host rt s k a event a
  | resumes (settled : Settled) (phase : AttestPhase) (delivered : s.delivers k settled = true)
      (admitted : s.service.admits settled = true)
      (resumed : a.Resumed engine host rt settled phase) :
      Moves engine host rt s k a (.attest k settled) { a with phase := phase }
  | consumes (bytes : Bytes) (id : JsString) (expiresAt : Number) (nowSeconds : Int)
      (phase : a.phase = .consuming bytes id expiresAt nowSeconds) :
      Moves engine host rt s k a (.consume k) { a with
        phase := .consumed bytes
          (UncrackableL5.consume s.service.used id expiresAt nowSeconds).1 }

theorem Moves.request {k : Nat} {a b : Attempt} {event : DeploymentEvent}
    (moves : Moves engine host rt s k a event b) : b.request = a.request := by
  cases moves with
  | stays | resumes | consumes => rfl

private theorem moves_of_served {event : DeploymentEvent} {serviceEvent : ServiceEvent}
    {service : Service} {k : Nat} {b : Attempt} (same : event.service = some serviceEvent)
    (delivered : ∀ k settled, event = .attest k settled → s.delivers k settled = true)
    (serves : Service.Stepped engine host rt s.service serviceEvent service)
    (found : service.attempts[k]? = some b) :
    ∃ a, s.service.attempts[k]? = some a ∧ Moves engine host rt s k a event b := by
  cases serves with
  | ticked | called => exact ⟨b, found, .stays event⟩
  | refused => exact ⟨b, found, .stays event⟩
  | arrived body nowSeconds => cases event <;> cases same
  | resumed j a settled phase running admitted resumed =>
    obtain rfl : event = .attest j settled := by
      cases event <;> cases same
      rfl
    rcases lookup_set found with ⟨rfl, rfl⟩ | ⟨other, present⟩
    · exact ⟨a, running, .resumes settled phase (delivered _ _ rfl) admitted resumed⟩
    · exact ⟨b, present, .stays _⟩
  | consumed j a bytes id expiresAt nowSeconds running phase =>
    obtain rfl : event = .consume j := by
      cases event <;> cases same
      rfl
    rcases lookup_set found with ⟨rfl, rfl⟩ | ⟨other, present⟩
    · exact ⟨a, running, .consumes bytes id expiresAt nowSeconds phase⟩
    · exact ⟨b, present, .stays _⟩

/-- An attempt is there because it has just begun or because it was there before. -/
theorem Stepped.moves {event : DeploymentEvent} (taken : Stepped engine host rt s event t) {k : Nat}
    {b : Attempt} (found : t.service.attempts[k]? = some b) :
    (∃ nowSeconds, b.phase = .verifying nowSeconds) ∨
      ∃ a, s.service.attempts[k]? = some a ∧ Moves engine host rt s k a event b := by
  cases taken with
  | began i h settled body nowSeconds request running resumed decoded arrives =>
    rcases lookup_append found with rfl | old
    · exact Or.inl ⟨nowSeconds, rfl⟩
    · exact Or.inr ⟨b, old, .stays _⟩
  | served _ own service same delivered serves =>
    exact Or.inr (moves_of_served same delivered (Service.stepped_of_step serves) found)
  | _ => exact Or.inr ⟨b, found, .stays _⟩

/-- No attempt disappears or changes what it was asked. -/
theorem Stepped.attempt_remains {event : DeploymentEvent} (taken : Stepped engine host rt s event t)
    {k : Nat} {a : Attempt} (found : s.service.attempts[k]? = some a) :
    ∃ b, t.service.attempts[k]? = some b ∧ b.request = a.request := by
  rcases taken.service_eq with same | ⟨own, serves⟩
  · exact ⟨a, same ▸ found, rfl⟩
  · obtain ⟨b, there, moves⟩ := (Service.stepped_of_step serves).remains found
    refine ⟨b, there, ?_⟩
    cases moves with
    | stays | resumes | consumes => rfl

/-! ### Parts of a run -/

variable {event : DeploymentEvent}

theorem Stepped.object_eq (taken : Stepped engine host rt s event t) :
    t.object = s.object ∨ ∃ own, s.object.step engine own = some t.object := by
  cases taken with
  | looked k a bytes nowSeconds object running phase moves => exact Or.inr ⟨_, moves⟩
  | moved own object timely moves => exact Or.inr ⟨own, moves⟩
  | _ => exact Or.inl rfl

/-- The object runs at most one `allowRequest` call in an event, with a reading not ahead of the
clocks. -/
theorem Stepped.budget_eq (taken : Stepped engine host rt s event t) :
    (t.budget = s.budget ∧ t.admissions = s.admissions) ∨
      ∃ request, ∃ nowSeconds : Int, t.budget = (s.allow request nowSeconds).budget ∧
        t.admissions = (s.allow request nowSeconds).admissions ∧
        (s.service.Stamped nowSeconds ∨ ∃ i h, request = some i ∧ s.requests[i]? = some h ∧
          h.phase = .admitting nowSeconds) := by
  cases taken with
  | admitted i h nowSeconds running phase =>
    exact Or.inr ⟨some i, nowSeconds, rfl, rfl, Or.inr ⟨i, h, rfl, running, phase⟩⟩
  | admittedLate nowSeconds stamped => exact Or.inr ⟨none, nowSeconds, rfl, rfl, Or.inl stamped⟩
  | _ => exact Or.inl ⟨rfl, rfl⟩

end Deployment

/-- The call as the request budget sees it. -/
def Admission.call (a : Admission) : BudgetCall where
  nowSeconds := (a.nowSeconds : Number)
  answer := a.answer

namespace Deployment

variable {s : Deployment} {clock : ℚ} {events : List DeploymentEvent}

theorem service_run (taken : Run (step engine host rt) (.initial clock) events s) :
    ∃ own, Run (Service.step engine host rt) (.initial clock []) own s.service :=
  taken.project Deployment.service fun _ _ _ step => (stepped_of_step step).service_eq

theorem object_run (taken : Run (step engine host rt) (.initial clock) events s) :
    ∃ own, Run (Object.step engine) .initial own s.object :=
  taken.project Deployment.object fun _ _ _ step => (stepped_of_step step).object_eq

theorem budget_run (taken : Run (step engine host rt) (.initial clock) events s) :
    Run budgetStep [] (s.admissions.map Admission.call) s.budget := by
  refine taken.invariant
    (fun s => Run budgetStep [] (s.admissions.map Admission.call) s.budget) ?_
    ((run_nil _ _).mpr rfl)
  intro s event t calls step
  rcases (stepped_of_step step).budget_eq with ⟨budget, admissions⟩ | ⟨_, _, budget, admissions, -⟩
  · rw [budget, admissions]
    exact calls
  · rw [budget, admissions]
    simp only [allow, List.map_append, List.map_cons, List.map_nil]
    exact (run_snoc _ _ _ _).mpr ⟨s.budget, calls, by simp [budgetStep, Admission.call]⟩

end Deployment

end UncrackableL5

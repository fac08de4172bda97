import UncrackableL5.Properties.Configuration
import UncrackableL5.Properties.RequestFlow
import UncrackableL5.Properties.SnapshotFreshness

/-!
# Genuine clients

A schedule that serves one request: every call runs as soon as it is made and every await settles
at once. Whatever else the server has under way, no other request needs to move.

## Main results

- `Deployment.run_front`, `Deployment.run_attempt`: from the arrival of a request to its attempt, and
  from there to the flag.
- `genuine_client_served`: from every reachable state, a valid request can be answered with the
  flag.
-/
namespace UncrackableL5

open Transition
open Challenges (expiresAtSeconds)

variable {CryptoKey : Type} {engine : Engine} {host : Host CryptoKey} {rt : Runtime}

namespace Deployment

variable {s t : Deployment}

/-! ### In front of the attempt -/

/-- One request more. -/
def enter (s : Deployment) (request : HttpRequest) (phase : HttpPhase) : Deployment :=
  { s with requests := s.requests ++ [{ request := request, phase := phase }] }

@[simp] theorem enter_service (s : Deployment) (request : HttpRequest) (phase : HttpPhase) :
    (s.enter request phase).service = s.service := rfl

@[simp] theorem lookup_enter (s : Deployment) (request : HttpRequest) (phase : HttpPhase) :
    (s.enter request phase).requests[s.requests.length]? =
      some { request := request, phase := phase } := by
  simp [enter]

@[simp] theorem setRequest_enter (s : Deployment) (request : HttpRequest) (first second : HttpPhase) :
    (s.enter request first).setRequest s.requests.length
      { request := request, phase := first } second = s.enter request second := by
  simp [enter, setRequest]

/-- The last request moves to another phase that carries no challenge. -/
private theorem run_enter {request : HttpRequest} {now next : HttpPhase} {settled : HttpSettled}
    {events : List DeploymentEvent} (admits : s.admits settled = true)
    (resumed : HttpState.resume engine.tables rt { request := request, phase := now } settled =
      some (.phase next))
    (silent : ∀ challenge expiresIn, next ≠ .replied (.challenge challenge expiresIn))
    (rest : Run (step engine host rt) (s.enter request next) events t) :
    Run (step engine host rt) (s.enter request now)
      (.resume s.requests.length settled :: events) t := by
  refine (run_cons _ _ _ _).mpr ⟨s.enter request next, ?_, rest⟩
  have admits : (s.enter request now).admits settled = true := admits
  -- a phase without a challenge adds nothing to the sent ones
  simp only [step, lookup_enter, admits, resumed, ↓reduceIte, Option.bind_some, proceed,
    setRequest_enter]
  simp [enter]

/-- The object runs the call of a new request at once, and grants it. -/
private theorem run_admit {request : HttpRequest} {route : Route} {nowSeconds : Int}
    {events : List DeploymentEvent} (routed : request.route = .ok route)
    (reads : s.service.Reads nowSeconds)
    (allowed : (allowRequest s.budget nowSeconds).1 = .ok true)
    (rest : Run (step engine host rt)
      ((s.allow (some s.requests.length) nowSeconds).enter request (.admitted (.ok true))) events t) :
    Run (step engine host rt) s (.request request nowSeconds :: .allowRequest s.requests.length :: events)
      t := by
  refine (run_cons _ _ _ _).mpr ⟨s.enter request (.admitting nowSeconds), ?_, ?_⟩
  · simp only [step, routed, if_pos reads]
    rfl
  refine (run_cons _ _ _ _).mpr ⟨_, ?_, rest⟩
  simp only [step, lookup_enter]
  simp [enter, setRequest, allow, allowed]

/-- The events of a request for a challenge, up to its reply. -/
def challengeEvents (i : Nat) (request : HttpRequest) (nowSeconds : Int) (nonce : Bytes) :
    List DeploymentEvent :=
  [.request request nowSeconds, .allowRequest i, .resume i (.value nowSeconds nonce),
    .resume i (.value nowSeconds nonce), .resume i (.value nowSeconds nonce)]

theorem run_challenge (s : Deployment) {request : HttpRequest} {nowSeconds : Int} {nonce : Bytes}
    (asks : request.AsksChallenge) (reads : s.service.Reads nowSeconds) (random : nonce.length = 32)
    (allowed : (allowRequest s.budget nowSeconds).1 = .ok true) :
    Run (step engine host rt) s (challengeEvents s.requests.length request nowSeconds nonce)
      { (s.allow (some s.requests.length) nowSeconds).enter request
          (.replied (.challenge (rt.challenges.issue nonce nowSeconds) 120)) with
        sent := s.sent ++ [(s.requests.length, rt.challenges.issue nonce nowSeconds)] } := by
  have routed : request.route = .ok .challenge := by
    rw [HttpRequest.route, asks.path]
    rfl
  have dispatched : HttpState.resume engine.tables rt
      { request := request, phase := .configuring } (.value nowSeconds nonce) =
      some (.phase (.issuing nonce nowSeconds)) := by
    simp [HttpState.resume, HttpRequest.dispatch, asks.path, asks.method]
  let admitted := s.allow (some s.requests.length) nowSeconds
  have admits : admitted.admits (.value nowSeconds nonce) = true := decide_eq_true ⟨reads, random⟩
  apply run_admit routed reads allowed
  apply run_enter (s := admitted) admits rfl (by simp)
  apply run_enter (s := admitted) admits dispatched (by simp)
  refine (run_cons _ _ _ _).mpr ⟨_, ?_, (run_nil _ _).mpr rfl⟩
  have running := lookup_enter admitted request (.issuing nonce nowSeconds)
  have replaced := setRequest_enter admitted request (.issuing nonce nowSeconds)
    (.replied (.challenge (rt.challenges.issue nonce nowSeconds) 120))
  have admits : (admitted.enter request (.issuing nonce nowSeconds)).admits
      (.value nowSeconds nonce) = true := admits
  change step engine host rt (admitted.enter request (.issuing nonce nowSeconds))
    (.resume admitted.requests.length (.value nowSeconds nonce)) = _
  simp only [step, running, admits, HttpState.resume, ↓reduceIte, Option.bind_some, proceed, replaced]
  rfl

/-- A body within the bound is read to its end, whatever its chunks are. -/
private theorem run_chunks {request : HttpRequest} {events : List DeploymentEvent}
    (chunks read : List Bytes) (total : Nat) (fits : total + chunks.flatten.length ≤ maxBody)
    (rest : Run (step engine host rt)
      (s.enter request (.reading (total + chunks.flatten.length) (read ++ chunks))) events t) :
    Run (step engine host rt) (s.enter request (.reading total read))
      (chunks.map (fun chunk => .resume s.requests.length (.chunk chunk)) ++ events) t := by
  induction chunks generalizing total read with
  | nil => simpa using rest
  | cons chunk chunks ih =>
    simp only [List.flatten_cons, List.length_append] at fits rest
    have small : ¬total + chunk.length > maxBody := by omega
    apply run_enter rfl (by simp only [HttpState.resume, if_neg small]; rfl) (by simp)
    apply ih (read ++ [chunk]) (total + chunk.length) (by omega)
    simpa [Nat.add_assoc] using rest

/-- The events of a request up to its attempt. -/
def frontEvents (i : Nat) (request : HttpRequest) (chunks : List Bytes) (nowSeconds : Int)
    (nonce : Bytes) : List DeploymentEvent :=
  [.request request nowSeconds, .allowRequest i, .resume i (.value nowSeconds nonce),
    .resume i (.value nowSeconds nonce)] ++
    (chunks.map (fun chunk => .resume i (.chunk chunk)) ++ [.resume i (.finished nowSeconds)])

/-- The request has come to its attempt. -/
def began (s : Deployment) (request : HttpRequest) (body : Bytes) (attest : AttestRequest)
    (nowSeconds : Int) : Deployment :=
  { (s.allow (some s.requests.length) nowSeconds).enter request
      (.attesting body s.service.attempts.length) with
    service := { s.service with
      attempts := s.service.attempts ++ [{ request := attest, phase := .verifying nowSeconds }] } }

theorem run_front (s : Deployment) {request : HttpRequest} {chunks : List Bytes}
    {attest : AttestRequest} {nowSeconds : Int} {nonce : Bytes}
    (attests : request.Attests engine.tables) (hasBody : request.hasBody = true)
    (fits : chunks.flatten.length ≤ maxBody)
    (decoded : decodeAttestRequest engine chunks.flatten = some attest)
    (reads : s.service.Reads nowSeconds) (random : nonce.length = 32)
    (allowed : (allowRequest s.budget nowSeconds).1 = .ok true) :
    Run (step engine host rt) s (frontEvents s.requests.length request chunks nowSeconds nonce)
      (s.began request chunks.flatten attest nowSeconds) := by
  have path := attests.path
  have other : request.path ≠ js "/v1/challenge" := by
    rw [path]
    decide
  have routed : request.route = .ok .attest := by
    rw [HttpRequest.route, path]
    rfl
  have dispatched : HttpState.resume engine.tables rt
      { request := request, phase := .configuring } (.value nowSeconds nonce) =
      some (.phase (.reading 0 [])) := by
    simp [HttpState.resume, HttpRequest.dispatch, other, attests.method, attests.media, hasBody]
  let admitted := s.allow (some s.requests.length) nowSeconds
  have admits : admitted.admits (.value nowSeconds nonce) = true :=
    decide_eq_true ⟨reads, random⟩
  have arrives : s.service.step engine host rt (.arrive chunks.flatten nowSeconds) =
      some { s.service with
        attempts := s.service.attempts ++
          [{ request := attest, phase := .verifying nowSeconds }] } := by
    simp only [Service.step, if_pos reads, decoded]
  apply run_admit routed reads allowed
  apply run_enter (s := admitted) admits rfl (by simp)
  apply run_enter (s := admitted) admits dispatched (by simp)
  apply run_chunks (s := admitted) chunks [] 0 (by omega)
  -- the body has ended
  let read := HttpPhase.reading (0 + chunks.flatten.length) ([] ++ chunks)
  have running : (admitted.enter request read).requests[s.requests.length]? =
      some { request := request, phase := read } := lookup_enter admitted request read
  have finishes : (admitted.enter request read).admits (.finished nowSeconds) = true :=
    decide_eq_true reads
  have replaced : (admitted.enter request read).setRequest s.requests.length
      { request := request, phase := read } (.attesting chunks.flatten s.service.attempts.length) =
      admitted.enter request (.attesting chunks.flatten s.service.attempts.length) :=
    setRequest_enter admitted request _ _
  have proceeds : (admitted.enter request read).proceed engine host rt s.requests.length
      { request := request, phase := read } (.body chunks.flatten nowSeconds) =
      some (s.began request chunks.flatten attest nowSeconds) := by
    simp only [proceed, decoded]
    have service : (admitted.enter request read).service = s.service := rfl
    rw [service, replaced, arrives]
    rfl
  refine (run_cons _ _ _ _).mpr ⟨_, ?_, (run_nil _ _).mpr rfl⟩
  simp only [step]
  rw [running]
  dsimp only
  rw [if_pos finishes]
  exact proceeds

/-! ### The attempt -/

/-- An event of the attempts is one of the server when the object has delivered what it needs. -/
private theorem step_served {event : DeploymentEvent} {own : ServiceEvent} {service : Service}
    (same : event.service = some own)
    (delivered : ∀ k settled, event = .attest k settled → s.delivers k settled = true)
    (serves : s.service.step engine host rt own = some service) :
    s.step engine host rt event = some { s with service := service } := by
  cases event with
  | tick | consume | consumeLate =>
    cases same
    simp only [step, serves, Option.map_some]
  | attest k settled =>
    cases same
    simp only [step, delivered k settled rfl, serves, ↓reduceIte, Option.map_some]
  | _ => cases same

private theorem run_served {events : List DeploymentEvent} {own : List ServiceEvent}
    {service : Service} (same : List.Forall₂ (fun event e => event.service = some e) events own)
    (readings : ∀ k settled, .attest k settled ∈ events → ∃ now, settled = .value now)
    (taken : Run (Service.step engine host rt) s.service own service) :
    Run (step engine host rt) s events { s with service := service } := by
  induction same generalizing s with
  | nil =>
    obtain rfl := (run_nil _ _).mp taken
    exact (run_nil _ _).mpr rfl
  | cons first rest ih =>
    obtain ⟨middle, serves, later⟩ := (run_cons _ _ _ _).mp taken
    refine (run_cons _ _ _ _).mpr ⟨{ s with service := middle }, ?_, ?_⟩
    · apply step_served first ?_ serves
      rintro k settled rfl
      obtain ⟨now, rfl⟩ := readings k settled List.mem_cons_self
      rfl
    · exact ih (s := { s with service := middle })
        (fun k settled member => readings k settled (List.mem_cons_of_mem _ member)) later

/-- The awaits of attempt `k`, all at one reading of the clock, with its calls to the object. -/
def attemptEvents (k : Nat) (nowSeconds : Int) (view : RevocationView) (nowMs : Number) :
    List DeploymentEvent :=
  [.attest k (.value nowSeconds), .lookup k, .attest k (.view view nowMs),
    .attest k (.value nowSeconds), .attest k (.value nowSeconds), .attest k (.value nowSeconds),
    .consume k, .attest k (.value nowSeconds), .attest k (.value nowSeconds)]

/-- The attempt has been answered with the flag; the row and the list are as the calls left them. -/
def served (engine : Engine) (rt : Runtime) (s : Deployment) (k : Nat) (attest : AttestRequest)
    (bytes : Bytes) (nowSeconds : Int) (outcome : RevocationView × SnapshotStore) : Deployment :=
  { s with
    service := { s.service with
      used := (UncrackableL5.consume s.service.used (Challenges.id engine.sha256 bytes)
        (expiresAtSeconds bytes) nowSeconds).2
      attempts := s.service.attempts.set k { request := attest, phase := .done (.flag 2 rt.flag) } }
    object := s.object.reply nowSeconds outcome
    lookups := Function.update s.lookups k (some (.answered nowSeconds outcome.1)) }

theorem run_attempt (s : Deployment) (k : Nat) {attest : AttestRequest} {nowSeconds : Int}
    {outcome : RevocationView × SnapshotStore} {serials : List JsString} {nowMs : Number}
    {bytes : Bytes}
    (running : s.service.attempts[k]? = some { request := attest, phase := .verifying nowSeconds })
    (unasked : s.lookups k = none) (reads : s.service.Reads nowSeconds)
    (readsMs : s.service.ReadsMs nowMs)
    (accepts : rt.challenges.Accepts attest.challenge nowSeconds bytes)
    (live : revocationsStart s.object.store nowSeconds = some outcome)
    (fresh : outcome.1.serials = some serials)
    (genuine : rt.verifier.verify host attest bytes serials nowMs = .ok 2)
    (unused : (UncrackableL5.consume s.service.used (Challenges.id engine.sha256 bytes)
      (expiresAtSeconds bytes) nowSeconds).1 = .ok true) :
    Run (step engine host rt) s (attemptEvents k nowSeconds outcome.1 nowMs)
      (s.served engine rt k attest bytes nowSeconds outcome) := by
  have verified := (rt.challenges.verify_eq_ok_iff _ _ _).mpr accepts
  have taken : Run (Service.step engine host rt) s.service _ _ :=
    Service.run_undisturbed s.service k attest nowSeconds outcome.1 serials nowMs bytes running reads
      accepts fresh genuine unused
  obtain ⟨asking, first, rest⟩ := (run_cons _ _ _ _).mp taken
  obtain ⟨informed, second, rest⟩ := (run_cons _ _ _ _).mp rest
  -- after its first check the attempt asks for the list
  have asked : asking = s.service.setPhase k
      { request := attest, phase := .verifying nowSeconds } (.lookingUp bytes nowSeconds) := by
    have admits : s.service.admits (.value nowSeconds) = true := decide_eq_true reads
    have resumed : Attempt.resume engine host rt
        { request := attest, phase := .verifying nowSeconds } (.value nowSeconds) =
        some (.lookingUp bytes nowSeconds) := by
      simp only [Attempt.resume, verified]
    simp only [Service.step, running, admits, resumed, ↓reduceIte, Option.map_some,
      Option.some.injEq] at first
    exact first.symm
  refine (run_cons _ _ _ _).mpr ⟨{ s with service := asking }, step_served rfl ?_ first, ?_⟩
  · rintro _ _ ⟨⟩
    rfl
  let answered : Deployment := { s with
    service := asking
    object := s.object.reply nowSeconds outcome
    lookups := Function.update s.lookups k (some (.answered nowSeconds outcome.1)) }
  refine (run_cons _ _ _ _).mpr ⟨answered, ?_, ?_⟩
  · have present : asking.attempts[k]? =
        some { request := attest, phase := .lookingUp bytes nowSeconds } := by
      rw [asked]
      exact Service.lookup_setPhase running _
    have replied : s.object.step engine (.revocations nowSeconds) =
        some (s.object.reply nowSeconds outcome) := by
      simp only [Object.step, live]
    simp only [step, present, unasked, replied, Option.map_some]
    rfl
  refine (run_cons _ _ _ _).mpr ⟨{ answered with service := informed }, step_served rfl ?_ second, ?_⟩
  · rintro _ _ ⟨⟩
    have clock : asking.ReadsMs nowMs := by
      rw [asked]
      exact readsMs
    simp [delivers, clock, answered]
  · refine run_served (s := { answered with service := informed }) ?_ (by simp) rest
    repeat constructor

/-! ### Reachable states -/

private theorem Stepped.unasked {event : DeploymentEvent} (stepped : Stepped engine host rt s event t)
    (unasked : ∀ k, s.service.attempts.length ≤ k → s.lookups k = none) :
    ∀ k, t.service.attempts.length ≤ k → t.lookups k = none := by
  intro k late
  have before : s.service.attempts.length ≤ k := by
    by_contra early
    rw [not_le] at early
    obtain ⟨b, there, -⟩ := stepped.attempt_remains (List.getElem?_eq_getElem early)
    have := (List.getElem?_eq_some_iff.mp there).1
    omega
  have none := unasked k before
  cases stepped with
  | looked j a bytes nowSeconds object running phase moves =>
    have bound := (List.getElem?_eq_some_iff.mp running).1
    exact (Function.update_of_ne (by omega : k ≠ j) _ _).trans none
  | moved event object timely moves => simp [returned, none]
  | _ => exact none

/-- Only attempts ask for the list. -/
theorem unasked_of_run {clock : ℚ} {events : List DeploymentEvent}
    (taken : Run (step engine host rt) (.initial clock) events s) :
    ∀ k, s.service.attempts.length ≤ k → s.lookups k = none :=
  taken.invariant (fun s => ∀ k, s.service.attempts.length ≤ k → s.lookups k = none)
    (fun _ _ _ unasked step => (stepped_of_step step).unasked unasked) fun _ _ => rfl

/-- A valid attestation at a moment at which the budget and the row of the object allow it. -/
structure Offer (engine : Engine) (host : Host CryptoKey) (rt : Runtime) (s : Deployment)
    (attest : AttestRequest) (bytes : Bytes) (nowSeconds : Int) (nowMs : Number)
    (outcome : RevocationView × SnapshotStore) (serials : List JsString) : Prop where
  reads : s.service.Reads nowSeconds
  readsMs : s.service.ReadsMs nowMs
  allowed : (allowRequest s.budget nowSeconds).1 = .ok true
  live : revocationsStart s.object.store nowSeconds = some outcome
  fresh : outcome.1.serials = some serials
  accepts : rt.challenges.Accepts attest.challenge nowSeconds bytes
  genuine : rt.verifier.verify host attest bytes serials nowMs = .ok 2
  unused : (UncrackableL5.consume s.service.used (Challenges.id engine.sha256 bytes)
    (expiresAtSeconds bytes) nowSeconds).1 = .ok true

/-- One more request was answered with the flag, and nothing else has changed for the others. -/
structure Served (rt : Runtime) (attest : AttestRequest) (s t : Deployment) : Prop where
  reply : t.reply s.requests.length = some (.other (.flag 2 rt.flag))
  requests : ∀ (j : Nat) h, s.requests[j]? = some h → t.requests[j]? = some h
  attempts : t.service.attempts =
    s.service.attempts ++ [{ request := attest, phase := .done (.flag 2 rt.flag) }]
  sent : t.sent = s.sent
  downloads : t.object.downloads = s.object.downloads

private theorem served_began (s : Deployment) (request : HttpRequest) (body : Bytes)
    (attest : AttestRequest) (bytes : Bytes) (nowSeconds : Int)
    (outcome : RevocationView × SnapshotStore) :
    Served rt attest s ((s.began request body attest nowSeconds).served engine rt
      s.service.attempts.length attest bytes nowSeconds outcome) where
  reply := by
    have asked : ((s.began request body attest nowSeconds).served engine rt
        s.service.attempts.length attest bytes nowSeconds outcome).requests[s.requests.length]? =
        some { request := request, phase := .attesting body s.service.attempts.length } :=
      List.getElem?_concat_length
    have done : ((s.began request body attest nowSeconds).served engine rt
        s.service.attempts.length attest bytes nowSeconds outcome).service.attempts[
          s.service.attempts.length]? =
        some { request := attest, phase := .done (.flag 2 rt.flag) } :=
      List.getElem?_set_self (by simp [began])
    simp only [Deployment.reply, asked, done]
  requests j h found :=
    (List.getElem?_append_left (List.getElem?_eq_some_iff.mp found).1).trans found
  attempts := by simp [served, began]
  sent := rfl
  downloads := rfl

theorem run_offer {clock : ℚ} {past : List DeploymentEvent}
    (taken : Run (step engine host rt) (.initial clock) past s) {request : HttpRequest}
    {chunks : List Bytes} {attest : AttestRequest} {bytes : Bytes} {nowSeconds : Int}
    {nowMs : Number} {outcome : RevocationView × SnapshotStore} {serials : List JsString}
    (attests : request.Attests engine.tables) (hasBody : request.hasBody = true)
    (fits : chunks.flatten.length ≤ maxBody)
    (decoded : decodeAttestRequest engine chunks.flatten = some attest)
    (offer : s.Offer engine host rt attest bytes nowSeconds nowMs outcome serials) :
    ∃ later t, Run (step engine host rt) s later t ∧ Served rt attest s t := by
  have random : (List.replicate 32 (0 : UInt8)).length = 32 := List.length_replicate
  have running : (s.began request chunks.flatten attest nowSeconds).service.attempts[
      s.service.attempts.length]? =
      some { request := attest, phase := .verifying nowSeconds } := List.getElem?_concat_length
  have front : Run (step engine host rt) s _ _ :=
    run_front s attests hasBody fits decoded offer.reads random offer.allowed
  have attempt : Run (step engine host rt) _ _ _ :=
    run_attempt (s.began request chunks.flatten attest nowSeconds) s.service.attempts.length running
      (unasked_of_run taken _ le_rfl) offer.reads offer.readsMs offer.accepts offer.live offer.fresh
      offer.genuine offer.unused
  exact ⟨_, _, (run_append _ _ _ _).mpr ⟨_, front, attempt⟩, served_began ..⟩

end Deployment

/-- From every reachable state, whatever else is under way: a valid request, in any chunks, can be
answered with the flag while no other request or attempt moves. -/
theorem genuine_client_served (engine : Engine) (host : Host CryptoKey) (rt : Runtime) (clock : ℚ)
    (past : List DeploymentEvent) (s : Deployment)
    (taken : Run (Deployment.step engine host rt) (.initial clock) past s) (request : HttpRequest)
    (chunks : List Bytes) (attest : AttestRequest) (bytes : Bytes) (nowSeconds : Int)
    (nowMs : Number) (outcome : RevocationView × SnapshotStore) (serials : List JsString)
    (attests : request.Attests engine.tables) (hasBody : request.hasBody = true)
    (fits : chunks.flatten.length ≤ maxBody)
    (decoded : decodeAttestRequest engine chunks.flatten = some attest)
    (offer : s.Offer engine host rt attest bytes nowSeconds nowMs outcome serials) :
    ∃ later t, Run (Deployment.step engine host rt) s later t ∧
      t.reply s.requests.length = some (.other (.flag 2 rt.flag)) ∧
      (∀ (j : Nat) h, s.requests[j]? = some h → t.requests[j]? = some h) ∧
      ∀ (k : Nat) a, s.service.attempts[k]? = some a → t.service.attempts[k]? = some a := by
  obtain ⟨later, t, continued, served⟩ :=
    Deployment.run_offer taken attests hasBody fits decoded offer
  refine ⟨later, t, continued, served.reply, served.requests, fun k a found => ?_⟩
  rw [served.attempts]
  exact (List.getElem?_append_left (List.getElem?_eq_some_iff.mp found).1).trans found

/-! ### A served request -/

private theorem verify_of_loaded {v : AndroidVerifier} {request : AttestRequest}
    {challenge : Bytes} {revokedSerials : List JsString} {nowMs : Number}
    {chain : List Certificate} (few : ¬(request.chain.length < 2 ∨ request.chain.length > 6))
    (signed : ¬(request.pop.length < 1 ∨ request.pop.length > 128))
    (loaded : loadChain host v.anchors request.chain = .ok chain) :
    v.verify host request challenge revokedSerials nowMs =
      judgeChain host v challenge revokedSerials nowMs
        (finishVerify host request challenge revokedSerials nowMs) chain := by
  rw [verify_eq_verifyThen, verifyThen, if_neg few, if_neg signed, loaded]
  rfl

namespace Sample

/-- `CN=Root`, a self-signed CA, serial number 7. -/
def anchorDer : Bytes :=
  unpackWords 320
    [0x3082013c3081e5a003020102020107300a06082a8648ce3d040302300f310d30,
    0x0b06035504031304526f6f74301e170d3234313230313030303030305a170d33,
    0x34313230313030303030305a300f310d300b06035504031304526f6f74305930,
    0x1306072a8648ce3d020106082a8648ce3d03010703420004072e3ac7067c46e8,
    0x71288752b5b1f301c88727199e45a0444515c435a62c95c6057cd6eb4493491f,
    0xbafbe33ab3e8c3e924f8f8dced50259085b4581432b6a559a3323030300f0603,
    0x551d130101ff040530030101ff301d0603551d0e0416041425765bc1f786c2e8,
    0x767a4f2a6b03a7874fd510bd300a06082a8648ce3d0403020346003043022035,
    0xdde8f59dab04a2adf827f27434c06b029035d6912f9a2da89e6604f948072f02,
    0x1f285f2436727df183c55f8b018777abcb7ca1e801bf3e395c6551fc9dbe3493]

/-- `CN=Droid CA2, O=Google LLC`, issued by it. -/
def issuedDer : Bytes :=
  unpackWords 291
    [0x3082011f3081c702021234300a06082a8648ce3d040302300f310d300b060355,
    0x04031304526f6f74301e170d3234313230313030303030305a170d3235303230,
    0x313030303030305a3029311230100603550403130944726f6964204341323113,
    0x3011060355040a130a476f6f676c65204c4c433059301306072a8648ce3d0201,
    0x06082a8648ce3d030107034200047fcad46e0b548b51655377c03e4bdbe964cf,
    0xf68bf820a646b379c895a0843c3ec7fafd14c0145f5ae3e5877fe54e10d16561,
    0x9182f5c0931d49b1d6ce227c274d300a06082a8648ce3d040302034700304402,
    0x2076ac0e43c1851773f561f52dad1328bbd5f87df9b3e1912f3aff3463036509,
    0x6902201c73cfc2dc931b26994c9ebf5b7939c35ce02337a7e5866655f9cedeaf,
    0x39919a0000000000000000000000000000000000000000000000000000000000]

def anchoredVerifier : AndroidVerifier where
  anchors := certificates [anchorDer]
  packageName := verifier.packageName
  signerSha256Hex := verifier.signerSha256Hex
  anchored := by decide +kernel
  named := verifier.named
  signed := verifier.signed

def anchoredRuntime : Runtime where
  challenges := challenges
  verifier := anchoredVerifier
  flag := js "flag"

/-- A chain without its root. -/
def openDers : List Bytes := [leafDer, attestationDer, rkpDer, issuedDer]

/-- The JSON text of a request. -/
def textOf (request : AttestRequest) : JsString :=
  js "\x7b\"challenge\":\"" ++ request.challenge ++ js "\",\"chain\":[\"" ++
    join (js "\",\"") request.chain ++ js "\"],\"pop\":\"" ++ request.pop ++ js "\"\x7d"

def jsonOf (request : AttestRequest) : Json :=
  .object [(js "challenge", .string request.challenge),
    (js "chain", .array (request.chain.map .string)), (js "pop", .string request.pop)]

/-- `JSON.parse` on the text of the request and on the feed. -/
def parserOf (request : AttestRequest) (text : JsString) : Option Json :=
  if text = textOf request then some (jsonOf request) else Sample.engine.parseJson text

theorem parserOf_textOf (request : AttestRequest) :
    parserOf request (textOf request) = some (jsonOf request) := if_pos rfl

-- the digests of the challenge, the root's key and the feed
def servingEngine : Engine where
  tables := Sample.host.tables
  parseJson := parserOf (requestWith openDers)
  number := Sample.engine.number
  sha256 message :=
    if message = challenge then
      unpackWords 32 [0x708a4d90ea5d6096e075c97b478db29e38d7c626ae8d8bda5317feb3f28fead4]
    else if (certificates [anchorDer]).any (fun anchor => message = anchor.publicKey.spki) then
      unpackWords 32 [0x61497a2a92b75dc2025f4777cdce609811f4a19245a79089e763b727d86d8c3e]
    else Sample.engine.sha256 message

def servedMs : Number := .finite 1735689610000

/-- The alarm downloads the empty feed. -/
def refreshEvents : List Event :=
  [.alarm 1735689610, .response 0 (some response),
    .body 0 (some [utf8Encode emptyFeedBody]) 1735689610, .digest 0 false, .alarmSet 0 false]

def post : HttpRequest where
  method := js "POST"
  path := js "/v1/attest"
  contentType := some (js "application/json; charset=utf-8")
  hasBody := true

def body : Bytes := utf8Encode (textOf (requestWith openDers))

def ask : HttpRequest where
  method := js "GET"
  path := js "/v1/challenge"
  contentType := none
  hasBody := false

def nonce : Bytes := (challenge.drop 9).take 32

theorem post_attests : post.Attests servingEngine.tables := ⟨rfl, rfl, rfl⟩

theorem nonce_length : nonce.length = 32 := rfl

theorem issued : challenges.issue nonce 1735689600 = request.challenge := rfl

/-- The object grants a first request, another one after it, and the challenge. -/
theorem calls_granted :
    (allowRequest [] (1735689610 : Int)).1 = .ok true ∧
      (allowRequest [] (1735689600 : Int)).1 = .ok true ∧
      (allowRequest (allowRequest [] (1735689600 : Int)).2 (1735689610 : Int)).1 = .ok true ∧
      (consume [] (Challenges.id servingEngine.sha256 challenge) (expiresAtSeconds challenge)
        (1735689610 : Int)).1 = .ok true := by
  decide +kernel

theorem textOf_ascii {request : AttestRequest}
    (challenge : ∀ u ∈ request.challenge, u.toNat < 0x80)
    (chain : ∀ entry ∈ request.chain, ∀ u ∈ entry, u.toNat < 0x80)
    (pop : ∀ u ∈ request.pop, u.toNat < 0x80) : ∀ u ∈ textOf request, u.toNat < 0x80 := by
  have fixed : [js "\x7b\"challenge\":\"", js "\",\"chain\":[\"", js "\",\"",
      js "\"],\"pop\":\"", js "\"\x7d"].all isAscii = true := by decide
  simp only [isAscii, List.all_eq_true, decide_eq_true_eq, List.forall_mem_cons] at fixed
  obtain ⟨first, second, between, third, last, -⟩ := fixed
  intro u member
  simp only [textOf, List.mem_append] at member
  rcases member with ((((((h | h) | h) | h) | h) | h) | h)
  · exact first u h
  · exact challenge u h
  · exact second u h
  · rcases mem_join h with inside | ⟨part, present, inside⟩
    · exact between u inside
    · exact chain part present u inside
  · exact third u h
  · exact pop u h
  · exact last u h

theorem decodeAttestRequest_jsonOf {engine : Engine} {octets : Bytes} {text : JsString}
    {request : AttestRequest} (decoded : utf8Decode octets = .ok text)
    (parsed : engine.parseJson text = some (jsonOf request)) :
    decodeAttestRequest engine octets = some request := by
  have items : strings (request.chain.map .string) = some request.chain := by
    rw [strings]
    induction request.chain with
    | nil => rfl
    | cons entry entries ih =>
      rw [List.map_cons, List.mapM_cons, ih]
      rfl
  rw [decodeAttestRequest, decoded]
  simp only [parsed, jsonOf]
  change (strings (request.chain.map .string)).map _ = _
  rw [items]
  rfl

theorem text_ascii : ∀ u ∈ textOf (requestWith openDers), u.toNat < 0x80 := by
  apply textOf_ascii
  · exact encode_ascii (by decide) false challenge
  · intro entry member
    obtain ⟨der, -, rfl⟩ := List.mem_map.mp member
    exact encode_ascii (by decide) true der
  · exact encode_ascii (by decide) true pop

theorem body_fits : [body].flatten.length ≤ maxBody := by
  rw [List.flatten_singleton, body, utf8Encode_ascii _ text_ascii, List.length_map]
  decide +kernel

theorem body_decoded :
    decodeAttestRequest servingEngine [body].flatten = some (requestWith openDers) := by
  have text : utf8Decode [body].flatten = .ok (textOf (requestWith openDers)) :=
    (congrArg utf8Decode (List.append_nil body)).trans (utf8Decode_utf8Encode _ text_ascii)
  have parser : servingEngine.parseJson = parserOf (requestWith openDers) := rfl
  apply decodeAttestRequest_jsonOf text
  rw [parser, parserOf_textOf]

/-- The chain is completed with the anchor and accepted. -/
theorem openChain_judged :
    (∀ der ∈ openDers, 1 ≤ der.length ∧ der.length ≤ 4096) ∧
      ¬((requestWith openDers).pop.length < 1 ∨ (requestWith openDers).pop.length > 128) ∧
      (certificates openDers).length = openDers.length ∧
      completeChain Sample.host anchoredVerifier.anchors (certificates openDers) =
        .ok (certificates (openDers ++ [anchorDer])) ∧
      judgeChain Sample.host anchoredVerifier challenge [] servedMs
        (finishVerify Sample.host (requestWith openDers) challenge [] servedMs)
        (certificates (openDers ++ [anchorDer])) = .ok 2 := by
  decide +kernel

theorem openChain_verified :
    anchoredVerifier.verify Sample.host (requestWith openDers) challenge [] servedMs = .ok 2 := by
  obtain ⟨sizes, signed, count, completed, judged⟩ := openChain_judged
  have few : ¬((requestWith openDers).chain.length < 2 ∨
      (requestWith openDers).chain.length > 6) := by decide
  have loaded : loadChain Sample.host anchoredVerifier.anchors (requestWith openDers).chain =
      .ok (certificates (openDers ++ [anchorDer])) := by
    rw [requestWith, loadChain, mapM_parseEntry _ _ sizes, mapM_parseCertificate _ count, ok_bind,
      completed]
  exact (verify_of_loaded few signed loaded).trans judged

end Sample

private theorem Sample.run_object {s : Deployment} {events : List Event} {o : Object}
    (idle : s.lookups = fun _ => none) (timely : ∀ event ∈ events, s.timely event = true)
    (taken : Run (Object.step Sample.servingEngine) s.object events o) :
    Run (Deployment.step Sample.servingEngine Sample.host Sample.anchoredRuntime) s
      (events.map .object) { s with object := o } := by
  induction events generalizing s with
  | nil =>
    obtain rfl := (run_nil _ _).mp taken
    exact (run_nil _ _).mpr rfl
  | cons event events ih =>
    obtain ⟨middle, moves, rest⟩ := (run_cons _ _ _ _).mp taken
    have still : Deployment.returned s.lookups event middle = s.lookups := by
      funext k
      simp [Deployment.returned, idle]
    refine (run_cons _ _ _ _).mpr ⟨{ s with object := middle }, ?_, ?_⟩
    · simp only [Deployment.step, timely event List.mem_cons_self, moves, still, ↓reduceIte,
        Option.map_some]
    · exact ih idle (fun event member => timely event (List.mem_cons_of_mem _ member)) rest

/-- The object has downloaded the empty feed. -/
theorem Sample.refreshed :
    ∃ o outcome, Run (Deployment.step servingEngine Sample.host anchoredRuntime)
        (.initial 1735689610) (refreshEvents.map .object)
        { Deployment.initial 1735689610 with object := o } ∧
      revocationsStart o.store (1735689610 : Int) = some outcome ∧ outcome.1.serials = some [] ∧
      CollisionFree servingEngine o.downloads := by
  obtain ⟨timely, stored⟩ :
      (∀ event ∈ refreshEvents, (Deployment.initial 1735689610).timely event = true) ∧
        (run (Object.step servingEngine) .initial refreshEvents).any fun o =>
          (revocationsStart o.store (1735689610 : Int)).any
            (fun outcome => outcome.1.serials = some []) ∧
          CollisionFree servingEngine o.downloads := by decide +kernel
  cases taken : run (Object.step servingEngine) .initial refreshEvents with
  | none => simp [taken] at stored
  | some o =>
    rw [taken, Option.any_some, decide_eq_true_eq] at stored
    obtain ⟨live, distinct⟩ := stored
    cases found : revocationsStart o.store (1735689610 : Int) with
    | none => simp [found] at live
    | some outcome =>
      rw [found, Option.any_some, decide_eq_true_eq] at live
      exact ⟨o, outcome, run_object rfl timely taken, found, live, distinct⟩

/-- What the client of the sample offers then. -/
theorem Sample.offer {s : Deployment} {outcome : RevocationView × SnapshotStore}
    (start : s.service = .initial 1735689610 [])
    (allowed : (allowRequest s.budget (1735689610 : Int)).1 = .ok true)
    (live : revocationsStart s.object.store (1735689610 : Int) = some outcome)
    (fresh : outcome.1.serials = some []) :
    s.Offer servingEngine Sample.host anchoredRuntime (requestWith openDers) challenge 1735689610
      servedMs outcome [] where
  reads := by
    rw [start]
    exact ⟨by decide, by norm_num [Service.initial, skew]⟩
  readsMs := by
    rw [start]
    refine ⟨by decide, ?_⟩
    norm_num [Service.initial, skew]
  allowed := allowed
  live := live
  fresh := fresh
  accepts := challenge_accepted
  genuine := openChain_verified
  unused := by
    rw [start]
    exact calls_granted.2.2.2

theorem genuine_client_served_sample :
    ∃ past s later t, Run (Deployment.step Sample.servingEngine Sample.host Sample.anchoredRuntime)
        (.initial 1735689610) past s ∧
      Run (Deployment.step Sample.servingEngine Sample.host Sample.anchoredRuntime) s later t ∧
      t.reply s.requests.length = some (.other (.flag 2 (js "flag"))) := by
  obtain ⟨o, outcome, refreshed, live, fresh, -⟩ := Sample.refreshed
  obtain ⟨later, t, taken, answered, -⟩ := genuine_client_served Sample.servingEngine Sample.host
    Sample.anchoredRuntime 1735689610 _ _ refreshed Sample.post [Sample.body] _ _ _ _ _ _
    Sample.post_attests rfl Sample.body_fits Sample.body_decoded
    (Sample.offer rfl Sample.calls_granted.1 live fresh)
  exact ⟨_, _, later, t, refreshed, taken, answered⟩

/-- The request of the sample is answered with the flag. -/
theorem Sample.served :
    ∃ events s, Run (Deployment.step servingEngine Sample.host anchoredRuntime) (.initial 1735689610)
        events s ∧ s.reply 0 = some (.other (.flag 2 (js "flag"))) ∧
      CollisionFree servingEngine s.object.downloads := by
  obtain ⟨o, outcome, refreshed, live, fresh, distinct⟩ := Sample.refreshed
  obtain ⟨later, t, continued, served⟩ := Deployment.run_offer refreshed post_attests rfl
    body_fits body_decoded (offer rfl calls_granted.1 live fresh)
  exact ⟨_, t, (run_append _ _ _ _).mpr ⟨_, refreshed, continued⟩, served.reply,
    served.downloads ▸ distinct⟩

end UncrackableL5

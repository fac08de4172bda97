import UncrackableL5.Server.Worker

/-!
# Requests to the Worker

`fetch` and `handle` in front of the attest logic: the routes, the request budget, the runtime and
the bounded read of a body. A request runs from one await to the next, as an attempt does.
-/
namespace UncrackableL5

def maxBody : Nat := 40 * 1024

/-- What the handler reads of a request. -/
structure HttpRequest where
  method : JsString
  -- `new URL(request.url).pathname`
  path : JsString
  -- `request.headers.get("content-type")`
  contentType : Option JsString
  -- whether `request.body` is a stream
  hasBody : Bool
  deriving DecidableEq

/-- What `fetch` answers. -/
inductive Reply where
  -- `json(200, ...)` of the health and the challenge route
  | health
  | challenge (challenge : JsString) (expiresIn : Nat)
  | other (response : HttpResponse)

/-- `error(status, code)` -/
def Reply.error (status : Nat) (code : String) : Reply := .other (.error status code)

inductive Route where
  | challenge
  | attest
  deriving DecidableEq

/-- From the start of `handle` to the request budget: an answer, or the route to follow. -/
def HttpRequest.route (request : HttpRequest) : Except Reply Route :=
  if request.path = js "/v1/health" ∧ request.method = js "GET" then .error .health
  else if request.path = js "/v1/challenge" then .ok .challenge
  else if request.path = js "/v1/attest" then .ok .attest
  else .error (.error 404 "not_found")

/-- `(contentType ?? "").split(";")[0].trim().toLowerCase()` -/
def mediaType (tables : CaseTables) (contentType : Option JsString) : JsString :=
  toLowerCase tables (trim (((contentType.getD []).splitOn 59).headD []))

/-! ### One request -/

/-- Where a request is suspended before its attempt. -/
inductive HttpPhase where
  -- `state.allowRequest`: under way to the object, and on the way back with its outcome
  | admitting (nowSeconds : Int)
  | admitted (outcome : Js Bool)
  -- `runtime(env)`
  | configuring
  -- `challenges.issue`
  | issuing (nonce : Bytes) (nowSeconds : Int)
  -- `reader.read()` and `reader.cancel()` in `readBounded`
  | reading (total : Nat) (chunks : List Bytes)
  | cancelling
  -- the body was read and decoded; this attempt goes on with it
  | attesting (body : Bytes) (attempt : Nat)
  | replied (reply : Reply)
  -- the client is gone or the isolate was stopped
  | dropped

structure HttpState where
  request : HttpRequest
  phase : HttpPhase

/-- How an await before the attempt settles. -/
inductive HttpSettled where
  -- with the value of the function that was called; the next reading of the clock, and what
  -- `getRandomValues` gives next
  | value (nowSeconds : Int) (nonce : Bytes)
  -- `reader.read()`: octets, or the end of the body with the next reading of the clock
  | chunk (value : Bytes)
  | finished (nowSeconds : Int)
  -- the call fails: the runtime, a cryptographic operation, the stream or the connection
  | thrown
  -- the request never resumes
  | lost

/-- What a request does up to its next await. -/
inductive HttpNext where
  | phase (phase : HttpPhase)
  -- `decodeAttestRequest(body)`, and `challenges.verify` at `nowSeconds` when it succeeds
  | body (body : Bytes) (nowSeconds : Int)

/-- From `runtime(env)` to the next await. -/
def HttpRequest.dispatch (tables : CaseTables) (request : HttpRequest) (nowSeconds : Int)
    (nonce : Bytes) : HttpNext :=
  if request.path = js "/v1/challenge" then
    if request.method ≠ js "GET" then .phase (.replied (.error 405 "invalid_request"))
    else .phase (.issuing nonce nowSeconds)
  else if request.method ≠ js "POST" then .phase (.replied (.error 405 "invalid_request"))
  else if mediaType tables request.contentType ≠ js "application/json" then
    .phase (.replied (.error 415 "invalid_request"))
  else if ¬request.hasBody then .body [] nowSeconds
  else .phase (.reading 0 [])

/-- The part of the handler from an await to the next one. -/
def HttpState.resume (tables : CaseTables) (rt : Runtime) (h : HttpState)
    (settled : HttpSettled) : Option HttpNext :=
  let reply := fun (reply : Reply) => some (.phase (.replied reply))
  match h.phase, settled with
  | .attesting _ _, _ | .replied _, _ | .dropped, _ => none
  | _, .lost => some (.phase .dropped)
  | .admitted outcome, .value _ _ =>
    match outcome with
    | .ok true => some (.phase .configuring)
    | .ok false => reply (.error 429 "rate_limited")
    | .error _ => reply (.other (errorResponse .unavailable))
  | .configuring, .value nowSeconds nonce => some (h.request.dispatch tables nowSeconds nonce)
  | .issuing nonce nowSeconds, .value _ _ =>
    reply (.challenge (rt.challenges.issue nonce nowSeconds) 120)
  | .reading total chunks, .chunk value =>
    if total + value.length > maxBody then some (.phase .cancelling)
    else some (.phase (.reading (total + value.length) (chunks ++ [value])))
  | .reading _ chunks, .finished nowSeconds => some (.body chunks.flatten nowSeconds)
  | .cancelling, .value _ _ => reply (.error 413 "request_too_large")
  | .admitting _, .thrown | .admitted _, .thrown => reply (.other (errorResponse .unavailable))
  | .configuring, .thrown | .issuing _ _, .thrown | .reading _ _, .thrown | .cancelling, .thrown =>
    reply (.other (errorResponse (.error "Error")))
  | _, _ => none

end UncrackableL5

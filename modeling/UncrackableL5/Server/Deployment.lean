import Mathlib.Logic.Function.Basic
import UncrackableL5.Server.Http
import UncrackableL5.Server.Refreshes

/-!
# The deployed server

The Worker's isolates and the Durable Object together: requests from their arrival to their reply,
the three methods that they call on the object, and the object's refreshes. Calls are messages: the
object runs one some time after it was made, and its outcome arrives some time after that. A call
whose caller is gone may still be run; such calls are events of their own.
-/
namespace UncrackableL5

/-- Where the `state.revocations` call of an attempt is, once the object has started on it. -/
inductive Lookup where
  -- it awaits this refresh
  | refreshing (refresh : Nat)
  -- on the way back: the reading it was called with and the view
  | answered (nowSeconds : Int) (view : RevocationView)

/-- History: an `allowRequest` call that the object ran. -/
structure Admission where
  -- the request that made it, if it still waits
  request : Option Nat
  nowSeconds : Int
  -- the common clock when the object ran it
  clock : ℚ
  answer : Js Bool

structure Deployment where
  -- the attempts, the replay table and the common clock
  service : Service
  object : Object
  budget : RequestBudget
  requests : List HttpState
  -- by attempt
  lookups : Nat → Option Lookup
  -- history: the `allowRequest` calls, and the challenges that were sent with their requests
  admissions : List Admission
  sent : List (Nat × JsString)

def Deployment.initial (clock : ℚ) : Deployment where
  service := .initial clock []
  object := .initial
  budget := []
  requests := []
  lookups _ := none
  admissions := []
  sent := []

/-- A reading that an isolate took a while ago, or now. -/
def Service.Stamped (s : Service) (nowSeconds : Int) : Prop :=
  IsSecond nowSeconds ∧ (nowSeconds : ℚ) ≤ s.clock + skew

instance (s : Service) (nowSeconds : Int) : Decidable (s.Stamped nowSeconds) :=
  inferInstanceAs (Decidable (_ ∧ _))

/-- A value of `Date.now()` now. -/
def Service.ReadsMs (s : Service) (nowMs : Number) : Prop :=
  match nowMs with
  | .finite q => q.den = 1 ∧ |q / 1000 - s.clock| ≤ skew
  | _ => False

instance (s : Service) (nowMs : Number) : Decidable (s.ReadsMs nowMs) := by
  unfold Service.ReadsMs
  split <;> infer_instance

inductive DeploymentEvent where
  | tick (clock : ℚ)
  -- a request reaches an isolate
  | request (request : HttpRequest) (nowSeconds : Int)
  -- the object runs the `allowRequest` of request `i`, or one whose caller is gone
  | allowRequest (i : Nat)
  | allowLate (nowSeconds : Int)
  -- an await of request `i` settles before its attempt
  | resume (i : Nat) (settled : HttpSettled)
  -- an await of attempt `k` settles
  | attest (k : Nat) (settled : Settled)
  -- the object runs the `revocations` of attempt `k`
  | lookup (k : Nat)
  -- the object runs the `consume` of attempt `k`, or one whose caller is gone
  | consume (k : Nat)
  | consumeLate (id : JsString) (expiresAt : Number) (nowSeconds : Int)
  -- any other event of the object: its refreshes, the alarm, a restart, or a `revocations` call
  -- whose caller is gone
  | object (event : Event)

namespace Deployment

def setRequest (s : Deployment) (i : Nat) (h : HttpState) (phase : HttpPhase) : Deployment :=
  { s with requests := s.requests.set i { h with phase := phase } }

/-- The object runs an `allowRequest` call. -/
def allow (s : Deployment) (request : Option Nat) (nowSeconds : Int) : Deployment :=
  { s with
    budget := (allowRequest s.budget nowSeconds).2
    admissions := s.admissions ++ [{
      request := request
      nowSeconds := nowSeconds
      clock := s.service.clock
      answer := (allowRequest s.budget nowSeconds).1 }] }

/-- What an await settles with can be read, or drawn, now. -/
def admits (s : Deployment) : HttpSettled → Bool
  | .value nowSeconds nonce => s.service.Reads nowSeconds ∧ nonce.length = 32
  | .finished nowSeconds => s.service.Reads nowSeconds
  | _ => true

/-- The reply of the object to attempt `k` has arrived, if this is one. -/
def delivers (s : Deployment) (k : Nat) : Settled → Bool
  | .view view nowMs =>
    s.service.ReadsMs nowMs &&
      match s.lookups k with
      | some (.answered _ answer) => view = answer
      | _ => false
  | _ => true

/-- The object's own readings, and those that calls were made with. -/
def timely (s : Deployment) : Event → Bool
  | .revocations nowSeconds => s.service.Stamped nowSeconds
  | .alarm nowSeconds | .body _ _ nowSeconds => s.service.Reads nowSeconds
  | _ => true

/-- The outcome of a `revocations` call in the object, after the event that started it. -/
def lookupOf (before after : Object) : Lookup :=
  match after.answer with
  | some (nowSeconds, view) => .answered nowSeconds view
  | none => .refreshing before.refreshes.length

/-- The calls after an event: when a refresh ends, the call that awaits it is answered. -/
def returned (lookups : Nat → Option Lookup) (event : Event) (after : Object) (k : Nat) :
    Option Lookup :=
  match event, lookups k, after.answer with
  | .resume i, some (.refreshing j), some (nowSeconds, view) =>
    if i = j then some (.answered nowSeconds view) else lookups k
  | _, _, _ => lookups k

variable {CryptoKey : Type}

/-- Request `i` goes on. -/
def proceed (engine : Engine) (host : Host CryptoKey) (rt : Runtime) (s : Deployment) (i : Nat)
    (h : HttpState) : HttpNext → Option Deployment
  | .phase phase =>
    let sent :=
      match phase with
      | .replied (.challenge challenge _) => [(i, challenge)]
      | _ => []
    some { s.setRequest i h phase with sent := s.sent ++ sent }
  | .body body nowSeconds =>
    match decodeAttestRequest engine body with
    | none => some (s.setRequest i h (.replied (.error 400 "invalid_request")))
    | some _ =>
      (s.service.step engine host rt (.arrive body nowSeconds)).map fun service =>
        { s.setRequest i h (.attesting body s.service.attempts.length) with service := service }

/-- One event; `none` when it cannot happen. -/
def step (engine : Engine) (host : Host CryptoKey) (rt : Runtime) (s : Deployment) :
    DeploymentEvent → Option Deployment
  | .tick clock =>
    (s.service.step engine host rt (.tick clock)).map fun service => { s with service := service }
  | .request request nowSeconds =>
    match request.route with
    | .error reply =>
      some { s with requests := s.requests ++ [{ request := request, phase := .replied reply }] }
    | .ok _ =>
      if s.service.Reads nowSeconds then
        some { s with
          requests := s.requests ++ [{ request := request, phase := .admitting nowSeconds }] }
      else none
  | .allowRequest i =>
    match s.requests[i]? with
    | some h =>
      match h.phase with
      | .admitting nowSeconds =>
        some ((s.allow (some i) nowSeconds).setRequest i h
          (.admitted (allowRequest s.budget nowSeconds).1))
      | _ => none
    | none => none
  | .allowLate nowSeconds =>
    if s.service.Stamped nowSeconds then some (s.allow none nowSeconds) else none
  | .resume i settled =>
    match s.requests[i]? with
    | some h =>
      if s.admits settled then
        (h.resume engine.tables rt settled).bind (s.proceed engine host rt i h)
      else none
    | none => none
  | .attest k settled =>
    if s.delivers k settled then
      (s.service.step engine host rt (.resume k settled)).map fun service =>
        { s with service := service }
    else none
  | .lookup k =>
    match s.service.attempts[k]?, s.lookups k with
    | some a, none =>
      match a.phase with
      | .lookingUp _ nowSeconds =>
        (s.object.step engine (.revocations nowSeconds)).map fun object =>
          { s with
            object := object
            lookups := Function.update s.lookups k (some (lookupOf s.object object)) }
      | _ => none
    | _, _ => none
  | .consume k =>
    (s.service.step engine host rt (.consume k)).map fun service => { s with service := service }
  | .consumeLate id expiresAt nowSeconds =>
    (s.service.step engine host rt (.call id expiresAt nowSeconds)).map fun service =>
      { s with service := service }
  | .object event =>
    if s.timely event then
      (s.object.step engine event).map fun object =>
        { s with object := object, lookups := returned s.lookups event object }
    else none

/-- What request `i` was answered. -/
def reply (s : Deployment) (i : Nat) : Option Reply :=
  match s.requests[i]? with
  | some h =>
    match h.phase with
    | .replied reply => some reply
    | .attesting _ k =>
      match s.service.attempts[k]? with
      | some a =>
        match a.phase with
        | .done response => some (.other response)
        | _ => none
      | none => none
    | _ => none
  | none => none

end Deployment

end UncrackableL5

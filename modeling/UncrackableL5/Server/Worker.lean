import Mathlib.Algebra.Order.Group.Abs
import UncrackableL5.Library.Transition
import UncrackableL5.Server.Challenges
import UncrackableL5.Server.State
import UncrackableL5.Verifier.Verifier

/-!
# Attest requests

Verify, attest, re-verify, consume, re-verify: the Worker's handler from the read body to the
response, for any number of requests at once. A request runs from one await to the next without
interruption; between them the other requests, the Durable Object and the clock go on. Each Worker
isolate reads its own clock, within `skew` of a common one.
-/
namespace UncrackableL5

/-- What the handler answers. -/
inductive HttpResponse where
  | flag (tier : Nat) (flag : JsString)
  | error (status : Nat) (code : String)

/-- `runtime(env)`, as far as the handler uses it. -/
structure Runtime where
  challenges : Challenges
  verifier : AndroidVerifier
  flag : JsString

/-- The response to an exception that leaves the handler. -/
def errorResponse : Exception → HttpResponse
  | .rejected code => .error 403 code.text
  | .unavailable => .error 503 "verification_unavailable"
  | _ => .error 500 "internal_error"

/-- The strings of an array that holds nothing else. -/
def strings (items : List Json) : Option (List JsString) :=
  items.mapM fun item =>
    match item with
    | .string text => some text
    | _ => none

/-- Strict decoding: exactly the three fields, correct types, no unknown keys, valid UTF-8. -/
def decodeAttestRequest (engine : Engine) (body : Bytes) : Option AttestRequest :=
  match utf8Decode body with
  | .error _ => none
  | .ok text =>
    match engine.parseJson text with
    | some (.object o) =>
      if o.length ≠ 3 then none
      else
        match property o (js "challenge"), property o (js "chain"), property o (js "pop") with
        | some (.string challenge), some (.array chain), some (.string pop) =>
          (strings chain).map fun chain => { challenge := challenge, chain := chain, pop := pop }
        | _, _, _ => none
    | _ => none

/-! ### One request -/

/-- Where a request is suspended, with the values it goes on with. -/
inductive AttestPhase where
  -- the first, second and third `challenges.verify`, called at `nowSeconds`
  | verifying (nowSeconds : Int)
  | reverifying (bytes : Bytes) (nowSeconds : Int)
  | confirming (bytes : Bytes) (nowSeconds : Int)
  -- `state.revocations`
  | lookingUp (bytes : Bytes) (nowSeconds : Int)
  -- `rt.verifier.verify`
  | attesting (bytes : Bytes) (snapshot : List JsString) (nowMs : Number)
  -- `Challenges.id`
  | hashing (bytes : Bytes)
  -- `state.consume`: under way to the object, and on the way back with its outcome
  | consuming (bytes : Bytes) (id : JsString) (expiresAt : Number) (nowSeconds : Int)
  | consumed (bytes : Bytes) (outcome : Js Bool)
  | done (response : HttpResponse)
  -- the client is gone or the isolate was stopped
  | dropped

structure Attempt where
  request : AttestRequest
  phase : AttestPhase

/-- How an await settles, with what the request reads next from its clock. -/
inductive Settled where
  -- with the value of the function that was called
  | value (nowSeconds : Int)
  -- a reply of the object to `revocations`
  | view (view : RevocationView) (nowMs : Number)
  -- the call fails: a cryptographic operation, or the connection to the object
  | thrown
  -- the request never resumes
  | lost

variable {CryptoKey : Type}

/-- The part of the handler from an await to the next one. -/
def Attempt.resume (engine : Engine) (host : Host CryptoKey) (rt : Runtime) (a : Attempt)
    (settled : Settled) : Option AttestPhase :=
  let fails := fun (e : Exception) => some (.done (errorResponse e))
  match a.phase, settled with
  | .done _, _ | .dropped, _ => none
  | _, .lost => some .dropped
  | .verifying now, .value nowSeconds =>
    match rt.challenges.verify a.request.challenge now with
    | .ok bytes => some (.lookingUp bytes nowSeconds)
    | .error e => fails e
  | .lookingUp bytes _, .view view nowMs =>
    match view.serials with
    | some serials => some (.attesting bytes serials nowMs)
    | none => fails .unavailable
  | .attesting bytes snapshot nowMs, .value nowSeconds =>
    match rt.verifier.verify host a.request bytes snapshot nowMs with
    | .ok tier =>
      if tier ≠ 2 then fails (.rejected .deviceIntegrity)
      else some (.reverifying bytes nowSeconds)
    | .error e => fails e
  | .reverifying bytes now, .value _ =>
    match rt.challenges.verify a.request.challenge now with
    | .ok _ => some (.hashing bytes)
    | .error e => fails e
  | .hashing bytes, .value nowSeconds =>
    some (.consuming bytes (Challenges.id engine.sha256 bytes)
      (Challenges.expiresAtSeconds bytes) nowSeconds)
  | .consumed bytes outcome, .value nowSeconds =>
    match outcome with
    | .ok true => some (.confirming bytes nowSeconds)
    | .ok false => fails (.rejected .challengeReplayed)
    | .error _ => fails .unavailable
  | .confirming _ now, .value _ =>
    match rt.challenges.verify a.request.challenge now with
    | .ok _ => some (.done (.flag 2 rt.flag))
    | .error e => fails e
  | .lookingUp _ _, .thrown | .hashing _, .thrown | .consuming _ _ _ _, .thrown
  | .consumed _ _, .thrown => fails .unavailable
  | .verifying _, .thrown | .attesting _ _ _, .thrown | .reverifying _ _, .thrown
  | .confirming _ _, .thrown => fails (.error "OperationError")
  | _, _ => none

/-! ### All requests -/

structure Service where
  clock : ℚ
  used : UsedChallenges
  attempts : List Attempt

def Service.initial (clock : ℚ) (used : UsedChallenges) : Service where
  clock := clock
  used := used
  attempts := []

/-- How far an isolate's clock may be off, in seconds. -/
def skew : ℚ := 30

/-- A value of `Math.floor(Date.now() / 1000)`. -/
def IsSecond (nowSeconds : Int) : Prop := nowSeconds.natAbs ≤ 8640000000000

instance (nowSeconds : Int) : Decidable (IsSecond nowSeconds) :=
  inferInstanceAs (Decidable (_ ≤ _))

/-- A reading that an isolate can take now. -/
def Service.Reads (s : Service) (nowSeconds : Int) : Prop :=
  IsSecond nowSeconds ∧ |(nowSeconds : ℚ) - s.clock| ≤ skew

instance (s : Service) (nowSeconds : Int) : Decidable (s.Reads nowSeconds) :=
  inferInstanceAs (Decidable (_ ∧ _))

inductive ServiceEvent where
  | tick (clock : ℚ)
  -- the body of an attest request was read
  | arrive (body : Bytes) (nowSeconds : Int)
  -- an await of request `i` settles
  | resume (i : Nat) (settled : Settled)
  -- the object runs the `consume` of request `i`
  | consume (i : Nat)
  -- the object runs any other `consume`, whose reading is not ahead of the clock
  | call (id : JsString) (expiresAt : Number) (nowSeconds : Int)

namespace Service

def setPhase (s : Service) (i : Nat) (a : Attempt) (phase : AttestPhase) : Service :=
  { s with attempts := s.attempts.set i { a with phase := phase } }

/-- What an await settles with can be read now. -/
def admits (s : Service) : Settled → Bool
  | .value nowSeconds => s.Reads nowSeconds
  | _ => true

/-- One event; `none` when it cannot happen. -/
def step (engine : Engine) (host : Host CryptoKey) (rt : Runtime) (s : Service) :
    ServiceEvent → Option Service
  | .tick clock => if s.clock ≤ clock then some { s with clock := clock } else none
  | .arrive body nowSeconds =>
    if s.Reads nowSeconds then
      match decodeAttestRequest engine body with
      | some request =>
        some { s with
          attempts := s.attempts ++ [{ request := request, phase := .verifying nowSeconds }] }
      -- answered 400 without an await
      | none => some s
    else none
  | .resume i settled =>
    match s.attempts[i]? with
    | some a =>
      if s.admits settled then (a.resume engine host rt settled).map (s.setPhase i a) else none
    | none => none
  | .consume i =>
    match s.attempts[i]? with
    | some a =>
      match a.phase with
      | .consuming bytes id expiresAt nowSeconds =>
        let (outcome, used) := UncrackableL5.consume s.used id expiresAt nowSeconds
        some { s.setPhase i a (.consumed bytes outcome) with used := used }
      | _ => none
    | none => none
  | .call id expiresAt nowSeconds =>
    if IsSecond nowSeconds ∧ (nowSeconds : ℚ) ≤ s.clock + skew then
      some { s with used := (UncrackableL5.consume s.used id expiresAt nowSeconds).2 }
    else none

end Service

end UncrackableL5

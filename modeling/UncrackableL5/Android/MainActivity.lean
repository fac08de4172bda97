import UncrackableL5.Android.Attestation
import UncrackableL5.Android.Backend
import UncrackableL5.Android.FlagStore

/-!
# Attempts

One attempt from `Backend.attest` to the status text, and the activity around it: the button, the
thread of the executor, and the results that are posted to the main thread. OkHttp and the
serializers are parameters. The Keystore entries of attestations and the flag store's device are
separate parts of the phone.
-/
namespace UncrackableL5

/-- The serializers of the wire model that `Decoders` leaves out. -/
structure WireCodec extends Decoders where
  challengeResponse : JavaString → Option JavaString
  attestRequest (challenge : JavaString) (chain : List JavaString) (pop : JavaString) : JavaString

/-- A response, and what reading its body gives. -/
structure CallResponse where
  code : Nat
  body : Except Failure (Option Bytes)

structure Phone (Key AttestKey : Type) where
  keystore : Keystore AttestKey
  device : Device Key
  -- the bodies of the attest requests
  sent : List JavaString

/-- How the platform and the network answer during one attempt. -/
structure AttemptConditions (Key AttestKey : Type) where
  proof : ProofConditions AttestKey
  store : Conditions Key
  -- `client.newCall(request).execute()`
  challenge : Except Failure CallResponse
  attest (body : JavaString) : Except Failure CallResponse

variable {Key AttestKey : Type}

abbrev PhoneM (Key AttestKey : Type) := EStateM Failure (Phone Key AttestKey)

/-! ### The round trip -/

namespace Backend

/-- `ProtocolException` among the exceptions of an attempt. -/
def protocol {α : Type} (answer : Except ProtocolException α) : Except Failure α :=
  answer.mapError fun _ => .new .protocol

/-- `none` when the service answered 429 or 503; any other status but 200 is a protocol error. -/
def challenge (codec : WireCodec) (answer : Except Failure CallResponse) :
    Except Failure (Option JavaString) := do
  let response ← answer
  match response.code with
  | 200 => do
    let body ← response.body
    let text ← protocol (bounded codec.toDecoders body)
    let issued ← protocol (decodeBody (codec.challengeResponse text))
    return some issued
  | 429 | 503 => return none
  | _ => .error (.new .protocol)

/-- `attestation.prove` -/
def prove (c : ProofConditions AttestKey) (challengeBytes : Bytes) :
    PhoneM Key AttestKey AttestationProof := fun s =>
  match Attestation.prove c challengeBytes s.keystore with
  | .ok proof keystore => .ok proof { s with keystore := keystore }
  | .error e keystore => .error e { s with keystore := keystore }

/-- The second request and what is made of its response. -/
def submit (codec : WireCodec) (c : AttemptConditions Key AttestKey) (issued : JavaString)
    (proof : AttestationProof) : PhoneM Key AttestKey AttestOutcome := do
  let body := codec.attestRequest issued proof.chain proof.pop
  modify fun s => { s with sent := s.sent ++ [body] }
  let response ← MonadExcept.ofExcept (c.attest body)
  let read ← MonadExcept.ofExcept response.body
  MonadExcept.ofExcept (protocol (attestResponse codec.toDecoders response.code read))

def attest (codec : WireCodec) (c : AttemptConditions Key AttestKey) :
    PhoneM Key AttestKey AttestOutcome := do
  match ← MonadExcept.ofExcept (challenge codec c.challenge) with
  | none => return .unavailable
  | some issued =>
    match Challenge.decode issued with
    | .error _ => throw (.new .protocol)
    | .ok challengeBytes => do
      let proof ← prove c.proof challengeBytes
      submit codec c issued proof

end Backend

/-! ### Status texts -/

inductive StatusText where
  | idle
  | inFlight
  | tier2
  | deviceIntegrity
  | securityPatch
  | noRemoteProvisioning
  | appIntegrity
  | noHardware
  | expired
  | invalid
  | unavailable
  | untrusted
  | noConnection
  | storageFailed
  deriving DecidableEq, Repr

namespace Status

def forOutcome : AttestOutcome → StatusText
  | .accepted tier _ => if tier = 2 then .tier2 else .invalid
  | .rejected code =>
    if code = js "device_integrity" then .deviceIntegrity
    else if code = js "security_patch_outdated" then .securityPatch
    else if code = js "no_remote_provisioning" then .noRemoteProvisioning
    else if code = js "app_integrity" then .appIntegrity
    else if code = js "no_hardware_attestation" then .noHardware
    else if code = js "challenge_expired" ∨ code = js "challenge_replayed" then .expired
    else .invalid
  | .unavailable => .unavailable

def forFailure (failure : Failure) : StatusText :=
  if failure.self = .flagStorage then .storageFailed
  else if failure.self = .sslPeerUnverified then .untrusted
  else if failure.self = .sslHandshake ∨ failure.hasCertificateCause then .untrusted
  else if failure.self = .unknownHost ∨ failure.self = .connect ∨ failure.self = .socketTimeout then
    .noConnection
  else if failure.self = .protocol then .invalid
  else if failure.self.isIo then .noConnection
  else .invalid

end Status

/-! ### The activity -/

namespace MainActivity

/-- `FlagStore(context).store`, whose exceptions become one, and `flag.fill(0)`. -/
def storeFlag (gcm : Gcm Key) (c : Conditions Key) (tier : Int) (flag : Bytes) :
    PhoneM Key AttestKey Unit := fun s =>
  let zeroed (d : Device Key) : Phone Key AttestKey :=
    { s with device := { d with flag := List.replicate flag.length 0 } }
  match FlagStore.store gcm c tier flag s.device with
  | .ok () d => .ok () (zeroed d)
  | .error _ d => .error (.new .flagStorage) (zeroed d)

/-- The `try` block of the task. -/
def attempt (gcm : Gcm Key) (codec : WireCodec) (c : AttemptConditions Key AttestKey) :
    PhoneM Key AttestKey StatusText := do
  let outcome ← Backend.attest codec c
  match outcome with
  | .accepted tier flag => storeFlag gcm c.store tier flag
  | _ => pure ()
  return Status.forOutcome outcome

/-- The result of the task, and the phone that it leaves; an interrupted task has no result. -/
def task (gcm : Gcm Key) (codec : WireCodec) (c : AttemptConditions Key AttestKey)
    (s : Phone Key AttestKey) : Option StatusText × Phone Key AttestKey :=
  match attempt gcm codec c s with
  | .ok status t => (some status, t)
  | .error e t => if e.self = .interrupted then (none, t) else (some (Status.forFailure e), t)

end MainActivity

/-- One instance of the activity on the phone. -/
structure Screen (Key AttestKey : Type) where
  enabled : Bool
  status : StatusText
  destroyed : Bool
  -- the tasks that wait for the thread of the executor, and whether it runs one
  queued : Nat
  running : Bool
  -- the results posted to the main thread
  posted : List StatusText
  phone : Phone Key AttestKey

inductive ScreenEvent (Key AttestKey : Type) where
  | click
  -- the thread takes a task, and ends it
  | start
  | finish (c : AttemptConditions Key AttestKey)
  -- the main thread takes a result
  | post
  | destroy

namespace Screen

/-- After `onCreate`. -/
def initial (phone : Phone Key AttestKey) : Screen Key AttestKey where
  enabled := true
  status := .idle
  destroyed := false
  queued := 0
  running := false
  posted := []
  phone := phone

/-- A task is interrupted by `shutdownNow` only, and a disabled button takes no clicks. -/
def step (gcm : Gcm Key) (codec : WireCodec) (s : Screen Key AttestKey) :
    ScreenEvent Key AttestKey → Option (Screen Key AttestKey)
  | .click =>
    if s.enabled ∧ ¬s.destroyed then
      some { s with enabled := false, status := .inFlight, queued := s.queued + 1 }
    else none
  | .start =>
    if 0 < s.queued ∧ ¬s.running then some { s with queued := s.queued - 1, running := true }
    else none
  | .finish c =>
    if s.running then
      match MainActivity.task gcm codec c s.phone with
      | (some result, phone) =>
        some { s with running := false, posted := s.posted ++ [result], phone := phone }
      | (none, phone) =>
        if s.destroyed then some { s with running := false, phone := phone } else none
    else none
  | .post =>
    match s.posted with
    | [] => none
    | result :: rest =>
      if s.destroyed then some { s with posted := rest }
      else some { s with posted := rest, status := result, enabled := true }
  -- `onDestroy`: `shutdownNow` drops the tasks that wait
  | .destroy => if s.destroyed then none else some { s with destroyed := true, queued := 0 }

end Screen

end UncrackableL5

import UncrackableL5.Server.Worker
import UncrackableL5.Verifier.Anchors

/-!
# Configuration

Startup validation, which refuses to serve on any missing or malformed value, and the promise that
`runtime` keeps of it. `load` is what its promise settles with when no call to the cryptographic
library fails.
-/
namespace UncrackableL5

def appPackage : JsString := js "org.owasp.mastg.uncrackable5"

structure Env where
  challengeHmacKey : Option JsString
  flagTier2 : Option JsString
  appSignerSha256 : Option JsString
  appPackage : Option JsString
  -- the test-only override of the bundled roots
  attestationRoots : Option JsString

/-- HMAC-SHA256: a key and a message. -/
structure Hmac where
  sign : Bytes → Bytes → Bytes
  size : ∀ key payload, (sign key payload).length = 32

/-- `Challenges.create` -/
def Challenges.create (hmac : Hmac) (rawKey : Bytes) : Js Challenges :=
  if rawKey.length < 32 then .error (.error "CHALLENGE_HMAC_KEY too short")
  else .ok { sign := hmac.sign rawKey, size := hmac.size rawKey }

/-- `required(name)`, with the value of the variable. -/
def required (name : String) (value : Option JsString) : Js JsString :=
  match value with
  | some v => if trim v = [] then .error (.error ("Missing configuration: " ++ name)) else .ok v
  | none => .error (.error ("Missing configuration: " ++ name))

/-- SHA-256 over the SubjectPublicKeyInfo of Google's software attestation roots. -/
def softwareRootSpkiDigests : List JsString :=
  [js "d5100c7942ef2e8310dc30ef82729680cf48d690735c3f68179a33c7c370f286",
    js "f2c4746f545946c100e72297f8f946344d7052f03a2f694221f9c893b0e6f711"]

def rejectSoftwareRoots (sha256 : Bytes → Bytes) : List Certificate → Js Unit
  | [] => .ok ()
  | a :: anchors =>
    if softwareRootSpkiDigests.contains (hex (sha256 a.publicKey.spki)) then
      .error (.error "Software attestation root cannot be used as a trust anchor.")
    else rejectSoftwareRoots sha256 anchors

/-- The decoded key of the challenges. -/
def hmacKey (env : Env) : Js Bytes := do
  let key ← (required "CHALLENGE_HMAC_KEY" env.challengeHmacKey >>= base64Decode).recover fun _ =>
    .error (.error "Invalid configuration: CHALLENGE_HMAC_KEY")
  if key.length < 32 then .error (.error "Invalid configuration: CHALLENGE_HMAC_KEY") else .ok key

variable {CryptoKey : Type}

/-- `roots` is the bundled file of Google's roots. -/
def load (engine : Engine) (host : Host CryptoKey) (hmac : Hmac) (roots : JsString) (env : Env) :
    Js Runtime :=
  let packageName := env.appPackage.getD appPackage
  if packageName ≠ appPackage ∧ packageName ≠ appPackage ++ js ".debug" then
    .error (.error "Invalid configuration: APP_PACKAGE")
  else do
    let key ← hmacKey env
    let flag ← required "FLAG_TIER2" env.flagTier2
    let signer := toLowerCase engine.tables (← required "APP_SIGNER_SHA256" env.appSignerSha256)
    if ¬isSha256Hex signer then .error (.error "Invalid configuration: APP_SIGNER_SHA256")
    else do
      let anchors ← parseAnchors host (env.attestationRoots.getD roots)
      rejectSoftwareRoots engine.sha256 anchors
      let challenges ← Challenges.create hmac key
      let verifier ← AndroidVerifier.new
        { anchors := anchors, packageName := packageName, signerSha256Hex := signer }
      .ok { challenges := challenges, verifier := verifier, flag := flag }

/-! ### The promise

`cached ??= load(env).catch(...)` in one isolate. Loads are numbered in the order they start. A load
settles some time after it started; when it rejects, its handler runs some time after that, and the
calls that await the promise resume some time after that.
-/

/-- A promise `load(env).catch(...)`. -/
inductive LoadPhase where
  -- `load(env)` is pending
  | running
  -- it rejected and the handler has not run yet
  | rejecting (e : Exception)
  -- the promise is settled
  | settled (outcome : Js Runtime)

/-- A call of `runtime`. -/
structure RuntimeCall where
  -- the promise it was given
  load : Nat
  outcome : Option (Js Runtime)

structure RuntimeCache where
  cached : Option Nat
  loads : List LoadPhase
  calls : List RuntimeCall

def RuntimeCache.initial : RuntimeCache where
  cached := none
  loads := []
  calls := []

inductive CacheEvent where
  -- `runtime(env)`
  | call
  -- load `i` settles
  | settles (i : Nat) (outcome : Js Runtime)
  -- its handler runs
  | handler (i : Nat)
  -- call `j` resumes
  | resume (j : Nat)

/-- One event; `none` when it cannot happen. -/
def RuntimeCache.step (c : RuntimeCache) : CacheEvent → Option RuntimeCache
  | .call =>
    match c.cached with
    | some i => some { c with calls := c.calls ++ [{ load := i, outcome := none }] }
    | none =>
      some {
        cached := some c.loads.length
        loads := c.loads ++ [.running]
        calls := c.calls ++ [{ load := c.loads.length, outcome := none }] }
  | .settles i outcome =>
    match c.loads[i]? with
    | some .running =>
      match outcome with
      | .ok rt => some { c with loads := c.loads.set i (.settled (.ok rt)) }
      | .error e => some { c with loads := c.loads.set i (.rejecting e) }
    | _ => none
  | .handler i =>
    match c.loads[i]? with
    | some (.rejecting e) =>
      some { c with cached := none, loads := c.loads.set i (.settled (.error e)) }
    | _ => none
  | .resume j =>
    match c.calls[j]? with
    | some { load := i, outcome := none } =>
      match c.loads[i]? with
      | some (.settled outcome) =>
        some { c with calls := c.calls.set j { load := i, outcome := some outcome } }
      | _ => none
    | _ => none

end UncrackableL5

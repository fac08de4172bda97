import UncrackableL5.Server.Revocations

/-!
# Durable Object state

The request budget, the replay table and the revocation snapshot of the single-instance Durable
Object. Each piece of a method between two awaits is a function: the runtime runs it without
interruption.
-/
namespace UncrackableL5

/-! ### Request budget -/

def rateLimitPerMinute : Nat := 60

/-- The rows of `request_budget`: minute and requests. -/
abbrev RequestBudget := List (Int × Nat)

/-- `Math.floor(nowSeconds / 60)` -/
def requestMinute (nowSeconds : Number) : Number := (nowSeconds.divNat 60).floor

/-- `DELETE FROM request_budget WHERE minute < ?` -/
def deleteBefore (budget : RequestBudget) (bound : Number) : RequestBudget :=
  budget.filter fun row => ¬(row.1 : Number) < bound

/-- `row?.requests ?? 0` of the row of the minute. -/
def requestsOf (budget : RequestBudget) (minute : Number) : Nat :=
  ((budget.find? fun row => (row.1 : Number) = minute).map Prod.snd).getD 0

/-- The integer primary key a number is stored under. SQLite stores `NaN` as NULL and picks the
next free key for it. -/
def rowKey (budget : RequestBudget) : Number → Js Int
  | .nan => .ok ((budget.map Prod.fst).max?.elim 1 (· + 1))
  | .finite value =>
    if value.den = 1 ∧ value.num.natAbs < 2 ^ 63 then .ok value.num
    else .error (.error "datatype mismatch")
  | .negInfinity | .posInfinity => .error (.error "datatype mismatch")

/-- `INSERT ... VALUES (?, 1) ON CONFLICT(minute) DO UPDATE SET requests = requests + 1` -/
def countRequest (budget : RequestBudget) (key : Int) : RequestBudget :=
  if budget.any fun row => row.1 = key then
    budget.map fun row => if row.1 = key then (row.1, row.2 + 1) else row
  else budget ++ [(key, 1)]

/-- Global budget: at most `rateLimitPerMinute` requests per wall-clock minute. -/
def allowRequest (budget : RequestBudget) (nowSeconds : Number) : Js Bool × RequestBudget :=
  let minute := requestMinute nowSeconds
  let kept := deleteBefore budget (minute.sub (.finite 2))
  if requestsOf kept minute ≥ rateLimitPerMinute then (.ok false, kept)
  else
    match rowKey kept minute with
    | .error e => (.error e, kept)
    | .ok key => (.ok true, countRequest kept key)

/-! ### Replay table -/

/-- The rows of `used_challenges`: id and `expires_at`. -/
abbrev UsedChallenges := List (JsString × Number)

/-- SQLite stores `NaN` as NULL. -/
def notNull (value : Number) : Js Number :=
  if value = .nan then .error (.error "NOT NULL constraint failed") else .ok value

/-- Atomic create-if-absent; true exactly once per challenge id. -/
def consume (used : UsedChallenges) (id : JsString) (expiresAtSeconds nowSeconds : Number) :
    Js Bool × UsedChallenges :=
  if ¬isSha256Hex id then (.error (.error "bad challenge id"), used)
  else
    let kept := used.filter fun row => ¬row.2 < nowSeconds.sub (.finite 60)
    if kept.any fun row => row.1 = id then (.ok false, kept)
    else
      match notNull expiresAtSeconds with
      | .error e => (.error e, kept)
      | .ok expiresAt => (.ok true, kept ++ [(id, expiresAt)])

/-! ### Revocation snapshot -/

/-- The row of `revocation_snapshot`. -/
structure SnapshotRow where
  serials : JsString
  digest : JsString
  expiresAt : Number
  fetchedAt : Number
  deriving DecidableEq

structure SnapshotCache where
  digest : JsString
  serials : List JsString
  deriving DecidableEq

/-- The stored row, and `cache` in the memory of the object. -/
structure SnapshotStore where
  row : Option SnapshotRow
  cache : Option SnapshotCache
  deriving DecidableEq

structure RevocationView where
  -- sorted lowercase hex serials, or `none` when no fresh snapshot exists
  serials : Option (List JsString)
  expiresAt : Number
  deriving DecidableEq

/-- `row.serials === "" ? [] : row.serials.split("\n")` -/
def storedSerials (serials : JsString) : List JsString :=
  if serials = [] then [] else serials.splitOn 10

/-- `serials.join("\n")` -/
def joinSerials (serials : List JsString) : JsString := join [10] serials

/-- The view of a fresh row, through the cache. -/
def viewRow (store : SnapshotStore) (row : SnapshotRow) : RevocationView × SnapshotStore :=
  let read := { digest := row.digest, serials := storedSerials row.serials : SnapshotCache }
  let cache :=
    match store.cache with
    | some cache => if cache.digest ≠ row.digest then read else cache
    | none => read
  ({ serials := some cache.serials, expiresAt := row.expiresAt },
    { store with cache := some cache })

/-- `revocations` up to its refresh: an answer from a fresh row, or none yet. -/
def revocationsStart (store : SnapshotStore) (nowSeconds : Number) :
    Option (RevocationView × SnapshotStore) :=
  match store.row with
  | none => none
  | some row => if nowSeconds ≥ row.expiresAt then none else some (viewRow store row)

/-- `revocations` from the end of its refresh. -/
def revocationsEnd (store : SnapshotStore) (nowSeconds : Number) :
    RevocationView × SnapshotStore :=
  match store.row with
  | none => ({ serials := none, expiresAt := .finite 0 }, store)
  | some row =>
    if nowSeconds ≥ row.expiresAt then ({ serials := none, expiresAt := row.expiresAt }, store)
    else viewRow store row

/-! ### Refresh -/

/-- What `refresh` reads of a response before its body. -/
structure Response where
  status : Nat
  contentLength : Option JsString
  cacheControl : Option JsString
  age : Option JsString

/-- From the response to the first read of its body. -/
def checkResponse (engine : Engine) (response : Response) : Js Unit :=
  if response.status ≠ 200 then .error (.error "status")
  else if engine.number (response.contentLength.getD (js "0")) > .finite maxFeedBytes then
    .error (.error "too large")
  else .ok ()

/-- The reading loop: `total` octets were read before. -/
def readChunks (max : Nat) : Nat → List Bytes → Js Bytes
  | _, [] => .ok []
  | total, value :: rest =>
    if total + value.length > max then .error (.error "too large")
    else do
      let more ← readChunks max (total + value.length) rest
      .ok (value ++ more)

/-- `boundedText`; no chunks at all is a response without a body, or a failed read. -/
def boundedText (body : Option (List Bytes)) (max : Nat) : Js JsString :=
  match body with
  | none => .error (.error "no body")
  | some chunks => do .ok (utf8DecodeLossy (← readChunks max 0 chunks))

/-- When a snapshot downloaded at `nowSeconds` expires. -/
def snapshotExpiry (response : Response) (nowSeconds : Number) : Number :=
  nowSeconds.add (Number.min maxTtlSeconds
    (Number.max (.finite 0) (snapshotTtl response.cacheControl response.age)))

/-- From the body to the digest: the sorted serials and when they expire. `clock` is the reading
of `Date.now()`, in seconds. -/
def readFeed (engine : Engine) (response : Response) (body : Option (List Bytes))
    (nowSeconds clock : Number) : Js (List JsString × Number) := do
  let text ← boundedText body maxFeedBytes
  let expiresAt := snapshotExpiry response nowSeconds
  if clock ≥ expiresAt then .error (.error "stale before use")
  else do
    let serials ← parseFeed engine text
    .ok (sortStrings serials, expiresAt)

/-- The SHA-256 of the joined serials, in hex. -/
def digestSerials (engine : Engine) (joined : JsString) : JsString :=
  hex (engine.sha256 (utf8Encode joined))

/-- The SQL section at the end of `refresh`. -/
def writeSnapshot (engine : Engine) (store : SnapshotStore) (serials : List JsString)
    (expiresAt nowSeconds : Number) : Js SnapshotStore := do
  let joined := joinSerials serials
  let digest := digestSerials engine joined
  let expiresAt ← notNull expiresAt
  let fetchedAt ← notNull nowSeconds
  let inserted : SnapshotStore := {
    row := some { serials := joined, digest := digest, expiresAt := expiresAt, fetchedAt := fetchedAt }
    cache := some { digest := digest, serials := serials } }
  match store.row with
  | some current =>
    if current.digest = digest then
      .ok { store with row := some { current with expiresAt := expiresAt, fetchedAt := fetchedAt } }
    else .ok inserted
  | none => .ok inserted

end UncrackableL5

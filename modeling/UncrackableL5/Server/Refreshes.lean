import UncrackableL5.Library.Transition
import UncrackableL5.Server.State

/-!
# Interleaved refreshes

The object runs one piece of code at a time, but delivers other events while a method awaits. An
event here is one resumption: it runs a method from the await that just settled to the next one.
Refreshes are numbered in the order they start. Times are whole seconds, as
`Math.floor(Date.now() / 1000)` gives them.
-/
namespace UncrackableL5

/-- Where a refresh is suspended. -/
inductive Phase where
  -- `await fetch(...)`
  | fetching
  -- `await reader.read()`, the response checked
  | reading (response : Response)
  -- `await crypto.subtle.digest(...)`
  | digesting (serials : List JsString) (expiresAt : Number)
  -- `await this.ctx.storage.setAlarm(...)` after the SQL section
  | settingAlarm
  -- the same in the `catch` block
  | settingRetry
  -- returned, the `revocations` call that awaits it not resumed yet
  | returned
  -- nothing left to run
  | over

/-- One run of `refresh`. -/
structure Refresh where
  nowSeconds : Int
  -- whether a `revocations` call awaits it, rather than `alarm`
  called : Bool
  phase : Phase
  -- history: whether it replaced the row
  wrote : Bool

/-- History: a feed body that was downloaded and parsed. -/
structure Download where
  refresh : Nat
  response : Response
  body : List Bytes
  serials : List JsString

structure Object where
  store : SnapshotStore
  refreshes : List Refresh
  -- what the last event returned to a `revocations` call: its argument and the view
  answer : Option (Int × RevocationView)
  -- history: the downloads so far, and the refresh that the row came from
  downloads : List Download
  writer : Option Nat

def Object.initial : Object where
  store := { row := none, cache := none }
  refreshes := []
  answer := none
  downloads := []
  writer := none

inductive Event where
  -- a `revocations` call, and the alarm
  | revocations (nowSeconds : Int)
  | alarm (nowSeconds : Int)
  -- the fetch of a refresh settles; `none` is a failure or a timeout
  | response (refresh : Nat) (response : Option Response)
  -- its body is read to the end or fails; `clock` is what `Date.now()` reads then, in seconds
  | body (refresh : Nat) (body : Option (List Bytes)) (clock : Int)
  -- its digest settles
  | digest (refresh : Nat) (fails : Bool)
  -- its alarm settles; when it fails in the `catch` block the refresh throws
  | alarmSet (refresh : Nat) (fails : Bool)
  -- the call that awaits it resumes
  | resume (refresh : Nat)
  -- the object is evicted; memory is lost and the row is kept
  | restart

/-- The refresh that runs in an event. -/
def Event.refresh : Event → Option Nat
  | .response i _ | .body i _ _ | .digest i _ | .alarmSet i _ => some i
  | .revocations _ | .alarm _ | .resume _ | .restart => none

namespace Object

/-- Moves a refresh to another phase. -/
def setPhase (o : Object) (i : Nat) (r : Refresh) (phase : Phase) : Object :=
  { o with answer := none, refreshes := o.refreshes.set i { r with phase := phase } }

/-- Starts a refresh. -/
def start (o : Object) (nowSeconds : Int) (called : Bool) : Object :=
  { o with
    answer := none
    refreshes := o.refreshes ++
      [{ nowSeconds := nowSeconds, called := called, phase := .fetching, wrote := false }] }

/-- Answers a `revocations` call. -/
def reply (o : Object) (nowSeconds : Int) (outcome : RevocationView × SnapshotStore) : Object :=
  { o with store := outcome.2, answer := some (nowSeconds, outcome.1) }

/-- The body of refresh `i` was read. -/
def bodyRead (engine : Engine) (o : Object) (i : Nat) (r : Refresh) (response : Response)
    (body : Option (List Bytes)) (clock : Int) : Object :=
  match readFeed engine response body r.nowSeconds clock with
  | .error _ => o.setPhase i r .settingRetry
  | .ok (serials, expiresAt) =>
    { o.setPhase i r (.digesting serials expiresAt) with
      downloads := o.downloads ++ [{
        refresh := i
        response := response
        body := body.getD []
        serials := serials }] }

/-- The SQL section of refresh `i`. -/
def write (engine : Engine) (o : Object) (i : Nat) (r : Refresh) (serials : List JsString)
    (expiresAt : Number) : Object :=
  match writeSnapshot engine o.store serials expiresAt r.nowSeconds with
  | .error _ => o.setPhase i r .settingRetry
  | .ok store =>
    { o with
      store := store
      answer := none
      refreshes := o.refreshes.set i { r with phase := .settingAlarm, wrote := true }
      writer := some i }

/-- One event; `none` when it cannot happen. -/
def step (engine : Engine) (o : Object) : Event → Option Object
  | .revocations nowSeconds =>
    match revocationsStart o.store nowSeconds with
    | some outcome => some (o.reply nowSeconds outcome)
    | none => some (o.start nowSeconds true)
  | .alarm nowSeconds => some (o.start nowSeconds false)
  | .response i response =>
    match o.refreshes[i]? with
    | some r =>
      match r.phase with
      | .fetching =>
        match response with
        | none => some (o.setPhase i r .settingRetry)
        | some response =>
          match checkResponse engine response with
          | .ok () => some (o.setPhase i r (.reading response))
          | .error _ => some (o.setPhase i r .settingRetry)
      | _ => none
    | none => none
  | .body i body clock =>
    match o.refreshes[i]? with
    | some r =>
      match r.phase with
      | .reading response => some (o.bodyRead engine i r response body clock)
      | _ => none
    | none => none
  | .digest i fails =>
    match o.refreshes[i]? with
    | some r =>
      match r.phase with
      | .digesting serials expiresAt =>
        if fails then some (o.setPhase i r .settingRetry)
        else some (o.write engine i r serials expiresAt)
      | _ => none
    | none => none
  | .alarmSet i fails =>
    match o.refreshes[i]? with
    | some r =>
      match r.phase with
      | .settingAlarm =>
        if fails then some (o.setPhase i r .settingRetry)
        else some (o.setPhase i r (if r.called then .returned else .over))
      | .settingRetry =>
        some (o.setPhase i r (if r.called ∧ ¬fails then .returned else .over))
      | _ => none
    | none => none
  | .resume i =>
    match o.refreshes[i]? with
    | some r =>
      match r.phase with
      | .returned =>
        some ((o.setPhase i r .over).reply r.nowSeconds (revocationsEnd o.store r.nowSeconds))
      | _ => none
    | none => none
  | .restart =>
    some { o with
      store := { o.store with cache := none }
      answer := none
      refreshes := o.refreshes.map fun r => { r with phase := .over } }

end Object

end UncrackableL5

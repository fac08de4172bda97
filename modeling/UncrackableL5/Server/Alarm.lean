import UncrackableL5.Server.Refreshes
import UncrackableL5.Server.Worker

/-!
# The alarm

The object under the runtime that runs its `alarm`. A `setAlarm` replaces the time of the next run
when it is called, not when it settles. A run takes the time away; one that is cut short by a
restart, or that throws, is repeated.
-/
namespace UncrackableL5

def refreshMarginSeconds : Number := .finite 30

/-- `Math.max(nowSeconds + 60, expiresAt - REFRESH_MARGIN_SECONDS) * 1000` -/
def nextAlarm (nowSeconds : Int) (expiresAt : Number) : Number :=
  (Number.max ((nowSeconds : Number).add (.finite 60)) (expiresAt.sub refreshMarginSeconds)).mulNat
    1000

/-- `(nowSeconds + 60) * 1000`, in the `catch` block. -/
def retryAlarm (nowSeconds : Int) : Number := ((nowSeconds : Number).add (.finite 60)).mulNat 1000

/-- Whether the refresh has yet to call `setAlarm`. -/
def Phase.isDownload : Phase → Bool
  | .fetching | .reading _ | .digesting _ _ => true
  | _ => false

/-- The argument of the `setAlarm` with which a refresh goes on to its next phase. -/
def Refresh.alarmCall (r : Refresh) (next : Phase) : Option Number :=
  match r.phase, next with
  | .digesting _ expiresAt, .settingAlarm => some (nextAlarm r.nowSeconds expiresAt)
  | _, .settingRetry => some (retryAlarm r.nowSeconds)
  | _, _ => none

/-- The argument of the `setAlarm` that refresh `i` has called in an event. -/
def Object.alarmCall (before after : Object) (i : Nat) : Option Number :=
  match before.refreshes[i]?, after.refreshes[i]? with
  | some r, some r' => r.alarmCall r'.phase
  | _, _ => none

/-- The object, its alarm and its clock. -/
structure Schedule where
  object : Object
  -- when `alarm` runs next, in milliseconds
  alarm : Option Number
  -- a run of `alarm` has to be repeated
  owed : Bool
  -- `Math.floor(Date.now() / 1000)`
  clock : Int

def Schedule.initial (clock : Int) : Schedule where
  object := .initial
  alarm := none
  owed := false
  clock := clock

inductive ScheduleEvent where
  | tick (clock : Int)
  -- the runtime runs `alarm`, for its time or once more
  | fire
  | rerun
  | object (event : Event)

namespace Schedule

/-- The readings of a clock that shows a date; only the runtime calls `alarm`. -/
def admits (s : Schedule) : Event → Bool
  | .revocations nowSeconds => IsSecond nowSeconds
  | .alarm _ => false
  | .body _ _ clock => clock = s.clock
  | _ => true

/-- The alarm after an event. A `setAlarm` that fails may lose it. -/
def alarmAfter (s : Schedule) (event : Event) (object : Object) : Option Number :=
  match event.refresh with
  | none => s.alarm
  | some i =>
    match s.object.alarmCall object i, event with
    | some time, _ => some time
    | none, .alarmSet _ true => none
    | none, _ => s.alarm

/-- Whether the event cuts a run of `alarm` short. -/
def cutsShort (s : Schedule) : Event → Bool
  | .restart => s.object.refreshes.any fun r =>
    !r.called && match r.phase with
      | .over => false
      | _ => true
  | .alarmSet i true =>
    match s.object.refreshes[i]? with
    | some r => !r.called && match r.phase with
      | .settingRetry => true
      | _ => false
    | none => false
  | _ => false

/-- One event; `none` when it cannot happen. -/
def step (engine : Engine) (s : Schedule) : ScheduleEvent → Option Schedule
  | .tick clock =>
    if s.clock ≤ clock ∧ IsSecond clock then some { s with clock := clock } else none
  | .fire =>
    match s.alarm with
    | some time =>
      if time ≤ ((s.clock : Number)).mulNat 1000 then
        (s.object.step engine (.alarm s.clock)).map fun object =>
          { s with object := object, alarm := none }
      else none
    | none => none
  | .rerun =>
    if s.owed then
      (s.object.step engine (.alarm s.clock)).map fun object =>
        { s with object := object, owed := false }
    else none
  | .object event =>
    if s.admits event then
      (s.object.step engine event).map fun object =>
        { s with
          object := object
          alarm := s.alarmAfter event object
          owed := s.owed || s.cutsShort event }
    else none

end Schedule

end UncrackableL5

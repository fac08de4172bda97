import UncrackableL5.Properties.RefreshSteps
import UncrackableL5.Properties.SnapshotFreshness
import UncrackableL5.Properties.SnapshotLifetime
import UncrackableL5.Server.Alarm

/-!
# The schedule of refreshes

Every refresh asks for the alarm that starts the next one, also where it fails. So the object goes
on refreshing for good.

## Main results

- `Object.went_of_step`: the cases of an event, with the phase of its refresh before and after.
- `Schedule.stepped_of_step`: the cases of an event of the runtime.
- `alarm_chain`: there is always a next refresh, 60 to 270 seconds after the reading of the one
  that asked for it.
-/
namespace UncrackableL5

open Transition

/-! ### Steps of a refresh -/

/-- How a refresh goes from one await to the next, unless it writes the row. -/
inductive Refresh.Goes (engine : Engine) (o : Object) (r : Refresh) : Event → Phase → Prop where
  | checked (i : Nat) (response : Response) (phase : r.phase = .fetching) :
      Goes engine o r (.response i (some response)) (.reading response)
  | read (i : Nat) (response : Response) (body : Option (List Bytes)) (clock : Int)
      (serials : List JsString) (expiresAt : Number) (phase : r.phase = .reading response)
      (parsed : readFeed engine response body r.nowSeconds clock = .ok (serials, expiresAt)) :
      Goes engine o r (.body i body clock) (.digesting serials expiresAt)
  | unfetched (i : Nat) (response : Option Response) (phase : r.phase = .fetching)
      (fails : ∀ x, response = some x → checkResponse engine x ≠ .ok ()) :
      Goes engine o r (.response i response) .settingRetry
  | unread (i : Nat) (response : Response) (body : Option (List Bytes)) (clock : Int)
      (phase : r.phase = .reading response)
      (fails : ∀ out, readFeed engine response body r.nowSeconds clock ≠ .ok out) :
      Goes engine o r (.body i body clock) .settingRetry
  | unwritten (i : Nat) (failed : Bool) (serials : List JsString) (expiresAt : Number)
      (phase : r.phase = .digesting serials expiresAt)
      (fails : failed = false →
        ∀ out, writeSnapshot engine o.store serials expiresAt r.nowSeconds ≠ .ok out) :
      Goes engine o r (.digest i failed) .settingRetry
  | unset (i : Nat) (phase : r.phase = .settingAlarm) :
      Goes engine o r (.alarmSet i true) .settingRetry
  | ended (i : Nat) (failed : Bool) (last : Phase)
      (phase : r.phase = .settingAlarm ∧ failed = false ∨ r.phase = .settingRetry)
      (finished : last = .returned ∨ last = .over) :
      Goes engine o r (.alarmSet i failed) last

namespace Object

/-- What one event does to the refreshes and the row. -/
inductive Went (engine : Engine) (o : Object) (event : Event) (t : Object) : Prop where
  | answered (now : Int) (calls : event = .revocations now) (refreshes : t.refreshes = o.refreshes)
      (row : t.store.row = o.store.row)
  | started (now : Int) (called : Bool)
      (starts : event = if called then .revocations now else .alarm now)
      (stale : called = true → revocationsStart o.store now = none)
      (refreshes : t.refreshes = o.refreshes ++
        [{ nowSeconds := now, called := called, phase := .fetching, wrote := false }])
      (row : t.store.row = o.store.row)
  | went (i : Nat) (r : Refresh) (phase : Phase) (acts : event.refresh = some i)
      (running : o.refreshes[i]? = some r) (goes : r.Goes engine o event phase)
      (refreshes : t.refreshes = o.refreshes.set i { r with phase := phase })
      (row : t.store.row = o.store.row)
  | wrote (i : Nat) (r : Refresh) (serials : List JsString) (row : SnapshotRow)
      (writes : event = .digest i false) (running : o.refreshes[i]? = some r)
      (phase : r.phase = .digesting serials row.expiresAt) (number : row.expiresAt ≠ .nan)
      (refreshes : t.refreshes = o.refreshes.set i { r with phase := .settingAlarm, wrote := true })
      (stored : t.store.row = some row)
  | resumed (i : Nat) (r : Refresh) (resumes : event = .resume i)
      (running : o.refreshes[i]? = some r) (phase : r.phase = .returned)
      (refreshes : t.refreshes = o.refreshes.set i { r with phase := .over })
      (row : t.store.row = o.store.row)
  | restarted (restarts : event = .restart)
      (refreshes : t.refreshes = o.refreshes.map fun r => { r with phase := .over })
      (row : t.store.row = o.store.row)

variable {engine : Engine} {o t : Object} {i : Nat}

private theorem went_of_response {response : Option Response}
    (taken : step engine o (.response i response) = some t) :
    Went engine o (.response i response) t := by
  simp only [step] at taken
  split at taken
  next r running =>
    split at taken
    next phase =>
      split at taken
      next =>
        cases taken
        exact .went i r _ rfl running (.unfetched i none phase (by simp)) rfl rfl
      next response =>
        split at taken
        next =>
          cases taken
          exact .went i r _ rfl running (.checked i response phase) rfl rfl
        next e failed =>
          cases taken
          exact .went i r _ rfl running (.unfetched i _ phase (by simp [failed])) rfl rfl
    next => cases taken
  next => cases taken

private theorem went_of_body {body : Option (List Bytes)} {clock : Int}
    (taken : step engine o (.body i body clock) = some t) :
    Went engine o (.body i body clock) t := by
  simp only [step] at taken
  split at taken
  next r running =>
    split at taken
    next response phase =>
      simp only [bodyRead, Option.some.injEq] at taken
      split at taken
      next e failed =>
        subst taken
        exact .went i r _ rfl running (.unread i response body clock phase (by simp [failed])) rfl
          rfl
      next serials expiresAt parsed =>
        subst taken
        exact .went i r _ rfl running (.read i response body clock serials expiresAt phase parsed)
          rfl rfl
    next => cases taken
  next => cases taken

/-- The row that is written has the expiry of the refresh. -/
private theorem went_of_digest {failed : Bool}
    (taken : step engine o (.digest i failed) = some t) : Went engine o (.digest i failed) t := by
  simp only [step] at taken
  split at taken
  next r running =>
    split at taken
    next serials expiresAt phase =>
      cases failed with
      | true =>
        cases taken
        exact .went i r _ rfl running (.unwritten i true serials expiresAt phase (by simp)) rfl rfl
      | false =>
        simp only [Bool.false_eq_true, ↓reduceIte, write, Option.some.injEq] at taken
        split at taken
        next e failed =>
          subst taken
          exact .went i r _ rfl running
            (.unwritten i false serials expiresAt phase (by simp [failed])) rfl rfl
        next store written =>
          subst taken
          obtain ⟨number, ⟨current, -, -, rfl⟩ | rfl⟩ := writeSnapshot_eq_ok written
          · exact .wrote i r serials _ rfl running phase number rfl rfl
          · exact .wrote i r serials _ rfl running phase number rfl rfl
    next => cases taken
  next => cases taken

private theorem went_of_alarmSet {failed : Bool}
    (taken : step engine o (.alarmSet i failed) = some t) :
    Went engine o (.alarmSet i failed) t := by
  simp only [step] at taken
  split at taken
  next r running =>
    split at taken
    next phase =>
      cases failed with
      | true =>
        cases taken
        exact .went i r _ rfl running (.unset i phase) rfl rfl
      | false =>
        cases taken
        exact .went i r _ rfl running
          (.ended i false _ (.inl ⟨phase, rfl⟩) (by split <;> simp)) rfl rfl
    next phase =>
      cases taken
      exact .went i r _ rfl running (.ended i failed _ (.inr phase) (by split <;> simp)) rfl rfl
    next => cases taken
  next => cases taken

private theorem went_of_resume (taken : step engine o (.resume i) = some t) :
    Went engine o (.resume i) t := by
  simp only [step] at taken
  split at taken
  next r running =>
    split at taken
    next phase =>
      cases taken
      exact .resumed i r rfl running phase rfl (revocationsEnd_row _ _)
    next => cases taken
  next => cases taken

theorem went_of_step {event : Event} (taken : step engine o event = some t) :
    Went engine o event t := by
  cases event with
  | revocations now =>
    simp only [step] at taken
    split at taken
    next outcome fresh =>
      cases taken
      exact .answered now rfl rfl (revocationsStart_row fresh)
    next stale =>
      cases taken
      exact .started now true rfl (fun _ => stale) rfl rfl
  | alarm now =>
    cases taken
    exact .started now false rfl (fun called => by cases called) rfl rfl
  | response i response => exact went_of_response taken
  | body i body clock => exact went_of_body taken
  | digest i failed => exact went_of_digest taken
  | alarmSet i failed => exact went_of_alarmSet taken
  | resume i => exact went_of_resume taken
  | restart =>
    cases taken
    exact .restarted rfl rfl rfl

end Object

/-! ### The time of the alarm -/

theorem Number.mulNat_intCast (a : Int) (m : Nat) (bound : (a * m).natAbs < 2 ^ 53) :
    (a : Number).mulNat m = ((a * m : Int) : Number) := by
  rw [Number.intCast_def, Number.mulNat, Number.intCast_def, ← Number.round_intCast _ bound]
  push_cast
  rfl

private theorem round_between {q : ℚ} {low high : Int} (lowBound : low.natAbs < 2 ^ 53)
    (highBound : high.natAbs < 2 ^ 53) (above : (low : ℚ) ≤ q) (below : q ≤ high) :
    ∃ v : ℚ, Number.round q = .finite v ∧ (low : ℚ) ≤ v ∧ v ≤ high := by
  have first := Number.round_mono above
  have last := Number.round_mono below
  rw [Number.round_intCast _ lowBound] at first
  rw [Number.round_intCast _ highBound] at last
  cases rounded : Number.round q with
  | finite v =>
    rw [rounded] at first last
    exact ⟨v, rfl, by simpa using first, by simpa using last⟩
  | nan | negInfinity | posInfinity =>
    rw [rounded, Number.le_iff] at first last
    revert first last
    simp [LT.lt, Number.ltb]

/-- An alarm is set for 60 to 270 seconds after the reading of its refresh. -/
def AlarmOf (nowSeconds : Int) (time : Number) : Prop :=
  (((nowSeconds + 60) * 1000 : Int) : Number) ≤ time ∧
    time ≤ (((nowSeconds + 270) * 1000 : Int) : Number)

private theorem mulNat_alarmOf {now : Int} {v : ℚ} (second : IsSecond now) (above : now + 60 ≤ v)
    (below : v ≤ now + 270) : AlarmOf now ((Number.finite v).mulNat 1000) := by
  have small := second
  rw [IsSecond] at small
  have least : (((now + 60) * 1000 : Int) : ℚ) ≤ v * 1000 := by
    push_cast
    linarith
  have most : v * 1000 ≤ (((now + 270) * 1000 : Int) : ℚ) := by
    push_cast
    linarith
  obtain ⟨w, rounded, low, high⟩ := round_between (by omega) (by omega) least most
  have product : (Number.finite v).mulNat 1000 = .finite w := by
    rw [Number.mulNat, ← rounded]
    norm_num
  rw [AlarmOf, product, Number.intCast_def, Number.intCast_def]
  exact ⟨by simpa using low, by simpa using high⟩

theorem retryAlarm_alarmOf {now : Int} (second : IsSecond now) : AlarmOf now (retryAlarm now) := by
  have small := second
  rw [IsSecond] at small
  have sum : (now : Number).add (.finite 60) = ((now + 60 : Int) : Number) :=
    Number.add_intCast now 60 (by omega)
  rw [retryAlarm, sum, Number.intCast_def]
  exact mulNat_alarmOf second (by push_cast; linarith) (by push_cast; linarith)

theorem nextAlarm_alarmOf {now : Int} {expiresAt : Number} (second : IsSecond now)
    (early : (now : Number) ≤ expiresAt) (late : expiresAt ≤ ((now + 300 : Int) : Number)) :
    AlarmOf now (nextAlarm now expiresAt) := by
  have small := second
  rw [IsSecond] at small
  have sum : (now : Number).add (.finite 60) = ((now + 60 : Int) : Number) :=
    Number.add_intCast now 60 (by omega)
  cases expiresAt with
  | finite e =>
    simp only [Number.intCast_def, Number.finite_le_finite] at early late
    have least : ((now - 30 : Int) : ℚ) ≤ e - 30 := by
      push_cast
      linarith
    have most : e - 30 ≤ ((now + 270 : Int) : ℚ) := by
      push_cast at late ⊢
      linarith
    obtain ⟨w, rounded, low, high⟩ := round_between (by omega) (by omega) least most
    have margin : (Number.finite e).sub refreshMarginSeconds = .finite w := by
      rw [← rounded, Number.sub, refreshMarginSeconds, Number.neg, Number.add, sub_eq_add_neg]
    push_cast at high
    rw [nextAlarm, sum, margin, Number.intCast_def, Number.max, if_neg (by simp)]
    split
    next later =>
      rw [Number.finite_lt_finite] at later
      push_cast at later
      exact mulNat_alarmOf second (by linarith) high
    next => exact mulNat_alarmOf second (by push_cast; linarith) (by push_cast; linarith)
  | nan | negInfinity | posInfinity =>
    rw [Number.le_iff] at early late
    revert early late
    simp [LT.lt, Number.ltb, Number.intCast_def]

/-- A lifetime is `NaN` or within its bounds. -/
theorem snapshotTtl_cases (cacheControl age : Option JsString) :
    snapshotTtl cacheControl age = .nan ∨
      ∃ q : ℚ, snapshotTtl cacheControl age = .finite q ∧ 0 ≤ q ∧ q ≤ 300 := by
  by_cases forbidden : Uncacheable (cacheControl.getD [])
  · exact .inr ⟨0, snapshotTtl_of_uncacheable age forbidden, le_rfl, by norm_num⟩
  · rw [snapshotTtl_eq age forbidden]
    generalize remainingSeconds (originSeconds (cacheControl.getD [])) (ageSeconds age) = remaining
    by_cases number : remaining = .nan
    · exact .inl (number ▸ clampTtl_nan)
    · exact .inr (clampTtl_range number)

theorem snapshotExpiry_within (response : Response) {now : Int} (second : IsSecond now)
    (number : snapshotExpiry response now ≠ .nan) :
    (now : Number) ≤ snapshotExpiry response now ∧
      snapshotExpiry response now ≤ ((now + 300 : Int) : Number) := by
  have small := second
  rw [IsSecond] at small
  rcases snapshotTtl_cases response.cacheControl response.age with none | ⟨q, ttl, low, high⟩
  · refine absurd ?_ number
    rw [snapshotExpiry, none]
    rfl
  · have double : Number.IsDouble (now : Number) := by
      rintro value same
      obtain rfl : (now : ℚ) = value := by simpa [Number.intCast_def] using same
      exact Number.round_intCast now (by omega)
    have bounds := snapshotExpiry_bounds ttl low high (by simp [Number.intCast_def]) double
    have sum : (now : Number).add maxTtlSeconds = ((now + 300 : Int) : Number) :=
      Number.add_intCast now 300 (by omega)
    rwa [sum] at bounds

/-! ### The chain of alarms -/

namespace Schedule

variable {engine : Engine} {s t : Schedule}

/-- What one event does. -/
inductive Stepped (engine : Engine) (s : Schedule) : ScheduleEvent → Schedule → Prop where
  | ticked (clock : Int) (later : s.clock ≤ clock) (second : IsSecond clock) :
      Stepped engine s (.tick clock) { s with clock := clock }
  | fired (time : Number) (o : Object) (set : s.alarm = some time)
      (due : time ≤ (s.clock : Number).mulNat 1000)
      (step : s.object.step engine (.alarm s.clock) = some o) :
      Stepped engine s .fire { s with object := o, alarm := none }
  | reran (o : Object) (owed : s.owed = true)
      (step : s.object.step engine (.alarm s.clock) = some o) :
      Stepped engine s .rerun { s with object := o, owed := false }
  | moved (event : Event) (o : Object) (admitted : s.admits event = true)
      (step : s.object.step engine event = some o) :
      Stepped engine s (.object event) {
        s with
        object := o
        alarm := s.alarmAfter event o
        owed := s.owed || s.cutsShort event }

theorem stepped_of_step {event : ScheduleEvent} (taken : s.step engine event = some t) :
    Stepped engine s event t := by
  cases event with
  | tick clock =>
    simp only [Schedule.step] at taken
    split at taken
    next later =>
      cases taken
      exact .ticked clock later.1 later.2
    next => cases taken
  | fire =>
    simp only [Schedule.step] at taken
    split at taken
    next time set =>
      split at taken
      next due =>
        obtain ⟨o, step, rfl⟩ := Option.map_eq_some_iff.mp taken
        exact .fired time o set due step
      next => cases taken
    next => cases taken
  | rerun =>
    simp only [Schedule.step] at taken
    split at taken
    next owed =>
      obtain ⟨o, step, rfl⟩ := Option.map_eq_some_iff.mp taken
      exact .reran o owed step
    next => cases taken
  | object event =>
    simp only [Schedule.step] at taken
    split at taken
    next admitted =>
      obtain ⟨o, step, rfl⟩ := Option.map_eq_some_iff.mp taken
      exact .moved event o admitted step
    next => cases taken

/-- A run of `alarm` is on its way to its `setAlarm`. -/
def Downloads (o : Object) : Prop :=
  ∃ r ∈ o.refreshes, r.called = false ∧ r.phase.isDownload = true

/-- There is a next refresh. -/
def Chained (s : Schedule) : Prop := s.alarm ≠ none ∨ s.owed = true ∨ Downloads s.object

/-- No `setAlarm` of a `catch` block fails for a `revocations` call. -/
def Rearms (s : Schedule) (event : ScheduleEvent) : Prop :=
  ∀ i r, event = .object (.alarmSet i true) → s.object.refreshes[i]? = some r →
    r.phase matches .settingRetry → r.called = false

/-- A download that is digested expires within 300 seconds of its reading. -/
def Expires (r : Refresh) : Prop :=
  ∀ serials expiresAt, r.phase = .digesting serials expiresAt → expiresAt ≠ .nan →
    (r.nowSeconds : Number) ≤ expiresAt ∧ expiresAt ≤ ((r.nowSeconds + 300 : Int) : Number)

/-- What the refreshes and the alarm owe to the readings. -/
structure Sound (s : Schedule) : Prop where
  clock : IsSecond s.clock
  seconds : ∀ r ∈ s.object.refreshes, IsSecond r.nowSeconds
  expiries : ∀ r ∈ s.object.refreshes, Expires r
  alarm : ∀ time, s.alarm = some time → ∃ r ∈ s.object.refreshes, AlarmOf r.nowSeconds time

theorem sound_initial {clock : Int} (second : IsSecond clock) : Sound (.initial clock) where
  clock := second
  seconds := by simp [Schedule.initial, Object.initial]
  expiries := by simp [Schedule.initial, Object.initial]
  alarm := by simp [Schedule.initial]

/-- What an event of the object does to the alarm. -/
inductive Alarms (s : Schedule) (event : Event) (o : Object) : Prop where
  | retry (r : Refresh) (member : r ∈ s.object.refreshes)
      (sets : s.alarmAfter event o = some (retryAlarm r.nowSeconds))
  | next (r : Refresh) (member : r ∈ s.object.refreshes) (serials : List JsString)
      (expiresAt : Number) (phase : r.phase = .digesting serials expiresAt)
      (number : expiresAt ≠ .nan)
      (sets : s.alarmAfter event o = some (nextAlarm r.nowSeconds expiresAt))
  | lost (i : Nat) (r : Refresh) (running : s.object.refreshes[i]? = some r)
      (phase : r.phase = .settingRetry) (fails : event = .alarmSet i true)
      (loses : s.alarmAfter event o = none)
  | kept (keeps : s.alarmAfter event o = s.alarm)
      (downloads : Downloads s.object → Downloads o ∨ s.cutsShort event = true)

theorem alarmCall_set {before after : Object} {i : Nat} {r r' : Refresh}
    (running : before.refreshes[i]? = some r)
    (refreshes : after.refreshes = before.refreshes.set i r') :
    before.alarmCall after i = r.alarmCall r'.phase := by
  have bound := (List.getElem?_eq_some_iff.mp running).1
  have moved : after.refreshes[i]? = some r' := by
    rw [refreshes]
    exact List.getElem?_set_self bound
  simp only [Object.alarmCall, running, moved]

theorem alarmCall_finished {r : Refresh} {last : Phase}
    (finished : last = .returned ∨ last = .over) : r.alarmCall last = none := by
  rcases finished with rfl | rfl <;> cases phase : r.phase <;> simp [Refresh.alarmCall, phase]

/-- A download goes on where another refresh moves, or moves itself and stays one. -/
theorem download_set {before after : Object} {i : Nat} {r r' x : Refresh}
    (running : before.refreshes[i]? = some r)
    (refreshes : after.refreshes = before.refreshes.set i r') (called : r'.called = r.called)
    (same : r'.nowSeconds = r.nowSeconds)
    (phase : r.phase.isDownload = true → r'.phase.isDownload = true)
    (member : x ∈ before.refreshes) (download : x.phase.isDownload = true) :
    ∃ x' ∈ after.refreshes, x'.called = x.called ∧ x'.nowSeconds = x.nowSeconds ∧
      x'.phase.isDownload = true := by
  obtain ⟨j, found⟩ := List.mem_iff_getElem?.mp member
  have bound := (List.getElem?_eq_some_iff.mp running).1
  rw [refreshes]
  by_cases here : j = i
  · subst here
    cases running.symm.trans found
    exact ⟨r', List.mem_of_getElem? (List.getElem?_set_self bound), called, same, phase download⟩
  · refine ⟨x, ?_, rfl, rfl, download⟩
    apply List.mem_of_getElem? (i := j)
    rw [List.getElem?_set_ne (Ne.symm here), found]

private theorem Downloads.set {before after : Object} {i : Nat} {r r' : Refresh}
    (downloads : Downloads before) (running : before.refreshes[i]? = some r)
    (refreshes : after.refreshes = before.refreshes.set i r') (called : r'.called = r.called)
    (same : r'.nowSeconds = r.nowSeconds)
    (phase : r.phase.isDownload = true → r'.phase.isDownload = true) : Downloads after := by
  obtain ⟨x, member, alarm, download⟩ := downloads
  obtain ⟨x', member', kept, -, still⟩ :=
    download_set running refreshes called same phase member download
  exact ⟨x', member', kept.trans alarm, still⟩

theorem alarms_of_step {event : Event} {o : Object} (step : s.object.step engine event = some o) :
    Alarms s event o := by
  have went := Object.went_of_step step
  cases went with
  | answered now calls refreshes =>
    subst calls
    exact .kept rfl fun downloads => .inl (by rwa [Downloads, refreshes])
  | started now called starts stale refreshes =>
    refine .kept ?_ fun downloads => .inl ?_
    · subst starts
      cases called <;> rfl
    · obtain ⟨x, member, rest⟩ := downloads
      exact ⟨x, refreshes ▸ List.mem_append_left _ member, rest⟩
  | wrote i r serials row writes running phase number refreshes =>
    subst writes
    have called := alarmCall_set running refreshes
    simp only [Refresh.alarmCall, phase] at called
    refine .next r (List.mem_of_getElem? running) serials row.expiresAt phase number ?_
    simp only [alarmAfter, Event.refresh, called]
  | resumed i r resumes running phase refreshes =>
    subst resumes
    refine .kept rfl fun downloads => .inl (downloads.set running refreshes rfl rfl ?_)
    rw [phase]
    intro download
    cases download
  | restarted restarts =>
    subst restarts
    refine .kept rfl fun ⟨x, member, alarm, download⟩ => .inr ?_
    rw [cutsShort, List.any_eq_true]
    refine ⟨x, member, ?_⟩
    rw [alarm]
    cases phase : x.phase <;> simp_all [Phase.isDownload]
  | went i r phase acts running goes refreshes =>
    have member := List.mem_of_getElem? running
    have called := alarmCall_set running refreshes
    cases goes with
    | checked j response old =>
      cases acts
      simp only [Refresh.alarmCall, old] at called
      refine .kept (by simp only [alarmAfter, Event.refresh, called]) fun downloads => .inl ?_
      exact downloads.set running refreshes rfl rfl fun _ => rfl
    | read j response body clock serials expiresAt old =>
      cases acts
      simp only [Refresh.alarmCall, old] at called
      refine .kept (by simp only [alarmAfter, Event.refresh, called]) fun downloads => .inl ?_
      exact downloads.set running refreshes rfl rfl fun _ => rfl
    | unfetched j response old | unread j response body clock old
    | unwritten j failed serials expiresAt old | unset j old =>
      cases acts
      simp only [Refresh.alarmCall, old] at called
      exact .retry r member (by simp only [alarmAfter, Event.refresh, called])
    | ended j failed last old finished =>
      cases acts
      have none : s.object.alarmCall o i = none := called.trans (alarmCall_finished finished)
      rcases old with ⟨old, rfl⟩ | old
      · refine .kept (by simp only [alarmAfter, Event.refresh, none]) fun downloads => .inl ?_
        refine downloads.set running refreshes rfl rfl ?_
        rw [old]
        intro download
        cases download
      · cases failed with
        | true => exact .lost i r running old rfl (by simp only [alarmAfter, Event.refresh, none])
        | false =>
          refine .kept (by simp only [alarmAfter, Event.refresh, none]) fun downloads => .inl ?_
          refine downloads.set running refreshes rfl rfl ?_
          rw [old]
          intro download
          cases download

/-- The object of the next state, and the reading of a refresh that an event has started. -/
private theorem seconds_of_went {event : Event} {o : Object} (sound : Sound s)
    (went : s.object.Went engine event o)
    (reading : ∀ now, event = .revocations now ∨ event = .alarm now → IsSecond now) :
    (∀ r ∈ o.refreshes, IsSecond r.nowSeconds) ∧ ∀ r ∈ o.refreshes, Expires r := by
  have moved : ∀ {i : Nat} {r r' : Refresh}, s.object.refreshes[i]? = some r →
      o.refreshes = s.object.refreshes.set i r' → r'.nowSeconds = r.nowSeconds → Expires r' →
      (∀ x ∈ o.refreshes, IsSecond x.nowSeconds) ∧ ∀ x ∈ o.refreshes, Expires x := by
    intro i r r' running refreshes same expiry
    rw [refreshes]
    refine ⟨fun x member => ?_, fun x member => ?_⟩
    · rcases List.mem_or_eq_of_mem_set member with old | rfl
      · exact sound.seconds x old
      · rw [same]
        exact sound.seconds r (List.mem_of_getElem? running)
    · rcases List.mem_or_eq_of_mem_set member with old | rfl
      · exact sound.expiries x old
      · exact expiry
  cases went with
  | answered now calls refreshes =>
    rw [refreshes]
    exact ⟨sound.seconds, sound.expiries⟩
  | started now called starts stale refreshes =>
    have second : IsSecond now := by
      apply reading now
      cases called
      · exact .inr starts
      · exact .inl starts
    rw [refreshes]
    refine ⟨fun x member => ?_, fun x member => ?_⟩
    · rcases List.mem_append.mp member with old | new
      · exact sound.seconds x old
      · rw [List.mem_singleton.mp new]
        exact second
    · rcases List.mem_append.mp member with old | new
      · exact sound.expiries x old
      · rw [List.mem_singleton.mp new]
        intro serials expiresAt phase
        cases phase
  | wrote i r serials row writes running phase number refreshes =>
    refine moved running refreshes rfl ?_
    intro serials expiresAt other
    cases other
  | resumed i r resumes running phase refreshes =>
    refine moved running refreshes rfl ?_
    intro serials expiresAt other
    cases other
  | restarted restarts refreshes =>
    rw [refreshes]
    refine ⟨fun x member => ?_, fun x member serials expiresAt phase => ?_⟩
    · obtain ⟨r, old, rfl⟩ := List.mem_map.mp member
      exact sound.seconds r old
    · obtain ⟨r, old, rfl⟩ := List.mem_map.mp member
      cases phase
  | went i r phase acts running goes refreshes =>
    refine moved running refreshes rfl ?_
    intro serials expiresAt here number
    simp only at here
    subst here
    cases goes with
    | read j response body clock _ _ old parsed =>
      have expiry := (readFeed_eq_ok parsed).2.2
      rw [expiry] at number ⊢
      exact snapshotExpiry_within response (sound.seconds r (List.mem_of_getElem? running)) number
    | ended j failed _ old finished => rcases finished with same | same <;> cases same

/-- A refresh of the object keeps its reading. -/
private theorem refresh_remains {event : Event} {o : Object} {r : Refresh}
    (step : s.object.step engine event = some o) (member : r ∈ s.object.refreshes) :
    ∃ r' ∈ o.refreshes, r'.nowSeconds = r.nowSeconds := by
  obtain ⟨j, found⟩ := List.mem_iff_getElem?.mp member
  obtain ⟨r', found', same, -⟩ := (Object.stepped_of_step step).keeps j r found
  exact ⟨r', List.mem_of_getElem? found', same⟩

private theorem alarm_kept {event : Event} {o : Object} (sound : Sound s)
    (step : s.object.step engine event = some o) {time : Number} (set : s.alarm = some time) :
    ∃ r ∈ o.refreshes, AlarmOf r.nowSeconds time := by
  obtain ⟨r, member, near⟩ := sound.alarm time set
  obtain ⟨r', member', same⟩ := refresh_remains step member
  exact ⟨r', member', same ▸ near⟩

/-- The runtime starts `alarm`. -/
private theorem Sound.runs {o : Object} (sound : Sound s)
    (step : s.object.step engine (.alarm s.clock) = some o) (alarm : Option Number) (owed : Bool)
    (fewer : alarm = none ∨ alarm = s.alarm) :
    Sound { s with object := o, alarm := alarm, owed := owed } := by
  obtain ⟨seconds, expiries⟩ := seconds_of_went sound (Object.went_of_step step) (by
    rintro now (reads | reads)
    · cases reads
    · cases reads
      exact sound.clock)
  refine ⟨sound.clock, seconds, expiries, fun time set => ?_⟩
  rcases fewer with rfl | rfl
  · cases set
  · exact alarm_kept sound step set

theorem Sound.step {event : ScheduleEvent} (sound : Sound s)
    (taken : s.step engine event = some t) : Sound t := by
  cases stepped_of_step taken with
  | ticked clock later second => exact ⟨second, sound.seconds, sound.expiries, sound.alarm⟩
  | fired time o set due step => exact sound.runs step none s.owed (.inl rfl)
  | reran o owed step => exact sound.runs step s.alarm false (.inr rfl)
  | moved event o admitted step =>
    obtain ⟨seconds, expiries⟩ := seconds_of_went sound (Object.went_of_step step) (by
      rintro now (rfl | rfl)
      · simpa [admits] using admitted
      · simp [admits] at admitted)
    refine ⟨sound.clock, seconds, expiries, fun time set => ?_⟩
    cases alarms_of_step step with
    | retry r member sets =>
      obtain ⟨r', member', same⟩ := refresh_remains step member
      cases sets.symm.trans set
      refine ⟨r', member', ?_⟩
      rw [same]
      exact retryAlarm_alarmOf (sound.seconds r member)
    | next r member serials expiresAt phase number sets =>
      obtain ⟨r', member', same⟩ := refresh_remains step member
      obtain ⟨early, late⟩ := sound.expiries r member serials expiresAt phase number
      cases sets.symm.trans set
      refine ⟨r', member', ?_⟩
      rw [same]
      exact nextAlarm_alarmOf (sound.seconds r member) early late
    | lost i r running phase fails loses => cases loses.symm.trans set
    | kept keeps => exact alarm_kept sound step (keeps ▸ set)

/-- The runtime's run of `alarm` is the next refresh. -/
private theorem downloads_of_alarm {o : Object}
    (step : s.object.step engine (.alarm s.clock) = some o) : Downloads o := by
  cases step
  exact ⟨_, List.mem_append_right _ (List.mem_singleton_self _), rfl, rfl⟩

theorem Chained.step {event : ScheduleEvent} (chained : Chained s) (rearms : Rearms s event)
    (taken : s.step engine event = some t) : Chained t := by
  cases stepped_of_step taken with
  | ticked clock => exact chained
  | fired time o set due step => exact .inr (.inr (downloads_of_alarm step))
  | reran o owed step => exact .inr (.inr (downloads_of_alarm step))
  | moved event o admitted step =>
    simp only [Chained, Bool.or_eq_true]
    cases alarms_of_step step with
    | retry r member sets => exact .inl (by simp [sets])
    | next r member serials expiresAt phase number sets => exact .inl (by simp [sets])
    | lost i r running phase fails loses =>
      -- The run of `alarm` that throws is repeated.
      subst fails
      have alarm := rearms i r rfl running (by simp [phase])
      exact .inr (.inl (.inr (by simp [cutsShort, running, phase, alarm])))
    | kept keeps downloads =>
      rcases chained with set | owed | under
      · exact .inl (by rwa [keeps])
      · exact .inr (.inl (.inl owed))
      · rcases downloads under with still | short
        · exact .inr (.inr still)
        · exact .inr (.inl (.inr short))

end Schedule

/-- In every run of the object under its runtime, with any feed, faults, restarts and overlapping
refreshes: once an alarm was set, there is always a next refresh, as long as no `setAlarm` fails in
the `catch` block of a `revocations` call: an alarm is set, a run of `alarm` is to be repeated, or
one is on its way. A time that is set is 60 to 270 seconds after the reading of its refresh. -/
theorem alarm_chain (engine : Engine) (clock : Int) (before after : List ScheduleEvent)
    (m s : Schedule) (second : IsSecond clock)
    (first : Run (Schedule.step engine) (.initial clock) before m) (armed : m.alarm ≠ none)
    (rest : Run (Schedule.step engine) m after s)
    (rearms : Throughout (Schedule.step engine) Schedule.Rearms m after) :
    (s.alarm ≠ none ∨ s.owed = true ∨
        ∃ r ∈ s.object.refreshes, r.called = false ∧ r.phase.isDownload = true) ∧
      ∀ time, s.alarm = some time → ∃ r ∈ s.object.refreshes,
        (((r.nowSeconds + 60) * 1000 : Int) : Number) ≤ time ∧
          time ≤ (((r.nowSeconds + 270) * 1000 : Int) : Number) := by
  have whole : Run (Schedule.step engine) (.initial clock) (before ++ after) s :=
    (run_append _ _ _ _).mpr ⟨m, first, rest⟩
  have sound : Schedule.Sound s :=
    whole.invariant Schedule.Sound (fun _ _ _ sound taken => sound.step taken)
      (Schedule.sound_initial second)
  have chained : Schedule.Chained s :=
    rearms.invariant rest Schedule.Chained
      (fun _ _ _ chained rearms taken => chained.step rearms taken) (.inl armed)
  exact ⟨chained, sound.alarm⟩

namespace Sample

/-- A call that finds no row writes one and sets the first alarm. -/
def firstAlarm : List ScheduleEvent :=
  [.object (.revocations 100), .object (.response 0 (some response)),
    .object (.body 0 (some [utf8Encode feedBody]) 100), .object (.digest 0 false)]

def secondRefresh : List ScheduleEvent := [.object (.alarmSet 0 false), .tick 371, .fire]

end Sample

theorem alarm_chain_sample :
    ∃ m s, Run (Schedule.step Sample.engine) (.initial 100) Sample.firstAlarm m ∧
      Run (Schedule.step Sample.engine) m Sample.secondRefresh s ∧
      m.alarm = some (.finite 370000) ∧ s.alarm = none ∧
      (s.alarm ≠ none ∨ s.owed = true ∨
        ∃ r ∈ s.object.refreshes, r.called = false ∧ r.phase.isDownload = true) := by
  have set : (run (Schedule.step Sample.engine) (.initial 100) Sample.firstAlarm).any fun m =>
      m.alarm = some (.finite 370000) ∧
        (run (Schedule.step Sample.engine) m Sample.secondRefresh).any fun s => s.alarm = none := by
    decide +kernel
  cases first : run (Schedule.step Sample.engine) (.initial 100) Sample.firstAlarm with
  | none => simp [first] at set
  | some m =>
    rw [first, Option.any_some, decide_eq_true_eq] at set
    obtain ⟨armed, next⟩ := set
    cases rest : run (Schedule.step Sample.engine) m Sample.secondRefresh with
    | none => simp [rest] at next
    | some s =>
      rw [rest, Option.any_some, decide_eq_true_eq] at next
      have chained := alarm_chain Sample.engine 100 Sample.firstAlarm Sample.secondRefresh m s
        (by decide) first (by simp [armed]) rest ⟨nofun, fun _ _ => ⟨nofun, fun _ _ =>
          ⟨nofun, fun _ _ => trivial⟩⟩⟩
      exact ⟨m, s, first, rest, armed, next, chained.1⟩

end UncrackableL5

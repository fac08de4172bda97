import UncrackableL5.Properties.RefreshSchedule

/-!
# The supply of snapshots

The alarm is set 30 seconds before a snapshot expires. While alarms are late and downloads last by
less than that together, and the feed is served with a lifetime of at least 90 seconds, the next
snapshot is there before the old one expires, and no `revocations` call has to wait.

## Main results

- `Schedule.Supplied.step`: what the alarm and the refreshes owe to the expiry of the row.
- `snapshot_kept_fresh`: the row is fresh in every state that is reached.
-/
namespace UncrackableL5

open Transition

/-- What can be said of a refresh while the feed is in good order. -/
structure Refresh.Fine (lasting clock : Int) (r : Refresh) : Prop where
  prompt : r.phase.isDownload = true → clock ≤ r.nowSeconds + lasting
  roomy : ∀ response, r.phase = .reading response → ∃ ttl : Int, 90 ≤ ttl ∧ ttl ≤ 300 ∧
    snapshotExpiry response r.nowSeconds = ((r.nowSeconds + ttl : Int) : Number)
  expiry : ∀ serials expiresAt, r.phase = .digesting serials expiresAt → ∃ ttl : Int,
    90 ≤ ttl ∧ ttl ≤ 300 ∧ expiresAt = ((r.nowSeconds + ttl : Int) : Number)
  quiet : r.phase ≠ .settingRetry

/-- A response that gives a list 90 seconds. -/
def Response.Roomy (engine : Engine) (response : Response) : Prop :=
  checkResponse engine response = .ok () ∧
    ∃ ttl : Int, 90 ≤ ttl ∧ snapshotTtl response.cacheControl response.age = (ttl : Number)

namespace Schedule

/-- Alarms are at most `late` seconds late, and downloads over `lasting` seconds after their
reading; nothing fails, and no restart meets a download. -/
def Healthy (engine : Engine) (late lasting : Int) (s : Schedule) : ScheduleEvent → Prop
  | .tick clock => (∀ a : Int, s.alarm = some ((a * 1000 : Int) : Number) → clock ≤ a + late) ∧
      ∀ r ∈ s.object.refreshes, r.phase.isDownload = true → clock ≤ r.nowSeconds + lasting
  | .object (.revocations now) =>
    revocationsStart s.object.store now = none → s.clock ≤ now + lasting
  | .object (.response _ response) => ∃ x, response = some x ∧ x.Roomy engine
  | .object (.body _ body _) => ∃ text serials, boundedText body maxFeedBytes = .ok text ∧
      parseFeed engine text = .ok serials
  | .object (.digest _ fails) | .object (.alarmSet _ fails) => fails = false
  | .object .restart => ∀ r ∈ s.object.refreshes, r.phase.isDownload = false
  | _ => True

/-- The alarm, or a download, is in time for the expiry of the row. -/
def InTime (late lasting : Int) (s : Schedule) (expiresAt : Int) : Prop :=
  (∃ a : Int, s.alarm = some ((a * 1000 : Int) : Number) ∧ s.clock ≤ a + late ∧
      a + late + lasting < expiresAt) ∨
    ∃ r ∈ s.object.refreshes, r.phase.isDownload = true ∧ r.nowSeconds + lasting < expiresAt

structure Supplied (late lasting : Int) (s : Schedule) : Prop where
  sound : s.Sound
  fine : ∀ r ∈ s.object.refreshes, r.Fine lasting s.clock
  fresh : ∀ row, s.object.store.row = some row → ∃ expiresAt : Int,
    row.expiresAt = (expiresAt : Number) ∧ s.clock < expiresAt ∧ s.InTime late lasting expiresAt
  kept : ∀ r ∈ s.object.refreshes, r.wrote = true → s.object.store.row ≠ none

variable {engine : Engine} {late lasting : Int} {s t : Schedule}

theorem supplied_initial (late lasting : Int) {clock : Int} (second : IsSecond clock) :
    Supplied late lasting (.initial clock) where
  sound := sound_initial second
  fine := by simp [Schedule.initial, Object.initial]
  fresh := by simp [Schedule.initial, Object.initial]
  kept := by simp [Schedule.initial, Object.initial]

/-! ### One event of the object -/

private theorem roomy_expiry {response : Response} (roomy : response.Roomy engine) {now : Int}
    (second : IsSecond now) : ∃ ttl : Int, 90 ≤ ttl ∧ ttl ≤ 300 ∧
      snapshotExpiry response now = ((now + ttl : Int) : Number) := by
  have small := second
  rw [IsSecond] at small
  obtain ⟨-, ttl, least, lifetime⟩ := roomy
  have most : ttl ≤ 300 := by
    rcases snapshotTtl_cases response.cacheControl response.age with none | ⟨q, same, -, within⟩
    · rw [lifetime] at none
      cases none
    · rw [lifetime, Number.intCast_def] at same
      cases same
      exact_mod_cast within
  have order : (Number.finite 0) ≤ (ttl : Number) := by
    rw [Number.intCast_def, Number.finite_le_finite]
    exact_mod_cast (by omega : (0 : Int) ≤ ttl)
  have bound : (ttl : Number) ≤ maxTtlSeconds := by
    rw [Number.intCast_def, maxTtlSeconds, Number.finite_le_finite]
    exact_mod_cast most
  refine ⟨ttl, least, most, ?_⟩
  rw [snapshotExpiry, lifetime, Number.max_eq_right order, Number.min_eq_right bound]
  exact Number.add_intCast now ttl (by omega)

private theorem fine_set {before o : Object} {clock : Int} {i : Nat} {r' : Refresh}
    (fine : ∀ r ∈ before.refreshes, r.Fine lasting clock) (new : r'.Fine lasting clock)
    (refreshes : o.refreshes = before.refreshes.set i r') :
    ∀ r ∈ o.refreshes, r.Fine lasting clock := by
  rw [refreshes]
  intro r member
  rcases List.mem_or_eq_of_mem_set member with old | rfl
  · exact fine r old
  · exact new

/-- A refresh that waits for nothing but its alarm. -/
private theorem fine_done {clock : Int} {r : Refresh}
    (phase : r.phase = .settingAlarm ∨ r.phase = .returned ∨ r.phase = .over) :
    r.Fine lasting clock := by
  rcases phase with phase | phase | phase
  all_goals
    constructor
    all_goals simp [phase, Phase.isDownload]

private theorem fine_started {clock now : Int} {called : Bool} (prompt : clock ≤ now + lasting) :
    Refresh.Fine lasting clock
      { nowSeconds := now, called := called, phase := .fetching, wrote := false } where
  prompt := fun _ => prompt
  roomy := fun _ phase => by cases phase
  expiry := fun _ _ phase => by cases phase
  quiet := fun phase => by cases phase

/-- In good order a refresh goes on to its next await. -/
private theorem fine_goes {event : Event} {o : Object} {r : Refresh} {phase : Phase}
    (bound : lasting < 30) (admitted : s.admits event = true)
    (healthy : s.Healthy engine late lasting (.object event))
    (second : IsSecond r.nowSeconds) (fine : r.Fine lasting s.clock)
    (goes : r.Goes engine o event phase) :
    Refresh.Fine lasting s.clock { r with phase := phase } ∧
      (r.phase.isDownload = true → phase.isDownload = true) := by
  cases goes with
  | checked i response old =>
    obtain ⟨x, same, roomy⟩ := healthy
    cases same
    refine ⟨⟨fun _ => fine.prompt (by rw [old]; rfl), ?_, ?_, ?_⟩, fun _ => rfl⟩
    · rintro other same
      cases same
      exact roomy_expiry roomy second
    · intro serials expiresAt other
      cases other
    · intro other
      cases other
  | read i response body clock serials expiresAt old parsed =>
    refine ⟨⟨fun _ => fine.prompt (by rw [old]; rfl), ?_, ?_, ?_⟩, fun _ => rfl⟩
    · intro response other
      cases other
    · rintro serials expiresAt same
      cases same
      rw [(readFeed_eq_ok parsed).2.2]
      exact fine.roomy response old
    · intro other
      cases other
  | unfetched i response old fails =>
    obtain ⟨x, same, roomy⟩ := healthy
    exact absurd roomy.1 (fails x same)
  | unread i response body clock old fails =>
    obtain ⟨text, serials, opened, parsed⟩ := healthy
    obtain ⟨ttl, least, -, expiry⟩ := fine.roomy response old
    have now : clock = s.clock := by simpa [admits] using admitted
    have prompt := fine.prompt (by rw [old]; rfl)
    have live : ¬(clock : Number) ≥ snapshotExpiry response r.nowSeconds := by
      rw [expiry, ge_iff_le, Number.intCast_le]
      omega
    exact absurd (readFeed_accepts opened parsed live) (fails _)
  | unwritten i failed serials expiresAt old fails =>
    obtain ⟨ttl, -, -, same⟩ := fine.expiry serials expiresAt old
    have number : expiresAt ≠ .nan := by simp [same, Number.intCast_def]
    obtain ⟨out, written⟩ := writeSnapshot_accepts engine o.store serials r.nowSeconds number
    exact absurd written (fails healthy out)
  | unset i old => cases healthy
  | ended i failed last old finished =>
    refine ⟨fine_done (.inr finished), fun download => ?_⟩
    rcases old with ⟨old, -⟩ | old <;> simp [old, Phase.isDownload] at download

/-- Only the SQL section is followed by a `setAlarm`. -/
private theorem alarm_goes {event : Event} {before o : Object} {i : Nat} {r : Refresh}
    {phase : Phase}
    (called : s.object.alarmCall o i = r.alarmCall phase)
    (acts : event.refresh = some i) (healthy : s.Healthy engine late lasting (.object event))
    (quiet : phase ≠ .settingRetry) (goes : r.Goes engine before event phase) :
    s.alarmAfter event o = s.alarm := by
  cases goes with
  | checked j response old | read j response body clock serials expiresAt old =>
    cases acts
    simp only [Refresh.alarmCall, old] at called
    simp only [alarmAfter, Event.refresh, called]
  | unfetched | unread | unwritten | unset => exact absurd rfl quiet
  | ended j failed last old finished =>
    cases acts
    obtain rfl : failed = false := healthy
    have none : s.object.alarmCall o i = none := called.trans (alarmCall_finished finished)
    simp only [alarmAfter, Event.refresh, none]

/-- The row that was written has the alarm of its refresh. -/
private theorem nextAlarm_eq {now ttl : Int} (second : IsSecond now) (least : 90 ≤ ttl)
    (most : ttl ≤ 300) :
    nextAlarm now ((now + ttl : Int) : Number) = (((now + ttl - 30) * 1000 : Int) : Number) := by
  rw [IsSecond] at second
  have retry : (now : Number).add (.finite 60) = ((now + 60 : Int) : Number) :=
    Number.add_intCast now 60 (by omega)
  have margin : ((now + ttl : Int) : Number).sub refreshMarginSeconds =
      ((now + ttl - 30 : Int) : Number) := Number.sub_intCast (now + ttl) 30 (by omega)
  rw [nextAlarm, retry, margin, Number.max_eq_right ((Number.intCast_le _ _).mpr (by omega))]
  exact Number.mulNat_intCast (now + ttl - 30) 1000 (by omega)

/-- An alarm or a download that was in time still is. -/
private theorem InTime.later {expiresAt : Int} (inTime : s.InTime late lasting expiresAt)
    (clock : t.clock = s.clock) (alarm : t.alarm = s.alarm)
    (downloads : ∀ r ∈ s.object.refreshes, r.phase.isDownload = true →
      ∃ r' ∈ t.object.refreshes, r'.nowSeconds = r.nowSeconds ∧ r'.phase.isDownload = true) :
    t.InTime late lasting expiresAt := by
  rcases inTime with ⟨a, set, near, room⟩ | ⟨r, member, download, room⟩
  · exact .inl ⟨a, alarm.trans set, clock ▸ near, room⟩
  · obtain ⟨r', member', same, still⟩ := downloads r member download
    exact .inr ⟨r', member', still, by rwa [same]⟩

/-- Where the row, the alarm and the downloads are as before. -/
private theorem Supplied.later (supplied : Supplied late lasting s) (sound : t.Sound)
    (clock : t.clock = s.clock) (alarm : t.alarm = s.alarm)
    (row : t.object.store.row = s.object.store.row)
    (fine : ∀ r ∈ t.object.refreshes, r.Fine lasting t.clock)
    (downloads : ∀ r ∈ s.object.refreshes, r.phase.isDownload = true →
      ∃ r' ∈ t.object.refreshes, r'.nowSeconds = r.nowSeconds ∧ r'.phase.isDownload = true)
    (wrote : ∀ r ∈ t.object.refreshes, r.wrote = true →
      ∃ r' ∈ s.object.refreshes, r'.wrote = true) :
    Supplied late lasting t where
  sound := sound
  fine := fine
  fresh := by
    intro stored present
    obtain ⟨expiresAt, same, early, inTime⟩ := supplied.fresh stored (row ▸ present)
    exact ⟨expiresAt, same, clock ▸ early, inTime.later clock alarm downloads⟩
  kept := by
    intro r member written
    obtain ⟨r', member', written'⟩ := wrote r member written
    rw [row]
    exact supplied.kept r' member' written'

/-- A refresh that starts in time takes the place of the alarm. -/
private theorem Supplied.start {now : Int} {called : Bool} (supplied : Supplied late lasting s)
    (sound : t.Sound) (clock : t.clock = s.clock) (row : t.object.store.row = s.object.store.row)
    (refreshes : t.object.refreshes = s.object.refreshes ++
      [{ nowSeconds := now, called := called, phase := .fetching, wrote := false }])
    (prompt : s.clock ≤ now + lasting) (alarm : t.alarm = s.alarm ∨ now ≤ s.clock) :
    Supplied late lasting t where
  sound := sound
  fine := by
    rw [refreshes, clock]
    intro r member
    rcases List.mem_append.mp member with old | new
    · exact supplied.fine r old
    · rw [List.mem_singleton.mp new]
      exact fine_started prompt
  fresh := by
    intro stored present
    obtain ⟨expiresAt, same, early, inTime⟩ := supplied.fresh stored (row ▸ present)
    refine ⟨expiresAt, same, clock ▸ early, ?_⟩
    rcases inTime with ⟨a, set, near, room⟩ | ⟨r, member, download, room⟩
    · rcases alarm with kept | fired
      · exact .inl ⟨a, kept.trans set, clock ▸ near, room⟩
      · refine .inr ⟨_, refreshes ▸ List.mem_append_right _ (List.mem_singleton_self _), rfl, ?_⟩
        change now + lasting < expiresAt
        omega
    · exact .inr ⟨r, refreshes ▸ List.mem_append_left _ member, download, room⟩
  kept := by
    rw [refreshes, row]
    intro r member written
    rcases List.mem_append.mp member with old | new
    · exact supplied.kept r old written
    · rw [List.mem_singleton.mp new] at written
      cases written

private theorem wrote_set {o : Object} {i : Nat} {r r' : Refresh}
    (running : s.object.refreshes[i]? = some r)
    (refreshes : o.refreshes = s.object.refreshes.set i r')
    (same : r'.wrote = r.wrote) :
    ∀ x ∈ o.refreshes, x.wrote = true → ∃ x' ∈ s.object.refreshes, x'.wrote = true := by
  intro x member written
  rw [refreshes] at member
  rcases List.mem_or_eq_of_mem_set member with old | rfl
  · exact ⟨x, old, written⟩
  · exact ⟨r, List.mem_of_getElem? running, same ▸ written⟩

/-- The object goes on; what it does to its alarm is said by the event. -/
private theorem supplied_of_went {event : Event} {o : Object} (late_nonneg : 0 ≤ late)
    (nonneg : 0 ≤ lasting) (margin : late + lasting < 30) (supplied : Supplied late lasting s)
    (admitted : s.admits event = true) (healthy : s.Healthy engine late lasting (.object event))
    (went : s.object.Went engine event o) (owed : Bool)
    (sound : Sound { s with object := o, alarm := s.alarmAfter event o, owed := owed }) :
    Supplied late lasting
      { s with object := o, alarm := s.alarmAfter event o, owed := owed } := by
  cases went with
  | answered now calls refreshes row =>
    subst calls
    refine supplied.later sound rfl rfl row (by rw [refreshes]; exact supplied.fine) ?_ ?_
    · intro r member download
      exact ⟨r, refreshes ▸ member, rfl, download⟩
    · intro r member written
      exact ⟨r, refreshes ▸ member, written⟩
  | started now called starts stale refreshes row =>
    cases called with
    | false =>
      -- Only the runtime runs `alarm`.
      rw [if_neg (by simp)] at starts
      subst starts
      cases admitted
    | true =>
      rw [if_pos rfl] at starts
      subst starts
      exact supplied.start sound rfl row refreshes (healthy (stale rfl)) (.inl rfl)
  | wrote i r serials row writes running phase number refreshes stored =>
    subst writes
    have member := List.mem_of_getElem? running
    have second := supplied.sound.seconds r member
    obtain ⟨ttl, least, most, expiry⟩ := (supplied.fine r member).expiry serials _ phase
    have prompt := (supplied.fine r member).prompt (by rw [phase]; rfl)
    have called := alarmCall_set running refreshes
    simp only [Refresh.alarmCall, phase] at called
    have alarm : s.alarmAfter (.digest i false) o =
        some (((r.nowSeconds + ttl - 30) * 1000 : Int) : Number) := by
      simp only [alarmAfter, Event.refresh, called]
      rw [expiry, nextAlarm_eq second least most]
    refine ⟨sound, fine_set supplied.fine (fine_done (.inl rfl)) refreshes, ?_, ?_⟩
    · intro other present
      obtain rfl : other = row := Option.some.inj (present.symm.trans stored)
      refine ⟨r.nowSeconds + ttl, expiry, ?_, .inl ⟨_, alarm, ?_, ?_⟩⟩
      · change s.clock < r.nowSeconds + ttl
        omega
      · change s.clock ≤ r.nowSeconds + ttl - 30 + late
        omega
      · omega
    · intro x _ _ gone
      cases stored.symm.trans gone
  | resumed i r resumes running phase refreshes row =>
    subst resumes
    refine supplied.later sound rfl rfl row
      (fine_set supplied.fine (fine_done (.inr (.inr rfl))) refreshes) ?_
      (wrote_set running refreshes rfl)
    intro x member download
    have moves : r.phase.isDownload = true → Phase.over.isDownload = true := by
      simp [phase, Phase.isDownload]
    obtain ⟨x', member', -, kept⟩ := download_set running refreshes rfl rfl moves member download
    exact ⟨x', member', kept⟩
  | restarted restarts refreshes row =>
    subst restarts
    have all : ∀ x ∈ o.refreshes,
        x.phase = .over ∧ ∃ r ∈ s.object.refreshes, r.wrote = x.wrote := by
      intro x member
      rw [refreshes] at member
      obtain ⟨r, old, rfl⟩ := List.mem_map.mp member
      exact ⟨rfl, r, old, rfl⟩
    refine supplied.later sound rfl rfl row
      (fun x member => fine_done (.inr (.inr (all x member).1))) ?_ ?_
    · intro r member download
      rw [healthy r member] at download
      cases download
    · intro x member written
      obtain ⟨-, r, old, same⟩ := all x member
      exact ⟨r, old, same.trans written⟩
  | went i r phase acts running goes refreshes row =>
    have member := List.mem_of_getElem? running
    obtain ⟨fine, download⟩ := fine_goes (by omega) admitted healthy
      (supplied.sound.seconds r member) (supplied.fine r member) goes
    have alarm := alarm_goes (alarmCall_set running refreshes) acts healthy fine.quiet goes
    refine supplied.later sound rfl alarm row (fine_set supplied.fine fine refreshes) ?_
      (wrote_set running refreshes rfl)
    intro x listed under
    obtain ⟨x', member', -, kept⟩ := download_set running refreshes rfl rfl download listed under
    exact ⟨x', member', kept⟩

/-- The runtime starts `alarm`. -/
private theorem supplied_of_alarm {o : Object} (nonneg : 0 ≤ lasting)
    (supplied : Supplied late lasting s) (step : s.object.step engine (.alarm s.clock) = some o)
    (alarm : Option Number) (owed : Bool)
    (sound : Sound { s with object := o, alarm := alarm, owed := owed }) :
    Supplied late lasting { s with object := o, alarm := alarm, owed := owed } := by
  cases step
  exact supplied.start sound rfl rfl rfl (by omega) (.inr le_rfl)

theorem Supplied.step {event : ScheduleEvent} (late_nonneg : 0 ≤ late) (nonneg : 0 ≤ lasting)
    (margin : late + lasting < 30) (supplied : Supplied late lasting s)
    (healthy : s.Healthy engine late lasting event) (taken : s.step engine event = some t) :
    Supplied late lasting t := by
  have sound := supplied.sound.step taken
  cases stepped_of_step taken with
  | ticked clock =>
    obtain ⟨near, prompt⟩ := healthy
    refine ⟨sound, fun r member => ?_, fun row present => ?_, supplied.kept⟩
    · obtain ⟨-, roomy, expiry, quiet⟩ := supplied.fine r member
      exact ⟨prompt r member, roomy, expiry, quiet⟩
    · obtain ⟨expiresAt, same, -, inTime⟩ := supplied.fresh row present
      rcases inTime with ⟨a, set, -, room⟩ | ⟨r, member, download, room⟩
      · have bound := near a set
        refine ⟨expiresAt, same, ?_, .inl ⟨a, set, bound, room⟩⟩
        change clock < expiresAt
        omega
      · have bound := prompt r member download
        refine ⟨expiresAt, same, ?_, .inr ⟨r, member, download, room⟩⟩
        change clock < expiresAt
        omega
  | fired time o set due step =>
    exact supplied_of_alarm nonneg supplied step none s.owed sound
  | reran o owed step => exact supplied_of_alarm nonneg supplied step s.alarm false sound
  | moved event o admitted step =>
    exact supplied_of_went late_nonneg nonneg margin supplied admitted healthy
      (Object.went_of_step step) _ sound

end Schedule

/-- While alarms are late, and downloads last, by less than 30 seconds together, and the feed gives
lists of 90 seconds or more: once a refresh has written the row, every `revocations` call whose
reading is not ahead of the clock is answered at once with a list, in every state of the run. -/
theorem snapshot_kept_fresh (engine : Engine) (late lasting clock : Int)
    (events : List ScheduleEvent) (s : Schedule) (second : IsSecond clock) (late_nonneg : 0 ≤ late)
    (nonneg : 0 ≤ lasting) (margin : late + lasting < 30)
    (taken : Run (Schedule.step engine) (.initial clock) events s)
    (healthy : Throughout (Schedule.step engine) (Schedule.Healthy engine late lasting)
      (.initial clock) events)
    (wrote : ∃ r ∈ s.object.refreshes, r.wrote = true) (now : Int) (past : now ≤ s.clock) :
    ∃ listed expiresAt store, revocationsStart s.object.store now =
      some ({ serials := some listed, expiresAt := expiresAt }, store) := by
  have supplied : Schedule.Supplied late lasting s :=
    healthy.invariant taken (Schedule.Supplied late lasting)
      (fun _ _ _ supplied healthy taken =>
        supplied.step late_nonneg nonneg margin healthy taken)
      (Schedule.supplied_initial late lasting second)
  obtain ⟨r, member, written⟩ := wrote
  obtain ⟨row, present⟩ := Option.ne_none_iff_exists'.mp (supplied.kept r member written)
  obtain ⟨expiresAt, same, early, -⟩ := supplied.fresh row present
  have fresh : ¬(now : Number) ≥ row.expiresAt := by
    rw [same, ge_iff_le, Number.intCast_le]
    omega
  rw [revocationsStart, present]
  simp only [if_neg fresh, viewRow]
  exact ⟨_, _, _, rfl⟩

namespace Sample

/-- The call returns, and the next alarm is to run at 370. -/
def untilAlarm : List ScheduleEvent :=
  firstAlarm ++ [.object (.alarmSet 0 false), .object (.resume 0)]

private theorem response_roomy : response.Roomy engine :=
  ⟨by decide +kernel, 300, by decide, by decide +kernel⟩

private theorem alarm_late (m : Schedule)
    (taken : Run (Schedule.step engine) (.initial 100) untilAlarm m) :
    m.Healthy engine 10 15 (.tick 375) := by
  have set : (run (Schedule.step engine) (.initial 100) untilAlarm).all fun m =>
      m.alarm = some (.finite 370000) ∧
        m.object.refreshes.all fun r => r.phase.isDownload = false := by decide +kernel
  rw [taken, Option.all_some, decide_eq_true_eq] at set
  obtain ⟨alarm, quiet⟩ := set
  refine ⟨fun a same => ?_, fun r member download => ?_⟩
  · rw [alarm, Number.intCast_def, Option.some.injEq, Number.finite.injEq] at same
    norm_cast at same
    omega
  · have none := List.all_eq_true.mp quiet r member
    simp [download] at none

end Sample

theorem snapshot_kept_fresh_sample :
    ∃ s, Run (Schedule.step Sample.engine) (.initial 100) (Sample.untilAlarm ++ [.tick 375]) s ∧
      ∃ listed expiresAt store, revocationsStart s.object.store (375 : Int) =
        some ({ serials := some listed, expiresAt := expiresAt }, store) := by
  have reached : (run (Schedule.step Sample.engine) (.initial 100)
      (Sample.untilAlarm ++ [.tick 375])).any fun s =>
        s.clock = 375 ∧ s.object.refreshes.any fun r => r.wrote = true := by decide +kernel
  have read : (boundedText (some [utf8Encode Sample.feedBody]) maxFeedBytes >>= fun text =>
      parseFeed Sample.engine text) = .ok [js "ca11cafe"] := by decide +kernel
  obtain ⟨text, opened, parsed⟩ := (bind_ok_iff _ _ _).mp read
  have healthy : Throughout (Schedule.step Sample.engine) (Schedule.Healthy Sample.engine 10 15)
      (.initial 100) (Sample.untilAlarm ++ [.tick 375]) := by
    refine ⟨fun _ => by decide, fun a called => ⟨⟨_, rfl, Sample.response_roomy⟩, fun b answered =>
      ⟨⟨text, _, opened, parsed⟩, fun c ended => ⟨rfl, fun d written => ⟨rfl, fun e set =>
        ⟨trivial, fun f resumed => ⟨?_, fun _ _ => trivial⟩⟩⟩⟩⟩⟩⟩
    apply Sample.alarm_late
    simp only [Sample.untilAlarm, Sample.firstAlarm, List.cons_append, List.nil_append, run_cons,
      run_nil]
    exact ⟨a, called, b, answered, c, ended, d, written, e, set, f, resumed, rfl⟩
  cases taken : run (Schedule.step Sample.engine) (.initial 100)
      (Sample.untilAlarm ++ [.tick 375]) with
  | none => simp [taken] at reached
  | some s =>
    rw [taken, Option.any_some, decide_eq_true_eq] at reached
    obtain ⟨clock, wrote⟩ := reached
    obtain ⟨r, member, written⟩ := List.any_eq_true.mp wrote
    exact ⟨s, taken, snapshot_kept_fresh Sample.engine 10 15 100 _ s (by decide) (by decide)
      (by decide) (by decide) taken healthy ⟨r, member, by simpa using written⟩ 375
      (by rw [clock])⟩

end UncrackableL5

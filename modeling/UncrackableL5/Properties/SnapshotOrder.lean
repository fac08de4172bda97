import UncrackableL5.Properties.SnapshotFreshness

/-!
# Order of the snapshot writes

Between reading the clock and writing the row a refresh awaits the fetch, the body and the digest,
and the object serves other events meanwhile. Nothing compares the row with the refresh that
replaces it, so the row goes back exactly when a refresh writes that a later one has overtaken.

## Main results

- `older_refresh_overwrites`: a slow download puts a revoked key back into use.
- `rowsAdvance_iff`: the rows of a run advance exactly when no overtaken refresh writes.
-/
namespace UncrackableL5

open Transition

/-- Refreshes are numbered in the order of their times. -/
def Object.StartedInOrder (o : Object) : Prop :=
  o.refreshes.Pairwise fun a b => a.nowSeconds ≤ b.nowSeconds

/-- The row is the same, or comes from a refresh that started later and is not older. -/
def Object.Advances (s t : Object) : Prop :=
  ∀ a v, s.store.row = some a → s.writer = some v → ∃ b w, t.store.row = some b ∧
    t.writer = some w ∧ a.fetchedAt ≤ b.fetchedAt ∧ (b = a ∧ w = v ∨ v < w)

/-- A refresh that started later has written. -/
def Object.Overtaken (o : Object) (i : Nat) : Prop :=
  ∃ (j : Nat) (r : Refresh), i < j ∧ o.refreshes[j]? = some r ∧ r.wrote = true

/-- An overtaken refresh enters its SQL section, with an expiry that the table accepts. -/
def Object.WritesLate (o : Object) (event : Event) : Prop :=
  ∃ i r serials expiresAt, event = .digest i false ∧ o.refreshes[i]? = some r ∧
    r.phase = .digesting serials expiresAt ∧ expiresAt ≠ .nan ∧ o.Overtaken i

/-! ### Who wrote the row -/

/-- Whether a refresh has its SQL section before it. -/
def Phase.isBefore : Phase → Bool
  | .fetching | .reading _ | .digesting _ _ => true
  | _ => false

/-- The row carries the time of its writer, the last refresh in start order that wrote. -/
structure Ordered (o : Object) : Prop where
  once : ∀ (i : Nat) (r : Refresh), o.refreshes[i]? = some r → r.wrote = true →
    r.phase.isBefore = false
  written : ∀ w, o.writer = some w → ∃ (row : SnapshotRow) (r : Refresh),
    o.store.row = some row ∧ o.refreshes[w]? = some r ∧ r.wrote = true ∧
      row.fetchedAt = (r.nowSeconds : Number)
  owned : ∀ row, o.store.row = some row → ∃ w, o.writer = some w
  latest : ∀ (i : Nat) (r : Refresh), o.refreshes[i]? = some r → r.wrote = true →
    ∃ w, o.writer = some w ∧ i ≤ w

theorem Object.initial_ordered : Ordered .initial where
  once := by simp [Object.initial]
  written := by simp [Object.initial]
  owned := by simp [Object.initial]
  latest := by simp [Object.initial]

namespace Object

variable {engine : Engine} {o t : Object} {event : Event}

/-- Only a refresh with its SQL section before it moves towards it. -/
private theorem Stepped.once (taken : Stepped engine o event t) (ordered : Ordered o) (j : Nat)
    (x : Refresh) (found : t.refreshes[j]? = some x) (wrote : x.wrote = true) :
    x.phase.isBefore = false := by
  have busy : ∀ (i : Nat) (r : Refresh), o.refreshes[i]? = some r → r.wrote = true →
      r.phase.isBefore = true → False := by
    intro i r running wrote before
    rw [ordered.once i r running wrote] at before
    cases before
  cases taken with
  | answered => exact ordered.once j x found wrote
  | called | alarm =>
    rcases lookup_append found with rfl | present
    · cases wrote
    · exact ordered.once j x present wrote
  | checked i r response running phase =>
    rcases lookup_set found with ⟨rfl, rfl⟩ | ⟨-, present⟩
    · exact (busy _ r running wrote (by rw [phase]; rfl)).elim
    · exact ordered.once j x present wrote
  | read i r response body clock serials expiresAt running phase =>
    rcases lookup_set found with ⟨rfl, rfl⟩ | ⟨-, present⟩
    · exact (busy _ r running wrote (by rw [phase]; rfl)).elim
    · exact ordered.once j x present wrote
  | wrote | resumed =>
    rcases lookup_set found with ⟨rfl, rfl⟩ | ⟨-, present⟩
    · rfl
    · exact ordered.once j x present wrote
  | moved _ i r phase running idle =>
    rcases lookup_set found with ⟨rfl, rfl⟩ | ⟨-, present⟩
    · rcases idle with rfl | rfl | rfl <;> rfl
    · exact ordered.once j x present wrote
  | restarted =>
    obtain ⟨r, -, rfl⟩ := Option.map_eq_some_iff.mp (List.getElem?_map.symm.trans found)
    rfl

/-- A refresh that has written after an event had done so before, or wrote in it. -/
private theorem Stepped.wrote_cases (taken : Stepped engine o event t) (j : Nat) (x : Refresh)
    (found : t.refreshes[j]? = some x) (wrote : x.wrote = true) :
    (∃ r, o.refreshes[j]? = some r ∧ r.wrote = true) ∨ t.writer = some j := by
  cases taken with
  | answered => exact Or.inl ⟨x, found, wrote⟩
  | called | alarm =>
    rcases lookup_append found with rfl | present
    · cases wrote
    · exact Or.inl ⟨x, present, wrote⟩
  | wrote =>
    rcases lookup_set found with ⟨rfl, rfl⟩ | ⟨-, present⟩
    · exact Or.inr rfl
    · exact Or.inl ⟨x, present, wrote⟩
  | checked i r _ running | read i r _ _ _ _ _ running | moved _ i r _ running
  | resumed i r running =>
    rcases lookup_set found with ⟨rfl, rfl⟩ | ⟨-, present⟩
    · exact Or.inl ⟨r, running, wrote⟩
    · exact Or.inl ⟨x, present, wrote⟩
  | restarted =>
    obtain ⟨r, present, rfl⟩ := Option.map_eq_some_iff.mp (List.getElem?_map.symm.trans found)
    exact Or.inl ⟨r, present, wrote⟩

private theorem writeSnapshot_fetchedAt {store out : SnapshotStore} {serials : List JsString}
    {expiresAt nowSeconds : Number}
    (written : writeSnapshot engine store serials expiresAt nowSeconds = .ok out) :
    ∃ row, out.row = some row ∧ row.fetchedAt = nowSeconds := by
  obtain ⟨-, ⟨current, -, -, rfl⟩ | rfl⟩ := writeSnapshot_eq_ok written
  · exact ⟨_, rfl, rfl⟩
  · exact ⟨_, rfl, rfl⟩

theorem StartedInOrder.le (started : o.StartedInOrder) {i j : Nat} {a b : Refresh}
    (below : i < j) (first : o.refreshes[i]? = some a) (second : o.refreshes[j]? = some b) :
    a.nowSeconds ≤ b.nowSeconds := by
  obtain ⟨boundA, rfl⟩ := List.getElem?_eq_some_iff.mp first
  obtain ⟨boundB, rfl⟩ := List.getElem?_eq_some_iff.mp second
  exact List.pairwise_iff_getElem.mp started i j boundA boundB below

theorem StartedInOrder.of_keeps (started : t.StartedInOrder) (keeps : Keeps o t) :
    o.StartedInOrder := by
  apply List.pairwise_iff_getElem.mpr
  intro i j boundA boundB below
  obtain ⟨a, first, timeA, -⟩ := keeps i _ (List.getElem?_eq_getElem boundA)
  obtain ⟨b, second, timeB, -⟩ := keeps j _ (List.getElem?_eq_getElem boundB)
  rw [← timeA, ← timeB]
  exact started.le below first second

/-- A late write makes an older refresh the writer. -/
private theorem not_advances_of_writesLate (step : o.step engine event = some t)
    (ordered : Ordered o) (late : o.WritesLate event) : ¬Advances o t := by
  obtain ⟨i, r, serials, expiresAt, rfl, running, phase, number, j, x, below, found, wrote⟩ := late
  obtain ⟨v, writer, latest⟩ := ordered.latest j x found wrote
  obtain ⟨a, -, row, -⟩ := ordered.written v writer
  obtain ⟨out, written⟩ := writeSnapshot_accepts engine o.store serials r.nowSeconds
    number
  -- The table accepts the row, whatever it held.
  have owner : t.writer = some i := by
    simp only [Object.step, running, phase, Bool.false_eq_true, ↓reduceIte, write, written,
      Option.some.injEq] at step
    exact step ▸ rfl
  intro advances
  obtain ⟨b, w, -, became, -, order⟩ := advances a v row writer
  cases owner.symm.trans became
  omega

/-- One event advances the row exactly when it is not a late write. -/
theorem advances_iff (step : o.step engine event = some t) (ordered : Ordered o)
    (started : o.StartedInOrder) : Advances o t ↔ ¬o.WritesLate event := by
  constructor
  · exact fun advances late => not_advances_of_writesLate step ordered late advances
  · intro timely a v row writer
    obtain ⟨held, old, present, running, wrote, fetched⟩ := ordered.written v writer
    cases row.symm.trans present
    rcases (stepped_of_step step).row_eq_or_wrote with ⟨sameRow, sameWriter⟩ |
      ⟨i, r, serials, expiresAt, store, rfl, here, phase, written, stored, became, -⟩
    · exact ⟨a, v, sameRow.trans row, sameWriter.trans writer, by simp [fetched], Or.inl ⟨rfl, rfl⟩⟩
    · have number := (writeSnapshot_eq_ok written).1
      -- The writer of the row started before this refresh: it is not later, as nothing is written
      -- late, and not the same, as a refresh writes once.
      have after : ¬i < v := fun below =>
        timely ⟨i, r, serials, expiresAt, rfl, here, phase, number, v, old, below, running, wrote⟩
      have other : i ≠ v := by
        -- its SQL section is still before it
        rintro rfl
        cases here.symm.trans running
        have idle := ordered.once i _ here wrote
        rw [phase] at idle
        cases idle
      have below : v < i := by omega
      obtain ⟨b, replaced, time⟩ := writeSnapshot_fetchedAt written
      refine ⟨b, i, stored ▸ replaced, became, ?_, Or.inr below⟩
      rw [fetched, time, Number.intCast_le]
      exact started.le below running here

/-- An event that advances the row keeps the writers in order. -/
theorem Stepped.ordered (taken : Stepped engine o event t) (ordered : Ordered o)
    (advances : Advances o t) : Ordered t where
  once := taken.once ordered
  written := by
    intro w writer
    rcases taken.row_eq_or_wrote with ⟨sameRow, sameWriter⟩ |
      ⟨i, r, serials, expiresAt, store, rfl, -, -, written, stored, became, running⟩
    · obtain ⟨row, r, present, running, wrote, fetched⟩ :=
        ordered.written w (sameWriter.symm.trans writer)
      obtain ⟨r', running, time, keeps⟩ := taken.keeps w r running
      exact ⟨row, r', sameRow.trans present, running, keeps wrote, time ▸ fetched⟩
    · cases writer.symm.trans became
      obtain ⟨row, replaced, time⟩ := writeSnapshot_fetchedAt written
      exact ⟨row, _, stored ▸ replaced, running, rfl, time⟩
  owned := by
    intro row present
    rcases taken.row_eq_or_wrote with ⟨sameRow, sameWriter⟩ |
      ⟨i, r, serials, expiresAt, store, rfl, -, -, written, stored, became, running⟩
    · exact sameWriter ▸ ordered.owned row (sameRow ▸ present)
    · exact ⟨i, became⟩
  latest := by
    intro j x found wrote
    rcases taken.wrote_cases j x found wrote with ⟨r, running, wrote⟩ | writer
    · obtain ⟨v, writer, below⟩ := ordered.latest j r running wrote
      obtain ⟨row, -, present, -⟩ := ordered.written v writer
      -- The writer only moves up, so it stays the last one that wrote.
      obtain ⟨_, w, -, became, -, order⟩ := advances row v present writer
      exact ⟨w, became, by omega⟩
    · exact ⟨j, writer, le_rfl⟩

end Object

/-! ### Runs -/

/-- The rows of a run advance at every event exactly when no overtaken refresh writes. -/
theorem rowsAdvance_iff (engine : Engine) (events : List Event) (o : Object)
    (taken : Run (Object.step engine) .initial events o) (started : o.StartedInOrder) :
    Throughout (Object.step engine)
        (fun s event => ∀ t, s.step engine event = some t → s.Advances t) .initial events ↔
      Throughout (Object.step engine) (fun s event => ¬s.WritesLate event) .initial events := by
  refine Throughout.congr taken Ordered ?_ ?_ Object.initial_ordered
  · intro s event t rest ordered step after
    have stepped := Object.stepped_of_step step
    -- Start times are kept to the end of the run, so they are in order here as well.
    have later := after.grows Object.Keeps .refl (fun _ _ _ => .trans)
      fun s e t step => (Object.stepped_of_step step).keeps
    have same := Object.advances_iff step ordered (started.of_keeps (stepped.keeps.trans later))
    constructor
    · exact fun advances => same.mp (advances t step)
    · intro timely other taken
      cases step.symm.trans taken
      exact same.mpr timely
  · intro s event t rest ordered step after advances
    exact (Object.stepped_of_step step).ordered ordered (advances t step)

namespace Sample

/-- The alarm starts a download, a call starts another a second later, and the second one is
done first. -/
def overtaking : List Event :=
  [.alarm 100, .revocations 101, .response 0 (some response), .response 1 (some response),
    .body 1 (some [utf8Encode feedBody]) 101, .digest 1 false,
    .body 0 (some [utf8Encode emptyFeedBody]) 102]

end Sample

/-- The older download, from before the key was listed, replaces the newer one. -/
theorem older_refresh_overwrites :
    ∃ s t, Run (Object.step Sample.engine) .initial Sample.overtaking s ∧
      s.step Sample.engine (.digest 0 false) = some t ∧ t.StartedInOrder ∧ ¬s.Advances t ∧
      s.store.row.map (fun row => (row.serials, row.fetchedAt)) =
        some (js "ca11cafe", .finite 101) ∧
      t.store.row.map (fun row => (row.serials, row.fetchedAt)) = some ([], .finite 100) := by
  have evaluated :
      (run (Object.step Sample.engine) .initial Sample.overtaking).any fun s =>
        (s.step Sample.engine (.digest 0 false)).any fun t =>
          (t.refreshes.map (·.nowSeconds) = [100, 101]) ∧
          s.store.row.map (fun row => (row.serials, row.fetchedAt)) =
            some (js "ca11cafe", .finite 101) ∧
          t.store.row.map (fun row => (row.serials, row.fetchedAt)) = some ([], .finite 100) ∧
          s.writer = some 1 ∧ t.writer = some 0 := by
    decide +kernel
  obtain ⟨s, taken, evaluated⟩ := (Option.any_eq_true _ _).mp evaluated
  obtain ⟨t, step, evaluated⟩ := (Option.any_eq_true _ _).mp evaluated
  obtain ⟨times, before, after, newer, older⟩ := of_decide_eq_true evaluated
  refine ⟨s, t, taken, step, ?_, ?_, before, after⟩
  · rw [Object.StartedInOrder, ← List.pairwise_map, times]
    decide
  · intro advances
    obtain ⟨a, present, -⟩ := Option.map_eq_some_iff.mp before
    obtain ⟨_, w, -, became, -, ⟨-, rfl⟩ | later⟩ := advances a 1 present newer
    · cases older.symm.trans became
    · cases older.symm.trans became
      omega

/-- The rows advance until the first download is done, as no refresh has written late, and they do
not with its SQL section, which is late. -/
theorem rowsAdvance_iff_sample :
    ∃ s t, Run (Object.step Sample.engine) .initial Sample.overtaking s ∧
      Run (Object.step Sample.engine) .initial (Sample.overtaking ++ [.digest 0 false]) t ∧
      Throughout (Object.step Sample.engine)
        (fun s event => ∀ t, s.step Sample.engine event = some t → s.Advances t)
        .initial Sample.overtaking ∧
      ¬Throughout (Object.step Sample.engine)
        (fun s event => ∀ t, s.step Sample.engine event = some t → s.Advances t)
        .initial (Sample.overtaking ++ [.digest 0 false]) := by
  have evaluated :
      (run (Object.step Sample.engine) .initial Sample.overtaking).any fun s =>
        (s.step Sample.engine (.digest 0 false)).any fun t =>
          s.refreshes.map (·.nowSeconds) = [100, 101] ∧
          t.refreshes.map (·.nowSeconds) = [100, 101] ∧ s.writer = some 1 ∧ t.writer = some 0 ∧
          s.refreshes[1]?.any fun r => r.wrote = true := by
    decide +kernel
  obtain ⟨s, taken, evaluated⟩ := (Option.any_eq_true _ _).mp evaluated
  obtain ⟨t, step, evaluated⟩ := (Option.any_eq_true _ _).mp evaluated
  obtain ⟨times, later, newest, oldest, newer⟩ := of_decide_eq_true evaluated
  have started : ∀ o : Object, o.refreshes.map (·.nowSeconds) = [100, 101] → o.StartedInOrder := by
    intro o times
    rw [Object.StartedInOrder, ← List.pairwise_map, times]
    decide
  have taken : Run (Object.step Sample.engine) .initial Sample.overtaking s := taken
  have continued := (run_snoc _ _ _ _).mpr ⟨s, taken, step⟩
  refine ⟨s, t, taken, continued, ?_, ?_⟩
  · refine (rowsAdvance_iff Sample.engine _ s taken (started s times)).mpr (taken.throughout ?_)
    rintro before _ after middle split reached ⟨i, r, _, _, rfl, -, -, -, j, x, less, found, -⟩
    -- The one SQL section of the run is that of the refresh which started last.
    have first : i = 1 := by
      have member : Event.digest i false ∈ Sample.overtaking := split ▸ by simp
      simpa [Sample.overtaking] using member
    have kept : Object.Keeps middle s := by
      rw [split] at taken
      obtain ⟨_, also, rest⟩ := (run_append _ _ _ _).mp taken
      cases also.unique reached
      exact rest.grows Object.Keeps .refl (fun _ _ _ => .trans)
        fun _ _ _ step => (Object.stepped_of_step step).keeps
    obtain ⟨_, present, -⟩ := kept j x found
    have bound := (List.getElem?_eq_some_iff.mp present).1
    have two : s.refreshes.length = 2 := by
      rw [← List.length_map (·.nowSeconds), times]
      rfl
    omega
  · intro advances
    have timely := (rowsAdvance_iff Sample.engine _ t continued (started t later)).mp advances
    refine timely.last taken ?_
    obtain ⟨x, present, wrote⟩ := (Option.any_eq_true _ _).mp newer
    rcases (Object.stepped_of_step step).row_eq_or_wrote with
      ⟨-, same⟩ | ⟨i, r, serials, expiresAt, _, event, running, phase, written, -⟩
    · rw [newest, oldest] at same
      cases same
    · cases event
      exact ⟨0, r, serials, expiresAt, rfl, running, phase, (writeSnapshot_eq_ok written).1, 1, x,
        Nat.one_pos, present, of_decide_eq_true wrote⟩

end UncrackableL5

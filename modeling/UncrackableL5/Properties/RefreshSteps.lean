import UncrackableL5.Server.Refreshes

/-!
# Steps of the interleaved refreshes

What one event can do, said once: the properties of whole runs follow from these cases.

## Main results

- `Object.stepped_of_step`: the cases of an event, with their conditions.
- `Object.Stepped.keeps`: a refresh keeps its start time and does not forget that it wrote.
- `Object.Stepped.row_eq_or_wrote`: only a SQL section changes the row.
-/
namespace UncrackableL5

/-! ### The SQL section -/

private theorem notNull_eq_ok {value out : Number} (stored : notNull value = .ok out) :
    out = value ∧ value ≠ .nan := by
  rw [notNull, guard_eq_ok_iff] at stored
  exact ⟨(Except.ok.inj stored.2).symm, stored.1⟩

/-- The row of a downloaded list. -/
def snapshotRow (engine : Engine) (serials : List JsString) (expiresAt nowSeconds : Number) :
    SnapshotRow where
  serials := joinSerials serials
  digest := digestSerials engine (joinSerials serials)
  expiresAt := expiresAt
  fetchedAt := nowSeconds

/-- The SQL section either moves the expiry of a row with the same digest or replaces row and
cache. -/
theorem writeSnapshot_eq_ok {engine : Engine} {store out : SnapshotStore}
    {serials : List JsString} {expiresAt nowSeconds : Number}
    (written : writeSnapshot engine store serials expiresAt nowSeconds = .ok out) :
    expiresAt ≠ .nan ∧
      ((∃ current, store.row = some current ∧
          current.digest = digestSerials engine (joinSerials serials) ∧
          out = { store with
            row := some { current with expiresAt := expiresAt, fetchedAt := nowSeconds } }) ∨
        out = {
          row := some (snapshotRow engine serials expiresAt nowSeconds)
          cache := some {
            digest := digestSerials engine (joinSerials serials)
            serials := serials } }) := by
  -- Both times pass the table's NOT NULL before anything is compared.
  simp only [writeSnapshot, bind_ok_iff] at written
  obtain ⟨_, expiry, _, fetched, written⟩ := written
  obtain ⟨rfl, number⟩ := notNull_eq_ok expiry
  obtain ⟨rfl, -⟩ := notNull_eq_ok fetched
  refine ⟨number, ?_⟩
  split at written
  next current present =>
    split at written
    next same =>
      cases written
      exact Or.inl ⟨current, present, same, rfl⟩
    next =>
      cases written
      exact Or.inr rfl
  next =>
    cases written
    exact Or.inr rfl

/-- The table accepts every expiry but `NaN`. -/
theorem writeSnapshot_accepts (engine : Engine) (store : SnapshotStore)
    (serials : List JsString) {expiresAt : Number} (nowSeconds : Int) (number : expiresAt ≠ .nan) :
    ∃ out, writeSnapshot engine store serials expiresAt nowSeconds = .ok out := by
  have finite : (nowSeconds : Number) ≠ .nan := by simp [Number.intCast_def]
  simp only [writeSnapshot, notNull, if_neg number, if_neg finite, ok_bind]
  split
  · split <;> exact ⟨_, rfl⟩
  · exact ⟨_, rfl⟩

/-! ### Cases -/

namespace Object

/-- What one event can do, with the conditions under which it does it. -/
inductive Stepped (engine : Engine) (o : Object) : Event → Object → Prop where
  | answered (nowSeconds : Int) (outcome : RevocationView × SnapshotStore)
      (fresh : revocationsStart o.store nowSeconds = some outcome) :
      Stepped engine o (.revocations nowSeconds) (o.reply nowSeconds outcome)
  | called (nowSeconds : Int) (stale : revocationsStart o.store nowSeconds = none) :
      Stepped engine o (.revocations nowSeconds) (o.start nowSeconds true)
  | alarm (nowSeconds : Int) : Stepped engine o (.alarm nowSeconds) (o.start nowSeconds false)
  | checked (i : Nat) (r : Refresh) (response : Response) (running : o.refreshes[i]? = some r)
      (phase : r.phase = .fetching) (passes : checkResponse engine response = .ok ()) :
      Stepped engine o (.response i (some response)) (o.setPhase i r (.reading response))
  | read (i : Nat) (r : Refresh) (response : Response) (body : Option (List Bytes)) (clock : Int)
      (serials : List JsString) (expiresAt : Number) (running : o.refreshes[i]? = some r)
      (phase : r.phase = .reading response)
      (parsed : readFeed engine response body r.nowSeconds clock = .ok (serials, expiresAt)) :
      Stepped engine o (.body i body clock)
        { o.setPhase i r (.digesting serials expiresAt) with
          downloads := o.downloads ++ [{
            refresh := i
            response := response
            body := body.getD []
            serials := serials }] }
  | wrote (i : Nat) (r : Refresh) (serials : List JsString) (expiresAt : Number)
      (store : SnapshotStore) (running : o.refreshes[i]? = some r)
      (phase : r.phase = .digesting serials expiresAt)
      (written : writeSnapshot engine o.store serials expiresAt r.nowSeconds = .ok store) :
      Stepped engine o (.digest i false)
        { o with
          store := store
          answer := none
          refreshes := o.refreshes.set i { r with phase := .settingAlarm, wrote := true }
          writer := some i }
  | moved (event : Event) (i : Nat) (r : Refresh) (phase : Phase)
      (running : o.refreshes[i]? = some r)
      (idle : phase = .settingRetry ∨ phase = .returned ∨ phase = .over) :
      Stepped engine o event (o.setPhase i r phase)
  | resumed (i : Nat) (r : Refresh) (running : o.refreshes[i]? = some r) :
      Stepped engine o (.resume i)
        ((o.setPhase i r .over).reply r.nowSeconds (revocationsEnd o.store r.nowSeconds))
  | restarted : Stepped engine o .restart
      { o with
        store := { o.store with cache := none }
        answer := none
        refreshes := o.refreshes.map fun r => { r with phase := .over } }

variable {engine : Engine} {o t : Object} {i : Nat}

private theorem stepped_of_response {response : Option Response}
    (taken : step engine o (.response i response) = some t) :
    Stepped engine o (.response i response) t := by
  simp only [step] at taken
  split at taken
  next r running =>
    split at taken
    next phase =>
      split at taken
      next =>
        simp only [Option.some.injEq] at taken
        exact taken ▸ .moved _ i r _ running (Or.inl rfl)
      next response =>
        split at taken
        next passes =>
          simp only [Option.some.injEq] at taken
          exact taken ▸ .checked i r response running phase passes
        next =>
          simp only [Option.some.injEq] at taken
          exact taken ▸ .moved _ i r _ running (Or.inl rfl)
    next => cases taken
  next => cases taken

private theorem stepped_of_body {body : Option (List Bytes)} {clock : Int}
    (taken : step engine o (.body i body clock) = some t) :
    Stepped engine o (.body i body clock) t := by
  simp only [step] at taken
  split at taken
  next r running =>
    split at taken
    next response phase =>
      simp only [bodyRead, Option.some.injEq] at taken
      split at taken
      next => exact taken ▸ .moved _ i r _ running (Or.inl rfl)
      next serials expiresAt parsed =>
        exact taken ▸ .read i r response body clock serials expiresAt running phase parsed
    next => cases taken
  next => cases taken

private theorem stepped_of_digest {fails : Bool}
    (taken : step engine o (.digest i fails) = some t) :
    Stepped engine o (.digest i fails) t := by
  simp only [step] at taken
  split at taken
  next r running =>
    split at taken
    next serials expiresAt phase =>
      cases fails with
      | true =>
        simp only [↓reduceIte, Option.some.injEq] at taken
        exact taken ▸ .moved _ i r _ running (Or.inl rfl)
      | false =>
        simp only [Bool.false_eq_true, ↓reduceIte, write, Option.some.injEq] at taken
        split at taken
        next => exact taken ▸ .moved _ i r _ running (Or.inl rfl)
        next store written =>
          exact taken ▸ .wrote i r serials expiresAt store running phase written
    next => cases taken
  next => cases taken

/-- The alarm of the end, or of the retry, is set or refused. -/
private theorem stepped_of_alarmSet {fails : Bool}
    (taken : step engine o (.alarmSet i fails) = some t) :
    Stepped engine o (.alarmSet i fails) t := by
  simp only [step] at taken
  split at taken
  next r running =>
    split at taken
    next =>
      split at taken
      · simp only [Option.some.injEq] at taken
        exact taken ▸ .moved _ i r _ running (Or.inl rfl)
      · simp only [Option.some.injEq] at taken
        exact taken ▸ .moved _ i r _ running (by split <;> simp)
    next =>
      simp only [Option.some.injEq] at taken
      exact taken ▸ .moved _ i r _ running (by split <;> simp)
    next => cases taken
  next => cases taken

/-- The call whose refresh is over reads the store once more. -/
private theorem stepped_of_resume
    (taken : step engine o (.resume i) = some t) :
    Stepped engine o (.resume i) t := by
  simp only [step] at taken
  split at taken
  next r running =>
    split at taken
    next =>
      simp only [Option.some.injEq] at taken
      exact taken ▸ .resumed i r running
    next => cases taken
  next => cases taken

theorem stepped_of_step {event : Event} (taken : step engine o event = some t) :
    Stepped engine o event t := by
  cases event with
  | revocations nowSeconds =>
    simp only [step] at taken
    cases start : revocationsStart o.store nowSeconds with
    | some outcome =>
      simp only [start, Option.some.injEq] at taken
      exact taken ▸ .answered nowSeconds outcome start
    | none =>
      simp only [start, Option.some.injEq] at taken
      exact taken ▸ .called nowSeconds start
  | alarm nowSeconds =>
    simp only [step, Option.some.injEq] at taken
    exact taken ▸ .alarm nowSeconds
  | response i response => exact stepped_of_response taken
  | body i body clock => exact stepped_of_body taken
  | digest i fails => exact stepped_of_digest taken
  | alarmSet i fails => exact stepped_of_alarmSet taken
  | resume i => exact stepped_of_resume taken
  | restart =>
    simp only [step, Option.some.injEq] at taken
    exact taken ▸ .restarted

end Object

/-! ### What an event keeps -/

namespace Object

variable {engine : Engine} {o t : Object} {event : Event}

/-- A refresh keeps its start time and does not forget that it wrote. -/
def Keeps (o t : Object) : Prop :=
  ∀ (j : Nat) (r : Refresh), o.refreshes[j]? = some r → ∃ r', t.refreshes[j]? = some r' ∧
    r'.nowSeconds = r.nowSeconds ∧ (r.wrote = true → r'.wrote = true)

theorem Keeps.refl (o : Object) : Keeps o o := fun _ r found => ⟨r, found, rfl, id⟩

theorem Keeps.trans {o middle t : Object} (first : Keeps o middle) (second : Keeps middle t) :
    Keeps o t := by
  intro j r found
  obtain ⟨r', found, time, wrote⟩ := first j r found
  obtain ⟨r'', found, later, writes⟩ := second j r' found
  exact ⟨r'', found, later.trans time, writes ∘ wrote⟩

private theorem keeps_set {i : Nat} {r new : Refresh} (running : o.refreshes[i]? = some r)
    (refreshes : t.refreshes = o.refreshes.set i new) (time : new.nowSeconds = r.nowSeconds)
    (wrote : r.wrote = true → new.wrote = true) : Keeps o t := by
  intro j x found
  rw [refreshes, List.getElem?_set]
  split
  next same =>
    subst same
    cases running.symm.trans found
    have bound := (List.getElem?_eq_some_iff.mp running).1
    exact ⟨new, by simp [bound], time, wrote⟩
  next => exact ⟨x, found, rfl, id⟩

theorem Stepped.keeps (taken : Stepped engine o event t) : Keeps o t := by
  cases taken with
  | answered => exact .refl o
  | called | alarm =>
    intro j r found
    have bound := (List.getElem?_eq_some_iff.mp found).1
    exact ⟨r, by simp only [start, List.getElem?_append_left bound, found], rfl, id⟩
  | checked i r response running => exact keeps_set running rfl rfl id
  | read i r response body clock serials expiresAt running => exact keeps_set running rfl rfl id
  | wrote i r serials expiresAt store running => exact keeps_set running rfl rfl fun _ => rfl
  | moved _ i r phase running => exact keeps_set running rfl rfl id
  | resumed i r running => exact keeps_set running rfl rfl id
  | restarted => exact fun j r found => ⟨{ r with phase := .over }, by simp [found], rfl, id⟩

theorem Stepped.downloads_subset (taken : Stepped engine o event t) :
    o.downloads ⊆ t.downloads := by
  cases taken with
  | read => exact List.subset_append_left _ _
  | _ => exact List.Subset.refl _

theorem revocationsStart_row {store : SnapshotStore} {nowSeconds : Number}
    {outcome : RevocationView × SnapshotStore}
    (answers : revocationsStart store nowSeconds = some outcome) :
    outcome.2.row = store.row := by
  simp only [revocationsStart] at answers
  split at answers
  next => cases answers
  next =>
    split at answers
    next => cases answers
    next =>
      cases answers
      rfl

theorem revocationsEnd_row (store : SnapshotStore) (nowSeconds : Number) :
    (revocationsEnd store nowSeconds).2.row = store.row := by
  simp only [revocationsEnd]
  split
  next => rfl
  next => split <;> rfl

/-- Only a SQL section changes the row and its writer. -/
theorem Stepped.row_eq_or_wrote (taken : Stepped engine o event t) :
    (t.store.row = o.store.row ∧ t.writer = o.writer) ∨
      ∃ i r serials expiresAt store, event = .digest i false ∧ o.refreshes[i]? = some r ∧
        r.phase = .digesting serials expiresAt ∧
        writeSnapshot engine o.store serials expiresAt r.nowSeconds = .ok store ∧
        t.store = store ∧ t.writer = some i ∧
        t.refreshes[i]? = some { r with phase := .settingAlarm, wrote := true } := by
  cases taken with
  | wrote i r serials expiresAt store running phase written =>
    have bound := (List.getElem?_eq_some_iff.mp running).1
    exact Or.inr ⟨i, r, serials, expiresAt, store, rfl, running, phase, written, rfl, rfl,
      List.getElem?_set_self bound⟩
  | answered nowSeconds outcome fresh => exact Or.inl ⟨revocationsStart_row fresh, rfl⟩
  | resumed => exact Or.inl ⟨revocationsEnd_row _ _, rfl⟩
  | _ => exact Or.inl ⟨rfl, rfl⟩

/-- A refresh that has not reached its SQL section leaves row and cache alone. -/
theorem Stepped.store_eq (taken : Stepped engine o event t) {i : Nat}
    (acts : event.refresh = some i)
    (unwritten : ∀ r, t.refreshes[i]? = some r → r.wrote = false) : t.store = o.store := by
  cases taken with
  | wrote j r serials expiresAt store running =>
    cases acts
    have bound := (List.getElem?_eq_some_iff.mp running).1
    have := unwritten _ (List.getElem?_set_self bound)
    cases this
  | checked | read | moved => rfl
  | answered | called | alarm | resumed | restarted => cases acts

end Object

end UncrackableL5

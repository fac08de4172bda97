import UncrackableL5.Library.Transition
import UncrackableL5.Server.Config

/-!
# Loading the runtime

A load that can still give a runtime is the one that the cache points to, so there is at most one
of them: no two loads run at once, a handler clears the reference to its own promise and to no
later one, and once a load has succeeded nothing replaces it.

## Main results

- `RuntimeCache.Stepped.sound`: one event keeps the invariant.
- `runtime_cached`: what the calls in one isolate get, in every order of events.
-/
namespace UncrackableL5

open Transition

/-- The promise has not been rejected. -/
def LoadPhase.Live : LoadPhase → Prop
  | .settled (.error _) => False
  | _ => True

namespace RuntimeCache

/-- What one event can do, with the conditions under which it does it. -/
inductive Stepped (c : RuntimeCache) : CacheEvent → RuntimeCache → Prop where
  | joined (i : Nat) (cached : c.cached = some i) :
      Stepped c .call { c with calls := c.calls ++ [{ load := i, outcome := none }] }
  | started (cached : c.cached = none) :
      Stepped c .call {
        cached := some c.loads.length
        loads := c.loads ++ [.running]
        calls := c.calls ++ [{ load := c.loads.length, outcome := none }] }
  | loaded (i : Nat) (rt : Runtime) (running : c.loads[i]? = some .running) :
      Stepped c (.settles i (.ok rt)) { c with loads := c.loads.set i (.settled (.ok rt)) }
  | rejected (i : Nat) (e : Exception) (running : c.loads[i]? = some .running) :
      Stepped c (.settles i (.error e)) { c with loads := c.loads.set i (.rejecting e) }
  | cleared (i : Nat) (e : Exception) (rejecting : c.loads[i]? = some (.rejecting e)) :
      Stepped c (.handler i)
        { c with cached := none, loads := c.loads.set i (.settled (.error e)) }
  | resumed (j i : Nat) (outcome : Js Runtime)
      (waiting : c.calls[j]? = some { load := i, outcome := none })
      (settled : c.loads[i]? = some (.settled outcome)) :
      Stepped c (.resume j)
        { c with calls := c.calls.set j { load := i, outcome := some outcome } }

theorem stepped_of_step {c d : RuntimeCache} {event : CacheEvent} (taken : c.step event = some d) :
    Stepped c event d := by
  cases event with
  | call =>
    simp only [step] at taken
    split at taken
    next i cached =>
      cases taken
      exact .joined i cached
    next cached =>
      cases taken
      exact .started cached
  | settles i outcome =>
    simp only [step] at taken
    split at taken
    next running =>
      split at taken
      next rt =>
        cases taken
        exact .loaded i rt running
      next e =>
        cases taken
        exact .rejected i e running
    next => cases taken
  | handler i =>
    simp only [step] at taken
    split at taken
    next e rejecting =>
      cases taken
      exact .cleared i e rejecting
    next => cases taken
  | resume j =>
    simp only [step] at taken
    split at taken
    next i waiting =>
      split at taken
      next outcome settled =>
        cases taken
        exact .resumed j i outcome waiting settled
      next => cases taken
    next => cases taken

/-- The reference points to the one promise that was not rejected, if there is one; a call that has
resumed did so with what its promise settled with. -/
structure Sound (c : RuntimeCache) : Prop where
  live : ∀ (i : Nat) phase, c.loads[i]? = some phase → (phase.Live ↔ c.cached = some i)
  present : ∀ i, c.cached = some i → i + 1 = c.loads.length
  called : ∀ call ∈ c.calls, ∃ phase, c.loads[call.load]? = some phase ∧
    ∀ outcome, call.outcome = some outcome → phase = .settled outcome

theorem initial_sound : Sound .initial where
  live := by simp [initial]
  present := by simp [initial]
  called := by simp [initial]

variable {c d : RuntimeCache} {event : CacheEvent}

/-- A load that is not settled moves to another phase. -/
private theorem Sound.set_load (sound : Sound c) {i : Nat} {before after : LoadPhase}
    (found : c.loads[i]? = some before) (unsettled : ∀ outcome, before ≠ .settled outcome)
    {cached : Option Nat} (same : after.Live ∧ cached = c.cached ∨ ¬after.Live ∧ cached = none) :
    Sound { c with cached := cached, loads := c.loads.set i after } := by
  have live : before.Live := by
    cases before with
    | settled outcome => exact absurd rfl (unsettled outcome)
    | running | rejecting => trivial
  have own := (sound.live i before found).mp live
  have bound := (List.getElem?_eq_some_iff.mp found).1
  refine ⟨fun j phase there => ?_, fun j there => ?_, fun call member => ?_⟩
  · rcases lookup_set there with ⟨rfl, rfl⟩ | ⟨other, there⟩
    · rcases same with ⟨isLive, rfl⟩ | ⟨isDead, rfl⟩
      · exact iff_of_true isLive own
      · exact iff_of_false isDead (by simp)
    · rw [sound.live j phase there, own]
      rcases same with ⟨-, rfl⟩ | ⟨-, rfl⟩
      · rw [own]
      · simpa using Ne.symm other
  · rcases same with ⟨-, rfl⟩ | ⟨-, rfl⟩
    · simpa using sound.present j there
    · cases there
  · obtain ⟨phase, there, resumed⟩ := sound.called call member
    by_cases same : call.load = i
    · -- A promise that is not settled has not resumed any call.
      refine ⟨after, by simp only [same, List.getElem?_set_self bound], fun outcome got => ?_⟩
      rw [same, found] at there
      exact absurd (Option.some.inj there ▸ resumed outcome got) (unsettled outcome)
    · exact ⟨phase, by simp only [List.getElem?_set_ne (Ne.symm same), there], resumed⟩

theorem Stepped.sound (taken : Stepped c event d) (sound : Sound c) : Sound d := by
  cases taken with
  | joined i cached =>
    refine ⟨sound.live, sound.present, fun call member => ?_⟩
    rcases List.mem_append.mp member with old | new
    · exact sound.called call old
    · have bound : i < c.loads.length := by
        have := sound.present i cached
        omega
      rw [List.mem_singleton.mp new]
      exact ⟨c.loads[i], List.getElem?_eq_getElem bound, by simp⟩
  | started cached =>
    refine ⟨fun i phase there => ?_, fun i there => ?_, fun call member => ?_⟩
    · rw [List.getElem?_append] at there
      split at there
      next old =>
        have dead := (sound.live i phase there).not.mpr (by simp [cached])
        exact iff_of_false dead (by simp only [Option.some.injEq]; omega)
      next new =>
        obtain ⟨bound, rfl⟩ := List.getElem?_eq_some_iff.mp there
        simp only [List.length_singleton] at bound
        exact iff_of_true (by simp [LoadPhase.Live]) (by simp only [Option.some.injEq]; omega)
    · cases there
      simp
    · rcases List.mem_append.mp member with old | new
      · obtain ⟨phase, there, resumed⟩ := sound.called call old
        have bound := (List.getElem?_eq_some_iff.mp there).1
        exact ⟨phase, by simp only [List.getElem?_append_left bound, there], resumed⟩
      · rw [List.mem_singleton.mp new]
        exact ⟨.running, by simp, by simp⟩
  | loaded i rt running =>
    exact sound.set_load running (by simp) (Or.inl ⟨trivial, rfl⟩)
  | rejected i e running =>
    exact sound.set_load running (by simp) (Or.inl ⟨trivial, rfl⟩)
  | cleared i e rejecting =>
    exact sound.set_load rejecting (by simp) (Or.inr ⟨fun live => live, rfl⟩)
  | resumed j i outcome waiting settled =>
    refine ⟨sound.live, sound.present, fun call member => ?_⟩
    rcases List.mem_or_eq_of_mem_set member with old | rfl
    · exact sound.called call old
    · exact ⟨.settled outcome, settled, by simp⟩

theorem sound_of_run {events : List CacheEvent} (taken : Run step .initial events c) : Sound c :=
  taken.invariant Sound (fun _ _ _ sound step => (stepped_of_step step).sound sound) initial_sound

/-! ### After a success -/

/-- The loads are these, one of them gave this runtime, and so will every call of `runtime`. -/
structure Loaded (loads : List LoadPhase) (i : Nat) (rt : Runtime) (calls : Nat)
    (c : RuntimeCache) : Prop where
  loads_eq : c.loads = loads
  cached : c.cached = some i
  success : c.loads[i]? = some (.settled (.ok rt))
  later : ∀ j call, calls ≤ j → c.calls[j]? = some call →
    call.load = i ∧ ∀ outcome, call.outcome = some outcome → outcome = .ok rt

/-- Nothing but calls happens any more. -/
theorem Stepped.keepsLoaded (taken : Stepped c event d) (sound : Sound c) {loads : List LoadPhase}
    {i calls : Nat} {rt : Runtime} (before : Loaded loads i rt calls c)
    (bound : calls ≤ c.calls.length) : Loaded loads i rt calls d ∧ calls ≤ d.calls.length := by
  -- Another load that is not settled would be the one the cache points to.
  have settled : ∀ (k : Nat) (phase : LoadPhase), c.loads[k]? = some phase → phase.Live →
      phase = .settled (.ok rt) := by
    intro k phase there live
    have same := ((sound.live k phase there).mp live).symm.trans before.cached
    rw [Option.some.inj same, before.success] at there
    exact (Option.some.inj there).symm
  cases taken with
  | joined k cached =>
    refine ⟨⟨before.loads_eq, before.cached, before.success, fun j call late there => ?_⟩, by
      simp only [List.length_append]; omega⟩
    rcases lookup_append there with rfl | old
    · exact ⟨Option.some.inj (cached.symm.trans before.cached), by simp⟩
    · exact before.later j call late old
  | started cached => cases cached.symm.trans before.cached
  | loaded k other running => cases settled k _ running trivial
  | rejected k e running => cases settled k _ running trivial
  | cleared k e rejecting => cases settled k _ rejecting trivial
  | resumed j k outcome waiting there =>
    refine ⟨⟨before.loads_eq, before.cached, before.success, fun m call late found => ?_⟩, by
      simpa only [List.length_set] using bound⟩
    rcases lookup_set found with ⟨rfl, rfl⟩ | ⟨-, old⟩
    · obtain ⟨same, -⟩ := before.later m _ late waiting
      refine ⟨same, fun given got => ?_⟩
      simp only at same
      rw [same, before.success] at there
      cases there
      exact (Option.some.inj got).symm
    · exact before.later m call late old

theorem loaded_of_run {events : List CacheEvent} (taken : Run step c events d) (sound : Sound c)
    {i : Nat} {rt : Runtime} (success : c.loads[i]? = some (.settled (.ok rt))) :
    Loaded c.loads i rt c.calls.length d := by
  have start : Loaded c.loads i rt c.calls.length c := by
    refine ⟨rfl, (sound.live i _ success).mp trivial, success, fun j call late there => ?_⟩
    have bound := (List.getElem?_eq_some_iff.mp there).1
    omega
  have kept := taken.invariant
    (fun x => Sound x ∧ Loaded c.loads i rt c.calls.length x ∧ c.calls.length ≤ x.calls.length) ?_
    ⟨sound, start, le_rfl⟩
  · exact kept.2.1
  · rintro x event y ⟨sound, loaded, bound⟩ step
    have stepped := stepped_of_step step
    exact ⟨stepped.sound sound, stepped.keepsLoaded sound loaded bound⟩

end RuntimeCache

/-- In every order of calls, loads and handlers: a load starts only when every earlier one has
failed, a handler clears the reference to its own promise, every call that gets a runtime gets the
same one from the same load, and after a success no load starts and every later call gets it. -/
theorem runtime_cached (events : List CacheEvent) (c : RuntimeCache)
    (taken : Run RuntimeCache.step .initial events c) :
    (∀ (i j : Nat) phase later, i < j → c.loads[i]? = some phase → c.loads[j]? = some later →
      ∃ e, phase = .settled (.error e)) ∧
    (∀ (i : Nat) e, c.loads[i]? = some (.rejecting e) → c.cached = some i) ∧
    (∀ a ∈ c.calls, ∀ b ∈ c.calls, ∀ rt other, a.outcome = some (.ok rt) →
      b.outcome = some (.ok other) → a.load = b.load ∧ rt = other) ∧
    ∀ (more : List CacheEvent) d (i : Nat) rt, c.loads[i]? = some (.settled (.ok rt)) →
      Run RuntimeCache.step c more d → d.loads = c.loads ∧
        ∀ (j : Nat) call, c.calls.length ≤ j → d.calls[j]? = some call →
          call.load = i ∧ ∀ outcome, call.outcome = some outcome → outcome = .ok rt := by
  have sound := RuntimeCache.sound_of_run taken
  refine ⟨?_, ?_, ?_, ?_⟩
  · intro i j phase later before first second
    have bound := (List.getElem?_eq_some_iff.mp second).1
    -- A live load is the last one.
    have dead : ¬phase.Live := by
      intro live
      have := sound.present i ((sound.live i phase first).mp live)
      omega
    cases phase with
    | settled outcome =>
      cases outcome with
      | ok rt => exact absurd trivial dead
      | error e => exact ⟨e, rfl⟩
    | running | rejecting => exact absurd trivial dead
  · intro i e there
    exact (sound.live i _ there).mp trivial
  · intro a memberA b memberB rt other gotA gotB
    obtain ⟨_, thereA, settledA⟩ := sound.called a memberA
    obtain ⟨_, thereB, settledB⟩ := sound.called b memberB
    rw [settledA _ gotA] at thereA
    rw [settledB _ gotB] at thereB
    have cachedA := (sound.live _ _ thereA).mp trivial
    have cachedB := (sound.live _ _ thereB).mp trivial
    have same : a.load = b.load := Option.some.inj (cachedA.symm.trans cachedB)
    refine ⟨same, ?_⟩
    rw [same, thereB] at thereA
    cases thereA
    rfl
  · intro more d i rt success continued
    have loaded := RuntimeCache.loaded_of_run continued sound success
    exact ⟨loaded.loads_eq, loaded.later⟩

namespace Sample

/-- Two calls share a load that fails; a third one comes before its handler, a fourth one after. -/
def retried : List CacheEvent :=
  [.call, .call, .settles 0 (.error (.error "network")), .call, .handler 0, .call, .resume 0,
    .resume 2]

end Sample

theorem runtime_cached_sample :
    ∃ c, Run RuntimeCache.step .initial Sample.retried c ∧ c.cached = some 1 ∧
      c.loads[1]? = some .running ∧ ∃ e, c.loads[0]? = some (.settled (.error e)) := by
  obtain ⟨c, taken⟩ : ∃ c, Run RuntimeCache.step .initial Sample.retried c := ⟨_, rfl⟩
  have first := (runtime_cached Sample.retried c taken).1 0 1
  cases taken
  obtain ⟨e, failed⟩ := first _ _ Nat.zero_lt_one rfl rfl
  exact ⟨_, rfl, rfl, rfl, e, by rw [← failed]; rfl⟩

end UncrackableL5

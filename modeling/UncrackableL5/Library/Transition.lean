import Mathlib.Data.List.Basic
import Mathlib.Data.List.Induction

/-!
# Transition systems

A system is a partial step function: an event is either possible in a state, and then determines
the next one, or impossible. Everything that a scheduler or an environment chooses is in the
events, so a list of events is one interleaving.

The rules are the usual ones. What one step preserves, a run preserves (`Run.invariant`), and what
every step of a kind preserves, a run of such steps does (`Throughout.invariant`); what one step
only increases, a run only increases (`Run.grows`); what two conditions have in common on every
step, they have in common on runs (`Throughout.congr`). Where a state owes something to the steps
before it, the run itself is part of the invariant (`Run.history`), which may then say that steps
of two kinds were taken in turn (`InTurn`). A run of a system with parts is a run of each part
(`Run.project`).
-/
namespace Transition

variable {σ ε : Type*}

/-- The state after a list of events; `none` when one of them is not possible. -/
def run (step : σ → ε → Option σ) : σ → List ε → Option σ
  | s, [] => some s
  | s, e :: events => (step s e).bind fun t => run step t events

/-- `events` is a run from `s` to `t`. -/
def Run (step : σ → ε → Option σ) (s : σ) (events : List ε) (t : σ) : Prop :=
  run step s events = some t

/-- Every step of the run meets the condition. -/
def Throughout (step : σ → ε → Option σ) (good : σ → ε → Prop) : σ → List ε → Prop
  | _, [] => True
  | s, e :: events => good s e ∧ ∀ t, step s e = some t → Throughout step good t events

variable {step : σ → ε → Option σ}

@[simp] theorem run_nil (s t : σ) : Run step s [] t ↔ s = t := by simp [Run, run]

theorem run_cons (s t : σ) (e : ε) (events : List ε) :
    Run step s (e :: events) t ↔ ∃ middle, step s e = some middle ∧ Run step middle events t := by
  simp [Run, run, Option.bind_eq_some_iff]

/-- What every step preserves holds at the end of a run. -/
theorem Run.invariant {s t : σ} {events : List ε} (taken : Run step s events t)
    (holds : σ → Prop) (preserved : ∀ s e t, holds s → step s e = some t → holds t)
    (start : holds s) : holds t := by
  induction events generalizing s with
  | nil => exact (run_nil s t).mp taken ▸ start
  | cons e events ih =>
    obtain ⟨middle, first, rest⟩ := (run_cons s t e events).mp taken
    exact ih rest (preserved s e middle start first)

/-- What every step that meets the condition preserves holds at the end of a run of such steps. -/
theorem Throughout.invariant {good : σ → ε → Prop} {s t : σ} {events : List ε}
    (met : Throughout step good s events) (taken : Run step s events t) (holds : σ → Prop)
    (preserved : ∀ s e t, holds s → good s e → step s e = some t → holds t) (start : holds s) :
    holds t := by
  induction events generalizing s with
  | nil => exact (run_nil s t).mp taken ▸ start
  | cons e events ih =>
    obtain ⟨middle, first, rest⟩ := (run_cons s t e events).mp taken
    exact ih (met.2 middle first) rest (preserved s e middle start met.1 first)

/-- What no step decreases, no run decreases. -/
theorem Run.grows {s t : σ} {events : List ε} (taken : Run step s events t)
    (le : σ → σ → Prop) (refl : ∀ s, le s s) (trans : ∀ a b c, le a b → le b c → le a c)
    (grows : ∀ s e t, step s e = some t → le s t) : le s t := by
  induction events generalizing s with
  | nil => exact (run_nil s t).mp taken ▸ refl s
  | cons e events ih =>
    obtain ⟨middle, first, rest⟩ := (run_cons s t e events).mp taken
    exact trans s middle t (grows s e middle first) (ih rest)

/-- A run of the whole is a run of each part that only takes steps of its own. -/
theorem Run.project {σ' ε' : Type*} {part : σ' → ε' → Option σ'} {s t : σ} {events : List ε}
    (taken : Run step s events t) (view : σ → σ')
    (each : ∀ s e t, step s e = some t → view t = view s ∨ ∃ e', part (view s) e' = some (view t)) :
    ∃ own, Run part (view s) own (view t) := by
  induction events generalizing s with
  | nil => exact ⟨[], (run_nil s t).mp taken ▸ (run_nil _ _).mpr rfl⟩
  | cons e events ih =>
    obtain ⟨middle, first, rest⟩ := (run_cons s t e events).mp taken
    obtain ⟨own, later⟩ := ih rest
    rcases each s e middle first with still | ⟨e', moves⟩
    · exact ⟨own, still ▸ later⟩
    · exact ⟨e' :: own, (run_cons _ _ _ _).mpr ⟨view middle, moves, later⟩⟩

/-- Two conditions that agree on the steps of a run, as long as they keep an invariant, hold
throughout the same runs. -/
theorem Throughout.congr {s t : σ} {events : List ε} (taken : Run step s events t)
    {good fine : σ → ε → Prop} (holds : σ → Prop)
    (agree : ∀ s e middle rest, holds s → step s e = some middle → Run step middle rest t →
      (good s e ↔ fine s e))
    (preserved : ∀ s e middle rest, holds s → step s e = some middle → Run step middle rest t →
      good s e → holds middle)
    (start : holds s) : Throughout step good s events ↔ Throughout step fine s events := by
  induction events generalizing s with
  | nil => simp [Throughout]
  | cons e events ih =>
    obtain ⟨middle, first, rest⟩ := (run_cons s t e events).mp taken
    have here := agree s e middle events start first rest
    -- The step is a function, so the run takes the state that the condition speaks of.
    have only : ∀ other, step s e = some other → other = middle := fun other second =>
      Option.some.inj (second.symm.trans first)
    simp only [Throughout]
    constructor
    · rintro ⟨holds_here, later⟩
      refine ⟨here.mp holds_here, fun other second => ?_⟩
      obtain rfl := only other second
      exact (ih rest (preserved s e other events start first rest holds_here)).mp (later _ first)
    · rintro ⟨fine_here, later⟩
      have holds_here := here.mpr fine_here
      refine ⟨holds_here, fun other second => ?_⟩
      obtain rfl := only other second
      exact (ih rest (preserved s e other events start first rest holds_here)).mpr (later _ first)

/-! ### Histories

What a state owes to the steps before it.
-/

/-- One step of the run was of this kind. -/
def Happened (step : σ → ε → Option σ) (kind : σ → ε → Prop) (s : σ) (events : List ε) : Prop :=
  ∃ before e after middle, events = before ++ e :: after ∧ Run step s before middle ∧ kind middle e

/-- A step of the first kind came before one of the second. -/
def InTurn (step : σ → ε → Option σ) (first second : σ → ε → Prop) (s : σ) (events : List ε) :
    Prop :=
  ∃ before after middle, events = before ++ after ∧ Run step s before middle ∧
    Happened step first s before ∧ Happened step second middle after

theorem run_append (s t : σ) (before after : List ε) :
    Run step s (before ++ after) t ↔
      ∃ middle, Run step s before middle ∧ Run step middle after t := by
  induction before generalizing s with
  | nil => simp [Run, run]
  | cons e before ih =>
    simp only [List.cons_append, run_cons, ih]
    constructor
    · rintro ⟨first, taken, middle, rest, last⟩
      exact ⟨middle, ⟨first, taken, rest⟩, last⟩
    · rintro ⟨middle, ⟨first, taken, rest⟩, last⟩
      exact ⟨first, taken, middle, rest, last⟩

theorem run_snoc (s t : σ) (past : List ε) (e : ε) :
    Run step s (past ++ [e]) t ↔ ∃ middle, Run step s past middle ∧ step middle e = some t := by
  simp [run_append, run_cons]

theorem Run.unique {s t u : σ} {events : List ε} (first : Run step s events t)
    (second : Run step s events u) : t = u :=
  Option.some.inj (first.symm.trans second)

/-- What holds at the start and is kept by every step that continues a run holds of the run and
its end. -/
theorem Run.history {s t : σ} {events : List ε} (taken : Run step s events t)
    (holds : List ε → σ → Prop) (start : holds [] s)
    (kept : ∀ past e middle next, Run step s past middle → holds past middle →
      step middle e = some next → holds (past ++ [e]) next) : holds events t := by
  induction events using List.reverseRecOn generalizing t with
  | nil => exact (run_nil s t).mp taken ▸ start
  | append_singleton past e ih =>
    obtain ⟨middle, before, last⟩ := (run_snoc s t past e).mp taken
    exact kept past e middle t before (ih before) last

variable {kind : σ → ε → Prop}

@[simp] theorem happened_nil (s : σ) : ¬Happened step kind s [] := by
  rintro ⟨before, e, after, middle, split, -⟩
  simp at split

theorem happened_snoc {s middle : σ} {past : List ε} (taken : Run step s past middle) (e : ε) :
    Happened step kind s (past ++ [e]) ↔ Happened step kind s past ∨ kind middle e := by
  constructor
  · rintro ⟨before, f, after, earlier, split, reached, isKind⟩
    rcases List.eq_nil_or_concat after with rfl | ⟨rest, g, rfl⟩
    · obtain ⟨rfl, last⟩ := List.append_inj' split rfl
      cases last
      exact Or.inr (reached.unique taken ▸ isKind)
    · rw [List.concat_eq_append, ← List.cons_append, ← List.append_assoc] at split
      obtain ⟨rfl, -⟩ := List.append_inj' split rfl
      exact Or.inl ⟨before, f, rest, earlier, rfl, reached, isKind⟩
  · rintro (⟨before, f, rest, earlier, rfl, reached, isKind⟩ | isKind)
    · exact ⟨before, f, rest ++ [e], earlier, by simp, reached, isKind⟩
    · exact ⟨past, e, [], middle, rfl, taken, isKind⟩

theorem Happened.later {s : σ} {past : List ε} (happened : Happened step kind s past)
    (more : List ε) : Happened step kind s (past ++ more) := by
  obtain ⟨before, e, after, middle, rfl, reached, isKind⟩ := happened
  exact ⟨before, e, after ++ more, middle, by simp, reached, isKind⟩

theorem Happened.after {s middle : σ} {before after : List ε} (reached : Run step s before middle)
    (happened : Happened step kind middle after) : Happened step kind s (before ++ after) := by
  obtain ⟨early, e, late, last, rfl, rest, isKind⟩ := happened
  exact ⟨before ++ early, e, late, last, by simp, (run_append _ _ _ _).mpr ⟨middle, reached, rest⟩,
    isKind⟩

variable {first second : σ → ε → Prop}

theorem InTurn.happened {s : σ} {events : List ε} (ordered : InTurn step first second s events) :
    Happened step second s events := by
  obtain ⟨before, after, middle, rfl, reached, -, later⟩ := ordered
  exact later.after reached

theorem InTurn.later {s : σ} {past : List ε} (ordered : InTurn step first second s past)
    (more : List ε) : InTurn step first second s (past ++ more) := by
  obtain ⟨before, after, middle, rfl, reached, earlier, later⟩ := ordered
  exact ⟨before, after ++ more, middle, by simp, reached, earlier, later.later more⟩

/-- What happened before a step came before it. -/
theorem Happened.inTurn {s middle : σ} {past : List ε} {e : ε}
    (happened : Happened step first s past) (taken : Run step s past middle)
    (now : second middle e) :
    InTurn step first second s (past ++ [e]) :=
  ⟨past, [e], middle, rfl, taken, happened, [], e, [], middle, rfl, (run_nil _ _).mpr rfl, now⟩

/-- A condition that every step of the run meets, step by step. -/
theorem Run.throughout {s t : σ} {events : List ε} (taken : Run step s events t)
    (met : ∀ before e after middle, events = before ++ e :: after → Run step s before middle →
      kind middle e) : Throughout step kind s events := by
  induction events generalizing s with
  | nil => trivial
  | cons e events ih =>
    obtain ⟨middle, first, rest⟩ := (run_cons s t e events).mp taken
    refine ⟨met [] e events s rfl ((run_nil s s).mpr rfl), fun other second => ?_⟩
    cases Option.some.inj (first.symm.trans second)
    apply ih rest
    intro before f after later split reached
    exact met (e :: before) f after later (by rw [split, List.cons_append])
      ((run_cons s later e before).mpr ⟨middle, first, reached⟩)

/-- The last step of such a run meets the condition. -/
theorem Throughout.last {s t : σ} {events : List ε} {e : ε}
    (met : Throughout step kind s (events ++ [e])) (taken : Run step s events t) : kind t e := by
  induction events generalizing s with
  | nil =>
    obtain rfl := (run_nil s t).mp taken
    exact met.1
  | cons first events ih =>
    obtain ⟨middle, now, rest⟩ := (run_cons s t first events).mp taken
    exact ih (met.2 middle now) rest

/-! ### Parties

The states of numbered parties are a list; an event replaces one of them or adds one at the end.
-/

section Parties

variable {α : Type*}

theorem lookup_set {parties : List α} {i j : Nat} {new x : α}
    (found : (parties.set i new)[j]? = some x) :
    j = i ∧ x = new ∨ j ≠ i ∧ parties[j]? = some x := by
  rw [List.getElem?_set] at found
  split at found
  next same =>
    split at found
    · exact Or.inl ⟨same.symm, (Option.some.inj found).symm⟩
    · cases found
  next other => exact Or.inr ⟨Ne.symm other, found⟩

theorem lookup_append {parties : List α} {j : Nat} {new x : α}
    (found : (parties ++ [new])[j]? = some x) : x = new ∨ parties[j]? = some x := by
  rw [List.getElem?_append] at found
  split at found
  · exact Or.inr found
  · exact Or.inl (List.mem_singleton.mp (List.mem_of_getElem? found))

/-- At most one party is of this kind. -/
def AtMostOne (kind : α → Prop) (parties : List α) : Prop :=
  ∀ (i j : Nat) (x y : α), parties[i]? = some x → parties[j]? = some y → kind x → kind y → i = j

variable {kind : α → Prop} {parties : List α}

theorem AtMostOne.mono {wider : α → Prop} (unique : AtMostOne wider parties)
    (implies : ∀ x, kind x → wider x) : AtMostOne kind parties :=
  fun i j x y first second isX isY =>
    unique i j x y first second (implies x isX) (implies y isY)

/-- Replacing a party by one that is of the kind only if the old one was. -/
theorem AtMostOne.set (unique : AtMostOne kind parties) {i : Nat} {old new : α}
    (running : parties[i]? = some old) (before : kind new → kind old) :
    AtMostOne kind (parties.set i new) := by
  -- Whoever is of the kind now was at the same number before.
  have back : ∀ (j : Nat) (x : α), (parties.set i new)[j]? = some x → kind x →
      ∃ y, parties[j]? = some y ∧ kind y := by
    intro j x found isX
    rcases lookup_set found with ⟨rfl, rfl⟩ | ⟨-, present⟩
    · exact ⟨old, running, before isX⟩
    · exact ⟨x, present, isX⟩
  intro j k x y first second isX isY
  obtain ⟨x', first, isX⟩ := back j x first isX
  obtain ⟨y', second, isY⟩ := back k y second isY
  exact unique j k x' y' first second isX isY

theorem AtMostOne.set_of_none (others : ∀ x ∈ parties, ¬kind x) (i : Nat) (new : α) :
    AtMostOne kind (parties.set i new) := by
  have only : ∀ (j : Nat) (x : α), (parties.set i new)[j]? = some x → kind x → j = i := by
    intro j x found isX
    rcases lookup_set found with ⟨rfl, -⟩ | ⟨-, present⟩
    · rfl
    · exact absurd isX (others x (List.mem_of_getElem? present))
  intro j k x y first second isX isY
  rw [only j x first isX, only k y second isY]

theorem AtMostOne.append (unique : AtMostOne kind parties) {new : α} (other : ¬kind new) :
    AtMostOne kind (parties ++ [new]) := by
  have old : ∀ (j : Nat) (x : α), (parties ++ [new])[j]? = some x → kind x →
      parties[j]? = some x := by
    intro j x found isX
    rcases lookup_append found with rfl | present
    · exact absurd isX other
    · exact present
  intro j k x y first second isX isY
  exact unique j k x y (old j x first isX) (old k y second isY) isX isY

end Parties

end Transition

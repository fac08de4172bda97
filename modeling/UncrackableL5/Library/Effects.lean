import Mathlib

/-!
# Programs with state and exceptions

`EStateM` keeps the changes that a program made before it threw. A triple says what holds of a
program's result; these rules take it to the result itself.
-/
namespace Effects

open Std.Do

set_option mvcgen.warning false

universe u

variable {ε σ α : Type u}

/-- A handler goes on with the state in which the exception was thrown. -/
@[simp] theorem restore_save (s : σ) (saved : PUnit) :
    EStateM.Backtrackable.restore s saved = s := rfl

/-! ### Execution -/

section Execution

variable {β : Type u} {x : EStateM ε σ α} {s t : σ} {a : α} {e : ε}

theorem bind_of_returned (f : α → EStateM ε σ β) (ran : x s = .ok a t) : (x >>= f) s = f a t := by
  simp only [bind, EStateM.bind, ran]

theorem bind_get (f : σ → EStateM ε σ β) : (get >>= f) s = f s s := rfl

theorem bind_modify (g : σ → σ) (f : PUnit → EStateM ε σ β) :
    (modify g >>= f) s = f ⟨⟩ (g s) := rfl

theorem tryCatch_of_returned (handler : ε → EStateM ε σ α) (ran : x s = .ok a t) :
    tryCatch x handler s = .ok a t := by
  simp only [tryCatch, tryCatchThe, MonadExceptOf.tryCatch, EStateM.tryCatch, ran]

end Execution

/-! ### Triples -/

variable {program : EStateM ε σ α} {s t : σ} {returned : α → σ → Prop} {thrown : ε → σ → Prop}

/-- A triple about one starting state holds of the result of the program from it. -/
theorem outcome
    (spec : ⦃fun now => ⌜now = s⌝⦄ program
      ⦃post⟨fun a now => ⌜returned a now⌝, fun e now => ⌜thrown e now⌝⟩⦄) :
    match program s with
    | .ok a t => returned a t
    | .error e t => thrown e t :=
  EStateM.of_wp_run_eq (s := s) rfl
    (fun result =>
      match result with
      | .ok a t => returned a t
      | .error e t => thrown e t)
    fun _ => spec s rfl

theorem of_returned {a : α}
    (spec : ⦃fun now => ⌜now = s⌝⦄ program
      ⦃post⟨fun a now => ⌜returned a now⌝, fun e now => ⌜thrown e now⌝⟩⦄)
    (ran : program s = .ok a t) : returned a t := by
  have result := outcome spec
  rwa [ran] at result

/-- What holds of the result of a program from one state is a triple. -/
theorem of_outcome
    (result : match program s with
      | .ok a t => returned a t
      | .error e t => thrown e t) :
    ⦃fun now => ⌜now = s⌝⦄ program
      ⦃post⟨fun a now => ⌜returned a now⌝, fun e now => ⌜thrown e now⌝⟩⦄ := by
  intro now same
  obtain rfl : now = s := same
  have run : program.run now = program now := rfl
  cases ran : program now with
  | ok a t =>
    rw [ran] at result
    simp only [WP.wp, PredTrans.apply, run, ran]
    exact result
  | error e t =>
    rw [ran] at result
    simp only [WP.wp, PredTrans.apply, run, ran]
    exact result

/-- An answer that was given before changes nothing. -/
@[spec] theorem ofExcept_spec (answer : Except ε α) (s : σ) :
    ⦃fun now => ⌜now = s⌝⦄ (MonadExcept.ofExcept answer : EStateM ε σ α)
    ⦃post⟨fun a now => ⌜answer = .ok a ∧ now = s⌝,
      fun e now => ⌜answer = .error e ∧ now = s⌝⟩⦄ := by
  mvcgen [MonadExcept.ofExcept]

end Effects

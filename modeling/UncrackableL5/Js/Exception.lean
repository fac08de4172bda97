import Mathlib.Data.List.Forall2

/-!
# Exceptions

A source function that can throw is an `Except` over the values it throws. Each error
class of the source is one constructor; the built-in classes are those the runtime
raises in the code modelled here. An `async` function without shared state is the
function of what it awaits.
-/
namespace UncrackableL5

/-- The codes of `Rejected` and of the Worker's 403 responses. -/
inductive RejectCode where
  | attestationInvalid
  | appIntegrity
  | deviceIntegrity
  | noHardwareAttestation
  | noRemoteProvisioning
  | securityPatchOutdated
  | challengeExpired
  | challengeReplayed
  deriving DecidableEq, Repr

/-- `Rejected.code`. -/
def RejectCode.text : RejectCode → String
  | .attestationInvalid => "attestation_invalid"
  | .appIntegrity => "app_integrity"
  | .deviceIntegrity => "device_integrity"
  | .noHardwareAttestation => "no_hardware_attestation"
  | .noRemoteProvisioning => "no_remote_provisioning"
  | .securityPatchOutdated => "security_patch_outdated"
  | .challengeExpired => "challenge_expired"
  | .challengeReplayed => "challenge_replayed"

inductive Exception where
  | error (message : String)
  | typeError (message : String)
  | rangeError (message : String)
  | derError (message : String)
  | attributeError (message : String)
  | chainError (message : String)
  | pathError (message : String)
  | rejected (code : RejectCode)
  | unavailable
  deriving DecidableEq, Repr

/-- `(e as Error).message`. -/
def Exception.message : Exception → String
  | .error message | .typeError message | .rangeError message | .derError message
  | .attributeError message | .chainError message | .pathError message => message
  | .rejected code => code.text
  | .unavailable => "verification_unavailable"

/-- The outcome of a call that may throw. -/
abbrev Js (α : Type) := Except Exception α

/-- `try { x } catch (e) { handler(e) }`. -/
def Js.recover {α : Type} (x : Js α) (handler : Exception → Js α) : Js α :=
  match x with
  | .ok a => .ok a
  | .error e => handler e

section Inversion

variable {ε α β : Type}

theorem bind_ok_iff (x : Except ε α) (f : α → Except ε β) (b : β) :
    (x >>= f) = .ok b ↔ ∃ a, x = .ok a ∧ f a = .ok b := by
  cases x <;> simp [bind, Except.bind]

@[simp] theorem ok_bind (a : α) (f : α → Except ε β) : (Except.ok a >>= f) = f a := rfl

@[simp] theorem error_bind (e : ε) (f : α → Except ε β) :
    (Except.error e >>= f) = .error e := rfl

@[simp] theorem pure_eq_ok (a : α) : (pure a : Except ε α) = .ok a := rfl

theorem toOption_eq_some_iff {x : Js α} {a : α} : x.toOption = some a ↔ x = .ok a := by
  cases x <;> simp [Except.toOption]

/-- A guard that throws is passed exactly when its condition fails. -/
theorem guard_eq_ok_iff {p : Prop} [Decidable p] (e : ε) (x : Except ε α) (a : α) :
    (if p then .error e else x) = .ok a ↔ ¬p ∧ x = .ok a := by
  split <;> simp [*]

theorem recover_error_eq_ok_iff {α : Type} (x : Js α) (e : Exception) (a : α) :
    (x.recover fun _ => .error e) = .ok a ↔ x = .ok a := by
  cases x <;> simp [Js.recover]

/-- A traversal succeeds exactly when every element does. -/
theorem mapM_ok_iff_forall₂ (f : α → Except ε β) (xs : List α) (ys : List β) :
    xs.mapM f = .ok ys ↔ List.Forall₂ (fun x y => f x = .ok y) xs ys := by
  induction xs generalizing ys with
  | nil => cases ys <;> simp
  | cons x xs ih =>
    simp only [List.mapM_cons, bind_ok_iff, pure_eq_ok, ih]
    cases ys with
    | nil => simp
    | cons y ys =>
      simp only [List.forall₂_cons, Except.ok.injEq, List.cons.injEq]
      constructor
      · rintro ⟨_, hx, _, hxs, rfl, rfl⟩
        exact ⟨hx, hxs⟩
      · rintro ⟨hx, hxs⟩
        exact ⟨y, hx, ys, hxs, rfl, rfl⟩

theorem mapM_map_eq_ok {γ : Type} {f : β → Except ε γ} {g : α → β} {h : α → γ} {xs : List α}
    (each : ∀ x ∈ xs, f (g x) = .ok (h x)) : (xs.map g).mapM f = .ok (xs.map h) := by
  rw [mapM_ok_iff_forall₂, List.forall₂_map_left_iff, List.forall₂_map_right_iff,
    List.forall₂_same]
  exact each

/-- A traversal that succeeds lets another one succeed that goes with it element by element. -/
theorem mapM_transfer {γ : Type} {f : α → Except ε β} {g : α → Except ε γ} {R : β → γ → Prop}
    {xs : List α} {ys : List β}
    (each : ∀ x ∈ xs, ∀ y, f x = .ok y → ∃ z, g x = .ok z ∧ R y z) (done : xs.mapM f = .ok ys) :
    ∃ zs, xs.mapM g = .ok zs ∧ List.Forall₂ R ys zs := by
  simp only [mapM_ok_iff_forall₂] at done ⊢
  induction done with
  | nil => exact ⟨[], .nil, .nil⟩
  | @cons x y xs ys here _ ih =>
    obtain ⟨z, found, related⟩ := each x (by simp) y here
    obtain ⟨zs, rest, others⟩ := ih fun x member => each x (by simp [member])
    exact ⟨z :: zs, .cons found rest, .cons related others⟩

end Inversion

end UncrackableL5

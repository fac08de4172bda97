import UncrackableL5.Js.Text
import Mathlib.Data.List.Lex
import Mathlib.Data.List.Sort

/-!
# Collections

Sorting by code units, and sets in insertion order.
-/
namespace UncrackableL5

/-- The code-unit order of strings. -/
def UnitsLe (a b : JsString) : Prop := a.map UInt16.toNat ≤ b.map UInt16.toNat

instance : DecidableRel UnitsLe := fun a b =>
  inferInstanceAs (Decidable (a.map UInt16.toNat ≤ b.map UInt16.toNat))

instance : Std.Total UnitsLe := ⟨fun _ _ => le_total _ _⟩

instance : IsTrans JsString UnitsLe := ⟨fun _ _ _ hab hbc => le_trans hab hbc⟩

instance : Std.Antisymm UnitsLe := ⟨fun _ _ hab hba =>
  List.map_injective_iff.mpr (fun _ _ same => UInt16.toNat_inj.mp same) (le_antisymm hab hba)⟩

/-- `array.sort()` on strings. -/
def sortStrings (strings : List JsString) : List JsString := strings.insertionSort UnitsLe

theorem sortStrings_perm (strings : List JsString) : (sortStrings strings).Perm strings :=
  List.perm_insertionSort UnitsLe strings

@[simp] theorem mem_sortStrings (s : JsString) (strings : List JsString) :
    s ∈ sortStrings strings ↔ s ∈ strings := (sortStrings_perm strings).mem_iff

/-- Sorted texts are the same when they are texts in another order. -/
theorem sortStrings_eq_iff (xs ys : List JsString) :
    sortStrings xs = sortStrings ys ↔ xs.Perm ys := by
  constructor
  · intro same
    exact (sortStrings_perm xs).symm.trans (same ▸ sortStrings_perm ys)
  · intro order
    have sorted := fun strings => List.pairwise_insertionSort UnitsLe strings
    exact List.Perm.eq_of_pairwise' (sorted xs) (sorted ys)
      ((sortStrings_perm xs).trans (order.trans (sortStrings_perm ys).symm))

section Sets

variable {α : Type} [DecidableEq α]

/-- `set.add(v)`, or `if (!out.includes(v)) out.push(v)`. -/
def pushNew (out : List α) (v : α) : List α := if v ∈ out then out else out ++ [v]

@[simp] theorem mem_pushNew (x v : α) (out : List α) : x ∈ pushNew out v ↔ x ∈ out ∨ x = v := by
  rw [pushNew]
  split
  next present =>
    constructor
    · exact Or.inl
    · rintro (member | rfl)
      · exact member
      · exact present
  next => simp

theorem mem_foldl_pushNew (x : α) (values out : List α) :
    x ∈ values.foldl pushNew out ↔ x ∈ out ∨ x ∈ values := by
  induction values generalizing out with
  | nil => simp
  | cons v values ih => simp [ih, or_assoc]

end Sets

end UncrackableL5

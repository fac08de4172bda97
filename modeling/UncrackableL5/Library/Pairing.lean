import Mathlib.Data.List.Perm.Basic
import Mathlib.Data.List.Count

/-!
# Pairings

Two lists are paired under a relation when the elements of one can be matched one to one with the
elements of the other, in any order. Under a relation that compares the values of a function, a
pairing is a permutation of the values (`paired_iff_perm`), so it exists exactly when every value
occurs equally often (`paired_iff_count`). Where each element of one list only has a partner of its
own in the other, the first list is not longer (`length_le_of_partners`).
-/
namespace Pairing

variable {α β γ : Type*}

/-- The elements of the lists can be matched one to one under the relation. -/
def Paired (r : α → β → Prop) (xs : List α) (ys : List β) : Prop :=
  ∃ zs, zs.Perm ys ∧ List.Forall₂ r xs zs

theorem Paired.mono {r wider : α → β → Prop} {xs : List α} {ys : List β} (paired : Paired r xs ys)
    (implies : ∀ x y, r x y → wider x y) : Paired wider xs ys := by
  obtain ⟨zs, order, related⟩ := paired
  exact ⟨zs, order, related.imp implies⟩

theorem forall₂_congr {r s : α → β → Prop} {xs : List α} {ys : List β}
    (same : ∀ x ∈ xs, ∀ y ∈ ys, r x y ↔ s x y) : List.Forall₂ r xs ys ↔ List.Forall₂ s xs ys := by
  induction xs generalizing ys with
  | nil => cases ys <;> simp
  | cons x xs ih =>
    cases ys with
    | nil => simp
    | cons y ys =>
      rw [List.forall₂_cons, List.forall₂_cons, same x (by simp) y (by simp),
        ih fun x hx y hy => same x (by simp [hx]) y (by simp [hy])]

/-- Lists related position by position: an element has a partner. -/
theorem exists_partner {r : α → β → Prop} {xs : List α} {ys : List β}
    (related : List.Forall₂ r xs ys) {x : α} (member : x ∈ xs) : ∃ y ∈ ys, r x y := by
  induction related with
  | nil => cases member
  | @cons a b xs ys here _ ih =>
    rcases List.mem_cons.mp member with rfl | member
    · exact ⟨b, by simp, here⟩
    · obtain ⟨y, present, pair⟩ := ih member
      exact ⟨y, by simp [present], pair⟩

/-- Distinct elements with partners that they do not share are no more than the partners. -/
theorem length_le_of_partners {r : α → β → Prop} {xs : List α} {ys : List β} (distinct : xs.Nodup)
    (partner : ∀ x ∈ xs, ∃ y ∈ ys, r x y) (own : ∀ x x' y, r x y → r x' y → x = x') :
    xs.length ≤ ys.length := by
  classical
  induction xs generalizing ys with
  | nil => exact Nat.zero_le _
  | cons x xs ih =>
    obtain ⟨y, present, pair⟩ := partner x List.mem_cons_self
    obtain ⟨fresh, distinct⟩ := List.nodup_cons.mp distinct
    have rest : ∀ x' ∈ xs, ∃ y' ∈ ys.erase y, r x' y' := by
      intro x' member
      obtain ⟨y', present', pair'⟩ := partner x' (List.mem_cons_of_mem x member)
      refine ⟨y', (List.mem_erase_of_ne ?_).mpr present', pair'⟩
      rintro rfl
      exact fresh (own x x' y' pair pair' ▸ member)
    have shorter := ih distinct rest
    have length := List.length_erase_of_mem present
    have positive := List.length_pos_of_mem present
    rw [List.length_cons]
    omega

theorem paired_congr {r s : α → β → Prop} {xs : List α} {ys : List β}
    (same : ∀ x ∈ xs, ∀ y ∈ ys, r x y ↔ s x y) : Paired r xs ys ↔ Paired s xs ys := by
  have each : ∀ zs : List β, zs.Perm ys → (List.Forall₂ r xs zs ↔ List.Forall₂ s xs zs) :=
    fun zs order => forall₂_congr fun x hx y hy => same x hx y (order.mem_iff.mp hy)
  constructor
  · rintro ⟨zs, order, related⟩
    exact ⟨zs, order, (each zs order).mp related⟩
  · rintro ⟨zs, order, related⟩
    exact ⟨zs, order, (each zs order).mpr related⟩

theorem forall₂_iff_map_eq (f : α → γ) (g : β → γ) (xs : List α) (ys : List β) :
    List.Forall₂ (fun x y => f x = g y) xs ys ↔ xs.map f = ys.map g := by
  induction xs generalizing ys with
  | nil => cases ys <;> simp
  | cons x xs ih =>
    cases ys with
    | nil => simp
    | cons y ys => simp [ih]

theorem map_eq_of_forall₂ {f : α → γ} {g : β → γ} {holds : β → Prop} {xs : List α} {ys : List β}
    (related : List.Forall₂ (fun x y => f x = g y ∧ holds y) xs ys) :
    xs.map f = ys.map g ∧ ∀ y ∈ ys, holds y := by
  induction related with
  | nil => simp
  | cons here _ ih => exact ⟨by simp [here.1, ih.1], by simpa using ⟨here.2, ih.2⟩⟩

/-- Matching equal values is a permutation of the values. -/
theorem paired_iff_perm (f : α → γ) (g : β → γ) (xs : List α) (ys : List β) :
    Paired (fun x y => f x = g y) xs ys ↔ (xs.map f).Perm (ys.map g) := by
  have composed := congrFun (congrFun (List.eq_map_comp_perm g) (xs.map f)) ys
  rw [← composed]
  constructor
  · rintro ⟨zs, order, related⟩
    exact ⟨zs, (forall₂_iff_map_eq f g xs zs).mp related, order⟩
  · rintro ⟨zs, same, order⟩
    exact ⟨zs, order, (forall₂_iff_map_eq f g xs zs).mpr same⟩

/-- Matching equal values is possible exactly when each occurs equally often. -/
theorem paired_iff_count [BEq γ] [LawfulBEq γ] (f : α → γ) (g : β → γ) (xs : List α)
    (ys : List β) :
    Paired (fun x y => f x = g y) xs ys ↔ ∀ v, (xs.map f).count v = (ys.map g).count v := by
  rw [paired_iff_perm, List.perm_iff_count]

theorem count_map_eq_zero [BEq γ] [LawfulBEq γ] {f : α → γ} {v : γ} {xs : List α}
    (absent : ∀ x ∈ xs, f x ≠ v) : (xs.map f).count v = 0 := by
  apply List.count_eq_zero_of_not_mem
  intro member
  obtain ⟨x, present, same⟩ := List.mem_map.mp member
  exact absent x present same

end Pairing

import Mathlib.Algebra.Order.BigOperators.Group.List
import Mathlib.Algebra.Order.Ring.Nat
import Mathlib.Data.List.Forall2

/-!
# Lists paired position by position

A list of records and the list of what is held about each, side by side: how the pairing is read off by
position, cut in two, and kept when one position is set.
-/

namespace Pairing

universe u v

variable {α : Type u} {β γ : Type v} {r s : α → β → Prop} {xs : List α} {ys : List β}

/-- A pairing, by position. -/
lemma forall₂_iff_getElem? :
    List.Forall₂ r xs ys ↔
      xs.length = ys.length ∧ ∀ (i : Nat) x y, xs[i]? = some x → ys[i]? = some y → r x y := by
  rw [List.forall₂_iff_get]
  refine and_congr_right fun len => ⟨fun h i x y hx hy => ?_, fun h i hx hy => ?_⟩
  · obtain ⟨lx, rfl⟩ := List.getElem?_eq_some_iff.mp hx
    obtain ⟨ly, rfl⟩ := List.getElem?_eq_some_iff.mp hy
    exact h i lx ly
  · exact h i _ _ (List.getElem?_eq_getElem hx) (List.getElem?_eq_getElem hy)

/-- The partner of a position. -/
lemma exists_of_forall₂ (rel : List.Forall₂ r xs ys) {i : Nat} {x : α} (at_i : xs[i]? = some x) :
    ∃ y, ys[i]? = some y ∧ r x y := by
  obtain ⟨len, pairs⟩ := forall₂_iff_getElem?.mp rel
  obtain ⟨lt, _⟩ := List.getElem?_eq_some_iff.mp at_i
  have there := List.getElem?_eq_getElem (len ▸ lt)
  exact ⟨_, there, pairs i x _ at_i there⟩

/-- Set one position, and let the others follow. -/
lemma forall₂_set (rel : List.Forall₂ r xs ys) {i : Nat} {x : α} {y : β}
    (at_i : xs[i]? = some x) (new : s x y)
    (rest : ∀ (j : Nat) x' y', j ≠ i → xs[j]? = some x' → r x' y' → s x' y') :
    List.Forall₂ s xs (ys.set i y) := by
  obtain ⟨len, pairs⟩ := forall₂_iff_getElem?.mp rel
  refine forall₂_iff_getElem?.mpr ⟨by rw [List.length_set, len], fun j x' y' hx hy => ?_⟩
  by_cases same : j = i
  · subst same
    rw [at_i] at hx
    cases hx
    obtain ⟨lt, _⟩ := List.getElem?_eq_some_iff.mp hy
    rw [List.getElem?_set_self (by simpa using lt)] at hy
    cases hy
    exact new
  · rw [List.getElem?_set_ne (Ne.symm same)] at hy
    exact rest j x' y' same hx (pairs j x' y' hx hy)

/-- A sum over a list with one position set. -/
lemma sum_map_set {f : β → Nat} {i : Nat} {y : β} (at_i : ys[i]? = some y) (z : β) :
    ((ys.set i z).map f).sum + f y = (ys.map f).sum + f z := by
  induction ys generalizing i with
  | nil => cases at_i
  | cons y' ys ih =>
    cases i with
    | zero =>
      cases at_i
      simp only [List.set_cons_zero, List.map_cons, List.sum_cons]
      omega
    | succ i =>
      have rest := ih at_i
      simp only [List.set_cons_succ, List.map_cons, List.sum_cons]
      omega

/-- Two pairings one after the other. -/
lemma forall₂_comp {t : β → γ → Prop} {w : α → γ → Prop} {zs : List γ}
    (comp : ∀ x y z, r x y → t y z → w x z) (rel : List.Forall₂ r xs ys)
    (rel' : List.Forall₂ t ys zs) : List.Forall₂ w xs zs := by
  induction rel generalizing zs with
  | nil =>
    cases rel'
    exact .nil
  | cons hd _ ih =>
    cases rel' with
    | cons hd' tl' => exact .cons (comp _ _ _ hd hd') (ih tl')

/-- Two lists related element by element are cut in the same place. -/
lemma forall₂_append_left {zs : List α} (rel : List.Forall₂ r (xs ++ zs) ys) :
    ∃ front back, List.Forall₂ r xs front ∧ List.Forall₂ r zs back ∧ ys = front ++ back := by
  induction xs generalizing ys with
  | nil => exact ⟨[], ys, .nil, rel, rfl⟩
  | cons x xs ih =>
    obtain ⟨y, ys, hd, tl, rfl⟩ := List.forall₂_cons_left_iff.mp rel
    obtain ⟨front, back, hf, hb, rfl⟩ := ih tl
    exact ⟨y :: front, back, .cons hd hf, hb, rfl⟩

end Pairing

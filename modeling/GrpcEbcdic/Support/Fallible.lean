import Mathlib.Data.List.Forall2

/-!
# Computations that may fail

When a chain of `Except` steps succeeds: every step of it did. These are the rules a proof about a
chain of checks peels it apart with, one guard or one bind at a time.
-/

namespace Fallible

universe u v

variable {ε : Type u} {α β : Type v}

lemma bind_eq_ok {x : Except ε α} {f : α → Except ε β} {b : β} :
    (x >>= f) = .ok b ↔ ∃ a, x = .ok a ∧ f a = .ok b := by
  cases x <;> simp [bind, Except.bind]

/-- A chain fails in its first step or behind it. -/
lemma bind_eq_error {x : Except ε α} {f : α → Except ε β} {e : ε} :
    (x >>= f) = .error e ↔ x = .error e ∨ ∃ a, x = .ok a ∧ f a = .error e := by
  cases x <;> simp [bind, Except.bind]

lemma pure_eq_ok {a b : α} : (pure a : Except ε α) = .ok b ↔ a = b := by
  simp [pure, Except.pure]

lemma map_eq_ok {x : Except ε α} {f : α → β} {b : β} :
    x.map f = .ok b ↔ ∃ a, x = .ok a ∧ f a = b := by
  cases x <;> simp [Except.map]

lemma ok_bind {a : α} {f : α → Except ε β} : (Except.ok a >>= f) = f a := rfl

lemma toOption_eq_some {x : Except ε α} {a : α} : x.toOption = some a ↔ x = .ok a := by
  cases x <;> simp [Except.toOption]

/-- A passed check. -/
lemma guard_eq_ok {p : Prop} [Decidable p] {e : ε} {x : Except ε α} {a : α} :
    (if p then .error e else x) = .ok a ↔ ¬p ∧ x = .ok a := by
  by_cases h : p <;> simp [h]

/-- A check that fails, or a failure behind it. -/
lemma guard_eq_error {p : Prop} [Decidable p] {e e' : ε} {x : Except ε α} :
    (if p then .error e else x) = .error e' ↔ (p ∧ e = e') ∨ (¬p ∧ x = .error e') := by
  by_cases h : p <;> simp [h]

/-- A check with nothing after it. -/
lemma check_eq_ok {p : Prop} [Decidable p] {e : ε} {u : Unit} :
    (if p then .error e else .ok () : Except ε Unit) = .ok u ↔ ¬p := by
  by_cases h : p <;> simp [h]

/-- A pass over a list that succeeds succeeds at every element. -/
lemma mapM_eq_ok {γ : Type v} {f : γ → Except ε β} {xs : List γ} {ys : List β} :
    xs.mapM f = .ok ys ↔ List.Forall₂ (fun x y => f x = .ok y) xs ys := by
  induction xs generalizing ys with
  | nil => simp [pure, Except.pure, eq_comm]
  | cons x xs ih =>
    simp only [List.mapM_cons, bind_eq_ok, pure_eq_ok, ih, List.forall₂_cons_left_iff]
    constructor
    · rintro ⟨y, hy, ys, hys, rfl⟩
      exact ⟨y, ys, hy, hys, rfl⟩
    · rintro ⟨y, ys, hy, hys, rfl⟩
      exact ⟨y, hy, ys, hys, rfl⟩

/-- A pass over a list succeeds when it does at every element, and returns what it does there. -/
lemma mapM_total {γ : Type v} {f : γ → Except ε β} {xs : List γ}
    (total : ∀ x ∈ xs, ∃ y, f x = .ok y) :
    ∃ ys, xs.mapM f = .ok ys ∧ ∀ x ∈ xs, ∀ y, f x = .ok y → y ∈ ys := by
  induction xs with
  | nil => exact ⟨[], rfl, by simp⟩
  | cons x xs ih =>
    rw [List.forall_mem_cons] at total
    obtain ⟨y, hy⟩ := total.1
    obtain ⟨ys, hys, mem⟩ := ih total.2
    refine ⟨y :: ys, mapM_eq_ok.mpr (.cons hy (mapM_eq_ok.mp hys)), ?_⟩
    rw [List.forall_mem_cons]
    refine ⟨fun z hz => ?_, fun x' hx z hz => List.mem_cons_of_mem _ (mem x' hx z hz)⟩
    cases hy.symm.trans hz
    exact List.mem_cons_self

/-- A pass over a list succeeds exactly when it does at every element. -/
lemma mapM_ok_iff {γ : Type v} {f : γ → Except ε β} {xs : List γ} :
    (∃ ys, xs.mapM f = .ok ys) ↔ ∀ x ∈ xs, ∃ y, f x = .ok y := by
  constructor
  · rintro ⟨ys, ok⟩
    rw [mapM_eq_ok] at ok
    induction ok with
    | nil => exact fun x mem => absurd mem List.not_mem_nil
    | cons h _ ih => exact List.forall_mem_cons.mpr ⟨⟨_, h⟩, ih⟩
  · intro total
    obtain ⟨ys, ok, _⟩ := mapM_total total
    exact ⟨ys, ok⟩

/-- What does not succeed fails. -/
lemma error_iff {x : Except ε α} : (∃ e, x = .error e) ↔ ¬ ∃ a, x = .ok a := by
  cases x <;> simp

section Fails

variable {P : ε → Prop}

/-- A computation all of whose failures have a property. -/
def Fails (P : ε → Prop) (x : Except ε α) : Prop := ∀ e, x = .error e → P e

lemma Fails.ok (a : α) : Fails P (.ok a : Except ε α) := nofun

lemma Fails.error {e : ε} (fails : P e) : Fails P (.error e : Except ε α) := by
  rintro _ ⟨⟩
  exact fails

/-- A chain fails as one of its steps does. -/
lemma Fails.bind {x : Except ε α} {f : α → Except ε β} (first : Fails P x)
    (next : ∀ a, Fails P (f a)) : Fails P (x >>= f) := by
  intro e failed
  rcases bind_eq_error.mp failed with failed | ⟨a, _, failed⟩
  · exact first e failed
  · exact next a e failed

lemma Fails.map {x : Except ε α} (fails : Fails P x) (f : α → β) : Fails P (x.map f) := by
  cases x with
  | error e => exact .error (fails e rfl)
  | ok a => exact .ok (f a)

/-- A pass over a list fails as one of its elements does. -/
lemma Fails.mapM {γ : Type v} {f : γ → Except ε β} (xs : List γ) (each : ∀ x, Fails P (f x)) :
    Fails P (xs.mapM f) := by
  induction xs with
  | nil => exact .ok []
  | cons x xs ih =>
    rw [List.mapM_cons]
    exact (each x).bind fun y => ih.bind fun ys => .ok (y :: ys)

end Fails

end Fallible

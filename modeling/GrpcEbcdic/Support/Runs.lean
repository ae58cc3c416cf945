import Mathlib.Computability.StateTransition

/-!
# Runs of a machine

Rules for machines that step from state to state until they stop: an invariant of the steps holds along
a run, a counting loop is run by induction on its bound, and a run that stops does so in one state.
-/

namespace StateTransition

variable {σ : Type*} {step : σ → Option σ}

/-- What every step preserves every run preserves. -/
lemma Reaches.invariant {P : σ → Prop} {a b : σ} (reach : Reaches step a b) (start : P a)
    (keep : ∀ {s t}, P s → step s = some t → P t) : P b := by
  induction reach with
  | refl => exact start
  | tail _ next ih => exact keep ih next

/-- One step. -/
lemma Reaches.one {a b : σ} (next : step a = some b) : Reaches step a b := .single next

/-- A loop that counts up to `n` reaches its end. -/
lemma Reaches.loop {f : Nat → σ} {n : Nat} (next : ∀ k < n, step (f k) = some (f (k + 1))) :
    Reaches step (f 0) (f n) := by
  induction n with
  | zero => exact .refl
  | succ n ih =>
    exact (ih fun k lt => next k (lt.trans n.lt_succ_self)).tail (next n n.lt_succ_self)

/-- A state without a step is the end of every run through it. -/
lemma Reaches.stopped {a b : σ} (reach : Reaches step a b) (stop : step a = none) : b = a := by
  rcases Relation.ReflTransGen.cases_head reach with rfl | ⟨c, next, _⟩
  · rfl
  · rw [Option.mem_def, stop] at next
    cases next

/-- A run stops in one state at most. -/
lemma Reaches.end_unique {a b c : σ} (reach : Reaches step a b) (reach' : Reaches step a c)
    (stop : step b = none) (stop' : step c = none) : b = c := by
  rcases reaches_total reach reach' with on | on
  · exact (on.stopped stop).symm
  · exact on.stopped stop'

end StateTransition

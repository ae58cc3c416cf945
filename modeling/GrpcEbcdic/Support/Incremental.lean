import Mathlib.Tactic.Ring
import Mathlib.Data.List.Basic

/-!
# Incremental readers

A reader turns a growing sequence of symbols into results. Between results it holds a state, and what
it does next is a function of that state and of the symbols it has not consumed yet: wait for more,
stop for good, fail, or emit one result and consume some symbols.

Three laws make such a reader independent of how its input arrives. A decision taken on some symbols
is the decision on every extension of them (`stable`); an emission is taken as soon as the symbols it
consumes are there (`prompt`); and an emission consumes at least one symbol, all of them visible. Under
them a run over `xs ++ ys` is the run over `xs` followed by a run over what that left together with
`ys` (`run_append`), and what the second run emits needed symbols of `ys` (`resume_late`).
-/

namespace Incremental

variable {α σ ρ ε : Type*}

/-- What a reader decides on the symbols it can see. -/
inductive Step (σ ρ ε : Type*) where
  | wait
  | stop
  | fail (e : ε)
  | emit (r : ρ) (n : Nat) (s : σ)

/-- A reader of symbols `α` with states `σ`, results `ρ` and failures `ε`. -/
structure Reader (α σ ρ ε : Type*) where
  step : σ → List α → Step σ ρ ε
  emit_pos : ∀ {s xs r n s'}, step s xs = .emit r n s' → 0 < n
  emit_le : ∀ {s xs r n s'}, step s xs = .emit r n s' → n ≤ xs.length
  stable : ∀ {s xs} ys, step s xs ≠ .wait → step s (xs ++ ys) = step s xs
  prompt : ∀ {s xs ys r n s'},
    step s (xs ++ ys) = .emit r n s' → n ≤ xs.length → step s xs = .emit r n s'

/-- How a run ends: waiting in a state with the symbols it did not consume, stopped, or failed. -/
inductive Halt (α σ ε : Type*) where
  | waiting (s : σ) (rest : List α)
  | stopped (s : σ)
  | failed (e : ε)

namespace Reader

variable (R : Reader α σ ρ ε)

/-- Emit until the reader waits, stops or fails. Each result comes with the symbols it consumed. -/
def run (s : σ) (xs : List α) : List (ρ × Nat) × Halt α σ ε :=
  match _h : R.step s xs with
  | .wait => ([], .waiting s xs)
  | .stop => ([], .stopped s)
  | .fail e => ([], .failed e)
  | .emit r n s' => ((r, n) :: (run s' (xs.drop n)).1, (run s' (xs.drop n)).2)
termination_by xs.length
decreasing_by
  all_goals
    have pos := R.emit_pos _h
    have le := R.emit_le _h
    simp only [List.length_drop]
    omega

lemma run_wait {s : σ} {xs : List α} (st : R.step s xs = .wait) :
    R.run s xs = ([], .waiting s xs) := by
  rw [run]
  split <;> simp_all

lemma run_stop {s : σ} {xs : List α} (st : R.step s xs = .stop) :
    R.run s xs = ([], .stopped s) := by
  rw [run]
  split <;> simp_all

lemma run_fail {s : σ} {xs : List α} {e : ε} (st : R.step s xs = .fail e) :
    R.run s xs = ([], .failed e) := by
  rw [run]
  split <;> simp_all

lemma run_emit {s s' : σ} {xs : List α} {r : ρ} {n : Nat} (st : R.step s xs = .emit r n s') :
    R.run s xs = ((r, n) :: (R.run s' (xs.drop n)).1, (R.run s' (xs.drop n)).2) := by
  rw [run]
  split <;> simp_all

/-- Induction along a run: one case for each way a step decides. -/
lemma run_induction {motive : σ → List α → Prop}
    (wait : ∀ s xs, R.step s xs = .wait → motive s xs)
    (stop : ∀ s xs, R.step s xs = .stop → motive s xs)
    (fail : ∀ s xs e, R.step s xs = .fail e → motive s xs)
    (emit : ∀ s xs r n s', R.step s xs = .emit r n s' → motive s' (xs.drop n) → motive s xs)
    (s : σ) (xs : List α) : motive s xs := by
  induction len : xs.length using Nat.strongRecOn generalizing s xs with
  | _ k ih =>
    cases st : R.step s xs with
    | wait => exact wait s xs st
    | stop => exact stop s xs st
    | fail e => exact fail s xs e st
    | emit r n s' =>
      have pos := R.emit_pos st
      have le := R.emit_le st
      refine emit s xs r n s' st (ih (xs.drop n).length ?_ _ _ rfl)
      rw [List.length_drop]
      omega

/-- Emissions from a state on some symbols, up to a later state on what they left. -/
inductive Trace (R : Reader α σ ρ ε) : σ → List α → List (ρ × Nat) → σ → List α → Prop where
  | nil {s xs} :
    Trace R s xs [] s xs
  | cons {s xs r n s' rs s'' rest} :
    R.step s xs = .emit r n s' →
    Trace R s' (xs.drop n) rs s'' rest →
    Trace R s xs ((r, n) :: rs) s'' rest

variable {R}

/-- A trace leaves exactly the symbols its results did not consume. -/
lemma Trace.rest_eq {s s' : σ} {xs rest : List α} {rs : List (ρ × Nat)}
    (tr : R.Trace s xs rs s' rest) : rest = xs.drop (rs.map Prod.snd).sum := by
  induction tr with
  | nil => simp
  | cons st tr ih => rw [ih, List.drop_drop]; simp

/-- The results of a trace consume no more than there is. -/
lemma Trace.consumed_le {s s' : σ} {xs rest : List α} {rs : List (ρ × Nat)}
    (tr : R.Trace s xs rs s' rest) : (rs.map Prod.snd).sum ≤ xs.length := by
  induction tr with
  | nil => simp
  | cons st tr ih =>
    have le := R.emit_le st
    rw [List.length_drop] at ih
    simp only [List.map_cons, List.sum_cons]
    omega

variable (R)

/-- What a run emits is a trace up to where it halts. -/
lemma run_trace (s : σ) (xs : List α) :
    ∃ s' rest, R.Trace s xs (R.run s xs).1 s' rest ∧ R.run s' rest = ([], (R.run s xs).2) := by
  induction s, xs using R.run_induction with
  | wait s xs st => exact ⟨s, xs, by rw [R.run_wait st]; exact .nil, by rw [R.run_wait st]⟩
  | stop s xs st => exact ⟨s, xs, by rw [R.run_stop st]; exact .nil, by rw [R.run_stop st]⟩
  | fail s xs e st => exact ⟨s, xs, by rw [R.run_fail st]; exact .nil, by rw [R.run_fail st]⟩
  | emit s xs r n s₁ st ih =>
    obtain ⟨s', rest, tr, halt⟩ := ih
    rw [R.run_emit st]
    exact ⟨s', rest, .cons st tr, halt⟩

/-- A run that emits nothing more halts as its step says. -/
lemma run_halt {s : σ} {xs : List α} {h : Halt α σ ε} (e : R.run s xs = ([], h)) :
    (R.step s xs = .wait ∧ h = .waiting s xs) ∨ (R.step s xs = .stop ∧ h = .stopped s) ∨
      ∃ e, R.step s xs = .fail e ∧ h = .failed e := by
  cases st : R.step s xs with
  | wait => rw [R.run_wait st] at e; cases e; exact .inl ⟨rfl, rfl⟩
  | stop => rw [R.run_stop st] at e; cases e; exact .inr (.inl ⟨rfl, rfl⟩)
  | fail f => rw [R.run_fail st] at e; cases e; exact .inr (.inr ⟨f, rfl, rfl⟩)
  | emit r n s' => rw [R.run_emit st] at e; cases e

/-- A run that waits is a trace up to a state that waits. -/
lemma run_waiting {s s' : σ} {xs rest : List α} (e : (R.run s xs).2 = .waiting s' rest) :
    R.Trace s xs (R.run s xs).1 s' rest ∧ R.step s' rest = .wait := by
  obtain ⟨s₁, rest₁, tr, halt⟩ := R.run_trace s xs
  rw [e] at halt
  obtain ⟨st, h⟩ | ⟨_, h⟩ | ⟨_, _, h⟩ := R.run_halt halt <;> cases h
  exact ⟨tr, st⟩

/-- A run that stops is a trace up to a state that stops. -/
lemma run_stopped {s s' : σ} {xs : List α} (e : (R.run s xs).2 = .stopped s') :
    ∃ rest, R.Trace s xs (R.run s xs).1 s' rest ∧ R.step s' rest = .stop := by
  obtain ⟨s₁, rest₁, tr, halt⟩ := R.run_trace s xs
  rw [e] at halt
  obtain ⟨_, h⟩ | ⟨st, h⟩ | ⟨_, _, h⟩ := R.run_halt halt <;> cases h
  exact ⟨rest₁, tr, st⟩

/-- The run goes on from where it waited. -/
def resume (h : Halt α σ ε) (ys : List α) : List (ρ × Nat) × Halt α σ ε :=
  match h with
  | .waiting s rest => R.run s (rest ++ ys)
  | h => ([], h)

@[simp] lemma resume_waiting (s : σ) (rest ys : List α) :
    R.resume (.waiting s rest) ys = R.run s (rest ++ ys) := rfl

@[simp] lemma resume_stopped (s : σ) (ys : List α) :
    R.resume (.stopped s) ys = ([], .stopped s) := rfl

@[simp] lemma resume_failed (e : ε) (ys : List α) :
    R.resume (.failed e) ys = ([], .failed e) := rfl

/-- A run over an input is the run over a prefix of it, resumed on the rest. -/
theorem run_append (s : σ) (xs ys : List α) :
    R.run s (xs ++ ys) =
      ((R.run s xs).1 ++ (R.resume (R.run s xs).2 ys).1, (R.resume (R.run s xs).2 ys).2) := by
  induction s, xs using R.run_induction with
  | wait s xs st => simp [R.run_wait st]
  | stop s xs st =>
    have st' := (R.stable ys (by simp [st])).trans st
    simp [R.run_stop st, R.run_stop st']
  | fail s xs e st =>
    have st' := (R.stable ys (by simp [st])).trans st
    simp [R.run_fail st, R.run_fail st']
  | emit s xs r n s' st ih =>
    have st' := (R.stable ys (by simp [st])).trans st
    rw [R.run_emit st, R.run_emit st', List.drop_append_of_le_length (R.emit_le st), ih]
    simp

/-- What a resumed run emits first ends beyond the symbols the run had waited on. -/
lemma resume_first {s : σ} {xs ys : List α} {r : ρ} {n : Nat} {rs : List (ρ × Nat)}
    (e : (R.resume (R.run s xs).2 ys).1 = (r, n) :: rs) :
    xs.length < ((R.run s xs).1.map Prod.snd).sum + n := by
  cases hh : (R.run s xs).2 with
  | stopped s' => rw [hh] at e; cases e
  | failed e' => rw [hh] at e; cases e
  | waiting s' rest =>
    obtain ⟨tr, wt⟩ := R.run_waiting hh
    rw [hh, resume_waiting] at e
    have late : rest.length < n := by
      by_contra le
      cases st : R.step s' (rest ++ ys) with
      | wait => rw [R.run_wait st] at e; cases e
      | stop => rw [R.run_stop st] at e; cases e
      | fail e' => rw [R.run_fail st] at e; cases e
      | emit r' n' s'' =>
        rw [R.run_emit st] at e
        cases e
        rw [R.prompt st (by omega)] at wt
        cases wt
    have le := tr.consumed_le
    rw [tr.rest_eq, List.length_drop] at late
    omega

/-- Everything a resumed run emits ends beyond the symbols the run had waited on. -/
lemma resume_late {s : σ} {xs ys : List α} {r : ρ} {n : Nat} {as bs : List (ρ × Nat)}
    (e : (R.resume (R.run s xs).2 ys).1 = as ++ (r, n) :: bs) :
    xs.length < ((R.run s xs).1.map Prod.snd).sum + (as.map Prod.snd).sum + n := by
  cases as with
  | nil => simpa using R.resume_first e
  | cons rn as =>
    have first := R.resume_first e
    simp only [List.map_cons, List.sum_cons]
    omega

end Reader

section Alike

variable {τ : Type*} {like : σ → τ → Prop}

/-- Two decisions of readers that are the same up to the states they go to. -/
inductive Step.Alike (like : σ → τ → Prop) : Step σ ρ ε → Step τ ρ ε → Prop where
  | wait :
    Alike like .wait .wait
  | stop :
    Alike like .stop .stop
  | fail {e} :
    Alike like (.fail e) (.fail e)
  | emit {r n s t} :
    like s t →
    Alike like (.emit r n s) (.emit r n t)

/-- Two ends of runs that are the same up to the states they end in. -/
inductive Halt.Alike (like : σ → τ → Prop) : Halt α σ ε → Halt α τ ε → Prop where
  | waiting {s t rest} :
    like s t →
    Alike like (.waiting s rest) (.waiting t rest)
  | stopped {s t} :
    like s t →
    Alike like (.stopped s) (.stopped t)
  | failed {e} :
    Alike like (.failed e) (.failed e)

/-- Readers that decide alike in like states run alike: the same results, and like ends. -/
theorem Reader.run_alike {R : Reader α σ ρ ε} {R' : Reader α τ ρ ε}
    (decides : ∀ s t xs, like s t → Step.Alike like (R.step s xs) (R'.step t xs)) {s : σ} {t : τ}
    (st : like s t) (xs : List α) :
    (R.run s xs).1 = (R'.run t xs).1 ∧ Halt.Alike like (R.run s xs).2 (R'.run t xs).2 := by
  induction s, xs using R.run_induction generalizing t with
  | wait s xs e =>
    have alike := decides s t xs st
    rw [e] at alike
    generalize e' : R'.step t xs = step at alike
    cases alike
    rw [R.run_wait e, R'.run_wait e']
    exact ⟨rfl, .waiting st⟩
  | stop s xs e =>
    have alike := decides s t xs st
    rw [e] at alike
    generalize e' : R'.step t xs = step at alike
    cases alike
    rw [R.run_stop e, R'.run_stop e']
    exact ⟨rfl, .stopped st⟩
  | fail s xs err e =>
    have alike := decides s t xs st
    rw [e] at alike
    generalize e' : R'.step t xs = step at alike
    cases alike
    rw [R.run_fail e, R'.run_fail e']
    exact ⟨rfl, .failed⟩
  | emit s xs r n s' e ih =>
    have alike := decides s t xs st
    rw [e] at alike
    generalize e' : R'.step t xs = step at alike
    cases alike with
    | emit st' =>
      obtain ⟨same, halt⟩ := ih st'
      rw [R.run_emit e, R'.run_emit e', same]
      exact ⟨rfl, halt⟩

end Alike

end Incremental

import Mathlib.Algebra.BigOperators.Group.List.Defs
import Mathlib.Algebra.Group.Basic
import Mathlib.Algebra.GroupWithZero.Nat
import Mathlib.Data.List.Induction
import Mathlib.Tactic.Abel

/-!
# Interleaved components

Components over a state they share. Components enter one after the other, and each act changes one of
them and the shared state; a run is any sequence of entries and acts. What every act keeps of its own
component holds of all of them in every run (`after_component`), a quantity that every event only moves
between the shared state and its component is conserved (`after_conserved`), and a run of components that
have more to them is a run of the components (`Refines.after`).
-/

namespace Interleaved

variable {σ κ α M : Type*}

/-- What the components of a system do: how one enters, and how one acts. -/
structure System (σ κ α : Type*) where
  enter : σ → κ × σ
  act : α → κ → σ → κ × σ

/-- What can happen next. -/
inductive Event (α : Type*) where
  | enter
  | act (i : Nat) (a : α)

/-- The shared state, and the components in the order they entered. -/
structure State (σ κ : Type*) where
  shared : σ
  components : List κ

namespace System

variable (S : System σ κ α)

/-- One thing happens. An act of a component that has not entered yet is none. -/
def step (s : State σ κ) : Event α → State σ κ
  | .enter => ⟨(S.enter s.shared).2, s.components ++ [(S.enter s.shared).1]⟩
  | .act i a =>
    match s.components[i]? with
    | none => s
    | some k => ⟨(S.act a k s.shared).2, s.components.set i (S.act a k s.shared).1⟩

/-- The run of some events, one after the other. -/
def after (shared : σ) (events : List (Event α)) : State σ κ := events.foldl S.step ⟨shared, []⟩

lemma after_concat (shared : σ) (events : List (Event α)) (event : Event α) :
    S.after shared (events ++ [event]) = S.step (S.after shared events) event :=
  List.foldl_append

lemma step_act {s : State σ κ} {i : Nat} {k : κ} (at_i : s.components[i]? = some k) (a : α) :
    S.step s (.act i a)
      = ⟨(S.act a k s.shared).2, s.components.set i (S.act a k s.shared).1⟩ := by
  rw [step, at_i]

/-- The acts of one component, one after the other. -/
def alone (k : κ) (s : σ) (acts : List α) : κ × σ := acts.foldl (fun ks a => S.act a ks.1 ks.2) (k, s)

/-- While only one component acts, the others stay as they are. -/
lemma after_alone {shared : σ} {events : List (Event α)} {i : Nat} {k : κ}
    (at_i : (S.after shared events).components[i]? = some k) (acts : List α) :
    S.after shared (events ++ acts.map (.act i))
      = ⟨(S.alone k (S.after shared events).shared acts).2,
          (S.after shared events).components.set i
            (S.alone k (S.after shared events).shared acts).1⟩ := by
  obtain ⟨within, rfl⟩ := List.getElem?_eq_some_iff.mp at_i
  induction acts using List.reverseRec with
  | nil =>
    rw [List.map_nil, List.append_nil, alone, List.foldl_nil, List.set_getElem_self]
  | append_singleton acts a ih =>
    have again (k' : κ) : ((S.after shared events).components.set i k')[i]? = some k' :=
      List.getElem?_set_self within
    rw [List.map_append, ← List.append_assoc, List.map_singleton, after_concat, ih,
      S.step_act (again _), List.set_set]
    simp only [alone, List.foldl_append, List.foldl_cons, List.foldl_nil]

variable {S}

/-- What a component enters with and every act keeps of its own component holds of all of them, where
the shared state is as it is in every run. -/
theorem after_component {P : κ → Prop} {Q : σ → Prop} {shared : σ}
    (always : ∀ events, Q (S.after shared events).shared) (enter : ∀ s, Q s → P (S.enter s).1)
    (act : ∀ a k s, Q s → P k → P (S.act a k s).1) (events : List (Event α)) :
    ∀ k ∈ (S.after shared events).components, P k := by
  induction events using List.reverseRec with
  | nil => exact fun k mem => absurd mem List.not_mem_nil
  | append_singleton events event all =>
    rw [after_concat]
    have reached := always events
    generalize S.after shared events = s at all reached
    cases event with
    | enter =>
      exact List.forall_mem_append.mpr
        ⟨all, List.forall_mem_singleton.mpr (enter s.shared reached)⟩
    | act i a =>
      rcases at_i : s.components[i]? with _ | k
      · rw [step, at_i]
        exact all
      · rw [S.step_act at_i]
        intro k' mem
        rcases List.mem_or_eq_of_mem_set mem with mem | rfl
        · exact all k' mem
        · exact act a k s.shared reached (all k (List.mem_of_getElem? at_i))

end System

/-- An entry of a list and the others add up to the whole, before and after it is changed. -/
lemma sum_split [AddCommMonoid M] (f : κ → M) {ks : List κ} {i : Nat} {k : κ}
    (at_i : ks[i]? = some k) :
    ∃ others, (ks.map f).sum = others + f k ∧ ∀ k', ((ks.set i k').map f).sum = others + f k' := by
  induction ks generalizing i with
  | nil => cases at_i
  | cons k₀ ks ih =>
    cases i with
    | zero =>
      cases at_i
      exact ⟨(ks.map f).sum, add_comm .., fun k' => add_comm ..⟩
    | succ i =>
      obtain ⟨others, before, after⟩ := ih at_i
      refine ⟨f k₀ + others, ?_, fun k' => ?_⟩
      · rw [List.map_cons, List.sum_cons, before, add_assoc]
      · rw [List.set_cons_succ, List.map_cons, List.sum_cons, after, add_assoc]

namespace System

variable {S : System σ κ α}

/-- A quantity that every event only moves between the shared state and its component is conserved. -/
theorem after_conserved [AddCommMonoid M] (value : σ → M) (account : κ → M)
    (enter : ∀ s, value (S.enter s).2 + account (S.enter s).1 = value s)
    (act : ∀ a k s, value (S.act a k s).2 + account (S.act a k s).1 = value s + account k)
    (shared : σ) (events : List (Event α)) :
    value (S.after shared events).shared + ((S.after shared events).components.map account).sum
      = value shared := by
  induction events using List.reverseRec with
  | nil => exact add_zero _
  | append_singleton events event ih =>
    rw [after_concat, ← ih]
    generalize S.after shared events = s
    cases event with
    | enter =>
      show value (S.enter s.shared).2 + ((s.components ++ [(S.enter s.shared).1]).map account).sum = _
      rw [List.map_append, List.sum_append, List.map_singleton, List.sum_singleton, add_left_comm,
        enter, add_comm]
    | act i a =>
      rcases at_i : s.components[i]? with _ | k
      · rw [step, at_i]
      · rw [S.step_act at_i]
        obtain ⟨others, before, after⟩ := sum_split account at_i
        have moved := act a k s.shared
        show value (S.act a k s.shared).2 + ((s.components.set i _).map account).sum = _
        rw [before, after, add_left_comm, moved, add_left_comm]

/-- A quantity of the shared state that every event raises by what it raises its component's account is
the sum of the accounts. -/
theorem after_credited [AddCommGroup M] (value : σ → M) (account : κ → M)
    (enter : ∀ s, value (S.enter s).2 = value s + account (S.enter s).1)
    (act : ∀ a k s, value (S.act a k s).2 + account k = value s + account (S.act a k s).1)
    (shared : σ) (events : List (Event α)) :
    value (S.after shared events).shared
      = value shared + ((S.after shared events).components.map account).sum := by
  have moved (a : α) (k : κ) (s : σ) :
      -value (S.act a k s).2 + account (S.act a k s).1 = -value s + account k := by
    have raised : account (S.act a k s).1 = -value s + (value (S.act a k s).2 + account k) := by
      rw [act, neg_add_cancel_left]
    rw [raised]
    abel
  have conserved := S.after_conserved (fun s => -value s) account
    (fun s => by rw [enter, neg_add_rev, neg_add_cancel_comm]) moved shared events
  rw [neg_add_eq_iff_eq_add] at conserved
  rw [conserved]
  abel

end System

section Refines

variable {κ' α' : Type*}

/-- A system whose components are those of another with more to them: each of its acts is an act of the
part, or leaves the part and what is shared as they are. -/
structure Refines (S' : System σ κ' α') (S : System σ κ α) (part : κ' → κ) : Prop where
  enter : ∀ s, (part (S'.enter s).1, (S'.enter s).2) = S.enter s
  act : ∀ a' k' s, (part (S'.act a' k' s).1, (S'.act a' k' s).2) = (part k', s) ∨
    ∃ a, (part (S'.act a' k' s).1, (S'.act a' k' s).2) = S.act a (part k') s

variable {S' : System σ κ' α'} {S : System σ κ α} {part : κ' → κ}

/-- One event of the finer system is none or one of the other. -/
lemma Refines.step (refines : Refines S' S part) (s : State σ κ') (event : Event α') :
    (⟨(S'.step s event).shared, (S'.step s event).components.map part⟩ : State σ κ)
        = ⟨s.shared, s.components.map part⟩ ∨
      ∃ event', (⟨(S'.step s event).shared, (S'.step s event).components.map part⟩ : State σ κ)
        = S.step ⟨s.shared, s.components.map part⟩ event' := by
  cases event with
  | enter =>
    obtain ⟨entered, shared⟩ := Prod.mk.inj (refines.enter s.shared)
    refine .inr ⟨.enter, ?_⟩
    show (⟨(S'.enter s.shared).2, (s.components ++ [(S'.enter s.shared).1]).map part⟩ : State σ κ) = _
    rw [List.map_append, List.map_singleton, entered, shared]
    rfl
  | act i a' =>
    rcases at_i : s.components[i]? with _ | k'
    · left
      rw [System.step, at_i]
    · have at_part : (s.components.map part)[i]? = some (part k') := by
        rw [List.getElem?_map, at_i]
        rfl
      rw [S'.step_act at_i]
      rcases refines.act a' k' s.shared with same | ⟨a, acted⟩
      · obtain ⟨same, shared⟩ := Prod.mk.inj same
        left
        rw [List.map_set, same, shared]
        obtain ⟨within, eq⟩ := List.getElem?_eq_some_iff.mp at_part
        rw [← eq, List.set_getElem_self]
      · obtain ⟨moved, shared⟩ := Prod.mk.inj acted
        refine .inr ⟨.act i a, ?_⟩
        rw [S.step_act at_part, List.map_set, moved, shared]

/-- Every run of the finer system is one of the other. -/
theorem Refines.after (refines : Refines S' S part) (shared : σ) (events : List (Event α')) :
    ∃ events', S.after shared events'
      = ⟨(S'.after shared events).shared, (S'.after shared events).components.map part⟩ := by
  induction events using List.reverseRec with
  | nil => exact ⟨[], rfl⟩
  | append_singleton events event ih =>
    obtain ⟨events', ran⟩ := ih
    rw [System.after_concat]
    rcases refines.step (S'.after shared events) event with same | ⟨event', stepped⟩
    · exact ⟨events', ran.trans same.symm⟩
    · refine ⟨events' ++ [event'], ?_⟩
      rw [System.after_concat, ran, stepped]

end Refines

/-- How many entries of a list have a property, as a sum. -/
lemma sum_toNat (p : κ → Bool) (ks : List κ) : (ks.map fun k => (p k).toNat).sum = ks.countP p := by
  induction ks with
  | nil => rfl
  | cons k ks ih =>
    rw [List.map_cons, List.sum_cons, ih, List.countP_cons, Nat.add_comm]
    cases p k <;> rfl

end Interleaved

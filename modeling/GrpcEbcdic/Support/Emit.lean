import Mathlib.Data.List.Basic

/-!
# Computations that emit

A computation over a state that emits values one after the other, each of which may fail, and ends with
a result. What such a computation does is a script: the values it has to emit and the result it ends
with when all of them went out (`play`). Two scripts one after the other are one script, and whatever
the emissions do, those that went out are a prefix of the script.
-/

namespace Emit

variable {σ ρ ε α β γ : Type*}

/-- Go on after a computation that succeeded. -/
def andThen (x : Except ε α × σ) (f : α → σ → Except ε β × σ) : Except ε β × σ :=
  match x with
  | (.error e, s) => (.error e, s)
  | (.ok a, s) => f a s

@[simp] lemma andThen_error (e : ε) (s : σ) (f : α → σ → Except ε β × σ) :
    andThen (.error e, s) f = (.error e, s) := rfl

@[simp] lemma andThen_ok (a : α) (s : σ) (f : α → σ → Except ε β × σ) :
    andThen (.ok a, s) f = f a s := rfl

lemma andThen_assoc (x : Except ε α × σ) (f : α → σ → Except ε β × σ)
    (g : β → σ → Except ε γ × σ) :
    andThen (andThen x f) g = andThen x fun a s => andThen (f a s) g := by
  obtain ⟨_ | _, _⟩ := x <;> rfl

lemma andThen_eq_ok {x : Except ε α × σ} {f : α → σ → Except ε β × σ} {b : β} {s' : σ} :
    andThen x f = (.ok b, s') ↔ ∃ a s, x = (.ok a, s) ∧ f a s = (.ok b, s') := by
  obtain ⟨_ | a, s⟩ := x <;> simp [andThen]

section Play

variable (emit : σ → ρ → Except ε Unit × σ)

/-- Emit some values in order, then end with a result. -/
def play (s : σ) : List ρ → Except ε α → Except ε α × σ
  | [], res => (res, s)
  | r :: rs, res => andThen (emit s r) fun _ s => play s rs res

@[simp] lemma play_nil (s : σ) (res : Except ε α) : play emit s [] res = (res, s) := rfl

lemma play_cons (s : σ) (r : ρ) (rs : List ρ) (res : Except ε α) :
    play emit s (r :: rs) res = andThen (emit s r) fun _ s => play emit s rs res := rfl

/-- A script that ends well goes on as what comes after it. -/
lemma play_ok_andThen (s : σ) (rs : List ρ) (a : α) (f : α → σ → Except ε β × σ) :
    andThen (play emit s rs (.ok a)) f
      = andThen (play emit s rs (.ok ())) fun _ s => f a s := by
  induction rs generalizing s with
  | nil => rfl
  | cons r rs ih =>
    rw [play_cons, play_cons, andThen_assoc, andThen_assoc]
    congr 1
    funext _ s
    exact ih s

/-- A script that ends in an error ends there. -/
lemma play_error_andThen (s : σ) (rs : List ρ) (e : ε) (f : α → σ → Except ε β × σ) :
    andThen (play emit s rs (.error e)) f = play emit s rs (.error e) := by
  induction rs generalizing s with
  | nil => rfl
  | cons r rs ih =>
    rw [play_cons, play_cons, andThen_assoc]
    congr 1
    funext _ s
    exact ih s

/-- A script of which only the result is left. -/
lemma play_ok_result (s : σ) (rs : List ρ) (res : Except ε α) :
    (andThen (play emit s rs (.ok ())) fun _ s => (res, s)) = play emit s rs res := by
  induction rs generalizing s with
  | nil => rfl
  | cons r rs ih =>
    rw [play_cons, play_cons, andThen_assoc]
    congr 1
    funext _ s
    exact ih s

/-- Two scripts one after the other. -/
lemma play_append (s : σ) (rs rs' : List ρ) (res : Except ε α) :
    play emit s (rs ++ rs') res
      = andThen (play emit s rs (.ok ())) fun _ s => play emit s rs' res := by
  induction rs generalizing s with
  | nil => rfl
  | cons r rs ih =>
    rw [List.cons_append, play_cons, play_cons, andThen_assoc]
    congr 1
    funext _ s
    exact ih s

variable {emit}

/-- What went out is a prefix of the script, and all of it when the computation ends well. -/
lemma play_log {κ : Type*} {log : σ → List κ} {item : ρ → κ}
    (ok : ∀ s r s', emit s r = (.ok (), s') → log s' = log s ++ [item r])
    (error : ∀ s r e s', emit s r = (.error e, s') → log s' = log s)
    (s : σ) (rs : List ρ) (res : Except ε α) :
    (∃ s', play emit s rs res = (res, s') ∧ log s' = log s ++ rs.map item) ∨
      ∃ e s' front back, play emit s rs res = (.error e, s') ∧ rs = front ++ back ∧ back ≠ [] ∧
        log s' = log s ++ front.map item := by
  induction rs generalizing s with
  | nil => exact .inl ⟨s, rfl, by simp⟩
  | cons r rs ih =>
    rw [play_cons]
    rcases out : emit s r with ⟨_ | _, s₁⟩
    · refine .inr ⟨_, s₁, [], r :: rs, rfl, rfl, by simp, ?_⟩
      rw [error s r _ s₁ out, List.map_nil, List.append_nil]
    · have log₁ := ok s r s₁ out
      rcases ih s₁ with ⟨s', eq, all⟩ | ⟨e, s', front, back, eq, rfl, ne, some⟩
      · refine .inl ⟨s', eq, ?_⟩
        rw [all, log₁, List.map_cons, List.append_assoc]
        rfl
      · refine .inr ⟨e, s', r :: front, back, eq, rfl, ne, ?_⟩
        rw [some, log₁, List.map_cons, List.append_assoc]
        rfl

/-- An emission that never fails plays every script to its end. -/
lemma play_total {ready : σ → Prop} {next : σ → ρ → σ}
    (total : ∀ s r, ready s → emit s r = (.ok (), next s r) ∧ ready (next s r)) {s : σ}
    (start : ready s) (rs : List ρ) (res : Except ε α) :
    play emit s rs res = (res, rs.foldl next s) := by
  induction rs generalizing s with
  | nil => rfl
  | cons r rs ih =>
    obtain ⟨eq, rest⟩ := total s r start
    rw [play_cons, eq, andThen_ok, ih rest]
    rfl

end Play

end Emit

import Mathlib.Algebra.BigOperators.Group.List.Basic
import Mathlib.Algebra.GroupWithZero.Nat
import Mathlib.Algebra.Order.Monoid.Canonical.Defs

/-!
# Counters and budgets

Machine counters that trap an overflow, and charges against several bounds at once. A bill is a list
of charges, each an amount for every bound; the totals of its first charges grow with their number, so
there is a first place where they leave the bounds, if they do at all (`exists_overdraw`).
-/

namespace Word

/-- The sum of two words of `w` bits, unless it overflows. -/
def add (w a b : Nat) : Option Nat := if a + b < 2 ^ w then some (a + b) else none

/-- The product of two words of `w` bits, unless it overflows. -/
def mul (w a b : Nat) : Option Nat := if a * b < 2 ^ w then some (a * b) else none

/-- The sum of the words that are read off a list, one after another. -/
def sum {α : Type*} (w : Nat) (f : α → Option Nat) (xs : List α) : Option Nat :=
  xs.foldlM (fun acc x => (f x).bind (add w acc)) 0

variable {w a b : Nat}

lemma add_of_lt (lt : a + b < 2 ^ w) : add w a b = some (a + b) := if_pos lt

lemma mul_of_lt (lt : a * b < 2 ^ w) : mul w a b = some (a * b) := if_pos lt

/-- A sum from `acc` on is that of the numbers when their sum is a word. -/
lemma foldlM_of_lt {α : Type*} {f : α → Option Nat} {g : α → Nat} {xs : List α} (acc : Nat)
    (read : ∀ x ∈ xs, f x = some (g x)) (lt : acc + (xs.map g).sum < 2 ^ w) :
    xs.foldlM (fun acc x => (f x).bind (add w acc)) acc = some (acc + (xs.map g).sum) := by
  induction xs generalizing acc with
  | nil => rfl
  | cons x xs ih =>
    rw [List.forall_mem_cons] at read
    rw [List.map_cons, List.sum_cons, ← Nat.add_assoc] at lt ⊢
    have head : add w acc (g x) = some (acc + g x) :=
      add_of_lt (lt_of_le_of_lt (Nat.le_add_right _ _) lt)
    rw [List.foldlM_cons, read.1, Option.bind_some, head]
    exact ih (acc + g x) read.2 lt

lemma sum_of_lt {α : Type*} {f : α → Option Nat} {g : α → Nat} {xs : List α}
    (read : ∀ x ∈ xs, f x = some (g x)) (lt : (xs.map g).sum < 2 ^ w) :
    sum w f xs = some (xs.map g).sum := by
  rw [sum, foldlM_of_lt 0 read (by rwa [Nat.zero_add]), Nat.zero_add]

end Word

namespace Budget

variable {ι M : Type*}

/-- What the first `n` charges of a bill come to, bound by bound. -/
def total [AddMonoid M] (charges : List (ι → M)) (n : Nat) (i : ι) : M :=
  ((charges.take n).map fun charge => charge i).sum

/-- Totals that are not over any bound. -/
def Within [LE M] (most totals : ι → M) : Prop := ∀ i, totals i ≤ most i

/-- The first bound some totals are over, in the order the bounds are checked. -/
def breach [LT M] [DecidableLT M] (order : List ι) (most totals : ι → M) : Option ι :=
  order.find? fun i => most i < totals i

section Totals

variable [AddMonoid M] {charges : List (ι → M)} {n : Nat}

@[simp]
lemma total_zero : total charges 0 = 0 := by
  funext i
  rfl

/-- One more charge adds to every total. -/
lemma total_succ {charge : ι → M} (at_ : charges[n]? = some charge) (i : ι) :
    total charges (n + 1) i = total charges n i + charge i := by
  rw [total, total, List.take_add_one, at_, Option.toList_some, List.map_append, List.sum_append]
  simp

/-- Behind the last charge the totals stay. -/
lemma total_all (le : charges.length ≤ n) : total charges n = total charges charges.length := by
  funext i
  rw [total, total, List.take_of_length_le le, List.take_length]

/-- The totals grow with the number of charges. -/
lemma total_mono [LinearOrder M] [CanonicallyOrderedAdd M] {m n : Nat} (le : m ≤ n) (i : ι) :
    total charges m i ≤ total charges n i := by
  have split : charges.take n = charges.take m ++ (charges.drop m).take (n - m) := by
    rw [← List.take_add, Nat.add_sub_cancel' le]
  rw [total, total, split, List.map_append, List.sum_append]
  exact le_self_add

end Totals

section Bounds

variable [LinearOrder M] {order : List ι} {most totals : ι → M} {i : ι}

/-- Totals within the bounds breach none of those that are checked, and the others do. -/
lemma breach_eq_none (all : ∀ i, i ∈ order) : breach order most totals = none ↔ Within most totals := by
  rw [breach, List.find?_eq_none]
  constructor
  · exact fun none i => not_lt.mp (by simpa using none i (all i))
  · exact fun within i _ => by simpa using within i

/-- A breached bound is one the totals are over. -/
lemma lt_of_breach (some : breach order most totals = some i) : most i < totals i := by
  simpa using List.find?_some some

/-- Totals that breach a bound are not within the bounds. -/
lemma not_within (some : breach order most totals = some i) : ¬Within most totals :=
  fun within => absurd (within i) (not_le.mpr (lt_of_breach some))

variable [AddMonoid M] [CanonicallyOrderedAdd M] {charges : List (ι → M)}

/-- What is within the bounds was so before. -/
lemma Within.mono {m n : Nat} (within : Within most (total charges n)) (le : m ≤ n) :
    Within most (total charges m) :=
  fun i => (total_mono le i).trans (within i)

/-- A bill that leaves the bounds does so at one charge, which is the first. -/
lemma exists_overdraw {n : Nat} (past : ¬Within most (total charges n)) :
    ∃ m < n, Within most (total charges m) ∧ ¬Within most (total charges (m + 1)) := by
  induction n with
  | zero =>
    rw [total_zero] at past
    exact absurd (fun i => zero_le) past
  | succ n ih =>
    by_cases within : Within most (total charges n)
    · exact ⟨n, n.lt_succ_self, within, past⟩
    · obtain ⟨m, lt, first⟩ := ih within
      exact ⟨m, lt.trans n.lt_succ_self, first⟩

end Bounds

end Budget

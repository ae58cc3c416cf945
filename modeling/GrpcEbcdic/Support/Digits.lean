import Mathlib.Data.Nat.Digits.Lemmas
import Mathlib.Data.Int.Basic
import Mathlib.Tactic.Ring

/-!
# Positional numerals

Numerals of a base, most significant digit first, as a decoder meets them: what a digit list spells,
and that folding over it from the left computes that. The other way round, the numeral of a number at a
fixed width. Both are Mathlib's digit lists, reversed.
-/

namespace Digits

/-- The number a digit list spells in base `b`. -/
def value (b : Nat) (ds : List Nat) : Nat := Nat.ofDigits b ds.reverse

/-- The numeral of `n` in base `b` at width `l`. -/
def numeral (b l n : Nat) : List Nat := (Nat.digitsAppend b l n).reverse

@[simp] lemma value_nil (b : Nat) : value b [] = 0 := rfl

@[simp] lemma value_cons (b d : Nat) (ds : List Nat) :
    value b (d :: ds) = d * b ^ ds.length + value b ds := by
  rw [value, Nat.ofDigits_reverse_cons, value]
  ring

@[simp] lemma value_append (b : Nat) (as bs : List Nat) :
    value b (as ++ bs) = value b as * b ^ bs.length + value b bs := by
  simp only [value, List.reverse_append, Nat.ofDigits_append, List.length_reverse]
  ring

/-- A digit list of length `l` spells a number below `b ^ l`. -/
lemma value_lt {b : Nat} (base : 1 < b) {ds : List Nat} (lt : ∀ d ∈ ds, d < b) :
    value b ds < b ^ ds.length := by
  have := Nat.ofDigits_lt_base_pow_length base (l := ds.reverse) (by simpa using lt)
  simpa [value] using this

/-- Shifting digits in from the right appends what they spell. -/
lemma foldl_eq (b : Nat) (a : Int) (ds : List Nat) :
    ds.foldl (fun (v : Int) (d : Nat) => v * b + d) a = a * b ^ ds.length + value b ds := by
  induction ds generalizing a with
  | nil => simp
  | cons d ds ih =>
    rw [List.foldl_cons, ih, value_cons, List.length_cons]
    push_cast
    ring

section Numeral

variable {b : Nat}

lemma numeral_length (base : 1 < b) {l n : Nat} (lt : n < b ^ l) : (numeral b l n).length = l := by
  rw [numeral, List.length_reverse, Nat.length_digitsAppend base l lt]

lemma numeral_lt (base : 1 < b) {l n d : Nat} (mem : d ∈ numeral b l n) : d < b := by
  rw [numeral, List.mem_reverse] at mem
  exact Nat.lt_of_mem_digitsAppend base l d mem

/-- The numeral of a number spells it. -/
lemma value_numeral (b l n : Nat) : value b (numeral b l n) = n := by
  rw [value, numeral, List.reverse_reverse, Nat.digitsAppend, Nat.ofDigits_append_replicate_zero,
    Nat.ofDigits_digits]

end Numeral

end Digits

import GrpcEbcdic.Decode.Decimal

/-!
# Python's decimals

What `render_decimal` promises to match: Python's `str(Decimal(n).scaleb(-scale))`, in the default
context. A decimal is a sign, a coefficient and an exponent; `scaleb` moves the exponent and rounds to
the context, and `str` writes plain digits or, when the number is small against its digits, an exponent.
The two texts are the same exactly where `str` writes plain digits.
-/

namespace GrpcEbcdic
open Rust

namespace Python

/-- A finite `decimal.Decimal`. -/
structure Decimal where
  negative : Bool
  coefficient : Nat
  exponent : Int
deriving DecidableEq

namespace Decimal

/-- The digits of the coefficient. -/
def digits (d : Decimal) : List Char := Nat.toDigits 10 d.coefficient

/-- `Decimal(n)`, which is exact. -/
def ofInt (n : Int) : Decimal := ⟨decide (n < 0), n.natAbs, 0⟩

/-- The digits of precision of the default context. -/
def precision : Nat := 28

/-- The least exponent of the default context. -/
def etiny : Int := -999999 - (precision - 1)

/-- Round half to even, to the precision and the least exponent of the context. -/
def fix (d : Decimal) : Decimal :=
  let least := max (d.exponent + d.digits.length - precision) etiny
  let excess := (least - d.exponent).toNat
  let quotient := d.coefficient / 10 ^ excess
  let remainder := d.coefficient % 10 ^ excess
  let up := 10 ^ excess < 2 * remainder ∨ 2 * remainder = 10 ^ excess ∧ quotient % 2 = 1
  let rounded := if up then quotient + 1 else quotient
  -- A carry out of the precision makes one more digit.
  if rounded = 10 ^ precision then ⟨d.negative, rounded / 10, d.exponent + excess + 1⟩
  else ⟨d.negative, rounded, d.exponent + excess⟩

/-- `d.scaleb(places)`. -/
def scaleb (d : Decimal) (places : Int) : Decimal := fix { d with exponent := d.exponent + places }

/-- `"%+d" % n`. -/
def signedDigits (n : Int) : List Char :=
  (if n < 0 then '-' else '+') :: Nat.toDigits 10 n.natAbs

/-- `str(d)`. -/
def str (d : Decimal) : String :=
  let leftDigits := d.exponent + d.digits.length
  let dotPlace := if d.exponent ≤ 0 ∧ -6 < leftDigits then leftDigits else 1
  let intPart :=
    if dotPlace ≤ 0 then ['0']
    else if d.digits.length ≤ dotPlace then
      d.digits ++ List.replicate (dotPlace - d.digits.length).toNat '0'
    else d.digits.take dotPlace.toNat
  let fracPart :=
    if dotPlace ≤ 0 then '.' :: (List.replicate (-dotPlace).toNat '0' ++ d.digits)
    else if d.digits.length ≤ dotPlace then []
    else '.' :: d.digits.drop dotPlace.toNat
  let exp := if leftDigits = dotPlace then [] else 'E' :: signedDigits (leftDigits - dotPlace)
  String.ofList ((if d.negative then ['-'] else []) ++ (intPart ++ fracPart ++ exp))

end Decimal

/-- `str(Decimal(n).scaleb(-scale))`. -/
def render (n : Int) (scale : Nat) : String := ((Decimal.ofInt n).scaleb (-scale)).str

end Python

section Render

open Python

/-- A number of the context's precision is scaled without rounding. -/
lemma scaleb_ofInt {n : Int} {scale : Nat} (small : n.natAbs < 10 ^ Decimal.precision)
    (range : scale ≤ 999999) :
    (Decimal.ofInt n).scaleb (-scale) = ⟨decide (n < 0), n.natAbs, -scale⟩ := by
  have few : (Nat.toDigits 10 n.natAbs).length ≤ Decimal.precision :=
    (Nat.length_toDigits_le_iff (by decide) (by decide)).mpr small
  have none : (max (-(scale : Int) + (Nat.toDigits 10 n.natAbs).length - Decimal.precision)
      Decimal.etiny - -(scale : Int)).toNat = 0 := by
    unfold Decimal.etiny
    unfold Decimal.precision at few ⊢
    omega
  simp only [Decimal.scaleb, Decimal.fix, Decimal.ofInt, Decimal.digits, Int.zero_add, none,
    Nat.pow_zero, Nat.div_one, Nat.mod_one]
  have stays : ¬((1 : Nat) < 2 * 0 ∨ 2 * 0 = 1 ∧ n.natAbs % 2 = 1) := by omega
  rw [if_neg stays, if_neg small.ne, Nat.cast_zero, Int.add_zero]

/-- With enough digits a scaled number is written plainly. -/
lemma str_plain {negative : Bool} {coefficient scale : Nat}
    (plain : scale < (Nat.toDigits 10 coefficient).length + 6) :
    (Decimal.str ⟨negative, coefficient, -scale⟩)
      = String.ofList ((if negative then ['-'] else []) ++
        (wholePart (Nat.toDigits 10 coefficient) scale ++
          pointChars (fractionPart (Nat.toDigits 10 coefficient) scale))) := by
  have some_digit : 0 < (Nat.toDigits 10 coefficient).length := Nat.length_toDigits_pos
  have len := fractionPart_length (Nat.toDigits 10 coefficient) scale
  have place : -(scale : Int) ≤ 0 ∧ -6 < -(scale : Int) + (Nat.toDigits 10 coefficient).length := by
    omega
  simp only [Decimal.str, Decimal.digits, place, and_self, if_true, List.append_nil]
  generalize Nat.toDigits 10 coefficient = digits at *
  congr 2
  unfold wholePart pointChars
  by_cases short : digits.length ≤ scale
  · -- Zeros stand between the point and the digits.
    have left : -(scale : Int) + digits.length ≤ 0 := by omega
    have zeros : (-(-(scale : Int) + digits.length)).toNat = scale - digits.length := by omega
    have some : fractionPart digits scale ≠ [] := List.ne_nil_of_length_pos (by omega)
    rw [if_pos left, if_pos left, if_pos short, if_neg some, zeros, fractionPart, if_pos short]
  · have left : ¬-(scale : Int) + digits.length ≤ 0 := by omega
    have taken : (-(scale : Int) + digits.length).toNat = digits.length - scale := by omega
    rw [if_neg left, if_neg left, if_neg short, taken]
    by_cases zero : scale = 0
    · have whole : (digits.length : Int) ≤ -(scale : Int) + digits.length := by omega
      have pad : (-(scale : Int) + digits.length - digits.length).toNat = 0 := by omega
      have none : fractionPart digits scale = [] := List.eq_nil_of_length_eq_zero (len.trans zero)
      rw [if_pos whole, if_pos whole, pad, none, if_pos rfl, zero, Nat.sub_zero, List.take_length,
        List.replicate_zero, List.append_nil]
    · have part : ¬(digits.length : Int) ≤ -(scale : Int) + digits.length := by omega
      have some : fractionPart digits scale ≠ [] := List.ne_nil_of_length_pos (by omega)
      rw [if_neg part, if_neg part, if_neg some, fractionPart, if_neg short]

/-- With too few digits it is written with an exponent. -/
lemma str_exponent {negative : Bool} {coefficient scale : Nat}
    (few : (Nat.toDigits 10 coefficient).length + 6 ≤ scale) :
    'E' ∈ (Decimal.str ⟨negative, coefficient, -scale⟩).toList := by
  have place : ¬(-(scale : Int) ≤ 0 ∧
      -6 < -(scale : Int) + (Nat.toDigits 10 coefficient).length) := by omega
  have left : ¬-(scale : Int) + (Nat.toDigits 10 coefficient).length = 1 := by omega
  simp only [Decimal.str, Decimal.digits, place, left, if_false, String.toList_ofList,
    List.mem_append]
  exact .inr (.inr List.mem_cons_self)

/-- A rendered number has no exponent. -/
lemma renderDecimal_no_exponent (n : Int) (scale : Nat) :
    'E' ∉ (renderDecimal n scale).toList := by
  obtain ⟨whole, fraction, parts⟩ := renderDecimal_shape n scale
  have digits {cs : List Char} (all : AllDigits cs) : 'E' ∉ cs := fun mem => by
    have digit := all 'E' mem
    cases digit
  have sign : 'E' ∉ signChars n := by
    unfold signChars
    split <;> simp
  have point : 'E' ∉ pointChars fraction := by
    unfold pointChars
    split
    · exact List.not_mem_nil
    · simp [digits parts.fraction_digits]
  rw [parts.text, String.toList_ofList]
  simp [sign, point, digits parts.whole_digits]

/-- The texts of a number in both implementations are the same exactly where Python writes plain
digits. -/
lemma renderDecimal_eq_python {n : Int} {scale : Nat} (small : n.natAbs < 10 ^ Decimal.precision)
    (range : scale ≤ 999999) :
    renderDecimal n scale = Python.render n scale ↔
      scale < (Nat.toDigits 10 n.natAbs).length + 6 := by
  rw [Python.render, scaleb_ofInt small range]
  constructor
  · intro same
    by_contra few
    exact renderDecimal_no_exponent n scale (same ▸ str_exponent (Nat.not_lt.mp few))
  · intro plain
    rw [str_plain plain, renderDecimal_parts]
    simp only [decide_eq_true_eq, signChars]

end Render

end GrpcEbcdic

import GrpcEbcdic.Decode.Decode
import Mathlib.Data.Rat.Defs
import Mathlib.Tactic.FieldSimp
import Mathlib.Tactic.Ring

/-!
# Decimal text

What a rendered decimal denotes. `readDecimal` reads a decimal the way a client would, and
`readDecimal_renderDecimal` shows that a rendered number reads back as exactly itself.
-/

namespace GrpcEbcdic
open Rust

/-- The number a decimal without a sign denotes. -/
def readFixed (cs : List Char) : Option ℚ :=
  let whole := cs.takeWhile (· ≠ '.')
  match cs.dropWhile (· ≠ '.') with
  | [] => (parseDigits whole).map (↑)
  | _ :: fraction => do
    let w ← parseDigits whole
    let f ← parseDigits fraction
    return w + f / 10 ^ fraction.length

/-- The number a decimal denotes. -/
def readDecimal (text : String) : Option ℚ :=
  match text.toList with
  | '-' :: cs => (readFixed cs).map (-·)
  | cs => readFixed cs

section Digits

/-- A run of digits. -/
def AllDigits (cs : List Char) : Prop := ∀ c ∈ cs, c.isDigit = true

lemma AllDigits.append {as bs : List Char} (ha : AllDigits as) (hb : AllDigits bs) :
    AllDigits (as ++ bs) := by
  intro c mem
  exact (List.mem_append.mp mem).elim (ha c) (hb c)

lemma allDigits_toDigits (n : Nat) : AllDigits (Nat.toDigits 10 n) := fun _ mem =>
  Nat.isDigit_of_mem_toDigits (by decide) (by decide) mem

lemma allDigits_zeros (n : Nat) : AllDigits (List.replicate n '0') := by
  intro c mem
  rw [List.eq_of_mem_replicate mem]
  rfl

lemma parseDigits_all {cs : List Char} (ne : cs ≠ []) (all : AllDigits cs) :
    parseDigits cs = some (Nat.ofDigitChars 10 cs 0) :=
  if_pos ⟨ne, List.all_eq_true.mpr all⟩

lemma AllDigits.ne_point {cs : List Char} (all : AllDigits cs) :
    ∀ c ∈ cs, decide (c ≠ '.') = true := by
  intro c mem
  have digit := all c mem
  rw [decide_eq_true_eq]
  rintro rfl
  cases digit

/-- Digits with no point among them. -/
lemma readFixed_whole {cs : List Char} (ne : cs ≠ []) (all : AllDigits cs) :
    readFixed cs = some ((Nat.ofDigitChars 10 cs 0 : Nat) : ℚ) := by
  have tw : cs.takeWhile (· ≠ '.') = cs := List.takeWhile_eq_self_iff.mpr all.ne_point
  have dw : cs.dropWhile (· ≠ '.') = [] := List.dropWhile_eq_nil_iff.mpr all.ne_point
  rw [readFixed, tw, dw, parseDigits_all ne all]
  rfl

/-- Digits with a point between them. -/
lemma readFixed_point {whole fraction : List Char} (nw : whole ≠ []) (nf : fraction ≠ [])
    (aw : AllDigits whole) (af : AllDigits fraction) :
    readFixed (whole ++ '.' :: fraction)
      = some (((Nat.ofDigitChars 10 (whole ++ fraction) 0 : ℕ) : ℚ) / 10 ^ fraction.length) := by
  have tw : (whole ++ '.' :: fraction).takeWhile (· ≠ '.') = whole := by
    rw [List.takeWhile_append_of_pos aw.ne_point, List.takeWhile_cons_of_neg (by simp),
      List.append_nil]
  have dw : (whole ++ '.' :: fraction).dropWhile (· ≠ '.') = '.' :: fraction := by
    rw [List.dropWhile_append_of_pos aw.ne_point, List.dropWhile_cons_of_neg (by simp)]
  simp only [readFixed, tw, dw, parseDigits_all nw aw, parseDigits_all nf af, Option.bind_eq_bind,
    Option.bind_some, pure, Option.some.injEq]
  rw [Nat.ofDigitChars_append,
    @Nat.ofDigitChars_eq_ofDigitChars_zero fraction (Nat.ofDigitChars 10 whole 0)]
  push_cast
  field_simp

end Digits

section Render

/-- Whether a rendered number carries a minus sign. -/
def signChars (v : Int) : List Char := if v < 0 then ['-'] else []

/-- A number renders as its sign and its digits. -/
lemma toString_eq (v : Int) :
    toString v = String.ofList (signChars v ++ Nat.toDigits 10 v.natAbs) := by
  rw [← String.toList_inj, String.toList_ofList, Int.toString_eq_repr, Int.repr_eq_if, signChars]
  by_cases neg : v < 0
  · have abs : (-v).toNat = v.natAbs := by omega
    rw [if_neg (by omega), if_pos neg, String.toList_append, Nat.toList_repr, abs]
    rfl
  · have abs : v.toNat = v.natAbs := by omega
    rw [if_pos (by omega), if_neg neg, Nat.toList_repr, abs]
    rfl

/-- A sign in front of digits negates what they denote. -/
lemma readDecimal_signed {v : Int} {cs : List Char} {q : ℚ} (read : readFixed cs = some q)
    (head : cs.head? ≠ some '-') :
    readDecimal (String.ofList (signChars v ++ cs)) = some (if v < 0 then -q else q) := by
  unfold readDecimal signChars
  rw [String.toList_ofList]
  by_cases neg : v < 0
  · simp [neg, read]
  · rw [if_neg neg, if_neg neg, List.nil_append]
    split
    · next rest => simp at head
    · exact read

/-- A number is its size with its sign. -/
lemma signed_natAbs (v : Int) (d : ℚ) :
    (if v < 0 then -((v.natAbs : ℚ) / d) else (v.natAbs : ℚ) / d) = (v : ℚ) / d := by
  rw [Nat.cast_natAbs]
  split
  · next neg =>
    rw [abs_of_neg neg, Int.cast_neg]
    ring
  · next nonneg => rw [abs_of_nonneg (not_lt.mp nonneg)]

/-- Digits do not start with a sign. -/
lemma AllDigits.head_ne {cs : List Char} (all : AllDigits cs) : cs.head? ≠ some '-' := by
  intro head
  have digit := all '-' (List.mem_of_head? head)
  cases digit

/-- The digits before the point, when `scale` of them stand behind it. -/
def wholePart (digits : List Char) (scale : Nat) : List Char :=
  if digits.length ≤ scale then ['0'] else digits.take (digits.length - scale)

/-- The digits behind the point, with zeros in front of them where there are too few. -/
def fractionPart (digits : List Char) (scale : Nat) : List Char :=
  if digits.length ≤ scale then List.replicate (scale - digits.length) '0' ++ digits
  else digits.drop (digits.length - scale)

/-- The point and what stands behind it, if anything does. -/
def pointChars (fraction : List Char) : List Char := if fraction = [] then [] else '.' :: fraction

lemma fractionPart_length (digits : List Char) (scale : Nat) :
    (fractionPart digits scale).length = scale := by
  unfold fractionPart
  split
  · rw [List.length_append, List.length_replicate]
    omega
  · rw [List.length_drop]
    omega

/-- A number renders as its sign, its whole part and its fraction. -/
lemma renderDecimal_parts (v : Int) (scale : Nat) :
    renderDecimal v scale = String.ofList (signChars v ++
      (wholePart (Nat.toDigits 10 v.natAbs) scale ++
        pointChars (fractionPart (Nat.toDigits 10 v.natAbs) scale))) := by
  have some_digit : 0 < (Nat.toDigits 10 v.natAbs).length := Nat.length_toDigits_pos
  have len := fractionPart_length (Nat.toDigits 10 v.natAbs) scale
  have shown : (toString v.natAbs).toList = Nat.toDigits 10 v.natAbs := Nat.toList_repr
  unfold renderDecimal
  by_cases zero : scale = 0
  · have none : fractionPart (Nat.toDigits 10 v.natAbs) scale = [] :=
      List.eq_nil_of_length_eq_zero (len.trans zero)
    have all : ¬(Nat.toDigits 10 v.natAbs).length ≤ scale := by omega
    rw [if_pos zero, toString_eq, none, pointChars, if_pos rfl, List.append_nil, wholePart,
      if_neg all, zero, Nat.sub_zero, List.take_length]
  · have some : fractionPart (Nat.toDigits 10 v.natAbs) scale ≠ [] :=
      List.ne_nil_of_length_pos (by omega)
    rw [if_neg zero, pointChars, if_neg some]
    dsimp only
    rw [shown]
    have sign : (if v < 0 then ['-'] else []) = signChars v := rfl
    generalize Nat.toDigits 10 v.natAbs = digits
    rw [sign]
    unfold wholePart fractionPart
    split_ifs with short
    · have one : scale + 1 - digits.length = (scale - digits.length) + 1 := by omega
      have split : (List.replicate (scale + 1 - digits.length) '0' ++ digits).length - scale = 1 := by
        rw [List.length_append, List.length_replicate]
        omega
      rw [split, one, List.replicate_succ]
      simp
    · simp

/-- Digits begin with a zero only when they spell one. -/
lemma toDigits_head {n : Nat} (zero : (Nat.toDigits 10 n).head? = some '0') : n = 0 := by
  induction n using Nat.strongRecOn with
  | _ n ih =>
    by_cases small : n < 10
    · have only : ∀ d < 10, [d.digitChar].head? = some '0' → d = 0 := by decide
      rw [Nat.toDigits_of_lt_base small] at zero
      exact only n small zero
    · rw [Nat.toDigits_of_base_le (by decide) (by omega),
        List.head?_append_of_ne_nil _ Nat.toDigits_ne_nil] at zero
      have none := ih (n / 10) (by omega) zero
      omega

/-- The text of a number at a scale, part by part. -/
structure DecimalParts (v : Int) (scale : Nat) (text : String) (whole fraction : List Char) :
    Prop where
  text : text = String.ofList (signChars v ++ (whole ++ pointChars fraction))
  whole_ne : whole ≠ []
  whole_digits : AllDigits whole
  /-- The whole part has no superfluous zero. -/
  leading : whole.head? = some '0' → whole = ['0']
  fraction_digits : AllDigits fraction
  fraction_length : fraction.length = scale
  value : Nat.ofDigitChars 10 (whole ++ fraction) 0 = v.natAbs

/-- A rendered number is its sign, its whole part and exactly as many digits behind the point as its
scale. -/
lemma renderDecimal_shape (v : Int) (scale : Nat) :
    ∃ whole fraction, DecimalParts v scale (renderDecimal v scale) whole fraction := by
  have all := allDigits_toDigits v.natAbs
  have ne : Nat.toDigits 10 v.natAbs ≠ [] := Nat.toDigits_ne_nil
  have value : Nat.ofDigitChars 10 (Nat.toDigits 10 v.natAbs) 0 = v.natAbs :=
    Nat.ofDigitChars_ten_toDigits
  refine ⟨_, _, ⟨renderDecimal_parts v scale, ?_, ?_, ?_, ?_, fractionPart_length _ scale, ?_⟩⟩
  · unfold wholePart
    split
    · exact List.cons_ne_nil _ _
    · exact List.ne_nil_of_length_pos (by rw [List.length_take]; omega)
  · unfold wholePart
    split
    · exact allDigits_zeros 1
    · exact fun c mem => all c (List.mem_of_mem_take mem)
  · unfold wholePart
    split
    · exact fun _ => rfl
    · next long =>
      intro zero
      rw [List.head?_take, if_neg (by omega)] at zero
      -- Only the number zero has a zero for its first digit.
      have none := toDigits_head zero
      rw [none, Nat.toDigits_zero] at long ⊢
      exact List.take_of_length_le (by simp at long; simp; omega)
  · unfold fractionPart
    split
    · exact (allDigits_zeros _).append all
    · exact fun c mem => all c (List.mem_of_mem_drop mem)
  · unfold wholePart fractionPart
    split
    · -- Zeros in front of the digits leave their value alone.
      rw [← List.append_assoc, Nat.ofDigitChars_append]
      change Nat.ofDigitChars 10 _ (Nat.ofDigitChars 10 (List.replicate (_ + 1) '0') 0) = _
      rw [Nat.ofDigitChars_replicate_zero, Nat.mul_zero, value]
    · rw [List.take_append_drop, value]

/-- A rendered number denotes itself. -/
theorem readDecimal_renderDecimal (v : Int) (scale : Nat) :
    readDecimal (renderDecimal v scale) = some ((v : ℚ) / 10 ^ scale) := by
  obtain ⟨whole, fraction, parts⟩ := renderDecimal_shape v scale
  rw [parts.text]
  have read : readFixed (whole ++ pointChars fraction) = some ((v.natAbs : ℚ) / 10 ^ scale) := by
    unfold pointChars
    split
    · next none =>
      have value := parts.value
      have len := parts.fraction_length
      rw [none] at value len
      rw [List.append_nil] at value ⊢
      rw [readFixed_whole parts.whole_ne parts.whole_digits, value, ← len, List.length_nil, pow_zero,
        div_one]
    · next some =>
      rw [readFixed_point parts.whole_ne some parts.whole_digits parts.fraction_digits, parts.value,
        parts.fraction_length]
  have head : (whole ++ pointChars fraction).head? ≠ some '-' := by
    rw [List.head?_append_of_ne_nil _ parts.whole_ne]
    exact parts.whole_digits.head_ne
  rw [readDecimal_signed read head, signed_natAbs]

end Render

end GrpcEbcdic

import GrpcEbcdic.Copybook.Picture
import GrpcEbcdic.Support.Fallible

/-!
# What a picture describes

The symbols of a picture and its usage give a field's kind, width and scale (`describe_ok`). The name
of the item appears in messages only, so neither the symbols nor the digits depend on it.
-/

namespace GrpcEbcdic.Copybook
open Rust Fallible

variable [Unicode]

section Labels

/-- A repeat count does not depend on the item it is reported for. -/
lemma repeatCount_label {p p' l l' : String} {digits : List Char} {count : Nat}
    (ok : repeatCount p l digits = .ok count) : repeatCount p' l' digits = .ok count := by
  unfold repeatCount at ok ⊢
  rw [guard_eq_ok] at ok ⊢
  refine ⟨ok.1, ?_⟩
  have counted := ok.2
  cases h : parseUnsigned (2 ^ 64) digits with
  | none =>
    rw [h] at counted
    cases counted
  | some n =>
    rw [h] at counted
    simp only [guard_eq_ok] at counted ⊢
    exact counted

/-- A repeated symbol does not depend on the item it is reported for. -/
lemma pushSymbols_label {p p' l l' : String} {out out' : List Char} {symbol : Char} {count : Nat}
    (ok : pushSymbols p l out symbol count = .ok out') :
    pushSymbols p' l' out symbol count = .ok out' := by
  rw [pushSymbols, guard_eq_ok] at ok ⊢
  exact ok

/-- Nor do the symbols of a picture. -/
lemma expandFrom_label {p p' l l' : String} {counting : Option (Char × Option (List Char))}
    {out symbols : List Char} {chars : List Char}
    (ok : expandFrom p l counting out chars = .ok symbols) :
    expandFrom p' l' counting out chars = .ok symbols := by
  induction chars generalizing counting out with
  | nil =>
    cases counting with
    | none => exact ok
    | some _ => simp [expandFrom] at ok
  | cons ch chars ih =>
    -- The label stands in the errors only, so each state of the loop steps the same.
    rcases counting with _ | ⟨symbol, _ | digits⟩
    · simp only [expandFrom, guard_eq_ok] at ok ⊢
      refine ⟨ok.1, ?_⟩
      have ok := ok.2
      split at ok
      · next paren => exact (if_pos paren).trans (ih ok)
      · next paren =>
        apply (if_neg paren).trans
        cases h : pushSymbols p l out ch 1 with
        | error e => simp [h] at ok
        | ok next =>
          simp only [h] at ok
          simp only [pushSymbols_label h]
          exact ih ok
    · exact ih ok
    · simp only [expandFrom] at ok ⊢
      split at ok
      · next paren =>
        apply (if_pos paren).trans
        cases h : repeatCount p l digits with
        | error e => simp [h] at ok
        | ok count =>
          simp only [h] at ok
          simp only [repeatCount_label h]
          cases h' : pushSymbols p l out symbol count with
          | error e => simp [h'] at ok
          | ok next =>
            simp only [h'] at ok
            simp only [pushSymbols_label h']
            exact ih ok
      · next paren => exact (if_neg paren).trans (ih ok)

/-- The symbols of a picture are those of the picture of a filler. -/
lemma expand_label {picture l l' : String} {symbols : List Char}
    (ok : expand picture l = .ok symbols) : expand picture l' = .ok symbols :=
  expandFrom_label ok

/-- The digits of a picture do not depend on the item it is reported for. -/
lemma countDigits_label {p p' l l' : String} {position : Nat} {acc acc' : Digits}
    {symbols : List Char} (ok : countDigits p l position acc symbols = .ok acc') :
    countDigits p' l' position acc symbols = .ok acc' := by
  induction symbols generalizing position acc with
  | nil => exact ok
  | cons symbol symbols ih =>
    simp only [countDigits] at ok ⊢
    split at ok
    · next sign =>
      rw [if_pos sign]
      rw [guard_eq_ok] at ok ⊢
      exact ⟨ok.1, ih ok.2⟩
    · next sign =>
      rw [if_neg sign]
      split at ok
      · next point =>
        rw [if_pos point]
        rw [guard_eq_ok] at ok ⊢
        exact ⟨ok.1, ih ok.2⟩
      · next point =>
        rw [if_neg point]
        split at ok
        · next digit => exact (if_pos digit).trans (ih ok)
        · simp at ok

end Labels

section Numeric

/-- Each `9` is a digit. -/
lemma countDigits_digits {p l : String} {position : Nat} {acc acc' : Digits} {symbols : List Char}
    (ok : countDigits p l position acc symbols = .ok acc') :
    acc'.digits = acc.digits + symbols.count '9' := by
  induction symbols generalizing position acc with
  | nil => cases ok; simp
  | cons symbol symbols ih =>
    simp only [countDigits] at ok
    split at ok
    · next sign =>
      rw [guard_eq_ok] at ok
      rw [ih ok.2, sign, List.count_cons_of_ne (by decide)]
    · split at ok
      · next point =>
        rw [guard_eq_ok] at ok
        rw [ih ok.2, point, List.count_cons_of_ne (by decide)]
      · split at ok
        · next digit =>
          rw [ih ok, digit, List.count_cons_self, Nat.add_assoc, Nat.add_comm 1]
        · simp at ok

/-- A picture with an `X` or an `A` is character data. -/
def isCharacter (symbols : List Char) : Bool := symbols.any fun c => c = 'X' || c = 'A'

/-- The bytes of a binary item of so many digits. -/
def binaryWidth (digits : Nat) : Option Nat :=
  if digits ≤ 4 then some 2 else if digits ≤ 9 then some 4 else if digits ≤ 18 then some 8 else none

/-- How a usage stores the digits of a numeric picture. -/
def storage (acc : Digits) : Usage → Option Described
  | .display => some ⟨.zonedDecimal, acc.digits, acc.scale⟩
  | .packed => some ⟨.packedDecimal, acc.digits / 2 + 1, acc.scale⟩
  | .binary => (binaryWidth acc.digits).map fun width =>
      ⟨if acc.signed then .integer else .unsignedInteger, width, acc.scale⟩

/-- A numeric picture describes its digits as the usage stores them. -/
lemma describeNumeric_ok {symbols : List Char} {picture label : String} {usage : Usage}
    {described : Described} :
    describeNumeric symbols picture usage label = .ok described ↔
      ∃ acc, countDigits picture label 0 {} symbols = .ok acc ∧ acc.digits ≠ 0 ∧
        storage acc usage = some described := by
  unfold describeNumeric
  cases countDigits picture label 0 {} symbols with
  | error e => simp
  | ok acc =>
    simp only [guard_eq_ok, Except.ok.injEq, exists_eq_left']
    refine and_congr_right fun _ => ?_
    cases usage with
    | display => simp [storage]
    | packed => simp [storage]
    | binary =>
      simp only [storage, binaryWidth]
      split
      · simp
      · split
        · simp
        · split <;> simp

/-- What a picture and a usage describe. -/
lemma describe_ok {picture : String} {usage : Usage} {name : Option String}
    {described : Described} :
    describe picture usage name = .ok described ↔
      ∃ symbols, expand picture (name.getD "FILLER") = .ok symbols ∧ symbols ≠ [] ∧
        if isCharacter symbols then
          describeCharacter symbols picture usage (name.getD "FILLER") = .ok described
        else
          ∃ acc, countDigits picture (name.getD "FILLER") 0 {} symbols = .ok acc ∧
            acc.digits ≠ 0 ∧ storage acc usage = some described := by
  unfold describe
  dsimp only
  cases expand picture (name.getD "FILLER") with
  | error e => simp
  | ok symbols =>
    simp only [guard_eq_ok, Except.ok.injEq, exists_eq_left']
    refine and_congr_right fun _ => ?_
    cases h : isCharacter symbols with
    | true =>
      rw [isCharacter] at h
      rw [if_pos h, if_pos rfl]
    | false =>
      rw [isCharacter, ← Bool.not_eq_true] at h
      rw [if_neg h, if_neg Bool.false_ne_true, describeNumeric_ok]

/-- Character items have no computational usage. -/
lemma describeCharacter_usage {symbols : List Char} {picture label : String} {usage : Usage}
    {described : Described} (ok : describeCharacter symbols picture usage label = .ok described) :
    usage = .display := by
  simp only [describeCharacter, guard_eq_ok] at ok
  have ok := ok.2
  split at ok
  · simp at ok
  · rw [guard_eq_ok] at ok
    exact not_not.mp ok.1

/-- The digit positions of a numeric picture; a character picture has none. -/
def digitPositions (picture : String) : Nat :=
  match expand picture "FILLER" with
  | .error _ => 0
  | .ok symbols => if isCharacter symbols then 0 else symbols.count '9'

/-- The widths at which a usage stores a number in as many bytes as `DISPLAY` does. -/
def Usage.asWide : Usage → Nat → Bool
  | .display, _ => true
  | .packed, digits => digits = 1 || digits = 2
  | .binary, digits => digits = 2

omit [Unicode] in
/-- A usage stores as many bytes as `DISPLAY` does at those widths only. -/
lemma storage_asWide (acc : Digits) {usage : Usage} :
    (∃ described, storage acc usage = some described ∧ described.size = acc.digits ∧
      described.scale = acc.scale) ↔ usage.asWide acc.digits = true := by
  cases usage with
  | display => simp [storage, Usage.asWide]
  | packed =>
    simp only [storage, Usage.asWide, Option.some.injEq, exists_eq_left', and_true,
      Bool.or_eq_true, decide_eq_true_eq]
    omega
  | binary =>
    simp only [storage, Usage.asWide, decide_eq_true_eq, Option.map_eq_some_iff]
    constructor
    · rintro ⟨described, ⟨width, wide, rfl⟩, size, _⟩
      simp only [binaryWidth] at wide size
      split at wide
      · cases wide; exact size.symm
      · split at wide
        · cases wide; omega
        · split at wide
          · cases wide; omega
          · cases wide
    · intro two
      exact ⟨_, ⟨2, by simp [binaryWidth, two], rfl⟩, two.symm, rfl⟩

end Numeric

end GrpcEbcdic.Copybook

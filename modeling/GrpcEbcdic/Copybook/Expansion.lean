import GrpcEbcdic.Copybook.Entries

/-!
# Pictures as run lengths

What a picture is read as: a list of `Run`s, each a symbol with the count it repeats. `expand`
accepts exactly the pictures that are such lists and writes the runs out (`expandFrom_runs`), so what
a picture describes is a function of its expansion (`describe_expansion`).
-/

namespace GrpcEbcdic.Copybook
open Rust

/-- What stands between the parentheses of a repeat count: digits behind a plus sign at most. -/
structure Repeat where
  plus : Bool
  digits : List Char
  ne : digits ≠ []
  numeric : digits.all Char.isDigit = true
  pos : 0 < Nat.ofDigitChars 10 digits 0

namespace Repeat

/-- The count as it is written. -/
def text (count : Repeat) : List Char := (if count.plus then ['+'] else []) ++ count.digits

/-- The count as a number. -/
def times (count : Repeat) : Nat := Nat.ofDigitChars 10 count.digits 0

end Repeat

/-- A symbol of a picture with the count behind it, if there is one. -/
structure Run where
  symbol : Char
  count : Option Repeat
  plain : symbol ≠ '('

namespace Run

/-- The run as it is written. -/
def text (run : Run) : List Char :=
  run.symbol :: run.count.elim [] fun count => '(' :: count.text ++ [')']

/-- How often the symbol stands. -/
def times (run : Run) : Nat := run.count.elim 1 Repeat.times

/-- The run written out. -/
def symbols (run : Run) : List Char := List.replicate run.times run.symbol

end Run

section Counts

/-- The digits of a count are read as its number. -/
lemma Repeat.parsed (count : Repeat) : parseDigits (stripPlus count.text) = some count.times := by
  have digits : stripPlus count.text = count.digits := by
    rw [Repeat.text]
    cases sign : count.plus with
    | true => rfl
    | false =>
      -- A digit is not a sign, so nothing is stripped.
      have numeric := count.numeric
      cases eq : count.digits with
      | nil => exact absurd eq count.ne
      | cons c cs =>
        rw [eq, List.all_cons, Bool.and_eq_true] at numeric
        have sign : c ≠ '+' := by
          rintro rfl
          exact absurd numeric.1 (by decide)
        simp [stripPlus, sign]
  rw [digits, parseDigits, if_pos ⟨count.ne, count.numeric⟩, Repeat.times]

/-- What is read as a positive number is a count. -/
lemma exists_repeat {text : List Char} {times : Nat} (pos : 0 < times)
    (parsed : parseDigits (stripPlus text) = some times) :
    ∃ count : Repeat, count.text = text ∧ count.times = times := by
  rw [parseDigits] at parsed
  split at parsed
  · next all =>
    cases parsed
    by_cases sign : ∃ cs, text = '+' :: cs
    · obtain ⟨cs, rfl⟩ := sign
      exact ⟨⟨true, cs, all.1, all.2, pos⟩, rfl, rfl⟩
    · have bare : stripPlus text = text := by
        unfold stripPlus
        split
        · next cs => exact absurd ⟨cs, rfl⟩ sign
        · rfl
      rw [bare] at all pos ⊢
      exact ⟨⟨false, text, all.1, all.2, pos⟩, rfl, rfl⟩
  · cases parsed

/-- A count holds no closing parenthesis. -/
lemma Repeat.open_text (count : Repeat) : ')' ∉ count.text := by
  rw [Repeat.text, List.mem_append, not_or]
  constructor
  · split <;> decide
  · intro mem
    exact absurd (List.all_eq_true.mp count.numeric _ mem) (by decide)

variable [Unicode]

/-- The repeat counts that are accepted. -/
lemma repeatCount_ok {picture name : String} {text : List Char} {times : Nat} :
    repeatCount picture name text = .ok times ↔
      ∃ count : Repeat, count.text = text ∧ count.times = times ∧ times ≤ maxRecordSymbols := by
  constructor
  · intro ok
    obtain ⟨pos, _⟩ := repeatCount_digits ok
    rw [repeatCount, Fallible.guard_eq_ok] at ok
    cases parsed : parseUnsigned (2 ^ 64) text with
    | none =>
      rw [parsed] at ok
      cases ok.2
    | some n =>
      rw [parsed] at ok
      simp only [Fallible.guard_eq_ok, Except.ok.injEq] at ok
      obtain ⟨_, range, rfl⟩ := ok
      obtain ⟨digits, _⟩ := Option.filter_eq_some_iff.mp parsed
      obtain ⟨count, written, times⟩ := exists_repeat pos digits
      exact ⟨count, written, times, by omega⟩
  · rintro ⟨count, rfl, rfl, le⟩
    have ne : count.text ≠ [] := by
      rw [Repeat.text]
      exact List.append_ne_nil_of_right_ne_nil _ count.ne
    have below : count.times < 2 ^ 64 := lt_of_le_of_lt le (by decide)
    have parsed : parseUnsigned (2 ^ 64) count.text = some count.times := by
      rw [parseUnsigned, count.parsed, Option.filter_some, if_pos (decide_eq_true below)]
    have pos : 0 < count.times := count.pos
    rw [repeatCount, if_neg ne, parsed]
    exact if_neg (by omega)

end Counts

section Runs

variable [Unicode]

/-- The inner loop takes everything up to the closing parenthesis. -/
lemma expandFrom_count {picture name : String} {symbol : Char} {out text : List Char}
    (acc rest : List Char) (inside : ')' ∉ text) :
    expandFrom picture name (some (symbol, some acc)) out (text ++ rest)
      = expandFrom picture name (some (symbol, some (acc ++ text))) out rest := by
  induction text generalizing acc with
  | nil => rw [List.nil_append, List.append_nil]
  | cons c text ih =>
    rw [List.mem_cons, not_or] at inside
    rw [List.cons_append, expandFrom, if_neg (Ne.symm inside.1), ih _ inside.2, List.append_assoc,
      List.singleton_append]

/-- A closed count is parsed and its symbol pushed. -/
lemma expandFrom_closed {picture name : String} {symbol : Char} {out text rest symbols : List Char}
    (inside : ')' ∉ text) :
    expandFrom picture name (some (symbol, some [])) out (text ++ ')' :: rest) = .ok symbols ↔
      ∃ times, repeatCount picture name text = .ok times ∧
        (out ++ List.replicate times symbol).length ≤ maxRecordSymbols ∧
        expandFrom picture name none (out ++ List.replicate times symbol) rest = .ok symbols := by
  rw [expandFrom_count [] _ inside, List.nil_append, expandFrom, if_pos rfl]
  cases counted : repeatCount picture name text with
  | error e => simp
  | ok times =>
    simp only [Except.ok.injEq, exists_eq_left']
    cases pushed : pushSymbols picture name out symbol times with
    | error e =>
      simp only [reduceCtorEq, false_iff, not_and]
      intro le
      rw [pushSymbols_ok.mpr ⟨rfl, le⟩] at pushed
      cases pushed
    | ok out' =>
      obtain ⟨rfl, le⟩ := pushSymbols_ok.mp pushed
      simp only [le, true_and]

/-- One run is expanded, when nothing behind it can be taken for its count. -/
lemma expandFrom_run {picture name : String} {run : Run} {out rest symbols : List Char}
    (next : rest.head? ≠ some '(') :
    expandFrom picture name none out (run.text ++ rest) = .ok symbols ↔
      (out ++ run.symbols).length ≤ maxRecordSymbols ∧
        expandFrom picture name none (out ++ run.symbols) rest = .ok symbols := by
  obtain ⟨symbol, count, plain⟩ := run
  cases count with
  | none =>
    simp only [Run.text, Run.symbols, Run.times, Option.elim_none, List.singleton_append]
    rw [expandFrom, if_neg plain, if_neg next]
    cases pushed : pushSymbols picture name out symbol 1 with
    | error e =>
      simp only [reduceCtorEq, false_iff, not_and]
      intro le
      rw [pushSymbols_ok.mpr ⟨rfl, le⟩] at pushed
      cases pushed
    | ok out' =>
      obtain ⟨rfl, le⟩ := pushSymbols_ok.mp pushed
      simp only [le, true_and]
  | some count =>
    have written : (Run.mk symbol (some count) plain).text ++ rest
        = symbol :: '(' :: (count.text ++ ')' :: rest) := by simp [Run.text]
    simp only [Run.symbols, Run.times, Option.elim_some]
    rw [written, expandFrom, if_neg plain, List.head?_cons, if_pos rfl, expandFrom,
      expandFrom_closed count.open_text]
    constructor
    · rintro ⟨times, counted, le, ok⟩
      obtain ⟨other, same, rfl, _⟩ := repeatCount_ok.mp counted
      have times : other.times = count.times :=
        Option.some.inj (other.parsed.symm.trans ((congrArg _ (congrArg _ same)).trans count.parsed))
      rw [times] at le ok
      exact ⟨le, ok⟩
    · rintro ⟨le, ok⟩
      refine ⟨count.times, repeatCount_ok.mpr ⟨count, rfl, rfl, ?_⟩, le, ok⟩
      rw [List.length_append, List.length_replicate] at le
      omega

omit [Unicode] in
/-- A list of runs never starts with a parenthesis. -/
lemma head_runs (runs : List Run) : (runs.flatMap Run.text).head? ≠ some '(' := by
  cases runs with
  | nil => simp
  | cons run runs =>
    rw [List.flatMap_cons, Run.text, List.cons_append, List.head?_cons, ne_eq, Option.some.injEq]
    exact run.plain

/-- What is expanded starts with a run. -/
lemma expandFrom_first {picture name : String} {out symbols : List Char} {c : Char} {chars : List Char}
    (ok : expandFrom picture name none out (c :: chars) = .ok symbols) :
    ∃ (run : Run) (rest : List Char), c :: chars = run.text ++ rest ∧
      (out ++ run.symbols).length ≤ maxRecordSymbols ∧
      expandFrom picture name none (out ++ run.symbols) rest = .ok symbols := by
  have plain : c ≠ '(' := by
    rintro rfl
    rw [expandFrom, if_pos rfl] at ok
    cases ok
  cases chars with
  | nil =>
    have bare : [c] = (Run.mk c none plain).text ++ [] := rfl
    rw [bare, expandFrom_run (by simp)] at ok
    exact ⟨_, [], bare, ok⟩
  | cons next chars =>
    by_cases paren : next = '('
    · subst paren
      rw [expandFrom, if_neg plain, List.head?_cons, if_pos rfl, expandFrom] at ok
      by_cases closed : ')' ∈ chars
      · obtain ⟨text, rest, rfl, inside⟩ := List.eq_append_cons_of_mem closed
        obtain ⟨times, counted, le, ok⟩ := (expandFrom_closed inside).mp ok
        obtain ⟨count, rfl, rfl, _⟩ := repeatCount_ok.mp counted
        exact ⟨⟨c, some count, plain⟩, rest, by simp [Run.text], le, ok⟩
      · -- The inner loop runs to the end of the picture and finds the count unterminated.
        rw [← List.append_nil chars, expandFrom_count [] [] closed, expandFrom] at ok
        cases ok
    · have bare : c :: next :: chars = (Run.mk c none plain).text ++ next :: chars := rfl
      have free : (next :: chars).head? ≠ some '(' := by simpa using paren
      rw [bare, expandFrom_run free] at ok
      exact ⟨_, _, bare, ok⟩

/-- A picture is expanded exactly when it is a list of runs within the limit, and then to these. -/
theorem expandFrom_runs {picture name : String} {out symbols chars : List Char}
    (below : out.length ≤ maxRecordSymbols) :
    expandFrom picture name none out chars = .ok symbols ↔
      ∃ runs : List Run, chars = runs.flatMap Run.text ∧
        symbols = out ++ runs.flatMap Run.symbols ∧ symbols.length ≤ maxRecordSymbols := by
  constructor
  · intro ok
    induction length : chars.length using Nat.strong_induction_on generalizing chars out with
    | _ n ih =>
      cases chars with
      | nil =>
        cases ok
        exact ⟨[], rfl, (List.append_nil _).symm, below⟩
      | cons c chars =>
        obtain ⟨run, rest, split, le, ok⟩ := expandFrom_first ok
        have shorter : rest.length < n := by
          have lengths := congrArg List.length split
          simp only [List.length_append, Run.text, List.length_cons] at lengths length
          omega
        obtain ⟨runs, rfl, rfl, within⟩ := ih rest.length shorter le ok rfl
        exact ⟨run :: runs, split, List.append_assoc .., within⟩
  · rintro ⟨runs, rfl, rfl, le⟩
    induction runs generalizing out with
    | nil => simp [expandFrom]
    | cons run runs ih =>
      rw [List.flatMap_cons, List.flatMap_cons, ← List.append_assoc] at *
      have first : (out ++ run.symbols).length ≤ maxRecordSymbols := by
        rw [List.length_append] at le
        omega
      exact (expandFrom_run (head_runs runs)).mpr ⟨first, ih first le⟩

end Runs

section Described

variable [Unicode]

/-- A character picture describes the same under any name. -/
lemma describeCharacter_label {p p' l l' : String} {symbols : List Char} {usage : Usage}
    {described : Described} (ok : describeCharacter symbols p usage l = .ok described) :
    describeCharacter symbols p' usage l' = .ok described := by
  simp only [describeCharacter, Fallible.guard_eq_ok] at ok ⊢
  refine ⟨ok.1, ?_⟩
  have ok := ok.2
  split at ok
  · cases ok
  · rw [Fallible.guard_eq_ok] at ok ⊢
    exact ok

/-- What a picture describes is described by every picture with its symbols. -/
lemma describe_transfer {p p' l l' : String} {symbols : List Char} {usage : Usage}
    {name name' : Option String} {described : Described} (expands : expand p l = .ok symbols)
    (same : expand p' l' = .ok symbols) (ok : describe p usage name = .ok described) :
    describe p' usage name' = .ok described := by
  obtain ⟨own, eq, ne, kind⟩ := describe_ok.mp ok
  obtain rfl : own = symbols := Except.ok.inj ((expand_label eq).symm.trans expands)
  refine describe_ok.mpr ⟨own, expand_label same, ne, ?_⟩
  split at kind
  · next character =>
    rw [if_pos character]
    exact describeCharacter_label kind
  · next character =>
    obtain ⟨acc, counted, pos, stored⟩ := kind
    rw [if_neg character]
    exact ⟨acc, countDigits_label counted, pos, stored⟩

/-- Pictures with one expansion describe the same. -/
lemma describe_expansion {p p' l l' : String} {symbols : List Char} {usage : Usage}
    {name name' : Option String} (expands : expand p l = .ok symbols)
    (same : expand p' l' = .ok symbols) :
    (describe p usage name).toOption = (describe p' usage name').toOption := by
  refine Option.ext fun described => ?_
  rw [Fallible.toOption_eq_some, Fallible.toOption_eq_some]
  exact ⟨describe_transfer expands same, describe_transfer same expands⟩

/-- A picture is expanded when it is a list of runs of at most `maxRecordSymbols` symbols, to these
runs written out; and its kind, size and scale are a function of the expansion. -/
theorem expand_runs :
    (∀ (picture name : String) (symbols : List Char),
      expand picture name = .ok symbols ↔
        ∃ runs : List Run, picture.toList = runs.flatMap Run.text ∧
          symbols = runs.flatMap Run.symbols ∧ symbols.length ≤ maxRecordSymbols) ∧
      ∀ (picture picture' label label' : String) (symbols : List Char),
        expand picture label = .ok symbols → expand picture' label' = .ok symbols →
        ∀ (usage : Usage) (name name' : Option String),
          (describe picture usage name).toOption = (describe picture' usage name').toOption :=
  ⟨fun _ _ _ => expandFrom_runs (Nat.zero_le _), fun _ _ _ _ _ expands same _ _ _ =>
    describe_expansion expands same⟩

end Described

section Sample

attribute [local instance] asciiUnicode

/-- A count of two digits, one leading zero and a sign. -/
def sampleRepeat : Repeat := ⟨true, ['0', '3'], by decide, by decide, by decide⟩

/-- The runs of `9(+03)V99`. -/
def sampleRuns : List Run :=
  [⟨'9', some sampleRepeat, by decide⟩, ⟨'V', none, by decide⟩, ⟨'9', none, by decide⟩,
    ⟨'9', none, by decide⟩]

/-- `9(+03)V99` is expanded, and describes what `99(2)V9(1)9` does. -/
theorem expand_runs_counted :
    expand "9(+03)V99" "AMOUNT" = .ok ['9', '9', '9', 'V', '9', '9'] ∧
      (describe "9(+03)V99" .packed (some "AMOUNT")).toOption
        = (describe "99(2)V9(1)9" .packed none).toOption :=
  ⟨(expand_runs.1 "9(+03)V99" "AMOUNT" _).mpr ⟨sampleRuns, by decide, by decide, by decide⟩,
    expand_runs.2 "9(+03)V99" "99(2)V9(1)9" "AMOUNT" "FILLER" ['9', '9', '9', 'V', '9', '9']
      (by decide) (by decide) .packed (some "AMOUNT") none⟩

end Sample

end GrpcEbcdic.Copybook

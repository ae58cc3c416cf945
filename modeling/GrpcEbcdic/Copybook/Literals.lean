import GrpcEbcdic.Copybook.Attached
import GrpcEbcdic.Copybook.Cards
import GrpcEbcdic.Copybook.Conditions
import GrpcEbcdic.Copybook.Refused
import GrpcEbcdic.Copybook.Sentences

/-!
# The literals of a condition name

A level-88 entry as COBOL writes it: literals between quotation marks, a mark inside them doubled, or
numbers, each followed by white space or by a comma and white space. A comma is no separator to the
tokenizer: it becomes part of the literal in front of it, quotes and all (`Member.unquote`). Without
commas the bounds are what stands between the marks, and what the literals mean when no mark is doubled
(`compile_values`).
-/

namespace GrpcEbcdic.Copybook
open Rust

/-- A literal of a list, with the separator behind it. -/
structure Member where
  constant : Constant
  comma : Bool
  blanks : List Char

/-- What the tokenizer takes for one word. -/
def Member.placed (member : Member) : Placed :=
  ⟨String.ofList (member.constant.written ++ if member.comma then [','] else []), member.blanks⟩

/-- A value of a list: a literal, or two with `THRU` between them. -/
structure Choice where
  low : Member
  range : Option (Placed × Member)

/-- The words of a value. -/
def Choice.placed (choice : Choice) : List Placed :=
  choice.low.placed :: (choice.range.map fun range => [range.1, range.2.placed]).getD []

/-- The literals of a value. -/
def Choice.members (choice : Choice) : List Member := choice.low :: (choice.range.map (·.2)).toList

/-- A level-88 entry: `88 name VALUE [IS|ARE] values`. -/
structure ValueEntry where
  level : Placed
  name : Placed
  value : Placed
  is : List Placed
  choices : List Choice

namespace ValueEntry

/-- The words in front of the values. -/
def head (entry : ValueEntry) : List Placed := entry.level :: entry.name :: entry.value :: entry.is

/-- The words of an entry. -/
def placed (entry : ValueEntry) : List Placed := entry.head ++ entry.choices.flatMap (·.placed)

/-- The tokens of an entry. -/
def tokens (entry : ValueEntry) : Statement := entry.placed.map (·.word)

/-- The literals of an entry. -/
def members (entry : ValueEntry) : List Member := entry.choices.flatMap (·.members)

/-- An entry as COBOL has it. -/
structure Valid [Unicode] (entry : ValueEntry) : Prop where
  level : parseUnsigned (2 ^ 8) (toUppercase entry.level.word).toList = some 88
  value : toUppercase entry.value.word ∈ ["VALUE", "VALUES"]
  is : entry.is.map (toUppercase ·.word) ∈ [[], ["IS"], ["ARE"]]
  thru : ∀ choice ∈ entry.choices, ∀ range ∈ choice.range,
    toUppercase range.1.word ∈ ["THRU", "THROUGH"]
  constants : ∀ member ∈ entry.members, member.constant.Valid
  words : ∀ placed ∈ entry.head ++ entry.choices.filterMap (·.range.map (·.1)),
    isWord none placed.word.toList = true ∧ placed.word ≠ ""
  white : ∀ placed ∈ entry.placed, ∀ c ∈ placed.blanks, isWhitespace c = true
  apart : ∀ placed ∈ entry.placed.dropLast, placed.blanks ≠ []
  commas : ∀ member ∈ entry.members, member.comma = true → member.blanks ≠ []

end ValueEntry

section Words

/-- Two words in a row are one. -/
lemma isWord_append {mark : Option Char} {cs ds : List Char} (first : isWord mark cs = true)
    (second : isWord none ds = true) : isWord mark (cs ++ ds) = true := by
  induction cs generalizing mark with
  | nil =>
    cases mark with
    | none => exact second
    | some _ => cases first
  | cons c cs ih =>
    cases mark with
    | some open_ =>
      rw [isWord, Bool.and_eq_true] at first
      rw [List.cons_append, isWord, first.1, ih first.2]
      rfl
    | none =>
      rw [isWord] at first
      rw [List.cons_append, isWord]
      by_cases quotes : c = '\'' ∨ c = '"'
      · rw [if_pos quotes] at first ⊢
        exact ih first
      · rw [if_neg quotes] at first ⊢
        simp only [Bool.and_eq_true, Bool.or_eq_true] at first ⊢
        obtain ⟨⟨dark, inside⟩, rest⟩ := first
        refine ⟨⟨dark, inside.imp_right fun some => ?_⟩, ih rest⟩
        cases cs with
        | nil => cases some
        | cons d cs => rfl

/-- Digits are a word. -/
lemma isWord_digits {cs : List Char} (digits : ∀ c ∈ cs, c.isDigit = true) : isWord none cs = true := by
  refine isWord_plain fun c mem => ?_
  have range := isDigit_range (digits c mem)
  refine ⟨by simp [isWhitespace]; omega, fun mark => ?_⟩
  have marks : ∀ c ∈ ['\'', '"', '.'], c.toNat < 48 := List.all_iff_forall_prop.mp (by decide)
  have low := marks c mark
  omega

/-- A text in quotation marks is a word behind the first of them. -/
lemma isWord_doubled {mark : Char} (quotes : mark = '\'' ∨ mark = '"') {content : List Char}
    (line : '\n' ∉ content) : isWord (some mark) (doubled mark content ++ [mark]) = true := by
  have own : mark ≠ '\n' := by obtain rfl | rfl := quotes <;> decide
  induction content with
  | nil => simp [doubled, isWord, own]
  | cons c content ih =>
    rw [List.mem_cons, not_or] at line
    have behind := ih line.2
    rw [doubled, List.flatMap_cons]
    by_cases same : c = mark
    · -- The first of two marks closes the literal, the second opens it again.
      rw [if_pos same, List.append_assoc, List.cons_append, List.singleton_append, isWord, if_pos rfl,
        isWord, if_pos quotes]
      simpa [own, doubled] using behind
    · rw [if_neg same, List.append_assoc, List.singleton_append, isWord, if_neg same]
      simpa [Ne.symm line.1, doubled] using behind

/-- A number is a word. -/
lemma IsNumber.word {text : List Char} (number : IsNumber text) : isWord none text = true := by
  obtain ⟨sign, whole, fraction, rfl, signs, digits, rest⟩ := number
  have signed : isWord none sign = true := by
    have all : ∀ sign ∈ [[], ['+'], ['-']], isWord none sign = true := by decide
    exact all sign signs
  have behind : isWord none fraction = true := by
    rcases rest with ⟨rfl, _⟩ | ⟨decimals, rfl, some, all⟩
    · rfl
    · have dark : isWhitespace '.' = false := rfl
      rw [isWord, isWord_digits all, if_neg (by decide), dark]
      simpa using some
  exact isWord_append signed (isWord_append (isWord_digits digits) behind)

/-- A literal is a word. -/
lemma Constant.Valid.word {constant : Constant} (valid : constant.Valid) :
    isWord none constant.written = true := by
  cases constant with
  | quoted mark content =>
    obtain ⟨quotes, line⟩ := valid
    rw [written, isWord, if_pos quotes]
    exact isWord_doubled quotes line
  | number text => exact IsNumber.word valid

end Words

section Members

/-- Each quotation mark makes a text longer by one. -/
lemma length_doubled (mark : Char) (content : List Char) :
    (doubled mark content).length = content.length + content.count mark := by
  induction content with
  | nil => rfl
  | cons c content ih =>
    have step : doubled mark (c :: content)
        = (if c = mark then [mark, mark] else [c]) ++ doubled mark content := List.flatMap_cons
    rw [step, List.length_append, ih, List.length_cons, List.count_cons]
    by_cases same : c = mark
    · simp [same]
      omega
    · simp [same]
      omega

/-- A text without its quotation mark is written as it is, and any other is not. -/
lemma doubled_eq {mark : Char} {content : List Char} : doubled mark content = content ↔ mark ∉ content := by
  constructor
  · intro eq
    have length := length_doubled mark content
    rw [eq] at length
    exact List.count_eq_zero.mp (by omega)
  · intro not
    have same : content.flatMap (fun c => if c = mark then [mark, mark] else [c])
        = content.flatMap fun c => [c] := by
      refine List.flatMap_congr fun c mem => if_neg ?_
      rintro rfl
      exact not mem
    rw [doubled, same, List.flatMap_singleton']

/-- A literal is read without its quotation marks, unless there is a comma behind it. -/
lemma Member.unquote {member : Member} (valid : member.constant.Valid) :
    (unquote member.placed.word).toList
      = if member.comma then member.constant.written ++ [','] else member.constant.between := by
  obtain ⟨constant, comma, blanks⟩ := member
  cases comma with
  | false =>
    rw [placed, if_neg Bool.false_ne_true, if_neg Bool.false_ne_true, List.append_nil, valid.unquote,
      String.toList_ofList]
  | true =>
    obtain ⟨c, head, _⟩ := valid.head
    obtain ⟨cs, eq⟩ := List.head?_eq_some_iff.mp head
    have chars : (placed ⟨constant, true, blanks⟩).word.toList = c :: (cs ++ [',']) := by
      rw [placed, if_pos rfl, String.toList_ofList, eq, List.cons_append]
    rw [unquote_cons chars, if_pos rfl, if_neg]
    · rw [eq, List.cons_append]
    · rintro ⟨mark, last⟩
      rw [List.getLast?_concat] at last
      obtain rfl := Option.some.inj last
      revert mark
      decide

/-- What is read is a text that is no longer than the one between the marks only if it is that text and
there is no comma. -/
lemma Member.reads_iff {member : Member} (valid : member.constant.Valid) {text : List Char}
    (le : text.length ≤ member.constant.between.length) :
    Copybook.unquote member.placed.word = String.ofList text
      ↔ member.comma = false ∧ member.constant.between = text := by
  have longer : member.constant.between.length ≤ member.constant.written.length := by
    cases member.constant with
    | quoted mark content => simp [Constant.between, Constant.written]; omega
    | number text => exact Nat.le_refl _
  rw [← String.toList_inj, Member.unquote valid, String.toList_ofList]
  cases member.comma with
  | true =>
    refine iff_of_false (fun eq => ?_) fun both => Bool.noConfusion both.1
    have length := congrArg List.length eq
    rw [if_pos rfl, List.length_append, List.length_singleton] at length
    omega
  | false => rw [if_neg Bool.false_ne_true, and_iff_right rfl]

/-- What stands between the marks is what is meant, unless a mark is doubled. -/
lemma Constant.between_content {constant : Constant} :
    constant.content.length ≤ constant.between.length ∧
      (constant.between = constant.content ↔ ¬constant.Doubles) := by
  cases constant with
  | quoted mark content =>
    refine ⟨?_, doubled_eq⟩
    rw [Constant.content, between, length_doubled]
    exact Nat.le_add_right _ _
  | number text => exact ⟨Nat.le_refl _, iff_of_true rfl id⟩

variable [Unicode]

/-- A literal with its comma is one word of the clause. -/
lemma Member.word {member : Member} (valid : member.constant.Valid) :
    (isWord none member.placed.word.toList = true ∧ member.placed.word ≠ "") ∧
      isBound member.placed.word = true := by
  obtain ⟨c, head, low⟩ := valid.head
  have chars : member.placed.word.toList
      = member.constant.written ++ if member.comma then [','] else [] := String.toList_ofList
  have comma : isWord none (if member.comma then [','] else []) = true := by
    cases member.comma <;> decide
  have begins : member.placed.word.toList.head? = some c := by
    rw [chars, List.head?_append, head]
    rfl
  refine ⟨⟨?_, fun empty => ?_⟩, isBound_iff.mpr (notMem_clause begins low)⟩
  · rw [chars]
    exact isWord_append valid.word comma
  · rw [empty] at begins
    cases begins

end Members

section Entries

variable [Unicode]

/-- The words of an entry are told apart. -/
lemma ValueEntry.Valid.spaced {entry : ValueEntry} (valid : entry.Valid) : Spaced entry.placed := by
  refine ⟨fun placed mem => ?_, valid.white, valid.apart⟩
  rcases List.mem_append.mp mem with mem | mem
  · exact valid.words placed (List.mem_append_left _ mem)
  · obtain ⟨choice, own, mem⟩ := List.mem_flatMap.mp mem
    have literal : ∀ member ∈ choice.members, isWord none member.placed.word.toList = true ∧
        member.placed.word ≠ "" := fun member mem =>
      (Member.word (valid.constants member (List.mem_flatMap.mpr ⟨choice, own, mem⟩))).1
    rw [Choice.placed] at mem
    rcases List.mem_cons.mp mem with rfl | mem
    · exact literal choice.low List.mem_cons_self
    · cases range : choice.range with
      | none =>
        rw [range] at mem
        cases mem
      | some range' =>
        rw [range, Option.map_some, Option.getD_some] at mem
        have high : range'.2 ∈ choice.members := by simp [Choice.members, range]
        rcases List.mem_cons.mp mem with rfl | mem
        · exact valid.words _ (List.mem_append_right _ (List.mem_filterMap.mpr ⟨choice, own, by rw [range]; rfl⟩))
        · rw [List.mem_singleton.mp mem]
          exact literal range'.2 high

/-- The words of the values are in the grammar of the clause, and the literals are among them in order. -/
lemma values_written {choices : List Choice}
    (thru : ∀ choice ∈ choices, ∀ range ∈ choice.range, toUppercase range.1.word ∈ ["THRU", "THROUGH"])
    (constants : ∀ member ∈ choices.flatMap (·.members), member.constant.Valid) :
    ValuesWritten (((choices.flatMap (·.placed)).map (·.word)).map toUppercase) ∧
      ((choices.flatMap (·.placed)).map (·.word)).filter isBound
        = (choices.flatMap (·.members)).map (·.placed.word) := by
  induction choices with
  | nil => exact ⟨.nil, rfl⟩
  | cons choice choices ih =>
    obtain ⟨own, thru⟩ := List.forall_mem_cons.mp thru
    rw [List.flatMap_cons, List.forall_mem_append] at constants
    obtain ⟨written, literals⟩ := ih thru constants.2
    have literal : ∀ member ∈ choice.members, isBound member.placed.word = true ∧
        toUppercase member.placed.word ∉ ["IS", "ARE", "THRU", "THROUGH"] := fun member mem => by
      have is := (Member.word (constants.1 member mem)).2
      exact ⟨is, isBound_iff.mp is⟩
    obtain ⟨low, lower⟩ := literal choice.low List.mem_cons_self
    rw [List.flatMap_cons, List.flatMap_cons, Choice.placed, Choice.members]
    cases range : choice.range with
    | none =>
      refine ⟨.value lower written, ?_⟩
      rw [Option.map_none, Option.getD_none, List.singleton_append, List.map_cons,
        List.filter_cons_of_pos low, literals]
      rfl
    | some range' =>
      obtain ⟨high, higher⟩ := literal range'.2 (by simp [Choice.members, range])
      have word := own range' range
      have not : ¬isBound range'.1.word = true := by
        have is : isThru range'.1.word = true := by simpa [isThru] using word
        rw [isBound, is, Bool.or_true]
        decide
      refine ⟨.range lower word higher written, ?_⟩
      rw [Option.map_some, Option.getD_some]
      simp only [List.cons_append, List.nil_append, List.map_cons]
      rw [List.filter_cons_of_pos low, List.filter_cons_of_neg not, List.filter_cons_of_pos high, literals]
      rfl

/-- An entry that is accepted delivers its literals as they are read. -/
lemma ValueEntry.Valid.read {entry : ValueEntry} (valid : entry.Valid) {parsed : Parsed}
    (ok : parseItem entry.tokens = .ok parsed) :
    ∃ values, parsed = .condition ⟨entry.name.word, values⟩ ∧
      bounds values = entry.members.map fun member => unquote member.placed.word := by
  obtain ⟨⟨level, levels⟩, ⟨name, names⟩, ⟨value, behind⟩, is, choices⟩ := entry
  have lv : parseUnsigned (2 ^ 8) (toUppercase level).toList = some 88 := valid.level
  have hv : toUppercase value ∈ ["VALUE", "VALUES"] := valid.value
  have his : (is.map (·.word)).map toUppercase ∈ [[], ["IS"], ["ARE"]] := by
    rw [List.map_map]
    exact valid.is
  obtain ⟨written, literals⟩ := values_written valid.thru valid.constants
  generalize eq : (choices.flatMap (·.placed)).map (·.word) = words at written literals
  have tokens : tokens ⟨⟨level, levels⟩, ⟨name, names⟩, ⟨value, behind⟩, is, choices⟩
      = level :: name :: value :: (is.map (·.word) ++ words) := by
    rw [← eq, ← List.map_append]
    rfl
  rw [tokens] at ok
  have kw : isClauseKeyword (toUppercase name) = false := by
    by_contra keyword
    have un : ¬Named (level :: name :: value :: (is.map (·.word) ++ words)) := by
      rintro ⟨_, ⟨⟩, plain⟩
      exact keyword plain
    obtain ⟨message, refused⟩ := conditionName_unnamed un
    rw [parseItem_level88 lv, refused] at ok
    cases ok
  have parse := @parseItem_condition _ level name value [] (is.map (·.word)) words lv kw
    (fun _ mem => absurd mem List.not_mem_nil) hv his
  rw [List.nil_append, ok] at parse
  have some : words ≠ [] := by
    rintro rfl
    cases parse
  obtain ⟨values, read, same⟩ := @conditionValues_written _ name words [] written (.inr some)
  rw [← paired, read] at parse
  cases parse
  exact ⟨values, rfl, same.trans (by rw [literals, List.map_map]; rfl)⟩

/-- A level-88 entry of a copybook that compiles is delivered to the columns of its data item. Its
bounds are what stands between the quotation marks of its literals exactly when no comma follows a
literal, and what the literals mean exactly when also none of them doubles a mark. -/
theorem compile_values {source : String} {raw : RawLayout} {entry : ValueEntry} (valid : entry.Valid)
    (stands : Stands source entry.placed) (ok : compile source = .ok raw) :
    ∃ front rest condition, statements source = .ok (front ++ entry.tokens :: rest) ∧
      Carried raw front entry.tokens rest condition ∧ condition.name = entry.name.word ∧
      (bounds condition.values = entry.members.map (fun member => String.ofList member.constant.between) ↔
        ∀ member ∈ entry.members, member.comma = false) ∧
      (bounds condition.values = entry.members.map (fun member => String.ofList member.constant.content) ↔
        ∀ member ∈ entry.members, member.comma = false ∧ ¬member.constant.Doubles) := by
  obtain ⟨stmts, split, compiled⟩ := compile_ok.mp ok
  obtain ⟨front, rest, rfl⟩ := statements_sentence valid.spaced (List.cons_ne_nil _ _) stands split
  obtain ⟨_, items, collected, _⟩ := compileStatements_ok.mp compiled
  obtain ⟨mid, _, behind⟩ := collectItems_append.mp collected
  obtain ⟨parsed, read, _⟩ := collectItems_cons.mp behind
  obtain ⟨values, rfl, same⟩ := valid.read read
  refine ⟨front, rest, ⟨entry.name.word, values⟩, split, compileStatements_carried compiled read, rfl, ?_, ?_⟩
  · rw [same, List.map_inj_left]
    refine forall₂_congr fun member mem => ?_
    rw [Member.reads_iff (valid.constants member mem) (Nat.le_refl _), and_iff_left rfl]
  · rw [same, List.map_inj_left]
    refine forall₂_congr fun member mem => ?_
    obtain ⟨le, iff⟩ := @Constant.between_content member.constant
    rw [Member.reads_iff (valid.constants member mem) le, iff]

end Entries

section Sample

attribute [local instance] asciiUnicode

/-- A condition of two values, with a comma between them or without. -/
def sampleValues (comma : Bool) : ValueEntry where
  level := ⟨"88", [' ']⟩
  name := ⟨"C", [' ']⟩
  value := ⟨"VALUE", [' ']⟩
  is := []
  choices := [⟨⟨.quoted '\'' ['A'], comma, [' ']⟩, none⟩, ⟨⟨.quoted '\'' ['B'], false, []⟩, none⟩]

/-- The record of the condition. -/
def sampleListed (comma : Bool) : String :=
  if comma then "01 R.\n05 N PIC X.\n88 C VALUE 'A', 'B'." else "01 R.\n05 N PIC X.\n88 C VALUE 'A' 'B'."

lemma sampleValues_valid (comma : Bool) : (sampleValues comma).Valid where
  level := by revert comma; decide
  value := by revert comma; decide
  is := by revert comma; decide
  thru := by revert comma; decide
  constants := by
    rintro member mem
    have either : member = ⟨.quoted '\'' ['A'], comma, [' ']⟩ ∨
        member = ⟨.quoted '\'' ['B'], false, []⟩ := by
      simpa [ValueEntry.members, sampleValues, Choice.members] using mem
    obtain rfl | rfl := either <;> exact ⟨.inl rfl, by decide⟩
  words := by revert comma; decide
  white := by
    have all : ∀ placed ∈ (sampleValues comma).placed, placed.blanks.all isWhitespace = true := by
      revert comma
      decide
    exact fun placed mem => List.all_eq_true.mp (all placed mem)
  apart := by revert comma; decide
  commas := by
    rintro member mem
    have either : member = ⟨.quoted '\'' ['A'], comma, [' ']⟩ ∨
        member = ⟨.quoted '\'' ['B'], false, []⟩ := by
      simpa [ValueEntry.members, sampleValues, Choice.members] using mem
    obtain rfl | rfl := either <;> simp

lemma sampleValues_stands (comma : Bool) : Stands (sampleListed comma) (sampleValues comma).placed := by
  refine ⟨"01 R.\n05 N PIC X.\n".toList, ['\n'], [.word ['0', '1'], .word ['R'], .stop, .word ['0', '5'],
    .word ['N'], .word "PIC".toList, .word ['X'], .stop], ?_, by decide, by decide, by decide, by decide⟩
  revert comma
  decide

lemma sampleListed_statements (comma : Bool) : statements (sampleListed comma)
    = .ok [["01", "R"], ["05", "N", "PIC", "X"],
      ["88", "C", "VALUE", if comma then "'A'," else "'A'", "'B'"]] := by
  revert comma
  decide

/-- Two values without a comma are delivered as they are meant. -/
theorem compile_values_blank : ∃ (front rest : List Statement) (condition : ConditionName),
    statements (sampleListed false) = .ok (front ++ (sampleValues false).tokens :: rest) ∧
      condition.name = "C" ∧ bounds condition.values = ["A", "B"] := by
  obtain ⟨raw, ok⟩ : ∃ raw, compile (sampleListed false) = .ok raw := by
    rw [compile, sampleListed_statements]
    exact ⟨_, rfl⟩
  obtain ⟨front, rest, condition, split, _, name, _, content⟩ :=
    compile_values (sampleValues_valid false) (sampleValues_stands false) ok
  refine ⟨front, rest, condition, split, name, content.mpr ?_⟩
  simp [ValueEntry.members, sampleValues, Choice.members, Constant.Doubles]

/-- With a comma between them the first is delivered with its quotation marks and the comma. -/
theorem compile_values_comma :
    (sampleValues true).Valid ∧ Stands (sampleListed true) (sampleValues true).placed ∧
    (sampleValues true).members.map (fun member => String.ofList member.constant.content) = ["A", "B"] ∧
    (compile (sampleListed true)).map RawLayout.conditions
      = .ok [[⟨"C", [⟨"'A',", none⟩, ⟨"B", none⟩]⟩]] := by
  refine ⟨sampleValues_valid true, sampleValues_stands true, by decide, ?_⟩
  rw [compile, sampleListed_statements]
  rfl

end Sample

end GrpcEbcdic.Copybook

import GrpcEbcdic.Copybook.Print
import GrpcEbcdic.Copybook.Refused

/-!
# Printed entries are parsed back

The entries of a tree through the clause parser: an elementary item with its clauses in their order
(`parseItem_leaf`), a group with none (`parseItem_group`), a condition name with its values
(`parseItem_words`). Collecting them gives the data items of the tree in source order, each with its
conditions (`Tree.Valid.collected`).
-/

namespace GrpcEbcdic.Copybook
open Rust

section Pictures

/-- A character that a picture the compiler decodes is written with. -/
def isPictureChar (c : Char) : Bool := c.isDigit || ['X', 'A', 'S', 'V', '(', ')', '+'].contains c

/-- The characters behind the state of `expandFrom`. -/
def pending : Option (Char × Option (List Char)) → List Char
  | none => []
  | some (symbol, none) => [symbol]
  | some (symbol, some digits) => symbol :: '(' :: digits

variable [Unicode]

/-- A repeat count is positive and made of digits, behind a sign at most. -/
lemma repeatCount_digits {picture name : String} {digits : List Char} {count : Nat}
    (ok : repeatCount picture name digits = .ok count) :
    0 < count ∧ ∀ c ∈ digits, isPictureChar c = true := by
  rw [repeatCount, Fallible.guard_eq_ok] at ok
  have ok := ok.2
  cases parsed : parseUnsigned (2 ^ 64) digits with
  | none =>
    rw [parsed] at ok
    cases ok
  | some n =>
    rw [parsed] at ok
    simp only [Fallible.guard_eq_ok, Except.ok.injEq] at ok
    obtain ⟨range, rfl⟩ := ok
    refine ⟨by omega, ?_⟩
    obtain ⟨some, _⟩ := Option.filter_eq_some_iff.mp parsed
    have all : (stripPlus digits).all Char.isDigit = true := by
      unfold parseDigits at some
      split at some
      · next both => exact both.2
      · cases some
    have plain : ∀ c ∈ stripPlus digits, isPictureChar c = true := by
      intro c mem
      rw [isPictureChar, List.all_eq_true.mp all c mem, Bool.true_or]
    unfold stripPlus at plain
    split at plain
    · exact List.forall_mem_cons.mpr ⟨by decide, plain⟩
    · exact plain

/-- A symbol is repeated behind the others as long as the total stays within the limit. -/
lemma pushSymbols_ok {picture name : String} {out out' : List Char} {symbol : Char} {count : Nat} :
    pushSymbols picture name out symbol count = .ok out' ↔
      out' = out ++ List.replicate count symbol ∧ out'.length ≤ maxRecordSymbols := by
  rw [pushSymbols, Fallible.guard_eq_ok, not_lt, Except.ok.injEq]
  constructor
  · rintro ⟨le, rfl⟩
    exact ⟨rfl, le⟩
  · rintro ⟨rfl, le⟩
    exact ⟨le, rfl⟩

/-- A picture that expands to symbols the compiler decodes is written with the characters for them. -/
lemma expandFrom_chars {picture name : String} {counting : Option (Char × Option (List Char))}
    {out symbols chars : List Char} (ok : expandFrom picture name counting out chars = .ok symbols)
    (start : ∀ symbol, counting = some (symbol, none) → chars.head? = some '(') :
    (∀ symbol ∈ out, symbol ∈ symbols) ∧
      ((∀ symbol ∈ symbols, isPictureChar symbol = true) →
        ∀ c ∈ pending counting ++ chars, isPictureChar c = true) := by
  induction chars generalizing counting out with
  | nil =>
    cases counting with
    | none =>
      cases ok
      exact ⟨fun _ mem => mem, fun _ c mem => absurd mem List.not_mem_nil⟩
    | some _ => cases ok
  | cons ch chars ih =>
    -- The states of the loop: outside a count, at its opening parenthesis, and among its digits.
    rcases counting with _ | ⟨symbol, _ | digits⟩
    · rw [expandFrom] at ok
      simp only [Fallible.guard_eq_ok] at ok
      obtain ⟨_, ok⟩ := ok
      split at ok
      · next paren =>
        obtain ⟨kept, decoded⟩ := ih ok fun _ _ => paren
        exact ⟨kept, decoded⟩
      · cases pushed : pushSymbols picture name out ch 1 with
        | error e =>
          rw [pushed] at ok
          cases ok
        | ok next =>
          rw [pushed] at ok
          obtain ⟨rfl, _⟩ := pushSymbols_ok.mp pushed
          obtain ⟨kept, decoded⟩ := ih ok fun _ none => by cases none
          refine ⟨fun s mem => kept s (List.mem_append_left _ mem), fun all => ?_⟩
          refine List.forall_mem_cons.mpr ⟨all ch (kept ch ?_), decoded all⟩
          exact List.mem_append_right _ List.mem_cons_self
    · cases start symbol rfl
      rw [expandFrom] at ok
      exact ih ok fun _ none => by cases none
    · rw [expandFrom] at ok
      split at ok
      · next paren =>
        subst paren
        cases counted : repeatCount picture name digits with
        | error e =>
          simp only [counted] at ok
          cases ok
        | ok count =>
          simp only [counted] at ok
          obtain ⟨pos, number⟩ := repeatCount_digits counted
          cases pushed : pushSymbols picture name out symbol count with
          | error e =>
            rw [pushed] at ok
            cases ok
          | ok next =>
            rw [pushed] at ok
            obtain ⟨rfl, _⟩ := pushSymbols_ok.mp pushed
            obtain ⟨kept, decoded⟩ := ih ok fun _ none => by cases none
            refine ⟨fun s mem => kept s (List.mem_append_left _ mem), fun all => ?_⟩
            -- The count is not zero, so the symbol is among those pushed and its kind is known.
            have symbol_mem : symbol ∈ List.replicate count symbol :=
              List.mem_replicate.mpr ⟨pos.ne', rfl⟩
            refine List.forall_mem_cons.mpr
              ⟨all symbol (kept symbol (List.mem_append_right _ symbol_mem)), ?_⟩
            refine List.forall_mem_cons.mpr ⟨by decide, List.forall_mem_append.mpr ⟨number, ?_⟩⟩
            exact List.forall_mem_cons.mpr ⟨by decide, decoded all⟩
      · obtain ⟨kept, decoded⟩ := ih ok fun _ none => by cases none
        refine ⟨kept, fun all c mem => decoded all c ?_⟩
        simpa [pending] using mem

/-- The digits of a numeric picture are its symbols but for the sign and the point. -/
lemma countDigits_chars {picture label : String} {position : Nat} {acc acc' : Digits}
    {symbols : List Char} (ok : countDigits picture label position acc symbols = .ok acc') :
    ∀ symbol ∈ symbols, isPictureChar symbol = true := by
  induction symbols generalizing position acc with
  | nil => exact fun _ mem => absurd mem List.not_mem_nil
  | cons symbol symbols ih =>
    rw [countDigits] at ok
    split at ok
    · next sign =>
      rw [Fallible.guard_eq_ok] at ok
      exact List.forall_mem_cons.mpr ⟨by rw [sign]; decide, ih ok.2⟩
    · split at ok
      · next point =>
        rw [Fallible.guard_eq_ok] at ok
        exact List.forall_mem_cons.mpr ⟨by rw [point]; decide, ih ok.2⟩
      · split at ok
        · next digit => exact List.forall_mem_cons.mpr ⟨by rw [digit]; decide, ih ok⟩
        · cases ok

/-- A picture that describes bytes is written with the characters for it, and is not empty. -/
lemma describe_chars {picture : String} {usage : Usage} {name : Option String}
    {described : Described} (ok : describe picture usage name = .ok described) :
    picture ≠ "" ∧ ∀ c ∈ picture.toList, isPictureChar c = true := by
  obtain ⟨symbols, expanded, ne, rest⟩ := describe_ok.mp ok
  have all : ∀ symbol ∈ symbols, isPictureChar symbol = true := by
    split at rest
    · simp only [describeCharacter, Fallible.guard_eq_ok] at rest
      have rest := rest.2
      split at rest
      · cases rest
      · next none =>
        rw [List.find?_eq_none] at none
        intro symbol mem
        have spec := none symbol mem
        rw [Bool.not_eq_true, Bool.not_eq_false'] at spec
        simp only [Bool.or_eq_true, decide_eq_true_eq] at spec
        obtain (rfl | rfl) | rfl := spec <;> decide
    · obtain ⟨acc, counted, _⟩ := rest
      exact countDigits_chars counted
  refine ⟨?_, (expandFrom_chars expanded fun _ none => by cases none).2 all⟩
  rintro rfl
  cases expanded
  exact ne rfl

omit [Unicode] in
lemma isPictureChar_plain {c : Char} (char : isPictureChar c = true) :
    c.toNat < 97 ∧ isWhitespace c = false ∧ c ∉ ['\'', '"', '.'] := by
  rw [isPictureChar, Bool.or_eq_true] at char
  rcases char with digit | char
  · have range := isDigit_range digit
    have quotes : c ≠ '\'' ∧ c ≠ '"' ∧ c ≠ '.' := by
      refine ⟨?_, ?_, ?_⟩ <;> rintro rfl <;> cases digit
    refine ⟨by omega, ?_, by simpa using quotes⟩
    simp [isWhitespace]
    omega
  · have mem := List.contains_iff_mem.mp char
    simp only [List.mem_cons, List.not_mem_nil, or_false] at mem
    obtain rfl | rfl | rfl | rfl | rfl | rfl | rfl := mem <;> decide

end Pictures

section Words

variable [Unicode]

/-- A name is a word and begins with a letter. -/
lemma NameValid.word {name : String} (valid : NameValid name) :
    (isWord none name.toList = true ∧ name ≠ "") ∧ name.toList.head?.any isLetter = true := by
  have chars := valid.chars
  rw [isDataName, Bool.and_eq_true, List.all_eq_true] at chars
  obtain ⟨head, chars⟩ := chars
  refine ⟨⟨isWord_plain fun c mem => ?_, ?_⟩, head⟩
  · have char := chars c mem
    rw [Bool.or_eq_true, Bool.or_eq_true, decide_eq_true_eq] at char
    rcases char with (letter | digit) | rfl
    · have range := isLetter_range letter
      have quotes : c ≠ '\'' ∧ c ≠ '"' ∧ c ≠ '.' := by
        refine ⟨?_, ?_, ?_⟩ <;> rintro rfl <;> cases letter
      refine ⟨?_, by simpa using quotes⟩
      rcases range with ascii | ascii | ⟨_, white⟩
      · simp [isWhitespace]
        omega
      · simp [isWhitespace]
        omega
      · exact white
    · have plain := isPictureChar_plain (c := c) (by rw [isPictureChar, digit, Bool.true_or])
      exact plain.2
    · decide
  · rintro rfl
    cases head

/-- A literal is a word. -/
lemma Literal.Valid.word {literal : Literal} (valid : literal.Valid) :
    isWord none literal.token.toList = true ∧ literal.token ≠ "" := by
  cases literal with
  | quoted mark text =>
    rw [token, String.toList_ofList]
    refine ⟨valid.2, fun empty => ?_⟩
    have none := congrArg String.toList empty
    rw [String.toList_ofList] at none
    cases none
  | plain text => exact ⟨valid.1, valid.2.1⟩

/-- A text of digits is a word and its own uppercase. -/
lemma digits_word {text : String} (digits : text.toList.all Char.isDigit = true) :
    isWord none text.toList = true ∧ toUppercase text = text := by
  have plain : ∀ c ∈ text.toList, c.toNat < 97 ∧ isWhitespace c = false ∧ c ∉ ['\'', '"', '.'] :=
    fun c mem => isPictureChar_plain (by rw [isPictureChar, List.all_eq_true.mp digits c mem, Bool.true_or])
  exact ⟨isWord_plain fun c mem => (plain c mem).2, toUppercase_self fun c mem => (plain c mem).1⟩

/-- A picture is a word and its own uppercase. -/
lemma describe_word {picture : String} {usage : Usage} {name : Option String}
    {described : Described} (ok : describe picture usage name = .ok described) :
    (isWord none picture.toList = true ∧ picture ≠ "") ∧ toUppercase picture = picture := by
  obtain ⟨ne, chars⟩ := describe_chars ok
  exact ⟨⟨isWord_plain fun c mem => (isPictureChar_plain (chars c mem)).2, ne⟩,
    toUppercase_self fun c mem => (isPictureChar_plain (chars c mem)).1⟩

/-- The words of clauses. -/
def reservedWords : List String :=
  ["FILLER", "PIC", "OCCURS", "VALUE", "88", "THRU", "USAGE", "IS", "COMP", "COMPUTATIONAL", "COMP-4",
   "COMPUTATIONAL-4", "BINARY", "COMP-3", "COMPUTATIONAL-3", "PACKED-DECIMAL", "DISPLAY"]

/-- A reserved word is a word and its own uppercase. -/
lemma reserved_word {word : String} (mem : word ∈ reservedWords) :
    (isWord none word.toList = true ∧ word ≠ "") ∧ toUppercase word = word := by
  have spec : ∀ word ∈ reservedWords,
      (isWord none word.toList = true ∧ word ≠ "") ∧
        word.toList.all (fun c => c.toNat < 97) = true := by
    decide
  refine ⟨(spec word mem).1, toUppercase_self fun c has => ?_⟩
  exact of_decide_eq_true (List.all_eq_true.mp (spec word mem).2 c has)

omit [Unicode] in
/-- The words of a usage are reserved. -/
lemma usage_reserved {usage : UsageClause} (intro' : usage.intro ∈ usageIntros)
    (some : (usageOf usage.word).isSome = true) :
    ∀ word ∈ usage.intro ++ [usage.word], word ∈ reservedWords := by
  have intros : ∀ intro' ∈ usageIntros, ∀ word ∈ intro', word ∈ reservedWords := by decide
  refine List.forall_mem_append.mpr ⟨intros _ intro', List.forall_mem_singleton.mpr ?_⟩
  by_contra not
  simp only [reservedWords, List.mem_cons, List.not_mem_nil, or_false, not_or] at not
  simp [usageOf, not] at some

/-- A count is a word and its own uppercase. -/
lemma toString_word (n : Nat) :
    (isWord none (toString n).toList = true ∧ toString n ≠ "") ∧
      toUppercase (toString n) = toString n := by
  have digits : (toString n).toList = Nat.toDigits 10 n := Nat.toList_repr
  have all : (toString n).toList.all Char.isDigit = true := by
    rw [digits, List.all_eq_true]
    exact fun c mem => Nat.isDigit_of_mem_toDigits (by decide) (by decide) mem
  obtain ⟨word, upper⟩ := digits_word all
  refine ⟨⟨word, fun empty => ?_⟩, upper⟩
  rw [empty] at digits
  exact Nat.toDigits_ne_nil digits.symm

lemma pad2_word {level : Nat} (lt : level < 100) :
    isWord none (pad2 level).toList = true ∧ pad2 level ≠ "" ∧
      toUppercase (pad2 level) = pad2 level := by
  obtain ⟨two, digits⟩ := pad2_digits level lt
  obtain ⟨word, upper⟩ := digits_word digits
  refine ⟨word, fun empty => ?_, upper⟩
  rw [empty] at two
  cases two

/-- The entry of a level-88 condition is printed on a line. -/
lemma Condition.Valid.printable {condition : Condition} (valid : condition.Valid) :
    Printable condition.words := by
  have reserved : ∀ word ∈ reservedWords, isWord none word.toList = true ∧ word ≠ "" :=
    fun _ mem => (reserved_word mem).1
  refine ⟨⟨88, condition.name, _, rfl, by decide, valid.name.word.2⟩, ?_⟩
  refine List.forall_mem_append.mpr ⟨?_, fun word mem => ?_⟩
  · refine List.forall_mem_cons.mpr ⟨reserved _ (by decide), ?_⟩
    exact List.forall_mem_cons.mpr
      ⟨valid.name.word.1, List.forall_mem_singleton.mpr (reserved _ (by decide))⟩
  · obtain ⟨value, has, mem⟩ := List.mem_flatMap.mp mem
    rcases List.mem_cons.mp mem with rfl | mem
    · exact (valid.low value has).word
    · cases high : value.high with
      | none =>
        rw [high] at mem
        cases mem
      | some literal =>
        rw [high] at mem
        have both : ∀ word ∈ ["THRU", literal.token], isWord none word.toList = true ∧ word ≠ "" :=
          List.forall_mem_cons.mpr ⟨reserved _ (by decide),
            List.forall_mem_singleton.mpr (valid.high value has literal high).word⟩
        exact both word mem

/-- The entry of an elementary item is printed on a line. -/
lemma Leaf.Valid.printable {leaf : Leaf} (valid : leaf.Valid) {level : Nat} (lt : level < 100) :
    Printable (leaf.words level) := by
  have reserved : ∀ word ∈ reservedWords, isWord none word.toList = true ∧ word ≠ "" :=
    fun _ mem => (reserved_word mem).1
  have name : (isWord none (leaf.name.getD "FILLER").toList = true ∧ leaf.name.getD "FILLER" ≠ "") ∧
      (leaf.name.getD "FILLER").toList.head?.any isLetter = true := by
    cases some : leaf.name with
    | none => exact ⟨reserved _ (by decide), by decide⟩
    | some name => exact (valid.name name some).word
  obtain ⟨shape, described, _⟩ := valid.shape
  have picture := (describe_word (Fallible.toOption_eq_some.mp described)).1
  have pad := pad2_word lt
  refine ⟨⟨level, leaf.name.getD "FILLER", _, rfl, lt, name.2⟩, ?_⟩
  refine List.forall_mem_append.mpr
    ⟨List.forall_mem_append.mpr ⟨List.forall_mem_append.mpr ⟨?_, ?_⟩, ?_⟩, ?_⟩
  · refine List.forall_mem_cons.mpr ⟨⟨pad.1, pad.2.1⟩, List.forall_mem_cons.mpr ⟨name.1, ?_⟩⟩
    exact List.forall_mem_cons.mpr
      ⟨reserved _ (by decide), List.forall_mem_singleton.mpr picture⟩
  · rw [Leaf.usageWords]
    cases some : leaf.usage with
    | none => exact fun _ mem => absurd mem List.not_mem_nil
    | some usage =>
      obtain ⟨intro', known⟩ := valid.usage usage some
      exact fun word mem => reserved word (usage_reserved intro' known word mem)
  · rw [Leaf.occursWords]
    cases leaf.occurs with
    | none => exact fun _ mem => absurd mem List.not_mem_nil
    | some count =>
      exact List.forall_mem_cons.mpr
        ⟨reserved _ (by decide), List.forall_mem_singleton.mpr (toString_word count).1⟩
  · rw [Leaf.valueWords]
    cases some : leaf.value with
    | none => exact fun _ mem => absurd mem List.not_mem_nil
    | some value =>
      exact List.forall_mem_cons.mpr
        ⟨reserved _ (by decide), List.forall_mem_singleton.mpr (valid.value value some).word⟩

/-- The entry of a group is printed on a line. -/
lemma NameValid.printable {name : String} (valid : NameValid name) {level : Nat} (lt : level < 100) :
    Printable [pad2 level, name] := by
  have pad := pad2_word lt
  exact ⟨⟨level, name, [], rfl, lt, valid.word.2⟩,
    List.forall_mem_cons.mpr ⟨⟨pad.1, pad.2.1⟩, List.forall_mem_singleton.mpr valid.word.1⟩⟩

/-- The entries of a data item are printed on lines. -/
lemma Node.Valid.printable {position : Position} (valid : position.node.Valid)
    (lt : position.level < 100) : ∀ words ∈ position.entries, Printable words := by
  rw [Position.entries]
  cases node : position.node with
  | elementary leaf =>
    rw [node] at valid
    exact List.forall_mem_cons.mpr ⟨Leaf.Valid.printable valid lt,
      List.forall_mem_map.mpr fun condition mem => (valid.conditions condition mem).printable⟩
  | group name conditions =>
    rw [node] at valid
    exact List.forall_mem_cons.mpr ⟨valid.1.printable lt,
      List.forall_mem_map.mpr fun condition mem => (valid.2 condition mem).printable⟩

end Words

section Conditions

variable [Unicode]

/-- A literal is no word of its clause. -/
lemma Literal.Valid.upper {literal : Literal} (valid : literal.Valid) :
    toUppercase literal.token ∉ ["IS", "ARE", "THRU", "THROUGH"] := by
  cases literal with
  | plain text => exact valid.2.2.2
  | quoted mark text =>
    have head : (toUppercase (token (.quoted mark text))).toList.head? = some mark := by
      have quote : mark = '\'' ∨ mark = '"' := by simpa using valid.1
      have ascii : mark.toNat < 128 ∧ mark.toUpper = mark := by
        obtain rfl | rfl := quote <;> decide
      rw [toUppercase, token, String.toList_ofList, String.toList_ofList, List.flatMap_cons,
        Unicode.toUppercase_ascii mark ascii.1, ascii.2]
      rfl
    have others : ∀ word ∈ ["IS", "ARE", "THRU", "THROUGH"],
        word.toList.head? ∉ ['\'', '"'].map some := by
      decide
    intro mem
    exact others _ mem (head ▸ List.mem_map_of_mem valid.1)

/-- A literal is read without its quotation marks. -/
lemma Literal.Valid.unquote {literal : Literal} (valid : literal.Valid) :
    unquote literal.token = literal.text := by
  cases literal with
  | quoted mark text =>
    have mark_mem : mark = '\'' ∨ mark = '"' := by simpa using valid.1
    have long : 2 ≤ (mark :: (text.toList ++ [mark])).length := by simp
    have last : (mark :: (text.toList ++ [mark])).getLast? = some mark := by simp [List.getLast?_cons]
    rw [Copybook.unquote, token, String.toList_ofList]
    simp only [List.head?_cons, if_pos (And.intro long (And.intro mark_mem last)), List.tail_cons,
      List.dropLast_concat, String.ofList_toList]
    rfl
  | plain text =>
    have head := valid.2.2.1
    simp only [List.mem_cons, List.not_mem_nil, or_false, not_or] at head
    rw [Copybook.unquote, token]
    cases first : text.toList.head? with
    | none => rfl
    | some quote =>
      rw [first, Option.some_inj, Option.some_inj] at head
      simp only [head, or_self, false_and, and_false, if_false]
      rfl

/-- The values of a level-88 entry are read one by one. -/
lemma conditionValues_words {name : String} {values : List Alternative} {acc : List ConditionValue}
    (low : ∀ value ∈ values, value.low.Valid)
    (high : ∀ value ∈ values, ∀ high ∈ value.high, high.Valid) (ne : acc ≠ [] ∨ values ≠ []) :
    conditionValues name acc false
        ((values.flatMap (·.words)).map fun token => (token, toUppercase token))
      = .ok (acc ++ values.map (·.declared)) := by
  induction values generalizing acc with
  | nil =>
    have some : ¬(false = true ∨ acc = []) := by simpa using ne
    rw [List.flatMap_nil, List.map_nil, conditionValues, if_neg some, List.map_nil, List.append_nil]
  | cons value values ih =>
    obtain ⟨lw, low⟩ := List.forall_mem_cons.mp low
    obtain ⟨hi, high⟩ := List.forall_mem_cons.mp high
    have first : conditionValues name acc false (paired ((value :: values).flatMap (·.words)))
        = conditionValues name (acc ++ [value.declared]) false (paired (values.flatMap (·.words))) := by
      rw [List.flatMap_cons, Alternative.words, Alternative.declared, List.cons_append,
        conditionValues_literal (isBound_iff.mpr lw.upper), if_neg Bool.false_ne_true, lw.unquote]
      cases some : value.high with
      | none => rfl
      | some literal =>
        have hi := hi literal some
        have thru : isThru "THRU" = true := by
          rw [isThru, (reserved_word (by decide)).2]
          rfl
        rw [Option.map_some, Option.getD_some, List.cons_append, List.singleton_append,
          conditionValues_thru thru, if_neg (by simp),
          conditionValues_literal (isBound_iff.mpr hi.upper), if_pos rfl, closeRange_concat,
          hi.unquote]
        rfl
    rw [paired, paired] at first
    rw [first, ih low high (.inl (by simp)), List.map_cons, List.append_assoc, List.singleton_append]

/-- A level-88 entry is parsed as what it says. -/
lemma parseItem_words {condition : Condition} (valid : condition.Valid) :
    parseItem condition.words = .ok (.condition condition.declared) := by
  have level : parseUnsigned (2 ^ 8) (toUppercase "88").toList = some 88 := by
    rw [(reserved_word (by decide)).2]
    decide
  have value : toUppercase "VALUE" ∈ ["VALUE", "VALUES"] := by
    rw [(reserved_word (by decide)).2]
    decide
  have parsed := @parseItem_condition _ "88" condition.name "VALUE" [] []
    (condition.values.flatMap (·.words)) level valid.name.keyword
    (fun _ mem => absurd mem List.not_mem_nil) value List.mem_cons_self
  rw [conditionValues_words valid.low valid.high (.inr valid.values_ne)] at parsed
  exact parsed

end Conditions

section Levels

mutual

/-- The levels of a tree lie between the level of its root and 49. -/
lemma Tree.positions_level (tree : Tree) {level : Nat} (le : level ≤ 49) (nested : tree.Nested level)
    (path : List String) :
    ∀ position ∈ tree.positions level path, level ≤ position.level ∧ position.level ≤ 49 := by
  cases tree with
  | elementary leaf => exact List.forall_mem_singleton.mpr ⟨le_rfl, le⟩
  | group name conditions below children =>
    obtain ⟨lt, most, _, all⟩ := nested
    refine List.forall_mem_cons.mpr ⟨⟨le_rfl, le⟩, fun position mem => ?_⟩
    have range := positionsOf_level children most all _ position mem
    exact ⟨lt.le.trans range.1, range.2⟩

/-- So do those of siblings. -/
lemma positionsOf_level (trees : List Tree) {level : Nat} (le : level ≤ 49)
    (nested : NestedAll level trees) (path : List String) :
    ∀ position ∈ positionsOf level path trees, level ≤ position.level ∧ position.level ≤ 49 := by
  cases trees with
  | nil => exact fun _ mem => absurd mem List.not_mem_nil
  | cons tree trees =>
    exact List.forall_mem_append.mpr ⟨tree.positions_level le nested.1 path,
      positionsOf_level trees le nested.2 path⟩

end

end Levels

section Items

variable [Unicode]

/-- The item of an elementary item at a level. -/
def Leaf.item (leaf : Leaf) (level : Nat) : Item where
  level := level
  name := leaf.name
  picture := some leaf.picture
  usage := leaf.storage
  occurs := leaf.occurs
  conditions := leaf.conditions.map (·.declared)

/-- The item of a group at a level. -/
def groupItem (name : String) (conditions : List Condition) (level : Nat) : Item where
  level := level
  name := some name
  picture := none
  usage := .display
  occurs := none
  conditions := conditions.map (·.declared)

/-- The item of a data item in its place. -/
def Position.item (position : Position) : Item :=
  match position.node with
  | .elementary leaf => leaf.item position.level
  | .group name conditions => groupItem name conditions position.level

omit [Unicode] in
lemma Position.item_level (position : Position) : position.item.level = position.level := by
  rw [item]
  cases position.node <;> rfl

omit [Unicode] in
lemma pad2_parse : ∀ level < 100, parseUnsigned (2 ^ 8) (pad2 level).toList = some level := by
  decide

/-- An entry is parsed from its name and its clauses. -/
lemma parseItem_entry {level : Nat} {words rest : List String} {name : Option String}
    {clauses : Clauses} (pos : 1 ≤ level) (le : level ≤ 49)
    (named : itemName (pad2 level :: words) = (name, rest))
    (parsed : parseClauses (name.getD "FILLER") {} (rest.map toUppercase) = .ok clauses) :
    parseItem (pad2 level :: words) = .ok (.item {
      level := level
      name := name
      picture := clauses.picture
      usage := clauses.usage.getD .display
      occurs := clauses.occurs
      conditions := [] }) := by
  have lt : level < 100 := by omega
  have lv : parseUnsigned (2 ^ 8) (toUppercase (pad2 level)).toList = some level := by
    rw [(pad2_word lt).2.2, pad2_parse level lt]
  have range : (1 ≤ level ∧ level ≤ 49) ∨ level = 77 := .inl ⟨pos, le⟩
  rw [parseItem_data (pad2 level :: words) lv range, named, parsed]
  rfl

/-- A group is parsed as an item with a name alone. -/
lemma parseItem_group {level : Nat} {name : String} (pos : 1 ≤ level) (le : level ≤ 49)
    (valid : NameValid name) :
    parseItem [pad2 level, name] = .ok (.item ⟨level, some name, none, .display, none, []⟩) := by
  have named : itemName [pad2 level, name] = (some name, []) := by
    simp [itemName, valid.keyword, valid.filler]
  have none : parseClauses name {} ([].map toUppercase) = .ok {} := parseClauses_nil
  exact parseItem_entry pos le named none

/-- The loop reads the usage of an elementary item. -/
lemma Leaf.Valid.usageWords {leaf : Leaf} (valid : leaf.Valid) {label : String}
    {picture : Option String} {rest : List String} :
    parseClauses label ⟨picture, none, none⟩ (leaf.usageWords.map toUppercase ++ rest)
      = parseClauses label ⟨picture, leaf.usage.bind fun usage => usageOf usage.word, none⟩ rest := by
  rw [Leaf.usageWords]
  cases some : leaf.usage with
  | none => rfl
  | some usage =>
    obtain ⟨intro', known⟩ := valid.usage usage some
    obtain ⟨stored, us⟩ := Option.isSome_iff_exists.mp known
    have keep : (usage.intro ++ [usage.word]).map toUppercase = usage.intro ++ [usage.word] := by
      rw [List.map_congr_left fun word mem => (reserved_word (usage_reserved intro' known word mem)).2,
        List.map_id']
    rw [Option.map_some, Option.getD_some, keep, List.append_assoc, Option.bind_some, us]
    exact parseClauses_usage intro' us

/-- Behind it the count. -/
lemma Leaf.Valid.occursWords {leaf : Leaf} (valid : leaf.Valid) {label : String}
    {picture : Option String} {usage : Option Usage} {rest : List String} :
    parseClauses label ⟨picture, usage, none⟩ (leaf.occursWords.map toUppercase ++ rest)
      = parseClauses label ⟨picture, usage, leaf.occurs⟩ rest := by
  rw [Leaf.occursWords]
  cases some : leaf.occurs with
  | none => rfl
  | some count =>
    obtain ⟨one, most⟩ := valid.occurs count some
    have parsed : parseUnsigned (2 ^ 32) (toString count).toList = Option.some count :=
      parseUnsigned_toString (lt_of_le_of_lt most (by decide))
    have keep : ["OCCURS", toString count].map toUppercase = ["OCCURS", toString count] := by
      rw [List.map_cons, List.map_singleton, (reserved_word (by decide)).2, (toString_word count).2]
    rw [Option.map_some, Option.getD_some, keep]
    exact parseClauses_occurs parsed one most

/-- And it stops at the value. -/
lemma parseClauses_valueWords (leaf : Leaf) {label : String} {acc : Clauses} :
    parseClauses label acc (leaf.valueWords.map toUppercase) = .ok acc := by
  rw [Leaf.valueWords]
  cases leaf.value with
  | none => rfl
  | some literal =>
    apply parseClauses_value
    rw [(reserved_word (by decide)).2]
    decide

/-- An elementary item is parsed with its clauses. -/
lemma parseItem_leaf {level : Nat} {leaf : Leaf} (pos : 1 ≤ level) (le : level ≤ 49)
    (valid : leaf.Valid) :
    parseItem (leaf.words level) = .ok (.item
      ⟨level, leaf.name, some leaf.picture, leaf.storage, leaf.occurs, []⟩) := by
  obtain ⟨shape, described, _⟩ := valid.shape
  have upper := (describe_word (Fallible.toOption_eq_some.mp described)).2
  have chars := (describe_chars (Fallible.toOption_eq_some.mp described)).2
  have isNot : leaf.picture ≠ "IS" := by
    intro eq
    rw [eq] at chars
    exact absurd (chars 'I' (by decide)) (by decide)
  have named : ∀ rest, itemName (pad2 level :: leaf.name.getD "FILLER" :: rest) = (leaf.name, rest) := by
    intro rest
    cases some : leaf.name with
    | none =>
      have kw : isClauseKeyword "FILLER" = false := by decide
      simp [itemName, (reserved_word (show "FILLER" ∈ reservedWords by decide)).2, kw]
    | some name =>
      have valid := valid.name name some
      simp [itemName, valid.keyword, valid.filler]
  have parsed : ∀ label, parseClauses label {}
      ((["PIC", leaf.picture] ++ leaf.usageWords ++ leaf.occursWords ++ leaf.valueWords).map
        toUppercase)
      = .ok ⟨some leaf.picture, leaf.usage.bind fun usage => usageOf usage.word, leaf.occurs⟩ := by
    intro label
    have first : parseClauses label {} ("PIC" :: leaf.picture :: (leaf.usageWords.map toUppercase
        ++ (leaf.occursWords.map toUppercase ++ leaf.valueWords.map toUppercase)))
        = parseClauses label ⟨some leaf.picture, none, none⟩ (leaf.usageWords.map toUppercase
          ++ (leaf.occursWords.map toUppercase ++ leaf.valueWords.map toUppercase)) :=
      @parseClauses_picture _ label "PIC" leaf.picture {} [] _ List.mem_cons_self List.mem_cons_self
        isNot
    rw [List.map_append, List.map_append, List.map_append, List.map_cons, List.map_singleton, upper,
      (reserved_word (by decide)).2, List.append_assoc, List.append_assoc]
    apply first.trans
    rw [valid.usageWords, valid.occursWords, parseClauses_valueWords]
  exact parseItem_entry pos le (named _) (parsed _)

/-- One statement is collected. -/
lemma collectItems_step {items next : List Item} {statement : Statement} {parsed : Parsed}
    (rest : List Statement) (hp : parseItem statement = .ok parsed)
    (hc : collect items parsed = .ok next) :
    collectItems items (statement :: rest) = collectItems next rest := by
  rw [collectItems, hp, Fallible.ok_bind, hc, Fallible.ok_bind]

/-- Level-88 entries are attached to the item in front of them. -/
lemma collectItems_conditions {items : List Item} {item : Item} {conditions : List Condition}
    (rest : List Statement) (valid : ∀ condition ∈ conditions, condition.Valid) :
    collectItems (items ++ [item]) (conditions.map (·.words) ++ rest)
      = collectItems
          (items ++ [{ item with conditions := item.conditions ++ conditions.map (·.declared) }]) rest := by
  induction conditions generalizing item with
  | nil => rw [List.map_nil, List.map_nil, List.nil_append, List.append_nil]
  | cons condition conditions ih =>
    obtain ⟨first, valid⟩ := List.forall_mem_cons.mp valid
    have attached : collect (items ++ [item]) (.condition condition.declared)
        = .ok (items ++ [{ item with conditions := item.conditions ++ [condition.declared] }]) :=
      attachCondition_ok.mpr ⟨items, item, rfl, rfl⟩
    rw [List.map_cons, List.cons_append, collectItems_step _ (parseItem_words first) attached, ih valid,
      List.append_assoc, List.singleton_append, List.map_cons]

/-- The entries of a data item are collected into it. -/
lemma collectItems_position {items : List Item} {position : Position} (rest : List Statement)
    (pos : 1 ≤ position.level) (le : position.level ≤ 49) (valid : position.node.Valid) :
    collectItems items (position.entries ++ rest) = collectItems (items ++ [position.item]) rest := by
  rw [Position.entries, Position.item]
  cases node : position.node with
  | elementary leaf =>
    rw [node] at valid
    have own : collect items (.item ⟨position.level, leaf.name, some leaf.picture, leaf.storage,
        leaf.occurs, []⟩) = .ok (items ++ [⟨position.level, leaf.name, some leaf.picture,
          leaf.storage, leaf.occurs, []⟩]) := rfl
    rw [List.cons_append, collectItems_step _ (parseItem_leaf pos le valid) own,
      collectItems_conditions rest valid.conditions]
    rfl
  | group name conditions =>
    rw [node] at valid
    have own : collect items (.item ⟨position.level, some name, none, .display, none, []⟩)
        = .ok (items ++ [⟨position.level, some name, none, .display, none, []⟩]) := rfl
    rw [List.cons_append, collectItems_step _ (parseItem_group pos le valid.1) own,
      collectItems_conditions rest valid.2]
    rfl

/-- The entries of data items are collected into them, in order. -/
lemma collectItems_positions {items : List Item} {positions : List Position}
    (levels : ∀ position ∈ positions, 1 ≤ position.level ∧ position.level ≤ 49)
    (valid : ∀ position ∈ positions, position.node.Valid) :
    collectItems items (positions.flatMap (·.entries)) = .ok (items ++ positions.map (·.item)) := by
  induction positions generalizing items with
  | nil => rw [List.flatMap_nil, List.map_nil, List.append_nil, collectItems]
  | cons position positions ih =>
    obtain ⟨⟨pos, le⟩, levels⟩ := List.forall_mem_cons.mp levels
    obtain ⟨first, valid⟩ := List.forall_mem_cons.mp valid
    rw [List.flatMap_cons, collectItems_position _ pos le first, ih levels valid, List.map_cons,
      List.append_assoc, List.singleton_append]

/-- The source of a tree is collected into its data items. -/
lemma Tree.Valid.collected {tree : Tree} (valid : tree.Valid) :
    statements tree.print = .ok (tree.all.flatMap (·.entries)) ∧
      collectItems [] (tree.all.flatMap (·.entries)) = .ok (tree.all.map (·.item)) := by
  have levels := tree.positions_level (by decide) valid.nested []
  refine ⟨statements_printed fun words mem => ?_, collectItems_positions levels valid.nodes⟩
  obtain ⟨position, has, mem⟩ := List.mem_flatMap.mp mem
  have range := levels position has
  exact (valid.nodes position has).printable (by omega) words mem

end Items

end GrpcEbcdic.Copybook

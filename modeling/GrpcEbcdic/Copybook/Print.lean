import GrpcEbcdic.Copybook.Lexemes
import GrpcEbcdic.Copybook.Tree

/-!
# Printed source is read back

The source that entries are printed as, through the lexer. A word is one token (`lexLine_word`), words
with single blanks and a period are one statement (`lexLine_words`), and a printed line is neither a
comment nor in the card format (`Printable.kept`), so the source is split into the entries
(`statements_printed`).
-/

namespace GrpcEbcdic.Copybook
open Rust

section Words

/-- A word does not begin with white space. -/
lemma isWord_head {c : Char} {cs : List Char} (word : isWord none (c :: cs) = true) :
    isWhitespace c = false := by
  rw [isWord] at word
  by_cases mark : c = '\'' ∨ c = '"'
  · obtain rfl | rfl := mark <;> rfl
  · rw [if_neg mark, Bool.and_eq_true, Bool.and_eq_true, Bool.not_eq_true'] at word
    exact word.1.1

/-- A word is on one line. -/
lemma isWord_line {mark : Option Char} {cs : List Char} (word : isWord mark cs = true) :
    '\n' ∉ cs := by
  induction cs generalizing mark with
  | nil => exact List.not_mem_nil
  | cons c cs ih =>
    rw [List.mem_cons, not_or]
    cases mark with
    | some open_ =>
      rw [isWord, Bool.and_eq_true, decide_eq_true_eq] at word
      exact ⟨word.1.symm, ih word.2⟩
    | none =>
      have head : c ≠ '\n' := by
        rintro rfl
        cases isWord_head word
      refine ⟨head.symm, ?_⟩
      rw [isWord] at word
      split at word
      · exact ih word
      · exact ih (Bool.and_eq_true_iff.mp word).2

/-- Plain characters are a word when none of them separates words, quotes or ends a sentence. -/
lemma isWord_plain {cs : List Char}
    (plain : ∀ c ∈ cs, isWhitespace c = false ∧ c ∉ ['\'', '"', '.']) : isWord none cs = true := by
  induction cs with
  | nil => rfl
  | cons c cs ih =>
    obtain ⟨⟨ws, no⟩, rest⟩ := List.forall_mem_cons.mp plain
    simp only [List.mem_cons, List.not_mem_nil, or_false, not_or] at no
    rw [isWord, if_neg (by simp [no]), ws, ih rest]
    simp [no]

/-- A word is taken into the token. -/
lemma lexemesFrom_word {mark : Option Char} {token word rest : List Char}
    (is_word : isWord mark word = true) :
    lexemesFrom id mark token (word ++ rest) = lexemesFrom id none (token ++ word) rest := by
  induction word generalizing mark token with
  | nil =>
    cases mark with
    | none => rw [List.nil_append, List.append_nil]
    | some _ => cases is_word
  | cons c word ih =>
    have shift : token ++ c :: word = token ++ [c] ++ word := by simp
    rw [List.cons_append, shift]
    cases mark with
    | some open_ =>
      rw [isWord, Bool.and_eq_true] at is_word
      rw [lexemesFrom_inside]
      exact ih is_word.2
    | none =>
      have dark : ¬isWhitespace (id c) = true := by
        rw [show isWhitespace (id c) = false from isWord_head is_word]
        exact Bool.false_ne_true
      rw [isWord] at is_word
      by_cases quotes : c = '\'' ∨ c = '"'
      · rw [if_pos quotes] at is_word
        have point : ¬(id c = '.' ∧ ((word ++ rest).head?.map id).all isWhitespace = true) := by
          rintro ⟨is_point, _⟩
          obtain rfl | rfl := quotes <;> cases is_point
        have opens : nextQuote none (id c) = some c := if_pos quotes
        rw [lexemesFrom_plain (f := id) token dark point, opens]
        exact ih is_word
      · rw [if_neg quotes, Bool.and_eq_true, Bool.and_eq_true] at is_word
        -- A period inside the word has the rest of the word behind it.
        have inside : ¬(id c = '.' ∧ ((word ++ rest).head?.map id).all isWhitespace = true) := by
          rintro ⟨point, all⟩
          cases word with
          | nil => simp [show c = '.' from point] at is_word
          | cons next word =>
            rw [List.cons_append, List.head?_cons, Option.map_some, Option.all_some, id_eq,
              isWord_head is_word.2] at all
            cases all
        have plain : nextQuote none (id c) = none := if_neg quotes
        rw [lexemesFrom_plain (f := id) token dark inside, plain]
        exact ih is_word.2

variable [Unicode]

/-- The lexer takes a word into the token it is reading. -/
lemma lexLine_word {context token cs rest : List Char} {mark : Option Char} {current : Statement}
    {out : List Statement} (word : isWord mark cs = true) :
    lexLine context mark token current out (cs ++ rest)
      = lexLine context none (token ++ cs) current out rest := by
  rw [lexLine_eq, lexLine_eq, lexemesFrom_word word]

omit [Unicode] in
/-- A token is added as it is, unless it is empty. -/
lemma pushToken_word {current : Statement} {word : String} (ne : word ≠ "") :
    pushToken current word.toList = current ++ [word] := by
  have some : word.toList.isEmpty = false := by simpa using ne
  rw [pushToken, some, if_neg Bool.false_ne_true, String.ofList_toList]

/-- Words with single blanks and a period are one statement. -/
lemma lexLine_words {context : List Char} {words : List String} (current : Statement)
    {out : List Statement} (ne : words ≠ [])
    (word : ∀ word ∈ words, isWord none word.toList = true ∧ word ≠ "") :
    lexLine context none [] current out ([' '].intercalate (words.map String.toList) ++ ['.'])
      = .ok (out ++ [current ++ words], []) := by
  induction words generalizing current with
  | nil => exact absurd rfl ne
  | cons first words ih =>
    obtain ⟨⟨fw, fne⟩, word⟩ := List.forall_mem_cons.mp word
    cases words with
    | nil =>
      have some : (current ++ [first]).isEmpty = false := by simp
      rw [List.map_singleton, List.intercalate_singleton, lexLine_word fw, List.nil_append, lexLine]
      simp only [if_neg (show ¬('.' = '\'' ∨ '.' = '"') by decide)]
      rw [pushToken_word fne, pushStatement, some, lexLine]
      rfl
    | cons second words =>
      have blank : ¬(' ' = '.' ∧ ([' '].intercalate ((second :: words).map String.toList)
          ++ ['.']).head?.all isWhitespace = true) := by simp
      have white : isWhitespace ' ' = true := rfl
      rw [List.map_cons, List.map_cons, List.intercalate_cons_cons, ← List.map_cons,
        List.append_assoc, List.append_assoc, lexLine_word fw, List.nil_append, List.singleton_append,
        lexLine]
      simp only [if_neg (show ¬(' ' = '\'' ∨ ' ' = '"') by decide), if_neg blank, white, if_true]
      rw [pushToken_word fne, ih _ (List.cons_ne_nil _ _) word, List.append_assoc,
        List.singleton_append]

end Words

section Lines

/-- The letters by number. -/
lemma isLetter_range {c : Char} (letter : isLetter c = true) :
    (65 ≤ c.toNat ∧ c.toNat ≤ 90) ∨ (97 ≤ c.toNat ∧ c.toNat ≤ 122) ∨
      (128 ≤ c.toNat ∧ isWhitespace c = false) := by
  rw [isLetter, Bool.or_eq_true, Bool.and_eq_true, decide_eq_true_eq, Bool.not_eq_true'] at letter
  rcases letter with alpha | beyond
  · rcases Bool.or_eq_true_iff.mp alpha with upper | lower
    · exact .inl (of_decide_eq_true upper)
    · obtain ⟨le, ge⟩ := Bool.and_eq_true_iff.mp lower
      exact .inr (.inl ⟨of_decide_eq_true le, of_decide_eq_true ge⟩)
  · exact .inr (.inr beyond)

/-- A letter is encoded with a first byte that is neither a digit nor a blank. -/
lemma letter_byte {c : Char} (letter : isLetter c = true) :
    ∃ byte bytes, String.utf8EncodeChar c = byte :: bytes ∧
      ¬((48 ≤ byte.toNat ∧ byte.toNat ≤ 57) ∨ byte.toNat = 32) := by
  have range := isLetter_range letter
  have val : c.val.toNat = c.toNat := rfl
  unfold String.utf8EncodeChar
  dsimp only
  split_ifs with one two three
  all_goals refine ⟨_, _, rfl, ?_⟩
  all_goals rw [UInt8.toNat_ofNat']
  all_goals omega

lemma pad2_digits : ∀ level < 100, (pad2 level).toList.length = 2 ∧
    (pad2 level).toList.all Char.isDigit = true := by
  decide

/-- An entry that is printed: a level, a word that begins with a letter, and other words. -/
structure Printable (words : Statement) : Prop where
  front : ∃ level second rest, words = pad2 level :: second :: rest ∧ level < 100 ∧
    second.toList.head?.any isLetter = true
  word : ∀ word ∈ words, isWord none word.toList = true ∧ word ≠ ""

lemma line_toList (words : Statement) :
    (line words).toList = [' '].intercalate (words.map String.toList) ++ ['.'] := by
  simp [line]

/-- A printed line begins with two digits, a blank and a letter. -/
lemma Printable.columns {words : Statement} (pr : Printable words) :
    ∃ tens units letter rest, (line words).toList = tens :: units :: ' ' :: letter :: rest ∧
      tens.isDigit = true ∧ units.isDigit = true ∧ isLetter letter = true := by
  obtain ⟨level, second, rest, rfl, lt, letter⟩ := pr.front
  obtain ⟨two, digits⟩ := pad2_digits level lt
  obtain ⟨tens, units, pad⟩ := List.length_eq_two.mp two
  obtain ⟨c, head, letter⟩ : ∃ c, second.toList.head? = some c ∧ isLetter c = true := by
    cases head : second.toList.head? with
    | none =>
      rw [head] at letter
      cases letter
    | some c =>
      rw [head] at letter
      exact ⟨c, rfl, letter⟩
  obtain ⟨cs, chars⟩ := List.head?_eq_some_iff.mp head
  rw [pad] at digits
  simp only [List.all_cons, List.all_nil, Bool.and_eq_true, and_true] at digits
  have behind : ∃ tail, [' '].intercalate (second.toList :: rest.map String.toList) = c :: tail := by
    rw [chars]
    cases rest with
    | nil => exact ⟨cs, List.intercalate_singleton⟩
    | cons third rest => exact ⟨_, List.intercalate_cons_cons⟩
  obtain ⟨tail, behind⟩ := behind
  refine ⟨tens, units, c, tail ++ ['.'], ?_, digits.1, digits.2, letter⟩
  rw [line_toList, List.map_cons, List.map_cons, List.intercalate_cons_cons, behind, pad]
  rfl

/-- A digit is encoded as one byte. -/
lemma digit_byte {c : Char} (digit : c.isDigit = true) : ∃ byte, String.utf8EncodeChar c = [byte] := by
  have val : c.val.toNat = c.toNat := rfl
  have range := isDigit_range digit
  exact ⟨_, if_pos (by omega)⟩

/-- A printed line is free-format source and no comment. -/
lemma Printable.kept {words : Statement} (pr : Printable words) :
    stripCardColumns (line words).toList = some (line words).toList := by
  obtain ⟨tens, units, letter, rest, eq, ten, unit, lt⟩ := pr.columns
  obtain ⟨t, ht⟩ := digit_byte ten
  obtain ⟨u, hu⟩ := digit_byte unit
  obtain ⟨byte, bytes, hb, not⟩ := letter_byte lt
  have range := isDigit_range ten
  have white : isWhitespace tens = false := by
    simp [isWhitespace]
    omega
  have comment : ¬(some tens = some '*' ∨ some tens = some '/') := by
    rw [Option.some_inj, Option.some_inj]
    rintro (rfl | rfl) <;> cases ten
  have free : fixedFormat ((tens :: units :: ' ' :: letter :: rest).flatMap String.utf8EncodeChar)
      = false := by
    rw [List.flatMap_cons, List.flatMap_cons, List.flatMap_cons, List.flatMap_cons, ht, hu, hb]
    simp only [fixedFormat, Bool.and_eq_false_iff, List.all_eq_false]
    refine .inl (.inr ⟨byte, ?_, ?_⟩)
    · exact List.mem_cons_of_mem _ (List.mem_cons_of_mem _ (List.mem_cons_of_mem _ List.mem_cons_self))
    · simpa using not
  have trimmed : trimStart (tens :: units :: ' ' :: letter :: rest)
      = tens :: units :: ' ' :: letter :: rest :=
    List.dropWhile_cons_of_neg (by rw [white]; exact Bool.false_ne_true)
  rw [eq, stripCardColumns, trimmed, List.head?_cons, if_neg comment]
  simp only [free, Bool.not_false, if_true]

/-- What is in none of some texts, nor between them, is not in their join. -/
lemma not_mem_intercalate {c : Char} {sep : List Char} {texts : List (List Char)} (hs : c ∉ sep)
    (ht : ∀ text ∈ texts, c ∉ text) : c ∉ sep.intercalate texts := by
  induction texts with
  | nil => exact List.not_mem_nil
  | cons text texts ih =>
    obtain ⟨first, ht⟩ := List.forall_mem_cons.mp ht
    cases texts with
    | nil =>
      rw [List.intercalate_singleton]
      exact first
    | cons next texts =>
      rw [List.intercalate_cons_cons, List.mem_append, List.mem_append, not_or, not_or]
      exact ⟨⟨first, hs⟩, ih ht⟩

variable [Unicode]

/-- Printed lines are a statement each. -/
lemma lexLines_printed {entries : List Statement} (out : List Statement)
    (pr : ∀ words ∈ entries, Printable words) :
    lexLines [] out (entries.map fun words => (line words).toList) = .ok (out ++ entries, []) := by
  induction entries generalizing out with
  | nil => rw [List.map_nil, lexLines, List.append_nil]
  | cons words entries ih =>
    obtain ⟨first, pr⟩ := List.forall_mem_cons.mp pr
    have ne : words ≠ [] := by
      rintro rfl
      obtain ⟨_, _, _, none, _⟩ := first.front
      cases none
    have lexed : lexLine (line words).toList none [] [] out (line words).toList
        = .ok (out ++ [words], []) := by
      conv_lhs => rw [line_toList]
      exact lexLine_words [] ne first.word
    rw [List.map_cons, lexLines, first.kept]
    simp only [lexed]
    rw [ih _ pr, List.append_assoc, List.singleton_append]

/-- The source printed from some entries is split into these entries. -/
lemma statements_printed {entries : List Statement} (pr : ∀ words ∈ entries, Printable words) :
    statements ("\n".intercalate (entries.map line)) = .ok entries := by
  have texts : ("\n".intercalate (entries.map line)).toList
      = ['\n'].intercalate (entries.map fun words => (line words).toList) := by
    rw [String.toList_intercalate, List.map_map]
    rfl
  have split : lines ("\n".intercalate (entries.map line)).toList
      = entries.map fun words => (line words).toList := by
    rw [texts]
    refine lines_intercalate (List.forall_mem_map.mpr fun words mem => ?_)
      (List.forall_mem_map.mpr fun words mem => ?_)
    · have one : ∀ text ∈ words.map String.toList, '\n' ∉ text :=
        List.forall_mem_map.mpr fun word has => isWord_line ((pr words mem).word word has).1
      rw [line_toList, List.mem_append, not_or]
      exact ⟨not_mem_intercalate (by decide) one, by decide⟩
    · rw [line_toList]
      simp
  rw [statements, split, lexLines_printed [] pr]
  rfl

end Lines

end GrpcEbcdic.Copybook

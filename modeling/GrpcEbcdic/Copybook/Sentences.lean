import GrpcEbcdic.Copybook.Print

/-!
# Sentences

The code of a source as one text. Its lexemes are those of its lines (`codeText_lexemes`), so words that
stand in it with white space between them and a period behind are one statement, wherever the lines
break (`statements_sentence`).
-/

namespace GrpcEbcdic.Copybook
open Rust

/-- The code of a source, line by line. -/
def codeText (source : String) : List Char := (codeLines source).flatMap (· ++ ['\n'])

/-- A word and the white space behind it. -/
structure Placed where
  word : String
  blanks : List Char

/-- A word with its white space as written. -/
def Placed.text (placed : Placed) : List Char := placed.word.toList ++ placed.blanks

/-- Words that are told apart: all but the last have white space behind them. -/
structure Spaced (sentence : List Placed) : Prop where
  words : ∀ placed ∈ sentence, isWord none placed.word.toList = true ∧ placed.word ≠ ""
  white : ∀ placed ∈ sentence, ∀ c ∈ placed.blanks, isWhitespace c = true
  apart : ∀ placed ∈ sentence.dropLast, placed.blanks ≠ []

/-- Words with a period behind them stand in the code of a source as a sentence: what is in front ends
a sentence or is nothing. -/
def Stands (source : String) (sentence : List Placed) : Prop :=
  ∃ before after pieces, codeText source = before ++ (sentence.flatMap Placed.text ++ '.' :: after) ∧
    lexemes before = some pieces ∧ (∀ piece ∈ pieces.getLast?, piece = .stop) ∧
    before.getLast?.all isWhitespace = true ∧ after.head?.all isWhitespace = true

section Texts

/-- What is split in front of white space is split alone. -/
lemma lexemesFrom_front {quote : Option Char} {token front : List Char} (rest : List Char)
    {pieces : List (Lexeme Char)} (split : lexemesFrom id quote token front = some pieces)
    (white : rest.head?.all isWhitespace = true) :
    lexemesFrom id quote token (front ++ rest)
      = (lexemesFrom id none [] rest).map fun lexemes => pieces ++ lexemes := by
  induction front generalizing quote token pieces with
  | nil =>
    rw [lexemesFrom] at split
    split at split
    · next closed =>
      cases split
      rw [closed, List.nil_append]
      cases rest with
      | nil => simp [lexemesFrom, flush]
      | cons c rest =>
        rw [lexemesFrom_white (f := id) token rest white, lexemesFrom_white (f := id) [] rest white,
          Option.map_map]
        rfl
    · cases split
  | cons c front ih =>
    have next : ((front ++ rest).head?.map id).all isWhitespace = (front.head?.map id).all isWhitespace := by
      cases front with
      | nil =>
        rw [List.nil_append, Option.map_id]
        exact white
      | cons d front => rfl
    rw [lexemesFrom] at split
    rw [List.cons_append, lexemesFrom, next]
    by_cases point : quote = none ∧ id c = '.' ∧ (front.head?.map id).all isWhitespace = true
    · rw [if_pos point] at split ⊢
      obtain ⟨own, behind, rfl⟩ := Option.map_eq_some_iff.mp split
      rw [ih behind, Option.map_map]
      simp [Function.comp_def]
    · rw [if_neg point] at split ⊢
      by_cases blank : quote = none ∧ isWhitespace (id c) = true
      · rw [if_pos blank] at split ⊢
        obtain ⟨own, behind, rfl⟩ := Option.map_eq_some_iff.mp split
        rw [ih behind, Option.map_map]
        simp [Function.comp_def]
      · rw [if_neg blank] at split ⊢
        exact ih split

/-- So is what ends in white space. -/
lemma lexemes_front {front rest : List Char} {pieces : List (Lexeme Char)}
    (split : lexemes front = some pieces) (white : front.getLast?.all isWhitespace = true) :
    lexemesFrom id none [] (front ++ rest)
      = (lexemesFrom id none [] rest).map fun lexemes => pieces ++ lexemes := by
  rcases List.eq_nil_or_concat front with rfl | ⟨front, c, rfl⟩
  · cases split
    simp [flush]
  · rw [List.concat_eq_append, List.getLast?_concat, Option.all_some] at white
    have own : lexemesFrom id none [] front = some pieces := by
      rw [List.concat_eq_append, lexemes,
        lexemesFrom_trailing (f := id) [] front (fun d mem => by cases mem)
          (List.forall_mem_singleton.mpr white)] at split
      exact split
    rw [List.concat_eq_append, List.append_assoc, List.singleton_append,
      lexemesFrom_front (c :: rest) own white, lexemesFrom_white (f := id) (a := c) [] rest white,
      Option.map_map]
    rfl

/-- Words that are told apart are read one by one, and the period ends them. -/
lemma Spaced.split {sentence : List Placed} {rest : List Char} (spaced : Spaced sentence)
    (white : rest.head?.all isWhitespace = true) :
    lexemesFrom id none [] (sentence.flatMap Placed.text ++ '.' :: rest)
      = (lexemesFrom id none [] rest).map fun lexemes =>
        sentence.map (fun placed => .word placed.word.toList) ++ .stop :: lexemes := by
  have point : ∀ token, lexemesFrom id none token ('.' :: rest)
      = (lexemesFrom id none [] rest).map fun lexemes => flush token ++ .stop :: lexemes := fun token =>
    lexemesFrom_point (f := id) token rfl (by rw [Option.map_id]; exact white)
  induction sentence with
  | nil => exact point []
  | cons placed sentence ih =>
    obtain ⟨⟨word, ne⟩, words⟩ := List.forall_mem_cons.mp spaced.words
    obtain ⟨blank, whites⟩ := List.forall_mem_cons.mp spaced.white
    have token : flush placed.word.toList = [.word placed.word.toList] := by
      rw [flush, if_neg (by simpa using ne)]
    rw [List.flatMap_cons, Placed.text, List.append_assoc, List.append_assoc, lexemesFrom_word word,
      List.nil_append]
    by_cases none : placed.blanks = []
    · -- Only the last word may be without white space behind it.
      have only : sentence = [] := by
        by_contra some
        obtain ⟨next, sentence, rfl⟩ := List.exists_cons_of_ne_nil some
        exact spaced.apart placed List.mem_cons_self none
      subst only
      rw [none, List.nil_append, List.flatMap_nil, List.nil_append, point, token]
      rfl
    · have behind : Spaced sentence := by
        refine ⟨words, whites, fun next mem => spaced.apart next ?_⟩
        cases sentence with
        | nil => cases mem
        | cons first sentence => exact List.mem_cons_of_mem _ mem
      rw [lexemesFrom_run (f := id) _ _ none blank, ih behind, Option.map_map, token]
      rfl

/-- The lexemes of a text of code are those of its lines. -/
lemma codeText_lexemes {code : List (List Char)} (closed : ∀ line ∈ code, Closed line) :
    lexemesFrom id none [] (code.flatMap (· ++ ['\n'])) = some (codeLexemes code) := by
  induction code with
  | nil => rfl
  | cons line code ih =>
    obtain ⟨first, closed⟩ := List.forall_mem_cons.mp closed
    obtain ⟨own, split⟩ := Option.isSome_iff_exists.mp (lexemes_isSome.mpr first)
    have white : isWhitespace '\n' = true := rfl
    rw [List.flatMap_cons, List.append_assoc, List.singleton_append,
      lexemesFrom_front ('\n' :: code.flatMap (· ++ ['\n'])) split white,
      lexemesFrom_white (f := id) (a := '\n') [] _ white, ih closed, codeLexemes, codeLexemes, List.flatMap_cons,
      split]
    rfl

end Texts

section Reading

/-- Words go on with the sentence. -/
lemma foldl_readLexeme_words (state : List Statement × Statement) (words : List (List Char)) :
    (words.map Lexeme.word).foldl readLexeme state = (state.1, state.2 ++ words.map String.ofList) := by
  induction words generalizing state with
  | nil => rw [List.map_nil, List.map_nil, List.append_nil]; rfl
  | cons word words ih =>
    rw [List.map_cons, List.foldl_cons, ih, readLexeme, List.map_cons, List.append_assoc,
      List.singleton_append]

/-- Statements that are read stay. -/
lemma foldl_readLexeme_front (state : List Statement × Statement) (pieces : List (Lexeme Char)) :
    ∃ rest, (pieces.foldl readLexeme state).1 = state.1 ++ rest := by
  induction pieces generalizing state with
  | nil => exact ⟨[], (List.append_nil _).symm⟩
  | cons piece pieces ih =>
    obtain ⟨rest, eq⟩ := ih (readLexeme state piece)
    rw [List.foldl_cons, eq]
    cases piece with
    | word cells => exact ⟨rest, rfl⟩
    | stop =>
      rw [readLexeme, pushStatement]
      split
      · exact ⟨rest, rfl⟩
      · exact ⟨state.2 :: rest, by rw [List.append_assoc, List.singleton_append]⟩

/-- Behind a period no sentence is open. -/
lemma foldl_readLexeme_stop {out : List Statement} {pieces : List (Lexeme Char)}
    (last : ∀ piece ∈ pieces.getLast?, piece = .stop) :
    (pieces.foldl readLexeme (out, [])).2 = [] := by
  rcases List.eq_nil_or_concat pieces with rfl | ⟨pieces, piece, rfl⟩
  · rfl
  · rw [List.concat_eq_append] at last ⊢
    have stop := last piece (by rw [List.getLast?_concat]; rfl)
    rw [stop, List.foldl_append]
    rfl

variable [Unicode]

/-- A sentence in the code of a source is one of its statements. -/
lemma statements_sentence {source : String} {sentence : List Placed} {stmts : List Statement}
    (spaced : Spaced sentence) (ne : sentence ≠ []) (stands : Stands source sentence)
    (ok : statements source = .ok stmts) :
    ∃ front rest, stmts = front ++ sentence.map (·.word) :: rest := by
  obtain ⟨closed, read⟩ := statements_ok.mp ok
  obtain ⟨before, after, pieces, text, split, last, white, behind⟩ := stands
  have all := codeText_lexemes closed
  rw [← codeText, text, lexemes_front split white, spaced.split behind, Option.map_map] at all
  obtain ⟨tail, _, eq⟩ := Option.map_eq_some_iff.mp all
  have words : sentence.map (fun placed => Lexeme.word placed.word.toList)
      = (sentence.map fun placed => placed.word.toList).map .word := by rw [List.map_map]; rfl
  have back : (sentence.map fun placed => placed.word.toList).map String.ofList
      = sentence.map (·.word) := by simp [List.map_map, Function.comp_def]
  rw [← eq] at read
  dsimp only [Function.comp_apply] at read
  rw [words, List.foldl_append, List.foldl_append, foldl_readLexeme_words, List.foldl_cons,
    foldl_readLexeme_stop last, List.nil_append, back] at read
  -- What is behind the period only adds to the statements.
  obtain ⟨rest, grown⟩ := foldl_readLexeme_front
    (readLexeme ((pieces.foldl readLexeme ([], [])).1, sentence.map (·.word)) .stop) tail
  have some : (sentence.map (·.word)).isEmpty = false := by simpa using ne
  rw [read, readLexeme, pushStatement, some, if_neg Bool.false_ne_true, List.append_assoc,
    List.singleton_append] at grown
  exact ⟨_, rest, grown⟩

end Reading

end GrpcEbcdic.Copybook

import GrpcEbcdic.Copybook.Compile
import Mathlib.Data.List.Forall2

/-!
# The lexemes of copybook code

The tokenizer line by line: what a line of code is split into (`lexemesFrom`) does not depend on the
statements before it, so the statements are the lexemes of all lines put together (`lexLine_eq`,
`lexLines_ok`). The characters may carry more than themselves, such as the place they come from: the
split commutes with forgetting it (`lexemesFrom_map`). Spacing that is not in a literal is no part of
any lexeme.
-/

namespace GrpcEbcdic.Copybook
open Rust

/-- A piece of code: a token, or a period that ends a sentence. -/
inductive Lexeme (α : Type*) where
  | word (cells : List α)
  | stop
deriving DecidableEq

namespace Lexeme

variable {α β : Type*}

/-- The lexeme of other characters. -/
def map (g : α → β) : Lexeme α → Lexeme β
  | word cells => word (cells.map g)
  | stop => stop

/-- The characters of a token. -/
def cells : Lexeme α → Option (List α)
  | word cells => some cells
  | stop => none

end Lexeme

/-- The open quotation mark behind a character. -/
def nextQuote (quote : Option Char) (c : Char) : Option Char :=
  match quote with
  | some mark => if c = mark then none else some mark
  | none => if c = '\'' ∨ c = '"' then some c else none

/-- The literals of a line end on it. -/
def Closed (line : List Char) : Prop := line.foldl nextQuote none = none

instance (line : List Char) : Decidable (Closed line) := inferInstanceAs (Decidable (_ = _))

section Split

variable {α β : Type*}

/-- The token that has been read, if there is one. -/
def flush (token : List α) : List (Lexeme α) := if token.isEmpty then [] else [.word token]

/-- Split the rest of a line; there are no lexemes when a literal stays open. -/
def lexemesFrom (f : α → Char) (quote : Option Char) (token : List α) :
    List α → Option (List (Lexeme α))
  | [] => if quote = none then some (flush token) else none
  | a :: line =>
    if quote = none ∧ f a = '.' ∧ (line.head?.map f).all isWhitespace then
      (lexemesFrom f none [] line).map fun lexemes => flush token ++ .stop :: lexemes
    else if quote = none ∧ isWhitespace (f a) then
      (lexemesFrom f none [] line).map fun lexemes => flush token ++ lexemes
    else lexemesFrom f (nextQuote quote (f a)) (token ++ [a]) line

/-- The lexemes of a line of code. -/
def lexemes (line : List Char) : Option (List (Lexeme Char)) := lexemesFrom id none [] line

lemma flush_map (g : α → β) (token : List α) :
    flush (token.map g) = (flush token).map (Lexeme.map g) := by
  cases token <;> rfl

/-- The split sees the characters only. -/
lemma lexemesFrom_map (f : β → Char) (g : α → β) {quote : Option Char} (token line : List α) :
    lexemesFrom f quote (token.map g) (line.map g)
      = (lexemesFrom (f ∘ g) quote token line).map (List.map (Lexeme.map g)) := by
  induction line generalizing quote token with
  | nil =>
    rw [List.map_nil, lexemesFrom, lexemesFrom, flush_map]
    split <;> rfl
  | cons a line ih =>
    have next : (line.map g).head?.map f = line.head?.map (f ∘ g) := by
      rw [List.head?_map, Option.map_map]
    have rest : lexemesFrom f none [] (line.map g)
        = (lexemesFrom (f ∘ g) none [] line).map (List.map (Lexeme.map g)) := ih []
    rw [List.map_cons, lexemesFrom, lexemesFrom, next, Function.comp_apply]
    by_cases point : quote = none ∧ f (g a) = '.' ∧ (line.head?.map (f ∘ g)).all isWhitespace
    · rw [if_pos point, if_pos point, rest, Option.map_map, Option.map_map]
      refine congrArg (Option.map · _) (funext fun lexemes => ?_)
      simp [flush_map, Lexeme.map]
    · rw [if_neg point, if_neg point]
      by_cases white : quote = none ∧ isWhitespace (f (g a)) = true
      · rw [if_pos white, if_pos white, rest, Option.map_map, Option.map_map]
        refine congrArg (Option.map · _) (funext fun lexemes => ?_)
        simp [flush_map]
      · rw [if_neg white, if_neg white, ← ih, List.map_append]
        rfl

/-- A line has lexemes when its literals are closed. -/
lemma lexemesFrom_isSome {f : α → Char} {quote : Option Char} (token line : List α) :
    (lexemesFrom f quote token line).isSome = true ↔ (line.map f).foldl nextQuote quote = none := by
  induction line generalizing quote token with
  | nil =>
    rw [lexemesFrom, List.map_nil, List.foldl_nil]
    split <;> simp [*]
  | cons a line ih =>
    rw [lexemesFrom, List.map_cons, List.foldl_cons]
    split
    · next point =>
      have outside : nextQuote quote (f a) = none := by
        rw [point.1, point.2.1]
        rfl
      rw [Option.isSome_map, ih, outside]
    · split
      · next white =>
        have outside : nextQuote quote (f a) = none := by
          rw [white.1, nextQuote, if_neg]
          rintro (mark | mark) <;> simp [mark] at white <;> exact absurd white.2 (by decide)
        rw [Option.isSome_map, ih, outside]
      · exact ih _

lemma lexemes_isSome {line : List Char} : (lexemes line).isSome = true ↔ Closed line := by
  rw [lexemes, lexemesFrom_isSome, List.map_id, Closed]

/-- No white space is a quotation mark or a period. -/
lemma white_plain {c : Char} (white : isWhitespace c = true) : c ≠ '\'' ∧ c ≠ '"' ∧ c ≠ '.' := by
  refine ⟨?_, ?_, ?_⟩
  all_goals
    rintro rfl
    exact absurd white (by decide)

/-- Inside a literal every character belongs to the token. -/
lemma lexemesFrom_inside {f : α → Char} {mark : Char} {a : α} (token line : List α) :
    lexemesFrom f (some mark) token (a :: line)
      = lexemesFrom f (nextQuote (some mark) (f a)) (token ++ [a]) line := by
  rw [lexemesFrom, if_neg (fun all => Option.some_ne_none mark all.1),
    if_neg (fun all => Option.some_ne_none mark all.1)]

/-- White space outside a literal ends the token before it. -/
lemma lexemesFrom_white {f : α → Char} {a : α} (token line : List α)
    (white : isWhitespace (f a) = true) :
    lexemesFrom f none token (a :: line)
      = (lexemesFrom f none [] line).map fun lexemes => flush token ++ lexemes := by
  rw [lexemesFrom, if_neg fun point => (white_plain white).2.2 point.2.1, if_pos ⟨rfl, white⟩]

/-- A period with white space behind it ends the token and the sentence. -/
lemma lexemesFrom_point {f : α → Char} {a : α} (token : List α) {line : List α} (point : f a = '.')
    (last : (line.head?.map f).all isWhitespace = true) :
    lexemesFrom f none token (a :: line)
      = (lexemesFrom f none [] line).map fun lexemes => flush token ++ .stop :: lexemes := by
  rw [lexemesFrom, if_pos ⟨rfl, point, last⟩]

/-- Everything else belongs to the token. -/
lemma lexemesFrom_plain {f : α → Char} {a : α} (token : List α) {line : List α}
    (white : ¬isWhitespace (f a) = true)
    (point : ¬(f a = '.' ∧ (line.head?.map f).all isWhitespace = true)) :
    lexemesFrom f none token (a :: line)
      = lexemesFrom f (nextQuote none (f a)) (token ++ [a]) line := by
  rw [lexemesFrom, if_neg fun all => point all.2, if_neg fun all => white all.2]

/-- So does any run of it. -/
lemma lexemesFrom_run {f : α → Char} {run : List α} (token line : List α) (ne : run ≠ [])
    (white : ∀ a ∈ run, isWhitespace (f a) = true) :
    lexemesFrom f none token (run ++ line)
      = (lexemesFrom f none [] line).map fun lexemes => flush token ++ lexemes := by
  induction run generalizing token with
  | nil => exact absurd rfl ne
  | cons a run ih =>
    obtain ⟨first, white⟩ := List.forall_mem_cons.mp white
    rw [List.cons_append, lexemesFrom_white token _ first]
    cases run with
    | nil => rw [List.nil_append]
    | cons b run =>
      rw [ih [] (List.cons_ne_nil _ _) white, Option.map_map]
      rfl

/-- No white space closes a literal. -/
lemma foldl_nextQuote_white {mark : Char} {run : List Char} (plain : isWhitespace mark = false)
    (white : ∀ c ∈ run, isWhitespace c = true) : run.foldl nextQuote (some mark) = some mark := by
  induction run with
  | nil => rfl
  | cons c run ih =>
    obtain ⟨first, white⟩ := List.forall_mem_cons.mp white
    have other : c ≠ mark := by
      rintro rfl
      rw [plain] at first
      cases first
    rw [List.foldl_cons, nextQuote, if_neg other, ih white]

/-- No white space opens one either. -/
lemma nextQuote_plain {quote : Option Char} (c : Char) (mark : ∀ c ∈ quote, isWhitespace c = false) :
    ∀ d ∈ nextQuote quote c, isWhitespace d = false := by
  cases quote with
  | some open_ =>
    rw [nextQuote]
    split
    · exact fun d mem => by cases mem
    · exact mark
  | none =>
    rw [nextQuote]
    split
    · next quotes =>
      rintro d ⟨⟩
      obtain rfl | rfl := quotes <;> rfl
    · exact fun d mem => by cases mem

/-- White space at the end of a line is no part of it. -/
lemma lexemesFrom_trailing {f : α → Char} {quote : Option Char} {run : List α} (token line : List α)
    (mark : ∀ c ∈ quote, isWhitespace c = false) (white : ∀ a ∈ run, isWhitespace (f a) = true) :
    lexemesFrom f quote token (line ++ run) = lexemesFrom f quote token line := by
  induction line generalizing quote token with
  | nil =>
    rw [List.nil_append]
    cases quote with
    | none =>
      cases run with
      | nil => rfl
      | cons a run =>
        have rest := @lexemesFrom_run _ f (a :: run) token [] (List.cons_ne_nil _ _) white
        rw [List.append_nil] at rest
        rw [rest, lexemesFrom, lexemesFrom, if_pos rfl, if_pos rfl]
        simp [flush]
    | some c =>
      have open_ : lexemesFrom f (some c) token run = none := by
        rw [← Option.not_isSome_iff_eq_none, lexemesFrom_isSome,
          foldl_nextQuote_white (mark c rfl) (List.forall_mem_map.mpr white)]
        exact Option.some_ne_none c
      rw [open_, lexemesFrom, if_neg (Option.some_ne_none c)]
  | cons a line ih =>
    have next : ((line ++ run).head?.map f).all isWhitespace = (line.head?.map f).all isWhitespace := by
      cases line with
      | nil =>
        cases run with
        | nil => rfl
        | cons b run => exact white b List.mem_cons_self
      | cons b line => rfl
    rw [List.cons_append, lexemesFrom, lexemesFrom, next, @ih none [] (fun c mem => by cases mem),
      ih _ (nextQuote_plain _ mark)]

end Split

section Statements

variable [Unicode]

/-- The refusal of a line with an open literal. -/
def unterminated (line : List Char) : ParseError :=
  .invalid s!"unterminated literal in copybook line {debug (String.ofList line)}"

omit [Unicode] in
/-- One lexeme more, behind finished statements and an open one. -/
def readLexeme (state : List Statement × Statement) : Lexeme Char → List Statement × Statement
  | .word cells => (state.1, state.2 ++ [String.ofList cells])
  | .stop => (pushStatement state.1 state.2, [])

/-- The lines of code of a source. -/
def codeLines (source : String) : List (List Char) := (lines source.toList).filterMap stripCardColumns

/-- Read lines of code behind finished statements and an open one. -/
def readCode (state : List Statement × Statement) :
    List (List Char) → Except ParseError (List Statement × Statement)
  | [] => .ok state
  | line :: code =>
    match lexemes line with
    | none => .error (unterminated line)
    | some lexemes => readCode (lexemes.foldl readLexeme state) code

omit [Unicode] in
lemma foldl_flush (state : List Statement × Statement) (token : List Char) :
    (flush token).foldl readLexeme state = (state.1, pushToken state.2 token) := by
  cases token <;> rfl

/-- A line is read lexeme by lexeme. -/
lemma lexLine_eq {line : List Char} {quote : Option Char} (token : List Char) (current : Statement)
    (out : List Statement) (chars : List Char) :
    lexLine line quote token current out chars
      = match lexemesFrom id quote token chars with
        | none => .error (unterminated line)
        | some lexemes => .ok (lexemes.foldl readLexeme (out, current)) := by
  induction chars generalizing quote token current out with
  | nil =>
    cases quote with
    | none => simp [lexLine, lexemesFrom, foldl_flush]
    | some _ => simp [lexLine, lexemesFrom, unterminated]
  | cons c chars ih =>
    cases quote with
    | some mark =>
      rw [lexLine, lexemesFrom_inside]
      exact ih _ _ _
    | none =>
      rw [lexLine]
      by_cases opens : c = '\'' ∨ c = '"'
      · -- A quotation mark is neither a period nor white space.
        have not_point : ¬c = '.' := by obtain rfl | rfl := opens <;> decide
        have not_white : ¬isWhitespace c = true := fun white =>
          opens.elim (white_plain white).1 (white_plain white).2.1
        have mark : nextQuote none (id c) = some c := if_pos opens
        rw [lexemesFrom_plain (f := id) token not_white fun point => not_point point.1, mark, ← ih]
        exact if_pos opens
      · have plain : nextQuote none (id c) = none := if_neg opens
        apply (if_neg opens).trans
        by_cases point : c = '.' ∧ chars.head?.all isWhitespace = true
        · have last : (chars.head?.map id).all isWhitespace = true := by
            rw [Option.map_id]
            exact point.2
          rw [if_pos point, lexemesFrom_point (f := id) token point.1 last, ih]
          cases lexemesFrom id none [] chars with
          | none => rfl
          | some lexemes => simp [foldl_flush, readLexeme]
        · rw [if_neg point]
          by_cases white : isWhitespace c = true
          · rw [if_pos white, lexemesFrom_white (f := id) token chars white, ih]
            cases lexemesFrom id none [] chars with
            | none => rfl
            | some lexemes => simp [foldl_flush]
          · have inside : ¬(id c = '.' ∧ (chars.head?.map id).all isWhitespace = true) := by
              rw [Option.map_id]
              exact point
            rw [if_neg white, lexemesFrom_plain (f := id) token white inside, plain, ih]

/-- The tokenizer reads the lines of code. -/
lemma lexLines_eq (current : Statement) (out : List Statement) (raws : List (List Char)) :
    lexLines current out raws = readCode (out, current) (raws.filterMap stripCardColumns) := by
  induction raws generalizing current out with
  | nil => rfl
  | cons raw raws ih =>
    rw [lexLines]
    cases kept : stripCardColumns raw with
    | none => rw [List.filterMap_cons_none kept, ih]
    | some line =>
      rw [List.filterMap_cons_some kept, readCode]
      simp only [lexLine_eq]
      rw [← lexemes]
      cases lexemes line with
      | none => rfl
      | some lexemes => exact ih _ _

/-- The lexemes of lines whose literals are closed. -/
def codeLexemes (code : List (List Char)) : List (Lexeme Char) :=
  code.flatMap fun line => (lexemes line).getD []

/-- Lines whose literals are closed are read lexeme by lexeme. -/
lemma readCode_closed {state : List Statement × Statement} {code : List (List Char)}
    (closed : ∀ line ∈ code, Closed line) :
    readCode state code = .ok ((codeLexemes code).foldl readLexeme state) := by
  induction code generalizing state with
  | nil => rfl
  | cons line code ih =>
    obtain ⟨first, closed⟩ := List.forall_mem_cons.mp closed
    obtain ⟨own, split⟩ := Option.isSome_iff_exists.mp (lexemes_isSome.mpr first)
    rw [readCode, codeLexemes, List.flatMap_cons, split, List.foldl_append]
    exact ih closed

/-- Others are refused for the first literal that stays open. -/
lemma readCode_open {state : List Statement × Statement} {code : List (List Char)}
    (open_ : ¬∀ line ∈ code, Closed line) :
    ∃ before line after, code = before ++ line :: after ∧ (∀ line ∈ before, Closed line) ∧
      ¬Closed line ∧ readCode state code = .error (unterminated line) := by
  induction code generalizing state with
  | nil => exact absurd (fun line mem => absurd mem List.not_mem_nil) open_
  | cons line code ih =>
    by_cases first : Closed line
    · have rest : ¬∀ line ∈ code, Closed line := fun all =>
        open_ (List.forall_mem_cons.mpr ⟨first, all⟩)
      obtain ⟨own, split⟩ := Option.isSome_iff_exists.mp (lexemes_isSome.mpr first)
      obtain ⟨before, bad, after, rfl, closed, not, refused⟩ := @ih (own.foldl readLexeme state) rest
      refine ⟨line :: before, bad, after, rfl, List.forall_mem_cons.mpr ⟨first, closed⟩, not, ?_⟩
      rw [readCode, split]
      exact refused
    · refine ⟨[], line, code, rfl, fun line mem => absurd mem List.not_mem_nil, first, ?_⟩
      have none : lexemes line = none := by
        rw [← Option.not_isSome_iff_eq_none, lexemes_isSome]
        exact first
      rw [readCode, none]

/-- A source is split into statements when the literals of its code are closed and its last sentence
ends. -/
lemma statements_ok {source : String} {stmts : List Statement} :
    statements source = .ok stmts ↔ (∀ line ∈ codeLines source, Closed line) ∧
      (codeLexemes (codeLines source)).foldl readLexeme ([], []) = (stmts, []) := by
  rw [statements, lexLines_eq, ← codeLines]
  by_cases closed : ∀ line ∈ codeLines source, Closed line
  · rw [readCode_closed closed]
    refine Iff.trans ?_ (and_iff_right closed).symm
    cases (codeLexemes (codeLines source)).foldl readLexeme ([], []) with
    | mk out current => cases current <;> simp
  · obtain ⟨before, line, after, _, _, _, refused⟩ := readCode_open closed
    rw [refused]
    refine ⟨fun eq => ?_, fun all => absurd all.1 closed⟩
    cases eq

omit [Unicode] in
/-- Sentences that are read are not empty. -/
lemma foldl_readLexeme_ne {state : List Statement × Statement} {pieces : List (Lexeme Char)}
    (ne : [] ∉ state.1) : [] ∉ (pieces.foldl readLexeme state).1 := by
  induction pieces generalizing state with
  | nil => exact ne
  | cons piece pieces ih =>
    rw [List.foldl_cons]
    apply ih
    cases piece with
    | word cells => exact ne
    | stop =>
      rw [readLexeme, pushStatement]
      split
      · exact ne
      · next full =>
        intro mem
        rcases List.mem_append.mp mem with mem | mem
        · exact ne mem
        · exact full (by rw [← List.mem_singleton.mp mem]; rfl)

/-- No statement is empty. -/
lemma statements_ne {source : String} {stmts : List Statement} (ok : statements source = .ok stmts) :
    [] ∉ stmts := by
  have ne := @foldl_readLexeme_ne ([], []) (codeLexemes (codeLines source)) List.not_mem_nil
  rw [(statements_ok.mp ok).2] at ne
  exact ne

omit [Unicode] in
/-- Lines with the same lexemes are closed together. -/
lemma closed_congr {code code' : List (List Char)}
    (same : List.Forall₂ (fun line line' => lexemes line = lexemes line') code code') :
    (∀ line ∈ code, Closed line) ↔ ∀ line ∈ code', Closed line := by
  induction same with
  | nil => exact Iff.rfl
  | cons own _ ih =>
    rw [List.forall_mem_cons, List.forall_mem_cons, ih, ← lexemes_isSome, own, lexemes_isSome]

omit [Unicode] in
/-- Put together they are the same. -/
lemma codeLexemes_congr {code code' : List (List Char)}
    (same : List.Forall₂ (fun line line' => lexemes line = lexemes line') code code') :
    codeLexemes code = codeLexemes code' := by
  induction same with
  | nil => rfl
  | cons own _ ih =>
    rw [codeLexemes, codeLexemes, List.flatMap_cons, List.flatMap_cons, own]
    exact congrArg _ ih

/-- Code with the same lexemes compiles to the same. -/
lemma compile_congr {source source' : String}
    (same : List.Forall₂ (fun line line' => lexemes line = lexemes line') (codeLines source)
      (codeLines source'))
    (closed : ∀ line ∈ codeLines source, Closed line) : compile source = compile source' := by
  unfold compile statements
  rw [lexLines_eq, lexLines_eq, ← codeLines, ← codeLines, readCode_closed closed,
    readCode_closed ((closed_congr same).mp closed), codeLexemes_congr same]

/-- A literal that stays open is refused, with its line. -/
lemma compile_open {source : String} (open_ : ¬∀ line ∈ codeLines source, Closed line) :
    ∃ line ∈ codeLines source, ¬Closed line ∧ compile source = .error (unterminated line) := by
  obtain ⟨before, line, after, eq, _, not, refused⟩ := @readCode_open _ ([], []) _ open_
  refine ⟨line, by rw [eq]; simp, not, ?_⟩
  rw [compile, statements, lexLines_eq, ← codeLines, refused]

end Statements

end GrpcEbcdic.Copybook

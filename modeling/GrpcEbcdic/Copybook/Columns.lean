import GrpcEbcdic.Copybook.Cards

/-!
# The columns of code

The tokenizer on characters that carry the place they stand at. It reads the characters only, so its
tokens are those of the source with their places (`locatedTokens_chars`). On a card the sequence area
and the identification area are no part of any token; the indicator is, unless it is a blank or marks
a comment (`Card.columns`).
-/

namespace GrpcEbcdic.Copybook
open Rust

/-- A character of a source and where it stands. Lines count from zero and columns from one. -/
structure Cell where
  char : Char
  line : Nat
  column : Nat
deriving DecidableEq

/-- The characters of a part of line `n` that begins at a column. -/
def cellsFrom (n column : Nat) (chars : List Char) : List Cell :=
  (chars.zipIdx column).map fun place => ⟨place.1, n, place.2⟩

/-- The characters of a source. -/
def locate (source : String) : List Cell :=
  (lines source.toList).zipIdx.flatMap fun place => cellsFrom place.2 1 place.1

/-- `strip_card_columns` of a line with places. -/
def stripCells (line : List Cell) : Option (List Cell) :=
  let bytes := Utf8.bytes (line.map Cell.char)
  if Commented (line.map Cell.char) then none
  else if !fixedFormat bytes then some line
  else if (bytes.getD 6 0).toNat = '*'.toNat ∨ (bytes.getD 6 0).toNat = '/'.toNat then none
  else some ((line.take 72).drop 6)

/-- The lexemes of a line with places, if it has any. -/
def cellLexemes (line : List Cell) : List (Lexeme Cell) :=
  ((stripCells line).bind (lexemesFrom Cell.char none [])).getD []

/-- The tokens of a source with places. -/
def locatedTokens (source : String) : List (List Cell) :=
  (lines source.toList).zipIdx.flatMap fun place =>
    (cellLexemes (cellsFrom place.2 1 place.1)).filterMap Lexeme.cells

section Places

@[simp] lemma cellsFrom_char (n column : Nat) (chars : List Char) :
    (cellsFrom n column chars).map Cell.char = chars := by
  rw [cellsFrom, List.map_map]
  exact List.zipIdx_map_fst column chars

lemma cellsFrom_append (n column : Nat) (chars chars' : List Char) :
    cellsFrom n column (chars ++ chars')
      = cellsFrom n column chars ++ cellsFrom n (column + chars.length) chars' := by
  rw [cellsFrom, List.zipIdx_append, List.map_append]
  rfl

/-- The places of a part of a line are on it, from the first column on. -/
lemma cellsFrom_place {n column : Nat} {chars : List Char} {cell : Cell}
    (mem : cell ∈ cellsFrom n column chars) :
    cell.line = n ∧ column ≤ cell.column ∧ cell.column < column + chars.length := by
  obtain ⟨place, at_, rfl⟩ := List.mem_map.mp mem
  exact ⟨rfl, List.le_snd_of_mem_zipIdx at_, List.snd_lt_add_of_mem_zipIdx at_⟩

/-- Places or not, the same columns are cut. -/
lemma stripCells_char (line : List Cell) :
    (stripCells line).map (List.map Cell.char) = stripCardColumns (line.map Cell.char) := by
  unfold stripCells stripCardColumns
  dsimp only
  rw [Utf8.bytes]
  by_cases comment : Commented (line.map Cell.char)
  · rw [if_pos comment]
    exact (if_pos comment).symm
  · rw [if_neg comment]
    refine Eq.trans ?_ (if_neg comment).symm
    split
    · rfl
    · split
      · rfl
      · rw [Option.map_some, List.map_drop, List.map_take]

/-- What is kept of a line is a part of it. -/
lemma stripCells_sublist {line kept : List Cell} (some : stripCells line = some kept) :
    kept.Sublist line := by
  unfold stripCells at some
  dsimp only at some
  split at some
  · cases some
  · split at some
    · cases some
      exact List.Sublist.refl _
    · split at some
      · cases some
      · cases some
        exact (List.drop_sublist _ _).trans (List.take_sublist _ _)

end Places

section Tokens

variable {α : Type*}

lemma flush_cells (token : List α) : ((flush token).filterMap Lexeme.cells).flatten = token := by
  cases token with
  | nil => rfl
  | cons a token => simp [flush, Lexeme.cells]

/-- Tokens are parts of the line in its order. -/
lemma lexemesFrom_sublist {f : α → Char} {quote : Option Char} {token line : List α}
    {pieces : List (Lexeme α)} (split : lexemesFrom f quote token line = some pieces) :
    (pieces.filterMap Lexeme.cells).flatten.Sublist (token ++ line) := by
  induction line generalizing quote token pieces with
  | nil =>
    rw [lexemesFrom] at split
    split at split
    · cases split
      rw [flush_cells, List.append_nil]
    · cases split
  | cons a line ih =>
    rw [lexemesFrom] at split
    split at split
    · obtain ⟨rest, behind, rfl⟩ := Option.map_eq_some_iff.mp split
      rw [List.filterMap_append, List.flatten_append, flush_cells, List.filterMap_cons_none rfl]
      exact (List.Sublist.refl _).append ((ih behind).trans (List.sublist_cons_self a line))
    · split at split
      · obtain ⟨rest, behind, rfl⟩ := Option.map_eq_some_iff.mp split
        rw [List.filterMap_append, List.flatten_append, flush_cells]
        exact (List.Sublist.refl _).append ((ih behind).trans (List.sublist_cons_self a line))
      · have all := ih split
        rw [List.append_assoc, List.singleton_append] at all
        exact all

lemma flush_mem {token : List α} {a : α} (mem : a ∈ token) (rest : List (Lexeme α)) :
    ∃ cells ∈ (flush token ++ rest).filterMap Lexeme.cells, a ∈ cells := by
  cases token with
  | nil => cases mem
  | cons b token => exact ⟨b :: token, List.mem_cons_self, mem⟩

/-- What has been read of a token becomes part of one. -/
lemma lexemesFrom_token {f : α → Char} {quote : Option Char} {token line : List α}
    {pieces : List (Lexeme α)} {a : α} (split : lexemesFrom f quote token line = some pieces)
    (mem : a ∈ token) : ∃ cells ∈ pieces.filterMap Lexeme.cells, a ∈ cells := by
  induction line generalizing quote token pieces with
  | nil =>
    rw [lexemesFrom] at split
    split at split
    · cases split
      have last := flush_mem mem []
      rw [List.append_nil] at last
      exact last
    · cases split
  | cons b line ih =>
    rw [lexemesFrom] at split
    split at split
    · obtain ⟨rest, _, rfl⟩ := Option.map_eq_some_iff.mp split
      exact flush_mem mem _
    · split at split
      · obtain ⟨rest, _, rfl⟩ := Option.map_eq_some_iff.mp split
        exact flush_mem mem _
      · exact ih split (List.mem_append_left _ mem)

end Tokens

section Cards

/-- A card with places: its sequence area, its indicator and its columns from the eighth on. -/
lemma Card.located (card : Card) (n : Nat) :
    cellsFrom n 1 card.line
      = cellsFrom n 1 card.sequence ++ ⟨card.indicator, n, 7⟩ :: cellsFrom n 8 card.code := by
  rw [Card.line, cellsFrom_append, card.six]
  rfl

/-- What is kept of a card that is no comment, with places. -/
lemma Card.strip_located {card : Card} (n : Nat) (code : ¬Commented card.line)
    (mark : ¬(card.indicator = '*' ∨ card.indicator = '/')) :
    stripCells (cellsFrom n 1 card.line)
      = some (⟨card.indicator, n, 7⟩ :: (cellsFrom n 8 card.code).take 65) := by
  have six : (cellsFrom n 1 card.sequence).length = 6 := by
    rw [← List.length_map (f := Cell.char), cellsFrom_char, card.six]
  unfold stripCells
  dsimp only
  rw [cellsFrom_char, if_neg code, card.fixed, if_neg (by decide), card.seventh,
    if_neg fun is => mark (comment_mark.mp is), card.located, List.take_append, six,
    List.take_of_length_le (by rw [six]; decide), List.drop_left' six]
  rfl

/-- A card whose indicator is in no comment is none. -/
lemma Card.uncommented {card : Card} (known : card.indicator ∈ ['-', 'D', 'd']) :
    ¬Commented card.line := by
  have plain : ∀ c ∈ ['-', 'D', 'd'], isWhitespace c = false ∧ c ≠ '*' ∧ c ≠ '/' :=
    List.all_iff_forall_prop.mp (by decide)
  obtain ⟨dark, star, slash⟩ := plain _ known
  intro comment
  rw [Card.line] at comment
  by_cases blank : trimStart card.sequence = []
  · have own := (commented_white blank).mp comment
    rw [Commented, trimStart, List.dropWhile_cons_of_neg (by rw [dark]; decide), List.head?_cons] at own
    exact own.elim (fun eq => star (Option.some.inj eq)) fun eq => slash (Option.some.inj eq)
  · exact SequenceArea.code ⟨card.six, card.area⟩ ((commented_front blank).mp comment)

/-- A line that is dropped has no lexemes. -/
lemma cellLexemes_dropped {line : List Char} {n : Nat} (none : stripCardColumns line = none) :
    cellLexemes (cellsFrom n 1 line) = [] := by
  have same := stripCells_char (cellsFrom n 1 line)
  rw [cellsFrom_char, none, Option.map_eq_none_iff] at same
  rw [cellLexemes, same]
  rfl

/-- The columns behind the indicator end with the seventy-second. -/
lemma Card.code_columns (card : Card) {n : Nat} {cell : Cell}
    (mem : cell ∈ (cellsFrom n 8 card.code).take 65) : 8 ≤ cell.column ∧ cell.column ≤ 72 := by
  obtain ⟨i, lt, rfl⟩ := List.mem_take_iff_getElem.mp mem
  have column : (cellsFrom n 8 card.code)[i].column = 8 + i := by simp [cellsFrom]
  omega

/-- The lexemes of a card are those of its indicator and the columns behind it. -/
lemma Card.split {card : Card} (n : Nat) (code : ¬Commented card.line)
    (mark : ¬(card.indicator = '*' ∨ card.indicator = '/'))
    (closed : Closed (card.indicator :: card.code.take 65)) :
    lexemesFrom Cell.char none [] (⟨card.indicator, n, 7⟩ :: (cellsFrom n 8 card.code).take 65)
      = some (cellLexemes (cellsFrom n 1 card.line)) := by
  obtain ⟨pieces, split⟩ : ∃ pieces, lexemesFrom Cell.char none []
      (⟨card.indicator, n, 7⟩ :: (cellsFrom n 8 card.code).take 65) = some pieces := by
    rw [← Option.isSome_iff_exists, lexemesFrom_isSome, List.map_cons, List.map_take, cellsFrom_char]
    exact closed
  rw [cellLexemes, card.strip_located n code mark, Option.bind_some, split, Option.getD_some]

/-- The tokens of a card are in columns 8 to 72, unless the indicator is code. -/
lemma Card.columns (card : Card) (n : Nat)
    (closed : ∀ kept, stripCardColumns card.line = some kept → Closed kept) :
    (∀ token ∈ (cellLexemes (cellsFrom n 1 card.line)).filterMap Lexeme.cells, ∀ cell ∈ token,
        8 ≤ cell.column ∧ cell.column ≤ 72) ↔ card.indicator ∉ ['-', 'D', 'd'] := by
  by_cases code : Commented card.line
  · rw [cellLexemes_dropped (strip_commented code)]
    exact iff_of_true (fun token mem => absurd mem List.not_mem_nil) fun known => card.uncommented known code
  have kept := Card.strip code
  by_cases mark : card.indicator = '*' ∨ card.indicator = '/'
  · rw [if_pos mark] at kept
    rw [cellLexemes_dropped kept]
    refine iff_of_true (fun token mem => absurd mem List.not_mem_nil) ?_
    obtain eq | eq := mark <;> rw [eq] <;> decide
  · rw [if_neg mark] at kept
    have split := card.split n code mark (closed _ kept)
    generalize cellLexemes (cellsFrom n 1 card.line) = pieces at split ⊢
    by_cases known : card.indicator ∈ ['-', 'D', 'd']
    · -- The indicator begins a token.
      refine iff_of_false (fun inside => ?_) (fun not => not known)
      have plain : ∀ c ∈ ['-', 'D', 'd'], ¬isWhitespace c = true ∧ c ≠ '.' :=
        List.all_iff_forall_prop.mp (by decide)
      obtain ⟨dark, point⟩ := plain _ known
      have open_ := @lexemesFrom_plain _ Cell.char ⟨card.indicator, n, 7⟩ []
        ((cellsFrom n 8 card.code).take 65) dark fun is => point is.1
      rw [open_] at split
      obtain ⟨token, mem, own⟩ := lexemesFrom_token split List.mem_cons_self
      have seven : 8 ≤ 7 := (inside token mem _ own).1
      omega
    · refine iff_of_true (fun token mem cell own => ?_) known
      have blank : card.indicator = ' ' := by
        have others : ∀ c ∈ indicators, c = ' ' ∨ (c = '*' ∨ c = '/') ∨ c ∈ ['-', 'D', 'd'] :=
          List.all_iff_forall_prop.mp (by decide)
        exact (others _ card.known).resolve_right fun other => other.elim mark known
      have white : isWhitespace (Cell.char ⟨card.indicator, n, 7⟩) = true := by
        rw [blank]
        rfl
      rw [lexemesFrom_white (f := Cell.char) [] _ white] at split
      obtain ⟨rest, behind, rfl⟩ := Option.map_eq_some_iff.mp split
      have part := (lexemesFrom_sublist behind).subset (List.mem_flatten.mpr ⟨token, mem, own⟩)
      exact card.code_columns part

end Cards

section Sources

/-- A lexeme adds its word to what has been read. -/
lemma foldl_readLexeme_flatten (state : List Statement × Statement) (pieces : List (Lexeme Char)) :
    (pieces.foldl readLexeme state).1.flatten ++ (pieces.foldl readLexeme state).2
      = state.1.flatten ++ state.2 ++ (pieces.filterMap Lexeme.cells).map String.ofList := by
  induction pieces generalizing state with
  | nil => simp
  | cons piece pieces ih =>
    rw [List.foldl_cons, ih]
    cases piece with
    | word cells => simp [readLexeme, Lexeme.cells]
    | stop =>
      rw [List.filterMap_cons_none rfl, readLexeme, pushStatement]
      split
      · next empty => rw [List.isEmpty_iff.mp empty]
      · simp

/-- Without their places the lexemes of a line are those of its code. -/
lemma cellLexemes_chars (line : List Char) (n : Nat) :
    (cellLexemes (cellsFrom n 1 line)).map (Lexeme.map Cell.char)
      = ((stripCardColumns line).bind lexemes).getD [] := by
  have same := stripCells_char (cellsFrom n 1 line)
  rw [cellsFrom_char] at same
  rw [← same, cellLexemes]
  cases stripCells (cellsFrom n 1 line) with
  | none => rfl
  | some kept =>
    have split := @lexemesFrom_map _ _ id Cell.char none [] kept
    rw [Option.map_some, Option.bind_some, Option.bind_some, lexemes]
    rw [List.map_nil] at split
    rw [split]
    change _ = (Option.map _ (lexemesFrom Cell.char none [] kept)).getD []
    cases lexemesFrom Cell.char none [] kept <;> rfl

/-- The lexemes of the code are those of the lines it is kept of. -/
lemma codeLexemes_lines (raws : List (List Char)) :
    codeLexemes (raws.filterMap stripCardColumns)
      = raws.flatMap fun raw => ((stripCardColumns raw).bind lexemes).getD [] := by
  induction raws with
  | nil => rfl
  | cons raw raws ih =>
    rw [List.flatMap_cons, ← ih]
    cases kept : stripCardColumns raw with
    | none => rw [List.filterMap_cons_none kept, Option.bind_none, Option.getD_none, List.nil_append]
    | some line =>
      rw [List.filterMap_cons_some kept, Option.bind_some]
      rfl

/-- The words of lexemes without places. -/
lemma filterMap_cells {α β : Type*} (g : α → β) (pieces : List (Lexeme α)) :
    (pieces.map (Lexeme.map g)).filterMap Lexeme.cells
      = (pieces.filterMap Lexeme.cells).map (List.map g) := by
  rw [List.filterMap_map, List.map_filterMap]
  refine congrArg (List.filterMap · pieces) (funext fun piece => ?_)
  cases piece <;> rfl

/-- Without their places the tokens of a source are those of its code. -/
lemma locatedTokens_chars (source : String) :
    (locatedTokens source).map (List.map Cell.char)
      = (codeLexemes (codeLines source)).filterMap Lexeme.cells := by
  have own : ∀ place : List Char × Nat,
      ((cellLexemes (cellsFrom place.2 1 place.1)).filterMap Lexeme.cells).map (List.map Cell.char)
        = (((stripCardColumns place.1).bind lexemes).getD []).filterMap Lexeme.cells := fun place => by
    rw [← cellLexemes_chars place.1 place.2, filterMap_cells]
  rw [locatedTokens, List.map_flatMap, List.flatMap_congr fun place _ => own place, codeLines,
    codeLexemes_lines, List.filterMap_flatMap]
  rw [← List.flatMap_map Prod.fst fun raw =>
    (((stripCardColumns raw).bind lexemes).getD []).filterMap Lexeme.cells]
  rw [List.zipIdx_map_fst]

/-- The tokens of a line are part of it. -/
lemma cellLexemes_sublist (line : List Cell) :
    ((cellLexemes line).filterMap Lexeme.cells).flatten.Sublist line := by
  rw [cellLexemes]
  cases kept : stripCells line with
  | none => exact List.nil_sublist line
  | some code =>
    rw [Option.bind_some]
    cases split : lexemesFrom Cell.char none [] code with
    | none => exact List.nil_sublist line
    | some pieces => exact (lexemesFrom_sublist split).trans (stripCells_sublist kept)

/-- The tokens of a source are part of it. -/
lemma locatedTokens_sublist (source : String) : (locatedTokens source).flatten.Sublist (locate source) := by
  rw [locatedTokens, locate]
  induction (lines source.toList).zipIdx with
  | nil => exact List.Sublist.refl _
  | cons place places ih =>
    rw [List.flatMap_cons, List.flatMap_cons, List.flatten_append]
    exact (cellLexemes_sublist _).append ih

/-- Each token is one of a line of the source. -/
lemma mem_locatedTokens {source : String} {token : List Cell} :
    token ∈ locatedTokens source ↔ ∃ n line, (lines source.toList)[n]? = some line ∧
      token ∈ (cellLexemes (cellsFrom n 1 line)).filterMap Lexeme.cells := by
  rw [locatedTokens, List.mem_flatMap]
  constructor
  · rintro ⟨⟨line, n⟩, mem, own⟩
    exact ⟨n, line, List.mem_zipIdx_iff_getElem?.mp mem, own⟩
  · rintro ⟨n, line, some, own⟩
    exact ⟨⟨line, n⟩, List.mem_zipIdx_iff_getElem?.mpr some, own⟩

/-- The places of the tokens of a line are on it. -/
lemma cellLexemes_line {n : Nat} {line : List Char} {token : List Cell} {cell : Cell}
    (mem : token ∈ (cellLexemes (cellsFrom n 1 line)).filterMap Lexeme.cells) (own : cell ∈ token) :
    cell.line = n := by
  have part := (cellLexemes_sublist (cellsFrom n 1 line)).subset (List.mem_flatten.mpr ⟨token, mem, own⟩)
  exact (cellsFrom_place part).1

/-- The seventh character of a card is its indicator. -/
lemma Card.seventh_char (card : Card) : card.line[6]? = some card.indicator := by
  rw [Card.line, List.getElem?_append_right (by rw [card.six]), card.six]
  rfl

variable [Unicode]

/-- The characters of the tokens are characters of the source in its order, and those of lines in
fixed format are from columns 8 to 72, exactly when none of these lines has an indicator that is
neither blank nor that of a comment. -/
theorem tokens_in_code_area {source : String} {stmts : List Statement} (ok : statements source = .ok stmts) :
    (locatedTokens source).map (fun token => String.ofList (token.map Cell.char)) = stmts.flatten ∧
    (locatedTokens source).flatten.Sublist (locate source) ∧
    ((∀ token ∈ locatedTokens source, ∀ cell ∈ token, ∀ raw ∈ (lines source.toList)[cell.line]?,
        fixedFormat (Utf8.bytes raw) = true → 8 ≤ cell.column ∧ cell.column ≤ 72) ↔
      ∀ raw ∈ lines source.toList, fixedFormat (Utf8.bytes raw) = true →
        ∀ indicator ∈ raw[6]?, indicator ∉ ['-', 'D', 'd']) := by
  obtain ⟨closed, read⟩ := statements_ok.mp ok
  refine ⟨?_, ?_, ?_⟩
  · have words := foldl_readLexeme_flatten ([], []) (codeLexemes (codeLines source))
    rw [read, ← locatedTokens_chars, List.map_map] at words
    simpa [Function.comp_def] using words.symm
  · exact locatedTokens_sublist source
  · have kept : ∀ line ∈ lines source.toList, ∀ code, stripCardColumns line = some code → Closed code :=
      fun line mem code some => closed code (List.mem_filterMap.mpr ⟨line, mem, some⟩)
    constructor
    · intro inside line mem fixed indicator known
      obtain ⟨card, rfl⟩ := fixedFormat_iff.mp fixed
      rw [card.seventh_char, Option.mem_some_iff] at known
      obtain ⟨n, lt, at_⟩ := List.getElem_of_mem mem
      have place : (lines source.toList)[n]? = some card.line := by
        rw [List.getElem?_eq_getElem lt, at_]
      rw [← known]
      refine (card.columns n (kept _ mem)).mp fun token own cell inner => ?_
      refine inside token (mem_locatedTokens.mpr ⟨n, _, place, own⟩) cell inner _ ?_ fixed
      rw [cellLexemes_line own inner]
      exact place
    · intro plain token mem cell inner line at_ fixed
      obtain ⟨n, own, place, some⟩ := mem_locatedTokens.mp mem
      rw [cellLexemes_line some inner, place, Option.mem_some_iff] at at_
      subst at_
      have mem := List.mem_of_getElem? place
      obtain ⟨card, rfl⟩ := fixedFormat_iff.mp fixed
      have not := plain _ mem fixed card.indicator (by rw [card.seventh_char]; rfl)
      exact (card.columns n (kept _ mem)).mpr not token some cell inner

end Sources

section Sample

attribute [local instance] asciiUnicode

/-- A level-88 entry continued on a card with the continuation indicator. -/
def sampleContinued : String :=
  "       01 R.\n       05 N PIC X.\n       88 C VALUE 'A'\n      -    'B'."

/-- An entry on two cards. -/
def sampleSpanning : String := "000100 01 R.\n000200 05 N\n000300  PIC X."

lemma sampleSpanning_statements :
    statements sampleSpanning = .ok [["01", "R"], ["05", "N", "PIC", "X"]] := by decide

/-- The tokens of two cards without a stray indicator are in columns 8 to 72. -/
theorem tokens_in_code_area_spanning :
    (locatedTokens sampleSpanning).flatten.Sublist (locate sampleSpanning) ∧
    ∀ token ∈ locatedTokens sampleSpanning, ∀ cell ∈ token,
      ∀ raw ∈ (lines sampleSpanning.toList)[cell.line]?, fixedFormat (Utf8.bytes raw) = true →
        8 ≤ cell.column ∧ cell.column ≤ 72 := by
  have blank : ∀ raw ∈ lines sampleSpanning.toList, raw[6]? = some ' ' := by decide
  obtain ⟨_, part, inside⟩ := tokens_in_code_area sampleSpanning_statements
  refine ⟨part, inside.mpr fun raw mem _ indicator own => ?_⟩
  rw [blank raw mem, Option.mem_some_iff] at own
  rw [← own]
  decide

lemma sampleContinued_statements : statements sampleContinued
    = .ok [["01", "R"], ["05", "N", "PIC", "X"], ["88", "C", "VALUE", "'A'", "-", "'B'"]] := by decide

/-- The continuation indicator becomes a token, and a value of the condition. -/
theorem tokens_in_code_area_continued :
    (∃ line ∈ (lines sampleContinued.toList)[3]?, fixedFormat (Utf8.bytes line) = true) ∧
    [⟨'-', 3, 7⟩] ∈ locatedTokens sampleContinued ∧
    (compile sampleContinued).map (fun raw =>
        raw.records.map (·.fields.map (·.declaration.conditions)))
      = .ok [[[⟨"C", [⟨"A", none⟩, ⟨"-", none⟩, ⟨"B", none⟩]⟩]]] := by
  refine ⟨by decide, by decide, ?_⟩
  rw [compile, sampleContinued_statements]
  rfl

end Sample

end GrpcEbcdic.Copybook

import GrpcEbcdic.Copybook.Lexemes
import GrpcEbcdic.Support.Utf8
import Mathlib.Data.Bool.AllAny

/-!
# The card format

A line in fixed format is a `Card`: a sequence area, an indicator and what is behind it. The test for
the format is on bytes and the columns are characters, but the first seven of a card are both
(`fixedFormat_iff`), so no cut falls inside a character (`slicedCardColumns_eq`) and what is kept of a
card is known by its columns (`Card.strip`).
-/

namespace GrpcEbcdic.Copybook
open Rust

/-- The indicators of the card format. -/
def indicators : List Char := [' ', '-', '*', '/', 'D', 'd']

/-- A line in fixed format. -/
structure Card where
  sequence : List Char
  indicator : Char
  code : List Char
  six : sequence.length = 6
  area : ∀ c ∈ sequence, c.isDigit = true ∨ c = ' '
  known : indicator ∈ indicators

/-- The line of a card. -/
def Card.line (card : Card) : List Char := card.sequence ++ card.indicator :: card.code

/-- The first character that is not white space is `*` or `/`. -/
def Commented (line : List Char) : Prop :=
  (trimStart line).head? = some '*' ∨ (trimStart line).head? = some '/'

instance (line : List Char) : Decidable (Commented line) := inferInstanceAs (Decidable (_ ∨ _))

section Columns

/-- A digit or a blank of a sequence area is its own byte. -/
lemma area_ascii {c : Char} (area : c.isDigit = true ∨ c = ' ') : c.toNat < 128 := by
  rcases area with digit | rfl
  · simp only [Char.isDigit, Bool.and_eq_true, decide_eq_true_eq, ge_iff_le,
      UInt32.le_iff_toNat_le] at digit
    exact Nat.lt_of_le_of_lt digit.2 (by decide)
  · decide

/-- An indicator is its own byte. -/
lemma indicator_ascii {c : Char} (known : c ∈ indicators) : c.toNat < 128 := by
  have all : ∀ c ∈ indicators, c.toNat < 128 := List.all_iff_forall_prop.mp (by decide)
  exact all c known

/-- A byte of the sequence area, as a character. -/
lemma area_byte {c : Char} (small : c.toNat < 128) :
    ((48 ≤ (UInt8.ofNat c.toNat).toNat ∧ (UInt8.ofNat c.toNat).toNat ≤ 57) ∨
      (UInt8.ofNat c.toNat).toNat = 32) ↔ (c.isDigit = true ∨ c = ' ') := by
  have byte : (UInt8.ofNat c.toNat).toNat = c.toNat := by
    rw [UInt8.toNat_ofNat']
    omega
  have blank : c = ' ' ↔ c.toNat = 32 := Char.toNat_inj.symm
  rw [byte, blank]
  simp only [Char.isDigit, Bool.and_eq_true, decide_eq_true_eq, ge_iff_le, UInt32.le_iff_toNat_le]
  rfl

/-- Columns that are their own bytes: those in front of the indicator, the indicator, and the rest. -/
lemma columns_bytes {sequence code : List Char} {indicator : Char}
    (small : ∀ c ∈ sequence, c.toNat < 128) (last : indicator.toNat < 128) :
    Utf8.bytes (sequence ++ indicator :: code) = sequence.map (fun c => UInt8.ofNat c.toNat) ++
      UInt8.ofNat indicator.toNat :: Utf8.bytes code := by
  have one := @Utf8.bytes_ascii [indicator] (List.forall_mem_singleton.mpr last)
  rw [Utf8.bytes_cons, Utf8.bytes_nil, List.append_nil] at one
  rw [Utf8.bytes_append, Utf8.bytes_ascii small, Utf8.bytes_cons, one]
  rfl

/-- The first six bytes are those of the sequence area. -/
lemma columns_front {sequence code : List Char} {indicator : Char} (six : sequence.length = 6)
    (small : ∀ c ∈ sequence, c.toNat < 128) (last : indicator.toNat < 128) :
    (Utf8.bytes (sequence ++ indicator :: code)).take 6
      = sequence.map fun c => UInt8.ofNat c.toNat := by
  rw [columns_bytes small last, List.take_left' (by rw [List.length_map, six])]

/-- The byte behind the sequence area is the indicator. -/
lemma columns_seventh {sequence code : List Char} {indicator : Char} (six : sequence.length = 6)
    (small : ∀ c ∈ sequence, c.toNat < 128) (last : indicator.toNat < 128) :
    ((Utf8.bytes (sequence ++ indicator :: code)).getD 6 0).toNat = indicator.toNat := by
  have length : (sequence.map fun c => UInt8.ofNat c.toNat).length = 6 := by
    rw [List.length_map, six]
  rw [columns_bytes small last, List.getD_eq_getElem?_getD,
    List.getElem?_append_right (by rw [length]), length, Nat.sub_self, List.getElem?_cons_zero,
    Option.getD_some, UInt8.toNat_ofNat']
  omega

/-- The byte behind the sequence area of a card is its indicator. -/
lemma Card.seventh (card : Card) :
    ((Utf8.bytes card.line).getD 6 0).toNat = card.indicator.toNat :=
  columns_seventh card.six (fun c mem => area_ascii (card.area c mem)) (indicator_ascii card.known)

/-- A card is in fixed format. -/
lemma Card.fixed (card : Card) : fixedFormat (Utf8.bytes card.line) = true := by
  have small : ∀ c ∈ card.sequence, c.toNat < 128 := fun c mem => area_ascii (card.area c mem)
  have last := indicator_ascii card.known
  have front : (Utf8.bytes card.line).take 6 = card.sequence.map fun c => UInt8.ofNat c.toNat :=
    columns_front card.six small last
  have long : 7 ≤ (Utf8.bytes card.line).length := by
    rw [Card.line, columns_bytes small last, List.length_append, List.length_map, card.six,
      List.length_cons]
    omega
  rw [fixedFormat, front]
  simp only [Bool.and_eq_true, decide_eq_true_eq, List.all_eq_true, List.any_eq_true, Bool.or_eq_true]
  refine ⟨⟨long, List.forall_mem_map.mpr fun c mem => ?_⟩, card.indicator, card.known, card.seventh⟩
  exact (area_byte (small c mem)).mpr (card.area c mem)

/-- A line whose first seven bytes are below 128 begins with seven columns of one byte each. -/
lemma columns_of_bytes {line : List Char} (long : 7 ≤ (Utf8.bytes line).length)
    (ascii : ∀ b ∈ (Utf8.bytes line).take 7, b.toNat < 128) :
    ∃ sequence indicator code, line = sequence ++ indicator :: code ∧ sequence.length = 6 ∧
      (∀ c ∈ sequence, c.toNat < 128) ∧ indicator.toNat < 128 := by
  obtain ⟨front, code, rfl, length, small⟩ := Utf8.ascii_front long ascii
  rcases List.eq_nil_or_concat front with rfl | ⟨sequence, indicator, rfl⟩
  · cases length
  · rw [List.concat_eq_append] at length small ⊢
    obtain ⟨small, last⟩ := List.forall_mem_append.mp small
    refine ⟨sequence, indicator, code, ?_, by simpa using length, small, last indicator List.mem_cons_self⟩
    rw [List.append_assoc, List.singleton_append]

/-- A line in fixed format is a card. -/
lemma fixedFormat_iff {line : List Char} :
    fixedFormat (Utf8.bytes line) = true ↔ ∃ card : Card, line = card.line := by
  constructor
  · intro fixed
    rw [fixedFormat] at fixed
    simp only [Bool.and_eq_true, decide_eq_true_eq, List.all_eq_true, List.any_eq_true,
      Bool.or_eq_true] at fixed
    obtain ⟨⟨long, area⟩, c, known, seventh⟩ := fixed
    have seven : (Utf8.bytes line).take 7
        = (Utf8.bytes line).take 6 ++ [(Utf8.bytes line).getD 6 0] := by
      rw [List.take_add_one, List.getD_eq_getElem?_getD, List.getElem?_eq_getElem (by omega)]
      rfl
    have ascii : ∀ b ∈ (Utf8.bytes line).take 7, b.toNat < 128 := by
      rw [seven]
      refine List.forall_mem_append.mpr ⟨fun b mem => ?_, List.forall_mem_singleton.mpr ?_⟩
      · have := area b mem
        omega
      · rw [seventh]
        exact indicator_ascii known
    obtain ⟨sequence, indicator, code, rfl, six, small, last⟩ := columns_of_bytes long ascii
    rw [columns_front six small last] at area
    rw [columns_seventh six small last] at seventh
    have same : indicator = c := Char.toNat_inj.mp seventh
    refine ⟨⟨sequence, indicator, code, six, fun d mem => ?_, same ▸ known⟩, rfl⟩
    exact (area_byte (small d mem)).mp (area _ (List.mem_map_of_mem mem))
  · rintro ⟨card, rfl⟩
    exact card.fixed

/-- A line that is neither a comment nor a card is code as it is. -/
lemma strip_free {line : List Char} (code : ¬Commented line)
    (free : ¬fixedFormat (Utf8.bytes line) = true) : stripCardColumns line = some line := by
  unfold stripCardColumns
  refine (if_neg code).trans (if_pos ?_)
  simpa [Utf8.bytes] using free

/-- The marks of a comment by their bytes. -/
lemma comment_mark {c : Char} :
    (c.toNat = '*'.toNat ∨ c.toNat = '/'.toNat) ↔ (c = '*' ∨ c = '/') := by
  rw [Char.toNat_inj, Char.toNat_inj]

/-- A comment is dropped. -/
lemma strip_commented {line : List Char} (comment : Commented line) : stripCardColumns line = none := by
  unfold stripCardColumns
  exact if_pos comment

/-- What is kept of a card: its columns from the indicator to the seventy-second. -/
lemma Card.strip {card : Card} (code : ¬Commented card.line) :
    stripCardColumns card.line = if card.indicator = '*' ∨ card.indicator = '/' then none
      else some (card.indicator :: card.code.take 65) := by
  have fixed := card.fixed
  have seventh := card.seventh
  rw [Utf8.bytes] at fixed seventh
  have cut : (card.line.take 72).drop 6 = card.indicator :: card.code.take 65 := by
    rw [Card.line, List.take_append, List.drop_append_of_le_length, card.six]
    · rw [List.take_of_length_le (by rw [card.six]; decide), List.drop_of_length_le (by rw [card.six])]
      rfl
    · rw [List.length_take, card.six]
      decide
  unfold stripCardColumns
  apply (if_neg code).trans
  dsimp only
  rw [fixed, if_neg (by decide), seventh, cut]
  exact if_congr comment_mark rfl rfl

end Columns

section Slices

/-- The byte offset of a character, by its number, when the line has so many. -/
def charOffset (line : List Char) (n : Nat) : Option Nat :=
  if n < line.length then some (Utf8.bytes (line.take n)).length else none

/-- `strip_card_columns` with its slice taken by bytes: it panics where there is no result. -/
def slicedCardColumns (line : List Char) : Option (Option (List Char)) :=
  let bytes := Utf8.bytes line
  if Commented line then some none
  else if !fixedFormat bytes then some (some line)
  else if (bytes.getD 6 0).toNat = '*'.toNat ∨ (bytes.getD 6 0).toNat = '/'.toNat then some none
  else (Utf8.slice line 6 ((charOffset line 72).getD bytes.length)).map some

/-- `unquote` with its slice taken by bytes. -/
def slicedUnquote (literal : List Char) : Option (List Char) :=
  let bytes := Utf8.bytes literal
  if 2 ≤ bytes.length ∧ ((bytes.getD 0 0).toNat = '\''.toNat ∨ (bytes.getD 0 0).toNat = '"'.toNat) ∧
      bytes.getD (bytes.length - 1) 0 = bytes.getD 0 0 then
    Utf8.slice literal 1 (bytes.length - 1)
  else some literal

/-- Both offsets of the slice are those of prefixes: the sequence area and the first 72 characters. -/
lemma Card.slice (card : Card) :
    Utf8.slice card.line 6 ((charOffset card.line 72).getD (Utf8.bytes card.line).length)
      = some (card.indicator :: card.code.take 65) := by
  have front : (Utf8.bytes card.sequence).length = 6 := by
    rw [Utf8.bytes_ascii fun c mem => area_ascii (card.area c mem), List.length_map, card.six]
  have cut : card.line = card.sequence ++ card.indicator :: card.code.take 65 ++ card.code.drop 65 := by
    rw [List.append_assoc, List.cons_append, List.take_append_drop]
    rfl
  have taken : card.line.take 72 = card.sequence ++ card.indicator :: card.code.take 65 := by
    rw [Card.line, List.take_append, card.six, List.take_of_length_le (by rw [card.six]; decide)]
    rfl
  have stop : (charOffset card.line 72).getD (Utf8.bytes card.line).length
      = (Utf8.bytes (card.sequence ++ card.indicator :: card.code.take 65)).length := by
    rw [charOffset, ← taken]
    split
    · rfl
    · rw [List.take_of_length_le (by omega)]
      rfl
  have part := Utf8.slice_append card.sequence (card.indicator :: card.code.take 65)
    (card.code.drop 65)
  rw [← cut, front, ← stop] at part
  exact part

/-- The cut behind column 72 falls between two characters, so no line makes the strip panic. -/
lemma slicedCardColumns_eq (line : List Char) :
    slicedCardColumns line = some (stripCardColumns line) := by
  unfold slicedCardColumns
  dsimp only
  by_cases comment : Commented line
  · rw [if_pos comment, strip_commented comment]
  · rw [if_neg comment]
    by_cases fixed : fixedFormat (Utf8.bytes line) = true
    · obtain ⟨card, rfl⟩ := fixedFormat_iff.mp fixed
      rw [fixed, if_neg (by decide), card.seventh, card.strip comment, card.slice]
      by_cases mark : card.indicator = '*' ∨ card.indicator = '/'
      · rw [if_pos (comment_mark.mpr mark), if_pos mark]
      · rw [if_neg (fun is => mark (comment_mark.mp is)), if_neg mark]
        rfl
    · rw [strip_free comment fixed]
      simp [fixed]

/-- A quotation mark is its own byte. -/
lemma quote_ascii {c : Char} (mark : c = '\'' ∨ c = '"') : c.toNat < 128 := by
  obtain rfl | rfl := mark <;> decide

lemma quote_bytes {c : Char} (mark : c = '\'' ∨ c = '"') : Utf8.bytes [c] = [UInt8.ofNat c.toNat] :=
  Utf8.bytes_ascii (List.forall_mem_singleton.mpr (quote_ascii mark))

/-- The first byte is that of a quotation mark only if the first character is one. -/
lemma quote_first {c : Char} {cs : List Char} :
    (((Utf8.bytes (c :: cs)).getD 0 0).toNat = '\''.toNat ∨
      ((Utf8.bytes (c :: cs)).getD 0 0).toNat = '"'.toNat) ↔ (c = '\'' ∨ c = '"') :=
  or_congr (Utf8.first_ascii (by decide)) (Utf8.first_ascii (by decide))

/-- The slice of `unquote` on a literal of two characters or more. -/
lemma slicedUnquote_ends (c d : Char) (inner : List Char) :
    slicedUnquote (c :: (inner ++ [d]))
      = some (if (c = '\'' ∨ c = '"') ∧ d = c then inner else c :: (inner ++ [d])) := by
  have long : 2 ≤ (Utf8.bytes (c :: (inner ++ [d]))).length :=
    le_trans (by simp) (Utf8.length_le_bytes _)
  unfold slicedUnquote
  dsimp only
  by_cases mark : c = '\'' ∨ c = '"'
  · have small := quote_ascii mark
    have same : (Utf8.bytes (c :: (inner ++ [d]))).getD
          ((Utf8.bytes (c :: (inner ++ [d]))).length - 1) 0
        = (Utf8.bytes (c :: (inner ++ [d]))).getD 0 0 ↔ d = c := by
      rw [← UInt8.toNat_inj, (Utf8.first_ascii small).mpr rfl, ← List.cons_append]
      exact Utf8.last_ascii small
    by_cases closed : d = c
    · rw [if_pos ⟨long, quote_first.mpr mark, same.mpr closed⟩, if_pos ⟨mark, closed⟩, closed]
      -- The quotes are one byte each, so both offsets are those of prefixes.
      have front : (Utf8.bytes [c]).length = 1 := by
        rw [quote_bytes mark]
        rfl
      have stop : (Utf8.bytes ([c] ++ inner)).length
          = (Utf8.bytes (c :: (inner ++ [c]))).length - 1 := by
        rw [← List.cons_append, Utf8.bytes_append (c :: inner), List.length_append, front]
        rfl
      have part := Utf8.slice_append [c] inner [c]
      rw [front, stop] at part
      exact part
    · rw [if_neg fun all => closed (same.mp all.2.2), if_neg fun both => closed both.2]
  · rw [if_neg fun all => mark (quote_first.mp all.2.1), if_neg fun both => mark both.1]

/-- Quotes are bytes of their own, so no literal makes `unquote` panic. -/
lemma slicedUnquote_eq (literal : String) :
    slicedUnquote literal.toList = some (unquote literal).toList := by
  cases eq : literal.toList with
  | nil =>
    have empty : literal = "" := String.toList_inj.mp eq
    rw [empty]
    rfl
  | cons c cs =>
    rw [unquote_cons eq]
    rcases List.eq_nil_or_concat cs with rfl | ⟨inner, d, rfl⟩
    · unfold slicedUnquote
      dsimp only
      rw [if_neg, if_neg fun both => by cases both.2]
      rintro ⟨long, mark, _⟩
      rw [quote_bytes (quote_first.mp mark)] at long
      exact absurd long (by simp)
    · rw [List.concat_eq_append, List.getLast?_concat, List.dropLast_concat, slicedUnquote_ends]
      simp only [Option.some.injEq]

end Slices

section Printed

/-- A line of free-format code that fits into columns 8 to 72. -/
structure FreeLine (line : List Char) : Prop where
  fits : line.length ≤ 65
  begins : trimStart line ≠ []
  code : ¬Commented line
  free : ¬fixedFormat (Utf8.bytes line) = true

/-- Six digits or blanks. -/
def SequenceArea (sequence : List Char) : Prop :=
  sequence.length = 6 ∧ ∀ c ∈ sequence, c.isDigit = true ∨ c = ' '

instance (sequence : List Char) : Decidable (SequenceArea sequence) :=
  decidable_of_iff (sequence.length = 6 ∧ (sequence.all fun c => c.isDigit || c = ' ') = true)
    (and_congr_right fun _ => by simp)

/-- A line of code on a card: column 7 is blank, columns 8 to 72 are the line and anything may follow. -/
def punch (sequence line identification : List Char) : List Char :=
  sequence ++ ' ' :: (line ++ List.replicate (65 - line.length) ' ' ++ identification)

/-- Lines of code, and the same on cards with comment lines between them. -/
inductive Carded : List (List Char) → List (List Char) → Prop where
  | nil : Carded [] []
  | card {code cards : List (List Char)} {sequence : List Char} (line identification : List Char)
      (area : SequenceArea sequence) (rest : Carded code cards) :
      Carded (line :: code) (punch sequence line identification :: cards)
  | marked {code cards : List (List Char)} {sequence : List Char} {mark : Char} (text : List Char)
      (area : SequenceArea sequence) (comment : mark = '*' ∨ mark = '/') (rest : Carded code cards) :
      Carded code ((sequence ++ mark :: text) :: cards)
  | comment {code cards : List (List Char)} {line : List Char} (comment : Commented line)
      (rest : Carded code cards) : Carded code (line :: cards)

/-- White space in front does not make a comment. -/
lemma commented_white {front line : List Char} (white : trimStart front = []) :
    Commented (front ++ line) ↔ Commented line := by
  have same : trimStart (front ++ line) = trimStart line := by
    rw [trimStart, List.dropWhile_append, if_pos]
    · rfl
    · rw [trimStart] at white
      rw [white]
      rfl
  rw [Commented, same, Commented]

/-- The first token decides. -/
lemma commented_front {front line : List Char} (ne : trimStart front ≠ []) :
    Commented (front ++ line) ↔ Commented front := by
  have same : (trimStart (front ++ line)).head? = (trimStart front).head? := by
    rw [trimStart] at ne ⊢
    rw [List.dropWhile_append, if_neg (by simpa using ne), List.head?_append_of_ne_nil _ ne, trimStart]
  rw [Commented, same, Commented]

/-- A sequence area is no comment. -/
lemma SequenceArea.code {sequence : List Char} (area : SequenceArea sequence) : ¬Commented sequence := by
  have inside : ∀ c ∈ (trimStart sequence).head?, c.isDigit = true ∨ c = ' ' := fun c mem =>
    area.2 c ((List.dropWhile_sublist _).subset (List.mem_of_mem_head? mem))
  rintro (star | slash)
  · exact absurd (inside '*' star) (by decide)
  · exact absurd (inside '/' slash) (by decide)

/-- What is kept of a line on a card is the line, with blanks around it. -/
lemma strip_punch {sequence line : List Char} (identification : List Char) (area : SequenceArea sequence)
    (free : FreeLine line) :
    stripCardColumns (punch sequence line identification)
      = some (' ' :: (line ++ List.replicate (65 - line.length) ' ')) := by
  have code : ¬Commented (punch sequence line identification) := by
    intro comment
    by_cases blank : trimStart sequence = []
    · -- The blanks in front leave the line itself.
      have behind := (commented_white blank).mp comment
      rw [← List.singleton_append, commented_white (by decide), List.append_assoc,
        commented_front free.begins] at behind
      exact free.code behind
    · exact area.code ((commented_front blank).mp comment)
  have full : (line ++ List.replicate (65 - line.length) ' ').length = 65 := by
    have fits := free.fits
    simp only [List.length_append, List.length_replicate]
    omega
  let card : Card := ⟨sequence, ' ', line ++ List.replicate (65 - line.length) ' ' ++ identification,
    area.1, area.2, List.mem_cons_self⟩
  have kept := @Card.strip card code
  have plain : ¬(card.indicator = '*' ∨ card.indicator = '/') := by
    change ¬(' ' = '*' ∨ ' ' = '/')
    decide
  rw [if_neg plain] at kept
  exact kept.trans (congrArg (fun rest => some (' ' :: rest)) (List.take_left' full))

/-- A card with a comment indicator is dropped. -/
lemma strip_marked {sequence : List Char} {mark : Char} (text : List Char) (area : SequenceArea sequence)
    (comment : mark = '*' ∨ mark = '/') : stripCardColumns (sequence ++ mark :: text) = none := by
  have known : mark ∈ indicators := by obtain rfl | rfl := comment <;> decide
  let card : Card := ⟨sequence, mark, text, area.1, area.2, known⟩
  by_cases code : Commented card.line
  · exact strip_commented code
  · exact (Card.strip code).trans (if_pos comment)

/-- Around a line blanks make no difference to its lexemes. -/
lemma lexemes_punched (line : List Char) (n : Nat) :
    lexemes (' ' :: (line ++ List.replicate n ' ')) = lexemes line := by
  have first := lexemesFrom_white (f := id) (a := ' ') [] (line ++ List.replicate n ' ') (by decide)
  have white : ∀ c ∈ List.replicate n ' ', isWhitespace (id c) = true := fun c mem => by
    rw [List.eq_of_mem_replicate mem]
    decide
  have last := @lexemesFrom_trailing _ id none _ [] line (fun c mem => by cases mem) white
  rw [lexemes, first, last, lexemes]
  cases lexemesFrom id none [] line <;> rfl

/-- The cards of some lines of code have their lexemes. -/
lemma Carded.same {code cards : List (List Char)} (carded : Carded code cards)
    (free : ∀ line ∈ code, FreeLine line) :
    List.Forall₂ (fun line line' => lexemes line = lexemes line') (code.filterMap stripCardColumns)
      (cards.filterMap stripCardColumns) := by
  induction carded with
  | nil => exact .nil
  | card line identification area _ ih =>
    obtain ⟨first, free⟩ := List.forall_mem_cons.mp free
    rw [List.filterMap_cons_some (strip_free first.code first.free),
      List.filterMap_cons_some (strip_punch identification area first)]
    exact .cons (lexemes_punched line _).symm (ih free)
  | marked text area comment _ ih =>
    rw [List.filterMap_cons_none (strip_marked text area comment)]
    exact ih free
  | comment comment _ ih =>
    rw [List.filterMap_cons_none (strip_commented comment)]
    exact ih free

variable [Unicode]

/-- On cards, with comment lines between them, free-format code compiles to what it compiles to without,
and nothing that is sliced or indexed on the way is out of bounds. -/
theorem compile_carded {source source' : String} (free : ∀ line ∈ lines source.toList, FreeLine line)
    (carded : Carded (lines source.toList) (lines source'.toList)) :
    ((∀ line ∈ lines source.toList, Closed line) → compile source' = compile source) ∧
    ((¬∀ line ∈ lines source.toList, Closed line) →
      (∃ line ∈ lines source.toList, ¬Closed line ∧ compile source = .error (unterminated line)) ∧
        ∃ line ∈ codeLines source', ¬Closed line ∧ compile source' = .error (unterminated line)) ∧
    (∀ line ∈ lines source'.toList, slicedCardColumns line = some (stripCardColumns line)) ∧
    ∀ stmts, statements source' = .ok stmts → ∀ statement ∈ stmts, statement[0]?.isSome = true ∧
      ∀ token ∈ statement, slicedUnquote token.toList = some (unquote token).toList := by
  have kept : codeLines source = lines source.toList := by
    rw [codeLines, List.filterMap_congr fun line mem => strip_free (free line mem).code (free line mem).free,
      List.filterMap_some]
  have same := carded.same free
  rw [← codeLines, ← codeLines] at same
  rw [← kept]
  refine ⟨fun closed => (compile_congr same closed).symm, fun not => ⟨compile_open not, ?_⟩,
    fun line _ => slicedCardColumns_eq line, fun stmts ok statement mem => ⟨?_, fun token _ => slicedUnquote_eq token⟩⟩
  · exact compile_open fun closed => not ((closed_congr same).mpr closed)
  · cases statement with
    | nil => exact absurd mem (statements_ne ok)
    | cons token tokens => rfl

end Printed

section Sample

attribute [local instance] asciiUnicode

/-- A record of one field with a condition, a line for each entry. -/
def sampleCode : List (List Char) := ["01 R.".toList, "05 N PIC X.".toList, "88 E VALUE 'é'.".toList]

/-- The same on cards, with comments of all kinds. -/
def sampleCards : List (List Char) :=
  ["      * a record".toList, punch "000100".toList "01 R.".toList "IDENTé".toList,
    punch "      ".toList "05 N PIC X.".toList [], " / page".toList,
    punch "0003  ".toList "88 E VALUE 'é'.".toList "'".toList]

/-- A record reads the same on cards. -/
theorem compile_carded_sample :
    compile (String.ofList (['\n'].intercalate sampleCards))
      = compile (String.ofList (['\n'].intercalate sampleCode)) := by
  have code : lines (String.ofList (['\n'].intercalate sampleCode)).toList = sampleCode := by
    rw [String.toList_ofList]
    exact lines_intercalate (by decide) (by decide)
  have cards : lines (String.ofList (['\n'].intercalate sampleCards)).toList = sampleCards := by
    rw [String.toList_ofList]
    exact lines_intercalate (by decide) (by decide)
  have free : ∀ line ∈ sampleCode, FreeLine line := by
    intro line mem
    have all : ∀ line ∈ sampleCode, line.length ≤ 65 ∧ trimStart line ≠ [] ∧ ¬Commented line ∧
        ¬fixedFormat (Utf8.bytes line) = true := by decide
    obtain ⟨fits, begins, code, free⟩ := all line mem
    exact ⟨fits, begins, code, free⟩
  have carded : Carded sampleCode sampleCards := by
    refine @Carded.marked _ _ "      ".toList '*' " a record".toList ?_ (.inl rfl) (.card _ _ ?_ (.card _ _ ?_
      (.comment ?_ (.card _ _ ?_ .nil))))
    all_goals decide
  have closed : ∀ line ∈ sampleCode, Closed line := by decide
  rw [← code] at free closed carded
  rw [← cards] at carded
  exact (compile_carded free carded).1 closed

end Sample

end GrpcEbcdic.Copybook

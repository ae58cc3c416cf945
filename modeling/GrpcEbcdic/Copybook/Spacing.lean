import GrpcEbcdic.Copybook.Cards

/-!
# Spacing

White space between tokens may be of any length (`Respaced.lexemes`), as long as it does not turn the
digits a line begins with into a sequence number: the card format is guessed line by line, and what it
takes for a sequence area is dropped (`compile_respaced_aligned`).
-/

namespace GrpcEbcdic.Copybook
open Rust

/-- Lines that differ in the length of the white space outside their literals. `quote` is the literal
that is open in front of them. -/
inductive Respaced : Option Char → List Char → List Char → Prop where
  | nil {quote : Option Char} : Respaced quote [] []
  | char {quote : Option Char} {line line' : List Char} (c : Char)
      (rest : Respaced (nextQuote quote c) line line') : Respaced quote (c :: line) (c :: line')
  | run {line line' : List Char} (run run' : List Char) (ne : run ≠ []) (ne' : run' ≠ [])
      (white : ∀ c ∈ run, isWhitespace c = true) (white' : ∀ c ∈ run', isWhitespace c = true)
      (rest : Respaced none line line') : Respaced none (run ++ line) (run' ++ line')

/-- No digit of the line is taken for a sequence number. -/
def Unnumbered (line : List Char) : Prop :=
  fixedFormat (Utf8.bytes line) = true → ∀ c ∈ line.take 6, c = ' '

instance (line : List Char) : Decidable (Unnumbered line) :=
  decidable_of_iff (fixedFormat (Utf8.bytes line) = true → ((line.take 6).all fun c => c = ' ') = true)
    (forall_congr' fun _ => List.all_iff_forall_prop)

section Lines

/-- A line differs from itself in nothing. -/
lemma Respaced.refl (quote : Option Char) (line : List Char) : Respaced quote line line := by
  induction line generalizing quote with
  | nil => exact .nil
  | cons c line ih => exact .char c (ih _)

/-- White space begins where white space begins. -/
lemma Respaced.head {quote : Option Char} {line line' : List Char}
    (respaced : Respaced quote line line') :
    (line.head?.map id).all isWhitespace = (line'.head?.map id).all isWhitespace := by
  cases respaced with
  | nil => rfl
  | char c rest => rfl
  | run run run' ne ne' white white' rest =>
    obtain ⟨c, run, rfl⟩ := List.exists_cons_of_ne_nil ne
    obtain ⟨c', run', rfl⟩ := List.exists_cons_of_ne_nil ne'
    exact (white c List.mem_cons_self).trans (white' c' List.mem_cons_self).symm

/-- The tokens are the same. -/
lemma Respaced.split {quote : Option Char} {line line' : List Char}
    (respaced : Respaced quote line line') (token : List Char) :
    lexemesFrom id quote token line = lexemesFrom id quote token line' := by
  induction respaced generalizing token with
  | nil => rfl
  | @char quote line line' c rest ih =>
    rw [lexemesFrom, lexemesFrom, rest.head]
    by_cases point : quote = none ∧ id c = '.' ∧ (line'.head?.map id).all isWhitespace = true
    · have outside : nextQuote quote c = none := by
        rw [point.1, show c = '.' from point.2.1]
        rfl
      rw [outside] at ih
      rw [if_pos point, if_pos point, ih]
    · rw [if_neg point, if_neg point]
      by_cases white : quote = none ∧ isWhitespace (id c) = true
      · have outside : nextQuote quote c = none := by
          rw [white.1]
          exact if_neg (not_or.mpr ⟨(white_plain white.2).1, (white_plain white.2).2.1⟩)
        rw [outside] at ih
        rw [if_pos white, if_pos white, ih]
      · rw [if_neg white, if_neg white]
        exact ih _
  | run run run' ne ne' white white' rest ih =>
    rw [lexemesFrom_run (f := id) token _ ne white, lexemesFrom_run (f := id) token _ ne' white', ih]

/-- So are the lexemes of a line. -/
lemma Respaced.lexemes {line line' : List Char} (respaced : Respaced none line line') :
    lexemes line = Copybook.lexemes line' :=
  respaced.split []

/-- The first token begins with the same character. -/
lemma Respaced.begins {quote : Option Char} {line line' : List Char}
    (respaced : Respaced quote line line') : (trimStart line).head? = (trimStart line').head? := by
  induction respaced with
  | nil => rfl
  | @char quote line line' c rest ih =>
    by_cases white : isWhitespace c = true
    · rw [trimStart, trimStart, List.dropWhile_cons_of_pos white, List.dropWhile_cons_of_pos white]
      exact ih
    · rw [trimStart, trimStart, List.dropWhile_cons_of_neg white, List.dropWhile_cons_of_neg white]
      rfl
  | run run run' ne ne' white white' rest ih =>
    rw [trimStart, trimStart, List.dropWhile_append_of_pos white, List.dropWhile_append_of_pos white']
    exact ih

/-- A line whose digits are no sequence number is kept with all its tokens, unless it is a comment. -/
lemma strip_unnumbered {line : List Char} (code : ¬Commented line) (fits : line.length ≤ 72)
    (free : Unnumbered line) : ∃ kept, stripCardColumns line = some kept ∧ lexemes kept = lexemes line := by
  by_cases fixed : fixedFormat (Utf8.bytes line) = true
  · obtain ⟨card, rfl⟩ := fixedFormat_iff.mp fixed
    have blank : ∀ c ∈ card.sequence, isWhitespace c = true := by
      intro c mem
      have own : c = ' ' := free fixed c (by rw [Card.line, List.take_left' card.six]; exact mem)
      rw [own]
      rfl
    have mark : ¬(card.indicator = '*' ∨ card.indicator = '/') := by
      -- Behind blanks the indicator of a comment is the first token.
      intro comment
      apply code
      have nothing : trimStart card.sequence = [] := List.dropWhile_eq_nil_iff.mpr blank
      rw [Card.line, commented_white nothing]
      rcases comment with eq | eq
      · exact .inl (by rw [eq]; rfl)
      · exact .inr (by rw [eq]; rfl)
    have whole : card.code.take 65 = card.code := by
      have length : card.line.length = 7 + card.code.length := by
        rw [Card.line, List.length_append, card.six, List.length_cons]
        omega
      exact List.take_of_length_le (by omega)
    have ne : card.sequence ≠ [] := List.ne_nil_of_length_eq_add_one card.six
    refine ⟨card.indicator :: card.code, ?_, ?_⟩
    · rw [Card.strip code, if_neg mark, whole]
    · rw [lexemes, lexemes, Card.line, lexemesFrom_run (f := id) [] _ ne blank]
      cases lexemesFrom id none [] (card.indicator :: card.code) <;> rfl
  · exact ⟨line, strip_free code fixed, rfl⟩

/-- Respaced lines are kept with the same tokens. -/
lemma Respaced.code {raws raws' : List (List Char)} (respaced : List.Forall₂ (Respaced none) raws raws')
    (fits : ∀ line ∈ raws, line.length ≤ 72) (fits' : ∀ line ∈ raws', line.length ≤ 72)
    (free : ∀ line ∈ raws, Unnumbered line) (free' : ∀ line ∈ raws', Unnumbered line) :
    List.Forall₂ (fun line line' => Copybook.lexemes line = Copybook.lexemes line')
      (raws.filterMap stripCardColumns) (raws'.filterMap stripCardColumns) := by
  induction respaced with
  | nil => exact .nil
  | @cons line line' raws raws' own _ ih =>
    obtain ⟨fit, fits⟩ := List.forall_mem_cons.mp fits
    obtain ⟨fit', fits'⟩ := List.forall_mem_cons.mp fits'
    obtain ⟨plain, free⟩ := List.forall_mem_cons.mp free
    obtain ⟨plain', free'⟩ := List.forall_mem_cons.mp free'
    have rest := ih fits fits' free free'
    have both : Commented line ↔ Commented line' := by rw [Commented, own.begins, Commented]
    by_cases comment : Commented line
    · rw [List.filterMap_cons_none (strip_commented comment),
        List.filterMap_cons_none (strip_commented (both.mp comment))]
      exact rest
    · obtain ⟨kept, some, same⟩ := strip_unnumbered comment fit plain
      obtain ⟨kept', some', same'⟩ := strip_unnumbered (fun is => comment (both.mpr is)) fit' plain'
      rw [List.filterMap_cons_some some, List.filterMap_cons_some some']
      exact .cons (same.trans (own.lexemes.trans same'.symm)) rest

end Lines

section Sources

variable [Unicode]

/-- Spacing outside literals makes no difference on lines of up to 72 columns, as long as no digit is
taken for a sequence number. -/
theorem compile_respaced {source source' : String}
    (respaced : List.Forall₂ (Respaced none) (lines source.toList) (lines source'.toList))
    (fits : ∀ line ∈ lines source.toList, line.length ≤ 72)
    (fits' : ∀ line ∈ lines source'.toList, line.length ≤ 72)
    (free : ∀ line ∈ lines source.toList, Unnumbered line)
    (free' : ∀ line ∈ lines source'.toList, Unnumbered line) :
    ((∀ line ∈ codeLines source, Closed line) → compile source' = compile source) ∧
    ((¬∀ line ∈ codeLines source, Closed line) →
      (∃ line ∈ codeLines source, ¬Closed line ∧ compile source = .error (unterminated line)) ∧
        ∃ line ∈ codeLines source', ¬Closed line ∧ compile source' = .error (unterminated line)) := by
  have same := Respaced.code respaced fits fits' free free'
  rw [← codeLines, ← codeLines] at same
  refine ⟨fun closed => (compile_congr same closed).symm, fun not => ⟨compile_open not, ?_⟩⟩
  exact compile_open fun closed => not ((closed_congr same).mpr closed)

end Sources

section Sample

attribute [local instance] asciiUnicode

/-- A record of one field, on two lines. -/
def sampleTight : String := "01 R.\n05 A PIC X."

/-- A blank more or two, also in front of a line that goes on. -/
def sampleLoose : String := "01  R.\n05   A PIC X."

/-- Five blanks behind the level number. -/
def sampleAligned : String := "01 R.\n05     A PIC X."

lemma sampleTight_lines : lines sampleTight.toList
    = ["01 R.".toList, '0' :: '5' :: ([' '] ++ "A PIC X.".toList)] := by decide

lemma sampleLoose_lines : lines sampleLoose.toList
    = ['0' :: '1' :: ("  ".toList ++ "R.".toList), '0' :: '5' :: ("   ".toList ++ "A PIC X.".toList)] := by
  decide

lemma sampleAligned_lines : lines sampleAligned.toList
    = ["01 R.".toList, '0' :: '5' :: ("     ".toList ++ "A PIC X.".toList)] := by decide

/-- A record whose tokens are further apart compiles to the same. -/
theorem compile_respaced_loose : compile sampleLoose = compile sampleTight := by
  have first : Respaced none "01 R.".toList ('0' :: '1' :: ("  ".toList ++ "R.".toList)) :=
    .char '0' (.char '1' (.run [' '] _ (by decide) (by decide) (List.all_eq_true.mp (by decide))
      (List.all_eq_true.mp (by decide)) (.refl _ _)))
  have second : Respaced none ('0' :: '5' :: ([' '] ++ "A PIC X.".toList))
      ('0' :: '5' :: ("   ".toList ++ "A PIC X.".toList)) :=
    .char '0' (.char '5' (.run _ _ (by decide) (by decide) (List.all_eq_true.mp (by decide))
      (List.all_eq_true.mp (by decide)) (.refl _ _)))
  have respaced : List.Forall₂ (Respaced none) (lines sampleTight.toList) (lines sampleLoose.toList) := by
    rw [sampleTight_lines, sampleLoose_lines]
    exact .cons first (.cons second .nil)
  exact (compile_respaced respaced (by decide) (by decide) (by decide) (by decide)).1 (by decide)

/-- With five blanks the level number is taken for a sequence number, and the entry is refused. -/
theorem compile_respaced_aligned :
    List.Forall₂ (Respaced none) (lines sampleTight.toList) (lines sampleAligned.toList) ∧
    (∀ line ∈ lines sampleTight.toList, ¬fixedFormat (Utf8.bytes line) = true ∧ line.length ≤ 72) ∧
    (∀ line ∈ lines sampleAligned.toList, line.length ≤ 72) ∧
    (compile sampleTight).map (fun raw => raw.records.map (·.fields.map (·.name))) = .ok [["A"]] ∧
    compile sampleAligned = .error (.invalid
      "expected a level number at the start of \"A PIC X\", found \"A\"") := by
  have second : Respaced none ('0' :: '5' :: ([' '] ++ "A PIC X.".toList))
      ('0' :: '5' :: ("     ".toList ++ "A PIC X.".toList)) :=
    .char '0' (.char '5' (.run _ _ (by decide) (by decide) (List.all_eq_true.mp (by decide))
      (List.all_eq_true.mp (by decide)) (.refl _ _)))
  have tight : statements sampleTight = .ok [["01", "R"], ["05", "A", "PIC", "X"]] := by decide
  have aligned : statements sampleAligned = .ok [["01", "R"], ["A", "PIC", "X"]] := by decide
  refine ⟨?_, by decide, by decide, ?_, ?_⟩
  · rw [sampleTight_lines, sampleAligned_lines]
    exact .cons (.refl _ _) (.cons second .nil)
  · rw [compile, tight]
    rfl
  · rw [compile, aligned]
    rfl

end Sample

end GrpcEbcdic.Copybook

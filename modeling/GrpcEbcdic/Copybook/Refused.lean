import GrpcEbcdic.Copybook.Clauses
import GrpcEbcdic.Copybook.Conditions
import GrpcEbcdic.Copybook.Shapes

/-!
# Refused clauses

When a copybook that is in the supported subset but for some refused clauses is refused as unsupported:
exactly when the first refused clause that the clause loop comes to is one it tells for what it is
(`compile_refuses_iff`). What stands behind `VALUE`, or in a level-88 entry, it does not come to.
-/

namespace GrpcEbcdic.Copybook
open Rust Fallible

section Spec

/-- The first refused clause of a sentence that is looked at. -/
def Sentence.firstRefused : Sentence → Option Clause
  | .data entry => (seen entry.clauses).find? Clause.refuses
  | .condition _ _ _ => none
  | .renames _ => some (.unsupported "RENAMES")

/-- A sentence without its refused clauses. -/
def Sentence.stripped : Sentence → Option Sentence
  | .data entry => some (.data { entry with clauses := entry.clauses.filter (!·.refuses) })
  | .condition name _ values => some (.condition name [] values)
  | .renames _ => none

end Spec

section Sentences

variable [Unicode]

omit [Unicode] in
/-- The tokens of a refused clause do not introduce the values of a condition name. -/
lemma refused_noValue {clause : Clause} {tokens : List String} (w : clause.Written tokens)
    (re : clause.refuses = true) : ∀ token ∈ tokens, token ∉ ["VALUE", "VALUES"] := by
  have operand : ∀ {token : String}, IsOperand token → token ∉ ["VALUE", "VALUES"] := by
    rintro token (kw | mem) value
    · have spec : ∀ token ∈ ["VALUE", "VALUES"], isClauseKeyword token = true := by decide
      rw [spec token value] at kw
      cases kw
    · have spec : ∀ token ∈ ["IS", "LEFT", "RIGHT"], token ∉ ["VALUE", "VALUES"] := by decide
      exact spec token mem value
  have digits : ∀ {token : String} {n : Nat}, parseDigits token.toList = some n →
      token ∉ ["VALUE", "VALUES"] := by
    intro token n some value
    have spec : ∀ token ∈ ["VALUE", "VALUES"], parseDigits token.toList = none := by decide
    rw [spec token value] at some
    cases some
  -- Of the clauses only the last three kinds are refused, and these are spelled out word by word.
  cases w with
  | picture => cases re
  | usage => cases re
  | occurs => cases re
  | value => cases re
  | neutral => cases re
  | @unsupported intro operands word hi rf ops =>
    intro token mem
    have introduced : ∀ intro ∈ usageIntros, ∀ token ∈ intro, token ∉ ["VALUE", "VALUES"] := by
      decide
    rcases List.mem_append.mp mem with mem | mem
    · exact introduced intro hi token mem
    · rcases List.mem_cons.mp mem with rfl | mem
      · intro value
        have spec : ∀ token ∈ ["VALUE", "VALUES"], refused token = none := by decide
        rw [spec token value] at rf
        cases rf
      · exact operand (ops token mem)
  | @depending count object n times on hn ht ho obj =>
    have words : ∀ times ∈ [[], ["TIMES"]], ∀ token ∈ times, token ∉ ["VALUE", "VALUES"] := by decide
    have ons : ∀ on ∈ [[], ["ON"]], ∀ token ∈ on, token ∉ ["VALUE", "VALUES"] := by decide
    simp only [List.forall_mem_cons, List.forall_mem_append]
    exact ⟨by decide, digits hn, words times ht, by decide, ons on ho, operand (.inl obj), by simp⟩
  | @dependingRange low count object m n times on hm hn ht ho obj =>
    have words : ∀ times ∈ [[], ["TIMES"]], ∀ token ∈ times, token ∉ ["VALUE", "VALUES"] := by decide
    have ons : ∀ on ∈ [[], ["ON"]], ∀ token ∈ on, token ∉ ["VALUE", "VALUES"] := by decide
    simp only [List.forall_mem_cons, List.forall_mem_append]
    exact ⟨by decide, digits hm, by decide, digits hn, words times ht, by decide, ons on ho,
      operand (.inl obj), by simp⟩

/-- The body of a condition name does not introduce its values. -/
lemma body_noValue {clauses : List Clause} {body : List String}
    (re : ∀ clause ∈ clauses, clause.refuses = true) (cw : ClausesWritten clauses body) :
    ∀ token ∈ body, toUppercase token ∉ ["VALUE", "VALUES"] := by
  obtain ⟨tokens, ws, upper⟩ := cw
  have all : ∀ piece ∈ tokens, ∀ token ∈ piece, token ∉ ["VALUE", "VALUES"] := by
    clear upper
    induction ws with
    | nil => simp
    | cons w ws ih =>
      rw [List.forall_mem_cons] at re ⊢
      exact ⟨refused_noValue w re.1, ih re.2⟩
  intro token mem
  have mem := List.mem_map_of_mem (f := toUppercase) mem
  rw [upper] at mem
  obtain ⟨piece, hp, mem⟩ := List.mem_flatten.mp mem
  exact all piece hp _ mem

/-- A level-88 entry is read from its first `VALUE` on. -/
lemma parseItem_condition {first name value : String} {body is values : List String}
    (lv : parseUnsigned (2 ^ 8) (toUppercase first).toList = some 88)
    (kw : isClauseKeyword (toUppercase name) = false)
    (hb : ∀ token ∈ body, toUppercase token ∉ ["VALUE", "VALUES"])
    (hv : toUppercase value ∈ ["VALUE", "VALUES"])
    (his : is.map toUppercase ∈ [[], ["IS"], ["ARE"]]) :
    parseItem (first :: name :: (body ++ value :: (is ++ values))) =
      (conditionValues name [] false (values.map fun token => (token, toUppercase token))).map
        fun values => .condition ⟨name, values⟩ := by
  -- The level, the name and the words before VALUE are passed by.
  have front : ∀ token ∈ first :: name :: body, toUppercase token ∉ ["VALUE", "VALUES"] := by
    intro token mem eq
    rcases List.mem_cons.mp mem |>.imp_right List.mem_cons.mp with rfl | rfl | mem
    · have spec : ∀ token ∈ ["VALUE", "VALUES"], parseUnsigned (2 ^ 8) token.toList = none := by
        decide
      rw [spec _ eq] at lv
      cases lv
    · have spec : ∀ token ∈ ["VALUE", "VALUES"], isClauseKeyword token = true := by decide
      rw [spec _ eq] at kw
      cases kw
    · exact hb token mem eq
  have behind := @valueTokens_behind _ (first :: name :: body) (is ++ values) value front hv
  rw [List.cons_append, List.cons_append] at behind
  rw [parseItem_level88 lv, conditionName_named kw, behind]
  dsimp only
  rw [conditionValues_is his, ← paired]
  cases conditionValues name [] false (paired values) <;> rfl

omit [Unicode] in
/-- What is seen has nothing refused in it, so it is still there when the refused clauses are gone. -/
lemma seen_filter {clauses : List Clause} (none : (seen clauses).find? Clause.refuses = none) :
    seen (clauses.filter (!·.refuses)) = seen clauses := by
  induction clauses with
  | nil => rfl
  | cons clause clauses ih =>
    by_cases value : clause = .value
    · subst value
      simp [seen, Clause.refuses]
    · have head : seen (clause :: clauses) = clause :: seen clauses := by simp [seen, value]
      rw [head, List.find?_cons] at none
      cases re : clause.refuses with
      | true => simp [re] at none
      | false =>
        simp only [re] at none
        rw [head, List.filter_cons_of_pos (by simp [re]), ← ih none]
        simp [seen, value]

/-- What a sentence in which the loop comes to no refused clause turns out to be. -/
def Sentence.parsed : Sentence → Except ParseError Parsed
  | .data entry => .ok (.item entry.item)
  | .condition name _ values =>
    (conditionValues name [] false (values.map fun token => (token, toUppercase token))).map
      fun values => .condition ⟨name, values⟩
  | .renames _ => .error (.unsupported "level-66 RENAMES regroups fields that are already described")

/-- Such a sentence is read. -/
lemma parseItem_clear {sentence : Sentence} {statement : Statement} (w : sentence.Written statement)
    (none : sentence.firstRefused = none) :
    parseItem statement = sentence.parsed ∧ ∃ parsed, sentence.parsed = .ok parsed := by
  cases w with
  | data w => exact ⟨parseItem_written w none, _, rfl⟩
  | @condition first name value clauses body is values lv kw re cw hv his ne vw =>
    refine ⟨parseItem_condition lv kw (body_noValue re cw) hv his, ?_⟩
    obtain ⟨result, ok, _⟩ : ∃ result, conditionValues name [] false
        (values.map fun token => (token, toUppercase token)) = .ok result ∧ _ :=
      conditionValues_written vw (.inr ne)
    exact ⟨.condition ⟨name, result⟩, by rw [Sentence.parsed, ok]; rfl⟩
  | renames => cases none

/-- Without its refused clauses it is read as the same. -/
lemma parsed_stripped {sentence : Sentence} (none : sentence.firstRefused = none) :
    ∃ stripped, sentence.stripped = some stripped ∧ stripped.firstRefused = .none ∧
      stripped.parsed = sentence.parsed := by
  cases sentence with
  | data entry =>
    have eq := seen_filter none
    refine ⟨_, rfl, ?_, ?_⟩
    · rw [Sentence.firstRefused, eq]
      exact none
    · rw [Sentence.parsed, Sentence.parsed, Entry.item, Entry.item, eq]
  | condition name clauses values => exact ⟨_, rfl, rfl, rfl⟩
  | renames => cases none

/-- A sentence in which the loop comes to a refused clause is refused, or taken for a mistake. -/
lemma parseItem_firstRefused {sentence : Sentence} {statement : Statement} {clause : Clause}
    (w : sentence.Written statement) (first : sentence.firstRefused = some clause) :
    ∃ reason, parseItem statement
      = .error (if clause.recognized then .unsupported reason else .invalid reason) := by
  cases w with
  | data w => exact parseItem_refuses w first
  | condition => cases first
  | renames lv =>
    cases first
    exact ⟨_, parseItem_level66 _ lv⟩

end Sentences

section Copybooks

variable [Unicode]

/-- Statements that are parsed alike are collected alike. -/
lemma collectItems_congr {items : List Item} {stmts stmts' : List Statement}
    (same : List.Forall₂ (fun s s' => parseItem s = parseItem s') stmts stmts') :
    collectItems items stmts = collectItems items stmts' := by
  induction same generalizing items with
  | nil => rfl
  | cons eq _ ih =>
    rw [collectItems, collectItems, eq]
    refine bind_congr fun parsed => bind_congr fun next => ih

/-- Behind a first item, sentences in which the loop comes to no refused clause are all collected. -/
lemma collectItems_clear {sentences : List Sentence} {stmts : List Statement} {items : List Item}
    (ws : List.Forall₂ Sentence.Written sentences stmts)
    (none : ∀ sentence ∈ sentences, sentence.firstRefused = none) (ne : items ≠ []) :
    ∃ items', ∀ more, collectItems items (stmts ++ more) = collectItems items' more := by
  induction ws generalizing items with
  | nil => exact ⟨items, fun _ => rfl⟩
  | @cons sentence statement sentences stmts w ws ih =>
    rw [List.forall_mem_cons] at none
    obtain ⟨eq, parsed, ok⟩ := parseItem_clear w none.1
    obtain ⟨next, hc, ne'⟩ : ∃ next, collect items parsed = .ok next ∧ next ≠ [] := by
      cases parsed with
      | item item => exact ⟨_, rfl, by simp⟩
      | condition condition =>
        obtain ⟨before, last, rfl⟩ := List.eq_nil_or_concat' items |>.resolve_left ne
        exact ⟨_, attachCondition_ok.mpr ⟨before, last, rfl, rfl⟩, by simp⟩
    obtain ⟨items', go⟩ := ih none.2 ne'
    refine ⟨items', fun more => ?_⟩
    rw [List.cons_append, collectItems, eq, ok, ← go more]
    simp only [bind, Except.bind, hc]

/-- The first refused clause the loop comes to decides what becomes of the copybook. -/
lemma compile_firstRefused {source : String} {stmts : List Statement} {entry : Entry}
    {sentences : List Sentence} {clause : Clause} (st : statements source = .ok stmts)
    (ws : List.Forall₂ Sentence.Written (.data entry :: sentences) stmts)
    (first : (Sentence.data entry :: sentences).findSome? Sentence.firstRefused = some clause) :
    ∃ reason, compile source
      = .error (if clause.recognized then .unsupported reason else .invalid reason) := by
  have stop : ∃ reason, collectItems [] stmts
      = .error (if clause.recognized then .unsupported reason else .invalid reason) := by
    obtain ⟨before, sentence, after, eq, some, none⟩ := List.findSome?_eq_some_iff.mp first
    rw [eq] at ws
    obtain ⟨front, rest, hf, hr, rfl⟩ := Pairing.forall₂_append_left ws
    obtain ⟨statement, behind, w, _, rfl⟩ := List.forall₂_cons_left_iff.mp hr
    obtain ⟨reason, er⟩ := parseItem_firstRefused w some
    refine ⟨reason, ?_⟩
    have here : ∀ items, collectItems items (statement :: behind)
        = .error (if clause.recognized then .unsupported reason else .invalid reason) := by
      intro items
      rw [collectItems, er]
      rfl
    cases before with
    | nil =>
      cases hf
      exact here []
    | cons head before =>
      cases eq
      obtain ⟨first', inner, w', hi, rfl⟩ := List.forall₂_cons_left_iff.mp hf
      rw [List.forall_mem_cons] at none
      obtain ⟨items', go⟩ := collectItems_clear hi none.2 (List.cons_ne_nil entry.item [])
      have eq := (parseItem_clear w' none.1).1
      rw [List.cons_append, collectItems, eq]
      exact (go _).trans (here items')
  obtain ⟨reason, er⟩ := stop
  refine ⟨reason, ?_⟩
  have ne : stmts ≠ [] := by rintro rfl; cases ws
  rw [compile_statements st, compileStatements, if_neg ne, er]

/-- A copybook in which the loop comes to no refused clause compiles as the one without them. -/
lemma compile_stripped {source source' : String} {stmts stmts' : List Statement}
    {sentences : List Sentence} (st : statements source = .ok stmts)
    (st' : statements source' = .ok stmts')
    (ws : List.Forall₂ Sentence.Written sentences stmts)
    (ws' : List.Forall₂ Sentence.Written (sentences.filterMap Sentence.stripped) stmts')
    (none : sentences.findSome? Sentence.firstRefused = none) : compile source = compile source' := by
  have same : List.Forall₂ (fun s s' => parseItem s = parseItem s') stmts stmts' := by
    clear st st'
    induction ws generalizing stmts' with
    | nil =>
      cases ws'
      exact .nil
    | @cons sentence statement sentences stmts w ws ih =>
      rw [List.findSome?_eq_none_iff, List.forall_mem_cons] at none
      obtain ⟨stripped, hs, none', eq⟩ := parsed_stripped none.1
      rw [List.filterMap_cons_some hs] at ws'
      obtain ⟨statement', rest', w', rest, rfl⟩ := List.forall₂_cons_left_iff.mp ws'
      refine .cons ?_ (ih rest (List.findSome?_eq_none_iff.mpr none.2))
      rw [(parseItem_clear w none.1).1, (parseItem_clear w' none').1, eq]
  have nil : stmts = [] ↔ stmts' = [] := by
    cases same <;> simp
  rw [compile_statements st, compile_statements st', compileStatements, compileStatements,
    collectItems_congr same]
  simp only [nil]

/-- A copybook that is otherwise in the supported subset is refused as unsupported exactly when the loop
comes to a refused clause and tells the first such clause for what it is. -/
theorem compile_refuses_iff {source source' : String} {stmts stmts' : List Statement} {entry : Entry}
    {sentences : List Sentence} (st : statements source = .ok stmts)
    (st' : statements source' = .ok stmts')
    (ws : List.Forall₂ Sentence.Written (.data entry :: sentences) stmts)
    (ws' : List.Forall₂ Sentence.Written
      ((Sentence.data entry :: sentences).filterMap Sentence.stripped) stmts')
    (supported : ∀ reason, compile source' ≠ .error (.unsupported reason)) :
    (∃ reason, compile source = .error (.unsupported reason)) ↔
      ∃ clause, (Sentence.data entry :: sentences).findSome? Sentence.firstRefused = some clause ∧
        clause.recognized = true := by
  cases first : (Sentence.data entry :: sentences).findSome? Sentence.firstRefused with
  | none =>
    rw [compile_stripped st st' ws ws' first]
    simp [supported]
  | some clause =>
    obtain ⟨reason, er⟩ := compile_firstRefused st ws first
    rw [er]
    cases ok : clause.recognized <;> simp [ok]

end Copybooks

section Sample

attribute [local instance] asciiUnicode

/-- A record. -/
def sampleRecord : Entry := ⟨1, some "R", []⟩

/-- An item with a refused usage behind its `VALUE`. -/
def sampleRefused : Entry := ⟨5, some "A", [.picture "S9(5)", .value, .unsupported "COMP-5"]⟩

/-- An item whose count is a range. -/
def sampleRange : Entry := ⟨5, some "A", [.picture "X", .depending (some 1) 5]⟩

lemma sampleRecord_written : sampleRecord.Written ["01", "R"] :=
  ⟨.inl (by decide), "01", ["R"], [], rfl, by decide, .named (by decide) (by decide), [], .nil, rfl⟩

lemma sampleDigits_written : (Clause.picture "S9(5)").Written ["PIC", "S9(5)"] :=
  @Clause.Written.picture "PIC" "S9(5)" [] (by decide) (by decide) (by decide)

lemma sampleZero_written : Clause.value.Written ["VALUE", "0"] :=
  @Clause.Written.value "VALUE" "0" [] [] (by decide) (by decide) (by decide) (.inl (by decide))

lemma sampleRefused_written :
    sampleRefused.Written ["05", "A", "PIC", "S9(5)", "VALUE", "0", "COMP-5"] := by
  refine ⟨.inl (by decide), "05", ["A"], ["PIC", "S9(5)", "VALUE", "0", "COMP-5"], rfl, by decide,
    .named (by decide) (by decide), [["PIC", "S9(5)"], ["VALUE", "0"], ["COMP-5"]], ?_, by decide⟩
  exact .cons sampleDigits_written (.cons sampleZero_written (.cons
    (@Clause.Written.unsupported [] [] "COMP-5" (by decide) (by decide) (by simp)) .nil))

lemma sampleStripped_written : ({ sampleRefused with clauses := [.picture "S9(5)", .value] } :
    Entry).Written ["05", "A", "PIC", "S9(5)", "VALUE", "0"] := by
  refine ⟨.inl (by decide), "05", ["A"], ["PIC", "S9(5)", "VALUE", "0"], rfl, by decide,
    .named (by decide) (by decide), [["PIC", "S9(5)"], ["VALUE", "0"]], ?_, by decide⟩
  exact .cons sampleDigits_written (.cons sampleZero_written .nil)

lemma sampleRange_written : sampleRange.Written
    ["05", "A", "PIC", "X", "OCCURS", "1", "TO", "5", "TIMES", "DEPENDING", "ON", "N"] := by
  refine ⟨.inl (by decide), "05", ["A"],
    ["PIC", "X", "OCCURS", "1", "TO", "5", "TIMES", "DEPENDING", "ON", "N"], rfl, by decide,
    .named (by decide) (by decide),
    [["PIC", "X"], ["OCCURS", "1", "TO", "5", "TIMES", "DEPENDING", "ON", "N"]], ?_, by decide⟩
  exact .cons (@Clause.Written.picture "PIC" "X" [] (by decide) (by decide) (by decide))
    (.cons (@Clause.Written.dependingRange "1" "5" "N" 1 5 ["TIMES"] ["ON"] (by decide) (by decide)
      (by decide) (by decide) (by decide)) .nil)

lemma sampleRefused_statements : statements "01 R. 05 A PIC S9(5) VALUE 0 COMP-5."
    = .ok [["01", "R"], ["05", "A", "PIC", "S9(5)", "VALUE", "0", "COMP-5"]] := rfl

lemma sampleStripped_statements : statements "01 R. 05 A PIC S9(5) VALUE 0."
    = .ok [["01", "R"], ["05", "A", "PIC", "S9(5)", "VALUE", "0"]] := rfl

lemma sampleRange_statements :
    statements "01 R. 05 A PIC X OCCURS 1 TO 5 TIMES DEPENDING ON N."
      = .ok [["01", "R"],
          ["05", "A", "PIC", "X", "OCCURS", "1", "TO", "5", "TIMES", "DEPENDING", "ON", "N"]] := rfl

theorem compile_refuses_iff_sample :
    (∃ reason, compile "01 R. 05 A PIC S9(5) VALUE 0 COMP-5." = .error (.unsupported reason)) ↔
      ∃ clause, [Sentence.data sampleRecord, .data sampleRefused].findSome? Sentence.firstRefused
          = some clause ∧ clause.recognized = true := by
  refine compile_refuses_iff sampleRefused_statements sampleStripped_statements
    (.cons (.data sampleRecord_written) (.cons (.data sampleRefused_written) .nil))
    (.cons (.data sampleRecord_written) (.cons (.data sampleStripped_written) .nil)) ?_
  intro reason
  obtain ⟨raw, ok⟩ : ∃ raw, compile "01 R. 05 A PIC S9(5) VALUE 0." = .ok raw :=
    ⟨_, (compile_statements sampleStripped_statements).trans rfl⟩
  rw [ok]
  exact nofun

/-- A refused usage behind `VALUE` is accepted silently; the usual form of `OCCURS DEPENDING ON` is
taken for a mistake. -/
theorem compile_misses_refused :
    sampleRefused.Written ["05", "A", "PIC", "S9(5)", "VALUE", "0", "COMP-5"] ∧
    (compile "01 R. 05 A PIC S9(5) VALUE 0 COMP-5.").map (·.shapes) = .ok [⟨.zonedDecimal, 5, 0⟩] ∧
    sampleRange.Written
      ["05", "A", "PIC", "X", "OCCURS", "1", "TO", "5", "TIMES", "DEPENDING", "ON", "N"] ∧
    ∃ reason, compile "01 R. 05 A PIC X OCCURS 1 TO 5 TIMES DEPENDING ON N."
      = .error (.invalid reason) := by
  rw [compile_statements sampleRefused_statements, compile_statements sampleRange_statements]
  exact ⟨sampleRefused_written, rfl, sampleRange_written, _, rfl⟩

end Sample

end GrpcEbcdic.Copybook

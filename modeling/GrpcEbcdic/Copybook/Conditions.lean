import GrpcEbcdic.Copybook.Constants
import GrpcEbcdic.Copybook.Grammar
import GrpcEbcdic.Support.Fallible

/-!
# Condition names

The literal loop of a level-88 entry against the grammar of its `VALUE` clause. What the grammar
writes is delivered literal by literal (`conditionValues_written`); beyond it the loop refuses only
what begins or ends with `THRU` or holds no literal (`conditionValues_accepts`), so a clause that is
neither is accepted all the same.
-/

namespace GrpcEbcdic.Copybook
open Rust

/-- The bounds of condition values in the order they are written. -/
def bounds (values : List ConditionValue) : List String :=
  values.flatMap fun value => value.low :: value.high.toList

section Words

variable [Unicode]

/-- A word that may stand between `VALUE` and its literals. -/
def isArticle (token : String) : Bool := ["IS", "ARE"].contains (toUppercase token)

/-- A word that makes a range of the literals around it. -/
def isThru (token : String) : Bool := ["THRU", "THROUGH"].contains (toUppercase token)

/-- What is neither the loop takes for a bound. -/
def isBound (token : String) : Bool := !(isArticle token || isThru token)

/-- The tokens behind the first `VALUE` of a statement. -/
def valueTokens (statement : Statement) : Option (List String) :=
  (statement.dropWhile fun token => !(["VALUE", "VALUES"].contains (toUppercase token))).tail?

/-- The values of a clause, `(literal [THRU|THROUGH literal])*`, and its literals without their quotation
marks. -/
inductive Values : List String → List String → Prop where
  | nil : Values [] []
  | value {literal text : String} {rest texts : List String} :
    Reads literal text → Values rest texts → Values (literal :: rest) (text :: texts)
  | range {low thru high text text' : String} {rest texts : List String} :
    Reads low text → toUppercase thru ∈ ["THRU", "THROUGH"] → Reads high text' → Values rest texts →
    Values (low :: thru :: high :: rest) (text :: text' :: texts)

/-- `[IS|ARE] (literal [THRU|THROUGH literal])+`, and its literals without their quotation marks. -/
def ValueGrammar (tokens texts : List String) : Prop :=
  ∃ is values, tokens = is ++ values ∧ is.map toUppercase ∈ [[], ["IS"], ["ARE"]] ∧
    Values values texts ∧ values ≠ []

/-- Without the articles nothing is left, or a `THRU` stands in front or at the end. -/
def Dangling (tokens : List String) : Prop :=
  let words := tokens.filter (!isArticle ·)
  words = [] ∨ (∃ word ∈ words.head?, isThru word = true) ∨ ∃ word ∈ words.getLast?, isThru word = true

/-- The entry has a name. -/
def Named (statement : Statement) : Prop :=
  ∃ name ∈ statement[1]?, isClauseKeyword (toUppercase name) = false

/-- Tokens as the literal loop takes them. -/
def paired (tokens : List String) : List (String × String) :=
  tokens.map fun token => (token, toUppercase token)

end Words

section Loop

variable [Unicode]

/-- The bounds are the words that are none of four. -/
lemma isBound_iff {token : String} :
    isBound token = true ↔ toUppercase token ∉ ["IS", "ARE", "THRU", "THROUGH"] := by
  simp [isBound, isArticle, isThru, and_assoc]

/-- Of the values of a clause the loop takes the literals for bounds. -/
lemma Values.written {values texts : List String} (written : Values values texts) :
    ValuesWritten (values.map toUppercase) ∧ (values.filter isBound).map unquote = texts := by
  induction written with
  | nil => exact ⟨.nil, rfl⟩
  | value reads _ ih =>
    obtain ⟨literal, text⟩ := reads.read
    refine ⟨.value literal ih.1, ?_⟩
    rw [List.filter_cons_of_pos (isBound_iff.mpr literal), List.map_cons, text, ih.2]
  | range reads thru reads' _ ih =>
    obtain ⟨low, text⟩ := reads.read
    obtain ⟨high, text'⟩ := reads'.read
    have not : ¬isBound _ = true := fun is => isBound_iff.mp is (List.mem_append_right ["IS", "ARE"] thru)
    refine ⟨.range low thru high ih.1, ?_⟩
    rw [List.filter_cons_of_pos (isBound_iff.mpr low), List.filter_cons_of_neg not,
      List.filter_cons_of_pos (isBound_iff.mpr high), List.map_cons, List.map_cons, text, text', ih.2]

omit [Unicode] in
/-- A literal closes the range that is open. -/
lemma closeRange_concat (values : List ConditionValue) (low high : String) :
    closeRange (values ++ [.literal low]) high = values ++ [⟨low, some high⟩] := by
  simp [closeRange, ConditionValue.literal]

omit [Unicode] in
/-- A closed range is still a value. -/
lemma closeRange_ne {values : List ConditionValue} (high : String) (ne : values ≠ []) :
    closeRange values high ≠ [] := by
  rw [closeRange, List.getLast?_eq_getLast_of_ne_nil ne]
  exact List.append_ne_nil_of_right_ne_nil _ (List.cons_ne_nil _ _)

/-- The loop passes an article by. -/
lemma conditionValues_article {name token : String} {acc : List ConditionValue} {range : Bool}
    {tokens : List String} (article : isArticle token = true) :
    conditionValues name acc range (paired (token :: tokens))
      = conditionValues name acc range (paired tokens) := by
  have word : toUppercase token = "IS" ∨ toUppercase token = "ARE" := by
    simpa [isArticle] using article
  rw [paired, List.map_cons, conditionValues, if_pos word]
  rfl

/-- A `THRU` opens a range, if there is a value to begin it. -/
lemma conditionValues_thru {name token : String} {acc : List ConditionValue} {range : Bool}
    {tokens : List String} (thru : isThru token = true) :
    conditionValues name acc range (paired (token :: tokens))
      = if acc = [] then
          .error (.invalid
            s!"condition name {debug name} starts a THRU range with no value before it")
        else conditionValues name acc true (paired tokens) := by
  have word : toUppercase token = "THRU" ∨ toUppercase token = "THROUGH" := by
    simpa [isThru] using thru
  have other : ¬(toUppercase token = "IS" ∨ toUppercase token = "ARE") := by
    obtain eq | eq := word <;> rw [eq] <;> decide
  rw [paired, List.map_cons, conditionValues, if_neg other, if_pos word]
  rfl

/-- A literal closes the range before it or stands for itself. -/
lemma conditionValues_literal {name token : String} {acc : List ConditionValue} {range : Bool}
    {tokens : List String} (literal : isBound token = true) :
    conditionValues name acc range (paired (token :: tokens))
      = conditionValues name
          (if range then closeRange acc (unquote token) else acc ++ [.literal (unquote token)]) false
          (paired tokens) := by
  have words : (¬toUppercase token = "IS" ∧ ¬toUppercase token = "ARE") ∧
      ¬toUppercase token = "THRU" ∧ ¬toUppercase token = "THROUGH" := by
    simpa [isBound, isArticle, isThru] using literal
  rw [paired, List.map_cons, conditionValues, if_neg (not_or.mpr words.1), if_neg (not_or.mpr words.2)]
  cases range <;> rfl

/-- Articles make no difference to the loop. -/
lemma conditionValues_filter {name : String} {acc : List ConditionValue} {range : Bool}
    (tokens : List String) :
    conditionValues name acc range (paired tokens)
      = conditionValues name acc range (paired (tokens.filter (!isArticle ·))) := by
  induction tokens generalizing acc range with
  | nil => rfl
  | cons token tokens ih =>
    cases article : isArticle token with
    | true =>
      rw [conditionValues_article article, ih, List.filter_cons_of_neg (by simp [article])]
    | false =>
      rw [List.filter_cons_of_pos (by simp [article])]
      cases thru : isThru token with
      | true => rw [conditionValues_thru thru, conditionValues_thru thru, ih]
      | false =>
        have literal : isBound token = true := by rw [isBound, article, thru]; rfl
        rw [conditionValues_literal literal, conditionValues_literal literal, ih]

/-- Behind a value the loop accepts all words that do not end in an open range. -/
lemma conditionValues_behind {name : String} {acc : List ConditionValue} {range : Bool}
    {words : List String} (plain : ∀ word ∈ words, isArticle word = false) (ne : acc ≠ []) :
    (∃ values, conditionValues name acc range (paired words) = .ok values) ↔
      (words = [] → range = false) ∧ ∀ word ∈ words.getLast?, isThru word = false := by
  induction words generalizing acc range with
  | nil =>
    cases range <;> simp [paired, conditionValues, ne]
  | cons word words ih =>
    obtain ⟨first, plain⟩ := List.forall_mem_cons.mp plain
    cases thru : isThru word with
    | true =>
      rw [conditionValues_thru thru, if_neg ne, ih plain ne]
      cases words with
      | nil => simp [thru]
      | cons next words => simp
    | false =>
      have literal : isBound word = true := by rw [isBound, first, thru]; rfl
      have more : (if range then closeRange acc (unquote word)
          else acc ++ [.literal (unquote word)]) ≠ [] := by
        split
        · exact closeRange_ne _ ne
        · simp
      rw [conditionValues_literal literal, ih plain more]
      cases words with
      | nil => simp [thru]
      | cons next words => simp

/-- The loop accepts all tokens but those that dangle. -/
lemma conditionValues_accepts {name : String} {tokens : List String} :
    (∃ values, conditionValues name [] false (paired tokens) = .ok values) ↔ ¬Dangling tokens := by
  have plain : ∀ word ∈ tokens.filter (!isArticle ·), isArticle word = false := by
    intro word mem
    simpa using (List.mem_filter.mp mem).2
  rw [conditionValues_filter, Dangling]
  generalize tokens.filter (!isArticle ·) = words at plain ⊢
  cases words with
  | nil => simp [paired, conditionValues]
  | cons word words =>
    obtain ⟨first, plain⟩ := List.forall_mem_cons.mp plain
    cases thru : isThru word with
    | true => simp [conditionValues_thru thru, thru]
    | false =>
      have literal : isBound word = true := by rw [isBound, first, thru]; rfl
      rw [conditionValues_literal literal, conditionValues_behind plain (by simp)]
      cases words with
      | nil => simp [thru]
      | cons next words => simp [thru]

/-- Every refusal of the loop is an invalid copybook. -/
lemma conditionValues_invalid {name : String} {acc : List ConditionValue} {range : Bool}
    {tokens : List (String × String)} {e : ParseError}
    (failed : conditionValues name acc range tokens = .error e) : ∃ message, e = .invalid message := by
  induction tokens generalizing acc range with
  | nil =>
    rw [conditionValues] at failed
    split at failed
    · cases failed
      exact ⟨_, rfl⟩
    · cases failed
  | cons token tokens ih =>
    obtain ⟨literal, upper⟩ := token
    rw [conditionValues] at failed
    split at failed
    · exact ih failed
    · split at failed
      · split at failed
        · cases failed
          exact ⟨_, rfl⟩
        · exact ih failed
      · split at failed
        · exact ih failed
        · exact ih failed

/-- The values of a condition name are read one by one, each bound the literal it is written as. -/
lemma conditionValues_written {name : String} {values : List String} {acc : List ConditionValue}
    (vw : ValuesWritten (values.map toUppercase)) (ne : acc ≠ [] ∨ values ≠ []) :
    ∃ result, conditionValues name acc false (paired values) = .ok (acc ++ result) ∧
      bounds result = (values.filter isBound).map unquote := by
  generalize upper : values.map toUppercase = tokens at vw
  induction vw generalizing values acc with
  | nil =>
    rw [List.map_eq_nil_iff] at upper
    subst upper
    rcases ne with ne | ne
    · exact ⟨[], by simp [paired, conditionValues, ne], rfl⟩
    · exact absurd rfl ne
  | value lit _ ih =>
    obtain ⟨literal, rest, rfl, rfl, upper'⟩ := List.map_eq_cons_iff.mp upper
    have lit := isBound_iff.mpr lit
    obtain ⟨result, ok, same⟩ := @ih rest (acc ++ [.literal (unquote literal)]) (.inl (by simp)) upper'
    refine ⟨.literal (unquote literal) :: result, ?_, ?_⟩
    · rw [conditionValues_literal lit]
      exact ok.trans (by rw [List.append_assoc, List.singleton_append])
    · rw [List.filter_cons_of_pos lit, List.map_cons, ← same]
      rfl
  | range lw thru hi _ ih =>
    obtain ⟨low, after, rfl, rfl, upper₁⟩ := List.map_eq_cons_iff.mp upper
    obtain ⟨word, behind, rfl, rfl, upper₂⟩ := List.map_eq_cons_iff.mp upper₁
    obtain ⟨high, rest, rfl, rfl, upper₃⟩ := List.map_eq_cons_iff.mp upper₂
    have lw := isBound_iff.mpr lw
    have hi := isBound_iff.mpr hi
    have thru : isThru word = true := by simpa [isThru] using thru
    obtain ⟨result, ok, same⟩ :=
      @ih rest (acc ++ [⟨unquote low, some (unquote high)⟩]) (.inl (by simp)) upper₃
    refine ⟨⟨unquote low, some (unquote high)⟩ :: result, ?_, ?_⟩
    · rw [conditionValues_literal lw, if_neg Bool.false_ne_true, conditionValues_thru thru,
        if_neg (by simp), conditionValues_literal hi, if_pos rfl, closeRange_concat]
      exact ok.trans (by rw [List.append_assoc, List.singleton_append])
    · have not : isBound word = false := by rw [isBound, thru, Bool.or_true]; rfl
      rw [List.filter_cons_of_pos lw, List.filter_cons_of_neg (by simp [not]),
        List.filter_cons_of_pos hi, List.map_cons, List.map_cons, ← same]
      rfl

end Loop

section Entries

variable [Unicode]

/-- In front of the values there is at most one article. -/
lemma is_article {is : List String} (arms : is.map toUppercase ∈ [[], ["IS"], ["ARE"]]) :
    is = [] ∨ ∃ word, is = [word] ∧ isArticle word = true := by
  cases is with
  | nil => exact .inl rfl
  | cons word is =>
    have words : (toUppercase word = "IS" ∨ toUppercase word = "ARE") ∧ is = [] := by
      simpa [or_and_right] using arms
    exact .inr ⟨word, by rw [words.2], by simpa [isArticle] using words.1⟩

/-- It is passed by. -/
lemma conditionValues_is {name : String} {acc : List ConditionValue} {range : Bool}
    {is values : List String} (arms : is.map toUppercase ∈ [[], ["IS"], ["ARE"]]) :
    conditionValues name acc range (paired (is ++ values))
      = conditionValues name acc range (paired values) := by
  obtain rfl | ⟨word, rfl, article⟩ := is_article arms
  · rfl
  · exact conditionValues_article article

/-- And it is no bound. -/
lemma filter_is {is : List String} (arms : is.map toUppercase ∈ [[], ["IS"], ["ARE"]]) :
    is.filter isBound = [] := by
  obtain rfl | ⟨word, rfl, article⟩ := is_article arms
  · rfl
  · exact List.filter_cons_of_neg (by rw [isBound, article, Bool.true_or]; decide)

/-- The grammar delivers exactly its literals. -/
lemma conditionValues_grammar {name : String} {tokens texts : List String}
    (grammar : ValueGrammar tokens texts) :
    ∃ values, conditionValues name [] false (paired tokens) = .ok values ∧ bounds values = texts := by
  obtain ⟨is, written, rfl, arms, vw, ne⟩ := grammar
  obtain ⟨vw, literals⟩ := vw.written
  obtain ⟨values, ok, same⟩ := @conditionValues_written _ name written [] vw (.inr ne)
  exact ⟨values, (conditionValues_is arms).trans ok, same.trans literals⟩

/-- An entry of level 88 is a condition name. -/
lemma parseItem_level88 {first : String} {rest : List String}
    (lv : parseUnsigned (2 ^ 8) (toUppercase first).toList = some 88) :
    parseItem (first :: rest) = (conditionName (first :: rest)).map .condition := by
  unfold parseItem
  dsimp only [List.headD_cons]
  rw [lv]
  rfl

/-- The tokens behind the first `VALUE`. -/
lemma valueTokens_behind {front rest : List String} {value : String}
    (before : ∀ token ∈ front, toUppercase token ∉ ["VALUE", "VALUES"])
    (hv : toUppercase value ∈ ["VALUE", "VALUES"]) :
    valueTokens (front ++ value :: rest) = some rest := by
  have stop : (["VALUE", "VALUES"].contains (toUppercase value)) = true := List.elem_iff.mpr hv
  have pass : ∀ token ∈ front, (!(["VALUE", "VALUES"].contains (toUppercase token))) = true := by
    intro token mem
    rw [Bool.not_eq_true', ← Bool.not_eq_true]
    exact fun is => before token mem (List.elem_iff.mp is)
  rw [valueTokens, List.dropWhile_append_of_pos pass, List.dropWhile_cons_of_neg (by rw [stop]; decide)]
  rfl

/-- A named entry is read from its first `VALUE` on. -/
lemma conditionName_named {first name : String} {rest : List String}
    (kw : isClauseKeyword (toUppercase name) = false) :
    conditionName (first :: name :: rest)
      = match valueTokens (first :: name :: rest) with
        | none =>
          .error (.invalid
            s!"condition name {debug name} has no VALUE clause, so it names no values")
        | some tokens =>
          match conditionValues name [] false (paired tokens) with
          | .error e => .error e
          | .ok values => .ok ⟨name, values⟩ := by
  have clause : (fun token : String × String => !(token.2 = "VALUE" || token.2 = "VALUES"))
      ∘ (fun token => (token, toUppercase token))
      = fun token : String => !(["VALUE", "VALUES"].contains (toUppercase token)) := by
    funext token
    simp
  rw [conditionName, kw, if_neg Bool.false_ne_true]
  dsimp only
  rw [List.dropWhile_map, clause, valueTokens]
  generalize (first :: name :: rest).dropWhile
    (fun token => !(["VALUE", "VALUES"].contains (toUppercase token))) = tokens
  cases tokens with
  | nil => rfl
  | cons value tokens => rfl

/-- An entry without a name is refused. -/
lemma conditionName_unnamed {statement : Statement} (un : ¬Named statement) :
    ∃ message, conditionName statement = .error (.invalid message) := by
  match statement with
  | [] => exact ⟨_, rfl⟩
  | [_] => exact ⟨_, rfl⟩
  | first :: name :: rest =>
    have kw : isClauseKeyword (toUppercase name) = true := by
      simpa [Named] using un
    rw [conditionName, kw, if_pos rfl]
    exact ⟨_, rfl⟩

/-- The name stands behind the first token. -/
lemma Named.cons {statement : Statement} (named : Named statement) :
    ∃ first name rest, statement = first :: name :: rest ∧
      isClauseKeyword (toUppercase name) = false := by
  obtain ⟨name, at_one, kw⟩ := named
  match statement with
  | [] => cases at_one
  | [_] => cases at_one
  | first :: _ :: rest =>
    cases at_one
    exact ⟨first, name, rest, rfl, kw⟩

/-- A named entry without `VALUE`, or with a dangling clause, is refused. -/
lemma Named.refused {statement : Statement} (named : Named statement)
    (dangling : ∀ tokens ∈ valueTokens statement, Dangling tokens) :
    ∃ message, conditionName statement = .error (.invalid message) := by
  obtain ⟨first, name, rest, rfl, kw⟩ := named.cons
  rw [conditionName_named kw]
  cases some : valueTokens (first :: name :: rest) with
  | none => exact ⟨_, rfl⟩
  | some tokens =>
    dsimp only
    cases result : conditionValues name [] false (paired tokens) with
    | ok values => exact absurd (dangling tokens some) (conditionValues_accepts.mp ⟨values, result⟩)
    | error e =>
      obtain ⟨message, rfl⟩ := conditionValues_invalid result
      exact ⟨message, rfl⟩

/-- A named entry with a clause that does not dangle is accepted. -/
lemma Named.accepted {statement : Statement} (named : Named statement) {tokens : List String}
    (some : valueTokens statement = some tokens) (sound : ¬Dangling tokens) :
    ∃ condition, conditionName statement = .ok condition := by
  obtain ⟨first, name, rest, rfl, kw⟩ := named.cons
  obtain ⟨values, ok⟩ := (@conditionValues_accepts _ name tokens).mpr sound
  rw [conditionName_named kw, some]
  dsimp only
  rw [ok]
  exact ⟨_, rfl⟩

/-- A named entry with a clause of the grammar delivers the literals of the clause. -/
lemma Named.delivers {statement : Statement} (named : Named statement) {tokens texts : List String}
    (some : valueTokens statement = some tokens) (grammar : ValueGrammar tokens texts) :
    ∃ condition, conditionName statement = .ok condition ∧ bounds condition.values = texts := by
  obtain ⟨first, name, rest, rfl, kw⟩ := named.cons
  obtain ⟨values, ok, same⟩ := @conditionValues_grammar _ name tokens texts grammar
  rw [conditionName_named kw, some]
  dsimp only
  rw [ok]
  exact ⟨_, rfl, same⟩

/-- A level-88 entry that is accepted has a clause of the grammar and delivers its literals without their
quotation marks, and every other clause is refused, exactly when a clause off the grammar dangles. -/
theorem conditionName_keeps (statement : Statement) :
    ((∀ condition, conditionName statement = .ok condition →
        ∃ tokens, valueTokens statement = some tokens ∧ ValueGrammar tokens (bounds condition.values)) ∧
      ∀ tokens, valueTokens statement = some tokens → (∀ texts, ¬ValueGrammar tokens texts) →
        ∃ message, conditionName statement = .error (.invalid message)) ↔
      (Named statement → ∀ tokens ∈ valueTokens statement,
        (∃ texts, ValueGrammar tokens texts) ∨ Dangling tokens) := by
  constructor
  · rintro ⟨_, refuses⟩ named tokens some
    by_contra neither
    obtain ⟨grammar, sound⟩ := not_or.mp neither
    obtain ⟨message, refused⟩ := refuses tokens some (not_exists.mp grammar)
    obtain ⟨condition, accepted⟩ := named.accepted some sound
    cases refused.symm.trans accepted
  · intro all
    -- What is refused, for whichever reason, delivers nothing.
    have none : (∃ message, conditionName statement = .error (.invalid message)) →
        (∀ condition, conditionName statement = .ok condition →
          ∃ tokens, valueTokens statement = some tokens ∧
            ValueGrammar tokens (bounds condition.values)) ∧
        ∀ tokens, valueTokens statement = some tokens → (∀ texts, ¬ValueGrammar tokens texts) →
          ∃ message, conditionName statement = .error (.invalid message) := by
      rintro ⟨message, refused⟩
      refine ⟨fun condition accepted => ?_, fun _ _ _ => ⟨message, refused⟩⟩
      cases refused.symm.trans accepted
    by_cases named : Named statement
    · by_cases written : ∃ tokens, valueTokens statement = some tokens ∧ ∃ texts, ValueGrammar tokens texts
      · obtain ⟨tokens, some, texts, grammar⟩ := written
        obtain ⟨condition, accepted, rfl⟩ := named.delivers some grammar
        refine ⟨fun other eq => ?_, fun other eq not => ?_⟩
        · cases accepted.symm.trans eq
          exact ⟨tokens, some, grammar⟩
        · cases some.symm.trans eq
          exact absurd grammar (not _)
      · refine none (named.refused fun tokens some => ?_)
        exact (all named tokens some).resolve_left fun grammar => written ⟨tokens, some, grammar⟩
    · exact none (conditionName_unnamed named)

end Entries

section Sample

attribute [local instance] asciiUnicode

/-- A range with two `THRU`s is accepted and loses the literal between them. -/
theorem conditionName_overwrites :
    conditionName ["88", "C", "VALUE", "1", "THRU", "2", "THRU", "3"] = .ok ⟨"C", [⟨"1", some "3"⟩]⟩ ∧
      valueTokens ["88", "C", "VALUE", "1", "THRU", "2", "THRU", "3"]
        = some ["1", "THRU", "2", "THRU", "3"] ∧
      ∀ texts, ¬ValueGrammar ["1", "THRU", "2", "THRU", "3"] texts := by
  refine ⟨by decide, by decide, ?_⟩
  rintro texts ⟨is, values, eq, arms, vw, ne⟩
  obtain ⟨written, _⟩ := vw.written
  obtain ⟨result, ok, same⟩ := @conditionValues_written _ "C" values [] written (.inr ne)
  rw [← conditionValues_is arms, ← eq, List.nil_append] at ok
  have run : conditionValues "C" [] false (paired ["1", "THRU", "2", "THRU", "3"])
      = .ok [⟨"1", some "3"⟩] := by decide
  cases ok.symm.trans run
  -- Three bounds are written, and two are delivered.
  have three : (["1", "THRU", "2", "THRU", "3"].filter isBound).length = 3 := by decide
  have all := congrArg List.length (congrArg (List.filter isBound) eq)
  rw [List.filter_append, filter_is arms, List.nil_append, three] at all
  have delivered := congrArg List.length same
  rw [List.length_map, ← all] at delivered
  revert delivered
  decide

end Sample

end GrpcEbcdic.Copybook

import GrpcEbcdic.Copybook.Grammar
import Mathlib.Data.List.Forall2

/-!
# The clause loop

`parseClauses` on the tokens of one clause (`parseClauses_written`), and `parseItem` on the statement of
an entry (`parseItem_written`): it sees the clauses in front of the first `VALUE`.
-/

namespace GrpcEbcdic.Copybook
open Rust

section Words

/-- The words the loop steps over. -/
def skippedWords : List String :=
  ["JUSTIFIED", "JUST", "RIGHT", "LEFT", "GLOBAL", "EXTERNAL", "BLANK", "WHEN", "ZERO", "ZEROS",
   "ZEROES", "IS", "ARE", "TIMES", "CHARACTERS"]

/-- The words with an arm of their own in the loop. -/
def clauseWords : List String := ["PIC", "PICTURE", "USAGE", "OCCURS", "VALUE", "VALUES"]

lemma skippedWords_spec : ∀ word ∈ skippedWords,
    refused word = none ∧ usageOf word = none ∧ word ∉ clauseWords ∧ ignorable word = true := by
  decide

lemma clauseWords_spec : ∀ word ∈ clauseWords, refused word = none ∧ usageOf word = none := by
  decide

/-- A refused word is no usage word and has no arm of its own. -/
lemma usageOf_refused {word : String} {usage : Usage} (some : usageOf word = some usage) :
    refused word = none ∧ word ∉ clauseWords := by
  have spec : ∀ word ∈ ["COMP", "COMPUTATIONAL", "COMP-4", "COMPUTATIONAL-4", "BINARY", "COMP-3",
      "COMPUTATIONAL-3", "PACKED-DECIMAL", "DISPLAY"],
      refused word = none ∧ word ∉ clauseWords := by decide
  apply spec word
  by_contra not
  simp only [List.mem_cons, List.not_mem_nil, or_false, not_or] at not
  simp [usageOf, not] at some

end Words

variable [Unicode]

section Arms

/-- A refused word ends the loop. -/
lemma parseClauses_refused {label word reason : String} {acc : Clauses} {rest : List String}
    (rf : refused word = some reason) :
    parseClauses label acc (word :: rest) = .error (refusal label word reason) := by
  rw [parseClauses, rf]

/-- The picture is the token after the keyword and an optional `IS`. -/
lemma parseClauses_picture {label word picture : String} {acc : Clauses} {is rest : List String}
    (hw : word ∈ ["PIC", "PICTURE"]) (his : is ∈ [[], ["IS"]]) (ne : picture ≠ "IS") :
    parseClauses label acc (word :: (is ++ picture :: rest))
      = parseClauses label { acc with picture := some picture } rest := by
  have rf : refused word = none := by revert word; decide
  have arm : word = "PIC" ∨ word = "PICTURE" := by simpa using hw
  simp only [List.mem_cons, List.not_mem_nil, or_false] at his
  rcases his with rfl | rfl
  · rw [List.nil_append, parseClauses, rf]
    simp only [if_pos arm, if_neg ne]
  · rw [List.cons_append, List.nil_append, parseClauses, rf]
    simp only [if_pos arm, if_true]

/-- The usage after the keyword and an optional `IS`, or a usage word by itself. -/
lemma parseClauses_usage {label word : String} {acc : Clauses} {intro rest : List String}
    {usage : Usage} (hi : intro ∈ usageIntros) (us : usageOf word = some usage) :
    parseClauses label acc (intro ++ word :: rest)
      = parseClauses label { acc with usage := some usage } rest := by
  obtain ⟨rf, arms⟩ := usageOf_refused us
  have ne : word ≠ "IS" := by rintro rfl; cases us
  have arm := clauseWords_spec "USAGE" (by decide)
  simp only [usageIntros, List.mem_cons, List.not_mem_nil, or_false] at hi
  simp only [clauseWords, List.mem_cons, List.not_mem_nil, or_false, not_or] at arms
  rcases hi with rfl | rfl | rfl
  · rw [List.nil_append, parseClauses, rf]
    simp [arms, us]
  · rw [List.cons_append, List.nil_append, parseClauses, arm.1]
    simp [ne, rf, us]
  · rw [List.cons_append, List.cons_append, List.nil_append, parseClauses, arm.1]
    simp [rf, us]

/-- A refused usage ends the loop, with or without the keyword. -/
lemma parseClauses_refusedUsage {label word reason : String} {acc : Clauses}
    {intro rest : List String} (hi : intro ∈ usageIntros) (rf : refused word = some reason) :
    parseClauses label acc (intro ++ word :: rest) = .error (refusal label word reason) := by
  have ne : word ≠ "IS" := by rintro rfl; cases rf
  have arm := clauseWords_spec "USAGE" (by decide)
  simp only [usageIntros, List.mem_cons, List.not_mem_nil, or_false] at hi
  rcases hi with rfl | rfl | rfl
  · exact parseClauses_refused rf
  · rw [List.cons_append, List.nil_append, parseClauses, arm.1]
    simp [ne, rf]
  · rw [List.cons_append, List.cons_append, List.nil_append, parseClauses, arm.1]
    simp [rf]

/-- A count in range is the number of occurrences. -/
lemma parseClauses_occurs {label count : String} {acc : Clauses} {rest : List String} {n : Nat}
    (hn : parseUnsigned (2 ^ 32) count.toList = some n) (pos : 1 ≤ n) (le : n ≤ maxOccurs) :
    parseClauses label acc ("OCCURS" :: count :: rest)
      = parseClauses label { acc with occurs := some n } rest := by
  have arm := clauseWords_spec "OCCURS" (by decide)
  have range : ¬(n = 0 ∨ maxOccurs < n) := by omega
  rw [parseClauses, arm.1]
  simp only [arm.2]
  rw [hn]
  exact if_neg range

/-- A count out of range, or none at all, is an error of its own. -/
lemma parseClauses_occurs_error {label count : String} {acc : Clauses} {rest : List String}
    (bad : ∀ n, parseUnsigned (2 ^ 32) count.toList = some n → n = 0 ∨ maxOccurs < n) :
    ∃ reason, parseClauses label acc ("OCCURS" :: count :: rest) = .error (.invalid reason) := by
  have arm := clauseWords_spec "OCCURS" (by decide)
  rw [parseClauses, arm.1]
  simp only [arm.2]
  cases hn : parseUnsigned (2 ^ 32) count.toList with
  | none => exact ⟨_, rfl⟩
  | some n => exact ⟨_, if_pos (bad n hn)⟩

/-- `VALUE` ends the loop. -/
lemma parseClauses_value {label word : String} {acc : Clauses} {rest : List String}
    (hw : word ∈ ["VALUE", "VALUES"]) : parseClauses label acc (word :: rest) = .ok acc := by
  have words : ∀ word ∈ ["VALUE", "VALUES"], word ∈ clauseWords := by decide
  have spec := clauseWords_spec word (words word hw)
  simp only [List.mem_cons, List.not_mem_nil, or_false] at hw
  rw [parseClauses, spec.1, spec.2]
  obtain rfl | rfl := hw <;> simp

/-- A word that describes something other than the bytes is stepped over. -/
lemma parseClauses_skip {label word : String} {acc : Clauses} {rest : List String}
    (hw : word ∈ skippedWords) :
    parseClauses label acc (word :: rest) = parseClauses label acc rest := by
  obtain ⟨rf, us, arms, ig⟩ := skippedWords_spec word hw
  simp only [clauseWords, List.mem_cons, List.not_mem_nil, or_false, not_or] at arms
  rw [parseClauses, rf, us]
  simp [arms, ig]

/-- Words that are all stepped over. -/
lemma parseClauses_skips {label : String} {acc : Clauses} {words rest : List String}
    (hw : ∀ word ∈ words, word ∈ skippedWords) :
    parseClauses label acc (words ++ rest) = parseClauses label acc rest := by
  induction words with
  | nil => rfl
  | cons word words ih =>
    rw [List.cons_append, parseClauses_skip (hw word (by simp)),
      ih fun word mem => hw word (by simp [mem])]

/-- `TO` starts no clause. -/
lemma parseClauses_to {label : String} {acc : Clauses} {rest : List String} :
    ∃ reason, parseClauses label acc ("TO" :: rest) = .error (.invalid reason) := by
  have spec : refused "TO" = none ∧ usageOf "TO" = none ∧ ignorable "TO" = false := by decide
  rw [parseClauses, spec.1, spec.2.1]
  simp [spec.2.2]

end Arms

section Written

/-- What one clause adds to the clauses read so far. -/
def Clauses.add (acc : Clauses) : Clause → Clauses
  | .picture picture => { acc with picture := some picture }
  | .usage usage => { acc with usage := some usage }
  | .occurs count => { acc with occurs := some count }
  | _ => acc

/-- The loop reads a supported clause other than `VALUE` and goes on behind it. -/
lemma parseClauses_supported {label : String} {acc : Clauses} {clause : Clause}
    {tokens rest : List String} (w : clause.Written tokens) (su : clause.refuses = false)
    (ne : clause ≠ .value) :
    parseClauses label acc (tokens ++ rest) = parseClauses label (acc.add clause) rest := by
  cases w with
  | picture hw his is =>
    rw [List.cons_append, List.append_assoc]
    exact parseClauses_picture hw his is
  | usage hi us =>
    rw [List.append_assoc]
    exact parseClauses_usage hi us
  | occurs hn pos le ht =>
    rw [List.cons_append, List.cons_append, parseClauses_occurs hn pos le]
    refine parseClauses_skips fun word mem => ?_
    revert mem word
    simp only [List.mem_cons, List.not_mem_nil, or_false] at ht
    obtain rfl | rfl := ht <;> decide
  | value => exact absurd rfl ne
  | neutral ht =>
    refine parseClauses_skips fun word mem => ?_
    have spec : ∀ tokens ∈ neutralClauses, ∀ word ∈ tokens, word ∈ skippedWords := by decide
    exact spec _ ht word mem
  | unsupported => cases su
  | depending => cases su
  | dependingRange => cases su

/-- Whether the loop tells a refused clause for what it is: a range of counts, or a count it would
not expand, it takes for a mistake. -/
def Clause.recognized : Clause → Bool
  | .depending lower count => lower.isNone && 1 ≤ count && count ≤ maxOccurs
  | _ => true

/-- The loop stops at a refused clause. -/
lemma parseClauses_refuses {label : String} {acc : Clauses} {clause : Clause}
    {tokens rest : List String} (w : clause.Written tokens) (re : clause.refuses = true) :
    ∃ reason, parseClauses label acc (tokens ++ rest)
      = .error (if clause.recognized then .unsupported reason else .invalid reason) := by
  cases w with
  | picture => cases re
  | usage => cases re
  | occurs => cases re
  | value => cases re
  | neutral => cases re
  | @unsupported intro operands word hi rf =>
    obtain ⟨reason, rf⟩ := Option.isSome_iff_exists.mp rf
    rw [List.append_assoc, List.cons_append, parseClauses_refusedUsage hi rf]
    exact ⟨_, rfl⟩
  | @depending count object n times on hn ht =>
    rw [List.cons_append, List.cons_append, List.append_assoc]
    cases ok : (Clause.depending none n).recognized with
    | true =>
      obtain ⟨pos, le⟩ : 1 ≤ n ∧ n ≤ maxOccurs := by simpa [Clause.recognized] using ok
      have hn : parseUnsigned (2 ^ 32) count.toList = some n := by
        rw [parseUnsigned_digits hn, if_pos (by unfold maxOccurs at le; omega)]
      have skip : ∀ word ∈ times, word ∈ skippedWords := by
        simp only [List.mem_cons, List.not_mem_nil, or_false] at ht
        obtain rfl | rfl := ht <;> decide
      obtain ⟨reason, rf⟩ := Option.isSome_iff_exists.mp
        (show (refused "DEPENDING").isSome = true by decide)
      rw [parseClauses_occurs hn pos le, parseClauses_skips skip, List.cons_append,
        parseClauses_refused rf]
      exact ⟨_, rfl⟩
    | false =>
      refine parseClauses_occurs_error fun m hm => ?_
      rw [parseUnsigned_digits hn] at hm
      split at hm
      · cases hm
        simp [Clause.recognized] at ok
        omega
      · cases hm
  | @dependingRange low count object m n times on hm =>
    rw [List.cons_append, List.cons_append, List.cons_append, List.cons_append]
    by_cases ok : 1 ≤ m ∧ m ≤ maxOccurs
    · have hm : parseUnsigned (2 ^ 32) low.toList = some m := by
        have := ok.2
        rw [parseUnsigned_digits hm, if_pos (by unfold maxOccurs at this; omega)]
      rw [parseClauses_occurs hm ok.1 ok.2]
      exact parseClauses_to
    · refine parseClauses_occurs_error fun k hk => ?_
      rw [parseUnsigned_digits hm] at hk
      split at hk
      · cases hk
        omega
      · cases hk

end Written

section Entries

/-- The clauses the loop sees: those in front of the first `VALUE`. -/
def seen (clauses : List Clause) : List Clause := clauses.takeWhile (· ≠ .value)

/-- The clauses it does not see. -/
def hidden (clauses : List Clause) : List Clause := clauses.dropWhile (· ≠ .value)

omit [Unicode] in
lemma seen_append_hidden (clauses : List Clause) : seen clauses ++ hidden clauses = clauses :=
  List.takeWhile_append_dropWhile

/-- The loop reads the clauses it sees, when none of them is refused. -/
lemma parseClauses_written {label : String} {acc : Clauses} {clauses : List Clause}
    {tokens : List (List String)} (ws : List.Forall₂ Clause.Written clauses tokens)
    (su : (seen clauses).find? Clause.refuses = none) :
    parseClauses label acc tokens.flatten = .ok ((seen clauses).foldl Clauses.add acc) := by
  induction ws generalizing acc with
  | nil => rfl
  | @cons clause first clauses tokens w ws ih =>
    rw [List.flatten_cons]
    by_cases ne : clause = .value
    · subst ne
      cases w with
      | value hw =>
        rw [List.cons_append, parseClauses_value hw]
        simp [seen]
    · have head : seen (clause :: clauses) = clause :: seen clauses := by
        simp [seen, ne]
      rw [head, List.find?_cons] at su
      cases re : clause.refuses with
      | true => simp [re] at su
      | false =>
        simp only [re] at su
        rw [head, List.foldl_cons, parseClauses_supported w re ne, ih su]

/-- It stops at the first refused clause it sees. -/
lemma parseClauses_refused_first (label : String) (acc : Clauses) {clauses : List Clause}
    {clause : Clause} {tokens : List (List String)}
    (ws : List.Forall₂ Clause.Written clauses tokens)
    (first : (seen clauses).find? Clause.refuses = some clause) :
    ∃ reason, parseClauses label acc tokens.flatten
      = .error (if clause.recognized then .unsupported reason else .invalid reason) := by
  induction ws generalizing acc with
  | nil => cases first
  | @cons next token clauses tokens w ws ih =>
    rw [List.flatten_cons]
    by_cases ne : next = .value
    · subst ne
      simp [seen] at first
    · have head : seen (next :: clauses) = next :: seen clauses := by
        simp [seen, ne]
      rw [head, List.find?_cons] at first
      cases re : next.refuses with
      | true =>
        simp only [re, Option.some.injEq] at first
        subst first
        exact parseClauses_refuses w re
      | false =>
        simp only [re] at first
        rw [parseClauses_supported w re ne]
        exact ih _ first

omit [Unicode] in
/-- A clause starts with a keyword. -/
lemma Clause.Written.keyword {clause : Clause} {tokens : List String} (w : clause.Written tokens) :
    ∃ word rest, tokens = word :: rest ∧ isClauseKeyword word = true := by
  have intros : ∀ {intro : List String} {word : String} {rest : List String},
      intro ∈ usageIntros → isClauseKeyword word = true →
      ∃ head tail, intro ++ word :: rest = head :: tail ∧ isClauseKeyword head = true := by
    intro intro word rest hi kw
    simp only [usageIntros, List.mem_cons, List.not_mem_nil, or_false] at hi
    rcases hi with rfl | rfl | rfl
    · exact ⟨word, rest, rfl, kw⟩
    · exact ⟨"USAGE", word :: rest, rfl, by decide⟩
    · exact ⟨"USAGE", "IS" :: word :: rest, rfl, by decide⟩
  cases w with
  | picture hw his is =>
    have kw : ∀ word ∈ ["PIC", "PICTURE"], isClauseKeyword word = true := by decide
    exact ⟨_, _, rfl, kw _ hw⟩
  | usage hi us => exact intros hi (by simp [isClauseKeyword, us])
  | occurs => exact ⟨_, _, rfl, by decide⟩
  | value hw =>
    have kw : ∀ word ∈ ["VALUE", "VALUES"], isClauseKeyword word = true := by decide
    exact ⟨_, _, rfl, kw _ hw⟩
  | neutral ht =>
    have kw : ∀ tokens ∈ neutralClauses, ∃ word ∈ tokens.head?, isClauseKeyword word = true := by
      decide
    obtain ⟨word, head, kw⟩ := kw _ ht
    obtain ⟨rest, rfl⟩ := List.head?_eq_some_iff.mp head
    exact ⟨word, rest, rfl, kw⟩
  | unsupported hi rf => exact intros hi (by simp [isClauseKeyword, rf])
  | depending => exact ⟨_, _, rfl, by decide⟩
  | dependingRange => exact ⟨_, _, rfl, by decide⟩

/-- The name of an entry is read as written. -/
lemma itemName_written {name : Option String} {clauses : List Clause} {first : String}
    {tokens body : List String} (nw : NameWritten name tokens) (cw : ClausesWritten clauses body) :
    itemName (first :: (tokens ++ body)) = (name, body) := by
  cases nw with
  | named kw ne => simp [itemName, kw, ne]
  | filler fi =>
    have kw : isClauseKeyword "FILLER" = false := by decide
    simp [itemName, fi, kw]
  | anonymous =>
    obtain ⟨pieces, ws, upper⟩ := cw
    cases body with
    | nil => rfl
    | cons word body =>
      cases ws with
      | nil => simp at upper
      | cons w _ =>
        obtain ⟨head, rest, rfl, kw⟩ := w.keyword
        simp only [List.map_cons, List.flatten_cons, List.cons_append, List.cons.injEq] at upper
        rw [← upper.1] at kw
        simp [itemName, kw]

/-- The item the loop makes of an entry. -/
def Entry.item (entry : Entry) : Item :=
  let clauses := (seen entry.clauses).foldl Clauses.add {}
  { level := entry.level
    name := entry.name
    picture := clauses.picture
    usage := clauses.usage.getD .display
    occurs := clauses.occurs
    conditions := [] }

/-- A statement is parsed by the clause loop on its body. -/
lemma parseItem_body {entry : Entry} {statement : Statement} (w : entry.Written statement) :
    ∃ tokens, List.Forall₂ Clause.Written entry.clauses tokens ∧
      parseItem statement =
        (parseClauses (entry.name.getD "FILLER") {} tokens.flatten).map fun clauses =>
          .item {
            level := entry.level
            name := entry.name
            picture := clauses.picture
            usage := clauses.usage.getD .display
            occurs := clauses.occurs
            conditions := [] } := by
  obtain ⟨first, tokens, body, rfl, lv, nw, cw⟩ := w.tokens
  have name : itemName (first :: (tokens ++ body)) = (entry.name, body) := itemName_written nw cw
  obtain ⟨pieces, ws, upper⟩ := cw
  refine ⟨pieces, ws, ?_⟩
  rw [parseItem_data (first :: (tokens ++ body)) lv w.level, name]
  dsimp only [itemOf]
  rw [upper]

/-- An entry without a refused clause in front of its `VALUE` is an item. -/
lemma parseItem_written {entry : Entry} {statement : Statement} (w : entry.Written statement)
    (su : (seen entry.clauses).find? Clause.refuses = none) :
    parseItem statement = .ok (.item entry.item) := by
  obtain ⟨tokens, ws, eq⟩ := parseItem_body w
  rw [eq, parseClauses_written ws su]
  rfl

/-- An entry with one is refused there. -/
lemma parseItem_refuses {entry : Entry} {statement : Statement} {clause : Clause}
    (w : entry.Written statement) (first : (seen entry.clauses).find? Clause.refuses = some clause) :
    ∃ reason, parseItem statement
      = .error (if clause.recognized then .unsupported reason else .invalid reason) := by
  obtain ⟨tokens, ws, eq⟩ := parseItem_body w
  obtain ⟨reason, er⟩ := parseClauses_refused_first (entry.name.getD "FILLER") {} ws first
  exact ⟨reason, by rw [eq, er]; rfl⟩

end Entries

end GrpcEbcdic.Copybook

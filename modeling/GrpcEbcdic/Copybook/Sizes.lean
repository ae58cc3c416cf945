import GrpcEbcdic.Copybook.Budget
import GrpcEbcdic.Copybook.Columns
import GrpcEbcdic.Copybook.Expansion

/-!
# What a source can hold

Bounds on the items of a source: an item occurs at most `maxOccurs` times, a picture describes at most
`maxRecordSymbols` bytes, and the names and values of the conditions are tokens of the source. With them
the counters of `flatten` stay below 2 ^ 64, so its machine arithmetic is the arithmetic of the numbers
(`charge64_eq`).
-/

namespace GrpcEbcdic.Copybook
open Rust Fallible

section Tokens

variable {α : Type*}

/-- A line has no more tokens than characters. -/
lemma lexemesFrom_words {f : α → Char} {quote : Option Char} {token line : List α}
    {pieces : List (Lexeme α)} (split : lexemesFrom f quote token line = some pieces) :
    (pieces.filterMap Lexeme.cells).length ≤ (flush token).length + line.length := by
  induction line generalizing quote token pieces with
  | nil =>
    rw [lexemesFrom] at split
    split at split
    · cases split
      exact List.length_filterMap_le _ _
    · cases split
  | cons a line ih =>
    have own : ((flush token).filterMap Lexeme.cells).length ≤ (flush token).length :=
      List.length_filterMap_le _ _
    rw [lexemesFrom] at split
    rw [List.length_cons]
    split at split
    · obtain ⟨rest, behind, rfl⟩ := Option.map_eq_some_iff.mp split
      have words : _ ≤ 0 + line.length := ih behind
      rw [List.filterMap_append, List.length_append, List.filterMap_cons_none rfl]
      omega
    · split at split
      · obtain ⟨rest, behind, rfl⟩ := Option.map_eq_some_iff.mp split
        have words : _ ≤ 0 + line.length := ih behind
        rw [List.filterMap_append, List.length_append]
        omega
      · have words := ih split
        have one : (flush (token ++ [a])).length = 1 := by
          cases token <;> rfl
        omega

/-- The code of a line is part of it. -/
lemma stripCardColumns_length {line code : List Char} (kept : stripCardColumns line = some code) :
    code.length ≤ line.length := by
  unfold stripCardColumns at kept
  dsimp only at kept
  split_ifs at kept
  · cases kept
    exact le_rfl
  · cases kept
    rw [List.length_drop, List.length_take]
    omega

/-- The code has no more tokens than its lines have characters. -/
lemma codeLexemes_length (raws : List (List Char)) :
    ((codeLexemes (raws.filterMap stripCardColumns)).filterMap Lexeme.cells).length
      ≤ (raws.map List.length).sum := by
  rw [codeLexemes_lines]
  induction raws with
  | nil => exact le_rfl
  | cons raw raws ih =>
    rw [List.flatMap_cons, List.filterMap_append, List.length_append, List.map_cons, List.sum_cons]
    refine Nat.add_le_add ?_ ih
    cases kept : stripCardColumns raw with
    | none => exact Nat.zero_le _
    | some code =>
      rw [Option.bind_some]
      cases split : lexemes code with
      | none => exact Nat.zero_le _
      | some pieces =>
        have words : _ ≤ 0 + code.length := lexemesFrom_words split
        rw [Nat.zero_add] at words
        exact words.trans (stripCardColumns_length kept)

/-- The statements of a source have no more tokens than it has characters. -/
lemma statements_length [Unicode] {source : String} {stmts : List Statement}
    (ok : statements source = .ok stmts) : (stmts.map List.length).sum ≤ source.length := by
  obtain ⟨_, read⟩ := statements_ok.mp ok
  have words := foldl_readLexeme_flatten ([], []) (codeLexemes (codeLines source))
  rw [read] at words
  have count := congrArg List.length words
  simp only [List.append_nil, List.flatten_nil, List.nil_append, List.length_map,
    List.length_flatten] at count
  rw [count]
  calc ((codeLexemes (codeLines source)).filterMap Lexeme.cells).length
      ≤ ((lines source.toList).map List.length).sum := codeLexemes_length _
    _ ≤ 0 + source.toList.length := linesFrom_length [] _
    _ = source.length := by rw [Nat.zero_add, String.length_toList]

end Tokens

section Items

variable [Unicode]

omit [Unicode] in
lemma closeRange_length (values : List ConditionValue) (high : String) :
    (closeRange values high).length = values.length := by
  unfold closeRange
  cases values using List.reverseRecOn with
  | nil => rfl
  | append_singleton values last => simp

/-- A condition has no more values than literals. -/
lemma conditionValues_length {name : String} {values out : List ConditionValue} {range : Bool}
    {literals : List (String × String)} (ok : conditionValues name values range literals = .ok out) :
    out.length ≤ values.length + literals.length := by
  induction literals generalizing values range with
  | nil =>
    rw [conditionValues, guard_eq_ok] at ok
    cases ok.2
    exact le_rfl
  | cons literal literals ih =>
    rw [conditionValues] at ok
    rw [List.length_cons]
    split_ifs at ok
    · exact (ih ok).trans (by omega)
    · exact (ih ok).trans (by omega)
    · have le := ih ok
      rw [closeRange_length] at le
      omega
    · have le := ih ok
      rw [List.length_append, List.length_singleton] at le
      omega

/-- The name and the values of a condition are tokens of its statement. -/
lemma conditionName_length {statement : Statement} {condition : ConditionName}
    (ok : conditionName statement = .ok condition) :
    1 + condition.values.length ≤ statement.length := by
  unfold conditionName at ok
  split at ok
  · next level name rest =>
    rw [guard_eq_ok] at ok
    have ok := ok.2
    dsimp only at ok
    split at ok
    · cases ok
    · next value literals tail =>
      -- `VALUE` stands before the literals.
      have shorter : literals.length + 1 ≤ (level :: name :: rest).length := by
        have part := (List.dropWhile_suffix (l := (level :: name :: rest).map fun token =>
          (token, toUppercase token)) fun token => !(token.2 = "VALUE" || token.2 = "VALUES"))
        rw [tail] at part
        have le := part.length_le
        rwa [List.length_cons, List.length_map] at le
      split at ok
      · cases ok
      · next values read =>
        cases ok
        have le := conditionValues_length read
        rw [List.length_nil] at le
        dsimp only
        omega
  · cases ok

/-- A parsed condition is that of its statement. -/
lemma parseItem_is_condition {statement : Statement} {condition : ConditionName}
    (ok : parseItem statement = .ok (.condition condition)) :
    conditionName statement = .ok condition := by
  obtain ⟨level, lv, ⟨_, read⟩ | data⟩ := parseItem_level ok
  · obtain ⟨found, read, eq⟩ := map_eq_ok.mp read
    cases eq
    exact read
  · rw [parseItem_data statement lv data] at ok
    obtain ⟨_, _, eq⟩ := map_eq_ok.mp ok
    cases eq

/-- A count that is read is within the limit. -/
lemma parseClauses_maxOccurs {label : String} {acc clauses : Clauses} {tokens : List String}
    (ok : parseClauses label acc tokens = .ok clauses) (le : acc.occurs.getD 1 ≤ maxOccurs) :
    clauses.occurs.getD 1 ≤ maxOccurs := by
  fun_induction parseClauses label acc tokens with
  | case1 | case20 =>
    cases ok
    exact le
  | case18 =>
    rename_i range ih
    apply ih ok
    rw [Option.getD_some]
    omega
  | case5 | case6 | case11 | case14 | case19 | case21 =>
    rename_i ih
    exact ih ok le
  | _ => cases ok

/-- A parsed item occurs at most `maxOccurs` times. -/
lemma parseItem_maxOccurs {statement : Statement} {item : Item}
    (ok : parseItem statement = .ok (.item item)) : item.occurs.getD 1 ≤ maxOccurs := by
  obtain ⟨level, clauses, read, rfl⟩ := parseItem_item ok
  exact parseClauses_maxOccurs read (by decide)

/-- What one statement adds to the conditions is part of it. -/
lemma collect_counts {items next : List Item} {statement : Statement} {parsed : Parsed}
    (read : parseItem statement = .ok parsed) (ok : collect items parsed = .ok next) :
    (next.map conditionCount).sum ≤ (items.map conditionCount).sum + statement.length ∧
      ((∀ item ∈ items, item.occurs.getD 1 ≤ maxOccurs) →
        ∀ item ∈ next, item.occurs.getD 1 ≤ maxOccurs) := by
  cases parsed with
  | item item =>
    cases ok
    have none : conditionCount item = 0 := by
      obtain ⟨level, clauses, _, rfl⟩ := parseItem_item read
      rfl
    constructor
    · simp [none]
    · exact fun all => List.forall_mem_append.mpr
        ⟨all, List.forall_mem_singleton.mpr (parseItem_maxOccurs read)⟩
  | condition condition =>
    obtain ⟨before, item, rfl, rfl⟩ := attachCondition_ok.mp ok
    have le := conditionName_length (parseItem_is_condition read)
    constructor
    · simp only [List.map_append, List.map_singleton, List.sum_append, List.sum_singleton,
        conditionCount]
      omega
    · intro all
      obtain ⟨others, last⟩ := List.forall_mem_append.mp all
      refine List.forall_mem_append.mpr ⟨others, List.forall_mem_singleton.mpr ?_⟩
      exact last item List.mem_cons_self

/-- The names and values of all conditions are tokens of the statements, and every count is within the
limit. -/
lemma collectItems_counts {items items' : List Item} {stmts : List Statement}
    (ok : collectItems items stmts = .ok items') :
    (items'.map conditionCount).sum ≤ (items.map conditionCount).sum + (stmts.map List.length).sum ∧
      ((∀ item ∈ items, item.occurs.getD 1 ≤ maxOccurs) →
        ∀ item ∈ items', item.occurs.getD 1 ≤ maxOccurs) := by
  induction stmts generalizing items with
  | nil =>
    cases ok
    exact ⟨le_rfl, id⟩
  | cons statement rest ih =>
    obtain ⟨parsed, read, next, add, ok⟩ := collectItems_cons.mp ok
    obtain ⟨own, counts⟩ := collect_counts read add
    obtain ⟨others, all⟩ := ih ok
    refine ⟨?_, fun within => all (counts within)⟩
    rw [List.map_cons, List.sum_cons]
    omega

/-- What a picture describes is no larger than the symbols it expands to. -/
lemma describe_size {picture : String} {usage : Usage} {name : Option String} {described : Described}
    (ok : describe picture usage name = .ok described) : described.size ≤ maxRecordSymbols := by
  obtain ⟨symbols, expands, _, kind⟩ := describe_ok.mp ok
  obtain ⟨_, _, _, le⟩ := (expandFrom_runs (Nat.zero_le _)).mp expands
  split at kind
  · simp only [describeCharacter, guard_eq_ok] at kind
    have kind := kind.2
    split at kind
    · cases kind
    · rw [guard_eq_ok] at kind
      cases kind.2
      exact le
  · obtain ⟨acc, counted, _, stored⟩ := kind
    have digits : acc.digits ≤ symbols.length := by
      have count := countDigits_digits counted
      rw [Nat.zero_add] at count
      exact count.trans_le List.count_le_length
    cases usage with
    | display =>
      cases stored
      exact digits.trans le
    | packed =>
      cases stored
      simp only [maxRecordSymbols] at le ⊢
      omega
    | binary =>
      obtain ⟨width, wide, rfl⟩ := Option.map_eq_some_iff.mp stored
      have small : width ≤ 8 := by
        unfold binaryWidth at wide
        split_ifs at wide <;> cases wide <;> decide
      exact small.trans (by decide)

end Items

section Overflow

/-- Most condition names and values of an item for which no counter can overflow, as they are copied to
at most `maxOccurs` fields. A source has no more of them than characters, and comes in a message whose
length has 32 bits. -/
def maxCounted : Nat := 2 ^ 51

/-- The names and values of an item are counted without an overflow when there are not too many. -/
lemma perOccurrence64 {item : Item} (lt : conditionCount item < 2 ^ 64) :
    Word.sum 64 (fun condition => Word.add 64 1 condition.values.length) item.conditions
      = some (conditionCount item) := by
  refine Word.sum_of_lt (fun condition mem => Word.add_of_lt (lt_of_le_of_lt ?_ lt)) lt
  exact List.le_sum_of_mem (List.mem_map_of_mem mem)

/-- Charges that stay below 2 ^ 64 are those of the numbers. -/
lemma charge64_eq {flat : Flat} {item : Item} {described : Described}
    (bytes : flat.recordBytes + described.size * item.occurs.getD 1 < 2 ^ 64)
    (fields : flat.out.length + item.occurs.getD 1 < 2 ^ 64) (each : conditionCount item < 2 ^ 64)
    (values : flat.conditionValues + conditionCount item * item.occurs.getD 1 < 2 ^ 64) :
    flat.charge64 item described = some (flat.charge item described) := by
  have product : Word.mul 64 described.size (item.occurs.getD 1)
      = some (described.size * item.occurs.getD 1) := Word.mul_of_lt (by omega)
  have copies : Word.mul 64 (conditionCount item) (item.occurs.getD 1)
      = some (conditionCount item * item.occurs.getD 1) := Word.mul_of_lt (by omega)
  unfold Flat.charge64 Flat.charge
  simp only [product, Word.add_of_lt bytes, Word.add_of_lt fields, perOccurrence64 each, copies,
    Word.add_of_lt values, Option.bind_eq_bind, Option.bind_some, Option.pure_def]
  split_ifs <;> rfl

variable [Unicode]

/-- No charge of parsed items overflows, wherever the loop is. -/
lemma charge64_of_count {stmts : List Statement} {items rest : List Item} {flat : Flat} {item : Item}
    {picture : String} {described : Described} (collected : collectItems [] stmts = .ok items)
    (passes : Passes items (.charging flat item picture described rest))
    (few : conditionCount item ≤ maxCounted) :
    flat.charge64 item described = some (flat.charge item described) := by
  obtain ⟨n, led, el⟩ := passes.sound
  have mem : item ∈ items := List.mem_of_mem_drop (led.left ▸ List.mem_cons_self)
  have counts := (collectItems_counts collected).2 fun _ mem => absurd mem List.not_mem_nil
  have occurs : item.occurs.getD 1 ≤ 4096 := counts item mem
  have size : described.size ≤ 65536 := describe_size el.desc
  have each : conditionCount item ≤ 2 ^ 51 := few
  -- What has been charged is within the limits, and one item adds little to it.
  have charged (limit : Limit) : limit.charged flat ≤ limit.most :=
    (led.charged limit).le.trans (led.paid.within limit)
  have bytes : flat.recordBytes ≤ 16 * 1024 * 1024 := charged .recordBytes
  have fields : flat.out.length ≤ 65536 := charged .layoutFields
  have values : flat.conditionValues ≤ 262144 := charged .conditionValues
  have moreBytes : described.size * item.occurs.getD 1 ≤ 65536 * 4096 := Nat.mul_le_mul size occurs
  have moreValues : conditionCount item * item.occurs.getD 1 ≤ 2 ^ 51 * 4096 :=
    Nat.mul_le_mul each occurs
  exact charge64_eq (by omega) (by omega) (by omega) (by omega)

/-- An item of a source has no more condition names and values than the source has characters. -/
lemma conditionCount_le {source : String} {stmts : List Statement} {items : List Item} {item : Item}
    (read : statements source = .ok stmts) (collected : collectItems [] stmts = .ok items)
    (mem : item ∈ items) : conditionCount item ≤ source.length := by
  calc conditionCount item
      ≤ (items.map conditionCount).sum := List.le_sum_of_mem (List.mem_map_of_mem mem)
    _ ≤ 0 + (stmts.map List.length).sum := (collectItems_counts collected).1
    _ = (stmts.map List.length).sum := Nat.zero_add _
    _ ≤ source.length := statements_length read

end Overflow

end GrpcEbcdic.Copybook

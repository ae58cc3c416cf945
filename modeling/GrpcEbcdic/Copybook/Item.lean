import GrpcEbcdic.Copybook.Lexer
import GrpcEbcdic.Layout.Types
import GrpcEbcdic.Support.Fallible

/-!
# Copybook entries

One statement parsed into the item it describes or the level-88 condition name it declares. The clause
loop reads the uppercased tokens after the name from left to right; the name and the literals of a
condition keep their spelling.
-/

namespace GrpcEbcdic.Copybook
open Rust Fallible

/-- Largest `OCCURS` count the compiler will expand. -/
def maxOccurs : Nat := 4096

/-- The storage usages the compiler recognizes. -/
inductive Usage where
  | display
  | packed
  | binary
deriving DecidableEq

/-- Clause keywords that introduce a usage. -/
def usageOf (token : String) : Option Usage :=
  if token ∈ ["COMP", "COMPUTATIONAL", "COMP-4", "COMPUTATIONAL-4", "BINARY"] then some .binary
  else if token ∈ ["COMP-3", "COMPUTATIONAL-3", "PACKED-DECIMAL"] then some .packed
  else if token = "DISPLAY" then some .display
  else none

/-- Clauses the compiler refuses, with the reason it refuses them. -/
def refused (token : String) : Option String :=
  if token = "REDEFINES" then
    some ("REDEFINES gives one run of bytes two layouts; send the layout you actually want as " ++
      "ParseOptions.layout")
  else if token = "RENAMES" then
    some "level-66 RENAMES regroups fields that are already described"
  else if token ∈ ["COMP-1", "COMPUTATIONAL-1", "COMP-2", "COMPUTATIONAL-2"] then
    some ("COMP-1 and COMP-2 are hexadecimal floating point, which this build does not decode")
  else if token ∈ ["COMP-5", "COMPUTATIONAL-5"] then
    some ("COMP-5 is native-endian binary, so its bytes depend on the machine that wrote them; " ++
      "declare the field as COMP if it is big-endian")
  else if token ∈ ["SYNCHRONIZED", "SYNC"] then
    some ("SYNCHRONIZED inserts compiler-chosen slack bytes, so the offsets in the copybook are " ++
      "no longer the offsets in the file")
  else if token = "SIGN" then
    some ("an explicit SIGN clause moves or separates the sign; only the default trailing " ++
      "overpunch is decoded")
  else if token = "DEPENDING" then
    some ("OCCURS DEPENDING ON makes the record variable-length in a way the layout cannot " ++
      "describe")
  else if token ∈ ["POINTER", "INDEX", "PROCEDURE-POINTER", "FUNCTION-POINTER"] then
    some "pointer and index items hold machine addresses, not data"
  else none

/-- Clauses that describe something other than the bytes, and are ignored. -/
def ignorable (token : String) : Bool :=
  ["VALUE", "VALUES", "JUSTIFIED", "JUST", "RIGHT", "LEFT", "GLOBAL", "EXTERNAL", "BLANK", "WHEN",
   "ZERO", "ZEROS", "ZEROES", "IS", "ARE", "TIMES", "CHARACTERS"].contains token

/-- Whether a token in the name position is really the start of a clause. -/
def isClauseKeyword (token : String) : Bool :=
  ["PIC", "PICTURE", "USAGE", "OCCURS", "REDEFINES"].contains token
    || (usageOf token).isSome
    || ignorable token
    || (refused token).isSome

/-- One parsed data-description item, before the tree is flattened. -/
structure Item where
  level : Nat
  name : Option String
  picture : Option String
  usage : Usage
  occurs : Option Nat
  conditions : List ConditionName
deriving DecidableEq

/-- The name of an item in messages and paths. -/
def Item.label (item : Item) : String := item.name.getD "FILLER"

/-- What one data-description statement turned out to be. -/
inductive Parsed where
  | item (item : Item)
  | condition (condition : ConditionName)
deriving DecidableEq

/-- What the clauses of an item have said so far. -/
structure Clauses where
  picture : Option String := none
  usage : Option Usage := none
  occurs : Option Nat := none
deriving DecidableEq

section Parse

variable [Unicode]

/-- The refusal of a clause. -/
def refusal (label token reason : String) : ParseError :=
  .unsupported s!"copybook item {debug label} uses {token}: {reason}"

/-- The clause loop of `parse_item`, from one token on. -/
def parseClauses (label : String) (clauses : Clauses) :
    List String → Except ParseError Clauses
  | [] => .ok clauses
  | token :: rest =>
    match refused token with
    | some reason => .error (refusal label token reason)
    | none =>
      if token = "PIC" ∨ token = "PICTURE" then
        let missing := .invalid s!"PICTURE clause of {debug label} has no picture string"
        match rest with
        | [] => .error missing
        | clause :: rest =>
          if clause = "IS" then
            match rest with
            | [] => .error missing
            | clause :: rest => parseClauses label { clauses with picture := some clause } rest
          else parseClauses label { clauses with picture := some clause } rest
      else if token = "USAGE" then
        let missing := .invalid s!"USAGE clause of {debug label} names no usage"
        match rest with
        | [] => .error missing
        | clause :: rest =>
          if clause = "IS" then
            match rest with
            | [] => .error missing
            | clause :: rest =>
              match refused clause, usageOf clause with
              | some reason, _ => .error (refusal label clause reason)
              | none, none =>
                .error (.unsupported s!"USAGE {clause} is not a usage this build decodes")
              | none, some usage => parseClauses label { clauses with usage := some usage } rest
          else
            match refused clause, usageOf clause with
            | some reason, _ => .error (refusal label clause reason)
            | none, none =>
              .error (.unsupported s!"USAGE {clause} is not a usage this build decodes")
            | none, some usage => parseClauses label { clauses with usage := some usage } rest
      else if token = "OCCURS" then
        let missing := .invalid s!"OCCURS clause of {debug label} has no repeat count"
        match rest with
        | [] => .error missing
        | count :: rest =>
          match parseUnsigned (2 ^ 32) count.toList with
          | none => .error missing
          | some count =>
            if count = 0 ∨ maxOccurs < count then
              .error (.invalid
                s!"OCCURS {count} is outside the supported range 1..={maxOccurs}")
            else parseClauses label { clauses with occurs := some count } rest
      else
        match usageOf token with
        | some usage => parseClauses label { clauses with usage := some usage } rest
        | none =>
          -- `VALUE` jumps to the end of the statement.
          if token = "VALUE" ∨ token = "VALUES" then .ok clauses
          else if ignorable token then parseClauses label clauses rest
          else
            .error (.invalid
              s!"unrecognized clause {debug token} in copybook item {debug label}")

@[simp]
lemma parseClauses_nil {label : String} {clauses : Clauses} :
    parseClauses label clauses [] = .ok clauses := by
  rw [parseClauses]

/-- Strip the quotes from a COBOL literal, leaving anything else alone. -/
def unquote (literal : String) : String :=
  let cs := literal.toList
  match cs.head? with
  | some quote =>
    if 2 ≤ cs.length ∧ (quote = '\'' ∨ quote = '"') ∧ cs.getLast? = some quote then
      String.ofList cs.tail.dropLast
    else literal
  | none => literal

omit [Unicode] in
/-- The quotes are taken off when the last character is the first. -/
lemma unquote_cons {literal : String} {c : Char} {cs : List Char} (eq : literal.toList = c :: cs) :
    (unquote literal).toList
      = if (c = '\'' ∨ c = '"') ∧ cs.getLast? = some c then cs.dropLast else c :: cs := by
  unfold unquote
  rw [eq]
  dsimp only [List.head?_cons]
  cases cs with
  | nil => simp [eq]
  | cons d cs =>
    rw [List.getLast?_cons_cons, List.tail_cons]
    split
    · next both => rw [if_pos both.2, String.toList_ofList]
    · next not =>
      rw [if_neg fun both => not ⟨by simp, both⟩, eq]

/-- Give the last value a high bound. -/
def closeRange (values : List ConditionValue) (high : String) : List ConditionValue :=
  match values.getLast? with
  | none => values
  | some last => values.dropLast ++ [{ last with high := some high }]

/-- The literal loop of `condition_name`, from one token on: each token with its uppercase. -/
def conditionValues (name : String) (values : List ConditionValue) (range : Bool) :
    List (String × String) → Except ParseError (List ConditionValue)
  | [] =>
    if range ∨ values = [] then
      .error (.invalid s!"the VALUE clause of condition name {debug name} is incomplete")
    else .ok values
  | (literal, token) :: rest =>
    if token = "IS" ∨ token = "ARE" then conditionValues name values range rest
    else if token = "THRU" ∨ token = "THROUGH" then
      if values = [] then
        .error (.invalid
          s!"condition name {debug name} starts a THRU range with no value before it")
      else conditionValues name values true rest
    else if range then conditionValues name (closeRange values (unquote literal)) false rest
    else conditionValues name (values ++ [.literal (unquote literal)]) false rest

/-- Parse one level-88 entry into the condition name it declares. -/
def conditionName (statement : Statement) : Except ParseError ConditionName :=
  match statement with
  | _ :: name :: _ =>
    if isClauseKeyword (toUppercase name) then
      .error (.invalid ("the level-88 entry " ++ debug (" ".intercalate statement) ++
        " starts with a clause where its name should be"))
    else
      let tokens := statement.map fun token => (token, toUppercase token)
      match tokens.dropWhile fun token => !(token.2 = "VALUE" || token.2 = "VALUES") with
      | [] =>
        .error (.invalid
          s!"condition name {debug name} has no VALUE clause, so it names no values")
      | _ :: literals =>
        match conditionValues name [] false literals with
        | .error e => .error e
        | .ok values => .ok ⟨name, values⟩
  | _ => .error (.invalid "a level-88 entry declares no condition name")

/-- The name of an item, when the token after the level number is one, and the tokens after it. -/
def itemName (statement : Statement) : Option String × List String :=
  match statement.tail with
  | [] => (none, [])
  | name :: rest =>
    if isClauseKeyword (toUppercase name) then (none, name :: rest)
    else if toUppercase name = "FILLER" then (none, rest)
    else (some name, rest)

/-- The item of an entry, from its level and what its clauses have said. -/
def itemOf (level : Nat) (name : Option String) (clauses : Clauses) : Item :=
  { level := level
    name := name
    picture := clauses.picture
    usage := clauses.usage.getD .display
    occurs := clauses.occurs
    conditions := [] }

/-- Parse one statement into an item or a condition name. -/
def parseItem (statement : Statement) : Except ParseError Parsed :=
  let first := statement.headD ""
  match parseUnsigned (2 ^ 8) (toUppercase first).toList with
  | none =>
    .error (.invalid ("expected a level number at the start of " ++
      debug (" ".intercalate statement) ++ ", found " ++ debug first))
  | some level =>
    if level = 88 then (conditionName statement).map .condition
    else if level = 66 then
      .error (.unsupported "level-66 RENAMES regroups fields that are already described")
    else if (1 ≤ level ∧ level ≤ 49) ∨ level = 77 then
      let (name, rest) := itemName statement
      match parseClauses (name.getD "FILLER") {} (rest.map toUppercase) with
      | .error e => .error e
      | .ok clauses => .ok (.item (itemOf level name clauses))
    else .error (.invalid s!"level {level} is not a data-description level number")

/-- An entry with the level of a data description is the item its clauses describe. -/
lemma parseItem_data (statement : Statement) {level : Nat}
    (lv : parseUnsigned (2 ^ 8) (toUppercase (statement.headD "")).toList = some level)
    (data : (1 ≤ level ∧ level ≤ 49) ∨ level = 77) :
    parseItem statement
      = (parseClauses ((itemName statement).1.getD "FILLER") {}
          ((itemName statement).2.map toUppercase)).map fun clauses =>
        .item (itemOf level (itemName statement).1 clauses) := by
  have not88 : level ≠ 88 := by omega
  have not66 : level ≠ 66 := by omega
  unfold parseItem
  dsimp only
  rw [lv]
  dsimp only
  rw [if_neg not88, if_neg not66, if_pos data]
  cases parseClauses ((itemName statement).1.getD "FILLER") {}
    ((itemName statement).2.map toUppercase) <;> rfl

/-- An entry of level 66 is refused. -/
lemma parseItem_level66 (statement : Statement)
    (lv : parseUnsigned (2 ^ 8) (toUppercase (statement.headD "")).toList = some 66) :
    parseItem statement
      = .error (.unsupported "level-66 RENAMES regroups fields that are already described") := by
  unfold parseItem
  dsimp only
  rw [lv]
  rfl

/-- What is parsed has a level, and is a condition exactly at level 88. -/
lemma parseItem_level {statement : Statement} {parsed : Parsed}
    (ok : parseItem statement = .ok parsed) :
    ∃ level, parseUnsigned (2 ^ 8) (toUppercase (statement.headD "")).toList = some level ∧
      (level = 88 ∧ (conditionName statement).map .condition = .ok parsed ∨
        ((1 ≤ level ∧ level ≤ 49) ∨ level = 77)) := by
  unfold parseItem at ok
  dsimp only at ok
  cases lv : parseUnsigned (2 ^ 8) (toUppercase (statement.headD "")).toList with
  | none =>
    rw [lv] at ok
    cases ok
  | some level =>
    rw [lv] at ok
    refine ⟨level, rfl, ?_⟩
    dsimp only at ok
    split at ok
    · next at88 => exact .inl ⟨at88, ok⟩
    · split at ok
      · cases ok
      · split at ok
        · next data => exact .inr data
        · cases ok

/-- A parsed item is that of a data description whose clauses are read. -/
lemma parseItem_item {statement : Statement} {item : Item}
    (ok : parseItem statement = .ok (.item item)) :
    ∃ level clauses, parseClauses ((itemName statement).1.getD "FILLER") {}
        ((itemName statement).2.map toUppercase) = .ok clauses ∧
      item = itemOf level (itemName statement).1 clauses := by
  obtain ⟨level, lv, ⟨_, condition⟩ | data⟩ := parseItem_level ok
  · obtain ⟨_, _, eq⟩ := map_eq_ok.mp condition
    cases eq
  · rw [parseItem_data statement lv data] at ok
    obtain ⟨clauses, read, eq⟩ := map_eq_ok.mp ok
    cases eq
    exact ⟨level, clauses, read, rfl⟩

end Parse

end GrpcEbcdic.Copybook

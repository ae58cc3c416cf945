import GrpcEbcdic.Copybook.Item

/-!
# The grammar of copybook entries

What an entry says, apart from how it is written: a level, a name and a list of clauses. `Clause.Written`
relates a clause to the uppercased tokens that spell it and `Entry.Written` an entry to the statement.
Neither is read off the compiler; both follow the list of clauses that the compiler's own documentation
supports and refuses.
-/

namespace GrpcEbcdic.Copybook
open Rust

/-- A clause of a data-description entry. -/
inductive Clause where
  | picture (picture : String)
  | usage (usage : Usage)
  | occurs (count : Nat)
  | value
  /-- `JUSTIFIED`, `BLANK WHEN ZERO`, `GLOBAL` or `EXTERNAL`. -/
  | neutral
  /-- A refused clause, by the word that introduces it. -/
  | unsupported (word : String)
  /-- `OCCURS [lower TO] count TIMES DEPENDING ON`. -/
  | depending (lower : Option Nat) (count : Nat)
deriving DecidableEq

/-- Whether a clause is on the refused list. -/
def Clause.refuses : Clause → Bool
  | .unsupported _ => true
  | .depending _ _ => true
  | _ => false

/-- The words in front of a usage. -/
def usageIntros : List (List String) := [[], ["USAGE"], ["USAGE", "IS"]]

/-- The clauses that describe something other than the bytes. -/
def neutralClauses : List (List String) :=
  [["JUSTIFIED"], ["JUSTIFIED", "RIGHT"], ["JUST"], ["JUST", "RIGHT"],
   ["BLANK", "ZERO"], ["BLANK", "ZEROS"], ["BLANK", "ZEROES"],
   ["BLANK", "WHEN", "ZERO"], ["BLANK", "WHEN", "ZEROS"], ["BLANK", "WHEN", "ZEROES"],
   ["GLOBAL"], ["IS", "GLOBAL"], ["EXTERNAL"], ["IS", "EXTERNAL"]]

/-- A literal or a figurative constant. -/
def IsLiteral (token : String) : Prop :=
  isClauseKeyword token = false ∨ token ∈ ["ZERO", "ZEROS", "ZEROES"]

/-- A word that may follow the introduction of a refused clause. -/
def IsOperand (token : String) : Prop :=
  isClauseKeyword token = false ∨ token ∈ ["IS", "LEFT", "RIGHT"]

/-- How a clause is written, as uppercased tokens. -/
inductive Clause.Written : Clause → List String → Prop where
  | picture {word picture : String} {is : List String} :
    word ∈ ["PIC", "PICTURE"] → is ∈ [[], ["IS"]] → picture ≠ "IS" →
    Written (.picture picture) (word :: (is ++ [picture]))
  | usage {intro : List String} {word : String} {usage : Usage} :
    intro ∈ usageIntros → usageOf word = some usage →
    Written (.usage usage) (intro ++ [word])
  | occurs {count : String} {n : Nat} {times : List String} :
    parseUnsigned (2 ^ 32) count.toList = some n → 1 ≤ n → n ≤ maxOccurs →
    times ∈ [[], ["TIMES"]] →
    Written (.occurs n) ("OCCURS" :: count :: times)
  | value {word literal : String} {is all : List String} :
    word ∈ ["VALUE", "VALUES"] → is ∈ [[], ["IS"]] → all ∈ [[], ["ALL"]] → IsLiteral literal →
    Written .value (word :: (is ++ all ++ [literal]))
  | neutral {tokens : List String} :
    tokens ∈ neutralClauses → Written .neutral tokens
  | unsupported {intro operands : List String} {word : String} :
    intro ∈ usageIntros → (refused word).isSome = true → (∀ token ∈ operands, IsOperand token) →
    Written (.unsupported word) (intro ++ word :: operands)
  | depending {count object : String} {n : Nat} {times on : List String} :
    parseDigits count.toList = some n → times ∈ [[], ["TIMES"]] → on ∈ [[], ["ON"]] →
    isClauseKeyword object = false →
    Written (.depending none n) ("OCCURS" :: count :: (times ++ "DEPENDING" :: (on ++ [object])))
  | dependingRange {low count object : String} {m n : Nat} {times on : List String} :
    parseDigits low.toList = some m → parseDigits count.toList = some n →
    times ∈ [[], ["TIMES"]] → on ∈ [[], ["ON"]] → isClauseKeyword object = false →
    Written (.depending (some m) n)
      ("OCCURS" :: low :: "TO" :: count :: (times ++ "DEPENDING" :: (on ++ [object])))

/-- A data-description entry. -/
structure Entry where
  level : Nat
  name : Option String
  clauses : List Clause

variable [Unicode]

/-- How a name is written: a filler by its own word or by nothing. -/
inductive NameWritten : Option String → List String → Prop where
  | named {name : String} :
    isClauseKeyword (toUppercase name) = false → toUppercase name ≠ "FILLER" →
    NameWritten (some name) [name]
  | filler {word : String} : toUppercase word = "FILLER" → NameWritten none [word]
  | anonymous : NameWritten none []

/-- How a list of clauses is written. -/
def ClausesWritten (clauses : List Clause) (body : List String) : Prop :=
  ∃ tokens, List.Forall₂ Clause.Written clauses tokens ∧ body.map toUppercase = tokens.flatten

/-- How an entry is written. -/
structure Entry.Written (entry : Entry) (statement : Statement) : Prop where
  level : (1 ≤ entry.level ∧ entry.level ≤ 49) ∨ entry.level = 77
  tokens : ∃ first name body, statement = first :: (name ++ body) ∧
    parseUnsigned (2 ^ 8) (toUppercase first).toList = some entry.level ∧
    NameWritten entry.name name ∧ ClausesWritten entry.clauses body

/-- The values of a condition name, as uppercased tokens: single ones and ranges. -/
inductive ValuesWritten : List String → Prop where
  | nil : ValuesWritten []
  | value {literal : String} {rest : List String} :
    literal ∉ ["IS", "ARE", "THRU", "THROUGH"] → ValuesWritten rest → ValuesWritten (literal :: rest)
  | range {low high thru : String} {rest : List String} :
    low ∉ ["IS", "ARE", "THRU", "THROUGH"] → thru ∈ ["THRU", "THROUGH"] →
    high ∉ ["IS", "ARE", "THRU", "THROUGH"] → ValuesWritten rest →
    ValuesWritten (low :: thru :: high :: rest)

/-- What a statement of a copybook is. -/
inductive Sentence where
  | data (entry : Entry)
  /-- A level-88 entry; `clauses` stand between its name and its values. -/
  | condition (name : String) (clauses : List Clause) (values : List String)
  /-- A level-66 entry. -/
  | renames (name : String)

/-- How a sentence is written. -/
inductive Sentence.Written : Sentence → Statement → Prop where
  | data {entry : Entry} {statement : Statement} :
    entry.Written statement → Written (.data entry) statement
  | condition {first name value : String} {clauses : List Clause} {body is values : List String} :
    parseUnsigned (2 ^ 8) (toUppercase first).toList = some 88 →
    isClauseKeyword (toUppercase name) = false →
    (∀ clause ∈ clauses, clause.refuses = true) → ClausesWritten clauses body →
    toUppercase value ∈ ["VALUE", "VALUES"] → is.map toUppercase ∈ [[], ["IS"], ["ARE"]] →
    values ≠ [] → ValuesWritten (values.map toUppercase) →
    Written (.condition name clauses values)
      (first :: name :: (body ++ value :: (is ++ values)))
  | renames {first name : String} {body : List String} :
    parseUnsigned (2 ^ 8) (toUppercase first).toList = some 66 →
    ClausesWritten [.unsupported "RENAMES"] body →
    Written (.renames name) (first :: name :: body)

end GrpcEbcdic.Copybook

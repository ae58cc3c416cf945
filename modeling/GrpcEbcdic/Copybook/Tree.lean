import GrpcEbcdic.Copybook.Compile
import GrpcEbcdic.Copybook.Describe
import GrpcEbcdic.Copybook.Grammar
import GrpcEbcdic.Layout.Validate

/-!
# Copybook trees

What a copybook says, before it is written down: one tree of data items. A group names the level of its
children, so siblings are at one level by construction. `Tree.print` writes the tree as free-format
source and `Tree.fields` lists what its leaves are to be compiled to; neither is read off the compiler.
-/

namespace GrpcEbcdic.Copybook
open Rust

/-- A literal: between quotation marks, or a word of its own such as a number. -/
inductive Literal where
  | quoted (mark : Char) (text : String)
  | plain (text : String)

/-- A literal as written. -/
def Literal.token : Literal → String
  | .quoted mark text => String.ofList (mark :: (text.toList ++ [mark]))
  | .plain text => text

/-- The text of a literal, without its quotation marks. -/
def Literal.text : Literal → String
  | .quoted _ text => text
  | .plain text => text

/-- A value of a level-88 entry: a literal, or the two ends of a range. -/
structure Alternative where
  low : Literal
  high : Option Literal

/-- The words of a value. -/
def Alternative.words (value : Alternative) : List String :=
  value.low.token :: (value.high.map fun high => ["THRU", high.token]).getD []

/-- What a value says. -/
def Alternative.declared (value : Alternative) : ConditionValue :=
  ⟨value.low.text, value.high.map (·.text)⟩

/-- A level-88 entry. -/
structure Condition where
  name : String
  values : List Alternative

/-- The words of a level-88 entry. -/
def Condition.words (condition : Condition) : Statement :=
  ["88", condition.name, "VALUE"] ++ condition.values.flatMap (·.words)

/-- What a level-88 entry says. -/
def Condition.declared (condition : Condition) : ConditionName :=
  ⟨condition.name, condition.values.map (·.declared)⟩

/-- A `USAGE` clause: the usage word behind the words that may introduce it. -/
structure UsageClause where
  intro : List String
  word : String

/-- An elementary item; a filler has no name. -/
structure Leaf where
  name : Option String
  picture : String
  usage : Option UsageClause
  occurs : Option Nat
  value : Option Literal
  conditions : List Condition

/-- A data item with everything below it. -/
inductive Tree where
  | elementary (leaf : Leaf)
  /-- A group, with the level of its children. -/
  | group (name : String) (conditions : List Condition) (level : Nat) (children : List Tree)

/-- A data item without what is below it. -/
inductive Node where
  | elementary (leaf : Leaf)
  | group (name : String) (conditions : List Condition)

/-- A data item of a tree in its place: its level and the names of the groups above it. -/
structure Position where
  level : Nat
  path : List String
  node : Node

mutual

/-- The data items of a tree in source order, when its root has this level and lies below this path. -/
def Tree.positions (level : Nat) (path : List String) : Tree → List Position
  | .elementary leaf => [⟨level, path, .elementary leaf⟩]
  | .group name conditions below children =>
    ⟨level, path, .group name conditions⟩ :: positionsOf below (path ++ [name]) children

/-- The data items of siblings in source order. -/
def positionsOf (level : Nat) (path : List String) : List Tree → List Position
  | [] => []
  | tree :: trees => tree.positions level path ++ positionsOf level path trees

end

/-- The data items of a record description. -/
def Tree.all (tree : Tree) : List Position := tree.positions 1 []

section Source

/-- The words of a `USAGE` clause. -/
def Leaf.usageWords (leaf : Leaf) : List String :=
  (leaf.usage.map fun usage => usage.intro ++ [usage.word]).getD []

/-- The words of an `OCCURS` clause. -/
def Leaf.occursWords (leaf : Leaf) : List String :=
  (leaf.occurs.map fun count => ["OCCURS", toString count]).getD []

/-- The words of a `VALUE` clause. -/
def Leaf.valueWords (leaf : Leaf) : List String :=
  (leaf.value.map fun value => ["VALUE", value.token]).getD []

/-- The words of the entry of an elementary item. -/
def Leaf.words (leaf : Leaf) (level : Nat) : Statement :=
  [pad2 level, leaf.name.getD "FILLER", "PIC", leaf.picture]
    ++ leaf.usageWords ++ leaf.occursWords ++ leaf.valueWords

/-- The entries of a data item: its own, and its level-88 entries. -/
def Position.entries (position : Position) : List Statement :=
  match position.node with
  | .elementary leaf => leaf.words position.level :: leaf.conditions.map (·.words)
  | .group name conditions => [pad2 position.level, name] :: conditions.map (·.words)

/-- An entry on a line of its own: its words with single blanks, and a period. -/
def line (words : Statement) : String := " ".intercalate words ++ "."

/-- A tree as free-format source. -/
def Tree.print (tree : Tree) : String :=
  "\n".intercalate ((tree.all.flatMap (·.entries)).map line)

end Source

section Fields

variable [Unicode]

/-- How an elementary item is stored. -/
def Leaf.storage (leaf : Leaf) : Usage :=
  (leaf.usage.bind fun usage => usageOf usage.word).getD .display

/-- The bytes of one occurrence of an elementary item. -/
def Leaf.shape (leaf : Leaf) : Option Described :=
  (describe leaf.picture leaf.storage leaf.name).toOption

/-- How often an elementary item occurs. -/
def Leaf.count (leaf : Leaf) : Nat := leaf.occurs.getD 1

/-- The column name of one occurrence. -/
def Leaf.column (leaf : Leaf) (occurrence : Nat) : String :=
  match leaf.name, leaf.occurs with
  | none, _ => ""
  | some name, none => name
  | some name, some _ => name ++ "(" ++ toString occurrence ++ ")"

/-- The field of one occurrence of an elementary item at a level below a path. -/
def Leaf.field (leaf : Leaf) (level : Nat) (path : List String) (shape : Described)
    (occurrence : Nat) : RawField where
  name := leaf.column occurrence
  size := shape.size
  kind := if leaf.name = none then .skip else shape.kind
  scale := shape.scale
  picture := leaf.picture
  offset := none
  declaration := {
    level := some level
    path := if leaf.name = none then "" else ".".intercalate (path ++ [leaf.column occurrence])
    occursIndex := leaf.occurs.map fun _ => occurrence
    occursGroup := if leaf.occurs = none then none else leaf.name
    conditions := leaf.conditions.map (·.declared) }

/-- The fields of a data item: those of its occurrences, and none for a group. -/
def Position.fields (position : Position) : List RawField :=
  match position.node with
  | .group _ _ => []
  | .elementary leaf =>
    match leaf.shape with
    | none => []
    | some shape =>
      (List.range leaf.count).map fun i => leaf.field position.level position.path shape (i + 1)

/-- The bytes of a data item of its own. -/
def Position.bytes (position : Position) : Nat :=
  match position.node with
  | .group _ _ => 0
  | .elementary leaf => (leaf.shape.map (·.size)).getD 0 * leaf.count

/-- The level-88 names and values that the occurrences of a data item carry. -/
def Position.values (position : Position) : Nat :=
  match position.node with
  | .group _ _ => 0
  | .elementary leaf =>
    (leaf.conditions.map fun condition => 1 + condition.values.length).sum * leaf.count

/-- The fields of a tree: its leaves from left to right. -/
def Tree.fields (tree : Tree) : List RawField := tree.all.flatMap (·.fields)

/-- The bytes of a record: those of its leaves. -/
def Tree.bytes (tree : Tree) : Nat := (tree.all.map (·.bytes)).sum

/-- The name of the record. -/
def Tree.name : Tree → Option String
  | .elementary leaf => leaf.name
  | .group name _ _ _ => some name

/-- The layout a tree stands for. -/
def Tree.layout (tree : Tree) : RawLayout where
  records := [{ name := tree.name.getD "record", fields := tree.fields, selector := none }]
  description := ""
  headerSize := 0
  footerSize := 0
  recordLengthField := none
  recordTypeField := none

/-- The record schema a tree stands for: every field right behind the one before it. -/
def Tree.record (tree : Tree) : RecordLayout where
  name := tree.name.getD "record"
  fields := tree.fields.mapIdx fun i raw => raw.resolved ((tree.fields.take i).map (·.size)).sum
  size := tree.bytes
  selector := none

end Fields

section Valid

/-- Whether characters are one word: no blank outside quotation marks, no line break inside, and no
period at the end. `mark` is the quotation mark that is open. -/
def isWord (mark : Option Char) : List Char → Bool
  | [] => mark.isNone
  | c :: cs =>
    match mark with
    | some open_ => c ≠ '\n' && isWord (if c = open_ then none else some open_) cs
    | none =>
      if c = '\'' ∨ c = '"' then isWord (some c) cs
      else !isWhitespace c && (c ≠ '.' || !cs.isEmpty) && isWord none cs

/-- A letter: an ASCII one, or anything beyond ASCII but white space. -/
def isLetter (c : Char) : Bool := c.isAlpha || (128 ≤ c.toNat && !isWhitespace c)

/-- Whether a text is made of letters, digits and hyphens and begins with a letter. -/
def isDataName (name : String) : Bool :=
  name.toList.head?.any isLetter && name.toList.all fun c => isLetter c || c.isDigit || c = '-'

variable [Unicode]

/-- A name that stands for itself: neither a filler nor a clause keyword. -/
structure NameValid (name : String) : Prop where
  chars : isDataName name = true
  keyword : isClauseKeyword (toUppercase name) = false
  filler : toUppercase name ≠ "FILLER"

/-- A literal that is read back as one. -/
def Literal.Valid : Literal → Prop
  | .quoted mark text => mark ∈ ['\'', '"'] ∧ isWord none (mark :: (text.toList ++ [mark])) = true
  | .plain text =>
    isWord none text.toList = true ∧ text ≠ "" ∧ text.toList.head? ∉ [some '\'', some '"'] ∧
      toUppercase text ∉ ["IS", "ARE", "THRU", "THROUGH"]

/-- A level-88 entry with values. -/
structure Condition.Valid (condition : Condition) : Prop where
  name : NameValid condition.name
  values_ne : condition.values ≠ []
  low : ∀ value ∈ condition.values, value.low.Valid
  high : ∀ value ∈ condition.values, ∀ high ∈ value.high, high.Valid

/-- An elementary item that describes bytes the decoders can handle. -/
structure Leaf.Valid (leaf : Leaf) : Prop where
  name : ∀ name ∈ leaf.name, NameValid name
  shape : ∃ shape, leaf.shape = some shape ∧
    (leaf.name ≠ none → shape.size ≤ widthLimit shape.kind)
  usage : ∀ usage ∈ leaf.usage, usage.intro ∈ usageIntros ∧ (usageOf usage.word).isSome = true
  occurs : ∀ count ∈ leaf.occurs, 1 ≤ count ∧ count ≤ maxOccurs
  value : ∀ value ∈ leaf.value, value.Valid
  conditions : ∀ condition ∈ leaf.conditions, condition.Valid

/-- A data item that can be written down. -/
def Node.Valid : Node → Prop
  | .elementary leaf => leaf.Valid
  | .group name conditions => NameValid name ∧ ∀ condition ∈ conditions, condition.Valid

mutual

/-- Whether each group has children, at a level between its own and 49. -/
def Tree.Nested (level : Nat) : Tree → Prop
  | .elementary _ => True
  | .group _ _ below children =>
    level < below ∧ below ≤ 49 ∧ children ≠ [] ∧ NestedAll below children

/-- Whether this holds of siblings. -/
def NestedAll (level : Nat) : List Tree → Prop
  | [] => True
  | tree :: trees => tree.Nested level ∧ NestedAll level trees

end

/-- The name of an elementary item in its place. -/
def Position.leafName (position : Position) : Option String :=
  match position.node with
  | .group _ _ => none
  | .elementary leaf => leaf.name

/-- A record description within the limits of the compiler. -/
structure Tree.Valid (tree : Tree) : Prop where
  nested : tree.Nested 1
  nodes : ∀ position ∈ tree.all, position.node.Valid
  names : (tree.all.filterMap (·.leafName)).Nodup
  bytes_le : tree.bytes ≤ maxRecordBytes
  fields_le : tree.fields.length ≤ maxLayoutFields
  values_le : (tree.all.map (·.values)).sum ≤ maxConditionValues

end Valid

end GrpcEbcdic.Copybook

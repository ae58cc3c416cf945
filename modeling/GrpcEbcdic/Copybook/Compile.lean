import GrpcEbcdic.Copybook.Picture

/-!
# The copybook compiler

Statements to items, items to the fields of one record. The level tree is walked as a flat list with
the stack of the group items that are open.
-/

namespace GrpcEbcdic.Copybook
open Rust

variable [Unicode]

/-- Most level-88 condition values the expanded record may carry in total. -/
def maxConditionValues : Nat := 262144

/-- The items so far with a condition attached to the last. -/
def attachCondition (items : List Item) (condition : ConditionName) :
    Except ParseError (List Item) :=
  match items.getLast? with
  | none =>
    .error (.invalid
      s!"condition name {debug condition.name} comes before any data item to qualify")
  | some item =>
    .ok (items.dropLast ++ [{ item with conditions := item.conditions ++ [condition] }])

/-- The items so far with what one more statement turned out to be. -/
def collect (items : List Item) : Parsed → Except ParseError (List Item)
  | .item item => .ok (items ++ [item])
  | .condition condition => attachCondition items condition

/-- The item loop of `compile`, from one statement on. -/
def collectItems (items : List Item) : List Statement → Except ParseError (List Item)
  | [] => .ok items
  | statement :: rest => do
    let parsed ← parseItem statement
    let items ← collect items parsed
    collectItems items rest

/-- The column name of one occurrence of an item. -/
def leafName (item : Item) (occurrence : Nat) : String :=
  match item.name with
  | none => ""
  | some name => if item.occurs.isSome then s!"{name}({occurrence})" else name

/-- The dotted path of a leaf under the open groups; a filler has none. -/
def qualify (groups : List (Nat × String)) (item : Item) (leaf : String) : String :=
  if item.name.isNone then ""
  else String.join (groups.map fun group => group.2 ++ ".") ++ leaf

/-- The field of one occurrence of an elementary item. -/
def occurrenceField (groups : List (Nat × String)) (item : Item) (picture : String)
    (described : Described) (occurrence : Nat) : RawField where
  name := leafName item occurrence
  size := described.size
  kind := if item.name.isNone then .skip else described.kind
  scale := described.scale
  picture := picture
  offset := none
  declaration := {
    level := some item.level
    path := qualify groups item (leafName item occurrence)
    occursIndex := item.occurs.map fun _ => occurrence
    occursGroup := item.occurs.bind fun _ => item.name
    conditions := item.conditions }

/-- The level-88 names and values one occurrence of an item carries. -/
def conditionCount (item : Item) : Nat :=
  (item.conditions.map fun condition => 1 + condition.values.length).sum

/-- Whether an item has subordinate items, from the items after it. -/
def isGroup (item : Item) (rest : List Item) : Bool :=
  match rest.head? with
  | none => false
  | some next => item.level < next.level && item.level ≠ 77

/-- What `flatten` carries from item to item. -/
structure Flat where
  groups : List (Nat × String) := []
  out : List RawField := []
  recordBytes : Nat := 0
  conditionValues : Nat := 0
deriving DecidableEq

/-- Close the groups that an item of this level ends. -/
def Flat.close (flat : Flat) (level : Nat) : Flat :=
  { flat with groups := flat.groups.filter fun group => group.1 < level }

/-- The fields of one elementary item, within the limits of the record. -/
def flattenLeaf (flat : Flat) (item : Item) : Except ParseError Flat :=
  match item.picture with
  | none =>
    .error (.invalid s!"elementary item {debug item.label} has no PICTURE clause")
  | some picture =>
    match describe picture item.usage item.name with
    | .error e => .error e
    | .ok described =>
      let occurrences := item.occurs.getD 1
      let recordBytes := flat.recordBytes + described.size * occurrences
      if maxRecordBytes < recordBytes then
        .error (.unsupported (s!"the record reaches {recordBytes} bytes at {debug item.label}; " ++
          s!"this build decodes records up to {maxRecordBytes} bytes"))
      else if maxLayoutFields < flat.out.length + occurrences then
        .error (.unsupported (s!"the record expands to more than {maxLayoutFields} fields at " ++
          s!"{debug item.label}; this build accepts at most {maxLayoutFields}"))
      else
        let conditionValues := flat.conditionValues + conditionCount item * occurrences
        if maxConditionValues < conditionValues then
          .error (.unsupported (s!"the record's level-88 conditions expand to more than " ++
            s!"{maxConditionValues} values at {debug item.label}; this build accepts at most " ++
            s!"{maxConditionValues}"))
        else
          .ok { flat with
            out := flat.out ++ (List.range occurrences).map fun i =>
              occurrenceField flat.groups item picture described (i + 1)
            recordBytes := recordBytes
            conditionValues := conditionValues }

/-- One step of `flatten`: an item, with the items after it. -/
def flattenItem (flat : Flat) (item : Item) (rest : List Item) : Except ParseError Flat :=
  let flat := flat.close item.level
  if isGroup item rest then
    if item.picture.isSome then
      .error (.invalid
        s!"item {debug item.label} has both a PICTURE clause and subordinate items")
    else if item.occurs.isSome then
      .error (.unsupported (s!"OCCURS on the group item {debug item.label} is not supported; put " ++
        "it on the elementary items instead"))
    -- A group contributes no bytes of its own, only a segment of its children's path.
    else .ok { flat with groups := flat.groups ++ [(item.level, item.label)] }
  else flattenLeaf flat item

/-- The item loop of `flatten`, from one item on. -/
def flattenFrom (flat : Flat) : List Item → Except ParseError Flat
  | [] => .ok flat
  | item :: rest =>
    match flattenItem flat item rest with
    | .error e => .error e
    | .ok flat => flattenFrom flat rest

/-- Walk the level tree and emit the elementary fields in physical order. -/
def flatten (items : List Item) : Except ParseError (List RawField) :=
  (flattenFrom {} items).map (·.out)

/-- The checks of `compile` on the level-01 items. -/
def checkRoots (items : List Item) : Except ParseError Unit :=
  let roots := (items.filter fun item => item.level = 1 ∨ item.level = 77).length
  if items = [] then
    .error (.invalid
      "the copybook declares no storage: every item in it is a level-88 condition name")
  else if roots = 0 then
    .error (.invalid "the copybook has no 01-level record description")
  else if 1 < roots then
    .error (.unsupported ("the copybook describes more than one 01-level record. Multi-schema " ++
      "files need a record_type_field and per-schema selectors, which a copybook cannot " ++
      "express; send ParseOptions.layout instead"))
  else
    let first := (items.head?.map (·.level)).getD 0
    if first ≠ 1 ∧ first ≠ 77 then
      .error (.invalid s!"the copybook starts at level {pad2 first} rather than 01")
    else .ok ()

/-- Compile the items of a copybook. -/
def compileItems (items : List Item) : Except ParseError RawLayout :=
  match checkRoots items with
  | .error e => .error e
  | .ok () =>
    let recordName := (items.head?.bind (·.name)).getD "record"
    match flatten items with
    | .error e => .error e
    | .ok fields =>
      if fields = [] then
        .error (.invalid s!"record {debug recordName} has no elementary fields")
      else
        .ok {
          records := [{ name := recordName, fields := fields, selector := none }]
          description := ""
          headerSize := 0
          footerSize := 0
          recordLengthField := none
          recordTypeField := none }

/-- Compile the statements of a copybook. -/
def compileStatements (statements : List Statement) : Except ParseError RawLayout :=
  if statements = [] then
    .error (.invalid ("the copybook has no data descriptions; a copybook is a list of " ++
      "level-numbered items such as `01 REC.  05 NAME PIC X(20).`"))
  else
    match collectItems [] statements with
    | .error e => .error e
    | .ok items => compileItems items

/-- Compile copybook source into the raw layout shape. -/
def compile (source : String) : Except ParseError RawLayout :=
  match statements source with
  | .error e => .error e
  | .ok statements => compileStatements statements

end GrpcEbcdic.Copybook

import GrpcEbcdic.Proto.Events
import GrpcEbcdic.Support.AssocList

/-!
# The table of one record schema

What the Document fold makes of a field, of a cell and of a row, and what it holds for each record
schema until the last event has been seen: the rows it kept, and the count of those it did not.
-/

namespace GrpcEbcdic
open Rust

/-- Estimated encoded bytes of one table cell beyond its text. -/
def cellOverheadBytes : Nat := 32

/-- Estimated encoded bytes of one row beyond its cells. -/
def rowOverheadBytes : Nat := 32

/-- A JSON pointer. -/
def refItem (reference : String) : Doc.RefItem := ⟨reference⟩

/-- The lowercase name of a layout form, if the server said one. -/
def layoutSourceName (source : Int) : Option String :=
  match Pb.LayoutSource.tryFrom source with
  | some .proto => some "proto"
  | some .json => some "json"
  | some .copybook => some "copybook"
  | some .unspecified => none
  | none => none

/-- The name of a field type, in the vocabulary the layout forms use. -/
def fieldTypeName (type : Int) : Option String :=
  match Pb.FieldType.tryFrom type with
  | some .string => some "string"
  | some .integer => some "integer"
  | some .unsignedInteger => some "unsigned_integer"
  | some .packedDecimal => some "packed_decimal"
  | some .zonedDecimal => some "zoned_decimal"
  | some .skip => some "skip"
  | some .unspecified => none
  | none => none

/-- One level-88 condition name as the document schema declares it. -/
def condition (declared : Pb.ConditionName) : Doc.ValueCondition where
  name := declared.name
  values := declared.ranges.map fun range => ⟨range.low, range.high⟩

/-- One column of a folded table: its header cell, and its declaration. -/
structure Column where
  name : String
  schema : Doc.TableColumnSchema
deriving DecidableEq

/-- One column of a folded table, from the field schema behind it. -/
def column (field : Pb.FieldSchema) : Column where
  name := field.name
  schema := {
    name := some (if field.path = "" then field.name else field.path)
    declaredType := fieldTypeName field.type
    picture := if field.picture = "" then none else some field.picture
    byteOffset := some field.offset
    byteSize := some field.size
    level := field.level.bind toI32
    occursIndex := field.occursIndex.bind toI32
    conditions := field.conditions.map condition }

/-- The columns of a record schema: its fields but for the fillers. -/
def columns (schema : Pb.RecordSchema) : List Column :=
  (schema.fields.filter (·.type ≠ Pb.FieldType.skip.toI32)).map column

/-- Render one decoded cell as table text. -/
def cellText (cell : Pb.Cell) : String :=
  match cell.value with
  | some (.text text) => text
  | some (.decimal decimal) => decimal.text
  | some (.integer integer) => toString integer
  | none => ""

/-- Where a record lies in the input. -/
def rowExtent (row : Pb.RecordRow) : Doc.ProvenanceItem where
  byteRange := some { start := row.byteOffset, stop := satAdd row.byteOffset row.byteLength }

/-- The estimate for one row whose cells hold texts of these lengths: every cell is written twice. -/
def cellsCost (lengths : List Nat) : Nat :=
  (lengths.map fun len => 2 * (len + cellOverheadBytes)).sum + rowOverheadBytes

variable [F64]

/-- A `google.protobuf.Value` holding a string. -/
def stringValue (text : String) : Doc.Value := .stringValue text

/-- A `google.protobuf.Value` holding a count. -/
def numberValue (number : Nat) : Doc.Value := .numberValue (F64.ofInt number)

/-- The typed value of one decoded cell, when it has one a `CellValue` can hold. -/
def cellValue (cell : Pb.Cell) : Option Doc.CellValue :=
  match cell.value with
  | some (.text _) => none
  | some (.decimal decimal) => (F64.parse decimal.text).map .number
  | some (.integer integer) => some (.number (F64.ofInt integer))
  | none => none

/-- One table cell at a row and a column. Spans are always one. -/
def tableCell (text : String) (value : Option Doc.CellValue) (row column : Nat)
    (columnHeader : Bool) : Doc.TableCell where
  rowSpan := 1
  colSpan := 1
  startRowOffsetIdx := clampI32 row
  endRowOffsetIdx := satSuccI32 (clampI32 row)
  startColOffsetIdx := clampI32 column
  endColOffsetIdx := satSuccI32 (clampI32 column)
  text := text
  columnHeader := columnHeader
  value := value

/-- One record schema's rows, and the counters the finalizer needs. -/
structure TableState where
  name : String
  columns : List Column
  /-- Column position by field name. -/
  columnIndex : List (String × Nat)
  recordLength : Nat
  selector : Option String
  /-- Data rows folded so far, header row excluded. -/
  rows : Nat
  /-- Rows seen past a cap and therefore not folded. -/
  dropped : Nat
  /-- Input offset of the first dropped record. -/
  firstDroppedOffset : Nat
  /-- The folded data rows, in arrival order. -/
  grid : List Doc.TableRow
  /-- Where each folded row sat in the input. -/
  rowProv : List Doc.ProvenanceItem

namespace TableState

/-- The table of a record schema before its first row. -/
def new (schema : Pb.RecordSchema) : TableState where
  name := schema.name
  columns := GrpcEbcdic.columns schema
  columnIndex :=
    AssocList.collect ((GrpcEbcdic.columns schema).zipIdx.map fun (column, index) =>
      (column.name, index))
  recordLength := schema.recordLength
  selector := schema.selector
  rows := 0
  dropped := 0
  firstDroppedOffset := 0
  grid := []
  rowProv := []

/-- Place the cells of a row by name: a column without a cell stays empty. -/
def values (state : TableState) (row : Pb.RecordRow) : List (String × Option Doc.CellValue) :=
  row.cells.foldl
    (fun values cell =>
      match state.columnIndex.lookup cell.name with
      | some column => values.set column (cellText cell, cellValue cell)
      | none => values)
    (List.replicate state.columns.length ("", none))

/-- The estimate for one more row; a table's first also brings its header row. -/
def cost (state : TableState) (row : Pb.RecordRow) : Nat :=
  let cost := cellsCost ((state.values row).map fun value => value.1.utf8ByteSize)
  if state.rows = 0 then
    cost + cellsCost (state.columns.map fun column => column.name.utf8ByteSize)
  else cost

/-- A row as the grid row at an index. -/
def gridRow (state : TableState) (row : Pb.RecordRow) (index : Nat) : Doc.TableRow where
  cells := (state.values row).zipIdx.map fun ((text, value), column) =>
    tableCell text value index column false

/-- Count a row as dropped. -/
def dropRow (state : TableState) (row : Pb.RecordRow) : TableState :=
  { state with
    firstDroppedOffset := if state.dropped = 0 then row.byteOffset else state.firstDroppedOffset
    dropped := state.dropped + 1 }

/-- Append a row to the grid. -/
def keepRow (state : TableState) (row : Pb.RecordRow) : TableState :=
  { state with
    rows := state.rows + 1
    grid := state.grid ++ [state.gridRow row (state.rows + 1)]
    rowProv := state.rowProv ++ [rowExtent row] }

/-- The header row. -/
def header (state : TableState) : List Doc.TableCell :=
  state.columns.zipIdx.map fun (declared, column) => tableCell declared.name none 0 column true

/-- The custom fields of the table. -/
def customFields (state : TableState) : List (String × Doc.Value) :=
  let fields := AssocList.insert "ebcdic.schema" (stringValue state.name) []
  let fields := AssocList.insert "ebcdic.record_length" (numberValue state.recordLength) fields
  let fields :=
    match state.selector with
    | some selector => AssocList.insert "ebcdic.selector" (stringValue selector) fields
    | none => fields
  let fields := AssocList.insert "ebcdic.rows" (numberValue state.rows) fields
  if 0 < state.dropped then
    AssocList.insert "ebcdic.rows_truncated" (numberValue state.dropped) fields
  else fields

/-- A table names its schema whatever else its custom fields say. -/
lemma customFields_schema (state : TableState) :
    state.customFields.lookup "ebcdic.schema" = some (stringValue state.name) := by
  unfold customFields
  cases state.selector <;> dsimp only <;> split_ifs <;>
    simp [AssocList.lookup_insert_of_ne, AssocList.lookup_insert_self]

end TableState

end GrpcEbcdic

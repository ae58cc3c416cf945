import GrpcEbcdic.Fold.Table

/-!
# The Document fold

The parse's own events projected into one `Document`: `consume` takes every outbound event in wire
order, `truncationWarnings` says which tables are short, and `take` writes the document. The fold caps
the rows of each schema and the estimated size of the whole document; what is past a cap is counted.
-/

namespace GrpcEbcdic
open Rust

/-- The collector named on every item. -/
def collector : String := "ebcdic"

/-- The schema the document shape tracks. -/
def schemaName : String := "docling_document_v2"

/-- Rows folded per record schema before the fold starts counting instead. -/
def defaultRowCap : Nat := 100000

/-- Estimated encoded size of one document the fold will build, in bytes, across every schema. -/
def defaultByteCap : Nat := 64 * 1024 * 1024

/-- Self reference of the body group. -/
def bodyRef : String := "#/body"

/-- Self reference of the furniture group. -/
def furnitureRef : String := "#/furniture"

variable [F64]

/-- A single-pass fold from parse events to one document. -/
structure DocumentFold where
  document : Doc.Document
  version : String
  /-- Layout form the request used. -/
  model : Option String
  rowCap : Nat
  byteCap : Nat
  /-- Estimated document bytes folded so far. -/
  bytes : Nat
  /-- Whether a row has already been refused for the byte budget. -/
  budgetSpent : Bool
  /-- The parse-wide half of every table's record layout. -/
  layout : Doc.RecordLayoutMeta
  /-- Per-schema state, in layout order. -/
  tables : List TableState
  /-- Table index by schema name. -/
  indexBySchema : List (String × Nat)
  description : String
  /-- Whether the opening `layout_info` has been folded. -/
  started : Bool

namespace DocumentFold

/-- Start a fold that stamps `version` on every item it creates. -/
def new (version : String) : DocumentFold where
  document := {
    schemaName := some schemaName
    body := some { selfRef := bodyRef, contentLayer := Doc.ContentLayer.body.toI32 }
    furniture :=
      some { selfRef := furnitureRef, contentLayer := Doc.ContentLayer.furniture.toI32 } }
  version := version
  model := none
  rowCap := defaultRowCap
  byteCap := defaultByteCap
  bytes := 0
  budgetSpent := false
  layout := {}
  tables := []
  indexBySchema := []
  description := ""
  started := false

/-- Override how many rows per schema are folded. -/
def withRowCap (fold : DocumentFold) (rows : Nat) : DocumentFold := { fold with rowCap := rows }

/-- Override the estimated size past which rows are counted instead of folded. -/
def withByteCap (fold : DocumentFold) (bytes : Nat) : DocumentFold := { fold with byteCap := bytes }

/-- The custom fields of the body. -/
def bodyFields (info : Pb.LayoutInfo) : List (String × Doc.Value) :=
  let fields := AssocList.insert "ebcdic.encoding" (stringValue info.encoding) []
  let fields :=
    match layoutSourceName info.source with
    | some source => AssocList.insert "ebcdic.layout_source" (stringValue source) fields
    | none => fields
  let fields := AssocList.insert "ebcdic.header_size" (numberValue info.headerSize) fields
  let fields := AssocList.insert "ebcdic.footer_size" (numberValue info.footerSize) fields
  AssocList.insert "ebcdic.prefix_size" (numberValue info.prefixSize) fields

/-- Add the table of one record schema. -/
def addSchema (fold : DocumentFold) (schema : Pb.RecordSchema) : DocumentFold :=
  { fold with
    indexBySchema := AssocList.insert schema.name fold.tables.length fold.indexBySchema
    tables := fold.tables ++ [TableState.new schema] }

/-- Work out the columns of every record schema and the document's facts. -/
def begin (fold : DocumentFold) (info : Pb.LayoutInfo) : DocumentFold :=
  if fold.started then fold
  else
    let name :=
      if info.description = "" then (info.records.head?.map (·.name)).getD ""
      else info.description
    let body := fold.document.body.map fun body =>
      { body with customFields := some (bodyFields info) }
    let fold :=
      { fold with
        started := true
        model := layoutSourceName info.source
        description := info.description
        document := { fold.document with name := name, body := body }
        layout := {
          encoding := some info.encoding
          headerBytes := some info.headerSize
          footerBytes := some info.footerSize
          prefixBytes := some info.prefixSize } }
    info.records.foldl addSchema fold

/-- Append one decoded record as a grid row, or count it as dropped. -/
def row (fold : DocumentFold) (row : Pb.RecordRow) : DocumentFold :=
  match fold.indexBySchema.lookup row.recordType with
  -- Unreachable through the service: the walk only emits rows of declared schemas.
  | none => fold
  | some index =>
    match fold.tables[index]? with
    | none => fold
    | some state =>
      if fold.rowCap ≤ state.rows ∨ fold.budgetSpent = true then
        { fold with tables := fold.tables.set index (state.dropRow row) }
      else if fold.byteCap < satAdd fold.bytes (state.cost row) then
        { fold with budgetSpent := true, tables := fold.tables.set index (state.dropRow row) }
      else
        { fold with
          bytes := wrapAdd fold.bytes (state.cost row)
          tables := fold.tables.set index (state.keepRow row) }

/-- Fold one outbound event. -/
def consume (fold : DocumentFold) (event : Pb.Event) : DocumentFold :=
  match event with
  | .layoutInfo info => fold.begin info
  | .record row => fold.row row
  -- The trailer is counts of the parse, and the document is the fold's own output.
  | .status _ => fold
  | .document _ => fold

section Warnings

variable [Unicode]

/-- The warning about one table that is short. -/
def truncationWarning (fold : DocumentFold) (state : TableState) : Pb.ParseWarning where
  code := Pb.WarningCode.documentRowsTruncated.toI32
  message := s!"record schema {debug state.name} produced {state.dropped} rows past the Document " ++
    s!"fold cap ({fold.rowCap} rows per schema, about {fold.byteCap} bytes per Document); its " ++
    s!"table holds the first {state.rows} and {state.dropped} were dropped. Every row was sent " ++
    "as a `record` event, so re-run with a smaller max_records for a whole Document."
  byteOffset := state.firstDroppedOffset

/-- Warnings for every schema whose rows did not all fit. -/
def truncationWarnings (fold : DocumentFold) : List Pb.ParseWarning :=
  (fold.tables.filter (0 < ·.dropped)).map fold.truncationWarning

end Warnings

/-- Record a reference in the body's children. -/
def linkBodyChild (fold : DocumentFold) (child : String) : DocumentFold :=
  { fold with
    document := { fold.document with
      body := fold.document.body.map fun body =>
        { body with children := body.children ++ [refItem child] } } }

/-- The attribution stamped on every item. -/
def collectorSource (fold : DocumentFold) : Doc.CollectorSource where
  collector := collector
  model := fold.model
  version := some fold.version

/-- The reference the next text item gets. -/
def nextTextRef (fold : DocumentFold) : String := s!"#/texts/{fold.document.texts.length}"

/-- The base of one text item on the body. -/
def textBase (fold : DocumentFold) (label : Doc.DocItemLabel) (text : String) :
    Doc.TextItemBase where
  selfRef := fold.nextTextRef
  parent := some (refItem bodyRef)
  contentLayer := Doc.ContentLayer.body.toI32
  label := label.toI32
  orig := text
  text := text
  source := [fold.collectorSource]

/-- Append one text item, linked in both directions. -/
def pushText (fold : DocumentFold) (item : Doc.BaseTextItem) : DocumentFold :=
  let fold := fold.linkBodyChild fold.nextTextRef
  { fold with document := { fold.document with texts := fold.document.texts ++ [some item] } }

/-- Append the layout description as the document's opening text item. -/
def addDescription (fold : DocumentFold) (text : String) : DocumentFold :=
  fold.pushText (.text (some (fold.textBase .text text)))

/-- Append a section header naming a record schema. -/
def addHeading (fold : DocumentFold) (name : String) : DocumentFold :=
  fold.pushText (.sectionHeader (some (fold.textBase .sectionHeader name)) 1)

/-- The reference the next table gets. -/
def nextTableRef (fold : DocumentFold) : String := s!"#/tables/{fold.document.tables.length}"

/-- The table of one schema: header row, data rows, and the facts that are only knowable now. -/
def tableItem (fold : DocumentFold) (state : TableState) : Doc.TableItem where
  selfRef := fold.nextTableRef
  parent := some (refItem bodyRef)
  contentLayer := Doc.ContentLayer.body.toI32
  label := Doc.DocItemLabel.table.toI32
  customFields := some state.customFields
  data := some {
    tableCells := state.header ++ state.grid.flatMap (·.cells)
    -- The header row is a row of the grid, so the count includes it.
    numRows := clampI32 (satAdd state.rows 1)
    numCols := clampI32 state.columns.length
    grid := ⟨state.header⟩ :: state.grid
    columns := state.columns.map (·.schema)
    rowProv := {} :: state.rowProv
    recordLayout := some { fold.layout with
      recordLength := some state.recordLength
      rowsTruncated := some state.dropped } }
  source := [fold.collectorSource]

/-- Append one schema's table to the body. -/
def addTable (fold : DocumentFold) (state : TableState) : DocumentFold :=
  let table := fold.tableItem state
  let fold := fold.linkBodyChild fold.nextTableRef
  { fold with document := { fold.document with tables := fold.document.tables ++ [table] } }

/-- Write one schema: nothing if it matched no record, else a heading, when headings are written, and
its table. -/
def addState (headings : Bool) (fold : DocumentFold) (state : TableState) : DocumentFold :=
  if state.rows = 0 ∧ state.dropped = 0 then fold
  else if headings then (fold.addHeading state.name).addTable state
  else fold.addTable state

/-- Finish the fold and hand back the document. -/
def take (fold : DocumentFold) : Doc.Document :=
  let description := fold.description
  let states := fold.tables
  let fold := { fold with description := "" }
  let fold := if description = "" then fold else fold.addDescription description
  let fold := { fold with tables := [] }
  -- The headings go by the declared schema count, not the surviving one.
  (states.foldl (addState (1 < states.length)) fold).document

end DocumentFold

end GrpcEbcdic

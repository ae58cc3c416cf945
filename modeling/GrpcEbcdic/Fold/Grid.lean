import GrpcEbcdic.Fold.MergeSafe
import GrpcEbcdic.Layout.Resolve

/-!
# The grid of a table

The four views of a table say the same: the columns, the grid, the flat cells and the provenance of
the rows (`Agrees`). A row is as wide as the columns whatever cells its record has (`RowShows`), and the
header of a column names what is under it. So the tables of a document tell which rows of each schema they
hold and how many they leave out (`TableOf`).
-/

namespace GrpcEbcdic
open Rust

/-! ## Columns -/

/-- The columns of a record schema are named like its cells. -/
lemma columns_names (record : RecordLayout) :
    (columns record.toSchema).map (·.name) = cellNames record.fields := by
  have skip : ∀ field : Field, decide (field.toSchema.type ≠ Pb.FieldType.skip.toI32)
      = decide (field.kind ≠ .skip) := by
    intro field
    cases h : field.kind <;> simp [Field.toSchema, h] <;> decide
  rw [columns, RecordLayout.toSchema, cellNames, List.filter_map, List.map_map, List.map_map]
  simp only [Function.comp_def, skip]
  rfl

/-- A record has at most one field for each byte. -/
lemma Placed.length_le {c : Nat} {fs : List Field} {n : Nat} (pl : Placed c fs n) :
    c + fs.length ≤ n := by
  induction pl with
  | nil => exact Nat.le_refl _
  | cons le pos pl ih =>
    rw [Field.stop] at ih
    rw [List.length_cons]
    omega

/-- The columns of a valid record can be counted. -/
lemma columns_length_lt {record : RecordLayout} (valid : record.Valid) :
    (columns record.toSchema).length < 2 ^ 31 := by
  have names := congrArg List.length (columns_names record)
  rw [List.length_map, cellNames, List.length_map] at names
  have le := (List.length_filter_le (·.kind ≠ .skip) record.fields).trans
    ((Nat.le_add_left _ 0).trans valid.placed.length_le)
  have size : record.size ≤ 16777216 := valid.size_le
  omega

/-- The columns of a resolved layout have distinct names, and can be counted. -/
lemma Layout.Valid.columns {layout : Layout} (valid : layout.Valid) (encoding : String) :
    ∀ schema ∈ (layout.toLayoutInfo encoding).records,
      ((GrpcEbcdic.columns schema).map (·.name)).Nodup ∧ (GrpcEbcdic.columns schema).length < 2 ^ 31 := by
  refine List.forall_mem_map.mpr fun record mem => ⟨?_, columns_length_lt (valid.record record mem)⟩
  rw [columns_names]
  exact (valid.record record mem).names

/-- The schemas of a resolved layout have distinct names. -/
lemma Layout.Valid.schemas {layout : Layout} (valid : layout.Valid) (encoding : String) :
    ((layout.toLayoutInfo encoding).records.map (·.name)).Nodup := by
  rw [Layout.toLayoutInfo, List.map_map]
  exact valid.names

/-! ## Tables -/

section Tables

variable [F64]

/-- The cell of a table at a row and a column of its grid. -/
def Doc.TableData.cellAt (data : Doc.TableData) (r c : Nat) : Option Doc.TableCell :=
  data.grid[r]?.bind (·.cells[c]?)

/-- A table whose columns, grid, flat cells and provenance are those of some records of a schema. -/
structure Agrees (schema : Pb.RecordSchema) (kept : List Pb.RecordRow) (data : Doc.TableData) :
    Prop where
  columns : data.columns = (columns schema).map (·.schema)
  numCols : data.numCols = data.columns.length
  rows : data.grid.length = kept.length + 1
  numRows : data.numRows = clampI32 data.grid.length
  width : ∀ row ∈ data.grid, row.cells.length = data.numCols
  flat : data.tableCells = data.grid.flatMap (·.cells)
  offsets : ∀ r c cell, data.cellAt r c = some cell →
    cell.startRowOffsetIdx = clampI32 r ∧ cell.endRowOffsetIdx = clampI32 (r + 1) ∧
      cell.startColOffsetIdx = clampI32 c ∧ cell.endColOffsetIdx = clampI32 (c + 1)
  /-- The header was read from no place in the input. -/
  rowProv : data.rowProv = {} :: kept.map fun row =>
    { byteRange := some {
        start := row.byteOffset
        stop := min (row.byteOffset + row.byteLength) u64Max } }
  header : ∀ c cell, data.cellAt 0 c = some cell →
    ∃ column, (GrpcEbcdic.columns schema)[c]? = some column ∧ cell.text = column.name
  text : ∀ r c row head cell, kept[r]? = some row → data.cellAt 0 c = some head →
    data.cellAt (r + 1) c = some cell → Shows (cellNamed row head.text) cell.text

omit [F64] in
lemma clampI32_satAdd (n : Nat) : clampI32 (satAdd n 1) = clampI32 (n + 1) := by
  unfold clampI32 satAdd u64Max
  omega

/-- The grid of some records of a schema: its header and a row for each. -/
def gridOf (schema : Pb.RecordSchema) (kept : List Pb.RecordRow) : List Doc.TableRow :=
  ⟨(TableState.new schema).header⟩ ::
    (kept.zipIdx 1).map fun (row, index) => (TableState.new schema).gridRow row index

/-- Every row of a grid is as wide as its columns. -/
lemma gridOf_width {schema : Pb.RecordSchema} {kept : List Pb.RecordRow} :
    ∀ row ∈ gridOf schema kept, row.cells.length = (columns schema).length := by
  refine List.forall_mem_cons.mpr ⟨?_, List.forall_mem_map.mpr fun ⟨row, index⟩ _ => ?_⟩
  · rw [TableState.header, List.length_map, List.length_zipIdx]
    rfl
  · exact (TableState.gridRow_shows schema row index).width

/-- A cell of the header names its column. -/
lemma gridOf_header {schema : Pb.RecordSchema} {kept : List Pb.RecordRow} {c : Nat}
    {cell : Doc.TableCell} (at_cell : (gridOf schema kept)[0]?.bind (·.cells[c]?) = some cell) :
    ∃ column, (columns schema)[c]? = some column ∧ cell = tableCell column.name none 0 c true := by
  rw [gridOf, List.getElem?_cons_zero, Option.bind_some, TableState.header, List.getElem?_map,
    List.getElem?_zipIdx, Option.map_map] at at_cell
  obtain ⟨column, at_c, rfl⟩ := Option.map_eq_some_iff.mp at_cell
  exact ⟨column, at_c, by rw [Function.comp_apply, Nat.zero_add]⟩

/-- The rows under it show the records. -/
lemma gridOf_row {schema : Pb.RecordSchema} {kept : List Pb.RecordRow} {r c : Nat} {cell : Doc.TableCell}
    (at_cell : (gridOf schema kept)[r + 1]?.bind (·.cells[c]?) = some cell) :
    ∃ row written, kept[r]? = some row ∧ RowShows (columns schema) row (r + 1) written ∧
      written.cells[c]? = some cell := by
  rw [gridOf, List.getElem?_cons_succ, List.getElem?_map, List.getElem?_zipIdx, Option.map_map] at at_cell
  obtain ⟨written, at_r, at_cell⟩ := Option.bind_eq_some_iff.mp at_cell
  obtain ⟨row, at_row, rfl⟩ := Option.map_eq_some_iff.mp at_r
  rw [Function.comp_apply, Nat.add_comm 1] at at_cell
  exact ⟨row, _, at_row, TableState.gridRow_shows schema row (r + 1), at_cell⟩

/-- The table of an account agrees with the records it keeps. -/
lemma Account.agrees {rowCap : Nat} {rows : List Pb.RecordRow} {schema : Pb.RecordSchema}
    {state : TableState} (acc : Account rowCap rows schema state)
    (nodup : ((columns schema).map (·.name)).Nodup) (few : (columns schema).length < 2 ^ 31)
    {data : Doc.TableData} (columns : data.columns = state.columns.map (·.schema))
    (numCols : data.numCols = clampI32 state.columns.length)
    (numRows : data.numRows = clampI32 (satAdd state.rows 1))
    (grid : data.grid = ⟨state.header⟩ :: state.grid)
    (flat : data.tableCells = state.header ++ state.grid.flatMap (·.cells))
    (rowProv : data.rowProv = {} :: state.rowProv) :
    Agrees schema ((rowsNamed rows schema.name).take state.rows) data := by
  have kept := acc.kept_length
  have header : state.header = (TableState.new schema).header := by
    rw [TableState.header, acc.declared.columns]
    rfl
  have written : data.grid = gridOf schema ((rowsNamed rows schema.name).take state.rows) := by
    rw [grid, acc.grid, header, gridOf]
  have declared : data.columns = (GrpcEbcdic.columns schema).map (·.schema) := by
    rw [columns, acc.declared.columns]
  have wide : data.numCols = (GrpcEbcdic.columns schema).length := by
    rw [numCols, acc.declared.columns, clampI32]
    omega
  have length : data.grid.length = state.rows + 1 := by
    rw [written, gridOf, List.length_cons, List.length_map, List.length_zipIdx, kept]
  refine ⟨declared, ?_, ?_, ?_, ?_, ?_, ?_, ?_, ?_, ?_⟩
  · rw [wide, declared, List.length_map]
  · rw [length, kept]
  · rw [numRows, length, clampI32_satAdd]
  · rw [written, wide]
    exact gridOf_width
  · rw [flat, grid, List.flatMap_cons]
  · intro r c cell at_cell
    rw [Doc.TableData.cellAt, written] at at_cell
    cases r with
    | zero =>
      obtain ⟨column, _, rfl⟩ := gridOf_header at_cell
      exact tableCell_offsets _ _ _ _ _
    | succ r =>
      obtain ⟨row, written, _, shows, at_c⟩ := gridOf_row at_cell
      exact shows.offsets c cell at_c
  · rw [rowProv, acc.rowProv]
    rfl
  · intro c cell at_cell
    rw [Doc.TableData.cellAt, written] at at_cell
    obtain ⟨column, at_c, rfl⟩ := gridOf_header at_cell
    exact ⟨column, at_c, rfl⟩
  · intro r c row head cell at_r at_head at_cell
    rw [Doc.TableData.cellAt, written] at at_head at_cell
    obtain ⟨column, at_c, rfl⟩ := gridOf_header at_head
    obtain ⟨own, row', at_own, shows, at_cell⟩ := gridOf_row at_cell
    cases at_r.symm.trans at_own
    have text := shows.text c cell at_cell
    rwa [shownIn_eq nodup at_c] at text

/-- A table of a document that names its schema, agrees with the first of some rows of it, and says how many
of `count` rows it leaves out. -/
structure TableOf (schema : Pb.RecordSchema) (rows : List Pb.RecordRow) (count : Nat)
    (table : Doc.TableItem) : Prop where
  named : ∃ fields, table.customFields = some fields ∧
    fields.lookup "ebcdic.schema" = some (stringValue schema.name)
  rows : ∃ data layout kept dropped, table.data = some data ∧ data.recordLayout = some layout ∧
    layout.rowsTruncated = some dropped ∧ kept <+: rowsNamed rows schema.name ∧
    kept.length + dropped = count ∧ Agrees schema kept data ∧
    (kept.length + 1 < 2 ^ 31 → data.numRows = kept.length + 1)

/-- The table of an accounted schema. -/
lemma Account.tableOf {rowCap : Nat} {rows : List Pb.RecordRow} {schema : Pb.RecordSchema}
    {state : TableState} (acc : Account rowCap rows schema state)
    (nodup : ((GrpcEbcdic.columns schema).map (·.name)).Nodup)
    (few : (GrpcEbcdic.columns schema).length < 2 ^ 31) (fold : DocumentFold) (index : Nat) :
    TableOf schema rows (rowsOf rows schema.name) (fold.tableAt index state) := by
  have agrees : Agrees schema _ ((fold.tableAt index state).data.get rfl) :=
    acc.agrees nodup few rfl rfl rfl rfl rfl rfl
  refine ⟨⟨_, rfl, ?_⟩, _, _, _, _, rfl, rfl, rfl, List.take_prefix _ _, ?_, agrees, fun small => ?_⟩
  · rw [state.customFields_schema, acc.declared.name]
  · rw [acc.kept_length, acc.counted]
  · refine agrees.numRows.trans ?_
    rw [agrees.rows, clampI32]
    omega

/-- The tables of the document are those of the schemas with a row, and account for them. -/
lemma take_tables {info : Pb.LayoutInfo} {rowCap byteCap : Nat} {rows : List Pb.RecordRow}
    {fold : DocumentFold} (acc : Accounts info rowCap byteCap rows fold) (blank : fold.Blank)
    (columns : ∀ schema ∈ info.records,
      ((GrpcEbcdic.columns schema).map (·.name)).Nodup ∧ (GrpcEbcdic.columns schema).length < 2 ^ 31) :
    List.Forall₂ (fun schema table => TableOf schema rows (rowsOf rows schema.name) table)
      (info.records.filter fun schema => rowsOf rows schema.name ≠ 0) fold.take.tables := by
  have seen : List.Forall₂ (fun schema state => schema ∈ info.records ∧ Account rowCap rows schema state)
      (info.records.filter fun schema => rowsOf rows schema.name ≠ 0)
      (fold.tables.filter fun state => ¬ DocumentFold.Unseen state) := by
    have pairs := Pairing.forall₂_iff_getElem?.mp acc.seen
    refine Pairing.forall₂_iff_getElem?.mpr ⟨pairs.1, fun i schema state at_i at_i' => ?_⟩
    exact ⟨(List.mem_filter.mp (List.mem_of_getElem? at_i)).1, pairs.2 i schema state at_i at_i'⟩
  have written := fold.tablesFrom_states 0 fold.outline
  rw [fold.outline_states] at written
  rw [blank.take_tables]
  refine Pairing.forall₂_comp (fun schema state table held at_index => ?_) seen written
  obtain ⟨index, rfl⟩ := at_index
  obtain ⟨nodup, few⟩ := columns schema held.1
  exact held.2.tableOf nodup few fold index

/-- The rows a table says it leaves out. -/
def Doc.TableItem.truncated (table : Doc.TableItem) : Nat :=
  ((table.data.bind (·.recordLayout)).bind (·.rowsTruncated)).getD 0

/-- A warning about the table of a schema: where the rows begin that it leaves out. -/
def Warned [Unicode] (rows : List Pb.RecordRow) (schema : Pb.RecordSchema) (table : Doc.TableItem)
    (warning : Pb.ParseWarning) : Prop :=
  ∃ data kept, table.data = some data ∧ data.grid.length = kept + 1 ∧ ShortWarning rows schema kept warning

/-- The tables that leave rows out are warned of, in their order. -/
lemma tables_warned [Unicode] {rowCap : Nat} {rows : List Pb.RecordRow} {fold : DocumentFold}
    {schemas : List Pb.RecordSchema} {states : List TableState} {tables : List Doc.TableItem}
    (accounts : List.Forall₂ (Account rowCap rows) schemas states)
    (written : List.Forall₂ (fun state table => ∃ index, table = fold.tableAt index state)
      (states.filter fun state => ¬ DocumentFold.Unseen state) tables) :
    List.Forall₂ (fun pair warning => Warned rows pair.1 pair.2 warning)
      (((schemas.filter fun schema => rowsOf rows schema.name ≠ 0).zip tables).filter
        fun pair => 0 < pair.2.truncated)
      ((states.filter (0 < ·.dropped)).map fold.truncationWarning) := by
  induction accounts generalizing tables with
  | nil =>
    cases written
    exact .nil
  | @cons schema state schemas states account _ ih =>
    have counted := account.counted
    by_cases unseen : DocumentFold.Unseen state
    · -- A table without a row is not written, and nothing of it was dropped.
      have none : rowsOf rows schema.name = 0 := by rw [← counted, unseen.1, unseen.2]
      have full : state.dropped = 0 := unseen.2
      rw [List.filter_cons_of_neg (by simpa using unseen)] at written
      rw [List.filter_cons_of_neg (by simpa using none), List.filter_cons_of_neg (by simpa using full)]
      exact ih written
    · have some : rowsOf rows schema.name ≠ 0 := by
        unfold DocumentFold.Unseen at unseen
        omega
      rw [List.filter_cons_of_pos (by simpa using unseen)] at written
      obtain ⟨table, tables, ⟨index, rfl⟩, rest, rfl⟩ := List.forall₂_cons_left_iff.mp written
      have told : (fold.tableAt index state).truncated = state.dropped := rfl
      rw [List.filter_cons_of_pos (by simpa using some), List.zip_cons_cons]
      by_cases short : 0 < state.dropped
      · rw [List.filter_cons_of_pos (by simpa [told] using short),
          List.filter_cons_of_pos (by simpa using short), List.map_cons]
        refine .cons ⟨_, state.rows, rfl, ?_, account.warning short fold⟩ (ih rest)
        show (⟨state.header⟩ :: state.grid).length = _
        rw [List.length_cons, account.tallied.height]
      · rw [List.filter_cons_of_neg (by simpa [told] using short),
          List.filter_cons_of_neg (by simpa using short)]
        exact ih rest

/-- The warnings of a fold are about the tables of its document that leave rows out. -/
lemma take_warnings [Unicode] {info : Pb.LayoutInfo} {rowCap byteCap : Nat} {rows : List Pb.RecordRow}
    {fold : DocumentFold} (acc : Accounts info rowCap byteCap rows fold) (blank : fold.Blank) :
    List.Forall₂ (fun pair warning => Warned rows pair.1 pair.2 warning)
      (((info.records.filter fun schema => rowsOf rows schema.name ≠ 0).zip fold.take.tables).filter
        fun pair => 0 < pair.2.truncated)
      fold.truncationWarnings := by
  have written := fold.tablesFrom_states 0 fold.outline
  rw [fold.outline_states, ← blank.take_tables] at written
  exact tables_warned acc.tables written

/-- Every table of a folded parse is that of a schema of its layout, and its columns, its grid, its
flat cells and its provenance agree on the first records of the schema. -/
theorem take_tables_agree [Unicode] [SerdeJson] {options : Pb.ParseOptions} {layout : Layout}
    (resolved : resolve options = .ok layout) (encoding version : String) (rowCap byteCap : Nat)
    (before after : List Pb.Event) (opening : ∀ event ∈ before, ¬IsLayoutInfo event) :
    ∀ table ∈ (foldEvents version rowCap byteCap
        (before ++ .layoutInfo (layout.toLayoutInfo encoding) :: after)).take.tables,
      ∃ data, table.data = some data ∧
        ∃ record ∈ layout.records, ∃ kept, kept <+: rowsNamed (rowsIn after) record.name ∧
          Agrees record.toSchema kept data ∧
          (rowCap + 1 < 2 ^ 31 → data.numRows = data.grid.length) := by
  have valid := resolve_valid resolved
  set info := layout.toLayoutInfo encoding
  have names : (info.records.map (·.name)).Nodup := valid.schemas encoding
  have acc := (Accounts.start names version rowCap byteCap).foldRows names (rowsIn after)
  have blank : (foldEvents version rowCap byteCap (before ++ .layoutInfo info :: after)).Blank :=
    (DocumentFold.blank_new version rowCap byteCap).foldl _
  rw [← (foldEvents_eq version rowCap byteCap info after opening).1, List.nil_append] at acc
  generalize foldEvents version rowCap byteCap (before ++ .layoutInfo info :: after) = fold at acc blank
  intro table mem
  have tables := fold.tablesFrom_states 0 fold.outline
  rw [DocumentFold.outline_states, ← blank.take_tables] at tables
  obtain ⟨i, at_i⟩ := List.mem_iff_getElem?.mp mem
  obtain ⟨state, at_i', index, rfl⟩ := Pairing.exists_of_forall₂ tables.flip at_i
  -- The state behind the table is that of one of the records.
  obtain ⟨j, at_j⟩ := List.mem_iff_getElem?.mp (List.mem_filter.mp (List.mem_of_getElem? at_i')).1
  obtain ⟨schema, at_j', account⟩ := Pairing.exists_of_forall₂ acc.tables.flip at_j
  obtain ⟨nodup, few⟩ := valid.columns encoding schema (List.mem_of_getElem? at_j')
  obtain ⟨record, has, rfl⟩ := List.mem_map.mp (List.mem_of_getElem? at_j')
  have agrees : Agrees record.toSchema _ ((fold.tableItem state).data.get rfl) :=
    account.agrees nodup few rfl rfl rfl rfl rfl rfl
  refine ⟨_, rfl, record, has, _, List.take_prefix _ _, agrees, fun below => ?_⟩
  have within := (List.length_take_le state.rows (rowsNamed (rowsIn after) record.toSchema.name)).trans
    account.within
  refine agrees.numRows.trans (min_eq_left ?_)
  rw [agrees.rows]
  omega

end Tables

section Sample

attribute [local instance] asciiUnicode noJson coreF64

/-- A record whose cells come in another order, one of them of no column. -/
def shuffledRow : Pb.RecordRow where
  recordType := "sale"
  rowIndex := 0
  recordIndex := 0
  byteOffset := 2
  byteLength := 6
  cells := [⟨"PRICE", 4, some (.integer 7)⟩, ⟨"COLOUR", 1, some (.text "red")⟩,
    ⟨"ITEM", 1, some (.text "A")⟩]

/-- Its table has one row, which agrees with it. -/
theorem take_tables_agree_shuffled :
    (foldEvents "0.1.0" 10 1000
      [.layoutInfo (sampleLayout.toLayoutInfo "cp037"), .record shuffledRow]).take.tables.length = 1 ∧
    ∀ table ∈ (foldEvents "0.1.0" 10 1000
        [.layoutInfo (sampleLayout.toLayoutInfo "cp037"), .record shuffledRow]).take.tables,
      ∃ data, table.data = some data ∧
        ∃ record ∈ sampleLayout.records, ∃ kept, kept <+: rowsNamed [shuffledRow] record.name ∧
          Agrees record.toSchema kept data ∧ (10 + 1 < 2 ^ 31 → data.numRows = data.grid.length) :=
  ⟨by decide, take_tables_agree resolve_sample "cp037" "0.1.0" 10 1000 []
    [.record shuffledRow] (fun _ mem => absurd mem List.not_mem_nil)⟩

end Sample

end GrpcEbcdic

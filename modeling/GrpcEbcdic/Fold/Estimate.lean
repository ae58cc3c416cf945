import GrpcEbcdic.Fold.MergeSafe
import GrpcEbcdic.Proto.Length

/-!
# The estimate and what is delivered

The fold charges an estimate for each row it keeps, and for the header of a table with the first of its
rows. What `take` delivers has more to it: the declarations of the columns, the links and attributions,
and the header of a table that keeps no row. The encoded length of the document is that of what is charged
for and that of the rest (`Blank.encodedLen`), and the estimate is the sum of the charges (`Charges`).
-/

namespace GrpcEbcdic
open Rust

section Lengths

variable [F64]

/-- The bytes of some rows of a table: their cells in the flat list and once more in the grid, and where
they lie in the input. -/
def rowsLen (grid : List Doc.TableRow) (rowProv : List Doc.ProvenanceItem) : Nat :=
  Wire.repeated 1 ((grid.flatMap (·.cells)).map (·.encodedLen)) +
    Wire.repeated 4 (grid.map (·.encodedLen)) +
    Wire.repeated 8 (rowProv.map (·.encodedLen))

lemma rowsLen_append (grid grid' : List Doc.TableRow) (rowProv rowProv' : List Doc.ProvenanceItem) :
    rowsLen (grid ++ grid') (rowProv ++ rowProv') = rowsLen grid rowProv + rowsLen grid' rowProv' := by
  unfold rowsLen
  rw [List.flatMap_append, List.map_append, List.map_append, List.map_append, Wire.repeated_append,
    Wire.repeated_append, Wire.repeated_append]
  omega

/-- The bytes of a table beside its rows: its own fields, its declarations, and the keys and lengths
before it and before its data. -/
def Doc.TableItem.declaredLen (table : Doc.TableItem) : Nat :=
  Wire.key 9 + Wire.varint table.encodedLen + { table with data := none }.encodedLen +
    Wire.optional (fun data => Wire.key 12 + Wire.varint data.encodedLen +
      { data with tableCells := [], grid := [], rowProv := [] }.encodedLen) table.data

/-- The data of a table takes the bytes of its rows and the others. -/
lemma Doc.TableData.encodedLen_eq {data : Doc.TableData}
    (cells : data.tableCells = data.grid.flatMap (·.cells)) :
    data.encodedLen = { data with tableCells := [], grid := [], rowProv := [] }.encodedLen
      + rowsLen data.grid data.rowProv := by
  unfold Doc.TableData.encodedLen rowsLen
  rw [cells]
  simp only [List.map_nil, Wire.repeated, List.sum_nil]
  omega

/-- A table takes the bytes of its data and the others. -/
lemma Doc.TableItem.encodedLen_eq {table : Doc.TableItem} {data : Doc.TableData}
    (holds : table.data = some data) :
    table.encodedLen = { table with data := none }.encodedLen + Wire.delimited 12 data.encodedLen := by
  unfold Doc.TableItem.encodedLen
  rw [holds]
  simp only [Wire.optional, Option.map_some, Option.map_none, Option.getD_some, Option.getD_none]
  omega

/-- A table in its document takes the bytes of its rows and the others. -/
lemma Doc.TableItem.delimited_eq (table : Doc.TableItem) {data : Doc.TableData}
    (holds : table.data = some data) (cells : data.tableCells = data.grid.flatMap (·.cells)) :
    Wire.delimited 9 table.encodedLen = table.declaredLen + rowsLen data.grid data.rowProv := by
  have content := Doc.TableData.encodedLen_eq cells
  have item := Doc.TableItem.encodedLen_eq holds
  unfold Doc.TableItem.declaredLen
  rw [holds]
  simp only [Wire.optional, Option.map_some, Option.getD_some]
  unfold Wire.delimited at item ⊢
  omega

/-- The column declarations are not among its rows. -/
lemma Doc.TableItem.columns_le (table : Doc.TableItem) {data : Doc.TableData}
    (holds : table.data = some data) :
    Wire.repeated 7 (data.columns.map (·.encodedLen)) ≤ table.declaredLen := by
  unfold Doc.TableItem.declaredLen
  rw [holds]
  simp only [Wire.optional, Option.map_some, Option.getD_some]
  have bare : Wire.repeated 7 (data.columns.map (·.encodedLen))
      ≤ { data with tableCells := [], grid := [], rowProv := [] }.encodedLen := by
    unfold Doc.TableData.encodedLen
    dsimp only
    omega
  omega

/-- The keys and lengths around a table and its data are twelve bytes each at most. -/
lemma Doc.TableItem.declaredLen_le {table : Doc.TableItem} {data : Doc.TableData}
    (holds : table.data = some data) (cells : data.tableCells = data.grid.flatMap (·.cells))
    {item bare : Nat} (item_le : { table with data := none }.encodedLen ≤ item)
    (bare_le : { data with tableCells := [], grid := [], rowProv := [] }.encodedLen ≤ bare)
    (rows : rowsLen data.grid data.rowProv ≤ u64Max) (fits : item + bare ≤ u64Max) :
    table.declaredLen ≤ item + bare + 24 := by
  unfold u64Max at rows fits
  have content := Doc.TableData.encodedLen_eq cells
  have around := Doc.TableItem.encodedLen_eq holds
  have inner : Wire.delimited 12 data.encodedLen ≤ data.encodedLen + 12 :=
    Wire.delimited_le (by decide) (by omega)
  have outer : Wire.delimited 9 table.encodedLen ≤ table.encodedLen + 12 :=
    Wire.delimited_le (by decide) (by omega)
  unfold Doc.TableItem.declaredLen
  rw [holds]
  simp only [Wire.optional, Option.map_some, Option.getD_some]
  unfold Wire.delimited at inner outer
  omega

/-- The bytes of a document are those of its tables and the others. -/
lemma encodedLen_extend {document : Doc.Document} (none : document.tables = []) (refs : List String)
    (texts : List (Option Doc.BaseTextItem)) (tables : List Doc.TableItem) :
    (DocumentFold.extend document refs texts tables).encodedLen
      = (DocumentFold.extend document refs texts []).encodedLen +
        Wire.repeated 9 (tables.map (·.encodedLen)) := by
  unfold Doc.Document.encodedLen DocumentFold.extend
  rw [none]
  simp only [List.nil_append, List.map_nil, Wire.repeated, List.sum_nil]
  omega

/-- What is charged for a row of these texts. -/
def Doc.TableRow.charge (row : Doc.TableRow) : Nat :=
  cellsCost (row.cells.map fun cell => cell.text.utf8ByteSize)

namespace TableState

/-- What is charged for the header row with the first row of its table. -/
def headerCharge (state : TableState) : Nat :=
  cellsCost (state.columns.map fun column => column.name.utf8ByteSize)

/-- The bytes of the header row, which lies nowhere in the input. -/
def headerLen (state : TableState) : Nat := rowsLen [⟨state.header⟩] [{}]

/-- What is charged for a table: its rows, and its header with the first of them. -/
def charge (state : TableState) : Nat :=
  (state.grid.map (·.charge)).sum + if state.rows = 0 then 0 else state.headerCharge

/-- The bytes of what a table is charged for. -/
def chargedLen (state : TableState) : Nat :=
  rowsLen state.grid state.rowProv + if state.rows = 0 then 0 else state.headerLen

/-- The bytes of the header of a table that keeps no row. -/
def freeHeaderLen (state : TableState) : Nat := if state.rows = 0 then state.headerLen else 0

/-- The rows of a table and its header are what it is charged for, or a header that is free. -/
lemma headerLen_add (state : TableState) :
    state.headerLen + rowsLen state.grid state.rowProv = state.freeHeaderLen + state.chargedLen := by
  unfold freeHeaderLen chargedLen
  split_ifs <;> omega

end TableState

namespace DocumentFold

/-- What is charged for all tables. -/
def charged (fold : DocumentFold) : Nat := (fold.tables.map (·.charge)).sum

/-- The bytes that nothing is charged for: the document without its tables, what each table has beside
its rows, and the headers of the tables that keep no row. -/
def uncharged (fold : DocumentFold) : Nat :=
  (extend fold.document (refsFrom 0 0 fold.outline) (fold.textsFrom 0 fold.outline) []).encodedLen +
    ((fold.tablesFrom 0 fold.outline).map (·.declaredLen)).sum +
    ((fold.tables.filter fun state => ¬ Unseen state).map (·.freeHeaderLen)).sum

/-- The bytes of the table of a state. -/
lemma delimited_tableAt (fold : DocumentFold) (index : Nat) (state : TableState) :
    Wire.delimited 9 (fold.tableAt index state).encodedLen
      = (fold.tableAt index state).declaredLen +
        (state.headerLen + rowsLen state.grid state.rowProv) := by
  refine ((fold.tableAt index state).delimited_eq rfl rfl).trans (congrArg _ ?_)
  exact rowsLen_append [⟨state.header⟩] state.grid [{}] state.rowProv

/-- The bytes of the tables of some states. -/
lemma repeated_tables {fold : DocumentFold} {states : List TableState} {tables : List Doc.TableItem}
    (written : List.Forall₂ (fun state table => ∃ index, table = fold.tableAt index state)
      states tables) :
    Wire.repeated 9 (tables.map (·.encodedLen))
      = (tables.map (·.declaredLen)).sum + (states.map (·.freeHeaderLen)).sum +
        (states.map (·.chargedLen)).sum := by
  induction written with
  | nil => rfl
  | @cons state table states tables is _ ih =>
    obtain ⟨index, rfl⟩ := is
    rw [List.map_cons, Wire.repeated_cons, ih, fold.delimited_tableAt, state.headerLen_add]
    simp only [List.map_cons, List.sum_cons]
    omega

/-- What `take` delivers is what is charged for, in its true length, and what is not. -/
lemma Blank.encodedLen {fold : DocumentFold} (blank : fold.Blank)
    (empty : ∀ state ∈ fold.tables, state.rows = 0 → state.grid = [] ∧ state.rowProv = []) :
    fold.take.encodedLen = fold.uncharged + (fold.tables.map (·.chargedLen)).sum := by
  have written := fold.tablesFrom_states 0 fold.outline
  rw [outline_states] at written
  -- A table without a row, kept or dropped, is not written, and nothing is charged for it.
  have unseen : ((fold.tables.filter fun state => ¬ Unseen state).map (·.chargedLen)).sum
      = (fold.tables.map (·.chargedLen)).sum := by
    generalize fold.tables = states at empty
    induction states with
    | nil => rfl
    | cons state states ih =>
      obtain ⟨first, empty⟩ := List.forall_mem_cons.mp empty
      by_cases none : Unseen state
      · obtain ⟨grid, rowProv⟩ := first none.1
        have free : state.chargedLen = 0 := by
          unfold TableState.chargedLen
          rw [grid, rowProv, if_pos none.1]
          rfl
        rw [List.filter_cons_of_neg (by simpa using none), ih empty, List.map_cons, List.sum_cons, free,
          Nat.zero_add]
      · rw [List.filter_cons_of_pos (by simpa using none), List.map_cons, List.sum_cons, ih empty,
          List.map_cons, List.sum_cons]
  rw [blank.take_eq, encodedLen_extend blank.tables, repeated_tables written, unseen]
  unfold uncharged
  omega

/-- A fold whose estimate is what it charges for its tables, as far as a `u64` can tell. -/
structure Charges (byteCap : Nat) (fold : DocumentFold) : Prop where
  cap : fold.byteCap = byteCap
  bytes : byteCap < u64Max → fold.bytes = fold.charged
  empty : ∀ state ∈ fold.tables, state.rows = 0 → state.grid = [] ∧ state.rowProv = []

variable {byteCap : Nat} {fold : DocumentFold}

lemma charges_new (version : String) (rowCap byteCap : Nat) :
    Charges byteCap (((new version).withRowCap rowCap).withByteCap byteCap) :=
  ⟨rfl, fun _ => rfl, nofun⟩

/-- A table without rows is charged nothing. -/
lemma Charges.addSchema (charges : Charges byteCap fold) (schema : Pb.RecordSchema) :
    Charges byteCap (fold.addSchema schema) where
  cap := charges.cap
  bytes room := by
    have charged : (fold.addSchema schema).charged = fold.charged := by
      simp [DocumentFold.charged, DocumentFold.addSchema, TableState.charge, TableState.new]
    rw [charged]
    exact charges.bytes room
  empty := by
    refine List.forall_mem_append.mpr ⟨charges.empty, List.forall_mem_singleton.mpr fun _ => ?_⟩
    exact ⟨rfl, rfl⟩

/-- Nor is the layout. -/
lemma Charges.begin (charges : Charges byteCap fold) (info : Pb.LayoutInfo) :
    Charges byteCap (fold.begin info) := by
  have schemas (schemas : List Pb.RecordSchema) {fold : DocumentFold} (charges : Charges byteCap fold) :
      Charges byteCap (schemas.foldl DocumentFold.addSchema fold) := by
    induction schemas generalizing fold with
    | nil => exact charges
    | cons schema schemas ih => exact ih (charges.addSchema schema)
  unfold DocumentFold.begin
  by_cases started : fold.started = true
  · rw [if_pos started]
    exact charges
  · rw [if_neg started]
    exact schemas info.records ⟨charges.cap, charges.bytes, charges.empty⟩

end DocumentFold

/-- A kept row is charged its cost. -/
lemma TableState.charge_keepRow (state : TableState) (row : Pb.RecordRow) :
    (state.keepRow row).charge = state.charge + state.cost row := by
  -- The cells of the grid hold the values in their order, each with its position.
  have texts : (state.gridRow row (state.rows + 1)).cells.map (fun cell => cell.text.utf8ByteSize)
      = (state.values row).map fun value => value.1.utf8ByteSize := by
    have values := List.zipIdx_map_fst 0 (state.values row)
    conv_rhs => rw [← values]
    simp only [TableState.gridRow, List.map_map]
    rfl
  have row : (state.gridRow row (state.rows + 1)).charge
      = cellsCost ((state.values row).map fun value => value.1.utf8ByteSize) := congrArg cellsCost texts
  unfold TableState.charge TableState.cost TableState.keepRow TableState.headerCharge
  dsimp only
  rw [List.map_append, List.sum_append, List.map_singleton, List.sum_singleton, row,
    if_neg (Nat.succ_ne_zero state.rows)]
  split_ifs <;> omega

namespace DocumentFold

variable {byteCap : Nat} {fold : DocumentFold}

/-- One more row: a dropped one is charged nothing, and a kept one its cost. -/
lemma Charges.row (charges : Charges byteCap fold) (row : Pb.RecordRow) :
    Charges byteCap (fold.row row) := by
  have dropped {i : Nat} {state : TableState} (at_i : fold.tables[i]? = some state) :
      fold.charged = ((fold.tables.set i (state.dropRow row)).map (·.charge)).sum := by
    have sums := Pairing.sum_map_set (f := fun state : TableState => state.charge) at_i
      (state.dropRow row)
    exact (Nat.add_right_cancel sums).symm
  have stays {i : Nat} {state : TableState}
      (empty : state.rows = 0 → state.grid = [] ∧ state.rowProv = []) :
      ∀ s ∈ fold.tables.set i state, s.rows = 0 → s.grid = [] ∧ s.rowProv = [] := by
    intro s mem
    rcases List.mem_or_eq_of_mem_set mem with mem | rfl
    · exact charges.empty s mem
    · exact empty
  have step := fold.rowStep row
  generalize fold.row row = fold' at step
  cases step with
  | unknown => exact charges
  | @closed i state _ at_i =>
    refine ⟨charges.cap, fun room => (charges.bytes room).trans (dropped at_i), ?_⟩
    exact stays (charges.empty state (List.mem_of_getElem? at_i))
  | @exceeds i state _ at_i =>
    refine ⟨charges.cap, fun room => (charges.bytes room).trans (dropped at_i), ?_⟩
    exact stays (charges.empty state (List.mem_of_getElem? at_i))
  | @keep i state _ at_i _ fits =>
    refine ⟨charges.cap, fun room => ?_, stays fun none => absurd none (Nat.succ_ne_zero state.rows)⟩
    have bytes := charges.bytes room
    have sums := Pairing.sum_map_set (f := fun state : TableState => state.charge) at_i
      (state.keepRow row)
    have cost := state.charge_keepRow row
    -- Below the cap of a `u64` the sum neither saturates nor wraps.
    change wrapAdd fold.bytes (state.cost row)
      = ((fold.tables.set i (state.keepRow row)).map (·.charge)).sum
    rw [charges.cap] at fits
    unfold satAdd at fits
    unfold wrapAdd
    unfold charged at bytes
    unfold u64Max at room fits
    rw [Nat.mod_eq_of_lt (by omega)]
    omega

/-- And so for every layout and all its rows. -/
lemma charges_foldEvents (version : String) (rowCap byteCap : Nat) (info : Pb.LayoutInfo)
    (rows : List Pb.RecordRow) :
    Charges byteCap (foldEvents version rowCap byteCap (openingEvents info rows)) := by
  have start : Charges byteCap (foldEvents version rowCap byteCap [.layoutInfo info]) :=
    (charges_new version rowCap byteCap).begin info
  rw [foldEvents_opening]
  generalize foldEvents version rowCap byteCap [.layoutInfo info] = fold at start
  induction rows generalizing fold with
  | nil => exact start
  | cons row rows ih => exact ih _ (start.row row)

end DocumentFold

end Lengths

end GrpcEbcdic

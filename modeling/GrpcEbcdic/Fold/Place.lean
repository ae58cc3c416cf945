import GrpcEbcdic.Fold.Table

/-!
# The rows of a table

The cells of a record are placed by name, so a grid row is as wide as the columns whatever cells the record
has, and what stands in a column is the record's cell of its name (`TableState.gridRow_shows`). What a cell
looks like goes by the kind of its value.
-/

namespace GrpcEbcdic
open Rust

section Columns

/-- The cell of a record for a column: the last one of its name. -/
def cellNamed (row : Pb.RecordRow) (name : String) : Option Pb.Cell :=
  row.cells.reverse.find? (·.name = name)

/-- The cell of a record that a column shows: that of its name, but in the last column of the name only. -/
def shownIn (columns : List Column) (row : Pb.RecordRow) (c : Nat) : Option Pb.Cell :=
  columns[c]?.bind fun column =>
    if (columns.drop (c + 1)).any (·.name = column.name) then none else cellNamed row column.name

/-- The text of a cell by the kind of its value; without a cell there is none. -/
inductive Shows : Option Pb.Cell → String → Prop where
  | text {cell : Pb.Cell} {text : String} : cell.value = some (.text text) → Shows (some cell) text
  | decimal {cell : Pb.Cell} {decimal : Pb.Decimal} :
    cell.value = some (.decimal decimal) → Shows (some cell) decimal.text
  | integer {cell : Pb.Cell} {integer : Int} :
    cell.value = some (.integer integer) → Shows (some cell) (toString integer)
  | blank {cell : Pb.Cell} : cell.value = none → Shows (some cell) ""
  | absent : Shows none ""

/-- A cell is rendered by the kind of its value. -/
lemma shows_cellText (cell : Option Pb.Cell) : Shows cell ((cell.map cellText).getD "") := by
  cases cell with
  | none => exact .absent
  | some cell =>
    rw [Option.map_some, Option.getD_some, cellText]
    split
    · next is => exact .text is
    · next is => exact .decimal is
    · next is => exact .integer is
    · next is => exact .blank is

/-- What a column shows is a cell of the record. -/
lemma shownIn_mem {columns : List Column} {row : Pb.RecordRow} {c : Nat} {cell : Pb.Cell}
    (shown : shownIn columns row c = some cell) : cell ∈ row.cells := by
  obtain ⟨column, _, shown⟩ := Option.bind_eq_some_iff.mp shown
  split_ifs at shown
  exact List.mem_reverse.mp (List.mem_of_find?_eq_some shown)

/-- Where the names are distinct each column shows the cell of its name. -/
lemma shownIn_eq {columns : List Column} (nodup : (columns.map (·.name)).Nodup) {c : Nat}
    {column : Column} (at_c : columns[c]? = some column) (row : Pb.RecordRow) :
    shownIn columns row c = cellNamed row column.name := by
  have alone : (columns.drop (c + 1)).any (·.name = column.name) = false := by
    rw [List.any_eq_false]
    intro later mem same
    obtain ⟨d, at_d⟩ := List.mem_iff_getElem?.mp mem
    rw [List.getElem?_drop] at at_d
    have lt : c < (columns.map (·.name)).length := by
      rw [List.length_map]
      exact (List.getElem?_eq_some_iff.mp at_c).1
    have eq : c = c + 1 + d := by
      refine (List.getElem?_inj lt nodup).mp ?_
      rw [List.getElem?_map, List.getElem?_map, at_c, at_d, Option.map_some, Option.map_some,
        of_decide_eq_true same]
    omega
  rw [shownIn, at_c, Option.bind_some, alone, if_neg Bool.false_ne_true]

/-- A grid row at an index that shows a record, cell by cell. -/
structure RowShows [F64] (columns : List Column) (row : Pb.RecordRow) (index : Nat)
    (written : Doc.TableRow) : Prop where
  width : written.cells.length = columns.length
  text : ∀ c cell, written.cells[c]? = some cell → Shows (shownIn columns row c) cell.text
  offsets : ∀ c cell, written.cells[c]? = some cell →
    cell.startRowOffsetIdx = clampI32 index ∧ cell.endRowOffsetIdx = clampI32 (index + 1) ∧
      cell.startColOffsetIdx = clampI32 c ∧ cell.endColOffsetIdx = clampI32 (c + 1)

end Columns

section Place

variable [F64]

/-- The column index finds the last column of a name. -/
lemma lookup_columnIndex {schema : Pb.RecordSchema} {name : String} {index : Nat} :
    (TableState.new schema).columnIndex.lookup name = some index ↔
      ∃ column, (columns schema)[index]? = some column ∧ column.name = name ∧
        ∀ later ∈ (columns schema).drop (index + 1), later.name ≠ name :=
  AssocList.lookup_collect_zipIdx

/-- Place one cell in the column the index has for its name. -/
def place (index : List (String × Nat)) (values : List (String × Option Doc.CellValue))
    (cell : Pb.Cell) : List (String × Option Doc.CellValue) :=
  match index.lookup cell.name with
  | some column => values.set column (cellText cell, cellValue cell)
  | none => values

lemma place_length (index : List (String × Nat)) (values : List (String × Option Doc.CellValue))
    (cells : List Pb.Cell) : (cells.foldl (place index) values).length = values.length := by
  induction cells generalizing values with
  | nil => rfl
  | cons cell cells ih =>
    rw [List.foldl_cons, ih, place]
    split
    · exact List.length_set
    · rfl

/-- What is placed in a column is the last cell of its name. -/
lemma place_at (index : List (String × Nat)) (values : List (String × Option Doc.CellValue))
    (cells : List Pb.Cell) {c : Nat} (lt : c < values.length) :
    (cells.foldl (place index) values)[c]?
      = match cells.reverse.find? (fun cell => index.lookup cell.name = some c) with
        | some cell => some (cellText cell, cellValue cell)
        | none => values[c]? := by
  induction cells generalizing values with
  | nil => rfl
  | cons cell cells ih =>
    have lt' : c < (place index values cell).length := by
      rwa [show (place index values cell).length = values.length from place_length index values [cell]]
    rw [List.foldl_cons, List.reverse_cons, List.find?_append, ih _ lt']
    -- A later cell of the name stands over this one.
    cases cells.reverse.find? fun cell => index.lookup cell.name = some c with
    | some _ => rfl
    | none =>
      rw [place]
      cases look : index.lookup cell.name with
      | none => simp [look]
      | some column =>
        by_cases here : column = c
        · subst here
          simp [look, lt]
        · simp [look, here]

omit [F64] in
lemma satSuccI32_clampI32 (n : Nat) : satSuccI32 (clampI32 n) = clampI32 (n + 1) := by
  unfold satSuccI32 clampI32
  omega

/-- A cell lies where it is written. -/
lemma tableCell_offsets (text : String) (value : Option Doc.CellValue) (r c : Nat) (header : Bool) :
    (tableCell text value r c header).startRowOffsetIdx = clampI32 r ∧
      (tableCell text value r c header).endRowOffsetIdx = clampI32 (r + 1) ∧
      (tableCell text value r c header).startColOffsetIdx = clampI32 c ∧
      (tableCell text value r c header).endColOffsetIdx = clampI32 (c + 1) :=
  ⟨rfl, satSuccI32_clampI32 r, rfl, satSuccI32_clampI32 c⟩

namespace TableState

variable {schema : Pb.RecordSchema} {row : Pb.RecordRow}

lemma values_eq (state : TableState) (row : Pb.RecordRow) :
    state.values row
      = row.cells.foldl (place state.columnIndex) (List.replicate state.columns.length ("", none)) := rfl

/-- A row has a value for each column. -/
lemma values_length (state : TableState) (row : Pb.RecordRow) :
    (state.values row).length = state.columns.length := by
  rw [values_eq, place_length, List.length_replicate]

/-- The value of a column is that of the cell it shows, and empty without one. -/
lemma values_at {c : Nat} (lt : c < (GrpcEbcdic.columns schema).length) :
    ((new schema).values row)[c]?
      = some (((shownIn (GrpcEbcdic.columns schema) row c).map fun cell =>
          (cellText cell, cellValue cell)).getD ("", none)) := by
  have at_c := List.getElem?_eq_getElem lt
  have width : c < (List.replicate (new schema).columns.length
      (("", none) : String × Option Doc.CellValue)).length := by
    rwa [List.length_replicate]
  have empty : (List.replicate (new schema).columns.length
      (("", none) : String × Option Doc.CellValue))[c]? = some ("", none) := by
    rw [List.getElem?_replicate]
    exact if_pos lt
  rw [values_eq, place_at _ _ _ width, empty, shownIn, at_c, Option.bind_some]
  cases later : ((GrpcEbcdic.columns schema).drop (c + 1)).any
      (·.name = (GrpcEbcdic.columns schema)[c].name) with
  | true =>
    -- A later column has the name, so no cell is placed in this one.
    have none : row.cells.reverse.find?
        (fun cell => (new schema).columnIndex.lookup cell.name = some c) = none := by
      refine List.find?_eq_none.mpr fun cell _ here => ?_
      obtain ⟨column, at_c', same, last⟩ := lookup_columnIndex.mp (of_decide_eq_true here)
      cases at_c.symm.trans at_c'
      obtain ⟨other, mem, name⟩ := List.any_eq_true.mp later
      exact last other mem ((of_decide_eq_true name).trans same)
    rw [none, if_pos rfl]
    rfl
  | false =>
    have same : ∀ cell : Pb.Cell, (new schema).columnIndex.lookup cell.name = some c ↔
        cell.name = (GrpcEbcdic.columns schema)[c].name := by
      intro cell
      rw [lookup_columnIndex]
      constructor
      · rintro ⟨other, at_other, name, _⟩
        rw [at_c, Option.some.injEq] at at_other
        rw [at_other, name]
      · intro name
        refine ⟨_, at_c, name.symm, fun other mem eq => ?_⟩
        exact List.any_eq_false.mp later other mem (decide_eq_true (eq.trans name))
    simp only [same]
    rw [← cellNamed, if_neg Bool.false_ne_true]
    cases cellNamed row (GrpcEbcdic.columns schema)[c].name <;> rfl

/-- What stands in a grid row at a column is the cell it shows, and an empty text without one. -/
lemma gridRow_at {c index : Nat} {cell : Doc.TableCell}
    (at_cell : ((new schema).gridRow row index).cells[c]? = some cell) :
    c < (GrpcEbcdic.columns schema).length ∧
      cell = tableCell (((shownIn (GrpcEbcdic.columns schema) row c).map cellText).getD "")
        ((shownIn (GrpcEbcdic.columns schema) row c).bind cellValue) index c false := by
  rw [gridRow, List.getElem?_map, List.getElem?_zipIdx, Option.map_map] at at_cell
  obtain ⟨value, at_value, rfl⟩ := Option.map_eq_some_iff.mp at_cell
  obtain ⟨lt, _⟩ := List.getElem?_eq_some_iff.mp at_value
  rw [values_length] at lt
  rw [values_at lt, Option.some.injEq] at at_value
  refine ⟨lt, ?_⟩
  rw [Function.comp_apply, Nat.zero_add, ← at_value]
  cases shownIn (GrpcEbcdic.columns schema) row c <;> rfl

/-- A grid row shows its record. -/
lemma gridRow_shows (schema : Pb.RecordSchema) (row : Pb.RecordRow) (index : Nat) :
    RowShows (GrpcEbcdic.columns schema) row index ((new schema).gridRow row index) := by
  refine ⟨?_, fun c cell at_cell => ?_, fun c cell at_cell => ?_⟩
  · rw [gridRow, List.length_map, List.length_zipIdx, values_length]
    rfl
  · rw [(gridRow_at at_cell).2]
    exact shows_cellText _
  · rw [(gridRow_at at_cell).2]
    exact tableCell_offsets _ _ _ _ _

end TableState

end Place

end GrpcEbcdic

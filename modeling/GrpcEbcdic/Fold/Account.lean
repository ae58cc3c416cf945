import GrpcEbcdic.Fold.Fold
import GrpcEbcdic.Fold.Place
import GrpcEbcdic.Stream.Tiling
import GrpcEbcdic.Support.Pairing

/-!
# What the fold keeps and what it counts

Over any sequence of rows the fold keeps, of each schema, the first ones, and counts the others: a
table is a prefix of its schema's rows, with their extents, and a table that has stopped growing never
grows again. One cap is on the rows of a table, the other on the bytes of all tables, and it closes
them all.
-/

namespace GrpcEbcdic
open Rust

/-- The rows of a schema among some rows. -/
def rowsNamed (rows : List Pb.RecordRow) (name : String) : List Pb.RecordRow :=
  rows.filter fun row => row.recordType = name

lemma rowsNamed_length (rows : List Pb.RecordRow) (name : String) :
    (rowsNamed rows name).length = rowsOf rows name := List.countP_eq_length_filter.symm

lemma rowsNamed_append_same {rows : List Pb.RecordRow} {row : Pb.RecordRow} {name : String}
    (same : row.recordType = name) : rowsNamed (rows ++ [row]) name = rowsNamed rows name ++ [row] := by
  simp [rowsNamed, same]

lemma rowsNamed_append_other {rows : List Pb.RecordRow} {row : Pb.RecordRow} {name : String}
    (other : row.recordType ≠ name) : rowsNamed (rows ++ [row]) name = rowsNamed rows name := by
  simp [rowsNamed, other]

variable [F64]

/-- A table that declares a schema. -/
structure TableState.Declared (schema : Pb.RecordSchema) (state : TableState) : Prop where
  name : state.name = schema.name
  columns : state.columns = GrpcEbcdic.columns schema
  columnIndex : state.columnIndex = (TableState.new schema).columnIndex
  recordLength : state.recordLength = schema.recordLength
  selector : state.selector = schema.selector

/-- How a row is rendered is a matter of the schema. -/
lemma TableState.Declared.gridRow {schema : Pb.RecordSchema} {state : TableState}
    (decl : state.Declared schema) (row : Pb.RecordRow) (index : Nat) :
    state.gridRow row index = (TableState.new schema).gridRow row index := by
  unfold TableState.gridRow TableState.values
  rw [decl.columns, decl.columnIndex]
  rfl

/-- A table that holds the first rows of its schema, and counts the others. -/
structure Account (rowCap : Nat) (rows : List Pb.RecordRow) (schema : Pb.RecordSchema)
    (state : TableState) : Prop where
  declared : state.Declared schema
  counted : state.rows + state.dropped = rowsOf rows schema.name
  within : state.rows ≤ rowCap
  grid : state.grid = (((rowsNamed rows schema.name).take state.rows).zipIdx 1).map fun (row, index) =>
    (TableState.new schema).gridRow row index
  rowProv : state.rowProv = ((rowsNamed rows schema.name).take state.rows).map rowExtent
  /-- The first dropped row is the one behind the kept rows. -/
  first : 0 < state.dropped →
    ∃ row, (rowsNamed rows schema.name)[state.rows]? = some row ∧
      state.firstDroppedOffset = row.byteOffset

namespace Account

variable {rowCap : Nat} {rows : List Pb.RecordRow} {row : Pb.RecordRow} {schema : Pb.RecordSchema}
  {state : TableState}

lemma start (rowCap : Nat) (schema : Pb.RecordSchema) :
    Account rowCap [] schema (TableState.new schema) where
  declared := ⟨rfl, rfl, rfl, rfl, rfl⟩
  counted := rfl
  within := Nat.zero_le _
  grid := rfl
  rowProv := rfl
  first pos := absurd pos (Nat.lt_irrefl 0)

/-- A row of another schema is nothing to a table. -/
lemma other (acc : Account rowCap rows schema state) (ne : row.recordType ≠ schema.name) :
    Account rowCap (rows ++ [row]) schema state := by
  have eq : rowsNamed (rows ++ [row]) schema.name = rowsNamed rows schema.name :=
    rowsNamed_append_other ne
  refine ⟨acc.declared, ?_, acc.within, ?_, ?_, ?_⟩
  · rw [← rowsNamed_length, eq, rowsNamed_length, acc.counted]
  · rw [eq, acc.grid]
  · rw [eq, acc.rowProv]
  · rw [eq]
    exact acc.first

/-- A row that is dropped is counted, and the kept rows stay as they are. -/
lemma drop (acc : Account rowCap rows schema state) (same : row.recordType = schema.name) :
    Account rowCap (rows ++ [row]) schema (state.dropRow row) := by
  have eq : rowsNamed (rows ++ [row]) schema.name = rowsNamed rows schema.name ++ [row] :=
    rowsNamed_append_same same
  have le : state.rows ≤ (rowsNamed rows schema.name).length := by
    rw [rowsNamed_length, ← acc.counted]
    omega
  have counted : state.rows + (state.dropped + 1) = rowsOf (rows ++ [row]) schema.name := by
    rw [← rowsNamed_length, eq, List.length_append, rowsNamed_length, ← acc.counted]
    rfl
  refine ⟨⟨acc.declared.name, acc.declared.columns, acc.declared.columnIndex,
    acc.declared.recordLength, acc.declared.selector⟩, counted, acc.within, ?_, ?_, fun _ => ?_⟩
  · rw [eq, TableState.dropRow, List.take_append_of_le_length le]
    exact acc.grid
  · rw [eq, TableState.dropRow, List.take_append_of_le_length le]
    exact acc.rowProv
  · rw [eq, TableState.dropRow]
    by_cases zero : state.dropped = 0
    · refine ⟨row, ?_, if_pos zero⟩
      have all := acc.counted
      rw [zero, Nat.add_zero, ← rowsNamed_length] at all
      rw [List.getElem?_append_right all.ge, all, Nat.sub_self]
      rfl
    · obtain ⟨first, at_first, offset⟩ := acc.first (Nat.pos_of_ne_zero zero)
      refine ⟨first, ?_, ?_⟩
      · obtain ⟨lt, _⟩ := List.getElem?_eq_some_iff.mp at_first
        rw [List.getElem?_append_left lt, at_first]
      · rw [if_neg zero, offset]

/-- A row that is kept extends the kept rows, if none has been dropped. -/
lemma keep (acc : Account rowCap rows schema state) (same : row.recordType = schema.name)
    (none : state.dropped = 0) (lt : state.rows < rowCap) :
    Account rowCap (rows ++ [row]) schema (state.keepRow row) := by
  have eq : rowsNamed (rows ++ [row]) schema.name = rowsNamed rows schema.name ++ [row] :=
    rowsNamed_append_same same
  have all : state.rows = (rowsNamed rows schema.name).length := by
    rw [rowsNamed_length, ← acc.counted, none, Nat.add_zero]
  have before : (rowsNamed rows schema.name).take state.rows = rowsNamed rows schema.name := by
    rw [all, List.take_length]
  have after : (rowsNamed rows schema.name ++ [row]).take (state.rows + 1)
      = rowsNamed rows schema.name ++ [row] := by
    rw [List.take_of_length_le]
    rw [List.length_append, ← all]
    rfl
  refine ⟨⟨acc.declared.name, acc.declared.columns, acc.declared.columnIndex,
    acc.declared.recordLength, acc.declared.selector⟩, ?_, lt, ?_, ?_, fun pos => ?_⟩
  · change state.rows + 1 + state.dropped = _
    rw [← rowsNamed_length, eq, List.length_append, ← all, none]
    rfl
  · change state.grid ++ [state.gridRow row (state.rows + 1)] = _
    rw [eq, TableState.keepRow, after, acc.grid, before, List.zipIdx_append, List.map_append,
      acc.declared.gridRow, ← all, Nat.add_comm]
    rfl
  · change state.rowProv ++ [rowExtent row] = _
    rw [eq, TableState.keepRow, after, acc.rowProv, before, List.map_append]
    rfl
  · change 0 < state.dropped at pos
    omega

end Account

/-- A table as the rows so far have it: it shows the first ones of its schema in their order, each with where
it lies in the input, and counts the others. -/
structure Tallied (rowCap : Nat) (rows : List Pb.RecordRow) (schema : Pb.RecordSchema)
    (state : TableState) : Prop where
  name : state.name = schema.name
  counted : state.rows + state.dropped = rowsOf rows schema.name
  within : state.rows ≤ rowCap
  height : state.grid.length = state.rows
  grid : ∀ r row, ((rowsNamed rows schema.name).take state.rows)[r]? = some row →
    ∃ written, state.grid[r]? = some written ∧ RowShows (columns schema) row (r + 1) written
  rowProv : state.rowProv = ((rowsNamed rows schema.name).take state.rows).map fun row =>
    { byteRange := some {
        start := row.byteOffset
        stop := min (row.byteOffset + row.byteLength) u64Max } }
  /-- The first dropped row is the one behind the kept rows. -/
  first : 0 < state.dropped →
    ∃ row, (rowsNamed rows schema.name)[state.rows]? = some row ∧
      state.firstDroppedOffset = row.byteOffset

/-- An account holds the rows it is of. -/
lemma Account.kept_length {rowCap : Nat} {rows : List Pb.RecordRow} {schema : Pb.RecordSchema}
    {state : TableState} (acc : Account rowCap rows schema state) :
    ((rowsNamed rows schema.name).take state.rows).length = state.rows := by
  rw [List.length_take, rowsNamed_length, ← acc.counted]
  omega

lemma Account.tallied {rowCap : Nat} {rows : List Pb.RecordRow} {schema : Pb.RecordSchema}
    {state : TableState} (acc : Account rowCap rows schema state) :
    Tallied rowCap rows schema state where
  name := acc.declared.name
  counted := acc.counted
  within := acc.within
  height := by rw [acc.grid, List.length_map, List.length_zipIdx, acc.kept_length]
  grid := by
    intro r row at_r
    refine ⟨_, ?_, TableState.gridRow_shows schema row (r + 1)⟩
    rw [acc.grid, List.getElem?_map, List.getElem?_zipIdx, at_r, Option.map_some, Option.map_some,
      Nat.add_comm 1]
  rowProv := acc.rowProv
  first := acc.first

namespace DocumentFold

/-- Whether a table takes no more rows. -/
def Closed (fold : DocumentFold) (state : TableState) : Prop :=
  fold.rowCap ≤ state.rows ∨ fold.budgetSpent = true

instance (fold : DocumentFold) (state : TableState) : Decidable (fold.Closed state) :=
  inferInstanceAs (Decidable (_ ∨ _))

/-- What one row can do to the fold. -/
inductive RowStep (fold : DocumentFold) (row : Pb.RecordRow) : DocumentFold → Prop where
  | unknown :
    (∀ i ∈ fold.indexBySchema.lookup row.recordType, fold.tables[i]? = none) →
    RowStep fold row fold
  | closed {i state} :
    fold.indexBySchema.lookup row.recordType = some i →
    fold.tables[i]? = some state →
    fold.Closed state →
    RowStep fold row { fold with tables := fold.tables.set i (state.dropRow row) }
  | exceeds {i state} :
    fold.indexBySchema.lookup row.recordType = some i →
    fold.tables[i]? = some state →
    ¬ fold.Closed state →
    fold.byteCap < satAdd fold.bytes (state.cost row) →
    RowStep fold row
      { fold with budgetSpent := true, tables := fold.tables.set i (state.dropRow row) }
  | keep {i state} :
    fold.indexBySchema.lookup row.recordType = some i →
    fold.tables[i]? = some state →
    ¬ fold.Closed state →
    satAdd fold.bytes (state.cost row) ≤ fold.byteCap →
    RowStep fold row
      { fold with
        bytes := wrapAdd fold.bytes (state.cost row)
        tables := fold.tables.set i (state.keepRow row) }

lemma rowStep (fold : DocumentFold) (row : Pb.RecordRow) : fold.RowStep row (fold.row row) := by
  unfold DocumentFold.row
  cases look : fold.indexBySchema.lookup row.recordType with
  | none => exact .unknown (by simp [look])
  | some i =>
    dsimp only
    cases at_i : fold.tables[i]? with
    | none =>
      refine .unknown fun j mem => ?_
      cases look.symm.trans mem
      exact at_i
    | some state =>
      dsimp only
      split_ifs with closed exceeds
      · exact .closed look at_i closed
      · exact .exceeds look at_i closed exceeds
      · exact .keep look at_i closed (Nat.not_lt.mp exceeds)

/-- Fold some rows, one after the other. -/
def foldRows (fold : DocumentFold) (rows : List Pb.RecordRow) : DocumentFold :=
  rows.foldl DocumentFold.row fold

lemma foldRows_append (fold : DocumentFold) (rows rows' : List Pb.RecordRow) :
    fold.foldRows (rows ++ rows') = (fold.foldRows rows).foldRows rows' := List.foldl_append

/-- A row leaves the caps, and the budget once it is spent. -/
lemma row_caps (fold : DocumentFold) (row : Pb.RecordRow) :
    (fold.row row).rowCap = fold.rowCap ∧ (fold.row row).byteCap = fold.byteCap ∧
      (fold.budgetSpent = true → (fold.row row).budgetSpent = true) := by
  have step := fold.rowStep row
  generalize fold.row row = fold' at step
  cases step with
  | unknown => exact ⟨rfl, rfl, id⟩
  | closed => exact ⟨rfl, rfl, id⟩
  | exceeds => exact ⟨rfl, rfl, fun _ => rfl⟩
  | keep => exact ⟨rfl, rfl, id⟩

/-- What one row can do to one table: nothing, or it is dropped and the table closed, or the table was
open and it is kept. -/
lemma row_table {fold : DocumentFold} {i : Nat} {state : TableState}
    (at_i : fold.tables[i]? = some state) (row : Pb.RecordRow) :
    ∃ state', (fold.row row).tables[i]? = some state' ∧
      (state' = state ∨
        state' = state.dropRow row ∧ (fold.row row).Closed state' ∨
        state' = state.keepRow row ∧ ¬ fold.Closed state) := by
  have set_at (j : Nat) (other new : TableState) (at_j : fold.tables[j]? = some other) :
      (fold.tables.set j new)[i]? = some (if j = i then new else state) ∧ (j = i → other = state) := by
    by_cases same : j = i
    · subst same
      obtain ⟨lt, _⟩ := List.getElem?_eq_some_iff.mp at_j
      rw [if_pos rfl, List.getElem?_set_self lt]
      exact ⟨rfl, fun _ => Option.some.inj (at_j.symm.trans at_i)⟩
    · rw [if_neg same, List.getElem?_set_ne same]
      exact ⟨at_i, fun eq => absurd eq same⟩
  -- A row touches the one table it names, and this may be another.
  have step := fold.rowStep row
  generalize fold.row row = fold' at step
  cases step with
  | unknown => exact ⟨state, at_i, .inl rfl⟩
  | @closed j other _ at_j closed =>
    obtain ⟨new_at, eq⟩ := set_at j other (other.dropRow row) at_j
    refine ⟨_, new_at, ?_⟩
    split_ifs with same
    · obtain rfl := eq same
      exact .inr (.inl ⟨rfl, closed⟩)
    · exact .inl rfl
  | @exceeds j other _ at_j =>
    obtain ⟨new_at, eq⟩ := set_at j other (other.dropRow row) at_j
    refine ⟨_, new_at, ?_⟩
    split_ifs with same
    · obtain rfl := eq same
      exact .inr (.inl ⟨rfl, .inr rfl⟩)
    · exact .inl rfl
  | @keep j other _ at_j not_closed =>
    obtain ⟨new_at, eq⟩ := set_at j other (other.keepRow row) at_j
    refine ⟨_, new_at, ?_⟩
    split_ifs with same
    · obtain rfl := eq same
      exact .inr (.inr ⟨rfl, not_closed⟩)
    · exact .inl rfl

/-- A closed table has the rows it has, and stays closed. -/
lemma closed_row {fold : DocumentFold} {i : Nat} {state : TableState}
    (at_i : fold.tables[i]? = some state) (closed : fold.Closed state) (row : Pb.RecordRow) :
    ∃ state', (fold.row row).tables[i]? = some state' ∧ state'.rows = state.rows ∧
      (fold.row row).Closed state' := by
  obtain ⟨rowCap, _, spent⟩ := fold.row_caps row
  obtain ⟨_, at_i', rfl | ⟨rfl, closed'⟩ | ⟨_, not_closed⟩⟩ := row_table at_i row
  · exact ⟨_, at_i', rfl, closed.imp (rowCap ▸ ·) spent⟩
  · exact ⟨_, at_i', rfl, closed'⟩
  · exact absurd closed not_closed

/-- A closed table has the rows it has, whatever comes. -/
lemma closed_foldRows {fold : DocumentFold} {i : Nat} {state : TableState}
    (at_i : fold.tables[i]? = some state) (closed : fold.Closed state) (rows : List Pb.RecordRow) :
    ∃ state', (fold.foldRows rows).tables[i]? = some state' ∧ state'.rows = state.rows := by
  induction rows generalizing fold state with
  | nil => exact ⟨state, at_i, rfl⟩
  | cons row rows ih =>
    obtain ⟨state₁, at_i₁, eq₁, closed₁⟩ := closed_row at_i closed row
    obtain ⟨state', at_i', eq'⟩ := ih at_i₁ closed₁
    exact ⟨state', at_i', eq'.trans eq₁⟩

/-- The number of tables never changes. -/
lemma foldRows_length (fold : DocumentFold) (rows : List Pb.RecordRow) :
    (fold.foldRows rows).tables.length = fold.tables.length := by
  induction rows generalizing fold with
  | nil => rfl
  | cons row rows ih =>
    apply (ih (fold.row row)).trans
    have step := fold.rowStep row
    generalize fold.row row = fold' at step
    cases step with
    | unknown => rfl
    | closed => exact List.length_set
    | exceeds => exact List.length_set
    | keep => exact List.length_set

/-- Once the byte budget is spent, every table has the rows it has. -/
lemma spent_foldRows {fold : DocumentFold} (spent : fold.budgetSpent = true)
    (rows : List Pb.RecordRow) :
    (fold.foldRows rows).tables.map (·.rows) = fold.tables.map (·.rows) := by
  refine List.ext_getElem? fun i => ?_
  rw [List.getElem?_map, List.getElem?_map]
  cases at_i : fold.tables[i]? with
  | none =>
    rw [List.getElem?_eq_none_iff] at at_i
    rw [List.getElem?_eq_none_iff.mpr (by rwa [foldRows_length])]
  | some state =>
    obtain ⟨state', at_i', eq⟩ := closed_foldRows at_i (.inr spent) rows
    rw [at_i', Option.map_some, Option.map_some, eq]

/-- A row dropped below the row cap is dropped for the byte budget, which is spent from there on. -/
lemma dropped_spent {fold : DocumentFold} {row : Pb.RecordRow} {i : Nat} {state state' : TableState}
    (at_i : fold.tables[i]? = some state) (at_i' : (fold.row row).tables[i]? = some state')
    (dropped : state.dropped < state'.dropped) (below : state.rows < fold.rowCap) :
    (fold.row row).budgetSpent = true := by
  obtain ⟨rowCap, _⟩ := fold.row_caps row
  obtain ⟨_, at_new, new⟩ := row_table at_i row
  cases at_i'.symm.trans at_new
  rcases new with rfl | ⟨rfl, closed⟩ | ⟨rfl, _⟩
  · exact absurd dropped (Nat.lt_irrefl _)
  · exact closed.resolve_left (by rw [rowCap]; exact Nat.not_le.mpr below)
  · exact absurd dropped (Nat.lt_irrefl _)

end DocumentFold

end GrpcEbcdic

import GrpcEbcdic.Fold.Estimate

/-!
# Rows that are charged what they take

A cell is charged its text and thirty-two bytes, once for the flat list and once for the grid, and a row
thirty-two bytes more. For most rows this is enough: a cell takes more only when its text is very long, or
when it is a number far down in a wide table, where its offsets need more bytes than the charge has for
them (`Plain.covered`).
-/

namespace GrpcEbcdic
open Rust

/-- An offset has no longer varint than what it stands for. -/
lemma varint_clampI32 {n k : Nat} (pos : 0 < k) (lt : n < 2 ^ (7 * k)) :
    Wire.varint (clampI32 n) ≤ k :=
  (Wire.varint_le_iff pos).mpr ((Nat.min_le_left _ _).trans_lt lt)

/-- A cell takes no more than its charge where the keys and numbers beside its text are short. -/
lemma delimited_one_le {content size k : Nat} (pos : 0 < k) (le : content + k ≤ size + 31)
    (short : size + 31 < 2 ^ (7 * k) + k) : Wire.delimited 1 content ≤ size + cellOverheadBytes := by
  have length : Wire.varint content ≤ k := (Wire.varint_le_iff pos).mpr (by omega)
  have key : Wire.key 1 = 1 := by decide
  unfold Wire.delimited cellOverheadBytes
  omega

/-- Where a record lies takes at most twenty-four bytes. -/
lemma extent_encodedLen_le {start stop : Nat} (start_le : start ≤ u64Max) (stop_le : stop ≤ u64Max) :
    (Doc.ProvenanceItem.mk (some ⟨start, stop⟩)).encodedLen ≤ 24 := by
  have varint {n : Nat} (le : n ≤ u64Max) : Wire.varint n ≤ 10 := by
    refine (Wire.varint_le_iff (by decide)).mpr ?_
    unfold u64Max at le
    omega
  have first := varint start_le
  have last := varint stop_le
  have keys : Wire.key 1 = 1 ∧ Wire.key 2 = 1 ∧ Wire.key 5 = 1 := by decide
  have span : (Doc.ByteSpan.mk start stop).encodedLen ≤ 22 := by
    unfold Doc.ByteSpan.encodedLen Wire.uint
    dsimp only
    split_ifs <;> omega
  have length : Wire.varint (Doc.ByteSpan.mk start stop).encodedLen ≤ 1 :=
    (Wire.varint_le_iff (by decide)).mpr (by omega)
  unfold Doc.ProvenanceItem.encodedLen
  simp only [Wire.optional, Option.map_some, Option.getD_some]
  unfold Wire.delimited
  omega

variable [F64]

/-- A row and where it lies take no more bytes than the row is charged. -/
structure Doc.TableRow.Covered (row : Doc.TableRow) (extent : Doc.ProvenanceItem) : Prop where
  cells : ∀ cell ∈ row.cells,
    Wire.delimited 1 cell.encodedLen ≤ cell.text.utf8ByteSize + cellOverheadBytes
  around : Wire.key 4 + Wire.varint row.encodedLen + Wire.delimited 8 extent.encodedLen
    ≤ rowOverheadBytes

lemma Doc.TableRow.Covered.rowsLen_le {row : Doc.TableRow} {extent : Doc.ProvenanceItem}
    (covered : row.Covered extent) : rowsLen [row] [extent] ≤ row.charge := by
  have cells : Wire.repeated 1 (row.cells.map (·.encodedLen))
      ≤ (row.cells.map fun cell => cell.text.utf8ByteSize + cellOverheadBytes).sum := by
    unfold Wire.repeated
    rw [List.map_map]
    exact List.sum_le_sum covered.cells
  have twice : (row.cells.map fun cell => 2 * (cell.text.utf8ByteSize + cellOverheadBytes)).sum
      = 2 * (row.cells.map fun cell => cell.text.utf8ByteSize + cellOverheadBytes).sum :=
    List.sum_map_mul_left _ _ _
  have around := covered.around
  have content : row.encodedLen = Wire.repeated 1 (row.cells.map (·.encodedLen)) := rfl
  unfold rowsLen Doc.TableRow.charge cellsCost
  rw [List.map_map, List.flatMap_singleton]
  change _ ≤ (row.cells.map fun cell => 2 * (cell.text.utf8ByteSize + cellOverheadBytes)).sum + _
  rw [twice]
  simp only [List.map_singleton, Wire.repeated_singleton]
  unfold Wire.delimited at around ⊢
  omega

namespace TableState

/-- The rows of a table take no more bytes than they are charged, nor does its header. -/
structure Covered (state : TableState) : Prop where
  rows : List.Forall₂ Doc.TableRow.Covered state.grid state.rowProv
  header : Doc.TableRow.Covered ⟨state.header⟩ {}

lemma header_charge (state : TableState) :
    (Doc.TableRow.mk state.header).charge = state.headerCharge := by
  unfold Doc.TableRow.charge headerCharge header
  congr 1
  conv_rhs => rw [← List.zipIdx_map_fst 0 state.columns]
  rw [List.map_map, List.map_map]
  rfl

namespace Covered

variable {state : TableState}

lemma headerLen_le (covered : state.Covered) : state.headerLen ≤ state.headerCharge :=
  covered.header.rowsLen_le.trans_eq state.header_charge

/-- A table that is covered takes no more for its rows than it is charged. -/
lemma chargedLen_le (covered : state.Covered) : state.chargedLen ≤ state.charge := by
  have rows : rowsLen state.grid state.rowProv ≤ (state.grid.map (·.charge)).sum := by
    have rows := covered.rows
    generalize state.grid = grid, state.rowProv = rowProv at rows
    induction rows with
    | nil => exact Nat.le_refl 0
    | @cons row extent grid rowProv first _ ih =>
      have head := first.rowsLen_le
      have both : rowsLen (row :: grid) (extent :: rowProv)
          = rowsLen [row] [extent] + rowsLen grid rowProv :=
        rowsLen_append [row] grid [extent] rowProv
      rw [both, List.map_cons, List.sum_cons]
      omega
  have header := covered.headerLen_le
  unfold chargedLen charge
  split_ifs <;> omega

end Covered

end TableState

/-! ## Cells -/

/-- A cell takes its text, its value, its offsets and at most ten bytes of keys and spans. -/
lemma tableCell_encodedLen_le (text : String) (value : Option Doc.CellValue) (r c : Nat) (header : Bool) :
    (tableCell text value r c header).encodedLen
      ≤ 8 + (Wire.varint (clampI32 r) + Wire.varint (clampI32 (r + 1)) + Wire.varint (clampI32 c) +
        Wire.varint (clampI32 (c + 1))) + (1 + Wire.varint text.utf8ByteSize + text.utf8ByteSize) +
        (if header then 2 else 0) + (if value.isSome then 11 else 0) := by
  have uint (field n : Nat) (one : Wire.key field = 1) :
      Wire.uint field n ≤ 1 + Wire.varint n := by
    unfold Wire.uint
    split_ifs <;> omega
  have startRow := uint 4 (clampI32 r) (by decide)
  have endRow := uint 5 (clampI32 (r + 1)) (by decide)
  have startCol := uint 6 (clampI32 c) (by decide)
  have endCol := uint 7 (clampI32 (c + 1)) (by decide)
  have spans : Wire.uint 2 1 + Wire.uint 3 1 = 4 := by decide
  have content : Wire.string 8 text ≤ 1 + Wire.varint text.utf8ByteSize + text.utf8ByteSize := by
    unfold Wire.string
    split_ifs
    · exact Nat.zero_le _
    · exact Nat.le_refl _
  have flag : Wire.bool 9 header = if header then 2 else 0 := by
    cases header <;> decide
  have typed : Wire.optional (fun value : Doc.CellValue => Wire.delimited 14 value.encodedLen) value
      = if value.isSome then 11 else 0 := by
    cases value with
    | none => rfl
    | some value =>
      cases value
      exact (by decide : Wire.delimited 14 (Wire.presentDouble 1) = 11)
  unfold Doc.TableCell.encodedLen tableCell
  dsimp only
  rw [satSuccI32_clampI32, satSuccI32_clampI32, flag, typed]
  omega

/-- A text cell is charged what it takes unless its text is very long or it stands very far right. -/
lemma tableCell_text {text : String} {r c : Nat} (short : text.utf8ByteSize < 2 ^ 20)
    (near : c + 1 < 2 ^ 21) :
    Wire.delimited 1 (tableCell text none r c false).encodedLen
      ≤ text.utf8ByteSize + cellOverheadBytes := by
  have content := tableCell_encodedLen_le text none r c false
  have rows (n : Nat) : Wire.varint (clampI32 n) ≤ 5 := by
    refine (Wire.varint_le_iff (by decide)).mpr ?_
    unfold clampI32
    omega
  have startRow := rows r
  have endRow := rows (r + 1)
  have startCol : Wire.varint (clampI32 c) ≤ 3 := varint_clampI32 (by decide) (by omega)
  have endCol : Wire.varint (clampI32 (c + 1)) ≤ 3 := varint_clampI32 (by decide) near
  have length : Wire.varint text.utf8ByteSize ≤ 3 := (Wire.varint_le_iff (by decide)).mpr (by omega)
  simp only [Bool.false_eq_true, if_false, Option.isSome_none] at content
  exact delimited_one_le (k := 3) (by decide) (by omega) (by omega)

/-- A number is charged what it takes where its offsets are short. -/
lemma tableCell_number {text : String} {value : Option Doc.CellValue} {r c : Nat}
    (short : text.utf8ByteSize < 98)
    (near : Wire.varint (clampI32 r) + Wire.varint (clampI32 (r + 1)) + Wire.varint (clampI32 c) +
      Wire.varint (clampI32 (c + 1)) ≤ 9) :
    Wire.delimited 1 (tableCell text value r c false).encodedLen
      ≤ text.utf8ByteSize + cellOverheadBytes := by
  have content := tableCell_encodedLen_le text value r c false
  have typed : (if value.isSome then 11 else 0) ≤ 11 := by split_ifs <;> omega
  have length : Wire.varint text.utf8ByteSize ≤ 1 := (Wire.varint_le_iff (by decide)).mpr (by omega)
  simp only [Bool.false_eq_true, if_false] at content
  exact delimited_one_le (k := 1) (by decide) (by omega) (by omega)

/-- A header cell stands in the first row. -/
lemma tableCell_header {text : String} {c : Nat} (short : text.utf8ByteSize < 2 ^ 20)
    (near : c + 1 < 2 ^ 21) :
    Wire.delimited 1 (tableCell text none 0 c true).encodedLen
      ≤ text.utf8ByteSize + cellOverheadBytes := by
  have content := tableCell_encodedLen_le text none 0 c true
  have startRow : Wire.varint (clampI32 0) = 1 := by decide
  have endRow : Wire.varint (clampI32 (0 + 1)) = 1 := by decide
  have startCol : Wire.varint (clampI32 c) ≤ 3 := varint_clampI32 (by decide) (by omega)
  have endCol : Wire.varint (clampI32 (c + 1)) ≤ 3 := varint_clampI32 (by decide) near
  have length : Wire.varint text.utf8ByteSize ≤ 3 := (Wire.varint_le_iff (by decide)).mpr (by omega)
  simp only [if_true, Option.isSome_none, Bool.false_eq_true, if_false] at content
  exact delimited_one_le (k := 3) (by decide) (by omega) (by omega)

/-! ## Rows -/

/-- A row of covered cells is covered if it is not too long. -/
lemma Doc.TableRow.covered_of {row : Doc.TableRow} {extent : Doc.ProvenanceItem}
    (each : ∀ cell ∈ row.cells,
      Wire.delimited 1 cell.encodedLen ≤ cell.text.utf8ByteSize + cellOverheadBytes ∧
        cell.text.utf8ByteSize < 2 ^ 20)
    (width : row.cells.length ≤ 2 ^ 14) (place : extent.encodedLen ≤ 24) : row.Covered extent := by
  refine ⟨fun cell mem => (each cell mem).1, ?_⟩
  have content : row.encodedLen ≤ row.cells.length * (2 ^ 20 + 32) := by
    unfold Doc.TableRow.encodedLen Wire.repeated
    rw [List.map_map]
    have parts : ∀ n ∈ row.cells.map (Wire.delimited 1 ∘ Doc.TableCell.encodedLen),
        n ≤ 2 ^ 20 + 32 := by
      refine List.forall_mem_map.mpr fun cell mem => ?_
      obtain ⟨covered, short⟩ := each cell mem
      unfold cellOverheadBytes at covered
      exact covered.trans (by omega)
    have sum := List.sum_le_card_nsmul _ _ parts
    rwa [List.length_map] at sum
  have bounded : row.encodedLen < 2 ^ (7 * 5) := by
    have most := Nat.mul_le_mul_right (2 ^ 20 + 32) width
    omega
  have length : Wire.varint row.encodedLen ≤ 5 := (Wire.varint_le_iff (by decide)).mpr bounded
  have extentLength : Wire.varint extent.encodedLen ≤ 1 := (Wire.varint_le_iff (by decide)).mpr (by omega)
  have keys : Wire.key 4 = 1 ∧ Wire.key 8 = 1 := by decide
  unfold Wire.delimited rowOverheadBytes
  omega

/-- A schema and rows of it whose charges do, whatever is kept of them: short texts, and numbers not too
far down and right for their offsets. -/
structure Plain (rowCap : Nat) (rows : List Pb.RecordRow) (schema : Pb.RecordSchema) : Prop where
  names : ∀ column ∈ columns schema, column.name.utf8ByteSize < 2 ^ 20
  texts : ∀ row ∈ rows, ∀ cell ∈ row.cells, (cellText cell).utf8ByteSize < 2 ^ 20
  numbers : ∀ row ∈ rows, ∀ cell ∈ row.cells, cellValue cell ≠ none →
    (cellText cell).utf8ByteSize < 98
  extents : ∀ row ∈ rows, row.byteOffset ≤ u64Max
  near : (columns schema).length ≤ 128 ∧ rowCap + 1 < 2 ^ 21 ∨
    (columns schema).length ≤ 2 ^ 14 ∧ rowCap + 1 < 2 ^ 14

namespace Plain

variable {rowCap : Nat} {rows : List Pb.RecordRow} {schema : Pb.RecordSchema}

lemma width (plain : Plain rowCap rows schema) : (columns schema).length ≤ 2 ^ 14 := by
  rcases plain.near with ⟨width, _⟩ | ⟨width, _⟩ <;> omega

/-- The offsets of a cell of a kept row have nine bytes together. -/
lemma offsets (plain : Plain rowCap rows schema) {r c : Nat} (row : r ≤ rowCap)
    (column : c < (columns schema).length) :
    Wire.varint (clampI32 r) + Wire.varint (clampI32 (r + 1)) + Wire.varint (clampI32 c) +
      Wire.varint (clampI32 (c + 1)) ≤ 9 := by
  rcases plain.near with ⟨width, height⟩ | ⟨width, height⟩
  · have startRow : Wire.varint (clampI32 r) ≤ 3 := varint_clampI32 (by decide) (by omega)
    have endRow : Wire.varint (clampI32 (r + 1)) ≤ 3 := varint_clampI32 (by decide) (by omega)
    have startCol : Wire.varint (clampI32 c) ≤ 1 := varint_clampI32 (by decide) (by omega)
    have endCol : Wire.varint (clampI32 (c + 1)) ≤ 2 := varint_clampI32 (by decide) (by omega)
    omega
  · have startRow : Wire.varint (clampI32 r) ≤ 2 := varint_clampI32 (by decide) (by omega)
    have endRow : Wire.varint (clampI32 (r + 1)) ≤ 2 := varint_clampI32 (by decide) (by omega)
    have startCol : Wire.varint (clampI32 c) ≤ 2 := varint_clampI32 (by decide) (by omega)
    have endCol : Wire.varint (clampI32 (c + 1)) ≤ 3 := varint_clampI32 (by decide) (by omega)
    omega

/-- A row that is kept takes no more than it is charged. -/
lemma gridRow (plain : Plain rowCap rows schema) {row : Pb.RecordRow} (mem_rows : row ∈ rows) {r : Nat}
    (kept : r ≤ rowCap) : ((TableState.new schema).gridRow row r).Covered (rowExtent row) := by
  have width := (TableState.gridRow_shows schema row r).width
  refine Doc.TableRow.covered_of (fun cell mem => ?_) (width.trans_le plain.width)
    (extent_encodedLen_le (plain.extents row mem_rows) (Nat.min_le_right _ _))
  obtain ⟨c, at_c⟩ := List.mem_iff_getElem?.mp mem
  obtain ⟨column, rfl⟩ := TableState.gridRow_at at_c
  have right : c + 1 < 2 ^ 21 := by
    have width := plain.width
    omega
  -- A column shows nothing, or a cell of the record, and this a text or a number.
  cases shown : shownIn (columns schema) row c with
  | none =>
    have short : "".utf8ByteSize < 2 ^ 20 := by decide
    exact ⟨tableCell_text short right, short⟩
  | some cell =>
    have among := shownIn_mem shown
    have short := plain.texts row mem_rows cell among
    refine ⟨?_, short⟩
    change Wire.delimited 1 (tableCell (cellText cell) (cellValue cell) r c false).encodedLen ≤ _
    cases typed : cellValue cell with
    | none => exact tableCell_text short right
    | some value =>
      have digits := plain.numbers row mem_rows cell among (by rw [typed]; exact nofun)
      exact tableCell_number digits (plain.offsets kept column)

/-- Nor does the header. -/
lemma header (plain : Plain rowCap rows schema) :
    Doc.TableRow.Covered ⟨(TableState.new schema).header⟩ {} := by
  have width := plain.width
  refine Doc.TableRow.covered_of (fun cell mem => ?_) ?_ (Nat.zero_le _)
  · obtain ⟨⟨column, c⟩, among, rfl⟩ := List.mem_map.mp mem
    obtain ⟨_, lt, among⟩ := List.mem_zipIdx among
    have short := plain.names column (among ▸ List.getElem_mem _)
    refine ⟨tableCell_header short ?_, short⟩
    change c < 0 + (columns schema).length at lt
    omega
  · change ((TableState.new schema).header).length ≤ _
    rw [TableState.header, List.length_map, List.length_zipIdx]
    exact width

/-- The table a fold has of a plain schema is covered. -/
lemma covered {state : TableState} (plain : Plain rowCap rows schema)
    (account : Account rowCap rows schema state) : state.Covered := by
  constructor
  · rw [account.grid, account.rowProv]
    conv =>
      enter [3]
      rw [← List.zipIdx_map_fst 1 ((rowsNamed rows schema.name).take state.rows)]
    rw [List.map_map, List.forall₂_map_left_iff, List.forall₂_map_right_iff, List.forall₂_same]
    rintro ⟨row, r⟩ mem
    obtain ⟨_, lt, at_r⟩ := List.mem_zipIdx mem
    have among : row ∈ rows :=
      (List.mem_filter.mp (List.mem_of_mem_take (at_r ▸ List.getElem_mem _))).1
    have within := account.within
    rw [account.kept_length] at lt
    exact plain.gridRow among (by omega)
  · have same : state.header = (TableState.new schema).header := by
      unfold TableState.header
      rw [account.declared.columns]
      rfl
    rw [same]
    exact plain.header

end Plain

end GrpcEbcdic

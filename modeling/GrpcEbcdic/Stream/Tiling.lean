import GrpcEbcdic.Stream.Simulation
import GrpcEbcdic.Decode.Numbers

/-!
# Rows tile the input

The rows of a walk lie one behind the other from the end of the header on, none reaches into the
footer, and each says truthfully what it is: its place in the sequence, the bytes it was read from, the
length it declares or its schema has, and the decoded fields of its body.
-/

namespace GrpcEbcdic
open Rust Fallible Incremental

/-- Rows one behind the other, from the offset `p` to the offset `q`. -/
inductive Tiles : Nat → List Pb.RecordRow → Nat → Prop where
  | nil {p} :
    Tiles p [] p
  | cons {p row rows q} :
    row.byteOffset = p →
    0 < row.byteLength →
    Tiles (p + row.byteLength) rows q →
    Tiles p (row :: rows) q

namespace Tiles

/-- The bytes of the rows are what lies between the ends of the tiling. -/
lemma sum_eq {p rows q} (ti : Tiles p rows q) :
    p + (rows.map (·.byteLength)).sum = q := by
  induction ti with
  | nil => simp
  | cons _ _ _ ih =>
    rw [List.map_cons, List.sum_cons]
    omega

/-- A tiling of two row lists is one after the other. -/
lemma append {p rows rows' q} (ti : Tiles p (rows ++ rows') q) :
    ∃ m, Tiles p rows m ∧ Tiles m rows' q := by
  induction rows generalizing p with
  | nil => exact ⟨p, .nil, ti⟩
  | cons row rows ih =>
    cases ti with
    | cons off pos ti =>
      obtain ⟨m, left, right⟩ := ih ti
      exact ⟨m, .cons off pos left, right⟩

/-- A row of a tiling lies between its ends. -/
lemma mem {p rows q} (ti : Tiles p rows q) {row : Pb.RecordRow} (mem : row ∈ rows) :
    p ≤ row.byteOffset ∧ 0 < row.byteLength ∧ row.byteOffset + row.byteLength ≤ q := by
  induction ti with
  | nil => cases mem
  | cons off pos ti ih =>
    have eq := ti.sum_eq
    cases mem with
    | head => omega
    | tail _ mem =>
      have := ih mem
      omega

/-- The first row of a tiling starts it. -/
lemma head {p rows q} (ti : Tiles p rows q) : ∀ row ∈ rows.head?, row.byteOffset = p := by
  cases ti with
  | nil => simp
  | cons off _ _ => simpa using off

/-- The last row of a tiling ends it. -/
lemma last {p rows q} (ti : Tiles p rows q) :
    ∀ row ∈ rows.getLast?, row.byteOffset + row.byteLength = q := by
  induction ti with
  | nil => simp
  | @cons p row rows q off _ ti ih =>
    cases rows with
    | nil =>
      cases ti
      simp [off]
    | cons row' rows => simpa [List.getLast?_cons_cons] using ih

/-- A row of a tiling starts behind the bytes of those before it. -/
lemma offset {p rows row rows' q} (ti : Tiles p (rows ++ row :: rows') q) :
    row.byteOffset = p + (rows.map (·.byteLength)).sum := by
  obtain ⟨m, left, right⟩ := ti.append
  rw [left.sum_eq]
  exact right.head row (by simp)

/-- A row of a tiling starts where the one before it ends. -/
lemma next {p rows q} (ti : Tiles p rows q) {i : Nat} {row succ : Pb.RecordRow}
    (at_i : rows[i]? = some row) (at_succ : rows[i + 1]? = some succ) :
    succ.byteOffset = row.byteOffset + row.byteLength := by
  induction ti generalizing i with
  | nil => cases at_i
  | cons off _ ti ih =>
    cases i with
    | zero =>
      cases at_i
      rw [off]
      exact ti.head succ (by simpa [List.head?_eq_getElem?] using at_succ)
    | succ i => exact ih (by simpa using at_i) (by simpa using at_succ)

end Tiles

/-- Rows of a schema among some rows. -/
def rowsOf (rows : List Pb.RecordRow) (name : String) : Nat :=
  rows.countP fun row => row.recordType = name

@[simp] lemma rowsOf_nil (name : String) : rowsOf [] name = 0 := rfl

@[simp] lemma rowsOf_append (rows rows' : List Pb.RecordRow) (name : String) :
    rowsOf (rows ++ rows') name = rowsOf rows name + rowsOf rows' name :=
  List.countP_append

lemma rowsOf_singleton (row : Pb.RecordRow) (name : String) :
    rowsOf [row] name = if row.recordType = name then 1 else 0 := by
  simp [rowsOf, List.countP_cons]

/-- A row is of one schema among distinct names that have its own. -/
lemma sum_rowsOf_singleton {names : List String} (nodup : names.Nodup) {row : Pb.RecordRow}
    (mem : row.recordType ∈ names) : (names.map (rowsOf [row])).sum = 1 := by
  rw [← List.count_eq_one_of_mem nodup mem]
  clear nodup mem
  induction names with
  | nil => rfl
  | cons name names ih =>
    rw [List.map_cons, List.sum_cons, ih, rowsOf_singleton, List.count_cons]
    by_cases same : row.recordType = name
    · simp [same, Nat.add_comm]
    · simp [same, Ne.symm same]

/-- Counted by distinct names that cover them, rows are counted once each. -/
lemma sum_rowsOf {names : List String} (nodup : names.Nodup) {rows : List Pb.RecordRow}
    (cover : ∀ row ∈ rows, row.recordType ∈ names) : (names.map (rowsOf rows)).sum = rows.length := by
  induction rows with
  | nil => simp [show rowsOf [] = fun _ => 0 from rfl]
  | cons row rows ih =>
    obtain ⟨mem, cover⟩ := List.forall_mem_cons.mp cover
    have split : names.map (rowsOf (row :: rows))
        = names.map fun name => rowsOf [row] name + rowsOf rows name :=
      List.map_congr_left fun name _ => rowsOf_append [row] rows name
    rw [split, List.sum_map_add, sum_rowsOf_singleton nodup mem, ih cover, List.length_cons,
      Nat.add_comm]

/-- A decoded field of an input, from the absolute offset `start` on. -/
def CellAt [Unicode] (options : DecodeOptions) (input : List UInt8) (start : Nat) (field : Field)
    (cell : Pb.Cell) : Prop :=
  ∃ bytes value,
    getSlice input start (start + field.size) = some bytes ∧
    decodeField field bytes options = .ok value ∧
    cell = ⟨field.name, field.kind.toProto.toI32, some (toCellValue value field.scale)⟩

/-- A row that says truthfully how its record, of the schema `record`, lies in the input. -/
structure RowOf [Unicode] (layout : Layout) (options : DecodeOptions) (input : List UInt8)
    (record : RecordLayout) (row : Pb.RecordRow) : Prop where
  name : row.recordType = record.name
  /-- The prefix and the schema's fields, or the length the record declares. -/
  length : match layout.recordLengthField with
    | none => row.byteLength = layout.prefixSize + record.size
    | some field => ∃ bytes value,
        getSlice input row.byteOffset (row.byteOffset + field.size) = some bytes ∧
        decodeField field bytes options = .ok value ∧
        value.toLength = some (row.byteLength : Int)
  cells : List.Forall₂
    (fun field cell =>
      CellAt options input (row.byteOffset + layout.prefixSize + field.offset) field cell)
    (record.fields.filter (·.kind ≠ .skip)) row.cells

/-- A row that says truthfully what it is, when the rows `before` came before it. -/
structure RowAfter [Unicode] (layout : Layout) (options : DecodeOptions) (input : List UInt8)
    (before : List Pb.RecordRow) (row : Pb.RecordRow) : Prop where
  recordIndex : row.recordIndex = before.length
  rowIndex : row.rowIndex = rowsOf before row.recordType
  record : ∃ record ∈ layout.records, RowOf layout options input record row

section Prefix

lemma wrapI128_of_fits {n : Int} (fits : FitsI128 n) : wrapI128 n = n := by
  unfold FitsI128 at fits
  unfold wrapI128
  omega

/-- A body length within the limit was not reached by wrapping around. -/
lemma wrapI128_sub_eq {n : Int} {k size : Nat} (fits : FitsI128 n) (small : k < 2 ^ 64)
    (le : size ≤ maxRecordBytes) (eq : wrapI128 (n - k) = size) : n = k + size := by
  unfold FitsI128 at fits
  unfold maxRecordBytes at le
  unfold wrapI128 at eq
  omega

lemma parseI128_fits {cs : List Char} {n : Int} (ok : parseI128 cs = some n) : FitsI128 n := by
  unfold parseI128 at ok
  unfold FitsI128
  split at ok
  · obtain ⟨k, _, h⟩ := Option.bind_eq_some_iff.mp ok
    split at h
    · cases h
      omega
    · cases h
  · obtain ⟨k, _, h⟩ := Option.bind_eq_some_iff.mp ok
    split at h
    · cases h
      omega
    · cases h

/-- No kind of field is wider than a record may be. -/
lemma widthLimit_le (kind : FieldKind) : widthLimit kind ≤ maxRecordBytes := by
  cases kind <;> decide

/-- The prefix of a valid layout is far from the bounds of the arithmetic on lengths. -/
lemma Layout.Valid.prefix_lt {layout : Layout} (v : layout.Valid) : layout.prefixSize < 2 ^ 64 := by
  have small (field : Option Field) (pv : ∀ f ∈ field, f.PrefixValid) :
      optionalSize field ≤ maxRecordBytes := by
    cases field with
    | none => exact Nat.zero_le _
    | some f => exact (pv f rfl).width.trans (widthLimit_le f.kind)
  have l := small layout.recordLengthField fun f mem => (v.lengthField f mem).1
  have t := small layout.recordTypeField v.typeField
  rw [v.prefix_eq]
  unfold maxRecordBytes at l t
  omega

/-- A slice within a slice, counted from the start of the whole. -/
lemma getSlice_slice {xs ys : List UInt8} {a b c d : Nat} (le : b ≤ xs.length) (ab : a ≤ b)
    (ok : getSlice (slice xs a b) c d = some ys) : getSlice xs (a + c) (a + d) = some ys := by
  unfold getSlice at ok ⊢
  rw [slice_length] at ok
  split at ok
  · next h =>
    rw [if_pos (by omega), ← ok, slice_slice (by omega)]
  · cases ok

/-- A slice of record data, counted from the start of the input. -/
lemma slice_dataFrom {layout : Layout} {input : List UInt8} {pos b : Nat} (a : Nat)
    (le : b ≤ (dataFrom layout input pos).length) :
    slice (dataFrom layout input pos) a b = slice input (pos + a) (pos + b) := by
  rw [dataFrom_length] at le
  rw [dataFrom, slice_drop]
  by_cases zero : b = 0
  · subst zero
    simp [slice, List.drop_eq_nil_of_le]
  · exact slice_take _ (by omega)

variable [Unicode]

/-- A number decoded from a field of an admitted width fits the accumulator. -/
lemma decodeField_fits {field : Field} {bytes : List UInt8} {options : DecodeOptions}
    {value : FieldValue} {n : Int} (ok : decodeField field bytes options = .ok value)
    (width : bytes.length ≤ widthLimit field.kind) (len : value.toLength = some n) :
    FitsI128 n := by
  cases value with
  | text t => exact parseI128_fits len
  | number u scale =>
    cases len
    unfold decodeField at ok
    cases kind : field.kind with
    | text =>
      rw [kind] at ok
      obtain ⟨_, _, e⟩ := map_eq_ok.mp ok
      cases e
    | skip => rw [kind] at ok; cases ok
    | integer =>
      rw [kind] at ok
      obtain ⟨_, dec, e⟩ := map_eq_ok.mp ok
      cases e
      exact decodeBinary_fits dec
    | unsignedInteger =>
      rw [kind] at ok
      obtain ⟨_, dec, e⟩ := map_eq_ok.mp ok
      cases e
      exact decodeBinary_fits dec
    | packedDecimal =>
      rw [kind] at ok width
      obtain ⟨_, dec, e⟩ := map_eq_ok.mp ok
      cases e
      exact fitsI128_of_lt (decodePacked_lt dec width)
    | zonedDecimal =>
      rw [kind] at ok width
      obtain ⟨_, dec, e⟩ := map_eq_ok.mp ok
      cases e
      exact fitsI128_of_lt (decodeZoned_lt dec width)

variable {layout : Layout} {options : DecodeOptions} {input : List UInt8} {σ σ' : WalkState}

/-- A prefix that reads well gives the record the length it declares or its schema has. -/
lemma readPrefix_length (v : layout.Valid) {record : RecordLayout} {size : Nat}
    (ok : readPrefix layout options σ.pos (dataFrom layout input σ.pos) = .ok (record, size))
    (le : layout.prefixSize ≤ (dataFrom layout input σ.pos).length) :
    match layout.recordLengthField with
    | none => layout.prefixSize + size = layout.prefixSize + record.size
    | some field => ∃ bytes value,
        getSlice input σ.pos (σ.pos + field.size) = some bytes ∧
        decodeField field bytes options = .ok value ∧
        value.toLength = some ((layout.prefixSize + size : Nat) : Int) := by
  obtain ⟨declared, recordType, hlen, _, sel, hsize⟩ := readPrefix_ok ok
  have small := v.prefix_lt
  unfold readLength at hlen
  cases h : layout.recordLengthField with
  | none =>
    rw [h] at hlen
    cases hlen
    rw [bodySize_none hsize]
  | some field =>
    rw [h] at hlen
    have eq := v.prefix_eq
    simp only [h, optionalSize, Option.map_some, Option.getD_some] at eq
    have room : field.size ≤ (dataFrom layout input σ.pos).length := by omega
    have there : σ.pos + field.size ≤ input.length := by
      have pos := (v.lengthField field h).1.size_pos
      rw [dataFrom_length] at room
      omega
    dsimp only at hlen
    rw [slice_dataFrom 0 room, Nat.add_zero] at hlen
    cases dec : decodeField field (slice input σ.pos (σ.pos + field.size)) options with
    | error e => rw [dec] at hlen; cases hlen
    | ok value =>
      rw [dec] at hlen
      refine ⟨_, value, getSlice_eq (by omega) there, dec, ?_⟩
      cases len : value.toLength with
      | none => simp only [len] at hlen; cases hlen
      | some n =>
        simp only [len] at hlen
        cases hlen
        obtain ⟨wrapped, bounded⟩ := bodySize_ok.mp hsize
        -- The width bounds the length, so taking the prefix off it did not wrap.
        have fits := decodeField_fits dec (by
          rw [slice_length, min_eq_left there, Nat.add_sub_cancel_left]
          exact (v.lengthField field h).1.width) len
        have eq' := wrapI128_sub_eq fits small bounded wrapped
        rw [eq']
        push_cast
        rfl

/-- The cells of a record are the decoded fields of the input behind its prefix. -/
lemma decodeCells_at {record : RecordLayout} {start stop : Nat} {cells : List Pb.Cell}
    (ok : decodeCells record (slice input start stop) options = .ok cells) (le : start ≤ stop)
    (there : stop ≤ input.length) :
    List.Forall₂ (fun field cell => CellAt options input (start + field.offset) field cell)
      (record.fields.filter (·.kind ≠ .skip)) cells := by
  refine (mapM_eq_ok.mp ok).imp fun field cell hc => ?_
  unfold decodeCell at hc
  cases hs : getSlice (slice input start stop) field.offset field.stop with
  | none => rw [hs] at hc; cases hc
  | some bytes =>
    rw [hs] at hc
    have whole := getSlice_slice there le hs
    cases dec : decodeField field bytes options with
    | error e => simp only [dec] at hc; cases hc
    | ok value =>
      simp only [dec] at hc
      cases hc
      rw [Field.stop, ← Nat.add_assoc] at whole
      exact ⟨bytes, value, whole, dec, rfl⟩

/-- An emitted row says truthfully how its record lies in the input. -/
lemma recordStep_rowOf (v : layout.Valid) {row : Pb.RecordRow} {n : Nat}
    (st : recordStep layout options σ (dataFrom layout input σ.pos) = .emit row n σ') :
    ∃ record ∈ layout.records,
      RowOf layout options input record row ∧ row = σ.row record n row.cells ∧
      σ' = σ.advance record n ∧ 0 < n ∧ σ.pos + n + layout.footerSize ≤ input.length := by
  obtain ⟨record, size, cells, _, _, hp, le, hc, rfl, rfl, rfl⟩ := recordStep_emit.mp st
  have pos := readPrefix_pos v hp
  have room := le
  rw [dataFrom_length] at room
  obtain ⟨_, _, _, _, sel, _⟩ := readPrefix_ok hp
  refine ⟨record, Layout.select_mem sel, ⟨rfl, ?_, ?_⟩, rfl, rfl, pos, by omega⟩
  · exact readPrefix_length v hp (by omega)
  · rw [slice_dataFrom _ le] at hc
    have cells := decodeCells_at hc (by omega) (by omega)
    exact cells

end Prefix

/-- The counters of a walk that has emitted the rows `before`: one for each schema, in the order of the
layout. -/
structure Counts (layout : Layout) (σ : WalkState) (before : List Pb.RecordRow) : Prop where
  kept : σ.recordsKept = before.length
  rows : σ.rowsPerType = layout.records.map fun record => (record.name, rowsOf before record.name)

/-- Where a schema of the layout stands. -/
lemma Counts.rowIndex {layout : Layout} (v : layout.Valid) {σ : WalkState}
    {before : List Pb.RecordRow} (counts : Counts layout σ before) {record : RecordLayout}
    (mem : record ∈ layout.records) : σ.rowIndex record.name = rowsOf before record.name := by
  rw [WalkState.rowIndex, counts.rows,
    AssocList.lookup_map (f := RecordLayout.name) (g := fun r => rowsOf before r.name) v.names mem]
  rfl

/-- Counting one more row. -/
lemma Counts.advance {layout : Layout} (v : layout.Valid) {σ : WalkState}
    {before : List Pb.RecordRow} (counts : Counts layout σ before) {record : RecordLayout}
    (mem : record ∈ layout.records) {row : Pb.RecordRow} (name : row.recordType = record.name)
    (n : Nat) : Counts layout (σ.advance record n) (before ++ [row]) := by
  refine ⟨by simp [WalkState.advance, counts.kept], ?_⟩
  rw [WalkState.advance, counts.rowIndex v mem, counts.rows,
    AssocList.insert_map (f := RecordLayout.name) (g := fun r => rowsOf before r.name) v.names mem]
  refine List.map_congr_left fun other _ => ?_
  rw [rowsOf_append, rowsOf_singleton, name]
  by_cases same : other.name = record.name
  · simp [same]
  · simp [same, Ne.symm same]

/-- Before the first row all counters are zero. -/
lemma counts_start {layout : Layout} (v : layout.Valid) : Counts layout (walkStart layout) [] := by
  refine ⟨rfl, AssocList.collect_of_nodup ?_⟩
  simpa [AssocList.keys, Function.comp_def] using v.names

section Rows

variable [Unicode] {layout : Layout} {options : DecodeOptions} {input : List UInt8}
  {σ σ' : WalkState}

/-- The rows of a trace over record data tile it, and each is truthful. -/
lemma trace_rows {v : layout.Valid} {xs rest : List UInt8} {rs : List (Pb.RecordRow × Nat)}
    {before : List Pb.RecordRow} (tr : (recordReader v options).Trace σ xs rs σ' rest)
    (on : xs = dataFrom layout input σ.pos) (counts : Counts layout σ before) :
    Tiles σ.pos (rs.map Prod.fst) σ'.pos ∧ Counts layout σ' (before ++ rs.map Prod.fst) ∧
      (∀ row ∈ rs.map Prod.fst,
        row.byteOffset + row.byteLength + layout.footerSize ≤ input.length) ∧
      ∀ (i : Nat) (row : Pb.RecordRow), (rs.map Prod.fst)[i]? = some row →
        RowAfter layout options input (before ++ (rs.map Prod.fst).take i) row := by
  -- The rows before the trace number its rows, so they are generalised.
  induction tr generalizing before with
  | nil => exact ⟨.nil, by simpa using counts, by simp, by simp⟩
  | @cons σ xs row n σ₁ rs σ' rest st tr ih =>
    subst on
    obtain ⟨record, mem, rowOf, eq, rfl, pos, le⟩ := recordStep_rowOf v st
    have row_pos : row.byteOffset = σ.pos := by rw [eq]; rfl
    have row_len : row.byteLength = n := by rw [eq]; rfl
    obtain ⟨tiles, counts', inside, after⟩ := ih (dataFrom_drop ..) (counts.advance v mem rowOf.name n)
    refine ⟨.cons row_pos (row_len ▸ pos) ?_, ?_, ?_, ?_⟩
    · rw [row_len]
      exact tiles
    · simpa using counts'
    · rw [List.map_cons, List.forall_mem_cons]
      exact ⟨by rw [row_pos, row_len]; exact le, inside⟩
    · intro i row' at_i
      cases i with
      | zero =>
        cases at_i
        rw [List.take_zero, List.append_nil]
        refine ⟨?_, ?_, record, mem, rowOf⟩
        · rw [eq, ← counts.kept]
          rfl
        · rw [rowOf.name, ← counts.rowIndex v mem, eq]
          rfl
      | succ i => simpa using after i row' (by simpa using at_i)

/-- The bytes a trace consumed for a row are those the row says it has. -/
lemma trace_lengths {v : layout.Valid} {xs rest : List UInt8} {rs : List (Pb.RecordRow × Nat)}
    (tr : (recordReader v options).Trace σ xs rs σ' rest) : ∀ rn ∈ rs, rn.2 = rn.1.byteLength := by
  induction tr with
  | nil => simp
  | cons st _ ih =>
    obtain ⟨_, _, _, _, _, _, _, _, _, rfl, _⟩ := recordStep_emit.mp st
    exact List.forall_mem_cons.mpr ⟨rfl, ih⟩

/-- The bytes a batch run consumed are those its rows say they have. -/
lemma batch_lengths (v : layout.Valid) (options : DecodeOptions) (input : List UInt8) :
    ∀ rn ∈ (batch v options input).1, rn.2 = rn.1.byteLength := by
  obtain ⟨_, _, tr, _⟩ :=
    (recordReader v options).run_trace (walkStart layout) (recordData layout input)
  exact trace_lengths tr

/-- The rows of a walk, as the reader emits them, tile the record data up to where the run halts. -/
lemma batch_rows (v : layout.Valid) (options : DecodeOptions) (input : List UInt8) :
    ∃ σ' rest, (recordReader v options).run σ' rest = ([], (batch v options input).2) ∧
      Tiles layout.headerSize ((batch v options input).1.map Prod.fst) σ'.pos ∧
      Counts layout σ' ((batch v options input).1.map Prod.fst) ∧
      (∀ row ∈ (batch v options input).1.map Prod.fst,
        row.byteOffset + row.byteLength + layout.footerSize ≤ input.length) ∧
      ∀ (i : Nat) (row : Pb.RecordRow), ((batch v options input).1.map Prod.fst)[i]? = some row →
        RowAfter layout options input (((batch v options input).1.map Prod.fst).take i) row := by
  obtain ⟨σ', rest, tr, halt⟩ :=
    (recordReader v options).run_trace (walkStart layout) (recordData layout input)
  obtain ⟨tiles, counts, inside, after⟩ := trace_rows tr rfl (counts_start v)
  simp only [List.nil_append] at counts after
  exact ⟨σ', rest, halt, tiles, counts, inside, after⟩

/-- Rows tile the input and say truthfully where they came from. -/
theorem walk_rows_tile [SerdeJson] {request : Pb.ParseOptions} {layout : Layout}
    (ok : resolve request = .ok layout) (options : DecodeOptions) (chunks : List (List UInt8)) :
    let rows := (walk layout options chunks).1
    (∀ row ∈ rows.head?, row.byteOffset = layout.headerSize) ∧
    (∀ (i : Nat) (row next : Pb.RecordRow), rows[i]? = some row → rows[i + 1]? = some next →
      next.byteOffset = row.byteOffset + row.byteLength) ∧
    (∀ row ∈ rows.getLast?,
      row.byteOffset + row.byteLength + layout.footerSize ≤ chunks.flatten.length) ∧
    ∀ (i : Nat) (row : Pb.RecordRow), rows[i]? = some row →
      row.recordIndex = i ∧
      row.rowIndex = rowsOf (rows.take i) row.recordType ∧
      ∃ record ∈ layout.records, RowOf layout options chunks.flatten record row := by
  have v := resolve_valid ok
  obtain ⟨_, _, _, tiles, _, inside, after⟩ := batch_rows v options chunks.flatten
  rw [walk_eq v]
  dsimp only [wholeWalk]
  refine ⟨tiles.head, fun _ _ _ => tiles.next, fun row mem => inside row (List.mem_of_getLast? mem),
    fun i row at_i => ?_⟩
  obtain ⟨index, count, record⟩ := after i row at_i
  obtain ⟨lt, _⟩ := List.getElem?_eq_some_iff.mp at_i
  refine ⟨?_, count, record⟩
  rw [index, List.length_take]
  exact min_eq_left lt.le

end Rows

section Sample

attribute [local instance] asciiUnicode noJson

theorem walk_rows_tile_sample :
    (walk sampleLayout sampleOptions sampleChunks).1 = [sampleRow] ∧
    sampleRow.byteOffset = sampleLayout.headerSize := by
  have rows : (walk sampleLayout sampleOptions sampleChunks).1 = [sampleRow] := rfl
  obtain ⟨first, _⟩ := walk_rows_tile resolve_sample sampleOptions sampleChunks
  exact ⟨rows, first sampleRow (congrArg List.head? rows)⟩

end Sample

end GrpcEbcdic

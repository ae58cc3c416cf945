import GrpcEbcdic.Decode.Accumulator
import GrpcEbcdic.Stream.Limit

/-!
# Routing by record type

In a layout with a record type field, the value its prefix carries selects the schema of a record.
Validation makes the selectors distinct, so the schema found first is the only one: every row is decoded
with it, a value that no schema claims ends the walk, and the order of the schemas decides nothing.
-/

namespace GrpcEbcdic
open Rust Fallible Incremental

/-- A schema is selected exactly when it has the selector, in whatever order the schemas stand. -/
lemma Layout.select_iff {layout : Layout} (v : layout.Valid) (typed : layout.recordTypeField ≠ none)
    {value : String} {record : RecordLayout} :
    layout.select (some value) = some record ↔
      record ∈ layout.records ∧ record.selector = some value := by
  obtain ⟨field, present⟩ := Option.ne_none_iff_exists'.mp typed
  have distinct := (v.selectors typed).2
  have first {r : RecordLayout}
      (found : layout.records.find? (fun record => record.selector = some value) = some r) :
      r ∈ layout.records ∧ r.selector = some value :=
    ⟨List.mem_of_find?_eq_some found, by simpa using List.find?_some found⟩
  unfold Layout.select
  rw [present]
  dsimp only
  constructor
  · exact first
  · rintro ⟨mem, selects⟩
    cases found : layout.records.find? fun record => record.selector = some value with
    | none => exact absurd (decide_eq_true selects) (List.find?_eq_none.mp found record mem)
    | some r =>
      obtain ⟨mem', selects'⟩ := first found
      rw [List.inj_on_of_nodup_map distinct mem' mem (selects'.trans selects.symm)]

section Errors

/-- A decimal decoder fails only on its format. -/
lemma decodePacked_error {bytes : List UInt8} {e : ParseError} (fails : decodePacked bytes = .error e) :
    ∃ message, e = .invalid message := by
  unfold decodePacked at fails
  cases last : bytes.getLast? with
  | none => rw [last] at fails; cases fails; exact ⟨_, rfl⟩
  | some byte =>
    rw [last] at fails
    obtain ⟨_, _, _, _, _, rfl⟩ := (decodesExactly _ _ _).refuses e fails
    exact ⟨_, rfl⟩

lemma decodeZoned_error {bytes : List UInt8} {e : ParseError} (fails : decodeZoned bytes = .error e) :
    ∃ message, e = .invalid message := by
  unfold decodeZoned at fails
  cases last : bytes.getLast? with
  | none => rw [last] at fails; cases fails; exact ⟨_, rfl⟩
  | some byte =>
    rw [last] at fails
    obtain ⟨_, _, _, _, _, rfl⟩ := (decodesExactly _ _ _).refuses e fails
    exact ⟨_, rfl⟩

/-- An unsigned number of the accumulator's width that the accumulator does not hold. -/
def TooWide (field : Field) (bytes : List UInt8) : Prop :=
  field.kind = .unsignedInteger ∧ bytes.length = maxBinaryBytes ∧ 2 ^ 127 ≤ bigEndian bytes

/-- A field of an admitted width fails as invalid, unless it is a number too wide for the accumulator. -/
lemma decodeField_error [Unicode] {field : Field} {bytes : List UInt8} {options : DecodeOptions}
    {e : ParseError} (fails : decodeField field bytes options = .error e) (ne : bytes ≠ [])
    (width : bytes.length ≤ widthLimit field.kind) :
    (∃ message, e = .invalid message) ∨
      TooWide field bytes ∧ ∃ message, e = .unsupported message := by
  have mapped {α : Type} {x : Except ParseError α} {f : α → FieldValue}
      (h : x.map f = .error e) : x = .error e := by
    cases x with
    | error e' => cases h; rfl
    | ok a => cases h
  unfold decodeField at fails
  cases kind : field.kind with
  | text =>
    rw [kind] at fails
    have fails := mapped fails
    unfold decodeText at fails
    split at fails
    · cases fails
      exact .inl ⟨_, rfl⟩
    · cases fails
  | integer =>
    rw [kind] at fails width
    cases (decodeBinary_signed ne width).symm.trans (mapped fails)
  | unsignedInteger =>
    rw [kind] at fails width
    have fails := mapped fails
    have decoded := decodeBinary_unsigned ne width
    split_ifs at decoded with small
    · cases decoded.symm.trans fails
    · obtain ⟨message, refused⟩ := decoded
      cases refused.symm.trans fails
      have lt := bigEndian_lt bytes
      refine .inr ⟨⟨kind, ?_, Nat.not_lt.mp small⟩, message, rfl⟩
      by_contra narrow
      have le : 256 ^ bytes.length ≤ 256 ^ 15 := by
        apply Nat.pow_le_pow_right (by decide)
        unfold widthLimit maxBinaryBytes at width
        unfold maxBinaryBytes at narrow
        dsimp only at width
        omega
      omega
  | packedDecimal =>
    rw [kind] at fails
    exact .inl (decodePacked_error (mapped fails))
  | zonedDecimal =>
    rw [kind] at fails
    exact .inl (decodeZoned_error (mapped fails))
  | skip => rw [kind] at fails; cases fails

end Errors

section Rows

variable [Unicode] {layout : Layout} {options : DecodeOptions} {input : List UInt8} {field : Field}

/-- The bytes of the type field of a record that starts at an offset of the input. -/
def typeBytes (layout : Layout) (field : Field) (input : List UInt8) (start : Nat) : List UInt8 :=
  slice input (start + optionalSize layout.recordLengthField)
    (start + (optionalSize layout.recordLengthField + field.size))

/-- A row whose record carries the type `value` and was decoded with the one schema that claims it. -/
structure Routed (layout : Layout) (options : DecodeOptions) (input : List UInt8) (field : Field)
    (row : Pb.RecordRow) (value : FieldValue) (record : RecordLayout) : Prop where
  type : decodeField field (typeBytes layout field input row.byteOffset) options = .ok value
  mem : record ∈ layout.records
  selects : record.selector = some value.toDisplayString
  unique : ∀ other ∈ layout.records, other.selector = some value.toDisplayString → other = record
  name : row.recordType = record.name
  cells : decodeCells record (slice input (row.byteOffset + layout.prefixSize)
    (row.byteOffset + row.byteLength)) options = .ok row.cells

omit [Unicode] in
/-- The type field lies in the prefix, behind the length field. -/
lemma Layout.Valid.prefix_typed (v : layout.Valid) (typed : layout.recordTypeField = some field) :
    layout.prefixSize = optionalSize layout.recordLengthField + field.size := by
  rw [v.prefix_eq, typed]
  rfl

/-- Where a whole prefix is there, its type is that of the input. -/
lemma readType_at (v : layout.Valid) (typed : layout.recordTypeField = some field) {pos : Nat}
    (le : layout.prefixSize ≤ (dataFrom layout input pos).length) :
    readType layout options (dataFrom layout input pos)
      = (decodeField field (typeBytes layout field input pos) options).map
          fun value => some value.toDisplayString := by
  rw [v.prefix_typed typed] at le
  unfold readType typeBytes
  rw [typed]
  dsimp only
  rw [slice_dataFrom _ le]

/-- An emitted row is routed by its type. -/
lemma recordStep_routed (v : layout.Valid) (typed : layout.recordTypeField = some field)
    {σ σ' : WalkState} {row : Pb.RecordRow} {n : Nat}
    (st : recordStep layout options σ (dataFrom layout input σ.pos) = .emit row n σ') :
    ∃ value record, Routed layout options input field row value record := by
  obtain ⟨record, size, cells, _, _, hp, le, hc, rfl, rfl, rfl⟩ := recordStep_emit.mp st
  obtain ⟨_, recordType, _, htype, sel, _⟩ := readPrefix_ok hp
  rw [readType_at v typed (by omega)] at htype
  obtain ⟨value, decoded, rfl⟩ := map_eq_ok.mp htype
  have ne : layout.recordTypeField ≠ none := by
    rw [typed]
    exact Option.some_ne_none field
  obtain ⟨mem, selects⟩ := (Layout.select_iff v ne).mp sel
  rw [slice_dataFrom _ le] at hc
  refine ⟨value, record, decoded, mem, selects, fun other mem' selects' => ?_, rfl, hc⟩
  have again := (Layout.select_iff v ne).mpr ⟨mem', selects'⟩
  exact Option.some.inj (again.symm.trans sel)

/-- What holds of every row a step emits holds of every row of a trace. -/
lemma trace_forall {v : layout.Valid} {P : Pb.RecordRow → Prop} {σ σ' : WalkState}
    {xs rest : List UInt8} {rs : List (Pb.RecordRow × Nat)}
    (emits : ∀ σ row n σ',
      recordStep layout options σ (dataFrom layout input σ.pos) = .emit row n σ' → P row)
    (tr : (recordReader v options).Trace σ xs rs σ' rest) (on : xs = dataFrom layout input σ.pos) :
    ∀ row ∈ rs.map Prod.fst, P row := by
  induction tr with
  | nil => simp
  | @cons σ xs row n σ₁ rs σ' rest st tr ih =>
    subst on
    rw [List.map_cons, List.forall_mem_cons]
    refine ⟨emits σ row n σ₁ st, ih ?_⟩
    obtain ⟨_, _, _, _, _, _, _, _, _, _, rfl⟩ := recordStep_emit.mp st
    exact dataFrom_drop ..

/-- A batch run halts at the end of its last row, on the record data behind it. -/
lemma batch_halt (v : layout.Valid) (options : DecodeOptions) (input : List UInt8) :
    ∃ σ : WalkState,
      σ.pos = layout.headerSize + rowBytes ((batch v options input).1.map Prod.fst) ∧
      σ.recordsKept = ((batch v options input).1.map Prod.fst).length ∧
      (recordReader v options).run σ (dataFrom layout input σ.pos)
        = ([], (batch v options input).2) := by
  obtain ⟨σ, rest, tr, halt⟩ :=
    (recordReader v options).run_trace (walkStart layout) (recordData layout input)
  obtain ⟨tiles, counts, _, _⟩ := trace_rows tr rfl (counts_start v)
  have pos := trace_pos tr
  refine ⟨σ, tiles.sum_eq.symm, counts.kept, ?_⟩
  have rest_eq : rest = dataFrom layout input σ.pos := by
    rw [tr.rest_eq, recordData, dataFrom_drop, pos]
    rfl
  rwa [rest_eq] at halt

/-- A length that is refused is refused as invalid or for being too wide. -/
lemma readLength_error (v : layout.Valid) {pos : Nat} {e : ParseError}
    (le : layout.prefixSize ≤ (dataFrom layout input pos).length)
    (failed : readLength layout options pos (dataFrom layout input pos) = .error e) :
    (∃ message, e = .invalid message) ∨
      ∃ lengthField ∈ layout.recordLengthField,
        TooWide lengthField (slice input pos (pos + lengthField.size)) ∧
          ∃ message, e = .unsupported message := by
  unfold readLength at failed
  cases length : layout.recordLengthField with
  | none => rw [length] at failed; cases failed
  | some lengthField =>
    rw [length] at failed
    obtain ⟨pv, _⟩ := v.lengthField lengthField length
    have room : lengthField.size ≤ (dataFrom layout input pos).length := by
      have eq := v.prefix_eq
      simp only [length, optionalSize, Option.map_some, Option.getD_some] at eq
      omega
    dsimp only at failed
    rw [slice_dataFrom 0 room, Nat.add_zero] at failed
    split at failed
    · next e' decoded =>
      cases failed
      have size_pos := pv.size_pos
      have len : (slice input pos (pos + lengthField.size)).length = lengthField.size := by
        rw [dataFrom_length] at room
        rw [slice_length]
        omega
      have some_byte : slice input pos (pos + lengthField.size) ≠ [] :=
        List.ne_nil_of_length_pos (by omega)
      have width := pv.width
      rw [← len] at width
      -- Validation bounds the width, so only the accumulator of an unsigned length can overflow.
      rcases decodeField_error decoded some_byte width with invalid | wide
      · exact .inl invalid
      · exact .inr ⟨lengthField, rfl, wide⟩
    · split at failed
      · cases failed
      · cases failed
        exact .inl ⟨_, rfl⟩

/-- A prefix whose type no schema claims is refused: as invalid, unless its length is refused first for
being too wide. -/
lemma readPrefix_unmatched (v : layout.Valid) (typed : layout.recordTypeField = some field)
    {pos : Nat} {value : FieldValue} (le : layout.prefixSize ≤ (dataFrom layout input pos).length)
    (type : decodeField field (typeBytes layout field input pos) options = .ok value)
    (unclaimed : ∀ record ∈ layout.records, record.selector ≠ some value.toDisplayString) :
    ∃ e, readPrefix layout options pos (dataFrom layout input pos) = .error e ∧
      ((∃ message, e = .invalid message) ∨
        ∃ lengthField ∈ layout.recordLengthField,
          TooWide lengthField (slice input pos (pos + lengthField.size)) ∧
            ∃ message, e = .unsupported message) := by
  have ne : layout.recordTypeField ≠ none := by
    rw [typed]
    exact Option.some_ne_none field
  have none : layout.select (some value.toDisplayString) = none := by
    cases sel : layout.select (some value.toDisplayString) with
    | none => rfl
    | some record =>
      obtain ⟨mem, selects⟩ := (Layout.select_iff v ne).mp sel
      exact absurd selects (unclaimed record mem)
  unfold readPrefix
  -- The length is read before the type, and its error hides that no schema claims the record.
  cases hlen : readLength layout options pos (dataFrom layout input pos) with
  | ok declared =>
    rw [readType_at v typed le, type]
    simp only [ok_bind, Except.map, none]
    exact ⟨_, rfl, .inl ⟨_, rfl⟩⟩
  | error e => exact ⟨e, rfl, readLength_error v le hlen⟩

/-- A walk that meets a record whose type no schema claims ends there. -/
lemma walk_unmatched (v : layout.Valid) (typed : layout.recordTypeField = some field)
    {chunks : List (List UInt8)} {value : FieldValue}
    (more : options.maxRecords = 0 ∨ (walk layout options chunks).1.length < options.maxRecords)
    (there : layout.headerSize + rowBytes (walk layout options chunks).1 + layout.prefixSize
      + layout.footerSize ≤ chunks.flatten.length)
    (type : decodeField field (typeBytes layout field chunks.flatten
      (layout.headerSize + rowBytes (walk layout options chunks).1)) options = .ok value)
    (unclaimed : ∀ record ∈ layout.records, record.selector ≠ some value.toDisplayString) :
    ∃ e, (walk layout options chunks).2 = .failed e ∧
      ((∃ message, e = .invalid message) ∨
        ∃ lengthField ∈ layout.recordLengthField,
          TooWide lengthField (slice chunks.flatten
            (layout.headerSize + rowBytes (walk layout options chunks).1)
            (layout.headerSize + rowBytes (walk layout options chunks).1 + lengthField.size)) ∧
          ∃ message, e = .unsupported message) := by
  rw [walk_eq v] at more there type ⊢
  dsimp only [wholeWalk] at more there type ⊢
  -- The walk stands behind its rows, where the prefix of the next record is all there.
  obtain ⟨σ, pos, kept, halt⟩ := batch_halt v options chunks.flatten
  rw [← pos] at there type ⊢
  have nf : ¬ σ.Full options := by
    rintro ⟨limited, many⟩
    rw [kept] at many
    omega
  have size_pos : 0 < layout.prefixSize := by
    have pv := v.typeField field typed
    rw [v.prefix_typed typed]
    exact Nat.add_pos_right _ pv.size_pos
  have le : layout.prefixSize ≤ (dataFrom layout chunks.flatten σ.pos).length := by
    rw [dataFrom_length]
    omega
  obtain ⟨e, refused, kind⟩ := readPrefix_unmatched v typed le type unclaimed
  have fails : recordStep layout options σ (dataFrom layout chunks.flatten σ.pos) = .fail e := by
    have short : ¬(dataFrom layout chunks.flatten σ.pos).length < layout.prefixSize :=
      Nat.not_lt.mpr le
    have empty : ¬(layout.prefixSize = 0 ∧ (dataFrom layout chunks.flatten σ.pos).length = 0) :=
      fun none => size_pos.ne' none.1
    rw [recordStep, if_neg nf, if_neg short, if_neg empty, refused]
  rw [(recordReader v options).run_fail fails] at halt
  rw [← congrArg Prod.snd halt]
  exact ⟨e, rfl, kind⟩

end Rows

section Order

/-- Two states of the reader that differ in the order of their counters at most. -/
structure SameCounts (σ τ : WalkState) : Prop where
  pos : σ.pos = τ.pos
  kept : σ.recordsKept = τ.recordsKept
  rows : σ.rowsPerType.Perm τ.rowsPerType
  distinct : (AssocList.keys σ.rowsPerType).Nodup

namespace SameCounts

variable {σ τ : WalkState}

lemma rowIndex (same : SameCounts σ τ) (name : String) : σ.rowIndex name = τ.rowIndex name := by
  rw [WalkState.rowIndex, WalkState.rowIndex, AssocList.lookup_perm same.distinct same.rows]

lemma advance (same : SameCounts σ τ) (record : RecordLayout) (total : Nat) :
    SameCounts (σ.advance record total) (τ.advance record total) := by
  refine ⟨?_, ?_, ?_, AssocList.nodup_insert same.distinct _ _⟩
  · simp only [WalkState.advance, same.pos]
  · simp only [WalkState.advance, same.kept]
  · simp only [WalkState.advance, same.rowIndex]
    exact AssocList.insert_perm same.distinct same.rows _ _

lemma full (same : SameCounts σ τ) (options : DecodeOptions) : σ.Full options ↔ τ.Full options := by
  rw [WalkState.Full, WalkState.Full, same.kept]

end SameCounts

variable {layout : Layout} {records : List RecordLayout}

/-- The layout with its schemas in another order. -/
def Layout.reordered (layout : Layout) (records : List RecordLayout) : Layout :=
  { layout with records := records }

/-- Reordering keeps a layout valid. -/
lemma Layout.Valid.reordered (v : layout.Valid) (perm : layout.records.Perm records) :
    (layout.reordered records).Valid where
  records_ne none := v.records_ne (List.perm_nil.mp (none ▸ perm))
  record r mem := v.record r (perm.mem_iff.mpr mem)
  names := (perm.map _).nodup_iff.mp v.names
  footer_le := v.footer_le
  prefix_eq := v.prefix_eq
  lengthField := v.lengthField
  typeField := v.typeField
  single none := perm.length_eq.symm.trans (v.single none)
  selectors typed :=
    ⟨fun r mem => (v.selectors typed).1 r (perm.mem_iff.mpr mem),
      (perm.map _).nodup_iff.mp (v.selectors typed).2⟩

/-- In another order the same schema is selected. -/
lemma Layout.Valid.select_reordered (v : layout.Valid) (perm : layout.records.Perm records)
    (typed : layout.recordTypeField ≠ none) (value : String) :
    (layout.reordered records).select (some value) = layout.select (some value) := by
  refine Option.ext fun record => ?_
  rw [Layout.select_iff v typed, Layout.select_iff (v.reordered perm) typed, perm.mem_iff]
  rfl

variable [Unicode] {options : DecodeOptions} {field : Field}

/-- A prefix reads the same in any order of the schemas. -/
lemma readPrefix_reordered (v : layout.Valid) (perm : layout.records.Perm records)
    (typed : layout.recordTypeField = some field) (base : Nat) (xs : List UInt8) :
    readPrefix (layout.reordered records) options base xs = readPrefix layout options base xs := by
  have ne : layout.recordTypeField ≠ none := by
    rw [typed]
    exact Option.some_ne_none field
  have length : readLength (layout.reordered records) options base xs
      = readLength layout options base xs := rfl
  have type : readType (layout.reordered records) options xs = readType layout options xs := rfl
  unfold readPrefix
  rw [length, type]
  cases readLength layout options base xs with
  | error e => rfl
  | ok declared =>
    cases read : readType layout options xs with
    | error e => rfl
    | ok recordType =>
      unfold readType at read
      rw [typed] at read
      obtain ⟨value, _, rfl⟩ := map_eq_ok.mp read
      simp only [ok_bind, v.select_reordered perm ne]
      rfl

/-- In any order of the schemas the reader decides alike. -/
lemma recordStep_reordered (v : layout.Valid) (perm : layout.records.Perm records)
    (typed : layout.recordTypeField = some field) {σ τ : WalkState} (xs : List UInt8)
    (same : SameCounts σ τ) :
    Step.Alike SameCounts (recordStep layout options σ xs)
      (recordStep (layout.reordered records) options τ xs) := by
  have size : (layout.reordered records).prefixSize = layout.prefixSize := rfl
  unfold recordStep
  rw [readPrefix_reordered v perm typed, same.pos, size]
  simp only [same.full options]
  split_ifs
  · exact .stop
  · exact .wait
  · exact .wait
  · cases readPrefix layout options τ.pos xs with
    | error e => exact .fail
    | ok found =>
      obtain ⟨record, bodySize⟩ := found
      dsimp only
      split_ifs
      · exact .wait
      · cases decodeCells record (slice xs layout.prefixSize (layout.prefixSize + bodySize))
            options with
        | error e => exact .fail
        | ok cells =>
          have row : σ.row record (layout.prefixSize + bodySize) cells
              = τ.row record (layout.prefixSize + bodySize) cells := by
            simp only [WalkState.row, same.rowIndex, same.kept, same.pos]
          dsimp only
          rw [row]
          exact .emit (same.advance record _)

/-- Two ends of a walk that differ in the order of the counts at most. -/
def WalkEnd.Same : WalkEnd → WalkEnd → Prop
  | .failed e, .failed e' => e = e'
  | .finished (.error e), .finished (.error e') => e = e'
  | .finished (.ok status), .finished (.ok status') =>
    status'.rowsPerRecordType.Perm status.rowsPerRecordType ∧
      status' = { status with rowsPerRecordType := status'.rowsPerRecordType }
  | _, _ => False

omit [Unicode] in
/-- A trailer reads the counts of the schemas, and nothing else that depends on their order. -/
lemma status_rows (s : RecordStream) (records : List RecordLayout) (rows : List (String × Nat)) :
    { s with layout := s.layout.reordered records, rowsPerType := rows }.status
      = s.status.map fun status => { status with rowsPerRecordType := rows } := by
  unfold RecordStream.status
  rw [apply_ite (Except.map _), apply_ite (Except.map _), apply_ite (Except.map _),
    apply_ite (Except.map _)]
  rfl

omit [Unicode] in
/-- The trailers of such walks differ in the order of the counts at most. -/
lemma status_reordered (length : Nat) {σ τ : WalkState} (same : SameCounts σ τ) :
    (WalkEnd.finished (atEnd layout options length σ).status).Same
      (.finished (atEnd (layout.reordered records) options length τ).status) := by
  obtain ⟨pos, kept, counts⟩ := σ
  obtain ⟨pos', kept', counts'⟩ := τ
  obtain ⟨rfl, rfl, perm, _⟩ := same
  have eq := status_rows (atEnd layout options length ⟨pos, kept, counts⟩) records counts'
  rw [show (atEnd (layout.reordered records) options length ⟨pos, kept, counts'⟩).status = _ from eq]
  cases done : (atEnd layout options length ⟨pos, kept, counts⟩).status with
  | error e => exact rfl
  | ok status =>
    obtain ⟨_, rfl⟩ := RecordStream.status_ok done
    exact ⟨perm.symm, rfl⟩

omit [Unicode] in
lemma sameCounts_start (v : layout.Valid) (perm : layout.records.Perm records) :
    SameCounts (walkStart layout) (walkStart (layout.reordered records)) := by
  have distinct {layout : Layout} (v : layout.Valid) :
      (AssocList.keys (layout.records.map fun record => (record.name, 0))).Nodup := by
    simpa [AssocList.keys, Function.comp_def] using v.names
  have start := AssocList.collect_of_nodup (distinct v)
  have start' := AssocList.collect_of_nodup (distinct (v.reordered perm))
  refine ⟨rfl, rfl, ?_, ?_⟩
  · simp only [walkStart]
    rw [start, start']
    exact perm.map _
  · simp only [walkStart]
    rw [start]
    exact distinct v

/-- In any order of the schemas a walk emits the same rows and ends the same. -/
lemma walk_reordered (v : layout.Valid) (perm : layout.records.Perm records)
    (typed : layout.recordTypeField = some field) (chunks : List (List UInt8)) :
    (walk (layout.reordered records) options chunks).1 = (walk layout options chunks).1 ∧
      (walk layout options chunks).2.Same (walk (layout.reordered records) options chunks).2 := by
  have v' := v.reordered perm
  have data : recordData (layout.reordered records) chunks.flatten
      = recordData layout chunks.flatten := rfl
  have decides (σ τ : WalkState) (xs : List UInt8) (same : SameCounts σ τ) :
      Step.Alike SameCounts ((recordReader v options).step σ xs)
        ((recordReader v' options).step τ xs) := recordStep_reordered v perm typed xs same
  obtain ⟨rows, halt⟩ := Reader.run_alike decides (sameCounts_start v perm)
    (recordData layout chunks.flatten)
  rw [walk_eq v, walk_eq v']
  unfold wholeWalk batch
  rw [data]
  refine ⟨congrArg (List.map Prod.fst) rows.symm, ?_⟩
  dsimp only
  generalize ((recordReader v options).run _ _).2 = h at halt ⊢
  generalize ((recordReader v' options).run _ _).2 = h' at halt ⊢
  cases halt with
  | waiting same => exact status_reordered _ same
  | stopped same => exact status_reordered _ same
  | failed => exact rfl

end Order

/-- Routing depends on the selector alone. Every row is decoded with the one schema whose selector is the
displayed value of its type; a record whose value no schema claims ends the walk; and the order of the
schemas changes neither the rows, nor the end of the walk, nor the counts. -/
theorem routing_by_selector [Unicode] [SerdeJson] {request : Pb.ParseOptions} {layout : Layout}
    {field : Field} (ok : resolve request = .ok layout)
    (typed : layout.recordTypeField = some field) (options : DecodeOptions)
    (chunks : List (List UInt8)) :
    let rows := (walk layout options chunks).1
    let stop := layout.headerSize + rowBytes rows
    (∀ row ∈ rows, ∃ value record,
      Routed layout options chunks.flatten field row value record) ∧
    (∀ value, (options.maxRecords = 0 ∨ rows.length < options.maxRecords) →
      stop + layout.prefixSize + layout.footerSize ≤ chunks.flatten.length →
      decodeField field (typeBytes layout field chunks.flatten stop) options = .ok value →
      (∀ record ∈ layout.records, record.selector ≠ some value.toDisplayString) →
      ∃ e, (walk layout options chunks).2 = .failed e ∧
        ((∃ message, e = .invalid message) ∨
          ∃ lengthField ∈ layout.recordLengthField,
            TooWide lengthField (slice chunks.flatten stop (stop + lengthField.size)) ∧
              ∃ message, e = .unsupported message)) ∧
    ∀ records, layout.records.Perm records →
      (walk (layout.reordered records) options chunks).1 = rows ∧
      (walk layout options chunks).2.Same (walk (layout.reordered records) options chunks).2 := by
  intro rows stop
  have v := resolve_valid ok
  refine ⟨?_, fun value more there type unclaimed => walk_unmatched v typed more there type unclaimed,
    fun records perm => walk_reordered v perm typed chunks⟩
  obtain ⟨σ, rest, tr, _⟩ :=
    (recordReader v options).run_trace (walkStart layout) (recordData layout chunks.flatten)
  change ∀ row ∈ (walk layout options chunks).1, _
  rw [walk_eq v]
  exact trace_forall (fun _ _ _ _ st => recordStep_routed v typed st) tr rfl

section Sample

attribute [local instance] asciiUnicode noJson

/-- A field of one letter, as a request declares it. -/
def letterField (name : String) : Pb.EbcdicField where
  name := name
  size := 1
  type := 1
  scale := 0
  picture := ""
  offset := none

/-- A request for records of two types behind a length of sixteen bytes. -/
def routeRequest : Pb.ParseOptions where
  layoutSource := some (.layout {
    records := [
      { name := "open", fields := [letterField "DOOR"], selector := some "A" },
      { name := "shut", fields := [letterField "GATE"], selector := some "B" }]
    recordLengthField := some
      { name := "LENGTH", size := 16, type := 3, scale := 0, picture := "", offset := none }
    recordTypeField := some (letterField "TYPE") })

/-- The resolved field of one letter. -/
def letterColumn (name : String) (offset : Nat) : Field where
  name := name
  offset := offset
  size := 1
  kind := .text
  scale := 0
  picture := ""
  declaration := { path := name }

/-- The layout of the request. -/
def routeLayout : Layout where
  records := [
    { name := "open", fields := [letterColumn "DOOR" 0], size := 1, selector := some "A" },
    { name := "shut", fields := [letterColumn "GATE" 0], size := 1, selector := some "B" }]
  description := ""
  headerSize := 0
  footerSize := 0
  recordLengthField := some
    { name := "LENGTH", offset := 0, size := 16, kind := .unsignedInteger, scale := 0,
      picture := "", declaration := { path := "LENGTH" } }
  recordTypeField := some (letterColumn "TYPE" 16)
  prefixSize := 17
  source := .proto

lemma resolve_route : resolve routeRequest = .ok routeLayout := rfl

/-- A record of the second type. -/
def routeRecord : List UInt8 := List.replicate 15 0 ++ [18, 0xc2, 0xc1]

/-- Its row. -/
def routeRow : Pb.RecordRow where
  recordType := "shut"
  rowIndex := 0
  recordIndex := 0
  byteOffset := 0
  byteLength := 18
  cells := [{ name := "GATE", type := 1, value := some (.text "A") }]

theorem routing_by_selector_sample :
    (walk routeLayout sampleOptions [routeRecord]).1 = [routeRow] ∧
      (walk (routeLayout.reordered routeLayout.records.reverse) sampleOptions [routeRecord]).1
        = [routeRow] := by
  have rows : (walk routeLayout sampleOptions [routeRecord]).1 = [routeRow] := rfl
  obtain ⟨_, _, order⟩ := routing_by_selector resolve_route rfl sampleOptions [routeRecord]
  exact ⟨rows, (order _ (List.reverse_perm _).symm).1.trans rows⟩

/-- A prefix of a type no schema claims, with a length too wide for the accumulator. -/
def wideRecord : List UInt8 := List.replicate 16 0xff ++ [0xc3]

/-- Its length is refused before its type is read, and not as invalid. -/
theorem unclaimed_not_invalid :
    resolve routeRequest = .ok routeLayout ∧
      decodeField (letterColumn "TYPE" 16) (typeBytes routeLayout (letterColumn "TYPE" 16) wideRecord 0)
        sampleOptions = .ok (.text "C") ∧
      (∀ record ∈ routeLayout.records,
        record.selector ≠ some (FieldValue.text "C").toDisplayString) ∧
      ∃ message, walk routeLayout sampleOptions [wideRecord] = ([], .failed (.unsupported message)) :=
  ⟨resolve_route, rfl, by decide, _, rfl⟩

end Sample

end GrpcEbcdic

import GrpcEbcdic.Stream.Files

/-!
# Rewritten files

Whatever a walk emits can be written. So every input has a file in the preferred storage that gives the
same rows: what the decoders let pass beyond it, they read as if it had been stored so.
-/

namespace GrpcEbcdic
open Rust Fallible Incremental

section Rewrite

variable [Unicode] {layout : Layout} {options : DecodeOptions}

/-- The cells of a record hold values its data fields can store. -/
lemma storeFields_cells {record : RecordLayout} {body : List UInt8} {start stop : Nat}
    {fields : List Field} {cells : List Pb.Cell} (pl : Placed start fields stop)
    (data : ∀ f ∈ fields, f.kind ≠ .skip)
    (decoded : List.Forall₂ (fun field cell => decodeCell record body options field = .ok cell) fields cells) :
    (∀ f ∈ fields, f.stop ≤ body.length) ∧ ∃ values bytes,
      storeFields options.codec start fields values = some bytes ∧
      List.zipWith (Entry.cell options) fields values = cells := by
  induction decoded generalizing start with
  | nil => exact ⟨fun _ mem => absurd mem List.not_mem_nil, [], [], rfl, rfl⟩
  | @cons field cell fields cells reads _ ih =>
    obtain ⟨own, rest⟩ := List.forall_mem_cons.mp data
    cases pl with
    | cons off pos pl =>
      obtain ⟨inside, values, behind, behind_eq, rows⟩ := ih pl rest
      unfold decodeCell at reads
      cases there : getSlice body field.offset field.stop with
      | none => rw [there] at reads; cases reads
      | some bytes =>
        rw [there] at reads
        dsimp only at reads
        unfold getSlice at there
        split_ifs at there with fits
        cases there
        have length : (slice body field.offset field.stop).length = field.size := by
          rw [slice_length, min_eq_left fits.2, Field.stop, Nat.add_sub_cancel_left]
        cases dec : decodeField field (slice body field.offset field.stop) options with
        | error e => rw [dec] at reads; cases reads
        | ok value =>
          rw [dec] at reads
          cases reads
          obtain ⟨⟨image, stored⟩, tidied⟩ := reads_store length pos own dec
          have all : ∃ bytes, storeFields options.codec start (field :: fields) (value :: values)
              = some bytes :=
            ⟨_, Option.bind_eq_some_iff.mpr ⟨image, stored,
              Option.bind_eq_some_iff.mpr ⟨behind, behind_eq, rfl⟩⟩⟩
          refine ⟨List.forall_mem_cons.mpr ⟨fits.2, inside⟩, value :: values, all.imp fun _ eq => ⟨eq, ?_⟩⟩
          · rw [List.zipWith_cons_cons, rows, Entry.cell, tidied]

/-- The length a record declares can be written. -/
lemma length_written (v : layout.Valid) {base size : Nat} {xs : List UInt8} {declared : Option Int}
    {record : RecordLayout} (room : layout.prefixSize ≤ xs.length)
    (length : readLength layout options base xs = .ok declared)
    (body : bodySize layout base record declared = .ok size) :
    ∃ value bytes, storePrefix options.codec layout.recordLengthField value = some bytes ∧
      Declares layout options record size value := by
  have eq := v.prefix_eq
  cases has : layout.recordLengthField with
  | none =>
    unfold readLength at length
    rw [has] at length
    cases length
    exact ⟨none, [], rfl, bodySize_none body⟩
  | some field =>
    rw [has] at eq
    have pv := (v.lengthField field has).1
    have whole : (slice xs 0 field.size).length = field.size := by
      rw [slice_length, min_eq_left, Nat.sub_zero]
      exact le_trans (by rw [eq]; exact Nat.le_add_right _ _) room
    cases declared with
    | none =>
      unfold readLength at length
      rw [has] at length
      dsimp only at length
      cases dec : decodeField field (slice xs 0 field.size) options with
      | error e => rw [dec] at length; cases length
      | ok value =>
        rw [dec] at length
        cases len : value.toLength with
        | none => simp only [len] at length; cases length
        | some n => simp only [len] at length; cases length
    | some n =>
      obtain ⟨value, dec, len⟩ := (readLength_some has).mp length
      obtain ⟨wrapped, small⟩ := bodySize_ok.mp body
      have fits := decodeField_fits dec (whole.symm ▸ pv.width) len
      obtain ⟨⟨image, stored⟩, tidied⟩ := reads_store whole pv.size_pos pv.kind_ne dec
      refine ⟨some value, image, stored, ?_, small⟩
      rw [tidied, len, wrapI128_sub_eq fits v.prefix_lt small wrapped]
      rfl

/-- The type of a record can be written. -/
lemma type_written (v : layout.Valid) {xs : List UInt8} {recordType : Option String}
    (room : layout.prefixSize ≤ xs.length) (type : readType layout options xs = .ok recordType) :
    ∃ value bytes, storePrefix options.codec layout.recordTypeField value = some bytes ∧
      recordType = value.map fun value => (value.tidy options).toDisplayString := by
  have eq := v.prefix_eq
  unfold readType at type
  cases has : layout.recordTypeField with
  | none =>
    rw [has] at type
    cases type
    exact ⟨none, [], rfl, rfl⟩
  | some field =>
    rw [has] at type eq
    have pv := v.typeField field has
    obtain ⟨value, dec, rfl⟩ := map_eq_ok.mp type
    have whole : (slice xs (optionalSize layout.recordLengthField)
        (optionalSize layout.recordLengthField + field.size)).length = field.size := by
      have room' : optionalSize layout.recordLengthField + field.size ≤ xs.length := eq ▸ room
      rw [slice_length, min_eq_left room', Nat.add_sub_cancel_left]
    obtain ⟨⟨image, stored⟩, tidied⟩ := reads_store whole pv.size_pos pv.kind_ne dec
    refine ⟨some value, image, stored, ?_⟩
    rw [Option.map_some, tidied]

/-- Every record the reader takes can be written, to the same row. -/
lemma emitted_written (v : layout.Valid) {before : List Pb.RecordRow} {σ σ' : WalkState}
    (stands : Stands layout before σ) {xs : List UInt8} {row : Pb.RecordRow} {n : Nat}
    (emits : recordStep layout options σ xs = .emit row n σ') :
    ∃ (entry : Entry) (bytes : List UInt8), entry.write layout options = some bytes ∧
      row = entry.row layout options before ∧ Stands layout (before ++ [row]) σ' := by
  obtain ⟨record, size, cells, _, _, first, le, decoded, rfl, rfl, rfl⟩ := recordStep_emit.mp emits
  obtain ⟨declared, recordType, length_eq, type_eq, schema, size_eq⟩ := readPrefix_ok first
  have mem := Layout.select_mem schema
  have room : layout.prefixSize ≤ xs.length := (Nat.le_add_right _ _).trans le
  obtain ⟨length, length_bytes, length_stored, declares⟩ := length_written v room length_eq size_eq
  obtain ⟨type, type_bytes, type_stored, rfl⟩ := type_written v room type_eq
  obtain ⟨stop, pl⟩ := (v.record record mem).placed.filter (·.kind ≠ .skip) (Nat.le_refl 0)
  have data : ∀ f ∈ record.dataFields, f.kind ≠ .skip := fun f mem => by
    simpa using (List.mem_filter.mp mem).2
  obtain ⟨inside, values, body, body_stored, rows⟩ := storeFields_cells pl data (mapM_eq_ok.mp decoded)
  have width : ∀ f ∈ record.dataFields, f.size ≤ widthLimit f.kind := fun f mem' =>
    (v.record record mem).width f (List.mem_filter.mp mem').1
  obtain ⟨ends, _⟩ := storeFields_reads pl width body_stored
  have fits : body.length ≤ size := by
    have stops := pl.end_le inside (Nat.zero_le _)
    rw [slice_length] at stops
    omega
  have written : ∃ bytes, (Entry.mk record length type values size).write layout options = some bytes :=
    ⟨_, Option.bind_eq_some_iff.mpr ⟨length_bytes, length_stored,
      Option.bind_eq_some_iff.mpr ⟨type_bytes, type_stored,
        Option.bind_eq_some_iff.mpr ⟨_, Option.bind_eq_some_iff.mpr ⟨body, body_stored, if_pos fits⟩,
          if_pos ⟨schema, declares⟩⟩⟩⟩⟩
  obtain ⟨bytes, written⟩ := written
  have same : σ.row record (layout.prefixSize + size) cells
      = (Entry.mk record length type values size).row layout options before := by
    apply (stands.row v ⟨record, size, cells, bytes⟩ mem).trans
    rw [← rows]
    rfl
  refine ⟨_, bytes, written, same, ?_⟩
  rw [stands.row v ⟨record, size, cells, bytes⟩ mem]
  exact stands.advance v ⟨record, size, cells, bytes⟩ mem

/-- Whatever the reader emits can be written. -/
lemma trace_written (v : layout.Valid) {before : List Pb.RecordRow} {σ σ' : WalkState}
    (stands : Stands layout before σ) {xs rest : List UInt8} {rs : List (Pb.RecordRow × Nat)}
    (tr : (recordReader v options).Trace σ xs rs σ' rest) :
    ∃ entries data, writeRecords layout options entries = some data ∧
      rs.map Prod.fst = writtenRows layout options before entries := by
  induction tr generalizing before with
  | nil => exact ⟨[], [], rfl, rfl⟩
  | cons emits _ ih =>
    obtain ⟨entry, bytes, written, rfl, stands'⟩ := emitted_written v stands emits
    obtain ⟨entries, behind, behind_eq, rows⟩ := ih stands'
    refine ⟨entry :: entries, bytes ++ behind, ?_, ?_⟩
    · exact Option.bind_eq_some_iff.mpr ⟨bytes, written,
        Option.bind_eq_some_iff.mpr ⟨behind, behind_eq, rfl⟩⟩
    · rw [List.map_cons, rows, writtenRows]

end Rewrite

section Files

variable {layout : Layout} {options : DecodeOptions} [Unicode] [SerdeJson] {request : Pb.ParseOptions}

omit [Unicode] [SerdeJson] in
/-- What a file holds does not depend on how many records are asked for. -/
lemma written_unlimited (options : DecodeOptions) (entries : List Entry) (before : List Pb.RecordRow) :
    writeRecords layout options.unlimited entries = writeRecords layout options entries ∧
      writtenRows layout options.unlimited before entries = writtenRows layout options before entries := by
  induction entries generalizing before with
  | nil => exact ⟨rfl, rfl⟩
  | cons entry entries ih =>
    have write : entry.write layout options.unlimited = entry.write layout options := rfl
    have row : entry.row layout options.unlimited before = entry.row layout options before := rfl
    constructor
    · rw [writeRecords, writeRecords, write, (ih before).1]
    · rw [writtenRows, writtenRows, row, (ih _).2]

/-- The rows of any walk are those of a file in the preferred storage, with any header and footer, as long
as the rows it holds: that file is walked to them without a warning. -/
theorem rows_rewritten (ok : resolve request = .ok layout) (chunks : List (List UInt8))
    {header footer : List UInt8} (head : header.length = layout.headerSize)
    (foot : footer.length = layout.footerSize) :
    ∃ entries file, writeFile layout options header entries footer = some file ∧
      file.length = header.length + rowBytes (walk layout options chunks).1 + footer.length ∧
      ∀ again, again.flatten = file → walk layout options.unlimited again
        = ((walk layout options chunks).1, .finished (.ok (fileStatus layout entries file))) := by
  have v := resolve_valid ok
  obtain ⟨σ, rest, tr, _⟩ := (recordReader v options).run_trace (walkStart layout)
    (recordData layout chunks.flatten)
  obtain ⟨entries, data, written, rows⟩ := trace_written v (stands_start v) tr
  have walked : (walk layout options chunks).1 = writtenRows layout options [] entries := by
    rw [walk_eq v]
    exact rows
  have file : writeFile layout options header entries footer = some (header ++ data ++ footer) :=
    Option.bind_eq_some_iff.mpr ⟨data, written, if_pos ⟨head, foot⟩⟩
  refine ⟨entries, header ++ data ++ footer, file, ?_, fun again whole => ?_⟩
  · rw [List.length_append, List.length_append, walked, writeRecords_length v written []]
  · obtain ⟨same, rows⟩ := written_unlimited options entries []
    rw [walked, ← rows]
    exact walk_written v head foot (same.trans written) (.inl rfl) whole

end Files

section Sample

attribute [local instance] asciiUnicode noJson

theorem rows_rewritten_sample :
    ∃ entries file, writeFile sampleLayout sampleOptions [1, 2] entries [3] = some file ∧
      file.length = 2 + rowBytes (walk sampleLayout sampleOptions sampleChunks).1 + 1 ∧
      ∀ again, again.flatten = file → walk sampleLayout sampleOptions.unlimited again
        = ((walk sampleLayout sampleOptions sampleChunks).1,
          .finished (.ok (fileStatus sampleLayout entries file))) :=
  rows_rewritten resolve_sample sampleChunks rfl rfl

end Sample

end GrpcEbcdic

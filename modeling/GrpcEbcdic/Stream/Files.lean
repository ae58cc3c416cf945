import GrpcEbcdic.Stream.Passages
import GrpcEbcdic.Stream.Storage

/-!
# Written files

A file of records, written for a layout: a header, the records with their prefixes, and a footer. A file
that is written is walked to the rows that were written, however it is cut into chunks.
-/

namespace GrpcEbcdic
open Rust Fallible Incremental

/-- The fields of a schema that are decoded. -/
def RecordLayout.dataFields (record : RecordLayout) : List Field :=
  record.fields.filter (·.kind ≠ .skip)

/-- A record to write. -/
structure Entry where
  record : RecordLayout
  /-- What the prefix fields hold. -/
  length : Option FieldValue
  type : Option FieldValue
  /-- What the data fields hold, in their order. -/
  values : List FieldValue
  /-- Bytes the body takes. -/
  size : Nat

/-- The bytes of some fields from the position `start` on, with blanks between them. -/
def storeFields (codec : Codec) (start : Nat) : List Field → List FieldValue → Option (List UInt8)
  | [], [] => some []
  | field :: fields, value :: values => do
    let image ← field.store codec value
    let behind ← storeFields codec field.stop fields values
    some (List.replicate (field.offset - start) blank ++ image ++ behind)
  | _, _ => none

/-- The bytes of a prefix field, if there is one. -/
def storePrefix (codec : Codec) : Option Field → Option FieldValue → Option (List UInt8)
  | none, none => some []
  | some field, some value => field.store codec value
  | _, _ => none

/-- What the length field holds declares the bytes of a record with a body of so many bytes. -/
def Declares (layout : Layout) (options : DecodeOptions) (record : RecordLayout) (size : Nat) :
    Option FieldValue → Prop
  | none => size = record.size
  | some value =>
    (value.tidy options).toLength = some ((layout.prefixSize + size : Nat) : Int) ∧ size ≤ maxRecordBytes

instance (layout : Layout) (options : DecodeOptions) (record : RecordLayout) (size : Nat) :
    (value : Option FieldValue) → Decidable (Declares layout options record size value)
  | none => inferInstanceAs (Decidable (_ = _))
  | some _ => inferInstanceAs (Decidable (_ ∧ _))

namespace Entry

/-- The prefix of a record selects its schema, and declares the bytes it takes. -/
def Fits (layout : Layout) (options : DecodeOptions) (entry : Entry) : Prop :=
  layout.select (entry.type.map fun value => (value.tidy options).toDisplayString) = some entry.record ∧
    Declares layout options entry.record entry.size entry.length

instance (layout : Layout) (options : DecodeOptions) (entry : Entry) :
    Decidable (entry.Fits layout options) := inferInstanceAs (Decidable (_ ∧ _))

/-- The body of a record: its data fields, with blanks behind them. -/
def body (codec : Codec) (entry : Entry) : Option (List UInt8) := do
  let data ← storeFields codec 0 entry.record.dataFields entry.values
  if data.length ≤ entry.size then some (data ++ List.replicate (entry.size - data.length) blank)
  else none

/-- The bytes of a record. -/
def write (layout : Layout) (options : DecodeOptions) (entry : Entry) : Option (List UInt8) := do
  let length ← storePrefix options.codec layout.recordLengthField entry.length
  let type ← storePrefix options.codec layout.recordTypeField entry.type
  let body ← entry.body options.codec
  if entry.Fits layout options then some (length ++ type ++ body) else none

/-- The cell of a field that holds a value. -/
def cell (options : DecodeOptions) (field : Field) (value : FieldValue) : Pb.Cell where
  name := field.name
  type := field.kind.toProto.toI32
  value := some (toCellValue (value.tidy options) field.scale)

/-- The row of a record behind the rows `before`. -/
def row (layout : Layout) (options : DecodeOptions) (before : List Pb.RecordRow) (entry : Entry) :
    Pb.RecordRow where
  recordType := entry.record.name
  rowIndex := rowsOf before entry.record.name
  recordIndex := before.length
  byteOffset := layout.headerSize + rowBytes before
  byteLength := layout.prefixSize + entry.size
  cells := List.zipWith (cell options) entry.record.dataFields entry.values

end Entry

section Write

variable (layout : Layout) (options : DecodeOptions)

/-- The bytes of some records. -/
def writeRecords : List Entry → Option (List UInt8)
  | [] => some []
  | entry :: entries => do
    let bytes ← entry.write layout options
    let behind ← writeRecords entries
    some (bytes ++ behind)

/-- The bytes of a file. -/
def writeFile (header : List UInt8) (entries : List Entry) (footer : List UInt8) : Option (List UInt8) := do
  let data ← writeRecords layout options entries
  if header.length = layout.headerSize ∧ footer.length = layout.footerSize then
    some (header ++ data ++ footer)
  else none

/-- The rows of some records behind the rows `before`. -/
def writtenRows (before : List Pb.RecordRow) : List Entry → List Pb.RecordRow
  | [] => []
  | entry :: entries =>
    let row := entry.row layout options before
    row :: writtenRows (before ++ [row]) entries

end Write

section Fields

lemma slice_behind (xs ys : List UInt8) (a b : Nat) :
    slice (xs ++ ys) (xs.length + a) (xs.length + b) = slice ys a b := by
  rw [slice, slice, List.take_length_add_append, List.drop_length_add_append]

/-- Some of the fields of a placement are placed. -/
lemma Placed.filter {c : Nat} {fs : List Field} {n : Nat} (pl : Placed c fs n) (p : Field → Bool)
    {c' : Nat} (le : c' ≤ c) : ∃ n', Placed c' (fs.filter p) n' := by
  induction pl generalizing c' with
  | nil => exact ⟨c', .nil⟩
  | @cons c f fs n off pos pl ih =>
    rw [List.filter_cons]
    split_ifs
    · obtain ⟨n', pl'⟩ := ih (Nat.le_refl f.stop)
      exact ⟨n', .cons (le.trans off) pos pl'⟩
    · exact ih (by unfold Field.stop; omega)

/-- A placement ends where its last field does. -/
lemma Placed.end_le {c : Nat} {fs : List Field} {n b : Nat} (pl : Placed c fs n)
    (inside : ∀ f ∈ fs, f.stop ≤ b) (le : c ≤ b) : n ≤ b := by
  induction pl with
  | nil => exact le
  | cons _ _ _ ih =>
    obtain ⟨first, rest⟩ := List.forall_mem_cons.mp inside
    exact ih rest first

variable [Unicode] {options : DecodeOptions}

/-- A field is read from its place in some data, which starts at the position `start`. -/
structure ReadsAt (options : DecodeOptions) (start : Nat) (data : List UInt8) (field : Field)
    (value : FieldValue) : Prop where
  from_start : start ≤ field.offset
  inside : field.stop ≤ start + data.length
  reads : decodeField field (slice data (field.offset - start) (field.stop - start)) options
    = .ok (value.tidy options)

/-- Stored fields are read from where they are placed. -/
lemma storeFields_reads {start stop : Nat} {fields : List Field} {values : List FieldValue}
    {data : List UInt8} (pl : Placed start fields stop) (width : ∀ f ∈ fields, f.size ≤ widthLimit f.kind)
    (stored : storeFields options.codec start fields values = some data) :
    start + data.length = stop ∧ List.Forall₂ (ReadsAt options start data) fields values := by
  induction pl generalizing values data with
  | nil =>
    cases values with
    | nil => cases stored; exact ⟨rfl, .nil⟩
    | cons value values => cases stored
  | @cons start field fields stop off pos pl ih =>
    obtain ⟨own, rest⟩ := List.forall_mem_cons.mp width
    cases values with
    | nil => cases stored
    | cons value values =>
      obtain ⟨image, image_eq, stored⟩ := Option.bind_eq_some_iff.mp stored
      obtain ⟨behind, behind_eq, stored⟩ := Option.bind_eq_some_iff.mp stored
      cases stored
      obtain ⟨length, decoded⟩ := store_reads pos own image_eq
      obtain ⟨ends, decodes⟩ := ih rest behind_eq
      have order : field.offset ≤ field.stop := Nat.le_add_right _ _
      have gap : (List.replicate (field.offset - start) blank ++ image).length = field.stop - start := by
        rw [List.length_append, List.length_replicate, length, Field.stop]
        omega
      have whole : (List.replicate (field.offset - start) blank ++ image ++ behind).length
          = field.stop - start + behind.length := by
        rw [List.length_append, gap]
      have here : slice (List.replicate (field.offset - start) blank ++ image ++ behind)
          (field.offset - start) (field.stop - start) = image := by
        rw [slice_append _ gap.ge, slice, ← gap, List.take_length]
        exact List.drop_left' List.length_replicate
      refine ⟨by omega, .cons ⟨off, by omega, by rw [here]; exact decoded⟩ ?_⟩
      refine decodes.imp fun other value reads => ⟨?_, ?_, ?_⟩
      · exact (off.trans order).trans reads.from_start
      · have inside := reads.inside
        omega
      · -- What lies behind the field is counted from its end.
        have from_start := reads.from_start
        have order' : other.offset ≤ other.stop := Nat.le_add_right _ _
        have shift : other.offset - start = (field.stop - start) + (other.offset - field.stop) := by omega
        have shift' : other.stop - start = (field.stop - start) + (other.stop - field.stop) := by omega
        rw [shift, shift', ← gap, slice_behind]
        exact reads.reads

/-- A body is read back field by field. -/
lemma Entry.body_reads {entry : Entry} (v : entry.record.Valid) {bytes : List UInt8}
    (written : entry.body options.codec = some bytes) :
    bytes.length = entry.size ∧ decodeCells entry.record bytes options
      = .ok (List.zipWith (Entry.cell options) entry.record.dataFields entry.values) := by
  obtain ⟨data, stored, written⟩ := Option.bind_eq_some_iff.mp written
  split_ifs at written with fits
  cases written
  obtain ⟨stop, pl⟩ := v.placed.filter (·.kind ≠ .skip) (Nat.le_refl 0)
  obtain ⟨_, reads⟩ := storeFields_reads pl (fun f mem => v.width f (List.mem_filter.mp mem).1) stored
  constructor
  · rw [List.length_append, List.length_replicate]
    omega
  · apply mapM_eq_ok.mpr
    show List.Forall₂ _ entry.record.dataFields _
    change List.Forall₂ _ entry.record.dataFields entry.values at reads
    generalize entry.record.dataFields = fields at reads
    generalize entry.values = values at reads
    induction reads with
    | nil => exact .nil
    | @cons field value fields values reads _ ih =>
      refine .cons ?_ ih
      have inside : field.stop ≤ data.length := by
        have inside := reads.inside
        omega
      have reads := reads.reads
      rw [Nat.sub_zero, Nat.sub_zero] at reads
      have order : field.offset ≤ field.stop := Nat.le_add_right _ _
      have there : field.stop ≤ (data ++ List.replicate (entry.size - data.length) blank).length := by
        rw [List.length_append]
        omega
      unfold decodeCell
      rw [getSlice_eq order there, slice_append _ inside]
      dsimp only
      rw [reads]
      rfl

end Fields

section Records

variable [Unicode] {layout : Layout} {options : DecodeOptions}

/-- A prefix field is read from the front of what it stores. -/
lemma storePrefix_reads {field : Option Field} {value : Option FieldValue} {bytes : List UInt8}
    (pv : ∀ f ∈ field, f.PrefixValid) (stored : storePrefix options.codec field value = some bytes) :
    bytes.length = optionalSize field ∧
      ∀ f ∈ field, ∃ v, value = some v ∧ decodeField f bytes options = .ok (v.tidy options) := by
  cases field with
  | none =>
    cases value with
    | none => cases stored; exact ⟨rfl, fun _ => nofun⟩
    | some v => cases stored
  | some f =>
    cases value with
    | none => cases stored
    | some v =>
      obtain ⟨length, decoded⟩ := store_reads (pv f rfl).size_pos (pv f rfl).width stored
      refine ⟨length, fun f' mem => ?_⟩
      cases mem
      exact ⟨v, rfl, decoded⟩

/-- The prefix of a record that is written selects its schema and gives its size. -/
lemma Entry.prefix_reads (v : layout.Valid) {entry : Entry} (fits : entry.Fits layout options)
    {length type : List UInt8}
    (length_eq : storePrefix options.codec layout.recordLengthField entry.length = some length)
    (type_eq : storePrefix options.codec layout.recordTypeField entry.type = some type)
    (base : Nat) (behind : List UInt8) :
    readPrefix layout options base (length ++ type ++ behind) = .ok (entry.record, entry.size) := by
  obtain ⟨schema, declares⟩ := fits
  have record := v.record _ (Layout.select_mem schema)
  obtain ⟨length_length, length_reads⟩ := storePrefix_reads (fun f mem => (v.lengthField f mem).1) length_eq
  obtain ⟨type_length, type_reads⟩ := storePrefix_reads v.typeField type_eq
  have types : readType layout options (length ++ type ++ behind)
      = .ok (entry.type.map fun value => (value.tidy options).toDisplayString) := by
    unfold readType
    cases has : layout.recordTypeField with
    | none =>
      rw [has] at type_eq
      cases value : entry.type with
      | none => rfl
      | some value => rw [value] at type_eq; cases type_eq
    | some field =>
      obtain ⟨value, value_eq, reads⟩ := type_reads field has
      have here : slice (length ++ type ++ behind) (optionalSize layout.recordLengthField)
          (optionalSize layout.recordLengthField + field.size) = type := by
        have size : type.length = field.size := by
          rw [type_length, has]
          rfl
        have own := slice_behind length (type ++ behind) 0 field.size
        rw [length_length, Nat.add_zero, ← List.append_assoc] at own
        rw [own, slice, ← size, List.take_left, List.drop_zero]
      dsimp only
      rw [here, reads, value_eq]
      rfl
  cases has : layout.recordLengthField with
  | none =>
    have undeclared : readLength layout options base (length ++ type ++ behind) = .ok none := by
      unfold readLength
      rw [has]
    have own : entry.size = entry.record.size := by
      rw [has] at length_eq
      cases value : entry.length with
      | none => rw [value] at declares; exact declares
      | some value => rw [value] at length_eq; cases length_eq
    have size : bodySize layout base entry.record none = .ok entry.size := by
      rw [own]
      exact bodySize_ok.mpr ⟨rfl, record.size_le⟩
    rw [readPrefix_picked undeclared types schema, size]
    rfl
  | some field =>
    obtain ⟨value, value_eq, reads⟩ := length_reads field has
    rw [value_eq] at declares
    obtain ⟨declares, small⟩ := declares
    have here : slice (length ++ type ++ behind) 0 field.size = length := by
      have size : length.length = field.size := by
        rw [length_length, has]
        rfl
      rw [slice, List.append_assoc, ← size, List.take_left, List.drop_zero]
    have declared : readLength layout options base (length ++ type ++ behind)
        = .ok (some ((layout.prefixSize + entry.size : Nat) : Int)) := by
      apply (readLength_some has).mpr
      rw [here]
      exact ⟨_, reads, declares⟩
    have size : bodySize layout base entry.record (some ((layout.prefixSize + entry.size : Nat) : Int))
        = .ok entry.size := by
      refine bodySize_ok.mpr ⟨?_, small⟩
      have room := v.prefix_lt
      unfold maxRecordBytes at small
      show wrapI128 _ = _
      rw [wrapI128_of_fits (by unfold FitsI128; omega)]
      omega
    rw [readPrefix_picked declared types schema, size]
    rfl

/-- A record and its bytes. -/
def Entry.passage (options : DecodeOptions) (entry : Entry) (bytes : List UInt8) : Passage where
  record := entry.record
  size := entry.size
  cells := List.zipWith (Entry.cell options) entry.record.dataFields entry.values
  bytes := bytes

/-- A record that is written is read back, whatever lies behind it. -/
lemma Entry.write_reads (v : layout.Valid) {entry : Entry} {bytes : List UInt8}
    (written : entry.write layout options = some bytes) :
    (entry.passage options bytes).Reads layout options := by
  obtain ⟨length, length_eq, written⟩ := Option.bind_eq_some_iff.mp written
  obtain ⟨type, type_eq, written⟩ := Option.bind_eq_some_iff.mp written
  obtain ⟨body, body_eq, written⟩ := Option.bind_eq_some_iff.mp written
  split_ifs at written with fits
  cases written
  have mem := Layout.select_mem fits.1
  obtain ⟨length_length, _⟩ := storePrefix_reads (fun f mem => (v.lengthField f mem).1) length_eq
  obtain ⟨type_length, _⟩ := storePrefix_reads v.typeField type_eq
  obtain ⟨body_length, body_reads⟩ := body_reads (v.record _ mem) body_eq
  have front : (length ++ type).length = layout.prefixSize := by
    rw [List.length_append, length_length, type_length, v.prefix_eq]
  refine ⟨?_, mem, fun base behind => ?_, fun behind => ?_⟩
  · show (length ++ type ++ body).length = _
    rw [List.length_append, front, body_length]
    rfl
  · show readPrefix layout options base (length ++ type ++ body ++ behind) = _
    rw [List.append_assoc]
    exact prefix_reads v fits length_eq type_eq base _
  · have here : slice (length ++ type ++ body ++ behind) layout.prefixSize
        (layout.prefixSize + entry.size) = body := by
      have own := slice_behind (length ++ type) (body ++ behind) 0 entry.size
      rw [front, Nat.add_zero, ← List.append_assoc] at own
      rw [own, slice, ← body_length, List.take_left, List.drop_zero]
    apply Eq.trans (congrArg (decodeCells entry.record · options) here)
    exact body_reads

/-- What is written is a list of passages. -/
lemma writeRecords_passages (v : layout.Valid) {entries : List Entry} {data : List UInt8}
    (written : writeRecords layout options entries = some data) (before : List Pb.RecordRow) :
    ∃ passages : List Passage, (∀ passage ∈ passages, passage.Reads layout options) ∧
      passages.flatMap (·.bytes) = data ∧
      passageRows layout before passages = writtenRows layout options before entries := by
  induction entries generalizing before data with
  | nil =>
    cases written
    exact ⟨[], fun _ mem => absurd mem List.not_mem_nil, rfl, rfl⟩
  | cons entry entries ih =>
    obtain ⟨bytes, bytes_eq, written⟩ := Option.bind_eq_some_iff.mp written
    obtain ⟨behind, behind_eq, written⟩ := Option.bind_eq_some_iff.mp written
    cases written
    obtain ⟨passages, reads, all, rows⟩ := ih behind_eq (before ++ [entry.row layout options before])
    refine ⟨entry.passage options bytes :: passages, ?_, ?_, ?_⟩
    · exact List.forall_mem_cons.mpr ⟨Entry.write_reads v bytes_eq, reads⟩
    · rw [List.flatMap_cons, all]
      rfl
    · rw [writtenRows, ← rows]
      rfl

/-- The bytes of some records are those of their rows. -/
lemma writeRecords_length (v : layout.Valid) {entries : List Entry} {data : List UInt8}
    (written : writeRecords layout options entries = some data) (before : List Pb.RecordRow) :
    data.length = rowBytes (writtenRows layout options before entries) := by
  obtain ⟨passages, reads, rfl, rows⟩ := writeRecords_passages v written before
  rw [← rows]
  exact passages_length reads before

omit [Unicode] in
lemma writtenRows_length (before : List Pb.RecordRow) (entries : List Entry) :
    (writtenRows layout options before entries).length = entries.length := by
  induction entries generalizing before with
  | nil => rfl
  | cons entry entries ih => rw [writtenRows, List.length_cons, ih, List.length_cons]

omit [Unicode] in
/-- Rows are counted by schema as the records are. -/
lemma rowsOf_written (before : List Pb.RecordRow) (entries : List Entry) (name : String) :
    rowsOf (writtenRows layout options before entries) name
      = entries.countP fun entry => entry.record.name = name := by
  induction entries generalizing before with
  | nil => rfl
  | cons entry entries ih =>
    rw [writtenRows, List.countP_cons, ← ih]
    exact List.countP_cons

end Records

section Files

/-- The trailer of a walk that read all records of a file. -/
def fileStatus (layout : Layout) (entries : List Entry) (file : List UInt8) : Pb.ParseStatus where
  recordsKept := entries.length
  bytesReceived := file.length
  bytesConsumed := file.length - layout.footerSize
  trailingBytes := 0
  truncated := false
  warnings := []
  rowsPerRecordType := layout.records.map fun record =>
    (record.name, entries.countP fun entry => entry.record.name = record.name)

variable {layout : Layout} {options : DecodeOptions}

lemma rowsStatus_written (entries : List Entry) (file : List UInt8) :
    rowsStatus layout (writtenRows layout options [] entries) file = fileStatus layout entries file := by
  unfold rowsStatus fileStatus
  simp only [writtenRows_length, rowsOf_written]

variable [Unicode]

/-- Written records between a header and a footer are walked to what was written. -/
lemma walk_written (v : layout.Valid) {header data footer : List UInt8} {entries : List Entry}
    (head : header.length = layout.headerSize) (foot : footer.length = layout.footerSize)
    (written : writeRecords layout options entries = some data)
    (uncut : options.maxRecords = 0 ∨ entries.length < options.maxRecords) {chunks : List (List UInt8)}
    (whole : chunks.flatten = header ++ data ++ footer) :
    walk layout options chunks = (writtenRows layout options [] entries,
      .finished (.ok (fileStatus layout entries (header ++ data ++ footer)))) := by
  obtain ⟨passages, reads, rfl, rows⟩ := writeRecords_passages v written []
  have count : passages.length = entries.length := by
    have length : (passageRows layout [] passages).length = passages.length := passageRows_length [] passages
    rw [← length, rows, writtenRows_length]
  rw [walk_passages v head foot reads (count ▸ uncut) whole, rows, rowsStatus_written, whole]

variable [SerdeJson] {request : Pb.ParseOptions}

/-- A file that is written is walked to what was written, however it is cut into chunks. -/
theorem file_reads_back (ok : resolve request = .ok layout) {header footer file : List UInt8}
    {entries : List Entry} (written : writeFile layout options header entries footer = some file)
    (uncut : options.maxRecords = 0 ∨ entries.length < options.maxRecords)
    {chunks : List (List UInt8)} (whole : chunks.flatten = file) :
    walk layout options chunks
      = (writtenRows layout options [] entries, .finished (.ok (fileStatus layout entries file))) := by
  obtain ⟨data, data_eq, written⟩ := Option.bind_eq_some_iff.mp written
  split_ifs at written with boundaries
  cases written
  exact walk_written (resolve_valid ok) boundaries.1 boundaries.2 data_eq uncut whole

end Files

section Sample

attribute [local instance] asciiUnicode noJson

/-- A record of the sample layout without an item. -/
def sampleEntry : Entry where
  record := sampleLayout.records.head (List.cons_ne_nil _ _)
  length := some (.number 5 0)
  type := none
  values := [.text "", .number 123 1]
  size := 4

theorem file_reads_back_sample :
    ∃ file, writeFile sampleLayout sampleOptions [0, 0] [sampleEntry] [0xff] = some file ∧
      walk sampleLayout sampleOptions [file.take 4, file.drop 4]
        = (writtenRows sampleLayout sampleOptions [] [sampleEntry],
          .finished (.ok (fileStatus sampleLayout [sampleEntry] file))) := by
  have written : writeFile sampleLayout sampleOptions [0, 0] [sampleEntry] [0xff]
      = some [0, 0, 5, 0x40, 0x40, 0x12, 0x3c, 0xff] := by decide
  exact ⟨_, written, file_reads_back resolve_sample written (.inl rfl) rfl⟩

end Sample

end GrpcEbcdic

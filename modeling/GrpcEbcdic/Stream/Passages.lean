import GrpcEbcdic.Stream.Declared
import GrpcEbcdic.Stream.Limit

/-!
# Passages of a file

Bytes that are read as one record whatever lies behind them. The walk over such passages, between a header and
a footer, emits a row for each of them and ends with a clean trailer, however the file is cut into chunks.
-/

namespace GrpcEbcdic
open Rust Incremental

/-- Bytes and what they are read as: a record with its schema, the bytes of its body, and its cells. -/
structure Passage where
  record : RecordLayout
  size : Nat
  cells : List Pb.Cell
  bytes : List UInt8

/-- The row of a passage behind the rows `before`. -/
def Passage.row (layout : Layout) (before : List Pb.RecordRow) (passage : Passage) : Pb.RecordRow where
  recordType := passage.record.name
  rowIndex := rowsOf before passage.record.name
  recordIndex := before.length
  byteOffset := layout.headerSize + rowBytes before
  byteLength := layout.prefixSize + passage.size
  cells := passage.cells

/-- The rows of some passages behind the rows `before`. -/
def passageRows (layout : Layout) (before : List Pb.RecordRow) : List Passage → List Pb.RecordRow
  | [] => []
  | passage :: passages =>
    let row := passage.row layout before
    row :: passageRows layout (before ++ [row]) passages

/-- The trailer of a walk that emitted some rows and read all records of a file. -/
def rowsStatus (layout : Layout) (rows : List Pb.RecordRow) (file : List UInt8) : Pb.ParseStatus where
  recordsKept := rows.length
  bytesReceived := file.length
  bytesConsumed := file.length - layout.footerSize
  trailingBytes := 0
  truncated := false
  warnings := []
  rowsPerRecordType := layout.records.map fun record => (record.name, rowsOf rows record.name)

/-- Where the reader stands behind the rows `before`. -/
structure Stands (layout : Layout) (before : List Pb.RecordRow) (σ : WalkState) : Prop where
  pos : σ.pos = layout.headerSize + rowBytes before
  counts : Counts layout σ before

variable {layout : Layout} {options : DecodeOptions} {before : List Pb.RecordRow} {σ : WalkState}

lemma stands_start (v : layout.Valid) : Stands layout [] (walkStart layout) := ⟨rfl, counts_start v⟩

/-- The row the reader makes of a record. -/
lemma Stands.row (v : layout.Valid) (stands : Stands layout before σ) (passage : Passage)
    (mem : passage.record ∈ layout.records) :
    σ.row passage.record (layout.prefixSize + passage.size) passage.cells = passage.row layout before := by
  unfold WalkState.row Passage.row
  rw [stands.counts.rowIndex v mem, stands.counts.kept, stands.pos]

lemma Stands.advance (v : layout.Valid) (stands : Stands layout before σ) (passage : Passage)
    (mem : passage.record ∈ layout.records) :
    Stands layout (before ++ [passage.row layout before])
      (σ.advance passage.record (layout.prefixSize + passage.size)) := by
  refine ⟨?_, stands.counts.advance v mem rfl _⟩
  show σ.pos + _ = _
  rw [stands.pos, rowBytes, rowBytes, List.map_append, List.sum_append, Nat.add_assoc]
  rfl

/-- Below the limit the reader goes on. -/
lemma Stands.more (stands : Stands layout before σ)
    (uncut : options.maxRecords = 0 ∨ before.length < options.maxRecords) : ¬ σ.Full options := by
  unfold WalkState.Full
  rw [stands.counts.kept]
  omega

variable [Unicode]

/-- The bytes of a passage are read as its record, whatever lies behind them. -/
structure Passage.Reads (layout : Layout) (options : DecodeOptions) (passage : Passage) : Prop where
  length : passage.bytes.length = layout.prefixSize + passage.size
  mem : passage.record ∈ layout.records
  first : ∀ base behind,
    readPrefix layout options base (passage.bytes ++ behind) = .ok (passage.record, passage.size)
  body : ∀ behind, decodeCells passage.record
      (slice (passage.bytes ++ behind) layout.prefixSize (layout.prefixSize + passage.size)) options
    = .ok passage.cells

/-- The reader takes a passage. -/
lemma recordStep_passage (v : layout.Valid) (stands : Stands layout before σ) {passage : Passage}
    (reads : passage.Reads layout options) (more : ¬ σ.Full options) (behind : List UInt8) :
    recordStep layout options σ (passage.bytes ++ behind)
      = .emit (passage.row layout before) passage.bytes.length
        (σ.advance passage.record (layout.prefixSize + passage.size)) := by
  have length := reads.length
  have first := reads.first σ.pos behind
  have pos := readPrefix_pos v first
  refine recordStep_emit.mpr
    ⟨passage.record, passage.size, _, more, ?_, first, ?_, reads.body behind, length, ?_, ?_⟩
  · rw [List.length_append]
    omega
  · rw [List.length_append]
    omega
  · rw [length]
    exact (stands.row v passage reads.mem).symm
  · rw [length]

/-- The reader takes all the passages. -/
lemma run_passages (v : layout.Valid) (stands : Stands layout before σ) {passages : List Passage}
    (reads : ∀ passage ∈ passages, passage.Reads layout options)
    (uncut : options.maxRecords = 0 ∨ before.length + passages.length < options.maxRecords) :
    ∃ σ', ((recordReader v options).run σ (passages.flatMap (·.bytes))).1.map Prod.fst
        = passageRows layout before passages ∧
      ((recordReader v options).run σ (passages.flatMap (·.bytes))).2 = .waiting σ' [] ∧
      Stands layout (before ++ passageRows layout before passages) σ' := by
  induction passages generalizing before σ with
  | nil =>
    have more := stands.more uncut
    have wait : (recordReader v options).step σ [] = .wait := recordStep_none layout more rfl
    rw [List.flatMap_nil, (recordReader v options).run_wait wait]
    refine ⟨σ, rfl, rfl, ?_⟩
    rw [passageRows, List.append_nil]
    exact stands
  | cons passage passages ih =>
    obtain ⟨own, rest⟩ := List.forall_mem_cons.mp reads
    rw [List.length_cons] at uncut
    have more : ¬ σ.Full options := stands.more (by omega)
    have emits : (recordReader v options).step σ (passage.bytes ++ passages.flatMap (·.bytes)) = _ :=
      recordStep_passage v stands own more _
    obtain ⟨σ', rows, halt, stands'⟩ := ih (stands.advance v passage own.mem) rest (by
      rw [List.length_append, List.length_singleton]
      omega)
    rw [List.flatMap_cons, (recordReader v options).run_emit emits, List.drop_left]
    refine ⟨σ', ?_, halt, ?_⟩
    · rw [List.map_cons, rows, passageRows]
    · rw [List.append_assoc] at stands'
      exact stands'

omit [Unicode] in
lemma passageRows_length (before : List Pb.RecordRow) (passages : List Passage) :
    (passageRows layout before passages).length = passages.length := by
  induction passages generalizing before with
  | nil => rfl
  | cons passage passages ih => rw [passageRows, List.length_cons, ih, List.length_cons]

/-- The bytes of some passages are those of their rows. -/
lemma passages_length {passages : List Passage} (reads : ∀ passage ∈ passages, passage.Reads layout options)
    (before : List Pb.RecordRow) :
    (passages.flatMap (·.bytes)).length = rowBytes (passageRows layout before passages) := by
  induction passages generalizing before with
  | nil => rfl
  | cons passage passages ih =>
    obtain ⟨own, rest⟩ := List.forall_mem_cons.mp reads
    rw [List.flatMap_cons, List.length_append, own.length, ih rest]
    rfl

omit [Unicode] in
lemma recordData_file {header data footer : List UInt8} (head : header.length = layout.headerSize)
    (foot : footer.length = layout.footerSize) : recordData layout (header ++ data ++ footer) = data := by
  unfold recordData dataFrom
  rw [List.length_append, foot, Nat.add_sub_cancel, List.take_left, ← head, List.drop_left]

omit [Unicode] in
/-- A reader that stands at the footer behind all records leaves nothing to warn of. -/
lemma atEnd_file {rows : List Pb.RecordRow} (stands : Stands layout rows σ)
    (uncut : options.maxRecords = 0 ∨ rows.length < options.maxRecords) {file : List UInt8}
    (ends : σ.pos + layout.footerSize = file.length) :
    (atEnd layout options file.length σ).status = .ok (rowsStatus layout rows file) := by
  have kept : σ.recordsKept = rows.length := stands.counts.kept
  have more := stands.more uncut
  have start := stands.pos
  have long : ¬ file.length < layout.headerSize + layout.footerSize := by omega
  have none_left : (atEnd layout options file.length σ).leftover = 0 := by
    rw [atEnd_leftover layout file.length more]
    omega
  have uncut' : (atEnd layout options file.length σ).truncated = false := decide_eq_false more
  have base : (atEnd layout options file.length σ).bufferBase = file.length - layout.footerSize := by
    show (if σ.Full options then file.length else min σ.pos (file.length - layout.footerSize)) = _
    rw [if_neg more]
    omega
  have status : (atEnd layout options file.length σ).status
      = .ok ((atEnd layout options file.length σ).trailer []) := by
    apply (if_neg long).trans
    rw [uncut', if_neg Bool.false_ne_true, none_left, if_neg (Nat.lt_irrefl 0)]
  rw [status, RecordStream.trailer, none_left, uncut', base]
  show Except.ok (Pb.ParseStatus.mk σ.recordsKept _ _ _ _ _ σ.rowsPerType) = _
  rw [kept, stands.counts.rows]
  rfl

/-- The reader takes all of a file of passages. -/
lemma batch_passages (v : layout.Valid) {header footer : List UInt8}
    (head : header.length = layout.headerSize) (foot : footer.length = layout.footerSize)
    {passages : List Passage} (reads : ∀ passage ∈ passages, passage.Reads layout options)
    (uncut : options.maxRecords = 0 ∨ passages.length < options.maxRecords) {file : List UInt8}
    (whole : file = header ++ passages.flatMap (·.bytes) ++ footer) :
    ∃ σ, (batch v options file).1.map Prod.fst = passageRows layout [] passages ∧
      (batch v options file).2 = .waiting σ [] ∧
      (atEnd layout options file.length σ).status
        = .ok (rowsStatus layout (passageRows layout [] passages) file) := by
  obtain ⟨σ, rows, halt, stands⟩ := run_passages v (stands_start v) reads (by
    rwa [List.length_nil, Nat.zero_add])
  rw [List.nil_append] at stands
  have run : batch v options file
      = (recordReader v options).run (walkStart layout) (passages.flatMap (·.bytes)) := by
    rw [batch, whole, recordData_file head foot]
  have ends : σ.pos + layout.footerSize = file.length := by
    rw [stands.pos, ← passages_length reads [], whole, List.length_append, List.length_append, head, foot]
  refine ⟨σ, run ▸ rows, run ▸ halt, atEnd_file stands ?_ ends⟩
  rwa [passageRows_length]

/-- A file of passages is walked to their rows. -/
theorem walk_passages (v : layout.Valid) {header footer : List UInt8}
    (head : header.length = layout.headerSize) (foot : footer.length = layout.footerSize)
    {passages : List Passage} (reads : ∀ passage ∈ passages, passage.Reads layout options)
    (uncut : options.maxRecords = 0 ∨ passages.length < options.maxRecords) {chunks : List (List UInt8)}
    (whole : chunks.flatten = header ++ passages.flatMap (·.bytes) ++ footer) :
    walk layout options chunks = (passageRows layout [] passages,
      .finished (.ok (rowsStatus layout (passageRows layout [] passages) chunks.flatten))) := by
  obtain ⟨σ, rows, halt, status⟩ := batch_passages v head foot reads uncut whole
  rw [walk_eq v, wholeWalk, rows, halt]
  exact congrArg (passageRows layout [] passages, WalkEnd.finished ·) status

end GrpcEbcdic

import GrpcEbcdic.Layout.Resolve
import GrpcEbcdic.Support.AssocList

/-!
# The incremental record walker

`RecordStream` is a state machine: `push` appends whatever bytes have arrived, `nextRecord` hands back
one record at a time, and `status` builds the trailer. A method that takes `&mut self` returns the
state it leaves, also when it fails.

Inside a module of the service a slice expression never leaves its bounds, so `slice` is total; the one
checked access is `getSlice`.
-/

namespace GrpcEbcdic
open Rust

/-- The bytes from index `a` up to index `b`. -/
def slice (bytes : List UInt8) (a b : Nat) : List UInt8 := (bytes.take b).drop a

/-- `bytes.get(a..b)`. -/
def getSlice (bytes : List UInt8) (a b : Nat) : Option (List UInt8) :=
  if a ≤ b ∧ b ≤ bytes.length then some (slice bytes a b) else none

/-- Decoder settings that do not come from the layout. -/
structure DecodeOptions where
  codec : Codec
  stripControlCharacters : Bool
  /-- Stop after this many records; zero reads them all. -/
  maxRecords : Nat
  /-- Fail the stream on a trailing partial record instead of warning. -/
  abortOnError : Bool

section Fields

variable [Unicode]

/-- Decode one field's bytes into a value. -/
def decodeField (field : Field) (bytes : List UInt8) (options : DecodeOptions) :
    Except ParseError FieldValue :=
  let number (unscaled : Int) := FieldValue.number unscaled field.scale
  match field.kind with
  | .text => (decodeText options.codec bytes options.stripControlCharacters).map .text
  | .integer => (decodeBinary bytes true).map number
  | .unsignedInteger => (decodeBinary bytes false).map number
  | .packedDecimal => (decodePacked bytes).map number
  | .zonedDecimal => (decodeZoned bytes).map number
  | .skip => .ok (.text "")

/-- Shape a decoded value into the wire cell's `oneof`. -/
def toCellValue (value : FieldValue) (scale : Nat) : Pb.CellValue :=
  match value with
  | .text text => .text text
  | .number unscaled ownScale =>
    if scale = 0 then
      match toI64 unscaled with
      | some fits => .integer fits
      | none => .decimal { text := renderDecimal unscaled 0, scale := 0, unscaled := none }
    -- The last arm of the source binds the scale of the value.
    else
      .decimal {
        text := renderDecimal unscaled ownScale
        scale := ownScale
        unscaled := toI64 unscaled }

/-- A field's failure, named after the field and its record. -/
def ParseError.inField (field : Field) (record : RecordLayout) : ParseError → ParseError
  | .invalid message =>
    .invalid s!"field {debug field.name} of record {debug record.name}: {message}"
  | other => other

/-- Decode one field of a record body into a wire cell. -/
def decodeCell (record : RecordLayout) (body : List UInt8) (options : DecodeOptions)
    (field : Field) : Except ParseError Pb.Cell :=
  match getSlice body field.offset field.stop with
  | none =>
    -- Only reachable with a length-prefixed record declared shorter than the schema it selected.
    .error (.invalid (s!"record {debug record.name} is {body.length} bytes but field " ++
      s!"{debug field.name} needs bytes {field.offset}..{field.stop}"))
  | some bytes =>
    match decodeField field bytes options with
    | .error err => .error (err.inField field record)
    | .ok value =>
      .ok {
        name := field.name
        type := field.kind.toProto.toI32
        value := some (toCellValue value field.scale) }

/-- Decode every non-filler field of one record body into a wire cell. -/
def decodeCells (record : RecordLayout) (body : List UInt8) (options : DecodeOptions) :
    Except ParseError (List Pb.Cell) :=
  (record.fields.filter (·.kind ≠ .skip)).mapM (decodeCell record body options)

/-- The number a length field's value declares, when it is one. -/
def FieldValue.toLength : FieldValue → Option Int
  | .number unscaled _ => some unscaled
  | .text t => parseI128 (trim t.toList)

/-- The length a record declares, in a layout with a length field. -/
def readLength (layout : Layout) (options : DecodeOptions) (bufferBase : Nat)
    (pending : List UInt8) : Except ParseError (Option Int) :=
  match layout.recordLengthField with
  | none => .ok none
  | some field =>
    match decodeField field (slice pending 0 field.size) options with
    | .error e => .error e
    | .ok value =>
      match value.toLength with
      | some length => .ok (some length)
      | none =>
        .error (.invalid (s!"record length field {debug field.name} holds " ++
          s!"{debug value.toDisplayString} at byte {bufferBase}, which is not a number"))

/-- The record type a record carries, in a layout with a type field. -/
def readType (layout : Layout) (options : DecodeOptions) (pending : List UInt8) :
    Except ParseError (Option String) :=
  match layout.recordTypeField with
  | none => .ok none
  | some field =>
    let cursor := optionalSize layout.recordLengthField
    (decodeField field (slice pending cursor (cursor + field.size)) options).map fun value =>
      some value.toDisplayString

/-- The bytes a record has beyond its prefix, by the length it declares or by its schema. -/
def bodyLength (layout : Layout) (record : RecordLayout) (declaredLength : Option Int) : Int :=
  match declaredLength with
  | none => record.size
  | some length => wrapI128 (length - layout.prefixSize)

/-- The body length of a record, when it is one this build assembles. -/
def bodySize (layout : Layout) (bufferBase : Nat) (record : RecordLayout)
    (declaredLength : Option Int) : Except ParseError Nat :=
  let size := bodyLength layout record declaredLength
  if size < 0 then
    .error (.invalid (s!"record at byte {bufferBase} declares length {declaredLength.getD 0}, " ++
      s!"shorter than its own {layout.prefixSize}-byte prefix"))
  else
    match toUsize size with
    | none =>
      .error (.invalid s!"record at byte {bufferBase} declares an unusable length {size}")
    | some size =>
      if maxRecordBytes < size then
        .error (.unsupported (s!"record at byte {bufferBase} declares a {size}-byte body; this " ++
          s!"build decodes records up to {maxRecordBytes} bytes"))
      else .ok size

/-- Read the prefix of the record at `bufferBase` and resolve its schema plus the body length. Only the
prefix is read of the unconsumed bytes `pending`, and nothing is consumed. -/
def readPrefix (layout : Layout) (options : DecodeOptions) (bufferBase : Nat)
    (pending : List UInt8) : Except ParseError (RecordLayout × Nat) := do
  let declaredLength ← readLength layout options bufferBase pending
  let recordType ← readType layout options pending
  match layout.select recordType with
  | none =>
    .error (.invalid ("no record schema has selector " ++ debug (recordType.getD "") ++
      s!" (record at byte {bufferBase})"))
  | some record => do
    let size ← bodySize layout bufferBase record declaredLength
    return (record, size)

end Fields

/-- An incremental walk over an EBCDIC byte stream. -/
structure RecordStream where
  layout : Layout
  options : DecodeOptions
  /-- Bytes received, of which everything from `start` on is not yet consumed. -/
  buffer : List UInt8
  start : Nat
  /-- Absolute offset of `buffer[start]` within the input. -/
  bufferBase : Nat
  received : Nat
  /-- Header bytes still to skip. -/
  headerLeft : Nat
  recordsKept : Nat
  rowsPerType : List (String × Nat)
  /-- Whether `max_records` has been reached. -/
  truncated : Bool
  inputFinished : Bool

namespace RecordStream

/-- Start a walk over a validated layout. -/
def new (layout : Layout) (options : DecodeOptions) : RecordStream where
  layout := layout
  options := options
  buffer := []
  start := 0
  bufferBase := 0
  received := 0
  headerLeft := layout.headerSize
  recordsKept := 0
  rowsPerType := AssocList.collect (layout.records.map fun record => (record.name, 0))
  truncated := false
  inputFinished := false

/-- Append a chunk of input. Once `max_records` has been reached the bytes are only counted. -/
def push (stream : RecordStream) (chunk : List UInt8) : RecordStream :=
  let received := stream.received + chunk.length
  if stream.truncated then
    { stream with received := received, bufferBase := received, buffer := [], start := 0 }
  else
    { stream with
      received := received
      buffer := stream.buffer.drop stream.start ++ chunk
      start := 0 }

/-- Note that the client will send no more bytes. -/
def finishInput (stream : RecordStream) : RecordStream := { stream with inputFinished := true }

/-- One past the last byte that is certainly not part of the trailing footer. -/
def decodableEnd (stream : RecordStream) : Nat := stream.received - stream.layout.footerSize

/-- The unconsumed bytes, starting at `bufferBase`. -/
def pending (stream : RecordStream) : List UInt8 := stream.buffer.drop stream.start

/-- Bytes available for decoding right now, starting at `bufferBase`. -/
def available (stream : RecordStream) : Nat :=
  min (stream.decodableEnd - stream.bufferBase) stream.pending.length

/-- Mark `count` bytes at the front of the unconsumed input as consumed. -/
def consume (stream : RecordStream) (count : Nat) : RecordStream :=
  { stream with start := stream.start + count, bufferBase := stream.bufferBase + count }

/-- Skip as much of what is left of the header as is there. -/
def skipHeader (stream : RecordStream) : RecordStream :=
  let skip := min stream.headerLeft stream.available
  { stream.consume skip with headerLeft := stream.headerLeft - skip }

/-- Rows of a schema emitted so far. -/
def rowIndex (stream : RecordStream) (name : String) : Nat :=
  (stream.rowsPerType.lookup name).getD 0

/-- Count one row of a schema that took `total` bytes, and stop at `max_records`. -/
def commit (stream : RecordStream) (record : RecordLayout) (total : Nat) : RecordStream :=
  let stream :=
    { stream.consume total with
      recordsKept := stream.recordsKept + 1
      rowsPerType :=
        AssocList.insert record.name (stream.rowIndex record.name + 1) stream.rowsPerType }
  if stream.options.maxRecords ≠ 0 ∧ stream.options.maxRecords ≤ stream.recordsKept then
    { stream with truncated := true, bufferBase := stream.received, buffer := [], start := 0 }
  else stream

section Drain

variable [Unicode]

/-- Decode the next record once the header is behind it, if all of its bytes have arrived. -/
def nextBody (stream : RecordStream) : Except ParseError (Option Pb.RecordRow) × RecordStream :=
  let prefixSize := stream.layout.prefixSize
  if stream.available < prefixSize then (.ok none, stream)
  -- A zero-length prefix must not be mistaken for one more record.
  else if prefixSize = 0 ∧ stream.available = 0 then (.ok none, stream)
  else
    match readPrefix stream.layout stream.options stream.bufferBase stream.pending with
    | .error e => (.error e, stream)
    | .ok (record, bodySize) =>
      let total := prefixSize + bodySize
      if stream.available < total then (.ok none, stream)
      else
        match decodeCells record (slice stream.pending prefixSize total) stream.options with
        | .error e => (.error e, stream)
        | .ok cells =>
          let row : Pb.RecordRow := {
            recordType := record.name
            rowIndex := stream.rowIndex record.name
            recordIndex := stream.recordsKept
            byteOffset := stream.bufferBase
            byteLength := total
            cells := cells }
          (.ok (some row), stream.commit record total)

/-- Decode the next record, if all of its bytes have arrived. -/
def nextRecord (stream : RecordStream) : Except ParseError (Option Pb.RecordRow) × RecordStream :=
  if stream.truncated then (.ok none, stream)
  else
    let stream := if 0 < stream.headerLeft then stream.skipHeader else stream
    if 0 < stream.headerLeft then (.ok none, stream) else stream.nextBody

/-- Input bytes beyond the last whole record that the footer does not cover. -/
def leftover (stream : RecordStream) : Nat := stream.decodableEnd - stream.bufferBase

/-- The trailer under some warnings. -/
def trailer (stream : RecordStream) (warnings : List Pb.ParseWarning) : Pb.ParseStatus where
  recordsKept := stream.recordsKept
  bytesReceived := stream.received
  bytesConsumed := stream.bufferBase
  trailingBytes := stream.leftover
  truncated := stream.truncated
  warnings := warnings
  rowsPerRecordType := stream.rowsPerType

/-- The warning about an input that does not reach its own boundaries. -/
def shortWarning (stream : RecordStream) : Pb.ParseWarning where
  code := Pb.WarningCode.inputShorterThanBoundaries.toI32
  message := s!"the input is {stream.received} bytes, shorter than the " ++
    s!"{stream.layout.headerSize}-byte header plus {stream.layout.footerSize}-byte footer " ++
    "the layout declares"
  byteOffset := stream.received

/-- The warning about a walk cut by `max_records`. -/
def cutWarning (stream : RecordStream) : Pb.ParseWarning where
  code := Pb.WarningCode.maxRecordsReached.toI32
  message := s!"stopped after {stream.recordsKept} records; " ++
    s!"{stream.received - stream.bufferBase} bytes of input were not decoded"
  byteOffset := stream.bufferBase

/-- The text about an input that ends inside a record. -/
def partialMessage (stream : RecordStream) : String :=
  s!"the input ends inside a record: {stream.leftover} bytes after the last whole record at " ++
    s!"byte {stream.bufferBase}"

/-- The warning about an input that ends inside a record. -/
def partialWarning (stream : RecordStream) : Pb.ParseWarning where
  code := Pb.WarningCode.trailingPartialRecord.toI32
  message := stream.partialMessage
  byteOffset := stream.bufferBase

/-- Build the trailer once the input is over and no record is left. -/
def status (stream : RecordStream) : Except ParseError Pb.ParseStatus :=
  if stream.received < stream.layout.headerSize + stream.layout.footerSize then
    .ok (stream.trailer [stream.shortWarning])
  else if stream.truncated then
    .ok (stream.trailer [stream.cutWarning])
  else if 0 < stream.leftover then
    if stream.options.abortOnError then .error (.invalid stream.partialMessage)
    else .ok (stream.trailer [stream.partialWarning])
  else .ok (stream.trailer [])

/-- Ask for records until there is none, at most `fuel` times. -/
def drainFor : Nat → RecordStream → List Pb.RecordRow × Except ParseError RecordStream
  | 0, stream => ([], .ok stream)
  | fuel + 1, stream =>
    match stream.nextRecord with
    | (.error e, _) => ([], .error e)
    | (.ok none, stream) => ([], .ok stream)
    | (.ok (some row), stream) => ((row :: (drainFor fuel stream).1), (drainFor fuel stream).2)

/-- Ask for records until there is none or one cannot be decoded. A record costs at least one of the
unconsumed bytes, so they bound the number of calls. -/
def drain (stream : RecordStream) : List Pb.RecordRow × Except ParseError RecordStream :=
  drainFor (stream.pending.length + 1) stream

/-- Push chunks in order and drain after each, until a record cannot be decoded. -/
def feed (stream : RecordStream) :
    List (List UInt8) → List Pb.RecordRow × Except ParseError RecordStream
  | [] => ([], .ok stream)
  | chunk :: chunks =>
    match (stream.push chunk).drain with
    | (rows, .error e) => (rows, .error e)
    | (rows, .ok stream) => (rows ++ (feed stream chunks).1, (feed stream chunks).2)

end Drain

end RecordStream

/-- How a walk ends: at a record that cannot be decoded, or at the end of the input with the trailer
or the error `status` makes of it. -/
inductive WalkEnd where
  | failed (e : ParseError)
  | finished (status : Except ParseError Pb.ParseStatus)

/-- The whole walk of one parse: every chunk pushed and drained, the input finished, one last drain,
and the trailer. -/
def walk [Unicode] (layout : Layout) (options : DecodeOptions) (chunks : List (List UInt8)) :
    List Pb.RecordRow × WalkEnd :=
  match (RecordStream.new layout options).feed chunks with
  | (rows, .error e) => (rows, .failed e)
  | (rows, .ok stream) =>
    match stream.finishInput.drain with
    | (rows', .error e) => (rows ++ rows', .failed e)
    | (rows', .ok stream) => (rows ++ rows', .finished stream.status)

section Sample

attribute [local instance] asciiUnicode

/-- Settings without a limit, on the default code page. -/
def sampleOptions : DecodeOptions where
  codec := ⟨⟨"cp037", Codepages.cp037⟩, List.mem_cons_self⟩
  stripControlCharacters := true
  maxRecords := 0
  abortOnError := false

/-- An input of the sample layout: its header, one record, and its footer, in two chunks. -/
def sampleChunks : List (List UInt8) := [[0, 0, 5, 0xc1], [0xc2, 0x12, 0x3c, 0xff]]

/-- The row of the sample input. -/
def sampleRow : Pb.RecordRow where
  recordType := "sale"
  rowIndex := 0
  recordIndex := 0
  byteOffset := 2
  byteLength := 5
  cells := [
    { name := "ITEM", type := 1, value := some (.text "AB") },
    { name := "PRICE", type := 4,
      value := some (.decimal { text := "12.3", scale := 1, unscaled := some 123 }) }]

/-- The trailer of the sample input. -/
def sampleStatus : Pb.ParseStatus where
  recordsKept := 1
  bytesReceived := 8
  bytesConsumed := 7
  trailingBytes := 0
  truncated := false
  warnings := []
  rowsPerRecordType := [("sale", 1)]

lemma walk_sample :
    walk sampleLayout sampleOptions sampleChunks
      = ([sampleRow], .finished (.ok sampleStatus)) := rfl

end Sample

end GrpcEbcdic

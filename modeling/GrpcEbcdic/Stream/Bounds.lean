import GrpcEbcdic.Stream.Reader

/-!
# Checked accesses

In the source a slice expression or a subtraction that leaves its bounds panics. Here the walk's
operations are written once more with every such access checked: `none` is a panic. `InBounds` says
where the cursor stands between two calls. From a state that has it, on a valid layout, the checked
operations are those of the walker, so no sequence of calls ever panics.
-/

namespace GrpcEbcdic
open Rust

/-- `a - b`, which panics below zero. -/
def checkedSub (a b : Nat) : Option Nat := if b ≤ a then some (a - b) else none

/-- `&xs[..b]`, which panics beyond the end. -/
def sliceTo {α : Type} (xs : List α) (b : Nat) : Option (List α) :=
  if b ≤ xs.length then some (xs.take b) else none

/-- `&xs[a..]`, which panics beyond the end. -/
def sliceFrom {α : Type} (xs : List α) (a : Nat) : Option (List α) :=
  if a ≤ xs.length then some (xs.drop a) else none

lemma checkedSub_eq {a b : Nat} (le : b ≤ a) : checkedSub a b = some (a - b) := if_pos le

lemma sliceTo_eq {α : Type} {xs : List α} {b : Nat} (le : b ≤ xs.length) :
    sliceTo xs b = some (xs.take b) := if_pos le

lemma sliceFrom_eq {α : Type} {xs : List α} {a : Nat} (le : a ≤ xs.length) :
    sliceFrom xs a = some (xs.drop a) := if_pos le

/-- A computation that may panic, and otherwise succeeds or fails. -/
abbrev Checked (α : Type) := ExceptT ParseError Option α

namespace Checked

/-- A result without a panic. -/
def settled {α : Type} (res : Except ParseError α) : Checked α := ExceptT.mk (some res)

/-- An access that does not panic goes on with what it read. -/
lemma access_bind {α β : Type} (a : α) (f : α → Checked β) :
    ((liftM (some a) : Checked α) >>= f) = f a := rfl

/-- Two computations that panic nowhere, one after the other. -/
lemma settled_bind {α β : Type} {res : Except ParseError α} {f : α → Checked β}
    {g : α → Except ParseError β} (eq : ∀ a, f a = settled (g a)) :
    (settled res >>= f) = settled (res >>= g) := by
  cases res with
  | error e => rfl
  | ok a => exact eq a

/-- A pass over a list that panics nowhere. -/
lemma mapM_settled {α β : Type} {f : α → Checked β} {g : α → Except ParseError β} {xs : List α}
    (eq : ∀ x ∈ xs, f x = settled (g x)) : xs.mapM f = settled (xs.mapM g) := by
  induction xs with
  | nil => rfl
  | cons x xs ih =>
    obtain ⟨head, tail⟩ := List.forall_mem_cons.mp eq
    rw [List.mapM_cons, List.mapM_cons, head, ih tail]
    cases g x with
    | error e => rfl
    | ok b => cases xs.mapM g <;> rfl

/-- Render a number: the padding, the split and both parts of the digits. -/
def renderDecimal (unscaled : Int) (scale : Nat) : Option String :=
  if scale = 0 then some (toString unscaled)
  else do
    let digits := (toString unscaled.natAbs).toList
    let padded ←
      if digits.length ≤ scale then
        (checkedSub (scale + 1) digits.length).map (List.replicate · '0' ++ digits)
      else some digits
    let split ← checkedSub padded.length scale
    let sign := if unscaled < 0 then ['-'] else []
    let whole ← sliceTo padded split
    let fraction ← sliceFrom padded split
    return String.ofList (sign ++ whole ++ ['.'] ++ fraction)

lemma renderDecimal_eq (unscaled : Int) (scale : Nat) :
    renderDecimal unscaled scale = some (GrpcEbcdic.renderDecimal unscaled scale) := by
  unfold renderDecimal GrpcEbcdic.renderDecimal
  split
  · rfl
  · generalize (toString unscaled.natAbs).toList = digits
    by_cases short : digits.length ≤ scale
    · have missing : digits.length ≤ scale + 1 := by omega
      have long : scale ≤ (List.replicate (scale + 1 - digits.length) '0' ++ digits).length := by
        rw [List.length_append, List.length_replicate]
        omega
      simp only [short, if_true, checkedSub_eq missing, Option.map_some, Option.bind_eq_bind,
        Option.bind_some, checkedSub_eq long, sliceTo_eq (Nat.sub_le _ scale),
        sliceFrom_eq (Nat.sub_le _ scale)]
      rfl
    · have long : scale ≤ digits.length := by omega
      simp only [short, if_false, Option.bind_eq_bind, Option.bind_some, checkedSub_eq long,
        sliceTo_eq (Nat.sub_le _ scale), sliceFrom_eq (Nat.sub_le _ scale)]
      rfl

/-- Render a decoded value. -/
def toDisplayString : FieldValue → Option String
  | .text t => some t
  | .number unscaled scale => renderDecimal unscaled scale

lemma toDisplayString_eq (value : FieldValue) :
    toDisplayString value = some value.toDisplayString := by
  cases value with
  | text t => rfl
  | number unscaled scale => exact renderDecimal_eq unscaled scale

/-- Shape a decoded value into a wire cell. -/
def toCellValue (value : FieldValue) (scale : Nat) : Option Pb.CellValue :=
  match value with
  | .text text => some (.text text)
  | .number unscaled ownScale =>
    if scale = 0 then
      match toI64 unscaled with
      | some fits => some (.integer fits)
      | none => do
        let text ← renderDecimal unscaled 0
        return .decimal { text := text, scale := 0, unscaled := none }
    else do
      let text ← renderDecimal unscaled ownScale
      return .decimal { text := text, scale := ownScale, unscaled := toI64 unscaled }

lemma toCellValue_eq (value : FieldValue) (scale : Nat) :
    toCellValue value scale = some (GrpcEbcdic.toCellValue value scale) := by
  cases value with
  | text t => rfl
  | number unscaled _ =>
    simp only [toCellValue, GrpcEbcdic.toCellValue, renderDecimal_eq, Option.bind_eq_bind,
      Option.bind_some]
    by_cases whole : scale = 0
    · rw [if_pos whole, if_pos whole]
      cases toI64 unscaled <;> rfl
    · rw [if_neg whole, if_neg whole]
      rfl

/-- The byte of a field that carries its sign: the last of a decimal, the first of a binary number. -/
def signByte (kind : FieldKind) (bytes : List UInt8) : Option (Option UInt8) :=
  match kind with
  | .packedDecimal | .zonedDecimal => do
    let last ← checkedSub bytes.length 1
    let byte ← bytes[last]?
    return some byte
  | .integer | .unsignedInteger => do
    let byte ← bytes[0]?
    return some byte
  | .text | .skip => some none

lemma signByte_isSome (kind : FieldKind) {bytes : List UInt8} (ne : bytes ≠ []) :
    ∃ byte, signByte kind bytes = some byte := by
  have pos := List.length_pos_iff.mpr ne
  have last : bytes[bytes.length - 1]? = some (bytes[bytes.length - 1]) :=
    List.getElem?_eq_getElem (by omega)
  have first : bytes[0]? = some bytes[0] := List.getElem?_eq_getElem pos
  cases kind <;> simp [signByte, checkedSub_eq pos, last, first]

variable [Unicode]

/-- Decode one field's bytes. -/
def decodeField (field : Field) (bytes : List UInt8) (options : DecodeOptions) :
    Checked FieldValue :=
  if bytes = [] then settled (GrpcEbcdic.decodeField field bytes options)
  else do
    let _ ← signByte field.kind bytes
    settled (GrpcEbcdic.decodeField field bytes options)

lemma decodeField_eq (field : Field) (bytes : List UInt8) (options : DecodeOptions) :
    decodeField field bytes options = settled (GrpcEbcdic.decodeField field bytes options) := by
  unfold decodeField
  split
  · rfl
  · next ne =>
    obtain ⟨byte, eq⟩ := signByte_isSome field.kind ne
    rw [eq]
    rfl

/-- Decode one field of a record body into a wire cell. The slice itself is taken by `get`. -/
def decodeCell (record : RecordLayout) (body : List UInt8) (options : DecodeOptions)
    (field : Field) : Checked Pb.Cell :=
  match getSlice body field.offset field.stop with
  | none => settled (GrpcEbcdic.decodeCell record body options field)
  | some bytes => do
    let value ← (decodeField field bytes options).adapt (·.inField field record)
    let _ ← toCellValue value field.scale
    settled (GrpcEbcdic.decodeCell record body options field)

lemma decodeCell_eq (record : RecordLayout) (body : List UInt8) (options : DecodeOptions)
    (field : Field) :
    decodeCell record body options field
      = settled (GrpcEbcdic.decodeCell record body options field) := by
  unfold decodeCell
  cases get : getSlice body field.offset field.stop with
  | none => rfl
  | some bytes =>
    simp only [decodeField_eq, toCellValue_eq]
    unfold GrpcEbcdic.decodeCell
    rw [get]
    dsimp only
    cases GrpcEbcdic.decodeField field bytes options <;> rfl

/-- Decode every non-filler field of one record body into a wire cell. -/
def decodeCells (record : RecordLayout) (body : List UInt8) (options : DecodeOptions) :
    Checked (List Pb.Cell) :=
  (record.fields.filter (·.kind ≠ .skip)).mapM (decodeCell record body options)

lemma decodeCells_eq (record : RecordLayout) (body : List UInt8) (options : DecodeOptions) :
    decodeCells record body options = settled (GrpcEbcdic.decodeCells record body options) :=
  mapM_settled fun field _ => decodeCell_eq record body options field

omit [Unicode] in
/-- The unconsumed bytes. -/
def pending (stream : RecordStream) : Option (List UInt8) := sliceFrom stream.buffer stream.start

omit [Unicode] in
/-- Bytes available for decoding right now. -/
def available (stream : RecordStream) : Option Nat :=
  (pending stream).map fun pending => min (stream.decodableEnd - stream.bufferBase) pending.length

/-- The length a record declares. -/
def readLength (stream : RecordStream) : Checked (Option Int) :=
  match stream.layout.recordLengthField with
  | none => settled (.ok none)
  | some field => do
    let pending ← pending stream
    let bytes ← getSlice pending 0 field.size
    let _ ← decodeField field bytes stream.options
    settled (GrpcEbcdic.readLength stream.layout stream.options stream.bufferBase pending)

/-- The record type a record carries. -/
def readType (stream : RecordStream) : Checked (Option String) :=
  match stream.layout.recordTypeField with
  | none => settled (.ok none)
  | some field => do
    let cursor := optionalSize stream.layout.recordLengthField
    let pending ← pending stream
    let bytes ← getSlice pending cursor (cursor + field.size)
    let value ← decodeField field bytes stream.options
    let recordType ← toDisplayString value
    return some recordType

/-- Read the record prefix. -/
def readPrefix (stream : RecordStream) : Checked (RecordLayout × Nat) := do
  let declaredLength ← readLength stream
  let recordType ← readType stream
  match stream.layout.select recordType with
  | none =>
    throw (.invalid ("no record schema has selector " ++ debug (recordType.getD "") ++
      s!" (record at byte {stream.bufferBase})"))
  | some record => do
    let size ← settled (bodySize stream.layout stream.bufferBase record declaredLength)
    return (record, size)

/-- Append a chunk of input: the consumed bytes are drained off the front. -/
def push (stream : RecordStream) (chunk : List UInt8) : Option RecordStream :=
  let received := stream.received + chunk.length
  if stream.truncated then
    some { stream with received := received, bufferBase := received, buffer := [], start := 0 }
  else do
    let rest ← sliceFrom stream.buffer stream.start
    return { stream with received := received, buffer := rest ++ chunk, start := 0 }

/-- Skip as much of what is left of the header as is there. -/
def skipHeader (stream : RecordStream) : Option RecordStream := do
  let available ← available stream
  let skip := min stream.headerLeft available
  let headerLeft ← checkedSub stream.headerLeft skip
  return { stream.consume skip with headerLeft := headerLeft }

/-- Decode the next record once the header is behind it. -/
def nextBody (stream : RecordStream) :
    Option (Except ParseError (Option Pb.RecordRow) × RecordStream) := do
  let prefixSize := stream.layout.prefixSize
  let available ← available stream
  if available < prefixSize then return (.ok none, stream)
  else if prefixSize = 0 ∧ available = 0 then return (.ok none, stream)
  else
    match ← (readPrefix stream).run with
    | .error e => return (.error e, stream)
    | .ok (record, bodySize) =>
      let total := prefixSize + bodySize
      if available < total then return (.ok none, stream)
      else
        let pending ← pending stream
        let body ← getSlice pending prefixSize total
        match ← (decodeCells record body stream.options).run with
        | .error e => return (.error e, stream)
        | .ok cells =>
          let row : Pb.RecordRow := {
            recordType := record.name
            rowIndex := stream.rowIndex record.name
            recordIndex := stream.recordsKept
            byteOffset := stream.bufferBase
            byteLength := total
            cells := cells }
          return (.ok (some row), stream.commit record total)

/-- Decode the next record, if all of its bytes have arrived. -/
def nextRecord (stream : RecordStream) :
    Option (Except ParseError (Option Pb.RecordRow) × RecordStream) := do
  if stream.truncated then return (.ok none, stream)
  else
    let stream ← if 0 < stream.headerLeft then skipHeader stream else some stream
    if 0 < stream.headerLeft then return (.ok none, stream) else nextBody stream

end Checked

/-- Where the cursor of a walk stands between two calls, when it has skipped some header bytes. -/
structure InBounds (layout : Layout) (skipped : Nat) (stream : RecordStream) : Prop where
  sameLayout : stream.layout = layout
  start : stream.start ≤ stream.buffer.length
  base : stream.bufferBase + (stream.buffer.length - stream.start) = stream.received
  header : stream.headerLeft + skipped = layout.headerSize

namespace InBounds

variable {layout : Layout} {skipped : Nat} {stream : RecordStream}

lemma pending_eq (inb : InBounds layout skipped stream) :
    Checked.pending stream = some stream.pending := sliceFrom_eq inb.start

lemma available_eq (inb : InBounds layout skipped stream) :
    Checked.available stream = some stream.available := by
  rw [Checked.available, inb.pending_eq]
  rfl

/-- What is available is there. -/
lemma available_le (stream : RecordStream) :
    stream.available ≤ stream.buffer.length - stream.start := by
  unfold RecordStream.available RecordStream.pending
  rw [List.length_drop]
  exact min_le_right _ _

/-- Consuming bytes that are there keeps the cursor in the buffer. -/
lemma consume (inb : InBounds layout skipped stream) {count : Nat}
    (le : count ≤ stream.available) : InBounds layout skipped (stream.consume count) := by
  have there := available_le stream
  have start := inb.start
  have base := inb.base
  refine ⟨inb.sameLayout, ?_, ?_, inb.header⟩
  · simp only [RecordStream.consume]
    omega
  · simp only [RecordStream.consume]
    omega

lemma push_eq (inb : InBounds layout skipped stream) (chunk : List UInt8) :
    Checked.push stream chunk = some (stream.push chunk) := by
  unfold Checked.push RecordStream.push
  rw [sliceFrom_eq inb.start]
  split <;> rfl

lemma push (inb : InBounds layout skipped stream) (chunk : List UInt8) :
    InBounds layout skipped (stream.push chunk) := by
  have base := inb.base
  unfold RecordStream.push
  split
  · exact ⟨inb.sameLayout, Nat.le_refl _, by simp, inb.header⟩
  · refine ⟨inb.sameLayout, Nat.zero_le _, ?_, inb.header⟩
    simp only [List.length_append, List.length_drop]
    omega

lemma skipHeader_eq (inb : InBounds layout skipped stream) :
    Checked.skipHeader stream = some stream.skipHeader := by
  simp only [Checked.skipHeader, inb.available_eq, Option.bind_eq_bind, Option.bind_some,
    checkedSub_eq (min_le_left stream.headerLeft stream.available)]
  rfl

lemma skipHeader (inb : InBounds layout skipped stream) :
    InBounds layout (skipped + min stream.headerLeft stream.available) stream.skipHeader := by
  have moved := inb.consume (min_le_right stream.headerLeft stream.available)
  have header := inb.header
  refine ⟨moved.sameLayout, moved.start, moved.base, ?_⟩
  simp only [RecordStream.skipHeader]
  omega

/-- Consuming a record keeps the cursor in the buffer, also where it drops the buffer. -/
lemma commit (inb : InBounds layout skipped stream) (record : RecordLayout) {total : Nat}
    (le : total ≤ stream.available) : InBounds layout skipped (stream.commit record total) := by
  have moved := inb.consume le
  unfold RecordStream.commit
  dsimp only
  split
  · exact ⟨moved.sameLayout, Nat.le_refl _, Nat.add_zero _, moved.header⟩
  · exact ⟨moved.sameLayout, moved.start, moved.base, moved.header⟩

variable [Unicode]

/-- What is available covers the prefix, so the length field is there. -/
lemma readLength_eq (v : layout.Valid) (inb : InBounds layout skipped stream)
    (room : layout.prefixSize ≤ stream.pending.length) :
    Checked.readLength stream
      = Checked.settled
          (readLength stream.layout stream.options stream.bufferBase stream.pending) := by
  have size := v.prefix_eq
  unfold Checked.readLength readLength
  rw [inb.sameLayout]
  cases h : layout.recordLengthField with
  | none => rfl
  | some field =>
    rw [h] at size
    simp only [optionalSize, Option.map_some, Option.getD_some] at size
    have there : field.size ≤ stream.pending.length := by omega
    simp only [inb.pending_eq, getSlice_eq (Nat.zero_le _) there, Checked.access_bind,
      Checked.decodeField_eq]
    cases decodeField field (slice stream.pending 0 field.size) stream.options <;> rfl

/-- And so is the type field behind it. -/
lemma readType_eq (v : layout.Valid) (inb : InBounds layout skipped stream)
    (room : layout.prefixSize ≤ stream.pending.length) :
    Checked.readType stream
      = Checked.settled (readType stream.layout stream.options stream.pending) := by
  have size := v.prefix_eq
  unfold Checked.readType readType
  rw [inb.sameLayout]
  cases h : layout.recordTypeField with
  | none => rfl
  | some field =>
    rw [h] at size
    have there : optionalSize layout.recordLengthField + field.size ≤ stream.pending.length := by
      simp only [optionalSize, Option.map_some, Option.getD_some] at size ⊢
      omega
    simp only [inb.pending_eq, getSlice_eq (Nat.le_add_right _ _) there, Checked.access_bind,
      Checked.decodeField_eq, Checked.toDisplayString_eq]
    generalize decodeField field _ stream.options = value
    cases value <;> rfl

lemma readPrefix_eq (v : layout.Valid) (inb : InBounds layout skipped stream)
    (there : layout.prefixSize ≤ stream.available) :
    Checked.readPrefix stream
      = Checked.settled
          (readPrefix stream.layout stream.options stream.bufferBase stream.pending) := by
  have room : layout.prefixSize ≤ stream.pending.length := there.trans (min_le_right _ _)
  unfold Checked.readPrefix readPrefix
  rw [inb.readLength_eq v room, inb.readType_eq v room]
  refine Checked.settled_bind fun declared => Checked.settled_bind fun recordType => ?_
  cases stream.layout.select recordType with
  | none => rfl
  | some record => exact Checked.settled_bind fun size => rfl

/-- Behind the header no access of the next record panics. -/
lemma nextBody_eq (v : layout.Valid) (inb : InBounds layout skipped stream) :
    Checked.nextBody stream = some stream.nextBody := by
  unfold Checked.nextBody RecordStream.nextBody
  simp only [inb.available_eq, Option.bind_eq_bind, Option.bind_some]
  split_ifs with short empty
  · rfl
  · rfl
  · rw [inb.sameLayout] at short
    rw [inb.readPrefix_eq v (Nat.not_lt.mp short)]
    cases readPrefix stream.layout stream.options stream.bufferBase stream.pending with
    | error e => rfl
    | ok found =>
      obtain ⟨record, size⟩ := found
      dsimp only [Checked.settled, ExceptT.run_mk, Option.bind_some]
      split_ifs with long
      · rfl
      · have there : stream.layout.prefixSize + size ≤ stream.pending.length :=
          (Nat.not_lt.mp long).trans (min_le_right _ _)
        rw [inb.pending_eq, Option.bind_some, getSlice_eq (Nat.le_add_right _ _) there,
          Option.bind_some, Checked.decodeCells_eq]
        cases decodeCells record (slice stream.pending stream.layout.prefixSize
          (stream.layout.prefixSize + size)) stream.options <;> rfl

/-- What asking for the next record does to the cursor. -/
lemma nextBody (inb : InBounds layout skipped stream) :
    InBounds layout skipped stream.nextBody.2 := by
  unfold RecordStream.nextBody
  dsimp only
  split_ifs with short empty
  · exact inb
  · exact inb
  · split
    · exact inb
    · split_ifs with long
      · exact inb
      · split
        · exact inb
        · exact inb.commit _ (Nat.not_lt.mp long)

end InBounds

/-- A call on a walk. -/
inductive Call where
  | push (chunk : List UInt8)
  | nextRecord
  | finishInput

section Calls

variable [Unicode]

/-- The walk a call leaves. -/
def RecordStream.call (stream : RecordStream) : Call → RecordStream
  | .push chunk => stream.push chunk
  | .nextRecord => stream.nextRecord.2
  | .finishInput => stream.finishInput

/-- The walk some calls leave. -/
def RecordStream.calls (stream : RecordStream) (calls : List Call) : RecordStream :=
  calls.foldl RecordStream.call stream

/-- The header bytes a call skips. -/
def RecordStream.skips (stream : RecordStream) : Call → Nat
  | .nextRecord => if stream.truncated then 0 else min stream.headerLeft stream.available
  | .push _ => 0
  | .finishInput => 0

/-- The header bytes some calls skip. -/
def RecordStream.skipped (stream : RecordStream) : List Call → Nat
  | [] => 0
  | call :: calls => stream.skips call + (stream.call call).skipped calls

variable {layout : Layout} {skipped : Nat} {stream : RecordStream}

/-- No access of the next record panics. -/
lemma InBounds.nextRecord_eq (v : layout.Valid) (inb : InBounds layout skipped stream) :
    Checked.nextRecord stream = some stream.nextRecord := by
  unfold Checked.nextRecord RecordStream.nextRecord
  split_ifs with cut header
  · rfl
  · rw [inb.skipHeader_eq]
    dsimp only [Option.bind_eq_bind, Option.bind_some]
    split_ifs
    · rfl
    · exact inb.skipHeader.nextBody_eq v
  · dsimp only [Option.bind_eq_bind, Option.bind_some]
    rw [if_neg header, if_neg header]
    exact inb.nextBody_eq v

/-- Each call keeps the cursor in bounds. -/
lemma InBounds.call (inb : InBounds layout skipped stream) (call : Call) :
    InBounds layout (skipped + stream.skips call) (stream.call call) := by
  cases call with
  | push chunk => exact inb.push chunk
  | finishInput => exact ⟨inb.sameLayout, inb.start, inb.base, inb.header⟩
  | nextRecord =>
    unfold RecordStream.call RecordStream.skips RecordStream.nextRecord
    split_ifs with cut header
    · exact inb
    · dsimp only
      split_ifs
      · exact inb.skipHeader
      · exact inb.skipHeader.nextBody
    · dsimp only
      rw [if_neg header, Nat.eq_zero_of_not_pos header, Nat.zero_min]
      exact inb.nextBody

/-- And so do any calls, one after the other. -/
lemma InBounds.calls (inb : InBounds layout skipped stream) (calls : List Call) :
    InBounds layout (skipped + stream.skipped calls) (stream.calls calls) := by
  induction calls generalizing skipped stream with
  | nil => exact inb
  | cons call calls ih =>
    have rest := ih (inb.call call)
    rw [Nat.add_assoc] at rest
    exact rest

omit [Unicode] in
/-- A new walk has the whole header before it. -/
lemma inBounds_new (layout : Layout) (options : DecodeOptions) :
    InBounds layout 0 (RecordStream.new layout options) :=
  ⟨rfl, Nat.le_refl _, rfl, rfl⟩

/-- Whatever calls are made on a walk over whatever bytes, its cursor stays in the buffer, its counters
add up, and no access of the next call panics. -/
theorem calls_in_bounds [SerdeJson] {request : Pb.ParseOptions} (ok : resolve request = .ok layout)
    (options : DecodeOptions) (calls : List Call) :
    let start := RecordStream.new layout options
    let stream := start.calls calls
    stream.start ≤ stream.buffer.length ∧
    stream.bufferBase + (stream.buffer.length - stream.start) = stream.received ∧
    stream.headerLeft + start.skipped calls = layout.headerSize ∧
    (∀ chunk, Checked.push stream chunk = some (stream.push chunk)) ∧
    Checked.nextRecord stream = some stream.nextRecord := by
  have inb := (inBounds_new layout options).calls calls
  rw [Nat.zero_add] at inb
  exact ⟨inb.start, inb.base, inb.header, inb.push_eq, inb.nextRecord_eq (resolve_valid ok)⟩

end Calls

section Sample

attribute [local instance] asciiUnicode noJson

/-- The cursor after the first chunk of the sample input. -/
theorem calls_in_bounds_sample :
    let stream := (RecordStream.new sampleLayout sampleOptions).calls
      [.push [0, 0, 5, 0xc1], .nextRecord]
    stream.bufferBase = 2 ∧ stream.headerLeft = 0 ∧
      Checked.nextRecord stream = some stream.nextRecord :=
  ⟨rfl, rfl, (calls_in_bounds resolve_sample sampleOptions _).2.2.2.2⟩

end Sample

end GrpcEbcdic

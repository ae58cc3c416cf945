import GrpcEbcdic.Stream.Routing

/-!
# What a walk fails with

A walk fails on what the request says or sends, and on nothing else: with `Invalid`, or with `Unsupported`.
-/

namespace GrpcEbcdic
open Rust Incremental Fallible

/-- An error about the request itself. -/
def ParseError.IsFault (e : ParseError) : Prop := e.IsInvalid ∨ e.IsUnsupported

lemma ParseError.isFault_invalid (message : String) : IsFault (.invalid message) := .inl ⟨message, rfl⟩

lemma ParseError.isFault_unsupported (message : String) : IsFault (.unsupported message) :=
  .inr ⟨message, rfl⟩

open ParseError

section Faults

lemma decodeBinary_faults (bytes : List UInt8) (signed : Bool) :
    Fails IsFault (decodeBinary bytes signed) := by
  unfold decodeBinary
  split
  · exact .error (isFault_invalid _)
  · split_ifs
    · exact .error (isFault_unsupported _)
    · exact .error (isFault_unsupported _)
    · exact .ok _
    · exact .ok _

lemma decodePacked_faults (bytes : List UInt8) : Fails IsFault (decodePacked bytes) :=
  fun _ failed => .inl (decodePacked_error failed)

lemma decodeZoned_faults (bytes : List UInt8) : Fails IsFault (decodeZoned bytes) :=
  fun _ failed => .inl (decodeZoned_error failed)

variable [Unicode] (layout : Layout) (options : DecodeOptions)

lemma decodeField_faults (field : Field) (bytes : List UInt8) :
    Fails IsFault (decodeField field bytes options) := by
  unfold decodeField
  cases field.kind with
  | text =>
    apply Fails.map
    unfold decodeText
    split
    · exact .error (isFault_invalid _)
    · exact .ok _
  | integer => exact (decodeBinary_faults bytes true).map _
  | unsignedInteger => exact (decodeBinary_faults bytes false).map _
  | packedDecimal => exact (decodePacked_faults bytes).map _
  | zonedDecimal => exact (decodeZoned_faults bytes).map _
  | skip => exact .ok _

lemma decodeCells_faults (record : RecordLayout) (body : List UInt8) :
    Fails IsFault (decodeCells record body options) := by
  apply Fails.mapM
  intro field
  have faults := decodeField_faults options field
  unfold decodeCell
  split
  · exact .error (isFault_invalid _)
  · next bytes _ =>
    split
    · next e failed =>
      have fault := faults bytes e failed
      apply Fails.error
      cases e with
      | invalid message => exact isFault_invalid _
      | _ => exact fault
    · exact .ok _

lemma readLength_faults (bufferBase : Nat) (pending : List UInt8) :
    Fails IsFault (readLength layout options bufferBase pending) := by
  unfold readLength
  cases layout.recordLengthField with
  | none => exact .ok _
  | some field =>
    dsimp only
    split
    · next e failed => exact .error (decodeField_faults options field _ e failed)
    · split
      · exact .ok _
      · exact .error (isFault_invalid _)

lemma readType_faults (pending : List UInt8) : Fails IsFault (readType layout options pending) := by
  unfold readType
  cases layout.recordTypeField with
  | none => exact .ok _
  | some field => exact (decodeField_faults options field _).map _

omit [Unicode] in
lemma bodySize_faults (bufferBase : Nat) (record : RecordLayout) (declaredLength : Option Int) :
    Fails IsFault (bodySize layout bufferBase record declaredLength) := by
  unfold bodySize
  dsimp only
  split_ifs
  · exact .error (isFault_invalid _)
  · split
    · exact .error (isFault_invalid _)
    · split_ifs
      · exact .error (isFault_unsupported _)
      · exact .ok _

lemma readPrefix_faults (bufferBase : Nat) (pending : List UInt8) :
    Fails IsFault (readPrefix layout options bufferBase pending) := by
  apply (readLength_faults layout options bufferBase pending).bind
  intro declaredLength
  apply (readType_faults layout options pending).bind
  intro recordType
  split
  · exact .error (isFault_invalid _)
  · next record _ =>
    exact (bodySize_faults layout bufferBase record declaredLength).bind fun size => .ok _

variable {layout options}

/-- A step that fails blames the request. -/
lemma recordStep_fault {σ : WalkState} {xs : List UInt8} {e : ParseError}
    (failed : recordStep layout options σ xs = .fail e) : e.IsFault := by
  unfold recordStep at failed
  split_ifs at failed
  split at failed
  · next e' refused =>
    cases failed
    exact readPrefix_faults layout options σ.pos xs e refused
  · dsimp only at failed
    split_ifs at failed
    split at failed
    · next e' refused =>
      cases failed
      exact decodeCells_faults options _ _ e refused
    · cases failed

/-- So does a run. -/
lemma batch_fault (v : layout.Valid) {input : List UInt8} {e : ParseError}
    (failed : (batch v options input).2 = .failed e) : e.IsFault := by
  obtain ⟨σ, rest, _, halt⟩ :=
    (recordReader v options).run_trace (walkStart layout) (recordData layout input)
  change (recordReader v options).run σ rest = ([], (batch v options input).2) at halt
  rw [failed] at halt
  rcases (recordReader v options).run_halt halt with ⟨_, no⟩ | ⟨_, no⟩ | ⟨e', step, eq⟩
  · cases no
  · cases no
  · cases eq
    exact recordStep_fault step

omit [Unicode] in
/-- The trailer is refused on the request's behalf. -/
lemma RecordStream.status_faults (stream : RecordStream) : Fails IsFault stream.status := by
  unfold RecordStream.status
  split_ifs
  · exact .ok _
  · exact .ok _
  · exact .error (isFault_invalid _)
  · exact .ok _
  · exact .ok _

end Faults

end GrpcEbcdic

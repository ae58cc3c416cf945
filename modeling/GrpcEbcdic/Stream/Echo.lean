import GrpcEbcdic.Layout.Echo
import GrpcEbcdic.Stream.Simulation

/-!
# The echoed layout decodes alike

A walk reads of a field its name, its bytes, its kind and its scale, and nothing a copybook declares
beside them. So the layout that a `LayoutInfo` reports and the layout it was reported of decode every
input to the same rows.
-/

namespace GrpcEbcdic
open Rust Fallible Incremental

/-- Two fields that differ in what a copybook declares at most. -/
structure Field.Same (field other : Field) : Prop where
  name : field.name = other.name
  offset : field.offset = other.offset
  size : field.size = other.size
  kind : field.kind = other.kind
  scale : field.scale = other.scale
  picture : field.picture = other.picture

/-- Two record schemas whose fields differ in what a copybook declares at most. -/
structure RecordLayout.Same (record other : RecordLayout) : Prop where
  name : record.name = other.name
  size : record.size = other.size
  selector : record.selector = other.selector
  fields : List.Forall₂ Field.Same record.fields other.fields

lemma RecordLayout.flat_same (record : RecordLayout) : record.flat.Same record := by
  refine ⟨rfl, rfl, rfl, List.forall₂_map_left_iff.mpr (List.forall₂_same.mpr fun field _ => ?_)⟩
  exact ⟨rfl, rfl, rfl, rfl, rfl, rfl⟩

/-- The same schema is selected. -/
lemma Layout.select_flat (layout : Layout) (recordType : Option String) :
    layout.flat.select recordType = (layout.select recordType).map (·.flat) := by
  unfold Layout.select Layout.flat
  cases layout.recordTypeField with
  | none => exact List.head?_map
  | some field => exact List.find?_map

section Walk

variable [Unicode]

/-- A record body decodes to the same cells. -/
lemma decodeCells_flat (record : RecordLayout) (body : List UInt8) (options : DecodeOptions) :
    decodeCells record.flat body options = decodeCells record body options := by
  have cell (field : Field) :
      decodeCell record.flat body options field.flat = decodeCell record body options field := rfl
  unfold decodeCells RecordLayout.flat
  rw [List.filter_map, List.mapM_map]
  exact congrArg (List.mapM · _) (funext cell)

/-- A prefix reads the same. -/
lemma readPrefix_flat (layout : Layout) (options : DecodeOptions) (base : Nat) (xs : List UInt8) :
    readPrefix layout.flat options base xs
      = (readPrefix layout options base xs).map fun found => (found.1.flat, found.2) := by
  have length : readLength layout.flat options base xs = readLength layout options base xs := rfl
  have type : readType layout.flat options xs = readType layout options xs := rfl
  unfold readPrefix
  rw [length, type]
  cases readLength layout options base xs with
  | error e => rfl
  | ok declared =>
    cases readType layout options xs with
    | error e => rfl
    | ok recordType =>
      simp only [ok_bind, layout.select_flat]
      cases layout.select recordType with
      | none => rfl
      | some record =>
        have size : bodySize layout.flat base record.flat declared
            = bodySize layout base record declared := rfl
        simp only [Option.map_some, size]
        cases bodySize layout base record declared <;> rfl

/-- The reader decides the same. -/
lemma recordStep_flat (layout : Layout) (options : DecodeOptions) :
    recordStep layout.flat options = recordStep layout options := by
  funext σ xs
  have size : layout.flat.prefixSize = layout.prefixSize := rfl
  unfold recordStep
  rw [readPrefix_flat, size]
  cases readPrefix layout options σ.pos xs with
  | error e => rfl
  | ok found =>
    simp only [Except.map, decodeCells_flat]
    rfl

/-- And so a walk emits the same rows and ends the same. -/
lemma walk_flat {layout : Layout} (v : layout.Valid) (v' : layout.flat.Valid)
    (options : DecodeOptions) (chunks : List (List UInt8)) :
    walk layout.flat options chunks = walk layout options chunks := by
  have reader : recordReader v' options = recordReader v options := by
    simp only [recordReader, recordStep_flat]
  have start : walkStart layout.flat = walkStart layout := by
    simp only [walkStart, Layout.flat, List.map_map]
    rfl
  have data : recordData layout.flat chunks.flatten = recordData layout chunks.flatten := rfl
  rw [walk_eq v, walk_eq v']
  unfold wholeWalk batch
  rw [reader, start, data]
  rfl

/-- The layout a `LayoutInfo` reports resolves to itself. Sent back as a protobuf layout, behind the
prefix fields of the request or those of the layout, it is accepted, with the same prefix fields and
the same records, field by field; and it decodes every input as before. -/
theorem echo_fixed_point [SerdeJson] {request : Pb.ParseOptions} {layout : Layout}
    (ok : resolve request = .ok layout) (encoding : String)
    {fields : Option Pb.EbcdicField × Option Pb.EbcdicField}
    (original : fields = request.prefixFields ∨ fields = layout.prefixFields) :
    ∃ echoed, resolve (request.echo (layout.toLayoutInfo encoding) fields) = .ok echoed ∧
      echoed.recordLengthField = layout.recordLengthField ∧
      echoed.recordTypeField = layout.recordTypeField ∧
      List.Forall₂ RecordLayout.Same echoed.records layout.records ∧
      ∀ options chunks, walk echoed options chunks = walk layout options chunks := by
  have resolved := resolve_echo ok encoding original
  refine ⟨layout.flat, resolved, rfl, rfl, ?_, fun options chunks => ?_⟩
  · refine List.forall₂_map_left_iff.mpr (List.forall₂_same.mpr fun record _ => ?_)
    exact record.flat_same
  · exact walk_flat (resolve_valid ok) (resolve_valid resolved) options chunks

end Walk

section Sample

attribute [local instance] asciiUnicode noJson

theorem echo_fixed_point_sample :
    ∃ echoed,
      resolve (sampleRequest.echo (sampleLayout.toLayoutInfo "cp037") sampleRequest.prefixFields)
        = .ok echoed ∧
      echoed.recordLengthField = sampleLayout.recordLengthField ∧
      (walk echoed sampleOptions sampleChunks).1 = [sampleRow] := by
  obtain ⟨echoed, resolved, length, _, _, same⟩ :=
    echo_fixed_point resolve_sample "cp037" (.inl (Eq.refl sampleRequest.prefixFields))
  refine ⟨echoed, resolved, length, ?_⟩
  rw [same, walk_sample]

end Sample

end GrpcEbcdic

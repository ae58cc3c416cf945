import GrpcEbcdic.Copybook.Shapes
import GrpcEbcdic.Layout.Accepted
import GrpcEbcdic.Layout.Resolve

/-!
# The echoed layout

A client can send the schema of a `LayoutInfo` back as the layout of another request. The schema
reports a resolved layout, but what arrives goes through the lift and the validation of any other
layout. It passes both, and comes out as it was: `Layout.flat`, the layout without what only a copybook
declares.
-/

namespace GrpcEbcdic
open Rust Fallible

/-- A field of a schema, as a layout declares it. -/
def Pb.FieldSchema.toField (schema : Pb.FieldSchema) : Pb.EbcdicField where
  name := schema.name
  size := schema.size
  type := schema.type
  scale := schema.scale
  picture := schema.picture
  offset := some schema.offset

/-- A schema, as a layout declares it. -/
def Pb.RecordSchema.toLayout (schema : Pb.RecordSchema) : Pb.EbcdicRecordLayout where
  fields := schema.fields.map (·.toField)
  name := schema.name
  selector := schema.selector

/-- The layout a `LayoutInfo` reports, behind some prefix fields. -/
def Pb.LayoutInfo.toLayout (info : Pb.LayoutInfo) (lengthField typeField : Option Pb.EbcdicField) :
    Pb.EbcdicLayout where
  records := info.records.map (·.toLayout)
  description := info.description
  headerSize := info.headerSize
  footerSize := info.footerSize
  recordLengthField := lengthField
  recordTypeField := typeField

/-- A field of Docling's, as a layout declares it. -/
def JsonField.toProto (field : JsonField) : Pb.EbcdicField where
  name := field.name
  size := field.size
  type := field.type.toKind.toProto.toI32
  scale := field.scale
  picture := field.picture.getD ""
  offset := field.offset

/-- The length field and the type field of a request, in the form it has them. -/
def Pb.ParseOptions.prefixFields [SerdeJson] (request : Pb.ParseOptions) :
    Option Pb.EbcdicField × Option Pb.EbcdicField :=
  match request.layoutSource with
  | some (.layout layout) => (layout.recordLengthField, layout.recordTypeField)
  | some (.layoutJson bytes) =>
    match SerdeJson.fromSlice bytes with
    | .ok parsed =>
      (parsed.recordLengthField.map (·.toProto), parsed.recordTypeField.map (·.toProto))
    | .error _ => (none, none)
  | _ => (none, none)

/-- The length field and the type field of a layout. -/
def Layout.prefixFields (layout : Layout) : Option Pb.EbcdicField × Option Pb.EbcdicField :=
  (layout.recordLengthField.map (·.toSchema.toField), layout.recordTypeField.map (·.toSchema.toField))

/-- The request for the layout a `LayoutInfo` reports. -/
def Pb.ParseOptions.echo (request : Pb.ParseOptions) (info : Pb.LayoutInfo)
    (fields : Option Pb.EbcdicField × Option Pb.EbcdicField) : Pb.ParseOptions :=
  { request with layoutSource := some (.layout (info.toLayout fields.1 fields.2)) }

/-- A field without what only a copybook declares. -/
def Field.flat (field : Field) : Field := { field with declaration := { path := field.name } }

/-- A record schema without what only a copybook declares. -/
def RecordLayout.flat (record : RecordLayout) : RecordLayout :=
  { record with fields := record.fields.map (·.flat) }

/-- A layout without what only a copybook declares, as the protobuf form declares it. -/
def Layout.flat (layout : Layout) : Layout :=
  { layout with records := layout.records.map (·.flat), source := .proto }

/-- A field at its offset, as it arrives. -/
def Field.toRaw (field : Field) : RawField where
  name := field.name
  size := field.size
  kind := field.kind
  scale := field.scale
  picture := field.picture
  offset := some field.offset
  declaration := {}

/-- A record with its fields at their offsets, as it arrives. -/
def RecordLayout.toRaw (record : RecordLayout) : RawRecord where
  name := record.name
  fields := record.fields.map (·.toRaw)
  selector := record.selector

/-- A raw layout with its records resolved, behind some prefix fields. -/
def RawLayout.echo (raw : RawLayout) (lengthField typeField : Option RawField) : RawLayout :=
  { raw with
    records := raw.records.map (·.resolved.toRaw)
    recordLengthField := lengthField
    recordTypeField := typeField }

section Validation

/-- Resolved fields pass once more. -/
lemma FieldsAdmitted.echo {cursor : Nat} {taken : List String} {raws : List RawField}
    (ok : FieldsAdmitted cursor taken raws) :
    FieldsAdmitted cursor taken ((resolveFields cursor raws).map (·.toRaw)) := by
  induction raws generalizing cursor taken with
  | nil => exact ok
  | cons raw raws ih =>
    obtain ⟨width, scale, placed, cell, rest⟩ := fieldsAdmitted_cons.mp ok
    exact fieldsAdmitted_cons.mpr ⟨width, scale, placed, cell, ih rest⟩

/-- And stay where they are. -/
lemma resolveFields_echo (cursor : Nat) (raws : List RawField) :
    resolveFields cursor ((resolveFields cursor raws).map (·.toRaw))
      = (resolveFields cursor raws).map (·.flat) := by
  induction raws generalizing cursor with
  | nil => rfl
  | cons raw raws ih => exact congrArg₂ List.cons rfl (ih _)

lemma fieldsEnd_echo (cursor : Nat) (raws : List RawField) :
    fieldsEnd cursor ((resolveFields cursor raws).map (·.toRaw)) = fieldsEnd cursor raws := by
  induction raws generalizing cursor with
  | nil => rfl
  | cons raw raws ih => exact ih _

/-- The name of a schema is not empty. -/
lemma RawRecord.schemaName_ne (raw : RawRecord) : raw.schemaName.isEmpty = false := by
  unfold RawRecord.schemaName
  split_ifs with empty
  · rfl
  · exact Bool.eq_false_iff.mpr empty

lemma RawRecord.schemaName_echo (raw : RawRecord) :
    raw.resolved.toRaw.schemaName = raw.schemaName :=
  if_neg (Bool.eq_false_iff.mp raw.schemaName_ne)

lemma RawRecord.resolved_echo (raw : RawRecord) :
    raw.resolved.toRaw.resolved = raw.resolved.flat := by
  have fields := resolveFields_echo 0 raw.fields
  have size := fieldsEnd_echo 0 raw.fields
  change RecordLayout.mk raw.resolved.toRaw.schemaName (resolveFields 0 raw.resolved.toRaw.fields)
    (fieldsEnd 0 raw.resolved.toRaw.fields) raw.selector = _
  rw [raw.schemaName_echo]
  exact congrArg₂ (RecordLayout.mk raw.schemaName · · raw.selector) fields size

lemma resolveFields_length (cursor : Nat) (raws : List RawField) :
    (resolveFields cursor raws).length = raws.length :=
  (resolveFields_same cursor raws).length_eq.symm

/-- What is asked of a prefix field does not depend on how it came by its name. -/
lemma RawField.PrefixAdmitted.congr {raw raw' : RawField} {role : String}
    (eq : raw'.asPrefix role = raw.asPrefix role) (ok : raw.PrefixAdmitted) :
    raw'.PrefixAdmitted ∧ raw'.scale = raw.scale := by
  have size : raw'.size = raw.size := congrArg Field.size eq
  have kind : raw'.kind = raw.kind := congrArg Field.kind eq
  have scale : raw'.scale = raw.scale := congrArg Field.scale eq
  refine ⟨⟨?_, ?_, ?_, ?_⟩, scale⟩
  · exact size ▸ ok.size_pos
  · exact kind ▸ ok.kind_ne
  · rw [size, kind]
    exact ok.width
  · rw [size, kind, scale]
    exact ok.scale

variable {raw : RawLayout} {lengthField typeField : Option RawField}

/-- An echoed layout meets what is asked of a layout. -/
lemma RawLayout.Admitted.echo (ok : raw.Admitted)
    (length : lengthField.map (·.asPrefix "record_length")
      = raw.recordLengthField.map (·.asPrefix "record_length"))
    (type : typeField.map (·.asPrefix "record_type")
      = raw.recordTypeField.map (·.asPrefix "record_type")) :
    (raw.echo lengthField typeField).Admitted where
  records_ne none := ok.records_ne (List.map_eq_nil_iff.mp none)
  footer_le := ok.footer_le
  lengthField field mem := by
    have mem : lengthField = some field := mem
    rw [mem, Option.map_some, eq_comm, Option.map_eq_some_iff] at length
    obtain ⟨own, at_own, eq⟩ := length
    obtain ⟨admitted, scale⟩ := ok.lengthField own at_own
    obtain ⟨admitted', scale'⟩ := admitted.congr eq.symm
    exact ⟨admitted', scale'.trans scale⟩
  typeField field mem := by
    have mem : typeField = some field := mem
    rw [mem, Option.map_some, eq_comm, Option.map_eq_some_iff] at type
    obtain ⟨own, at_own, eq⟩ := type
    exact ((ok.typeField own at_own).congr eq.symm).1
  -- Both prefix fields are present on one side exactly when they are on the other.
  typed many absent := by
    have absent : typeField = none := absent
    rw [absent, Option.map_none, eq_comm, Option.map_eq_none_iff] at type
    exact ok.typed (lt_of_lt_of_eq many (List.length_map _)) type
  fields_le := by
    have lengths : (raw.echo lengthField typeField).records.map (·.fields.length)
        = raw.records.map (·.fields.length) := by
      simp only [RawLayout.echo, List.map_map]
      refine List.map_congr_left fun record _ => ?_
      exact (List.length_map _).trans (resolveFields_length 0 record.fields)
    rw [lengths]
    exact ok.fields_le
  names := by
    have names : (raw.echo lengthField typeField).records.map (·.schemaName)
        = raw.records.map (·.schemaName) := by
      simp only [RawLayout.echo, List.map_map]
      exact List.map_congr_left fun record _ => record.schemaName_echo
    rw [names]
    exact ok.names
  selectors present := by
    have typed : raw.recordTypeField ≠ none := by
      intro none
      rw [none, Option.map_none, Option.map_eq_none_iff] at type
      exact present type
    obtain ⟨some, distinct⟩ := ok.selectors typed
    have selectors : (raw.echo lengthField typeField).records.map (·.selector)
        = raw.records.map (·.selector) := by
      simp only [RawLayout.echo, List.map_map]
      exact List.map_congr_left fun _ _ => rfl
    refine ⟨fun record mem => ?_, selectors ▸ distinct⟩
    obtain ⟨own, at_own, rfl⟩ := List.mem_map.mp mem
    exact some own at_own
  record record mem := by
    obtain ⟨own, at_own, rfl⟩ := List.mem_map.mp mem
    obtain ⟨ne, fields⟩ := ok.record own at_own
    refine ⟨fun none => ?_, fields.echo⟩
    have none := List.map_eq_nil_iff.mp none
    have length := resolveFields_length 0 own.fields
    rw [show resolveFields 0 own.fields = [] from none] at length
    exact ne (List.length_eq_zero_iff.mp length.symm)

/-- And resolves to the layout it echoes, without what only a copybook declares. -/
lemma RawLayout.resolved_echo (source : Pb.LayoutSource)
    (length : lengthField.map (·.asPrefix "record_length")
      = raw.recordLengthField.map (·.asPrefix "record_length"))
    (type : typeField.map (·.asPrefix "record_type")
      = raw.recordTypeField.map (·.asPrefix "record_type")) :
    (raw.echo lengthField typeField).resolved .proto = (raw.resolved source).flat := by
  have records : (raw.echo lengthField typeField).records.map (·.resolved)
      = (raw.records.map (·.resolved)).map (·.flat) := by
    simp only [RawLayout.echo, List.map_map]
    exact List.map_congr_left fun record _ => record.resolved_echo
  unfold RawLayout.resolved Layout.flat
  dsimp only
  rw [records]
  simp only [RawLayout.echo, length, type]

end Validation

section Lift

lemma FieldKind.fromProto_toProto (kind : FieldKind) : fromProto kind.toProto.toI32 = .ok kind := by
  cases kind <;> rfl

variable [Unicode]

/-- A field of a schema is lifted to the field it reports, at its offset. -/
lemma fromProtoField_echo (field : Field) :
    fromProtoField field.toSchema.toField = .ok field.toRaw := by
  have kind : FieldKind.fromProto field.toSchema.toField.type = .ok field.kind :=
    FieldKind.fromProto_toProto field.kind
  unfold fromProtoField
  rw [kind]
  rfl

lemma fromProtoRecord_echo (record : RecordLayout) :
    fromProtoRecord record.toSchema.toLayout = .ok record.toRaw := by
  have fields : record.toSchema.toLayout.fields.mapM fromProtoField
      = .ok (record.fields.map (·.toRaw)) := by
    simp only [Pb.RecordSchema.toLayout, RecordLayout.toSchema, List.map_map]
    refine mapM_eq_ok.mpr (List.forall₂_map_left_iff.mpr (List.forall₂_map_right_iff.mpr ?_))
    exact List.forall₂_same.mpr fun field _ => fromProtoField_echo field
  rw [fromProtoRecord, fields]
  rfl

/-- The layout a `LayoutInfo` reports is lifted to its records, resolved. -/
lemma fromProto_echo (raw : RawLayout) (source : Pb.LayoutSource) (encoding : String)
    {fields : Option Pb.EbcdicField × Option Pb.EbcdicField}
    {lengthField typeField : Option RawField}
    (length : fromProtoPrefix fields.1 = .ok lengthField)
    (type : fromProtoPrefix fields.2 = .ok typeField) :
    fromProto (((raw.resolved source).toLayoutInfo encoding).toLayout fields.1 fields.2)
      = .ok (raw.echo lengthField typeField) := by
  have records : (((raw.resolved source).toLayoutInfo encoding).toLayout
      fields.1 fields.2).records.mapM fromProtoRecord
        = .ok (raw.records.map (·.resolved.toRaw)) := by
    simp only [Pb.LayoutInfo.toLayout, Layout.toLayoutInfo, RawLayout.resolved, List.map_map]
    refine mapM_eq_ok.mpr (List.forall₂_map_left_iff.mpr (List.forall₂_map_right_iff.mpr ?_))
    exact List.forall₂_same.mpr fun record _ => fromProtoRecord_echo record.resolved
  rw [fromProto, records]
  simp only [Pb.LayoutInfo.toLayout, length, type]
  rfl

/-- A lifted prefix field declares nothing of a copybook. -/
lemma fromProtoPrefix_declaration {field : Option Pb.EbcdicField} {raw : Option RawField}
    (ok : fromProtoPrefix field = .ok raw) : ∀ f ∈ raw, f.declaration = {} := by
  cases field with
  | none =>
    cases ok
    exact nofun
  | some field =>
    obtain ⟨f, lifted, rfl⟩ := map_eq_ok.mp ok
    rintro _ ⟨⟩
    unfold fromProtoField at lifted
    cases kind : FieldKind.fromProto field.type with
    | error e => rw [kind] at lifted; cases lifted
    | ok kind' =>
      rw [kind] at lifted
      cases lifted
      rfl

/-- A prefix field of a layout is lifted to itself. -/
lemma fromProtoPrefix_echo (field : Option Field) :
    fromProtoPrefix (field.map (·.toSchema.toField)) = .ok (field.map (·.toRaw)) := by
  cases field with
  | none => rfl
  | some field => exact congrArg (Except.map some) (fromProtoField_echo field)

omit [Unicode] in
/-- Where no copybook declared it, it keeps its name and its place. -/
lemma asPrefix_echo {raw : RawField} {role : String} (named : role.isEmpty = false)
    (flat : raw.declaration = {}) (offset : Nat) :
    ({ raw.asPrefix role with offset := offset } : Field).toRaw.asPrefix role = raw.asPrefix role := by
  have name : (raw.asPrefix role).name.isEmpty = false := by
    unfold RawField.asPrefix
    dsimp only
    split_ifs with empty
    · exact named
    · exact Bool.eq_false_iff.mpr empty
  unfold RawField.asPrefix Field.toRaw at *
  dsimp only at name ⊢
  rw [flat, name]
  rfl

end Lift

section Resolve

variable [Unicode]

/-- A prefix field of Docling's is lifted alike in both forms. -/
lemma fromProtoPrefix_json (field : Option JsonField) :
    fromProtoPrefix (field.map (·.toProto)) = .ok (field.map (·.toRaw)) := by
  cases field with
  | none => rfl
  | some field =>
    have kind : FieldKind.fromProto field.toProto.type = .ok field.type.toKind :=
      FieldKind.fromProto_toProto field.type.toKind
    have lifted : fromProtoField field.toProto = .ok field.toRaw := by
      unfold fromProtoField
      rw [kind]
      rfl
    exact congrArg (Except.map some) lifted

variable [SerdeJson] {request : Pb.ParseOptions} {layout : Layout}

/-- A resolved layout is that of an admitted raw one, behind the prefix fields of the request. -/
lemma resolve_lifted (ok : resolve request = .ok layout) :
    ∃ (raw : RawLayout) (source : Pb.LayoutSource),
      raw.Admitted ∧ layout = raw.resolved source ∧
      fromProtoPrefix request.prefixFields.1 = .ok raw.recordLengthField ∧
      fromProtoPrefix request.prefixFields.2 = .ok raw.recordTypeField := by
  unfold resolve at ok
  unfold Pb.ParseOptions.prefixFields
  cases form : request.layoutSource with
  | none => rw [form] at ok; cases ok
  | some form' =>
    rw [form] at ok
    cases form' with
    | layout declared =>
      obtain ⟨raw, lifted, ok⟩ := bind_eq_ok.mp ok
      obtain ⟨admitted, rfl⟩ := validate_resolved.mp ok
      unfold fromProto at lifted
      obtain ⟨records, _, lifted⟩ := bind_eq_ok.mp lifted
      obtain ⟨lengthField, length, lifted⟩ := bind_eq_ok.mp lifted
      obtain ⟨typeField, type, lifted⟩ := bind_eq_ok.mp lifted
      cases lifted
      exact ⟨_, _, admitted, rfl, length, type⟩
    | layoutJson bytes =>
      obtain ⟨raw, lifted, ok⟩ := bind_eq_ok.mp ok
      obtain ⟨admitted, rfl⟩ := validate_resolved.mp ok
      unfold fromJson at lifted
      dsimp only
      cases read : SerdeJson.fromSlice bytes with
      | error e => rw [read] at lifted; cases lifted
      | ok parsed =>
        rw [read] at lifted
        cases lifted
        exact ⟨_, _, admitted, rfl, fromProtoPrefix_json _, fromProtoPrefix_json _⟩
    | copybook source =>
      obtain ⟨raw, compiled, ok⟩ := bind_eq_ok.mp ok
      obtain ⟨admitted, rfl⟩ := validate_resolved.mp ok
      -- A copybook declares no prefix fields.
      obtain ⟨_, _, compiled⟩ := Copybook.compile_ok.mp compiled
      obtain ⟨_, _, _, compiled⟩ := Copybook.compileStatements_ok.mp compiled
      obtain ⟨_, _, _, _, rfl⟩ := Copybook.compileItems_ok.mp compiled
      exact ⟨_, _, admitted, rfl, rfl, rfl⟩

/-- The layout a `LayoutInfo` reports, behind the prefix fields of the request or those of the layout,
resolves to itself, without what only a copybook declares. -/
theorem resolve_echo (ok : resolve request = .ok layout) (encoding : String)
    {fields : Option Pb.EbcdicField × Option Pb.EbcdicField}
    (original : fields = request.prefixFields ∨ fields = layout.prefixFields) :
    resolve (request.echo (layout.toLayoutInfo encoding) fields) = .ok layout.flat := by
  obtain ⟨raw, source, admitted, rfl, length, type⟩ := resolve_lifted ok
  have flatLength := fromProtoPrefix_declaration length
  have flatType := fromProtoPrefix_declaration type
  -- Only the prefix fields may be sent in either form, and both lift to the same field.
  suffices lifts : ∃ lengthField typeField,
      fromProtoPrefix fields.1 = .ok lengthField ∧
      fromProtoPrefix fields.2 = .ok typeField ∧
      lengthField.map (·.asPrefix "record_length")
        = raw.recordLengthField.map (·.asPrefix "record_length") ∧
      typeField.map (·.asPrefix "record_type")
        = raw.recordTypeField.map (·.asPrefix "record_type") by
    obtain ⟨lengthField, typeField, length, type, sameLength, sameType⟩ := lifts
    have lifted := fromProto_echo raw source encoding length type
    have valid : validate (raw.echo lengthField typeField) .proto = .ok (raw.resolved source).flat :=
      validate_resolved.mpr ⟨admitted.echo sameLength sameType,
        (RawLayout.resolved_echo source sameLength sameType).symm⟩
    unfold resolve
    dsimp only [Pb.ParseOptions.echo]
    rw [lifted]
    exact valid
  rcases original with rfl | rfl
  · exact ⟨_, _, length, type, rfl, rfl⟩
  · refine ⟨_, _, fromProtoPrefix_echo _, fromProtoPrefix_echo _, ?_, ?_⟩
    · cases own : raw.recordLengthField with
      | none => simp only [RawLayout.resolved, own, Option.map_none]
      | some field =>
        simp only [RawLayout.resolved, own, Option.map_some]
        exact congrArg some (asPrefix_echo rfl (flatLength field own) 0)
    · cases own : raw.recordTypeField with
      | none => simp only [RawLayout.resolved, own, Option.map_none]
      | some field =>
        simp only [RawLayout.resolved, own, Option.map_some]
        exact congrArg some (asPrefix_echo rfl (flatType field own) _)

end Resolve

end GrpcEbcdic

import GrpcEbcdic.Copybook.Compile
import GrpcEbcdic.Layout.Valid

/-!
# Layout resolution

The three request forms of a layout, lifted into the raw shape and validated. The JSON text is read by
a library the repository only calls, which is the class `SerdeJson`; what it returns is Docling's
layout shape with absent keys at their defaults.
-/

namespace GrpcEbcdic
open Rust

/-- Docling's `EbcdicFieldType`. -/
inductive JsonFieldType where
  | string
  | integer
  | unsignedInteger
  | packedDecimal
  | zonedDecimal
  | skip
deriving DecidableEq

/-- `From<JsonFieldType> for FieldKind`. -/
def JsonFieldType.toKind : JsonFieldType → FieldKind
  | .string => .text
  | .integer => .integer
  | .unsignedInteger => .unsignedInteger
  | .packedDecimal => .packedDecimal
  | .zonedDecimal => .zonedDecimal
  | .skip => .skip

/-- Docling's `EbcdicField`. -/
structure JsonField where
  name : String
  size : Nat
  type : JsonFieldType
  scale : Nat
  offset : Option Nat
  picture : Option String
deriving DecidableEq

/-- `From<JsonField> for RawField`. -/
def JsonField.toRaw (field : JsonField) : RawField where
  name := field.name
  size := field.size
  kind := field.type.toKind
  scale := field.scale
  picture := field.picture.getD ""
  offset := field.offset
  declaration := {}

/-- Docling's `EbcdicRecordLayout`. -/
structure JsonRecord where
  fields : List JsonField
  name : Option String
  selector : Option String
deriving DecidableEq

/-- Docling's `EbcdicLayout`. -/
structure JsonLayout where
  records : List JsonRecord
  description : String
  headerSize : Nat
  footerSize : Nat
  recordLengthField : Option JsonField
  recordTypeField : Option JsonField
deriving DecidableEq

/-- `serde_json::from_slice` at Docling's layout: the layout, or the text of the error. -/
class SerdeJson where
  fromSlice : List UInt8 → Except String JsonLayout

section Lift

variable [Unicode]

/-- Lift one protobuf field. -/
def fromProtoField (field : Pb.EbcdicField) : Except ParseError RawField :=
  match FieldKind.fromProto field.type with
  | .error e => .error (.unsupported s!"field {debug field.name}: {e.message}")
  | .ok kind => .ok {
      name := field.name
      size := field.size
      kind := kind
      scale := field.scale
      picture := field.picture
      offset := field.offset
      declaration := {} }

/-- Lift an optional protobuf field. -/
def fromProtoPrefix (field : Option Pb.EbcdicField) : Except ParseError (Option RawField) :=
  match field with
  | none => .ok none
  | some field => (fromProtoField field).map some

/-- Lift one protobuf record. -/
def fromProtoRecord (record : Pb.EbcdicRecordLayout) : Except ParseError RawRecord := do
  let fields ← record.fields.mapM fromProtoField
  return { name := record.name, fields := fields, selector := record.selector }

/-- Lift a protobuf layout into the raw shape. -/
def fromProto (layout : Pb.EbcdicLayout) : Except ParseError RawLayout := do
  let records ← layout.records.mapM fromProtoRecord
  let recordLengthField ← fromProtoPrefix layout.recordLengthField
  let recordTypeField ← fromProtoPrefix layout.recordTypeField
  return {
    records := records
    description := layout.description
    headerSize := layout.headerSize
    footerSize := layout.footerSize
    recordLengthField := recordLengthField
    recordTypeField := recordTypeField }

end Lift

/-- Parse Docling's JSON layout shape. -/
def fromJson [SerdeJson] (bytes : List UInt8) : Except ParseError RawLayout :=
  match SerdeJson.fromSlice bytes with
  | .error err => .error (.invalid s!"layout_json is not a Docling EbcdicLayout: {err}")
  | .ok parsed => .ok {
      records := parsed.records.map fun record => {
        name := record.name.getD ""
        fields := record.fields.map (·.toRaw)
        selector := record.selector }
      description := parsed.description
      headerSize := parsed.headerSize
      footerSize := parsed.footerSize
      recordLengthField := parsed.recordLengthField.map (·.toRaw)
      recordTypeField := parsed.recordTypeField.map (·.toRaw) }

section Resolve

variable [Unicode] [SerdeJson]

/-- Build the normalized layout from a `ParseOptions` message. -/
def resolve (options : Pb.ParseOptions) : Except ParseError Layout :=
  match options.layoutSource with
  | none =>
    .error (.invalid ("an EBCDIC file is an opaque code page without its copybook: set exactly " ++
      "one of ParseOptions.layout, ParseOptions.layout_json, or ParseOptions.copybook"))
  | some (.layout layout) => do
    let raw ← fromProto layout
    validate raw .proto
  | some (.layoutJson bytes) => do
    let raw ← fromJson bytes
    validate raw .json
  | some (.copybook source) => do
    let raw ← Copybook.compile source
    validate raw .copybook

/-- Every resolved layout passed validation. -/
lemma resolve_validated {options : Pb.ParseOptions} {layout : Layout}
    (ok : resolve options = .ok layout) : ∃ raw source, validate raw source = .ok layout := by
  unfold resolve at ok
  cases form : options.layoutSource with
  | none => rw [form] at ok; cases ok
  | some form' =>
    rw [form] at ok
    cases form' with
    | layout l =>
      obtain ⟨raw, _, ok⟩ := Fallible.bind_eq_ok.mp ok
      exact ⟨raw, _, ok⟩
    | layoutJson bytes =>
      obtain ⟨raw, _, ok⟩ := Fallible.bind_eq_ok.mp ok
      exact ⟨raw, _, ok⟩
    | copybook source =>
      obtain ⟨raw, _, ok⟩ := Fallible.bind_eq_ok.mp ok
      exact ⟨raw, _, ok⟩

/-- Every resolved layout is valid. -/
theorem resolve_valid {options : Pb.ParseOptions} {layout : Layout}
    (ok : resolve options = .ok layout) : layout.Valid := by
  obtain ⟨raw, source, ok⟩ := resolve_validated ok
  exact validate_valid ok

end Resolve

section Sample

/-- A JSON reader that reads nothing. -/
@[reducible] def noJson : SerdeJson where
  fromSlice _ := .error "expected value at line 1 column 1"

attribute [local instance] asciiUnicode noJson

/-- A request for records behind a length byte, between two header bytes and a footer byte. -/
def sampleRequest : Pb.ParseOptions where
  layoutSource := some (.layout {
    records := [{
      name := "sale"
      fields := [
        { name := "ITEM", size := 2, type := 1, scale := 0, picture := "", offset := none },
        { name := "PRICE", size := 2, type := 4, scale := 1, picture := "", offset := none }]
      selector := none }]
    headerSize := 2
    footerSize := 1
    recordLengthField := some
      { name := "LENGTH", size := 1, type := 3, scale := 0, picture := "", offset := none } })

/-- The layout of the sample request. -/
def sampleLayout : Layout where
  records := [{
    name := "sale"
    fields := [
      { name := "ITEM", offset := 0, size := 2, kind := .text, scale := 0, picture := "",
        declaration := { path := "ITEM" } },
      { name := "PRICE", offset := 2, size := 2, kind := .packedDecimal, scale := 1,
        picture := "", declaration := { path := "PRICE" } }]
    size := 4
    selector := none }]
  description := ""
  headerSize := 2
  footerSize := 1
  recordLengthField := some
    { name := "LENGTH", offset := 0, size := 1, kind := .unsignedInteger, scale := 0, picture := "",
      declaration := { path := "LENGTH" } }
  recordTypeField := none
  prefixSize := 1
  source := .proto

lemma resolve_sample : resolve sampleRequest = .ok sampleLayout := rfl

end Sample

end GrpcEbcdic

import GrpcEbcdic.Layout.Types
import GrpcEbcdic.Decode.Decode

/-!
# Layout validation

`validate` turns a raw layout into a validated one or says why it cannot be. The checks run in the
order of the source: the layout's own, then record by record, and in each record field by field with
the end of the previous field and the names seen so far.
-/

namespace GrpcEbcdic
open Rust

variable [Unicode]

/-- The widest field of a kind the decoders can handle. -/
def widthLimit : FieldKind → Nat
  | .packedDecimal => maxPackedBytes
  | .zonedDecimal => maxZonedBytes
  | .integer | .unsignedInteger => maxBinaryBytes
  | .text | .skip => maxRecordBytes

/-- Check the widths a decoder can actually handle. -/
def checkWidth (field : RawField) (context : String) : Except ParseError Unit :=
  if widthLimit field.kind < field.size then
    .error (.unsupported (s!"{context} field {debug field.name} is {field.size} bytes; " ++
      s!"this build decodes at most {widthLimit field.kind}"))
  else .ok ()

/-- Most digits a binary field can hold. -/
def maxBinaryDigits : Nat := 39

/-- The digits a numeric field of a kind and size can hold. -/
def digitCapacity (kind : FieldKind) (size : Nat) : Nat :=
  match kind with
  | .packedDecimal => size * 2 - 1
  | .zonedDecimal => size
  | _ => maxBinaryDigits

/-- Check that a field's implied decimal digits are ones it can actually hold. -/
def checkScale (field : RawField) (context : String) : Except ParseError Unit :=
  if field.scale = 0 ∨ field.kind = .skip then .ok ()
  else if field.kind.isNumeric = false then
    .error (.invalid (s!"{context} field {debug field.name} has scale {field.scale} but is " ++
      "not a numeric field"))
  else if digitCapacity field.kind field.size < field.scale then
    .error (.invalid (s!"{context} field {debug field.name} has scale {field.scale} but holds " ++
      s!"at most {digitCapacity field.kind field.size} digits"))
  else .ok ()

/-- Validate a prefix field. -/
def prefixField (raw : RawField) (role : String) : Except ParseError Field :=
  if raw.size = 0 then
    .error (.invalid s!"the {role} field must be at least one byte")
  else if raw.kind = .skip then
    .error (.invalid s!"the {role} field cannot be a filler: its value is what it is there for")
  else do
    checkWidth raw role
    checkScale raw role
    let name := if raw.name.isEmpty then role else raw.name
    return {
      offset := 0
      size := raw.size
      kind := raw.kind
      scale := raw.scale
      picture := raw.picture
      declaration := { raw.declaration with path := name }
      name := name }

/-- Validate an optional prefix field. -/
def optionalPrefix (raw : Option RawField) (role : String) : Except ParseError (Option Field) :=
  match raw with
  | none => .ok none
  | some field => (prefixField field role).map some

/-- Where a field starts: at the end of the previous one, or at a declared offset beyond it. -/
def fieldOffset (record : String) (cursor : Nat) (raw : RawField) : Except ParseError Nat :=
  match raw.offset with
  | none => .ok cursor
  | some declared =>
    if cursor ≤ declared then .ok declared
    else
      .error (.invalid (s!"field {debug raw.name} of record {debug record} declares offset " ++
        s!"{declared} but the fields before it already reach {cursor}; fields may not overlap"))

/-- A field at its resolved offset. A flat layout form declares no path, so there the field name is
the whole of it. -/
def RawField.resolved (raw : RawField) (offset : Nat) : Field where
  name := raw.name
  offset := offset
  size := raw.size
  kind := raw.kind
  scale := raw.scale
  picture := raw.picture
  declaration :=
    { raw.declaration with
      path := if raw.declaration.path.isEmpty then raw.name else raw.declaration.path }

/-- Validate the fields of a record from one on, given the end of the field before it and the names
of the cells before it. The result is the fields and the end of the last. -/
def validateFields (record : String) (cursor : Nat) (fieldNames : List String) :
    List RawField → Except ParseError (List Field × Nat)
  | [] => .ok ([], cursor)
  | raw :: raws =>
    if raw.size = 0 then
      .error (.invalid s!"field {debug raw.name} of record {debug record} has zero width")
    else do
      checkWidth raw s!"record {debug record}"
      let offset ← fieldOffset record cursor raw
      match checkedAdd32 offset raw.size with
      | none => .error (.invalid s!"record {debug record} overflows a 32-bit record length")
      | some stop =>
        if maxRecordBytes < stop then
          .error (.unsupported (s!"record {debug record} is at least {stop} bytes; this build " ++
            s!"decodes records up to {maxRecordBytes} bytes"))
        else if raw.kind ≠ .skip ∧ raw.name ∈ fieldNames then
          .error (.invalid (s!"record {debug record} has two fields named {debug raw.name}; " ++
            "cells are addressed by name, so qualify one of them or mark it as a filler"))
        else if raw.kind ≠ .skip ∧ raw.name.isEmpty then
          .error (.invalid (s!"a field of record {debug record} has no name; only fillers may " ++
            "be anonymous"))
        else do
          checkScale raw s!"record {debug record}"
          let fieldNames := if raw.kind ≠ .skip then raw.name :: fieldNames else fieldNames
          let (fields, size) ← validateFields record stop fieldNames raws
          return (raw.resolved offset :: fields, size)

/-- Validate the records from one on, given the names and the selectors of those before it. -/
def validateRecords (typed : Bool) (names selectors : List String) :
    List RawRecord → Except ParseError (List RecordLayout)
  | [] => .ok []
  | raw :: raws =>
    let name := if raw.name.isEmpty then defaultRecordName else raw.name
    if name ∈ names then
      .error (.invalid (s!"two record schemas are both named {debug name}; schema names identify " ++
        "the rows they produce and must be unique"))
    else if typed && raw.selector = none then
      .error (.invalid (s!"record schema {debug name} needs a selector: the layout has a " ++
        "record_type_field and every schema must say which value picks it"))
    else if typed && (raw.selector.getD "") ∈ selectors then
      .error (.invalid ("record selector " ++ debug (raw.selector.getD "") ++ " matches two " ++
        "schemas; a record must resolve to exactly one layout"))
    else if raw.fields = [] then
      .error (.invalid s!"record schema {debug name} has no fields")
    else do
      let selectors := if typed then raw.selector.getD "" :: selectors else selectors
      let (fields, size) ← validateFields name 0 [] raw.fields
      let records ← validateRecords typed (name :: names) selectors raws
      return { name := name, fields := fields, size := size, selector := raw.selector } :: records

/-- The width of an optional prefix field. -/
def optionalSize (field : Option Field) : Nat := (field.map (·.size)).getD 0

/-- Turn a raw layout into a validated one, or say exactly why it cannot be. -/
def validate (raw : RawLayout) (source : Pb.LayoutSource) : Except ParseError Layout :=
  if raw.records = [] then
    .error (.invalid "a layout needs at least one record schema")
  else if maxFooterBytes < raw.footerSize then
    .error (.unsupported (s!"footer_size {raw.footerSize} exceeds the {maxFooterBytes}-byte " ++
      "limit; footer bytes are held in memory for the whole parse"))
  else do
    let recordLengthField ← optionalPrefix raw.recordLengthField "record_length"
    if (recordLengthField.map (·.scale)).getD 0 ≠ 0 then
      .error (.invalid ("the record_length field must have scale 0: a record cannot be a fraction " ++
        "of a byte long"))
    else do
      let recordTypeField ← optionalPrefix raw.recordTypeField "record_type"
      let prefixSize := optionalSize recordLengthField + optionalSize recordTypeField
      -- The type field sits after the length field.
      let recordTypeField := recordTypeField.map fun field =>
        { field with offset := optionalSize recordLengthField }
      if 1 < raw.records.length ∧ recordTypeField = none then
        .error (.invalid ("a layout with more than one record schema needs a record_type_field " ++
          "to choose between them"))
      else
        let declared := (raw.records.map (·.fields.length)).sum
        if maxLayoutFields < declared then
          .error (.unsupported (s!"the layout declares {declared} fields; this build accepts " ++
            s!"at most {maxLayoutFields}"))
        else do
          let records ← validateRecords recordTypeField.isSome [] [] raw.records
          return {
            records := records
            description := raw.description
            headerSize := raw.headerSize
            footerSize := raw.footerSize
            recordLengthField := recordLengthField
            recordTypeField := recordTypeField
            prefixSize := prefixSize
            source := source }

end GrpcEbcdic

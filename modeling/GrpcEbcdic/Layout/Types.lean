import GrpcEbcdic.Proto.Messages
import GrpcEbcdic.Support.Rust
import GrpcEbcdic.Error

/-!
# The normalized layout

One internal shape that the protobuf message, the Docling JSON and the copybook compiler all reduce to,
before validation (`RawLayout`) and after it (`Layout`).
-/

namespace GrpcEbcdic
open Rust

/-- Default schema name. -/
def defaultRecordName : String := "record"

/-- Widest record body the server will assemble, in bytes. -/
def maxRecordBytes : Nat := 16 * 1024 * 1024

/-- Most fields one layout may declare, fillers included, across all of its record schemas. -/
def maxLayoutFields : Nat := 65536

/-- Largest footer the server will hold back, in bytes. -/
def maxFooterBytes : Nat := 16 * 1024 * 1024

/-- How the bytes of one field are decoded. -/
inductive FieldKind where
  | text
  | integer
  | unsignedInteger
  | packedDecimal
  | zonedDecimal
  | skip
deriving DecidableEq

namespace FieldKind

/-- The protobuf value this kind reports as. -/
def toProto : FieldKind → Pb.FieldType
  | .text => .string
  | .integer => .integer
  | .unsignedInteger => .unsignedInteger
  | .packedDecimal => .packedDecimal
  | .zonedDecimal => .zonedDecimal
  | .skip => .skip

/-- Resolve a protobuf field type; an unset type is character data. -/
def fromProto (value : Int) : Except ParseError FieldKind :=
  match Pb.FieldType.tryFrom value with
  | some .unspecified => .ok .text
  | some .string => .ok .text
  | some .integer => .ok .integer
  | some .unsignedInteger => .ok .unsignedInteger
  | some .packedDecimal => .ok .packedDecimal
  | some .zonedDecimal => .ok .zonedDecimal
  | some .skip => .ok .skip
  | none => .error (.unsupported s!"field type {value} is not one this build decodes")

/-- Whether the kind produces a number rather than text. -/
def isNumeric : FieldKind → Bool
  | .integer | .unsignedInteger | .packedDecimal | .zonedDecimal => true
  | .text | .skip => false

end FieldKind

/-- One literal or one inclusive range of a level-88 `VALUE` clause. -/
structure ConditionValue where
  low : String
  high : Option String
deriving DecidableEq

namespace ConditionValue

/-- One bare literal. -/
def literal (low : String) : ConditionValue := ⟨low, none⟩

/-- The flat string of the value on the wire. -/
def toFlat (value : ConditionValue) : String :=
  match value.high with
  | none => value.low
  | some high => s!"{value.low} THRU {high}"

/-- The protobuf view of the value. -/
def toProto (value : ConditionValue) : Pb.ConditionValue := ⟨value.low, value.high⟩

end ConditionValue

/-- One COBOL level-88 condition name and the values that make it true. -/
structure ConditionName where
  name : String
  values : List ConditionValue
deriving DecidableEq

/-- The protobuf view of a condition name. -/
def ConditionName.toProto (condition : ConditionName) : Pb.ConditionName where
  name := condition.name
  values := condition.values.map (·.toFlat)
  ranges := condition.values.map (·.toProto)

/-- What a copybook says about a field beyond the bytes it occupies. -/
structure Declaration where
  level : Option Nat := none
  path : String := ""
  occursIndex : Option Nat := none
  occursGroup : Option String := none
  conditions : List ConditionName := []
deriving DecidableEq

/-- One fixed-width field, with its offset already resolved. -/
structure Field where
  name : String
  offset : Nat
  size : Nat
  kind : FieldKind
  scale : Nat
  picture : String
  declaration : Declaration
deriving DecidableEq

namespace Field

/-- One past the field's last byte. -/
def stop (field : Field) : Nat := field.offset + field.size

/-- The protobuf schema view of a field. -/
def toSchema (field : Field) : Pb.FieldSchema where
  name := field.name
  offset := field.offset
  size := field.size
  type := field.kind.toProto.toI32
  scale := field.scale
  picture := field.picture
  level := field.declaration.level
  path := field.declaration.path
  occursIndex := field.declaration.occursIndex
  occursGroup := field.declaration.occursGroup
  conditions := field.declaration.conditions.map (·.toProto)

end Field

/-- One record schema. -/
structure RecordLayout where
  name : String
  fields : List Field
  size : Nat
  selector : Option String
deriving DecidableEq

/-- The protobuf schema view of a record. -/
def RecordLayout.toSchema (record : RecordLayout) : Pb.RecordSchema where
  name := record.name
  recordLength := record.size
  fields := record.fields.map (·.toSchema)
  selector := record.selector

/-- A validated, fully resolved layout. -/
structure Layout where
  records : List RecordLayout
  description : String
  headerSize : Nat
  footerSize : Nat
  recordLengthField : Option Field
  recordTypeField : Option Field
  prefixSize : Nat
  source : Pb.LayoutSource
deriving DecidableEq

namespace Layout

/-- Resolve the schema a record-type value selects. -/
def select (layout : Layout) (recordType : Option String) : Option RecordLayout :=
  match layout.recordTypeField with
  | none => layout.records.head?
  | some _ => layout.records.find? fun record => record.selector = recordType

/-- The `LayoutInfo` event the layout produces. -/
def toLayoutInfo (layout : Layout) (encoding : String) : Pb.LayoutInfo where
  encoding := encoding
  records := layout.records.map (·.toSchema)
  description := layout.description
  headerSize := layout.headerSize
  footerSize := layout.footerSize
  prefixSize := layout.prefixSize
  source := layout.source.toI32

end Layout

/-- A field as it arrives, before offsets are resolved and bounds are checked. -/
structure RawField where
  name : String
  size : Nat
  kind : FieldKind
  scale : Nat
  picture : String
  offset : Option Nat
  declaration : Declaration
deriving DecidableEq

/-- A record as it arrives. -/
structure RawRecord where
  name : String
  fields : List RawField
  selector : Option String
deriving DecidableEq

/-- A whole layout as it arrives. -/
structure RawLayout where
  records : List RawRecord
  description : String
  headerSize : Nat
  footerSize : Nat
  recordLengthField : Option RawField
  recordTypeField : Option RawField
deriving DecidableEq

end GrpcEbcdic

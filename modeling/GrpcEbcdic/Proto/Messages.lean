/-!
# The `ai.pipestream.ebcdic.v1` messages

The request and event messages of the service, as the generated code has them: an enumeration travels
as its `i32`, a `oneof` is an inductive type, an `optional` field an `Option`, and a `map` an
association list. Unsigned integers are natural numbers.
-/

namespace GrpcEbcdic.Pb

/-- `FieldType`. -/
inductive FieldType where
  | unspecified
  | string
  | integer
  | unsignedInteger
  | packedDecimal
  | zonedDecimal
  | skip
deriving DecidableEq

/-- The number a field type travels as. -/
def FieldType.toI32 : FieldType → Int
  | .unspecified => 0
  | .string => 1
  | .integer => 2
  | .unsignedInteger => 3
  | .packedDecimal => 4
  | .zonedDecimal => 5
  | .skip => 6

/-- `FieldType::try_from`. -/
def FieldType.tryFrom (value : Int) : Option FieldType :=
  [.unspecified, .string, .integer, .unsignedInteger, .packedDecimal, .zonedDecimal, .skip].find?
    (·.toI32 = value)

/-- `LayoutSource`. -/
inductive LayoutSource where
  | unspecified
  | proto
  | json
  | copybook
deriving DecidableEq

/-- The number a layout source travels as. -/
def LayoutSource.toI32 : LayoutSource → Int
  | .unspecified => 0
  | .proto => 1
  | .json => 2
  | .copybook => 3

/-- `LayoutSource::try_from`. -/
def LayoutSource.tryFrom (value : Int) : Option LayoutSource :=
  [.unspecified, .proto, .json, .copybook].find? (·.toI32 = value)

/-- `WarningCode`. -/
inductive WarningCode where
  | unspecified
  | trailingPartialRecord
  | maxRecordsReached
  | inputShorterThanBoundaries
  | documentRowsTruncated
deriving DecidableEq

/-- The number a warning code travels as. -/
def WarningCode.toI32 : WarningCode → Int
  | .unspecified => 0
  | .trailingPartialRecord => 1
  | .maxRecordsReached => 2
  | .inputShorterThanBoundaries => 3
  | .documentRowsTruncated => 4

/-- `EbcdicField`. -/
structure EbcdicField where
  name : String
  size : Nat
  type : Int
  scale : Nat
  picture : String
  offset : Option Nat
deriving DecidableEq

/-- `EbcdicRecordLayout`. -/
structure EbcdicRecordLayout where
  fields : List EbcdicField
  name : String
  selector : Option String
deriving DecidableEq

/-- `EbcdicLayout`. -/
structure EbcdicLayout where
  records : List EbcdicRecordLayout
  description : String := ""
  headerSize : Nat := 0
  footerSize : Nat := 0
  recordLengthField : Option EbcdicField := none
  recordTypeField : Option EbcdicField := none
deriving DecidableEq

/-- The `layout_source` of `ParseOptions`. -/
inductive LayoutForm where
  | layout (layout : EbcdicLayout)
  | layoutJson (bytes : List UInt8)
  | copybook (source : String)
deriving DecidableEq

/-- `ParseOptions`. -/
structure ParseOptions where
  encoding : String := ""
  layoutSource : Option LayoutForm := none
  maxRecords : Nat := 0
  stripControlCharacters : Option Bool := none
  abortOnError : Bool := false
  maxDocumentMib : Nat := 0
  emitDocument : Bool := false
deriving DecidableEq

/-- `Decimal`. -/
structure Decimal where
  text : String
  scale : Nat
  unscaled : Option Int
deriving DecidableEq

/-- The `value` of a `Cell`. -/
inductive CellValue where
  | text (text : String)
  | decimal (decimal : Decimal)
  | integer (integer : Int)
deriving DecidableEq

/-- `Cell`. -/
structure Cell where
  name : String
  type : Int
  value : Option CellValue
deriving DecidableEq

/-- `ConditionValue`. -/
structure ConditionValue where
  low : String
  high : Option String
deriving DecidableEq

/-- `ConditionName`. -/
structure ConditionName where
  name : String
  values : List String
  ranges : List ConditionValue
deriving DecidableEq

/-- `FieldSchema`. -/
structure FieldSchema where
  name : String
  offset : Nat
  size : Nat
  type : Int
  scale : Nat
  picture : String
  level : Option Nat
  path : String
  occursIndex : Option Nat
  occursGroup : Option String
  conditions : List ConditionName
deriving DecidableEq

/-- `RecordSchema`. -/
structure RecordSchema where
  name : String
  recordLength : Nat
  fields : List FieldSchema
  selector : Option String
deriving DecidableEq

/-- `LayoutInfo`. -/
structure LayoutInfo where
  encoding : String
  records : List RecordSchema
  description : String
  headerSize : Nat
  footerSize : Nat
  prefixSize : Nat
  source : Int
deriving DecidableEq

/-- `RecordRow`. -/
structure RecordRow where
  recordType : String
  rowIndex : Nat
  recordIndex : Nat
  byteOffset : Nat
  byteLength : Nat
  cells : List Cell
deriving DecidableEq

/-- `ParseWarning`. -/
structure ParseWarning where
  code : Int
  message : String
  byteOffset : Nat
deriving DecidableEq

/-- `ParseStatus`. -/
structure ParseStatus where
  recordsKept : Nat
  bytesReceived : Nat
  bytesConsumed : Nat
  trailingBytes : Nat
  truncated : Bool
  warnings : List ParseWarning
  rowsPerRecordType : List (String × Nat)
deriving DecidableEq

end GrpcEbcdic.Pb

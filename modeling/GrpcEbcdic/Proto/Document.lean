import GrpcEbcdic.Support.Rust

/-!
# The `ai.pipestream.document.v1` messages

The Document plane, as far as this collector writes or checks it: of each message the fields that are
ever set to anything but their default, with the links every item carries. A double is a value of the
class `F64`, which is what the standard library makes of a decimal text and of an integer.
-/

namespace GrpcEbcdic

/-- The conversions into `f64`. -/
class F64 where
  Carrier : Type
  /-- `str::parse::<f64>`, of a text it accepts. -/
  parse : String → Option Carrier
  /-- `as f64`. -/
  ofInt : Int → Carrier

namespace Doc

/-- `ContentLayer`. -/
inductive ContentLayer where
  | unspecified
  | body
  | furniture
  | background
  | invisible
  | notes
deriving DecidableEq

/-- The number a content layer travels as. -/
def ContentLayer.toI32 : ContentLayer → Int
  | .unspecified => 0
  | .body => 1
  | .furniture => 2
  | .background => 3
  | .invisible => 4
  | .notes => 5

/-- The labels of `DocItemLabel` that this collector gives. -/
inductive DocItemLabel where
  | sectionHeader
  | table
  | text
deriving DecidableEq

/-- The number a label travels as. -/
def DocItemLabel.toI32 : DocItemLabel → Int
  | .sectionHeader => 20
  | .table => 21
  | .text => 22

/-- `RefItem`: a JSON pointer. -/
structure RefItem where
  ref : String
deriving DecidableEq

/-- `ByteSpan`. -/
structure ByteSpan where
  start : Nat
  stop : Nat
deriving DecidableEq

/-- `ProvenanceItem`. -/
structure ProvenanceItem where
  byteRange : Option ByteSpan := none
deriving DecidableEq

/-- `CollectorSource`. -/
structure CollectorSource where
  collector : String
  model : Option String
  version : Option String
deriving DecidableEq

/-- `ValueRange`. -/
structure ValueRange where
  low : String
  high : Option String
deriving DecidableEq

/-- `ValueCondition`. -/
structure ValueCondition where
  name : String
  values : List ValueRange
deriving DecidableEq

/-- `TableColumnSchema`. -/
structure TableColumnSchema where
  name : Option String
  declaredType : Option String
  picture : Option String
  byteOffset : Option Nat
  byteSize : Option Nat
  level : Option Nat
  occursIndex : Option Nat
  conditions : List ValueCondition
deriving DecidableEq

/-- `RecordLayoutMeta`. -/
structure RecordLayoutMeta where
  encoding : Option String := none
  recordLength : Option Nat := none
  headerBytes : Option Nat := none
  footerBytes : Option Nat := none
  prefixBytes : Option Nat := none
  rowsTruncated : Option Nat := none
deriving DecidableEq

section Values

variable [F64]

/-- `google.protobuf.Value`, in the two kinds a custom field has. -/
inductive Value where
  | stringValue (text : String)
  | numberValue (number : F64.Carrier)

/-- `CellValue`, in the one kind a decoded cell has. -/
inductive CellValue where
  | number (number : F64.Carrier)

/-- `GroupItem`. -/
structure GroupItem where
  selfRef : String
  parent : Option RefItem := none
  children : List RefItem := []
  contentLayer : Int
  /-- The custom fields of `meta`. -/
  customFields : Option (List (String × Value)) := none

/-- `TextItemBase`. -/
structure TextItemBase where
  selfRef : String
  parent : Option RefItem
  children : List RefItem := []
  contentLayer : Int
  label : Int
  orig : String
  text : String
  source : List CollectorSource

/-- The `item` of a `BaseTextItem`. All but a code item wrap a base. -/
inductive BaseTextItem where
  | title (base : Option TextItemBase)
  | sectionHeader (base : Option TextItemBase) (level : Nat)
  | listItem (base : Option TextItemBase)
  | formula (base : Option TextItemBase)
  | text (base : Option TextItemBase)
  | fieldHeading (base : Option TextItemBase)
  | fieldValue (base : Option TextItemBase)
  | code (selfRef : String) (children : List RefItem) (parent : Option RefItem)

/-- `PictureItem`, of which only the links are read. -/
structure PictureItem where
  selfRef : String
  parent : Option RefItem
  children : List RefItem

/-- `TableCell`. -/
structure TableCell where
  rowSpan : Nat
  colSpan : Nat
  startRowOffsetIdx : Nat
  endRowOffsetIdx : Nat
  startColOffsetIdx : Nat
  endColOffsetIdx : Nat
  text : String
  columnHeader : Bool
  value : Option CellValue

/-- `TableRow`. -/
structure TableRow where
  cells : List TableCell

/-- `TableData`. -/
structure TableData where
  tableCells : List TableCell
  numRows : Nat
  numCols : Nat
  grid : List TableRow
  columns : List TableColumnSchema
  rowProv : List ProvenanceItem
  recordLayout : Option RecordLayoutMeta

/-- `TableItem`. -/
structure TableItem where
  selfRef : String
  parent : Option RefItem
  children : List RefItem := []
  contentLayer : Int
  label : Int
  /-- The custom fields of `meta`. -/
  customFields : Option (List (String × Value))
  data : Option TableData
  source : List CollectorSource

/-- `Document`. -/
structure Document where
  schemaName : Option String
  name : String := ""
  body : Option GroupItem
  furniture : Option GroupItem
  groups : List GroupItem := []
  texts : List (Option BaseTextItem) := []
  pictures : List PictureItem := []
  tables : List TableItem := []

end Values

end Doc

/-- The decimal texts and the integers as the doubles of the core library. -/
@[reducible] def coreF64 : F64 where
  Carrier := Float
  parse text :=
    let (negative, digits) :=
      match text.toList with
      | '-' :: digits => (true, digits)
      | digits => (false, digits)
    let fraction := (digits.dropWhile (· ≠ '.')).drop 1
    (Rust.parseDigits (digits.takeWhile (· ≠ '.') ++ fraction)).map fun number =>
      let value := Float.ofScientific number true fraction.length
      if negative then -value else value
  ofInt := Float.ofInt

end GrpcEbcdic

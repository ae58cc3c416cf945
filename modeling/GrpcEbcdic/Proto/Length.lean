import GrpcEbcdic.Proto.Document
import GrpcEbcdic.Support.Wire

/-!
# Encoded lengths of the document messages

`prost::Message::encoded_len`, message by message, with the field numbers of the schema. A field the
model of a message leaves out is at its default wherever this collector writes one, and takes no bytes.
-/

namespace GrpcEbcdic.Doc

def RefItem.encodedLen (item : RefItem) : Nat := Wire.string 1 item.ref

def ByteSpan.encodedLen (span : ByteSpan) : Nat := Wire.uint 1 span.start + Wire.uint 2 span.stop

def ProvenanceItem.encodedLen (item : ProvenanceItem) : Nat :=
  Wire.optional (fun span => Wire.delimited 5 span.encodedLen) item.byteRange

def CollectorSource.encodedLen (source : CollectorSource) : Nat :=
  Wire.string 1 source.collector + Wire.optional (Wire.presentString 2) source.model +
    Wire.optional (Wire.presentString 3) source.version

/-- A `SourceType` that holds a collector. -/
def CollectorSource.sourceLen (source : CollectorSource) : Nat := Wire.delimited 2 source.encodedLen

def ValueRange.encodedLen (range : ValueRange) : Nat :=
  Wire.string 1 range.low + Wire.optional (Wire.presentString 2) range.high

def ValueCondition.encodedLen (condition : ValueCondition) : Nat :=
  Wire.string 1 condition.name + Wire.repeated 2 (condition.values.map (·.encodedLen))

def TableColumnSchema.encodedLen (column : TableColumnSchema) : Nat :=
  Wire.optional (Wire.presentString 1) column.name +
    Wire.optional (Wire.presentString 2) column.declaredType +
    Wire.optional (Wire.presentString 3) column.picture +
    Wire.optional (Wire.presentUint 4) column.byteOffset +
    Wire.optional (Wire.presentUint 5) column.byteSize +
    Wire.optional (Wire.presentUint 6) column.level +
    Wire.optional (Wire.presentUint 7) column.occursIndex +
    Wire.repeated 8 (column.conditions.map (·.encodedLen))

def RecordLayoutMeta.encodedLen (layout : RecordLayoutMeta) : Nat :=
  Wire.optional (Wire.presentString 1) layout.encoding +
    Wire.optional (Wire.presentUint 2) layout.recordLength +
    Wire.optional (Wire.presentUint 3) layout.headerBytes +
    Wire.optional (Wire.presentUint 4) layout.footerBytes +
    Wire.optional (Wire.presentUint 5) layout.prefixBytes +
    Wire.optional (Wire.presentUint 6) layout.rowsTruncated

section Values

variable [F64]

def Value.encodedLen : Value → Nat
  | .stringValue text => Wire.presentString 3 text
  | .numberValue _ => Wire.presentDouble 2

def CellValue.encodedLen : CellValue → Nat
  | .number _ => Wire.presentDouble 1

/-- The custom fields of a `BaseMeta` or a `FloatingMeta`: each an entry with its key and its value. -/
def customFieldsLen (fields : List (String × Value)) : Nat :=
  Wire.repeated 100 (fields.map fun (name, value) =>
    Wire.string 1 name + Wire.delimited 2 value.encodedLen)

def GroupItem.encodedLen (group : GroupItem) : Nat :=
  Wire.string 1 group.selfRef +
    Wire.optional (fun parent => Wire.delimited 2 parent.encodedLen) group.parent +
    Wire.repeated 3 (group.children.map (·.encodedLen)) +
    Wire.enumeration 4 group.contentLayer +
    Wire.optional (fun fields => Wire.delimited 5 (customFieldsLen fields)) group.customFields

def TextItemBase.encodedLen (base : TextItemBase) : Nat :=
  Wire.string 1 base.selfRef +
    Wire.optional (fun parent => Wire.delimited 2 parent.encodedLen) base.parent +
    Wire.repeated 3 (base.children.map (·.encodedLen)) +
    Wire.enumeration 4 base.contentLayer +
    Wire.enumeration 6 base.label +
    Wire.string 8 base.orig +
    Wire.string 9 base.text +
    Wire.repeated 12 (base.source.map (·.sourceLen))

/-- An item that wraps a base. -/
def baseLen (base : Option TextItemBase) : Nat :=
  Wire.optional (fun base => Wire.delimited 1 base.encodedLen) base

def BaseTextItem.encodedLen : BaseTextItem → Nat
  | .title base => Wire.delimited 1 (baseLen base)
  | .sectionHeader base level => Wire.delimited 2 (baseLen base + Wire.uint 2 level)
  | .listItem base => Wire.delimited 3 (baseLen base)
  | .code selfRef children parent =>
    Wire.delimited 4 (Wire.string 1 selfRef +
      Wire.optional (fun parent : RefItem => Wire.delimited 2 parent.encodedLen) parent +
      Wire.repeated 3 (children.map (·.encodedLen)))
  | .formula base => Wire.delimited 5 (baseLen base)
  | .text base => Wire.delimited 6 (baseLen base)
  | .fieldHeading base => Wire.delimited 7 (baseLen base)
  | .fieldValue base => Wire.delimited 8 (baseLen base)

def PictureItem.encodedLen (picture : PictureItem) : Nat :=
  Wire.string 1 picture.selfRef +
    Wire.optional (fun parent => Wire.delimited 2 parent.encodedLen) picture.parent +
    Wire.repeated 3 (picture.children.map (·.encodedLen))

def TableCell.encodedLen (cell : TableCell) : Nat :=
  Wire.uint 2 cell.rowSpan +
    Wire.uint 3 cell.colSpan +
    Wire.uint 4 cell.startRowOffsetIdx +
    Wire.uint 5 cell.endRowOffsetIdx +
    Wire.uint 6 cell.startColOffsetIdx +
    Wire.uint 7 cell.endColOffsetIdx +
    Wire.string 8 cell.text +
    Wire.bool 9 cell.columnHeader +
    Wire.optional (fun value => Wire.delimited 14 value.encodedLen) cell.value

def TableRow.encodedLen (row : TableRow) : Nat := Wire.repeated 1 (row.cells.map (·.encodedLen))

def TableData.encodedLen (data : TableData) : Nat :=
  Wire.repeated 1 (data.tableCells.map (·.encodedLen)) +
    Wire.uint 2 data.numRows +
    Wire.uint 3 data.numCols +
    Wire.repeated 4 (data.grid.map (·.encodedLen)) +
    Wire.repeated 7 (data.columns.map (·.encodedLen)) +
    Wire.repeated 8 (data.rowProv.map (·.encodedLen)) +
    Wire.optional (fun layout => Wire.delimited 10 layout.encodedLen) data.recordLayout

def TableItem.encodedLen (table : TableItem) : Nat :=
  Wire.string 1 table.selfRef +
    Wire.optional (fun parent => Wire.delimited 2 parent.encodedLen) table.parent +
    Wire.repeated 3 (table.children.map (·.encodedLen)) +
    Wire.enumeration 4 table.contentLayer +
    Wire.optional (fun fields => Wire.delimited 5 (customFieldsLen fields)) table.customFields +
    Wire.enumeration 6 table.label +
    Wire.optional (fun data => Wire.delimited 12 data.encodedLen) table.data +
    Wire.repeated 13 (table.source.map (·.sourceLen))

def Document.encodedLen (document : Document) : Nat :=
  Wire.optional (Wire.presentString 1) document.schemaName +
    Wire.string 3 document.name +
    Wire.optional (fun body => Wire.delimited 5 body.encodedLen) document.body +
    Wire.repeated 6 (document.groups.map (·.encodedLen)) +
    Wire.repeated 7 (document.texts.map fun text => Wire.optional (·.encodedLen) text) +
    Wire.repeated 8 (document.pictures.map (·.encodedLen)) +
    Wire.repeated 9 (document.tables.map (·.encodedLen)) +
    Wire.optional (fun furniture => Wire.delimited 13 furniture.encodedLen) document.furniture

end Values

end GrpcEbcdic.Doc

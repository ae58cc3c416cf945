import GrpcEbcdic.Fold.Covered

/-!
# What a document declares

The estimate counts rows. What a document has beside its rows goes by the layout: the texts it is named and
headed with, and for each table the declarations of its columns, its name and selector, and the facts of the
whole parse. Everything else of an item, its links, keys, lengths and attribution, has room in `itemRoom`.
-/

namespace GrpcEbcdic
open Rust

/-- Most bytes an item has beside what its layout says of it. -/
def itemRoom : Nat := 640

/-- The bytes of the column declarations of a schema. -/
def columnsLen (schema : Pb.RecordSchema) : Nat :=
  Wire.repeated 7 ((columns schema).map (·.schema.encodedLen))

/-- The bytes of the counts in the layout of a table. -/
def countsLen (info : Pb.LayoutInfo) (rows : List Pb.RecordRow) (schema : Pb.RecordSchema) : Nat :=
  Wire.varint schema.recordLength + Wire.varint info.headerSize + Wire.varint info.footerSize +
    Wire.varint info.prefixSize + Wire.varint rows.length

/-- The bytes that an entry of a document may need for what its layout says. -/
def Content.room (version : String) (info : Pb.LayoutInfo) (rows : List Pb.RecordRow) : Content → Nat
  | .description text => 2 * text.utf8ByteSize + version.utf8ByteSize + itemRoom
  | .heading name => 2 * name.utf8ByteSize + version.utf8ByteSize + itemRoom
  | .table schema =>
    columnsLen schema + schema.name.utf8ByteSize + (schema.selector.getD "").utf8ByteSize +
      info.encoding.utf8ByteSize + version.utf8ByteSize + countsLen info rows schema + itemRoom

/-- The name of the document of a layout. -/
def documentName (info : Pb.LayoutInfo) : String :=
  if info.description = "" then (info.records.head?.map (·.name)).getD "" else info.description

/-- The bytes that a document may need for what its layout says: itself, and the entries of the layout for
the rows that came. -/
def declarations (version : String) (info : Pb.LayoutInfo) (rows : List Pb.RecordRow) : Nat :=
  (documentName info).utf8ByteSize + info.encoding.utf8ByteSize + itemRoom +
    ((contents info rows).map (Content.room version info rows)).sum

/-- The number of the entries of a document and the room of each are within their room together. -/
lemma declarations_le {version : String} {info : Pb.LayoutInfo} {rows : List Pb.RecordRow} {cap : Nat}
    (fits : declarations version info rows ≤ cap) :
    (contents info rows).length ≤ cap ∧
      ∀ content ∈ contents info rows, content.room version info rows ≤ cap := by
  unfold declarations at fits
  have pos (content : Content) : 1 ≤ content.room version info rows := by
    unfold Content.room itemRoom
    cases content <;> dsimp only <;> omega
  have number := List.length_le_sum_of_one_le ((contents info rows).map (Content.room version info rows))
    (List.forall_mem_map.mpr fun content _ => pos content)
  rw [List.length_map] at number
  refine ⟨by omega, fun content mem => ?_⟩
  have each := List.le_sum_of_mem (List.mem_map_of_mem (f := Content.room version info rows) mem)
  omega

variable [F64]

/-- A fold that has begun a layout and written nothing. -/
structure Opened (version : String) (info : Pb.LayoutInfo) (fold : DocumentFold) : Prop where
  document : fold.document = { (DocumentFold.new version).document with
    name := documentName info
    body := some {
      selfRef := bodyRef
      contentLayer := Doc.ContentLayer.body.toI32
      customFields := some (DocumentFold.bodyFields info) } }
  source : fold.collectorSource = ⟨collector, layoutSourceName info.source, some version⟩
  layout : fold.layout = {
    encoding := some info.encoding
    headerBytes := some info.headerSize
    footerBytes := some info.footerSize
    prefixBytes := some info.prefixSize }
  description : fold.description = info.description

namespace Opened

variable {version : String} {info : Pb.LayoutInfo} {fold : DocumentFold}

/-- A row writes nothing. -/
lemma row (opened : Opened version info fold) (row : Pb.RecordRow) :
    Opened version info (fold.row row) := by
  have step := fold.rowStep row
  generalize fold.row row = fold' at step
  cases step <;> exact ⟨opened.document, opened.source, opened.layout, opened.description⟩

lemma foldRows (opened : Opened version info fold) (rows : List Pb.RecordRow) :
    Opened version info (fold.foldRows rows) := by
  induction rows generalizing fold with
  | nil => exact opened
  | cons row rows ih => exact ih (opened.row row)

/-- The fold of a layout. -/
lemma start (version : String) (rowCap byteCap : Nat) (info : Pb.LayoutInfo) :
    Opened version info (foldEvents version rowCap byteCap [.layoutInfo info]) := by
  have schemas (schemas : List Pb.RecordSchema) {fold : DocumentFold}
      (opened : Opened version info fold) :
      Opened version info (schemas.foldl DocumentFold.addSchema fold) := by
    induction schemas generalizing fold with
    | nil => exact opened
    | cons schema schemas ih =>
      exact ih ⟨opened.document, opened.source, opened.layout, opened.description⟩
  exact schemas info.records ⟨rfl, rfl, rfl, rfl⟩

end Opened

/-! ## Custom fields -/

/-- The bytes of one custom field. -/
def customFieldLen (field : String × Doc.Value) : Nat :=
  Wire.delimited 100 (Wire.string 1 field.1 + Wire.delimited 2 field.2.encodedLen)

/-- One more custom field takes its own bytes at most. -/
lemma customFieldsLen_insert_le (name : String) (value : Doc.Value) (fields : List (String × Doc.Value)) :
    Doc.customFieldsLen (AssocList.insert name value fields)
      ≤ customFieldLen (name, value) + Doc.customFieldsLen fields := by
  have sum (fields : List (String × Doc.Value)) :
      Doc.customFieldsLen fields = (fields.map customFieldLen).sum := by
    unfold Doc.customFieldsLen Wire.repeated
    rw [List.map_map]
    rfl
  rw [sum, sum]
  exact AssocList.sum_map_insert_le customFieldLen name value fields

/-- A custom field under a short name takes its text and at most seventy-two bytes. -/
lemma insert_string_le {name text : String} (short : name.utf8ByteSize ≤ 24)
    (fits : text.utf8ByteSize ≤ u64Max) {fields : List (String × Doc.Value)} {bound : Nat}
    (le : Doc.customFieldsLen fields ≤ bound) :
    Doc.customFieldsLen (AssocList.insert name (stringValue text) fields)
      ≤ bound + (text.utf8ByteSize + 72) := by
  unfold u64Max at fits
  have key : Wire.string 1 name ≤ name.utf8ByteSize + 12 := Wire.string_le (by decide) (by omega)
  have content : (stringValue text).encodedLen ≤ text.utf8ByteSize + 12 :=
    Wire.delimited_le (by decide) (by omega)
  have value : Wire.delimited 2 (stringValue text).encodedLen ≤ (stringValue text).encodedLen + 12 :=
    Wire.delimited_le (by decide) (by omega)
  have entry : customFieldLen (name, stringValue text)
      ≤ Wire.string 1 name + Wire.delimited 2 (stringValue text).encodedLen + 12 :=
    Wire.delimited_le (by decide) (by dsimp only; omega)
  have grown := customFieldsLen_insert_le name (stringValue text) fields
  omega

/-- A count takes no more. -/
lemma insert_number_le {name : String} (short : name.utf8ByteSize ≤ 24) (number : Nat)
    {fields : List (String × Doc.Value)} {bound : Nat} (le : Doc.customFieldsLen fields ≤ bound) :
    Doc.customFieldsLen (AssocList.insert name (numberValue number) fields) ≤ bound + 72 := by
  have key : Wire.string 1 name ≤ name.utf8ByteSize + 12 := Wire.string_le (by decide) (by omega)
  have value : Wire.delimited 2 (numberValue number).encodedLen = 11 :=
    (by decide : Wire.delimited 2 (Wire.presentDouble 2) = 11)
  have entry : customFieldLen (name, numberValue number)
      ≤ Wire.string 1 name + Wire.delimited 2 (numberValue number).encodedLen + 12 :=
    Wire.delimited_le (by decide) (by dsimp only; omega)
  have grown := customFieldsLen_insert_le name (numberValue number) fields
  omega

omit [F64] in
lemma layoutSourceName_size {source : Int} {name : String}
    (named : layoutSourceName source = some name) : name.utf8ByteSize ≤ 8 := by
  unfold layoutSourceName at named
  split at named
  all_goals
    cases named
  all_goals decide

lemma bodyFields_le {info : Pb.LayoutInfo} (fits : info.encoding.utf8ByteSize ≤ u64Max) :
    Doc.customFieldsLen (DocumentFold.bodyFields info) ≤ info.encoding.utf8ByteSize + 368 := by
  have encoding : Doc.customFieldsLen
      (AssocList.insert "ebcdic.encoding" (stringValue info.encoding) []) ≤ 0 + (_ + 72) :=
    insert_string_le (by decide) fits (Nat.le_refl 0)
  unfold DocumentFold.bodyFields
  dsimp only
  refine (insert_number_le (by decide) _ (insert_number_le (by decide) _
    (insert_number_le (by decide) _ (?_ : _ ≤ info.encoding.utf8ByteSize + 152)))).trans (by omega)
  cases named : layoutSourceName info.source with
  | none =>
    dsimp only
    omega
  | some source =>
    have short := layoutSourceName_size named
    have grown : Doc.customFieldsLen (AssocList.insert "ebcdic.layout_source" (stringValue source) _)
        ≤ _ + (source.utf8ByteSize + 72) :=
      insert_string_le (by decide) (by unfold u64Max; omega) encoding
    dsimp only
    omega

/-- The custom fields of a table are its name, its selector and three counts. -/
lemma TableState.customFields_le {state : TableState} (name : state.name.utf8ByteSize ≤ u64Max)
    (selector : (state.selector.getD "").utf8ByteSize ≤ u64Max) :
    Doc.customFieldsLen state.customFields
      ≤ state.name.utf8ByteSize + (state.selector.getD "").utf8ByteSize + 360 := by
  have schema : Doc.customFieldsLen
      (AssocList.insert "ebcdic.schema" (stringValue state.name) []) ≤ 0 + (_ + 72) :=
    insert_string_le (by decide) name (Nat.le_refl 0)
  have recordLength : Doc.customFieldsLen (AssocList.insert "ebcdic.record_length"
      (numberValue state.recordLength) _) ≤ _ + 72 := insert_number_le (by decide) _ schema
  -- Behind the selector come the number of rows, and that of the dropped ones if there are some.
  have counts {fields : List (String × Doc.Value)} {bound : Nat} (le : Doc.customFieldsLen fields ≤ bound) :
      Doc.customFieldsLen (if 0 < state.dropped then
          AssocList.insert "ebcdic.rows_truncated" (numberValue state.dropped)
            (AssocList.insert "ebcdic.rows" (numberValue state.rows) fields)
        else AssocList.insert "ebcdic.rows" (numberValue state.rows) fields) ≤ bound + 144 := by
    have rows := insert_number_le (by decide : "ebcdic.rows".utf8ByteSize ≤ 24) state.rows le
    split_ifs
    · exact insert_number_le (by decide) _ rows
    · omega
  unfold TableState.customFields
  dsimp only
  refine (counts (?_ : _ ≤ state.name.utf8ByteSize + (state.selector.getD "").utf8ByteSize + 216)).trans
    (by omega)
  cases chosen : state.selector with
  | none =>
    dsimp only
    omega
  | some text =>
    rw [chosen] at selector
    have grown : Doc.customFieldsLen (AssocList.insert "ebcdic.selector" (stringValue text) _)
        ≤ _ + (text.utf8ByteSize + 72) := insert_string_le (by decide) selector recordLength
    rw [Option.getD_some]
    dsimp only
    omega

/-! ## Items -/

omit [F64] in
lemma textRef_size {index : Nat} (lt : index < 10 ^ 20) : (textRef index).utf8ByteSize ≤ 28 := by
  have digits := toString_nat_size (k := 19) lt
  have size : (textRef index).utf8ByteSize = 8 + (toString index).utf8ByteSize :=
    String.utf8ByteSize_append
  omega

omit [F64] in
lemma tableRef_size {index : Nat} (lt : index < 10 ^ 20) : (tableRef index).utf8ByteSize ≤ 29 := by
  have digits := toString_nat_size (k := 19) lt
  have size : (tableRef index).utf8ByteSize = 9 + (toString index).utf8ByteSize :=
    String.utf8ByteSize_append
  omega

/-- The record layout in the table of a state. -/
def DocumentFold.recordLayout (fold : DocumentFold) (state : TableState) : Doc.RecordLayoutMeta :=
  { fold.layout with
    recordLength := some state.recordLength
    rowsTruncated := some state.dropped }

/-- A link from the body. -/
def linkLen (ref : String) : Nat := Wire.delimited 3 (refItem ref).encodedLen

omit [F64] in
lemma linkLen_le {ref : String} (short : ref.utf8ByteSize ≤ 29) : linkLen ref ≤ 53 := by
  have content : (refItem ref).encodedLen ≤ ref.utf8ByteSize + 12 :=
    Wire.string_le (by decide) (by change ref.utf8ByteSize < 2 ^ 70; omega)
  refine (Wire.delimited_le (by decide) (by omega)).trans ?_
  omega

omit [F64] in
/-- The attribution of an item. -/
lemma source_le {version : String} {model : Option String}
    (short : ∀ name ∈ model, name.utf8ByteSize ≤ 8) (fits : version.utf8ByteSize ≤ u64Max) :
    (Doc.CollectorSource.mk collector model (some version)).sourceLen ≤ version.utf8ByteSize + 52 := by
  unfold u64Max at fits
  have named : Wire.string 1 collector = 8 := by decide
  have form : Wire.optional (Wire.presentString 2) model ≤ 20 := by
    cases model with
    | none => exact Nat.zero_le _
    | some name =>
      have size := short name rfl
      refine (Wire.delimited_le (by decide) (by omega)).trans ?_
      omega
  have stamp : Wire.presentString 3 version ≤ version.utf8ByteSize + 12 :=
    Wire.delimited_le (by decide) (by omega)
  have content : (Doc.CollectorSource.mk collector model (some version)).encodedLen
      ≤ version.utf8ByteSize + 40 := by
    change Wire.string 1 collector + Wire.optional (Wire.presentString 2) model +
      Wire.presentString 3 version ≤ _
    omega
  exact (Wire.delimited_le (by decide) (by omega)).trans (by omega)

/-- The bytes of a text item in its arena. -/
def textLen (item : Option Doc.BaseTextItem) : Nat := Wire.delimited 7 (Wire.optional (·.encodedLen) item)

omit [F64] in
lemma uint_clampI32_le {field : Nat} (key : Wire.key field = 1) (n : Nat) :
    Wire.uint field (clampI32 n) ≤ 6 := by
  have length : Wire.varint (clampI32 n) ≤ 5 := by
    refine (Wire.varint_le_iff (by decide)).mpr ?_
    unfold clampI32
    omega
  unfold Wire.uint
  split_ifs <;> omega

namespace Opened

variable {version : String} {info : Pb.LayoutInfo} {fold : DocumentFold}

lemma sourceLen_le (opened : Opened version info fold) (fits : version.utf8ByteSize ≤ u64Max) :
    fold.collectorSource.sourceLen ≤ version.utf8ByteSize + 52 := by
  rw [opened.source]
  exact source_le (fun _ named => layoutSourceName_size named) fits

/-- A text of the document is written twice. -/
lemma textAt_le (opened : Opened version info fold) {index : Nat} (lt : index < 10 ^ 20)
    {label : Doc.DocItemLabel} {text : String} (fits : text.utf8ByteSize + version.utf8ByteSize ≤ u64Max) :
    (fold.textAt index label text).encodedLen
      ≤ 2 * text.utf8ByteSize + version.utf8ByteSize + 142 := by
  unfold u64Max at fits
  have size := textRef_size lt
  have selfRef : Wire.string 1 (textRef index) ≤ (textRef index).utf8ByteSize + 12 :=
    Wire.string_le (by decide) (by omega)
  have parent : Wire.delimited 2 (refItem bodyRef).encodedLen = 10 := by decide
  have layer : Wire.enumeration 4 Doc.ContentLayer.body.toI32 = 2 := by decide
  have kind : Wire.enumeration 6 label.toI32 = 2 := by cases label <;> decide
  have orig : Wire.string 8 text ≤ text.utf8ByteSize + 12 := Wire.string_le (by decide) (by omega)
  have written : Wire.string 9 text ≤ text.utf8ByteSize + 12 := Wire.string_le (by decide) (by omega)
  have source := opened.sourceLen_le (by unfold u64Max; omega)
  have attributed : Wire.delimited 12 fold.collectorSource.sourceLen
      ≤ fold.collectorSource.sourceLen + 12 := Wire.delimited_le (by decide) (by omega)
  change Wire.string 1 (textRef index) + Wire.delimited 2 (refItem bodyRef).encodedLen + 0 +
    Wire.enumeration 4 Doc.ContentLayer.body.toI32 + Wire.enumeration 6 label.toI32 +
    Wire.string 8 text + Wire.string 9 text + Wire.repeated 12 [fold.collectorSource.sourceLen] ≤ _
  rw [Wire.repeated_singleton]
  omega

/-- A text item takes no more than its room, the link to it included. -/
lemma textLen_le (opened : Opened version info fold) {index : Nat} (lt : index < 10 ^ 20)
    (label : Doc.DocItemLabel) {text : String} {item : Doc.BaseTextItem}
    (fits : 2 * text.utf8ByteSize + version.utf8ByteSize + itemRoom ≤ u64Max)
    (content : (fold.textAt index label text).encodedLen < 2 ^ 69 →
      item.encodedLen ≤ (fold.textAt index label text).encodedLen + 26) :
    linkLen (textRef index) + textLen (some item)
      ≤ 2 * text.utf8ByteSize + version.utf8ByteSize + itemRoom := by
  unfold itemRoom at fits ⊢
  have link := linkLen_le ((textRef_size lt).trans (by decide))
  have base : (fold.textAt index label text).encodedLen ≤ _ := opened.textAt_le lt (by omega)
  unfold u64Max at fits
  have wrapped := content (by omega)
  have arena : Wire.delimited 7 item.encodedLen ≤ item.encodedLen + 12 :=
    Wire.delimited_le (by decide) (by omega)
  change linkLen (textRef index) + Wire.delimited 7 item.encodedLen ≤ _
  omega

/-- A description takes no more than its room. -/
lemma description_le (opened : Opened version info fold) {index : Nat} (lt : index < 10 ^ 20)
    {rows : List Pb.RecordRow} {text : String}
    (fits : Content.room version info rows (.description text) ≤ u64Max) :
    linkLen (textRef index) + textLen (some (.text (some (fold.textAt index .text text))))
      ≤ Content.room version info rows (.description text) := by
  refine opened.textLen_le lt .text fits fun base => ?_
  have inner : Wire.delimited 1 (fold.textAt index .text text).encodedLen ≤ _ + 12 :=
    Wire.delimited_le (by decide) (by omega)
  have outer : Wire.delimited 6 (Wire.delimited 1 (fold.textAt index .text text).encodedLen) ≤ _ + 12 :=
    Wire.delimited_le (by decide) (by omega)
  change Wire.delimited 6 (Wire.delimited 1 (fold.textAt index .text text).encodedLen) ≤ _
  omega

/-- Nor does a heading, with its level. -/
lemma heading_le (opened : Opened version info fold) {index : Nat} (lt : index < 10 ^ 20)
    {rows : List Pb.RecordRow} {name : String}
    (fits : Content.room version info rows (.heading name) ≤ u64Max) :
    linkLen (textRef index) +
        textLen (some (.sectionHeader (some (fold.textAt index .sectionHeader name)) 1))
      ≤ Content.room version info rows (.heading name) := by
  refine opened.textLen_le lt .sectionHeader fits fun base => ?_
  have level : Wire.uint 2 1 = 2 := by decide
  have inner : Wire.delimited 1 (fold.textAt index .sectionHeader name).encodedLen ≤ _ + 12 :=
    Wire.delimited_le (by decide) (by omega)
  have outer : Wire.delimited 2
      (Wire.delimited 1 (fold.textAt index .sectionHeader name).encodedLen + Wire.uint 2 1) ≤ _ + 12 :=
    Wire.delimited_le (by decide) (by omega)
  change Wire.delimited 2
    (Wire.delimited 1 (fold.textAt index .sectionHeader name).encodedLen + Wire.uint 2 1) ≤ _
  omega

/-- The facts of the parse and the counts of a table. -/
lemma recordLayout_le (opened : Opened version info fold) {rows : List Pb.RecordRow}
    {schema : Pb.RecordSchema} {state : TableState} (declared : state.Declared schema)
    (few : state.dropped ≤ rows.length) (fits : info.encoding.utf8ByteSize ≤ u64Max) :
    (fold.recordLayout state).encodedLen
      ≤ info.encoding.utf8ByteSize + countsLen info rows schema + 22 := by
  unfold u64Max at fits
  have encoding : Wire.presentString 1 info.encoding ≤ info.encoding.utf8ByteSize + 12 :=
    Wire.delimited_le (by decide) (by omega)
  have recordLength : Wire.presentUint 2 schema.recordLength ≤ _ + 2 := Wire.presentUint_le (by decide)
  have header : Wire.presentUint 3 info.headerSize ≤ _ + 2 := Wire.presentUint_le (by decide)
  have footer : Wire.presentUint 4 info.footerSize ≤ _ + 2 := Wire.presentUint_le (by decide)
  have size : Wire.presentUint 5 info.prefixSize ≤ _ + 2 := Wire.presentUint_le (by decide)
  have truncated : Wire.presentUint 6 state.dropped ≤ _ + 2 := Wire.presentUint_le (by decide)
  have fewer := Wire.varint_mono few
  unfold DocumentFold.recordLayout
  rw [opened.layout, declared.recordLength]
  change Wire.presentString 1 info.encoding + Wire.presentUint 2 schema.recordLength +
    Wire.presentUint 3 info.headerSize + Wire.presentUint 4 info.footerSize +
    Wire.presentUint 5 info.prefixSize + Wire.presentUint 6 state.dropped ≤ _
  unfold countsLen
  omega

/-- A table without its data: its links, its custom fields and its attribution. -/
lemma tableItem_le (opened : Opened version info fold) {index : Nat} (lt : index < 10 ^ 20)
    {schema : Pb.RecordSchema} {state : TableState} (declared : state.Declared schema)
    (fits : schema.name.utf8ByteSize + (schema.selector.getD "").utf8ByteSize +
      version.utf8ByteSize + itemRoom ≤ u64Max) :
    { fold.tableAt index state with data := none }.encodedLen
      ≤ schema.name.utf8ByteSize + (schema.selector.getD "").utf8ByteSize +
        version.utf8ByteSize + 491 := by
  unfold itemRoom at fits
  have bound : u64Max = 18446744073709551615 := rfl
  have size := tableRef_size lt
  have selfRef : Wire.string 1 (tableRef index) ≤ (tableRef index).utf8ByteSize + 12 :=
    Wire.string_le (by decide) (by omega)
  have parent : Wire.delimited 2 (refItem bodyRef).encodedLen = 10 := by decide
  have layer : Wire.enumeration 4 Doc.ContentLayer.body.toI32 = 2 := by decide
  have kind : Wire.enumeration 6 Doc.DocItemLabel.table.toI32 = 2 := by decide
  have custom : Doc.customFieldsLen state.customFields ≤ _ :=
    TableState.customFields_le (by rw [declared.name]; omega) (by rw [declared.selector]; omega)
  rw [declared.name, declared.selector] at custom
  have fields : Wire.delimited 5 (Doc.customFieldsLen state.customFields) ≤ _ + 12 :=
    Wire.delimited_le (by decide) (by omega)
  have source := opened.sourceLen_le (by omega)
  have attributed : Wire.delimited 13 fold.collectorSource.sourceLen ≤ _ + 12 :=
    Wire.delimited_le (by decide) (by omega)
  change Wire.string 1 (tableRef index) + Wire.delimited 2 (refItem bodyRef).encodedLen + 0 +
    Wire.enumeration 4 Doc.ContentLayer.body.toI32 +
    Wire.delimited 5 (Doc.customFieldsLen state.customFields) +
    Wire.enumeration 6 Doc.DocItemLabel.table.toI32 + 0 +
    Wire.repeated 13 [fold.collectorSource.sourceLen] ≤ _
  rw [Wire.repeated_singleton]
  omega

/-- The data of a table without its rows: their number, and the declarations. -/
lemma tableData_le (opened : Opened version info fold) {index : Nat} {rows : List Pb.RecordRow}
    {schema : Pb.RecordSchema} {state : TableState} (declared : state.Declared schema)
    (few : state.dropped ≤ rows.length) {data : Doc.TableData}
    (holds : (fold.tableAt index state).data = some data)
    (fits : info.encoding.utf8ByteSize + countsLen info rows schema + itemRoom ≤ u64Max) :
    { data with tableCells := [], grid := [], rowProv := [] }.encodedLen
      ≤ columnsLen schema + info.encoding.utf8ByteSize + countsLen info rows schema + 46 := by
  cases holds
  unfold itemRoom at fits
  have bound : u64Max = 18446744073709551615 := rfl
  have counts := opened.recordLayout_le declared few (by omega)
  have layout : Wire.delimited 10 (fold.recordLayout state).encodedLen ≤ _ + 12 :=
    Wire.delimited_le (by decide) (by omega)
  have height := uint_clampI32_le (by decide : Wire.key 2 = 1) (satAdd state.rows 1)
  have width := uint_clampI32_le (by decide : Wire.key 3 = 1) state.columns.length
  have columns : Wire.repeated 7 ((state.columns.map (·.schema)).map (·.encodedLen))
      = columnsLen schema := by
    rw [declared.columns, List.map_map]
    rfl
  change 0 + Wire.uint 2 (clampI32 (satAdd state.rows 1)) +
    Wire.uint 3 (clampI32 state.columns.length) + 0 +
    Wire.repeated 7 ((state.columns.map (·.schema)).map (·.encodedLen)) + 0 +
    Wire.delimited 10 (fold.recordLayout state).encodedLen ≤ _
  omega

/-- A table takes no more than its room beside its rows, the link to it included. -/
lemma table_le (opened : Opened version info fold) {index : Nat} (lt : index < 10 ^ 20)
    {rows : List Pb.RecordRow} {schema : Pb.RecordSchema} {state : TableState}
    (declared : state.Declared schema) (few : state.dropped ≤ rows.length)
    (fits : Content.room version info rows (.table schema) ≤ u64Max)
    (rowsFit : state.headerLen + rowsLen state.grid state.rowProv ≤ u64Max) :
    linkLen (tableRef index) + (fold.tableAt index state).declaredLen
      ≤ Content.room version info rows (.table schema) := by
  have room : Content.room version info rows (.table schema)
      = columnsLen schema + schema.name.utf8ByteSize + (schema.selector.getD "").utf8ByteSize +
        info.encoding.utf8ByteSize + version.utf8ByteSize + countsLen info rows schema + itemRoom := rfl
  rw [room] at fits ⊢
  have link := linkLen_le (tableRef_size lt)
  have item := opened.tableItem_le lt declared (by omega)
  have bare := opened.tableData_le declared few (rfl : (fold.tableAt index state).data = some _) (by omega)
  have rowsFit := (rowsLen_append [⟨state.header⟩] state.grid [{}] state.rowProv).trans_le rowsFit
  unfold itemRoom at fits ⊢
  have beside : (fold.tableAt index state).declaredLen ≤ _ :=
    Doc.TableItem.declaredLen_le rfl rfl item bare rowsFit (by omega)
  omega

/-! ## Documents -/

/-- The entries of a document take no more than their room beside the rows. -/
lemma entries_le (opened : Opened version info fold) {rowCap : Nat} {rows : List Pb.RecordRow}
    {listing : List Content} {pieces : List Piece}
    (is : List.Forall₂ (Content.Is rowCap rows) listing pieces) (texts tables : Nat)
    (few : texts + tables + pieces.length ≤ 10 ^ 20)
    (fits : ∀ content ∈ listing, content.room version info rows ≤ u64Max)
    (rowsFit : ∀ state ∈ pieces.filterMap Piece.state,
      state.headerLen + rowsLen state.grid state.rowProv ≤ u64Max) :
    ((refsFrom texts tables pieces).map linkLen).sum + ((fold.textsFrom texts pieces).map textLen).sum +
        ((fold.tablesFrom tables pieces).map (·.declaredLen)).sum
      ≤ (listing.map (Content.room version info rows)).sum := by
  -- A place is counted by the texts and the tables before it.
  induction is generalizing texts tables with
  | nil => exact Nat.le_refl _
  | @cons content piece listing pieces is _ ih =>
    obtain ⟨first, others⟩ := List.forall_mem_cons.mp fits
    rw [List.length_cons] at few
    rw [List.map_cons, List.sum_cons]
    cases is with
    | description text =>
      have item := opened.description_le (by omega : texts < 10 ^ 20) first
      have rest := ih (texts + 1) tables (by omega) others rowsFit
      simp only [refsFrom, DocumentFold.textsFrom, DocumentFold.tablesFrom, List.map_cons, List.sum_cons]
      omega
    | heading name =>
      have item := opened.heading_le (by omega : texts < 10 ^ 20) first
      have rest := ih (texts + 1) tables (by omega) others rowsFit
      simp only [refsFrom, DocumentFold.textsFrom, DocumentFold.tablesFrom, List.map_cons, List.sum_cons]
      omega
    | @table schema state account =>
      have counted := account.counted
      have fewer : rowsOf rows schema.name ≤ rows.length := List.countP_le_length
      obtain ⟨own, rowsFit⟩ := List.forall_mem_cons.mp rowsFit
      have item := opened.table_le (by omega : tables < 10 ^ 20) account.declared (by omega) first own
      have rest := ih texts (tables + 1) (by omega) others rowsFit
      simp only [refsFrom, DocumentFold.textsFrom, DocumentFold.tablesFrom, List.map_cons, List.sum_cons]
      omega

/-- The document beside its entries. -/
lemma document_le (opened : Opened version info fold) (refs : List String)
    (texts : List (Option Doc.BaseTextItem))
    (fits : (documentName info).utf8ByteSize + info.encoding.utf8ByteSize + itemRoom +
      ((refs.map linkLen).sum + (texts.map textLen).sum) ≤ u64Max) :
    (DocumentFold.extend fold.document refs texts []).encodedLen
      ≤ (documentName info).utf8ByteSize + info.encoding.utf8ByteSize + itemRoom +
        ((refs.map linkLen).sum + (texts.map textLen).sum) := by
  unfold itemRoom at fits ⊢
  have bound : u64Max = 18446744073709551615 := rfl
  have schema : Wire.presentString 1 schemaName = 21 := by decide
  have name : Wire.string 3 (documentName info) ≤ (documentName info).utf8ByteSize + 12 :=
    Wire.string_le (by decide) (by omega)
  have selfRef : Wire.string 1 bodyRef = 8 := by decide
  have layer : Wire.enumeration 4 Doc.ContentLayer.body.toI32 = 2 := by decide
  have custom : Doc.customFieldsLen (DocumentFold.bodyFields info) ≤ _ := bodyFields_le (by omega)
  have fields : Wire.delimited 5 (Doc.customFieldsLen (DocumentFold.bodyFields info)) ≤ _ + 12 :=
    Wire.delimited_le (by decide) (by omega)
  have links : Wire.repeated 3 ((refs.map refItem).map (·.encodedLen)) = (refs.map linkLen).sum := by
    unfold Wire.repeated
    rw [List.map_map, List.map_map]
    rfl
  have arena : Wire.repeated 7 (texts.map fun text => Wire.optional (·.encodedLen) text)
      = (texts.map textLen).sum := by
    unfold Wire.repeated
    rw [List.map_map]
    rfl
  have body : Wire.delimited 5 (Wire.string 1 bodyRef + 0 +
      Wire.repeated 3 ((refs.map refItem).map (·.encodedLen)) +
      Wire.enumeration 4 Doc.ContentLayer.body.toI32 +
      Wire.delimited 5 (Doc.customFieldsLen (DocumentFold.bodyFields info))) ≤ _ + 12 :=
    Wire.delimited_le (by decide) (by omega)
  have furniture : Wire.delimited 13 (Wire.string 1 furnitureRef + 0 + 0 +
      Wire.enumeration 4 Doc.ContentLayer.furniture.toI32 + 0) ≤ 20 := by decide
  unfold DocumentFold.extend
  rw [opened.document]
  change Wire.presentString 1 schemaName + Wire.string 3 (documentName info) +
    Wire.delimited 5 (Wire.string 1 bodyRef + 0 +
      Wire.repeated 3 ((refs.map refItem).map (·.encodedLen)) +
      Wire.enumeration 4 Doc.ContentLayer.body.toI32 +
      Wire.delimited 5 (Doc.customFieldsLen (DocumentFold.bodyFields info))) + 0 +
    Wire.repeated 7 (texts.map fun text => Wire.optional (·.encodedLen) text) + 0 + 0 +
    Wire.delimited 13 (Wire.string 1 furnitureRef + 0 + 0 +
      Wire.enumeration 4 Doc.ContentLayer.furniture.toI32 + 0) ≤ _
  omega

end Opened

namespace DocumentFold

/-- What is charged for a header row is not charged while its table keeps no row. -/
def freeHeaders (fold : DocumentFold) : Nat :=
  ((fold.tables.filter fun state => ¬ Unseen state).map fun state =>
    if state.rows = 0 then state.headerCharge else 0).sum

/-- What nothing is charged for has room in what the layout declares and in the headers that are free. -/
lemma uncharged_le {version : String} {info : Pb.LayoutInfo} {rowCap byteCap : Nat}
    {rows : List Pb.RecordRow} {fold : DocumentFold} (opened : Opened version info fold)
    (acc : Accounts info rowCap byteCap rows fold) (covered : ∀ state ∈ fold.tables, state.Covered)
    (fits : declarations version info rows ≤ u64Max)
    (rowsFit : ∀ state ∈ fold.tables.filter fun state => ¬ Unseen state,
      state.headerLen + rowsLen state.grid state.rowProv ≤ u64Max) :
    fold.uncharged ≤ declarations version info rows + fold.freeHeaders := by
  have listed := outline_contents acc opened.description
  obtain ⟨number, each⟩ := declarations_le fits
  rw [listed.length_eq] at number
  rw [← outline_states] at rowsFit
  have entries := opened.entries_le listed 0 0 (by unfold u64Max at number; omega) each rowsFit
  have document := opened.document_le (refsFrom 0 0 fold.outline) (fold.textsFrom 0 fold.outline) (by
    unfold declarations at fits
    omega)
  have headers : ((fold.tables.filter fun state => ¬ Unseen state).map (·.freeHeaderLen)).sum
      ≤ fold.freeHeaders := by
    refine List.sum_le_sum fun state mem => ?_
    have header := (covered state (List.mem_filter.mp mem).1).headerLen_le
    unfold TableState.freeHeaderLen
    split_ifs
    · exact header
    · exact Nat.zero_le _
  unfold uncharged declarations
  omega

end DocumentFold

end GrpcEbcdic

import GrpcEbcdic.Copybook.Leaves
import GrpcEbcdic.Fold.Declarations
import GrpcEbcdic.Fold.Grid

/-!
# The cap of a document

Where every row takes no more than it is charged, what is charged bounds the rows of a document, and what its
layout declares bounds the rest; so a document is within its cap if the charges leave room for the
declarations. Nothing charges for these, and a layout of long paths can declare more than the cap by itself.
-/

namespace GrpcEbcdic
open Rust

section Cap

variable [F64]

/-- The bytes of the column declarations of the schemas of which a row came. -/
def columnDeclarations (info : Pb.LayoutInfo) (rows : List Pb.RecordRow) : Nat :=
  ((info.records.filter fun schema => rowsOf rows schema.name ≠ 0).map columnsLen).sum

/-- The bytes of the texts in some rows of a grid. -/
def textsLen (grid : List Doc.TableRow) : Nat :=
  (grid.map fun row => (row.cells.map fun cell => cell.text.utf8ByteSize).sum).sum

/-- Every text of a row is delivered twice. -/
lemma textsLen_le (grid : List Doc.TableRow) (rowProv : List Doc.ProvenanceItem) :
    2 * textsLen grid ≤ rowsLen grid rowProv := by
  have cells (cells : List Doc.TableCell) : (cells.map fun cell => cell.text.utf8ByteSize).sum
      ≤ Wire.repeated 1 (cells.map (·.encodedLen)) := by
    unfold Wire.repeated
    rw [List.map_map]
    refine List.sum_le_sum fun cell _ => ?_
    have text : cell.text.utf8ByteSize ≤ Wire.string 8 cell.text := by
      unfold Wire.string
      split_ifs with empty
      · rw [empty]
        exact Nat.le_refl 0
      · exact Wire.le_delimited _ _
    have content : Wire.string 8 cell.text ≤ cell.encodedLen := by
      unfold Doc.TableCell.encodedLen
      omega
    exact (text.trans content).trans (Wire.le_delimited 1 _)
  induction grid generalizing rowProv with
  | nil => exact Nat.zero_le _
  | cons row grid ih =>
    have first := cells row.cells
    have wrapped : row.encodedLen ≤ Wire.delimited 4 row.encodedLen := Wire.le_delimited 4 _
    have rest := ih rowProv
    have content : row.encodedLen = Wire.repeated 1 (row.cells.map (·.encodedLen)) := rfl
    unfold rowsLen at rest ⊢
    unfold textsLen at rest ⊢
    rw [List.flatMap_cons, List.map_append, Wire.repeated_append, List.map_cons, List.map_cons,
      Wire.repeated_cons, List.sum_cons]
    omega

namespace DocumentFold

/-- The bytes of the texts that are kept. -/
def textsLen (fold : DocumentFold) : Nat :=
  (fold.tables.map fun state => GrpcEbcdic.textsLen state.grid).sum

variable {info : Pb.LayoutInfo} {rowCap byteCap : Nat} {rows : List Pb.RecordRow} {fold : DocumentFold}

/-- Where every row is covered, a document takes no more than its charges and what its layout declares. -/
lemma encodedLen_le {version : String} (opened : Opened version info fold)
    (acc : Accounts info rowCap byteCap rows fold) (blank : fold.Blank)
    (empty : ∀ state ∈ fold.tables, state.rows = 0 → state.grid = [] ∧ state.rowProv = [])
    (covered : ∀ state ∈ fold.tables, state.Covered) (word : byteCap ≤ u64Max)
    (room : declarations version info rows + fold.freeHeaders + fold.charged ≤ byteCap) :
    fold.take.encodedLen ≤ byteCap := by
  have rows_le : (fold.tables.map (·.chargedLen)).sum ≤ fold.charged :=
    List.sum_le_sum fun state mem => (covered state mem).chargedLen_le
  -- The rows of one table, and its header if this is free, are within the charges for all.
  have rowsFit : ∀ state ∈ fold.tables.filter fun state => ¬ Unseen state,
      state.headerLen + rowsLen state.grid state.rowProv ≤ u64Max := by
    intro state mem
    have among := (List.mem_filter.mp mem).1
    have own := List.le_sum_of_mem (List.mem_map_of_mem (f := (·.charge)) among)
    have free := List.le_sum_of_mem (List.mem_map_of_mem
      (f := fun state : TableState => if state.rows = 0 then state.headerCharge else 0) mem)
    have charged := (covered state among).chargedLen_le
    have header := (covered state among).headerLen_le
    rw [state.headerLen_add]
    unfold TableState.freeHeaderLen
    unfold DocumentFold.charged freeHeaders at room
    split_ifs at free ⊢ <;> omega
  have beside := uncharged_le opened acc covered (by omega) rowsFit
  rw [blank.encodedLen empty]
  omega

/-- A document has the column declarations of its tables, and every kept text twice. -/
lemma declared_le (acc : Accounts info rowCap byteCap rows fold) (blank : fold.Blank)
    (empty : ∀ state ∈ fold.tables, state.rows = 0 → state.grid = [] ∧ state.rowProv = []) :
    columnDeclarations info rows + 2 * fold.textsLen ≤ fold.take.encodedLen := by
  have written := fold.tablesFrom_states 0 fold.outline
  rw [outline_states] at written
  have declared : List.Forall₂ (fun schema table => columnsLen schema ≤ table.declaredLen)
      (info.records.filter fun schema => rowsOf rows schema.name ≠ 0)
      (fold.tablesFrom 0 fold.outline) := by
    refine Pairing.forall₂_comp (fun schema state table account at_index => ?_) acc.seen written
    obtain ⟨index, rfl⟩ := at_index
    have columns : Wire.repeated 7 ((state.columns.map (·.schema)).map (·.encodedLen))
        = columnsLen schema := by
      rw [account.declared.columns, List.map_map]
      rfl
    rw [← columns]
    exact (fold.tableAt index state).columns_le rfl
  have tables : columnDeclarations info rows
      ≤ ((fold.tablesFrom 0 fold.outline).map (·.declaredLen)).sum := by
    refine List.Forall₂.sum_le_sum ?_
    rw [List.forall₂_map_left_iff, List.forall₂_map_right_iff]
    exact declared
  have texts : 2 * fold.textsLen ≤ (fold.tables.map (·.chargedLen)).sum := by
    unfold textsLen
    rw [← List.sum_map_mul_left]
    refine List.sum_le_sum fun state _ => ?_
    refine (GrpcEbcdic.textsLen_le state.grid state.rowProv).trans ?_
    unfold TableState.chargedLen
    exact Nat.le_add_right _ _
  rw [blank.encodedLen empty]
  unfold uncharged
  omega

end DocumentFold

/-- A document is within its cap where no row and no header takes more than it is charged and the charges,
with those for the headers that were free, leave room for what the layout declares; the estimate is what is
charged. No row takes more than it is charged in a plain table. And it is not within its cap if the columns
that are declared and the texts that are kept are longer. -/
theorem document_within_cap [Unicode] [SerdeJson] {options : Pb.ParseOptions} {layout : Layout}
    (resolved : resolve options = .ok layout) (encoding version : String) (rowCap : Nat) {byteCap : Nat}
    (word : byteCap ≤ u64Max) (rows : List Pb.RecordRow) :
    let info := layout.toLayoutInfo encoding
    let fold := foldEvents version rowCap byteCap (openingEvents info rows)
    (byteCap < u64Max → fold.bytes = fold.charged) ∧
      ((∀ state ∈ fold.tables, state.Covered) →
        declarations version info rows + fold.freeHeaders + fold.charged ≤ byteCap →
        fold.take.encodedLen ≤ byteCap) ∧
      ((∀ schema ∈ info.records, Plain rowCap rows schema) → ∀ state ∈ fold.tables, state.Covered) ∧
      (byteCap < columnDeclarations info rows + 2 * fold.textsLen → byteCap < fold.take.encodedLen) := by
  intro info fold
  have names : (info.records.map (·.name)).Nodup := (resolve_valid resolved).schemas encoding
  have charges : DocumentFold.Charges byteCap fold :=
    DocumentFold.charges_foldEvents version rowCap byteCap info rows
  have blank : fold.Blank := (DocumentFold.blank_new version rowCap byteCap).foldl _
  have acc := (Accounts.start names version rowCap byteCap).foldRows names rows
  have opened := (Opened.start version rowCap byteCap info).foldRows rows
  rw [List.nil_append] at acc
  rw [← foldEvents_opening] at acc opened
  change Accounts info rowCap byteCap rows fold at acc
  change Opened version info fold at opened
  refine ⟨charges.bytes, fun covered room => ?_, fun plain state mem => ?_, fun longer => ?_⟩
  · exact DocumentFold.encodedLen_le opened acc blank charges.empty covered word room
  · obtain ⟨i, at_i⟩ := List.mem_iff_getElem?.mp mem
    obtain ⟨schema, at_i', account⟩ := Pairing.exists_of_forall₂ acc.tables.flip at_i
    exact (plain schema (List.mem_of_getElem? at_i')).covered account
  · exact longer.trans_le (DocumentFold.declared_le acc blank charges.empty)

end Cap

section Sample

open Copybook

attribute [local instance] asciiUnicode noJson coreF64

/-- Its one record is short. -/
lemma sample_plain : ∀ schema ∈ (sampleLayout.toLayoutInfo "cp037").records,
    Plain defaultRowCap [shuffledRow] schema := by
  refine List.forall_mem_singleton.mpr ⟨by decide, by decide, ?_, by decide, .inl (by decide)⟩
  refine List.forall_mem_singleton.mpr fun cell mem _ => ?_
  have short : ∀ cell ∈ shuffledRow.cells, (cellText cell).utf8ByteSize < 98 := by decide
  exact short cell mem

/-- The document of a short record is within the default cap, by what is charged and what is declared. Under
a cap of ten bytes no row is kept, and the declarations alone are longer. -/
theorem document_within_cap_sample :
    let info := sampleLayout.toLayoutInfo "cp037"
    let fold := foldEvents "0.1.0" defaultRowCap defaultByteCap (openingEvents info [shuffledRow])
    fold.bytes = fold.charged ∧ (∀ state ∈ fold.tables, state.Covered) ∧
      declarations "0.1.0" info [shuffledRow] + fold.freeHeaders + fold.charged ≤ defaultByteCap ∧
      fold.take.encodedLen ≤ defaultByteCap ∧
      10 < (foldEvents "0.1.0" defaultRowCap 10 (openingEvents info [shuffledRow])).take.encodedLen := by
  obtain ⟨estimate, within, plain, _⟩ := document_within_cap resolve_sample "cp037" "0.1.0"
    defaultRowCap (by decide : defaultByteCap ≤ u64Max) [shuffledRow]
  obtain ⟨_, _, _, longer⟩ := document_within_cap resolve_sample "cp037" "0.1.0"
    defaultRowCap (by decide : 10 ≤ u64Max) [shuffledRow]
  have room : declarations "0.1.0" (sampleLayout.toLayoutInfo "cp037") [shuffledRow] +
      (foldEvents "0.1.0" defaultRowCap defaultByteCap
        (openingEvents (sampleLayout.toLayoutInfo "cp037") [shuffledRow])).freeHeaders +
      (foldEvents "0.1.0" defaultRowCap defaultByteCap
        (openingEvents (sampleLayout.toLayoutInfo "cp037") [shuffledRow])).charged ≤ defaultByteCap := by
    decide
  exact ⟨estimate (by decide), plain sample_plain, room, within (plain sample_plain) room,
    longer (by decide)⟩

/-- A record name of seventeen thousand letters. -/
def pathsName : String := String.ofList (List.replicate 17000 'R')

/-- A table of one byte, as often as the compiler expands one. -/
def pathsLeaf : Leaf := ⟨some "F", "X", none, some 4096, none, []⟩

/-- A record of that table alone. -/
def pathsTree : Tree := .group pathsName [] 5 [.elementary pathsLeaf]

/-- The request with the record as a copybook. -/
def pathsCopybook : Pb.ParseOptions where
  layoutSource := some (.copybook pathsTree.print)

/-- One record, a letter in every byte. -/
def pathsRow : Pb.RecordRow where
  recordType := pathsName
  rowIndex := 0
  recordIndex := 0
  byteOffset := 0
  byteLength := 4096
  cells := (List.range 4096).map fun i =>
    { name := "F(" ++ toString (i + 1) ++ ")", type := 1, value := some (.text "A") }

lemma pathsName_toList : pathsName.toList = List.replicate 17000 'R' := String.toList_ofList

lemma pathsName_size : pathsName.utf8ByteSize = 17000 := by
  have size (n : Nat) : (String.ofList (List.replicate n 'R')).utf8ByteSize = n := by
    induction n with
    | zero => rfl
    | succ n ih =>
      rw [List.replicate_succ, String.ofList_cons, String.utf8ByteSize_append, ih,
        String.utf8ByteSize_singleton]
      exact Nat.add_comm 1 n
  exact size 17000

lemma pathsName_valid : NameValid pathsName := by
  have upper : toUppercase pathsName = pathsName := by
    refine toUppercase_self fun c mem => ?_
    rw [pathsName_toList] at mem
    obtain rfl := List.eq_of_mem_replicate mem
    decide
  have length : pathsName.length = 17000 := by
    rw [← String.length_toList, pathsName_toList, List.length_replicate]
  have ne {word : String} (short : word.length < 100) : pathsName ≠ word := by
    rintro rfl
    omega
  refine ⟨?_, ?_, ?_⟩
  · unfold isDataName
    rw [pathsName_toList]
    simp only [List.all_replicate, List.head?_replicate]
    decide
  · rw [upper]
    generalize pathsName = name at ne
    simp (disch := decide) [isClauseKeyword, usageOf, ignorable, refused, ne]
  · rw [upper]
    exact ne (by decide)

/-- The leaf is one letter wide. -/
lemma pathsLeaf_shape : pathsLeaf.shape = some ⟨.text, 1, 0⟩ := by decide

lemma pathsTree_all : pathsTree.all
    = [⟨1, [], .group pathsName []⟩, ⟨5, [pathsName], .elementary pathsLeaf⟩] := rfl

/-- One column for each occurrence. -/
lemma pathsTree_fields : pathsTree.fields
    = (List.range 4096).map fun i => pathsLeaf.field 5 [pathsName] ⟨.text, 1, 0⟩ (i + 1) := by
  have leaf : (Position.mk 5 [pathsName] (.elementary pathsLeaf)).fields
      = (List.range 4096).map fun i => pathsLeaf.field 5 [pathsName] ⟨.text, 1, 0⟩ (i + 1) := by
    unfold Position.fields
    dsimp only
    rw [pathsLeaf_shape]
    rfl
  have group : (Position.mk 1 [] (.group pathsName [])).fields = [] := rfl
  rw [Tree.fields, pathsTree_all, List.flatMap_cons, List.flatMap_singleton, group, leaf,
    List.nil_append]

lemma pathsTree_valid : pathsTree.Valid where
  nested := ⟨by decide, by decide, List.cons_ne_nil _ _, trivial, trivial⟩
  nodes := by
    refine List.forall_mem_cons.mpr ⟨⟨pathsName_valid, nofun⟩, List.forall_mem_singleton.mpr ?_⟩
    exact {
      name := by
        rintro name ⟨⟩
        exact ⟨by decide, by decide, by decide⟩
      shape := ⟨_, pathsLeaf_shape, by decide⟩
      usage := nofun
      occurs := by
        rintro count ⟨⟩
        decide
      value := nofun
      conditions := nofun }
  names := List.nodup_singleton "F"
  bytes_le := by
    have leaf : (Position.mk 5 [pathsName] (.elementary pathsLeaf)).bytes = 4096 := by
      unfold Position.bytes
      dsimp only
      rw [pathsLeaf_shape]
      rfl
    have group : (Position.mk 1 [] (.group pathsName [])).bytes = 0 := rfl
    rw [Tree.bytes, pathsTree_all, List.map_cons, List.map_singleton, group, leaf]
    decide
  fields_le := by
    rw [pathsTree_fields, List.length_map, List.length_range]
    decide
  values_le := by decide

/-- The layout of the copybook. -/
def pathsLayout : Layout := pathsTree.layout.resolved .copybook

lemma resolve_paths : resolve pathsCopybook = .ok pathsLayout := by
  have validated : validate pathsTree.layout .copybook = .ok pathsLayout :=
    validate_resolved.mpr ⟨pathsTree_valid.layout_admitted, rfl⟩
  exact Fallible.bind_eq_ok.mpr ⟨_, pathsTree_valid.compiles, validated⟩

/-- The path of each field begins with the name of the record. -/
lemma paths_named {field : Field} (mem : field ∈ resolveFields 0 pathsTree.fields) :
    field.kind = .text ∧ 17000 ≤ field.declaration.path.utf8ByteSize := by
  obtain ⟨j, at_j⟩ := List.mem_iff_getElem?.mp mem
  have same : List.Forall₂ (fun field raw => field = RawField.resolved raw field.offset)
      (resolveFields 0 pathsTree.fields) pathsTree.fields := (resolveFields_same 0 pathsTree.fields).flip
  obtain ⟨raw, at_j', eq⟩ := Pairing.exists_of_forall₂ same at_j
  have among := List.mem_of_getElem? at_j'
  rw [pathsTree_fields] at among
  obtain ⟨i, _, rfl⟩ := List.mem_map.mp among
  have path : (pathsLeaf.field 5 [pathsName] ⟨.text, 1, 0⟩ (i + 1)).declaration.path
      = pathsName ++ "." ++ pathsLeaf.column (i + 1) := rfl
  have long : 17000 ≤ (pathsName ++ "." ++ pathsLeaf.column (i + 1)).utf8ByteSize := by
    rw [String.utf8ByteSize_append, String.utf8ByteSize_append, pathsName_size]
    omega
  have ne : (pathsName ++ "." ++ pathsLeaf.column (i + 1)).isEmpty = false := by
    rw [Bool.eq_false_iff]
    intro empty
    rw [String.isEmpty_iff.mp empty] at long
    cases long
  rw [eq]
  refine ⟨rfl, ?_⟩
  unfold RawField.resolved
  dsimp only
  rw [path, ne]
  exact long

/-- The schema of the record. -/
def pathsSchema : Pb.RecordSchema :=
  (RawRecord.resolved ⟨pathsName, pathsTree.fields, none⟩).toSchema

lemma pathsSchema_name : pathsSchema.name = pathsName := by
  have ne : pathsName ≠ "" := pathsTree_valid.name_ne
  have named : RawRecord.schemaName ⟨pathsName, pathsTree.fields, none⟩ = pathsName := by
    rw [RawRecord.schemaName, if_neg]
    simpa using ne
  unfold pathsSchema RecordLayout.toSchema RawRecord.resolved
  dsimp only
  exact named

/-- No field is a filler, so each is a column, and declared by its path. -/
lemma paths_columns : ((columns pathsSchema).map (·.schema)).length = 4096 ∧
    ∀ column ∈ (columns pathsSchema).map (·.schema),
      ∃ name, column.name = some name ∧ 17000 ≤ name.utf8ByteSize := by
  have kept : columns pathsSchema
      = (resolveFields 0 pathsTree.fields).map fun field => column field.toSchema := by
    have fields : pathsSchema.fields = (resolveFields 0 pathsTree.fields).map (·.toSchema) := by
      unfold pathsSchema RecordLayout.toSchema RawRecord.resolved
      dsimp only
    unfold columns
    rw [fields, List.filter_eq_self.mpr, List.map_map]
    · rfl
    · refine List.forall_mem_map.mpr fun field mem => ?_
      have text : field.toSchema.type = FieldKind.text.toProto.toI32 :=
        congrArg (fun kind => kind.toProto.toI32) (paths_named mem).1
      rw [text]
      decide
  rw [kept]
  constructor
  · rw [List.length_map, List.length_map, ← (resolveFields_same 0 pathsTree.fields).length_eq,
      pathsTree_fields, List.length_map, List.length_range]
  · refine List.forall_mem_map.mpr (List.forall_mem_map.mpr fun field mem => ⟨_, rfl, ?_⟩)
    have long := (paths_named mem).2
    have ne : field.declaration.path ≠ "" := by
      intro empty
      rw [empty] at long
      cases long
    exact long.trans (congrArg String.utf8ByteSize (if_neg ne)).ge

/-- The declarations of the columns have seventeen thousand bytes each and more. -/
lemma pathsSchema_columnsLen : 4096 * 17000 ≤ columnsLen pathsSchema := by
  obtain ⟨length, long⟩ := paths_columns
  have each : ∀ n ∈ ((columns pathsSchema).map (·.schema)).map (·.encodedLen), 17000 ≤ n := by
    refine List.forall_mem_map.mpr fun column mem => ?_
    obtain ⟨name, has, le⟩ := long column mem
    have named := le.trans (Wire.le_delimited 1 name.utf8ByteSize)
    unfold Doc.TableColumnSchema.encodedLen
    rw [has]
    simp only [Wire.optional, Option.map_some, Option.getD_some, Wire.presentString]
    omega
  have least : _ ≤ Wire.repeated 7 _ := Wire.mul_le_repeated each
  rw [List.length_map, length, List.map_map] at least
  exact least

/-- A record of seventeen thousand letters and a table of as many columns as `OCCURS` allows fit into a
copybook of a few lines, and yet the declarations of the columns alone, one for each path, are longer
than the cap of a document. -/
theorem document_exceeds_cap : ∃ layout, resolve pathsCopybook = .ok layout ∧
    defaultByteCap < (foldEvents "0.1.0" defaultRowCap defaultByteCap
      (openingEvents (layout.toLayoutInfo "cp037") [pathsRow])).take.encodedLen := by
  refine ⟨pathsLayout, resolve_paths, ?_⟩
  have nodup : ((pathsLayout.toLayoutInfo "cp037").records.map (·.name)).Nodup :=
    (resolve_valid resolve_paths).schemas "cp037"
  have charges := DocumentFold.charges_foldEvents "0.1.0" defaultRowCap defaultByteCap
    (pathsLayout.toLayoutInfo "cp037") [pathsRow]
  have acc := (Accounts.start nodup "0.1.0" defaultRowCap defaultByteCap).foldRows nodup [pathsRow]
  rw [List.nil_append, ← foldEvents_opening] at acc
  have least := DocumentFold.declared_le acc ((DocumentFold.blank_new _ _ _).foldl _) charges.empty
  have came : rowsOf [pathsRow] pathsSchema.name = 1 := by
    simp [rowsOf, pathsRow, pathsSchema_name]
  have declared : columnDeclarations (pathsLayout.toLayoutInfo "cp037") [pathsRow]
      = columnsLen pathsSchema := by
    unfold columnDeclarations
    change (([pathsSchema].filter _).map columnsLen).sum = _
    rw [List.filter_cons_of_pos (by rw [came]; rfl), List.filter_nil, List.map_singleton,
      List.sum_singleton]
  have cap : defaultByteCap = 67108864 := rfl
  have long := pathsSchema_columnsLen
  omega

end Sample

end GrpcEbcdic

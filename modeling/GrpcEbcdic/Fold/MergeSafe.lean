import GrpcEbcdic.Fold.Accounts
import GrpcEbcdic.Fold.Integrity
import GrpcEbcdic.Fold.Outline

/-!
# A folded document is safe to merge

Whatever events a fold is given, the document it hands back passes its own integrity check: every item
has its place in an arena for a reference, is listed once by the body, and says so itself. The body
lists the description, then for each schema with a row its heading and its table.
-/

namespace GrpcEbcdic
open Rust

/-! ## References -/

lemma textRef_toList (index : Nat) :
    (textRef index).toList = "#/texts/".toList ++ (toString index).toList :=
  String.toList_append

lemma tableRef_toList (index : Nat) :
    (tableRef index).toList = "#/tables/".toList ++ (toString index).toList :=
  String.toList_append

lemma textRef_injective : Function.Injective textRef := by
  intro i j same
  have lists := congrArg String.toList same
  rw [textRef_toList, textRef_toList] at lists
  exact toString_nat_inj (String.toList_inj.mp (List.append_cancel_left lists))

lemma tableRef_injective : Function.Injective tableRef := by
  intro i j same
  have lists := congrArg String.toList same
  rw [tableRef_toList, tableRef_toList] at lists
  exact toString_nat_inj (String.toList_inj.mp (List.append_cancel_left lists))

lemma textRef_ne_tableRef (i j : Nat) : textRef i ≠ tableRef j := by
  intro same
  have lists := congrArg String.toList same
  rw [textRef_toList, tableRef_toList] at lists
  simp at lists

/-- The references of as many text items and tables. -/
def arenaRefs (texts tables : Nat) : List String :=
  (List.range texts).map textRef ++ (List.range tables).map tableRef

lemma arenaRefs_nodup (texts tables : Nat) : (arenaRefs texts tables).Nodup := by
  refine List.Nodup.append (List.nodup_range.map textRef_injective)
    (List.nodup_range.map tableRef_injective) fun ref text table => ?_
  obtain ⟨i, _, rfl⟩ := List.mem_map.mp text
  obtain ⟨j, _, same⟩ := List.mem_map.mp table
  exact textRef_ne_tableRef i j same.symm

/-- No reference of an arena is empty or that of a root. -/
lemma arenaRefs_own {texts tables : Nat} {ref : String} (mem : ref ∈ arenaRefs texts tables) :
    ref ≠ "" ∧ ref ∉ [bodyRef, furnitureRef] := by
  have of_prefix (start : List Char) (front : start <+: ref.toList)
      (empty : ¬ start <+: []) (body : ¬ start <+: bodyRef.toList)
      (furniture : ¬ start <+: furnitureRef.toList) : ref ≠ "" ∧ ref ∉ [bodyRef, furnitureRef] := by
    refine ⟨?_, ?_⟩
    · rintro rfl
      exact empty front
    · rw [List.mem_pair]
      rintro (rfl | rfl)
      · exact body front
      · exact furniture front
  rcases List.mem_append.mp mem with mem | mem
  · obtain ⟨i, _, rfl⟩ := List.mem_map.mp mem
    refine of_prefix "#/texts/".toList ?_ (by decide) (by decide) (by decide)
    rw [textRef_toList]
    exact List.prefix_append _ _
  · obtain ⟨i, _, rfl⟩ := List.mem_map.mp mem
    refine of_prefix "#/tables/".toList ?_ (by decide) (by decide) (by decide)
    rw [tableRef_toList]
    exact List.prefix_append _ _

/-- The links of an item of the body. -/
def bodyItem (ref : String) : ItemLinks := ⟨ref, [], some (refItem bodyRef)⟩

variable [F64]

/-- What a blank fold hands back, as its links. -/
structure Linked (document : Doc.Document) : Prop where
  body : IsRoot bodyRef document.body
  furniture : IsRoot furnitureRef document.furniture
  rootLinks : rootLinks furnitureRef document.furniture = [⟨furnitureRef, [], none⟩]
  groups : document.groups = []
  texts : document.texts.map textLinks =
    (List.range document.texts.length).map (some ∘ bodyItem ∘ textRef)
  pictures : document.pictures = []
  tables : document.tables.map tableLinks =
    (List.range document.tables.length).map (bodyItem ∘ tableRef)
  bodyRefs : document.bodyRefs.Perm (arenaRefs document.texts.length document.tables.length)

namespace DocumentFold

lemma textsFrom_links (fold : DocumentFold) (texts : Nat) (pieces : List Piece) :
    (fold.textsFrom texts pieces).map textLinks =
      (List.range' texts (fold.textsFrom texts pieces).length).map (some ∘ bodyItem ∘ textRef) := by
  induction pieces generalizing texts with
  | nil => rfl
  | cons piece pieces ih =>
    cases piece with
    | description _ | heading _ =>
      rw [textsFrom, List.map_cons, ih, List.length_cons, List.range'_succ, List.map_cons]
      rfl
    | table _ => exact ih texts

lemma tablesFrom_links (fold : DocumentFold) (tables : Nat) (pieces : List Piece) :
    (fold.tablesFrom tables pieces).map tableLinks =
      (List.range' tables (fold.tablesFrom tables pieces).length).map (bodyItem ∘ tableRef) := by
  induction pieces generalizing tables with
  | nil => rfl
  | cons piece pieces ih =>
    cases piece with
    | description _ | heading _ => exact ih tables
    | table _ =>
      rw [tablesFrom, List.map_cons, ih, List.length_cons, List.range'_succ, List.map_cons]
      rfl

/-- The references given out are those of the places of both arenas. -/
lemma refsFrom_perm (fold : DocumentFold) (texts tables : Nat) (pieces : List Piece) :
    (refsFrom texts tables pieces).Perm
      ((List.range' texts (fold.textsFrom texts pieces).length).map textRef ++
        (List.range' tables (fold.tablesFrom tables pieces).length).map tableRef) := by
  induction pieces generalizing texts tables with
  | nil => exact .refl _
  | cons piece pieces ih =>
    cases piece with
    | description _ | heading _ =>
      rw [refsFrom, textsFrom, tablesFrom, List.length_cons, List.range'_succ, List.map_cons,
        List.cons_append]
      exact (ih (texts + 1) tables).cons _
    | table _ =>
      rw [refsFrom, textsFrom, tablesFrom, List.length_cons, List.range'_succ, List.map_cons]
      exact ((ih texts (tables + 1)).cons _).trans List.perm_middle.symm

lemma Blank.take_texts {fold : DocumentFold} (blank : fold.Blank) :
    fold.take.texts = fold.textsFrom 0 fold.outline := by
  rw [blank.take_eq, extend, blank.texts, List.nil_append]

lemma Blank.take_tables {fold : DocumentFold} (blank : fold.Blank) :
    fold.take.tables = fold.tablesFrom 0 fold.outline := by
  rw [blank.take_eq, extend, blank.tables, List.nil_append]

lemma Blank.take_body {fold : DocumentFold} (blank : fold.Blank) :
    ∃ body, fold.take.body = some body ∧ body.selfRef = bodyRef ∧
      body.children = (refsFrom 0 0 fold.outline).map refItem := by
  obtain ⟨body, is, selfRef, children⟩ := blank.body
  refine ⟨{ body with children := (refsFrom 0 0 fold.outline).map refItem }, ?_, selfRef, rfl⟩
  rw [blank.take_eq, extend, is, Option.map_some, children, List.nil_append]

lemma Blank.bodyRefs_eq {fold : DocumentFold} (blank : fold.Blank) :
    fold.take.bodyRefs = refsFrom 0 0 fold.outline := by
  obtain ⟨body, is, _, children⟩ := blank.take_body
  rw [Doc.Document.bodyRefs, is, Option.elim_some, children, List.map_map]
  exact List.map_id _

lemma Blank.linked {fold : DocumentFold} (blank : fold.Blank) : Linked fold.take := by
  obtain ⟨body, isBody, bodySelf, _⟩ := blank.take_body
  obtain ⟨furniture, isFurniture, furnitureSelf, furnitureChildren⟩ := blank.furniture
  have takeFurniture : fold.take.furniture = some furniture := by
    rw [blank.take_eq, extend, isFurniture]
  refine ⟨⟨body, isBody, bodySelf⟩, ⟨furniture, takeFurniture, furnitureSelf⟩, ?_, ?_, ?_, ?_, ?_, ?_⟩
  · rw [takeFurniture, rootLinks, Option.toList_some, List.map_singleton, furnitureChildren]
  · rw [blank.take_eq, extend, blank.groups]
  · rw [blank.take_texts, List.range_eq_range']
    exact fold.textsFrom_links 0 fold.outline
  · rw [blank.take_eq, extend, blank.pictures]
  · rw [blank.take_tables, List.range_eq_range']
    exact fold.tablesFrom_links 0 fold.outline
  · rw [blank.bodyRefs_eq, arenaRefs, blank.take_texts, blank.take_tables, List.range_eq_range',
      List.range_eq_range']
    exact fold.refsFrom_perm 0 0 fold.outline

end DocumentFold

namespace Linked

variable {document : Doc.Document}

lemma walkItems_eq (linked : Linked document) :
    document.walkItems =
      (arenaRefs document.texts.length document.tables.length).map (some ∘ bodyItem) := by
  have tables : document.tables.map (some ∘ tableLinks) =
      (List.range document.tables.length).map (some ∘ bodyItem ∘ tableRef) := by
    rw [← List.map_map, linked.tables, List.map_map]
  rw [Doc.Document.walkItems, linked.groups, linked.pictures, linked.texts, tables, arenaRefs,
    List.map_append, List.map_map, List.map_map]
  simp [Function.comp_assoc]

lemma items_eq (linked : Linked document) :
    document.items = (arenaRefs document.texts.length document.tables.length).map bodyItem := by
  rw [Doc.Document.items, linked.walkItems_eq, ← List.map_map, List.reduceOption, List.filterMap_map]
  exact List.filterMap_some

lemma selfRefs_eq (linked : Linked document) :
    document.items.map (·.selfRef) = arenaRefs document.texts.length document.tables.length := by
  rw [linked.items_eq, List.map_map]
  exact List.map_id _

/-- The body is the one container that lists anything. -/
lemma lists_iff (linked : Linked document) (container child : String) :
    document.Lists container child ↔ container = bodyRef ∧ child ∈ document.bodyRefs := by
  obtain ⟨body, is, _⟩ := linked.body
  have bodyRefs : document.bodyRefs = body.children.map (·.ref) := by
    rw [Doc.Document.bodyRefs, is, Option.elim_some]
  rw [Doc.Document.Lists, Doc.Document.containers, linked.rootLinks, linked.items_eq, is, bodyRefs]
  constructor
  · rintro ⟨item, mem, rfl, listed⟩
    rcases List.mem_append.mp mem with mem | mem
    · rcases List.mem_pair.mp mem with rfl | rfl
      · exact ⟨rfl, listed⟩
      · exact absurd listed List.not_mem_nil
    · obtain ⟨ref, _, rfl⟩ := List.mem_map.mp mem
      exact absurd listed List.not_mem_nil
  · rintro ⟨rfl, listed⟩
    exact ⟨_, List.mem_append_left _ (List.mem_append_left _ List.mem_cons_self), rfl, listed⟩

/-- A document that is linked so is sound. -/
lemma sound (linked : Linked document) : Sound document := by
  have selfRefs := linked.selfRefs_eq
  have own (item : ItemLinks) (mem : item ∈ document.items) :
      item.selfRef ∈ arenaRefs document.texts.length document.tables.length :=
    selfRefs ▸ List.mem_map_of_mem mem
  refine ⟨linked.body, linked.furniture, ?_, ⟨?_, ?_, ?_⟩, ?_, ?_⟩
  · rw [linked.walkItems_eq]
    simp
  · exact fun item mem => (arenaRefs_own (own item mem)).1
  · exact fun item mem => (arenaRefs_own (own item mem)).2
  · exact selfRefs ▸ arenaRefs_nodup _ _
  · intro container child lists
    obtain ⟨_, listed⟩ := (linked.lists_iff container child).mp lists
    rw [Doc.Document.references, selfRefs]
    exact List.mem_append_right _ (linked.bodyRefs.mem_iff.mp listed)
  · intro item mem parent named
    refine ⟨?_, (linked.lists_iff _ _).mpr ⟨?_, linked.bodyRefs.mem_iff.mpr (own item mem)⟩⟩
    all_goals
      rw [linked.items_eq] at mem
      obtain ⟨ref, _, rfl⟩ := List.mem_map.mp mem
      obtain rfl := Option.some.inj named
    · exact List.mem_append_left _ List.mem_cons_self
    · rfl

/-- A reference of an arena is listed once. -/
lemma count_eq (linked : Linked document) {ref : String}
    (mem : ref ∈ arenaRefs document.texts.length document.tables.length) :
    document.bodyRefs.count ref = 1 := by
  rw [linked.bodyRefs.count_eq]
  exact List.count_eq_one_of_mem (arenaRefs_nodup _ _) mem

/-- A text item is its place, and listed once. -/
lemma text (linked : Linked document) {index : Nat} {item : Option Doc.BaseTextItem}
    (at_index : document.texts[index]? = some item) :
    textLinks item = some (bodyItem (textRef index)) ∧
      document.bodyRefs.count (textRef index) = 1 := by
  obtain ⟨lt, rfl⟩ := List.getElem?_eq_some_iff.mp at_index
  refine ⟨?_, linked.count_eq (List.mem_append_left _
    (List.mem_map_of_mem (List.mem_range.mpr lt)))⟩
  have at_links := congrArg (·[index]?) linked.texts
  simpa [lt] using at_links

/-- A table is its place, and listed once. -/
lemma table (linked : Linked document) {index : Nat} {table : Doc.TableItem}
    (at_index : document.tables[index]? = some table) :
    tableLinks table = bodyItem (tableRef index) ∧
      document.bodyRefs.count (tableRef index) = 1 := by
  obtain ⟨lt, rfl⟩ := List.getElem?_eq_some_iff.mp at_index
  refine ⟨?_, linked.count_eq (List.mem_append_right _
    (List.mem_map_of_mem (List.mem_range.mpr lt)))⟩
  have at_links := congrArg (·[index]?) linked.tables
  simpa [lt] using at_links

end Linked

/-! ## What the body lists -/

/-- Whether an event opens a parse. -/
def IsLayoutInfo (event : Pb.Event) : Prop := ∃ info, event = .layoutInfo info

/-- An entry of a document's contents. -/
inductive Content where
  | description (text : String)
  | heading (name : String)
  | table (schema : Pb.RecordSchema)

/-- The entries of one schema: none if it has no row. -/
def schemaContents (headings : Bool) (rows : List Pb.RecordRow) (schema : Pb.RecordSchema) :
    List Content :=
  if rowsOf rows schema.name = 0 then []
  else if headings then [.heading schema.name, .table schema]
  else [.table schema]

/-- The contents of the document of a layout and some rows. -/
def contents (info : Pb.LayoutInfo) (rows : List Pb.RecordRow) : List Content :=
  (if info.description = "" then [] else [.description info.description]) ++
    info.records.flatMap (schemaContents (1 < info.records.length) rows)

/-- Whether a reference leads to an entry. -/
def Content.At (document : Doc.Document) (ref : String) : Content → Prop
  | .description text => ∃ index base, ref = textRef index ∧
    document.texts[index]? = some (some (.text (some base))) ∧ base.text = text
  | .heading name => ∃ index base, ref = textRef index ∧
    document.texts[index]? = some (some (.sectionHeader (some base) 1)) ∧ base.text = name
  | .table schema => ∃ index table fields data, ref = tableRef index ∧
    document.tables[index]? = some table ∧ table.customFields = some fields ∧
    fields.lookup "ebcdic.schema" = some (stringValue schema.name) ∧ table.data = some data ∧
    data.columns = (columns schema).map (·.schema)

/-- Whether a piece is what an entry says. -/
inductive Content.Is (rowCap : Nat) (rows : List Pb.RecordRow) : Content → Piece → Prop where
  | description (text) :
    Is rowCap rows (.description text) (.description text)
  | heading (name) :
    Is rowCap rows (.heading name) (.heading name)
  | table {schema state} :
    Account rowCap rows schema state →
    Is rowCap rows (.table schema) (.table state)

/-- A table is unseen if its schema has no row. -/
lemma Account.unseen_iff {rowCap : Nat} {rows : List Pb.RecordRow} {schema : Pb.RecordSchema}
    {state : TableState} (account : Account rowCap rows schema state) :
    DocumentFold.Unseen state ↔ rowsOf rows schema.name = 0 := by
  rw [← account.counted, DocumentFold.Unseen]
  omega

/-- The tables that are seen are those of the schemas with a row. -/
lemma Accounts.seen {info : Pb.LayoutInfo} {rowCap byteCap : Nat} {rows : List Pb.RecordRow}
    {fold : DocumentFold} (acc : Accounts info rowCap byteCap rows fold) :
    List.Forall₂ (Account rowCap rows)
      (info.records.filter fun schema => rowsOf rows schema.name ≠ 0)
      (fold.tables.filter fun state => ¬ DocumentFold.Unseen state) := by
  refine List.rel_filter (fun schema state account => ?_) acc.tables
  dsimp only
  rw [decide_eq_true_iff, decide_eq_true_iff, account.unseen_iff]

namespace DocumentFold

/-- What the outline lists is what the contents say. -/
lemma outline_contents {info : Pb.LayoutInfo} {rowCap byteCap : Nat} {rows : List Pb.RecordRow}
    {fold : DocumentFold} (acc : Accounts info rowCap byteCap rows fold)
    (description : fold.description = info.description) :
    List.Forall₂ (Content.Is rowCap rows) (contents info rows) fold.outline := by
  have states : List.Forall₂ (Content.Is rowCap rows)
      (info.records.flatMap (schemaContents (1 < info.records.length) rows))
      (fold.tables.flatMap (statePieces (1 < fold.tables.length))) := by
    rw [acc.tables.length_eq]
    refine List.rel_flatMap acc.tables fun schema state account => ?_
    simp only [schemaContents, statePieces, account.unseen_iff]
    split_ifs
    · exact .nil
    · rw [account.declared.name]
      exact .cons (.heading _) (.cons (.table account) .nil)
    · exact .cons (.table account) .nil
  rw [contents, outline, description]
  refine List.rel_append ?_ states
  split_ifs
  · exact .nil
  · exact .cons (.description _) .nil

/-- The references given out lead to what the pieces say. -/
lemma refsFrom_at (fold : DocumentFold) {rowCap : Nat} {rows : List Pb.RecordRow}
    {document : Doc.Document} {listing : List Content} {pieces : List Piece}
    (is : List.Forall₂ (Content.Is rowCap rows) listing pieces)
    (texts : List (Option Doc.BaseTextItem)) (tables : List Doc.TableItem)
    (allTexts : document.texts = texts ++ fold.textsFrom texts.length pieces)
    (allTables : document.tables = tables ++ fold.tablesFrom tables.length pieces) :
    List.Forall₂ (fun content ref => Content.At document ref content) listing
      (refsFrom texts.length tables.length pieces) := by
  -- A reference counts the texts or the tables before it, so what is written so far is generalised.
  induction is generalizing texts tables with
  | nil => exact .nil
  | @cons content piece listing pieces is _ ih =>
    cases is with
    | description text =>
      rw [textsFrom] at allTexts
      refine .cons ⟨texts.length, fold.textAt texts.length .text text, rfl, ?_, rfl⟩ ?_
      · rw [allTexts, List.getElem?_append_right le_rfl, Nat.sub_self]
        rfl
      · have rest := ih (texts ++ [_]) tables (by simpa using allTexts) allTables
        simpa using rest
    | heading name =>
      rw [textsFrom] at allTexts
      refine .cons ⟨texts.length, fold.textAt texts.length .sectionHeader name, rfl, ?_, rfl⟩ ?_
      · rw [allTexts, List.getElem?_append_right le_rfl, Nat.sub_self]
        rfl
      · have rest := ih (texts ++ [_]) tables (by simpa using allTexts) allTables
        simpa using rest
    | @table schema state account =>
      rw [tablesFrom] at allTables
      refine .cons ⟨tables.length, fold.tableAt tables.length state, _, _, rfl, ?_, rfl, ?_, rfl, ?_⟩ ?_
      · rw [allTables, List.getElem?_append_right le_rfl, Nat.sub_self]
        rfl
      · rw [state.customFields_schema, account.declared.name]
      · exact congrArg _ account.declared.columns
      · have rest := ih texts (tables ++ [_]) allTexts (by simpa using allTables)
        simpa using rest

/-- Before the layout the fold knows no schema, and nothing changes it. -/
lemma foldl_consume_closed {fold : DocumentFold} (index : fold.indexBySchema = [])
    {events : List Pb.Event} (none : ∀ event ∈ events, ¬ IsLayoutInfo event) :
    events.foldl consume fold = fold := by
  induction events with
  | nil => rfl
  | cons event events ih =>
    obtain ⟨not_info, none⟩ := List.forall_mem_cons.mp none
    have same : fold.consume event = fold := by
      cases event with
      | layoutInfo info => exact absurd ⟨info, rfl⟩ not_info
      | record row =>
        change fold.row row = fold
        rw [DocumentFold.row, index]
        rfl
      | document _ => rfl
      | status _ => rfl
    rw [List.foldl_cons, same, ih none]

/-- A row leaves what the layout said. -/
lemma row_opening (fold : DocumentFold) (row : Pb.RecordRow) :
    (fold.row row).started = fold.started ∧ (fold.row row).description = fold.description := by
  have step := fold.rowStep row
  generalize fold.row row = fold' at step
  cases step with
  | unknown => exact ⟨rfl, rfl⟩
  | closed => exact ⟨rfl, rfl⟩
  | exceeds => exact ⟨rfl, rfl⟩
  | keep => exact ⟨rfl, rfl⟩

lemma foldRows_description (fold : DocumentFold) (rows : List Pb.RecordRow) :
    (fold.foldRows rows).description = fold.description := by
  induction rows generalizing fold with
  | nil => rfl
  | cons row rows ih => exact (ih (fold.row row)).trans (fold.row_opening row).2

/-- Behind the layout the fold takes the rows, and nothing else. -/
lemma foldl_consume_started {fold : DocumentFold} (started : fold.started = true)
    (events : List Pb.Event) : events.foldl consume fold = fold.foldRows (rowsIn events) := by
  induction events generalizing fold with
  | nil => rfl
  | cons event events ih =>
    rw [List.foldl_cons]
    cases event with
    | layoutInfo info =>
      have same : fold.consume (.layoutInfo info) = fold := if_pos started
      rw [same, ih started]
      rfl
    | record row =>
      exact ih ((fold.row_opening row).1.trans started)
    | document _ => exact ih started
    | status _ => exact ih started

lemma foldl_addSchema_opening (schemas : List Pb.RecordSchema) (fold : DocumentFold) :
    (schemas.foldl addSchema fold).started = fold.started ∧
      (schemas.foldl addSchema fold).description = fold.description := by
  induction schemas generalizing fold with
  | nil => exact ⟨rfl, rfl⟩
  | cons schema schemas ih => exact ih (fold.addSchema schema)

end DocumentFold

/-- The fold of some events is that of the first layout and the rows behind it. -/
lemma foldEvents_eq (version : String) (rowCap byteCap : Nat) {before : List Pb.Event}
    (info : Pb.LayoutInfo) (after : List Pb.Event) (none : ∀ event ∈ before, ¬ IsLayoutInfo event) :
    foldEvents version rowCap byteCap (before ++ .layoutInfo info :: after)
        = (foldEvents version rowCap byteCap [.layoutInfo info]).foldRows (rowsIn after) ∧
      (foldEvents version rowCap byteCap [.layoutInfo info]).description = info.description := by
  obtain ⟨started, description⟩ : (foldEvents version rowCap byteCap [.layoutInfo info]).started = true ∧
      (foldEvents version rowCap byteCap [.layoutInfo info]).description = info.description :=
    DocumentFold.foldl_addSchema_opening info.records _
  refine ⟨?_, description⟩
  rw [← DocumentFold.foldl_consume_started started, foldEvents, List.foldl_append,
    DocumentFold.foldl_consume_closed rfl none]
  rfl

/-- What a document is to be that is folded from some events. -/
structure MergeSafe (events : List Pb.Event) (document : Doc.Document) : Prop where
  integrity : integrityErrors document = []
  texts : ∀ (index : Nat) (item : Option Doc.BaseTextItem), document.texts[index]? = some item →
    ∃ links, textLinks item = some links ∧ links.selfRef = textRef index ∧
      document.bodyRefs.count links.selfRef = 1
  tables : ∀ (index : Nat) (table : Doc.TableItem), document.tables[index]? = some table →
    table.selfRef = tableRef index ∧ document.bodyRefs.count table.selfRef = 1
  /-- The first layout counts, and the rows behind it: no schema is known before. -/
  contents : ∀ before info after, events = before ++ .layoutInfo info :: after →
    (∀ event ∈ before, ¬ IsLayoutInfo event) → (info.records.map (·.name)).Nodup →
    List.Forall₂ (fun content ref => Content.At document ref content) (contents info (rowsIn after))
      document.bodyRefs

/-- Every folded document is safe to merge, whatever the events and the caps. -/
theorem take_mergeSafe (version : String) (rowCap byteCap : Nat) (events : List Pb.Event) :
    MergeSafe events (foldEvents version rowCap byteCap events).take := by
  have blank : (foldEvents version rowCap byteCap events).Blank :=
    (DocumentFold.blank_new version rowCap byteCap).foldl events
  have linked := blank.linked
  refine ⟨(integrityErrors_nil_iff _).mpr linked.sound, fun index item at_index => ?_,
    fun index table at_index => ?_, fun before info after eq none nodup => ?_⟩
  · obtain ⟨links, once⟩ := linked.text at_index
    exact ⟨_, links, rfl, once⟩
  · obtain ⟨links, once⟩ := linked.table at_index
    have selfRef : table.selfRef = tableRef index := congrArg ItemLinks.selfRef links
    exact ⟨selfRef, selfRef ▸ once⟩
  · obtain ⟨folded, description⟩ := foldEvents_eq version rowCap byteCap info after none
    have acc := (Accounts.start nodup version rowCap byteCap).foldRows nodup (rowsIn after)
    rw [← folded, List.nil_append, ← eq] at acc
    have outline := DocumentFold.outline_contents acc (by
      rw [eq, folded, DocumentFold.foldRows_description, description])
    rw [blank.bodyRefs_eq]
    exact DocumentFold.refsFrom_at (foldEvents version rowCap byteCap events) outline [] []
      blank.take_texts blank.take_tables

end GrpcEbcdic

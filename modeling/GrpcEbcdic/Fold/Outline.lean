import GrpcEbcdic.Fold.Fold

/-!
# The outline of a folded document

What `take` writes is an outline: the description, then for each schema that was seen a heading, when
there are several schemas, and a table. Every piece goes to the end of its arena and is linked to the
body under its place there, so the document is its outline with the places counted along.
-/

namespace GrpcEbcdic
open Rust

variable [F64]

/-- One piece of a document. -/
inductive Piece where
  | description (text : String)
  | heading (name : String)
  | table (state : TableState)

/-- The table a piece is. -/
def Piece.state : Piece → Option TableState
  | .description _ => none
  | .heading _ => none
  | .table state => some state

/-- The reference of the text item at a place. -/
def textRef (index : Nat) : String := s!"#/texts/{index}"

/-- The reference of the table at a place. -/
def tableRef (index : Nat) : String := s!"#/tables/{index}"

/-- The references of some pieces, behind as many text items and tables. -/
def refsFrom (texts tables : Nat) : List Piece → List String
  | [] => []
  | .description _ :: pieces => textRef texts :: refsFrom (texts + 1) tables pieces
  | .heading _ :: pieces => textRef texts :: refsFrom (texts + 1) tables pieces
  | .table _ :: pieces => tableRef tables :: refsFrom texts (tables + 1) pieces

namespace DocumentFold

/-- The text item of a piece at a place. -/
def textAt (fold : DocumentFold) (index : Nat) (label : Doc.DocItemLabel) (text : String) :
    Doc.TextItemBase :=
  { fold.textBase label text with selfRef := textRef index }

/-- The table of a state at a place. -/
def tableAt (fold : DocumentFold) (index : Nat) (state : TableState) : Doc.TableItem :=
  { fold.tableItem state with selfRef := tableRef index }

/-- The text items of some pieces, behind as many text items. -/
def textsFrom (fold : DocumentFold) (texts : Nat) : List Piece → List (Option Doc.BaseTextItem)
  | [] => []
  | .description text :: pieces =>
    some (.text (some (fold.textAt texts .text text))) :: fold.textsFrom (texts + 1) pieces
  | .heading name :: pieces =>
    some (.sectionHeader (some (fold.textAt texts .sectionHeader name)) 1) ::
      fold.textsFrom (texts + 1) pieces
  | .table _ :: pieces => fold.textsFrom texts pieces

/-- The tables of some pieces, behind as many tables. -/
def tablesFrom (fold : DocumentFold) (tables : Nat) : List Piece → List Doc.TableItem
  | [] => []
  | .description _ :: pieces => fold.tablesFrom tables pieces
  | .heading _ :: pieces => fold.tablesFrom tables pieces
  | .table state :: pieces => fold.tableAt tables state :: fold.tablesFrom (tables + 1) pieces

/-- Whether no record of a table's schema was seen. -/
def Unseen (state : TableState) : Prop := state.rows = 0 ∧ state.dropped = 0

instance (state : TableState) : Decidable (Unseen state) := inferInstanceAs (Decidable (_ ∧ _))

/-- The pieces of one table. -/
def statePieces (headings : Bool) (state : TableState) : List Piece :=
  if Unseen state then []
  else if headings then [.heading state.name, .table state]
  else [.table state]

/-- The pieces of the document. -/
def outline (fold : DocumentFold) : List Piece :=
  (if fold.description = "" then [] else [.description fold.description]) ++
    fold.tables.flatMap (statePieces (1 < fold.tables.length))

/-- Append one piece. -/
def addPiece (fold : DocumentFold) : Piece → DocumentFold
  | .description text => fold.addDescription text
  | .heading name => fold.addHeading name
  | .table state => fold.addTable state

lemma addState_eq (headings : Bool) (fold : DocumentFold) (state : TableState) :
    addState headings fold state = (statePieces headings state).foldl addPiece fold := by
  unfold addState statePieces
  change (if Unseen state then _ else _) = _
  split_ifs <;> rfl

/-- A document with some references in its body and some items in its arenas. -/
def extend (document : Doc.Document) (refs : List String)
    (texts : List (Option Doc.BaseTextItem)) (tables : List Doc.TableItem) : Doc.Document :=
  { document with
    body := document.body.map fun body => { body with children := body.children ++ refs.map refItem }
    texts := document.texts ++ texts
    tables := document.tables ++ tables }

lemma extend_nil (document : Doc.Document) : extend document [] [] [] = document := by
  obtain ⟨schemaName, name, body, furniture, groups, texts, pictures, tables⟩ := document
  cases body <;> simp [extend]

lemma extend_extend (document : Doc.Document) (refs refs' : List String)
    (texts texts' : List (Option Doc.BaseTextItem)) (tables tables' : List Doc.TableItem) :
    extend (extend document refs texts tables) refs' texts' tables'
      = extend document (refs ++ refs') (texts ++ texts') (tables ++ tables') := by
  obtain ⟨schemaName, name, body, furniture, groups, texts₀, pictures, tables₀⟩ := document
  cases body <;> simp [extend]

/-- What is written of a text depends on the fold by its attribution alone. -/
lemma textsFrom_congr {fold fold' : DocumentFold}
    (source : fold.collectorSource = fold'.collectorSource) (texts : Nat) (pieces : List Piece) :
    fold.textsFrom texts pieces = fold'.textsFrom texts pieces := by
  induction pieces generalizing texts with
  | nil => rfl
  | cons piece pieces ih => cases piece <;> simp [textsFrom, ih, textAt, textBase, source]

/-- What is written of a table depends on the fold by its attribution and its layout alone. -/
lemma tablesFrom_congr {fold fold' : DocumentFold}
    (source : fold.collectorSource = fold'.collectorSource) (layout : fold.layout = fold'.layout)
    (tables : Nat) (pieces : List Piece) :
    fold.tablesFrom tables pieces = fold'.tablesFrom tables pieces := by
  induction pieces generalizing tables with
  | nil => rfl
  | cons piece pieces ih =>
    cases piece <;> simp [tablesFrom, ih, tableAt, tableItem, source, layout]

lemma textsFrom_document (fold : DocumentFold) (document : Doc.Document) :
    { fold with document := document }.textsFrom = fold.textsFrom :=
  funext₂ (textsFrom_congr rfl)

lemma tablesFrom_document (fold : DocumentFold) (document : Doc.Document) :
    { fold with document := document }.tablesFrom = fold.tablesFrom :=
  funext₂ (tablesFrom_congr rfl rfl)

lemma pushText_eq (fold : DocumentFold) (item : Doc.BaseTextItem) :
    fold.pushText item = { fold with
      document := extend fold.document [textRef fold.document.texts.length] [some item] [] } := by
  simp [pushText, linkBodyChild, extend, nextTextRef, textRef]

lemma addTable_eq (fold : DocumentFold) (state : TableState) :
    fold.addTable state = { fold with
      document := extend fold.document [tableRef fold.document.tables.length] []
        [fold.tableAt fold.document.tables.length state] } := by
  simp [addTable, linkBodyChild, extend, nextTableRef, tableRef, tableAt, tableItem]

/-- Pieces go one behind the other to the ends of their arenas. -/
lemma foldl_addPiece (pieces : List Piece) (fold : DocumentFold) :
    pieces.foldl addPiece fold =
      { fold with
        document := extend fold.document
          (refsFrom fold.document.texts.length fold.document.tables.length pieces)
          (fold.textsFrom fold.document.texts.length pieces)
          (fold.tablesFrom fold.document.tables.length pieces) } := by
  induction pieces generalizing fold with
  | nil =>
    rw [List.foldl_nil, refsFrom, textsFrom, tablesFrom, extend_nil]
  | cons piece pieces ih =>
    have texts (new : List (Option Doc.BaseTextItem)) (tables : List Doc.TableItem)
        (ref : String) : (extend fold.document [ref] new tables).texts.length
          = fold.document.texts.length + new.length := List.length_append
    have tables (new : List (Option Doc.BaseTextItem)) (tables : List Doc.TableItem)
        (ref : String) : (extend fold.document [ref] new tables).tables.length
          = fold.document.tables.length + tables.length := List.length_append
    rw [List.foldl_cons, ih]
    cases piece with
    | description text =>
      simp only [addPiece, addDescription, pushText_eq, textsFrom_document, tablesFrom_document,
        texts, tables, extend_extend]
      rfl
    | heading name =>
      simp only [addPiece, addHeading, pushText_eq, textsFrom_document, tablesFrom_document,
        texts, tables, extend_extend]
      rfl
    | table state =>
      simp only [addPiece, addTable_eq, textsFrom_document, tablesFrom_document, texts, tables,
        extend_extend]
      rfl

/-- The document is its outline, written out. -/
theorem take_eq (fold : DocumentFold) :
    fold.take = extend fold.document
      (refsFrom fold.document.texts.length fold.document.tables.length fold.outline)
      (fold.textsFrom fold.document.texts.length fold.outline)
      (fold.tablesFrom fold.document.tables.length fold.outline) := by
  have states (headings : Bool) (states : List TableState) (fold : DocumentFold) :
      states.foldl (addState headings) fold
        = (states.flatMap (statePieces headings)).foldl addPiece fold := by
    induction states generalizing fold with
    | nil => rfl
    | cons state states ih => rw [List.foldl_cons, ih, addState_eq, List.flatMap_cons, List.foldl_append]
  have pieces : fold.take = (fold.outline.foldl addPiece
      { fold with description := "", tables := [] }).document := by
    unfold take outline
    dsimp only
    rw [states, List.foldl_append]
    split_ifs <;> rfl
  have source : { fold with description := "", tables := [] }.collectorSource
      = fold.collectorSource := rfl
  rw [pieces, foldl_addPiece]
  dsimp only
  rw [textsFrom_congr source, tablesFrom_congr source rfl]

/-- A fold that has written nothing yet. -/
structure Blank (fold : DocumentFold) : Prop where
  body : ∃ body, fold.document.body = some body ∧ body.selfRef = bodyRef ∧ body.children = []
  furniture : ∃ furniture, fold.document.furniture = some furniture ∧
    furniture.selfRef = furnitureRef ∧ furniture.children = []
  groups : fold.document.groups = []
  texts : fold.document.texts = []
  pictures : fold.document.pictures = []
  tables : fold.document.tables = []

lemma Blank.congr {fold fold' : DocumentFold} (blank : fold.Blank)
    (same : fold'.document = fold.document) : fold'.Blank := by
  obtain ⟨body, furniture, groups, texts, pictures, tables⟩ := blank
  exact ⟨same ▸ body, same ▸ furniture, same ▸ groups, same ▸ texts, same ▸ pictures, same ▸ tables⟩

lemma foldl_addSchema_document (schemas : List Pb.RecordSchema) (fold : DocumentFold) :
    (schemas.foldl addSchema fold).document = fold.document := by
  induction schemas generalizing fold with
  | nil => rfl
  | cons schema schemas ih => exact ih (fold.addSchema schema)

lemma row_document (fold : DocumentFold) (row : Pb.RecordRow) :
    (fold.row row).document = fold.document := by
  unfold DocumentFold.row
  split
  · rfl
  · split
    · rfl
    · split_ifs <;> rfl

/-- No event writes anything. -/
lemma Blank.consume {fold : DocumentFold} (blank : fold.Blank) (event : Pb.Event) :
    (fold.consume event).Blank := by
  cases event with
  | layoutInfo info =>
    change (fold.begin info).Blank
    rw [DocumentFold.begin]
    by_cases started : fold.started = true
    · rw [if_pos started]
      exact blank
    · rw [if_neg started]
      obtain ⟨⟨body, eq, ref, children⟩, furniture, groups, texts, pictures, tables⟩ := blank
      have document := foldl_addSchema_document info.records
      refine Blank.congr ?_ (document _)
      exact ⟨⟨_, congrArg (Option.map _) eq, ref, children⟩, furniture, groups, texts, pictures, tables⟩
  | record row => exact blank.congr (fold.row_document row)
  | document _ => exact blank
  | status _ => exact blank

lemma Blank.foldl {fold : DocumentFold} (blank : fold.Blank) (events : List Pb.Event) :
    (events.foldl DocumentFold.consume fold).Blank := by
  induction events generalizing fold with
  | nil => exact blank
  | cons event events ih => exact ih (blank.consume event)

lemma blank_new (version : String) (rowCap byteCap : Nat) :
    (((new version).withRowCap rowCap).withByteCap byteCap).Blank :=
  ⟨⟨_, rfl, rfl, rfl⟩, ⟨_, rfl, rfl, rfl⟩, rfl, rfl, rfl, rfl⟩

/-- A blank fold takes apart as its outline, from the first place on. -/
theorem Blank.take_eq {fold : DocumentFold} (blank : fold.Blank) :
    fold.take = extend fold.document (refsFrom 0 0 fold.outline) (fold.textsFrom 0 fold.outline)
      (fold.tablesFrom 0 fold.outline) := by
  rw [DocumentFold.take_eq, blank.texts, blank.tables]
  rfl

/-- The tables of the outline are those of the schemas that were seen, in their order. -/
lemma outline_states (fold : DocumentFold) :
    fold.outline.filterMap Piece.state = fold.tables.filter fun state => ¬ Unseen state := by
  have seen (headings : Bool) (states : List TableState) :
      (states.flatMap (statePieces headings)).filterMap Piece.state
        = states.filter fun state => ¬ Unseen state := by
    induction states with
    | nil => rfl
    | cons state states ih =>
      rw [List.flatMap_cons, List.filterMap_append, ih, List.filter_cons, statePieces]
      by_cases unseen : Unseen state
      · simp [unseen]
      · rw [if_neg unseen, if_pos (decide_eq_true unseen)]
        cases headings <;> rfl
  rw [outline, List.filterMap_append, seen]
  split_ifs <;> rfl

/-- The tables of some pieces are written in their order. -/
lemma tablesFrom_states (fold : DocumentFold) (tables : Nat) (pieces : List Piece) :
    List.Forall₂ (fun state table => ∃ index, table = fold.tableAt index state)
      (pieces.filterMap Piece.state) (fold.tablesFrom tables pieces) := by
  induction pieces generalizing tables with
  | nil => exact .nil
  | cons piece pieces ih =>
    cases piece with
    | description _ => exact ih tables
    | heading _ => exact ih tables
    | table state => exact .cons ⟨tables, rfl⟩ (ih (tables + 1))

end DocumentFold

end GrpcEbcdic

import GrpcEbcdic.Fold.Account

/-!
# The fold of a layout and its rows

The tables of a fold that has been given a layout with distinct schema names and some of its rows: each
accounts for its schema, the byte budget holds, and the warnings name the tables that are short.
-/

namespace GrpcEbcdic
open Rust

/-- Distinct names tell the positions of the schemas apart. -/
lemma index_unique {schemas : List Pb.RecordSchema} (nodup : (schemas.map (·.name)).Nodup) {i j : Nat}
    {schema schema' : Pb.RecordSchema} (at_i : schemas[i]? = some schema)
    (at_j : schemas[j]? = some schema') (same : schema.name = schema'.name) : i = j := by
  obtain ⟨lt, _⟩ := List.getElem?_eq_some_iff.mp at_i
  refine (List.getElem?_inj (by simpa using lt) nodup).mp ?_
  rw [List.getElem?_map, List.getElem?_map, at_i, at_j, Option.map_some, Option.map_some, same]

/-- The index finds the position of a schema by its name. -/
lemma lookup_index {schemas : List Pb.RecordSchema} (nodup : (schemas.map (·.name)).Nodup)
    {name : String} {i : Nat} :
    (schemas.zipIdx.map fun (schema, index) => (schema.name, index)).lookup name = some i ↔
      ∃ schema, schemas[i]? = some schema ∧ schema.name = name :=
  AssocList.lookup_zipIdx nodup

variable [F64]

/-- The events of a parse up to some row. -/
def openingEvents (info : Pb.LayoutInfo) (rows : List Pb.RecordRow) : List Pb.Event :=
  .layoutInfo info :: rows.map .record

/-- The fold of some events under two caps. -/
def foldEvents (version : String) (rowCap byteCap : Nat) (events : List Pb.Event) : DocumentFold :=
  events.foldl DocumentFold.consume
    (((DocumentFold.new version).withRowCap rowCap).withByteCap byteCap)

/-- The rows of a parse are folded behind its layout. -/
lemma foldEvents_opening (version : String) (rowCap byteCap : Nat) (info : Pb.LayoutInfo)
    (rows : List Pb.RecordRow) :
    foldEvents version rowCap byteCap (openingEvents info rows)
      = (foldEvents version rowCap byteCap [.layoutInfo info]).foldRows rows := by
  rw [foldEvents, openingEvents, List.foldl_cons, List.foldl_map]
  rfl

/-- A fold that accounts for the rows of every schema of a layout. -/
structure Accounts (info : Pb.LayoutInfo) (rowCap byteCap : Nat) (rows : List Pb.RecordRow)
    (fold : DocumentFold) : Prop where
  rowCap_eq : fold.rowCap = rowCap
  byteCap_eq : fold.byteCap = byteCap
  index : fold.indexBySchema = info.records.zipIdx.map fun (schema, index) => (schema.name, index)
  tables : List.Forall₂ (Account rowCap rows) info.records fold.tables
  /-- A table a row of which was dropped takes no more rows. -/
  closed : ∀ state ∈ fold.tables, 0 < state.dropped → fold.Closed state
  within : fold.bytes ≤ byteCap

/-- The tables of some schemas, added one after the other. -/
lemma foldl_addSchema (schemas : List Pb.RecordSchema) (fold : DocumentFold)
    (nodup : (AssocList.keys fold.indexBySchema ++ schemas.map (·.name)).Nodup) :
    schemas.foldl DocumentFold.addSchema fold =
      { fold with
        tables := fold.tables ++ schemas.map TableState.new
        indexBySchema := fold.indexBySchema ++
          (schemas.zipIdx fold.tables.length).map fun (schema, index) => (schema.name, index) } := by
  induction schemas generalizing fold with
  | nil => simp
  | cons schema schemas ih =>
    have fresh : schema.name ∉ AssocList.keys fold.indexBySchema := fun mem =>
      (List.nodup_append.mp nodup).2.2 _ mem _ List.mem_cons_self rfl
    have added := AssocList.insert_of_notMem (v := fold.tables.length) fresh
    rw [List.foldl_cons, ih]
    · simp [DocumentFold.addSchema, added, List.zipIdx_cons]
    · simpa [DocumentFold.addSchema, added, AssocList.keys] using nodup

namespace Accounts

variable {info : Pb.LayoutInfo} {rowCap byteCap : Nat} {rows : List Pb.RecordRow}
  {fold : DocumentFold}

/-- Before its first row the fold of a layout accounts for no row of any schema. -/
lemma start (nodup : (info.records.map (·.name)).Nodup) (version : String) (rowCap byteCap : Nat) :
    Accounts info rowCap byteCap [] (foldEvents version rowCap byteCap [.layoutInfo info]) := by
  have begun : foldEvents version rowCap byteCap [.layoutInfo info]
      = (((DocumentFold.new version).withRowCap rowCap).withByteCap byteCap).begin info := rfl
  rw [begun, DocumentFold.begin, if_neg (by exact Bool.false_ne_true)]
  dsimp only
  rw [foldl_addSchema]
  swap
  · exact nodup
  refine ⟨rfl, rfl, rfl, ?_, ?_, Nat.zero_le _⟩
  · refine Pairing.forall₂_iff_getElem?.mpr ⟨(List.length_map _).symm, fun i schema state at_i at_i' => ?_⟩
    change (info.records.map TableState.new)[i]? = some state at at_i'
    rw [List.getElem?_map, at_i] at at_i'
    cases at_i'
    exact Account.start rowCap schema
  · intro state mem pos
    obtain ⟨schema, _, rfl⟩ := List.mem_map.mp mem
    exact absurd pos (Nat.lt_irrefl 0)

/-- A row of the schema at a position changes the table there. -/
lemma set (nodup : (info.records.map (·.name)).Nodup) (acc : Accounts info rowCap byteCap rows fold)
    {row : Pb.RecordRow} {i : Nat} {schema : Pb.RecordSchema} {state : TableState}
    (at_i : info.records[i]? = some schema) (same : schema.name = row.recordType)
    (new : Account rowCap (rows ++ [row]) schema state) :
    List.Forall₂ (Account rowCap (rows ++ [row])) info.records (fold.tables.set i state) := by
  refine Pairing.forall₂_set acc.tables at_i new fun j schema' state' ne at_j acc' => ?_
  refine acc'.other fun eq => ne ?_
  exact index_unique nodup at_j at_i (eq.symm.trans same.symm)

/-- One more row, and the fold accounts for it too. -/
lemma row (nodup : (info.records.map (·.name)).Nodup) (acc : Accounts info rowCap byteCap rows fold)
    (row : Pb.RecordRow) : Accounts info rowCap byteCap (rows ++ [row]) (fold.row row) := by
  have step := fold.rowStep row
  generalize fold.row row = fold' at step
  cases step with
  | unknown none =>
    -- No schema has this name: the index would know its table.
    have not_named : ∀ schema ∈ info.records, row.recordType ≠ schema.name := by
      intro schema mem eq
      obtain ⟨i, at_i⟩ := List.mem_iff_getElem?.mp mem
      obtain ⟨state, there, _⟩ := Pairing.exists_of_forall₂ acc.tables at_i
      rw [acc.index] at none
      rw [none i ((lookup_index nodup).mpr ⟨schema, at_i, eq.symm⟩)] at there
      cases there
    refine { acc with tables := ?_ }
    refine Pairing.forall₂_iff_getElem?.mpr
      ⟨acc.tables.length_eq, fun i schema state at_i at_i' => ?_⟩
    exact ((Pairing.forall₂_iff_getElem?.mp acc.tables).2 i schema state at_i at_i').other
      (not_named schema (List.mem_of_getElem? at_i))
  | @closed i state look at_i closed =>
    obtain ⟨schema, at_s, same⟩ := (lookup_index nodup).mp (acc.index ▸ look)
    have old := (Pairing.forall₂_iff_getElem?.mp acc.tables).2 i schema state at_s at_i
    refine { acc with tables := acc.set nodup at_s same (old.drop same.symm), closed := ?_ }
    intro state' mem pos
    rcases List.mem_or_eq_of_mem_set mem with mem | rfl
    · exact acc.closed state' mem pos
    · exact closed
  | @exceeds i state look at_i _ _ =>
    obtain ⟨schema, at_s, same⟩ := (lookup_index nodup).mp (acc.index ▸ look)
    have old := (Pairing.forall₂_iff_getElem?.mp acc.tables).2 i schema state at_s at_i
    exact { acc with
      tables := acc.set nodup at_s same (old.drop same.symm)
      closed := fun _ _ _ => .inr rfl }
  | @keep i state look at_i not_closed fits =>
    obtain ⟨schema, at_s, same⟩ := (lookup_index nodup).mp (acc.index ▸ look)
    have old := (Pairing.forall₂_iff_getElem?.mp acc.tables).2 i schema state at_s at_i
    have below : state.rows < rowCap := by
      rw [← acc.rowCap_eq]
      exact Nat.not_le.mp fun le => not_closed (.inl le)
    -- A table that dropped a row is closed, so this one has kept all of its rows so far.
    have none : state.dropped = 0 := by
      by_contra ne
      exact not_closed (acc.closed state (List.mem_of_getElem? at_i) (Nat.pos_of_ne_zero ne))
    refine { acc with
      tables := acc.set nodup at_s same (old.keep same.symm none below)
      closed := ?_
      within := ?_ }
    · intro state' mem pos
      rcases List.mem_or_eq_of_mem_set mem with mem | rfl
      · exact acc.closed state' mem pos
      · exact absurd pos (by rw [TableState.keepRow, none]; exact Nat.lt_irrefl 0)
    · rw [acc.byteCap_eq] at fits
      dsimp only
      -- The sum is within the cap, so it neither saturated in the check nor wraps in the update.
      unfold satAdd u64Max at fits
      unfold wrapAdd
      omega

/-- The fold of any rows accounts for them. -/
lemma foldRows (nodup : (info.records.map (·.name)).Nodup)
    (acc : Accounts info rowCap byteCap rows fold) (rows' : List Pb.RecordRow) :
    Accounts info rowCap byteCap (rows ++ rows') (fold.foldRows rows') := by
  induction rows' generalizing rows fold with
  | nil =>
    rw [List.append_nil]
    exact acc
  | cons row rows' ih =>
    rw [List.append_cons]
    exact ih (acc.row nodup row)

end Accounts

section Truthful

variable [Unicode]

/-- A warning that names a schema, and the place of the record behind the kept ones. -/
structure ShortWarning (rows : List Pb.RecordRow) (schema : Pb.RecordSchema) (kept : Nat)
    (warning : Pb.ParseWarning) : Prop where
  code : warning.code = Pb.WarningCode.documentRowsTruncated.toI32
  names : ∃ rest, warning.message = "record schema " ++ debug schema.name ++ rest
  offset : ∃ first, (rowsNamed rows schema.name)[kept]? = some first ∧
    warning.byteOffset = first.byteOffset

/-- The text of a warning begins with the name of the schema. -/
lemma DocumentFold.truncationWarning_names (fold : DocumentFold) (state : TableState) :
    ∃ rest, (fold.truncationWarning state).message
      = "record schema " ++ debug state.name ++ rest := by
  refine ⟨?_, ?_⟩
  swap
  · simp only [DocumentFold.truncationWarning, String.append_assoc]
    rfl

/-- The warning about a table that is short. -/
lemma Account.warning {rowCap : Nat} {rows : List Pb.RecordRow} {schema : Pb.RecordSchema}
    {state : TableState} (acc : Account rowCap rows schema state) (short : 0 < state.dropped)
    (fold : DocumentFold) : ShortWarning rows schema state.rows (fold.truncationWarning state) := by
  obtain ⟨first, at_first, offset⟩ := acc.first short
  exact ⟨rfl, acc.declared.name ▸ fold.truncationWarning_names state, first, at_first, offset⟩

/-- The warnings are about the tables that are short, in the order of the layout. -/
lemma Accounts.warnings {info : Pb.LayoutInfo} {rowCap byteCap : Nat} {rows : List Pb.RecordRow}
    {fold : DocumentFold} (acc : Accounts info rowCap byteCap rows fold) :
    List.Forall₂ (fun pair => ShortWarning rows pair.1 pair.2.rows)
      ((info.records.zip fold.tables).filter fun pair => 0 < pair.2.dropped)
      fold.truncationWarnings := by
  have len := acc.tables.length_eq
  have tables : fold.tables = (info.records.zip fold.tables).map Prod.snd :=
    (List.map_snd_zip len.ge).symm
  have short : fold.tables.filter (0 < ·.dropped)
      = ((info.records.zip fold.tables).filter fun pair => 0 < pair.2.dropped).map Prod.snd := by
    conv_lhs => rw [tables, List.filter_map]
    rfl
  rw [DocumentFold.truncationWarnings, short, List.map_map, List.forall₂_map_right_iff,
    List.forall₂_same]
  rintro ⟨schema, state⟩ mem
  obtain ⟨mem, pos⟩ := List.mem_filter.mp mem
  exact (List.forall₂_zip acc.tables mem).warning (of_decide_eq_true pos) fold

/-- What the fold of a layout and some rows is to say about them. -/
structure Truthful (info : Pb.LayoutInfo) (rows : List Pb.RecordRow) (rowCap byteCap : Nat)
    (folded : List Pb.RecordRow → DocumentFold) : Prop where
  /-- Each table shows the first rows of its schema, and counts the others. -/
  tables : List.Forall₂ (Tallied rowCap rows) info.records (folded rows).tables
  bytes : (folded rows).bytes ≤ byteCap
  /-- Behind a dropped row no row of its schema is kept. -/
  dropped : ∀ before after, rows = before ++ after →
    ∀ (i : Nat) state state', (folded before).tables[i]? = some state →
      (folded rows).tables[i]? = some state' → 0 < state.dropped → state'.rows = state.rows
  /-- Behind a row dropped below the row cap no row of any schema is kept. -/
  spent : ∀ before row after, rows = before ++ row :: after →
    ∀ (i : Nat) state state', (folded before).tables[i]? = some state →
      (folded (before ++ [row])).tables[i]? = some state' → state.dropped < state'.dropped →
      state.rows < rowCap →
      (folded rows).tables.map (·.rows) = (folded (before ++ [row])).tables.map (·.rows)
  warnings : List.Forall₂ (fun pair => ShortWarning rows pair.1 pair.2.rows)
    ((info.records.zip (folded rows).tables).filter fun pair => 0 < pair.2.dropped)
    (folded rows).truncationWarnings

/-- The fold of a layout with distinct names says the truth about any rows. -/
lemma foldEvents_truthful {info : Pb.LayoutInfo} (nodup : (info.records.map (·.name)).Nodup)
    (version : String) (rowCap byteCap : Nat) (rows : List Pb.RecordRow) :
    Truthful info rows rowCap byteCap fun rows =>
      foldEvents version rowCap byteCap (openingEvents info rows) := by
  have start := Accounts.start nodup version rowCap byteCap
  simp only [foldEvents_opening]
  have acc (rows : List Pb.RecordRow) := start.foldRows nodup rows
  simp only [List.nil_append] at acc
  generalize foldEvents version rowCap byteCap [.layoutInfo info] = fold at acc
  refine ⟨(acc rows).tables.imp fun _ _ account => account.tallied, (acc rows).within, ?_, ?_,
    (acc rows).warnings⟩
  · rintro before after rfl i state state' at_i at_i' pos
    have closed := (acc before).closed state (List.mem_of_getElem? at_i) pos
    obtain ⟨state₁, at_i₁, eq⟩ := DocumentFold.closed_foldRows at_i closed after
    rw [← DocumentFold.foldRows_append, at_i'] at at_i₁
    cases at_i₁
    exact eq
  · rintro before row after rfl i state state' at_i at_i' dropped below
    rw [← (acc before).rowCap_eq] at below
    rw [DocumentFold.foldRows_append] at at_i' ⊢
    rw [List.append_cons, DocumentFold.foldRows_append, DocumentFold.foldRows_append]
    exact DocumentFold.spent_foldRows (DocumentFold.dropped_spent at_i at_i' dropped below) after

end Truthful

end GrpcEbcdic

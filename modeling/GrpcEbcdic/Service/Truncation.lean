import GrpcEbcdic.Fold.Grid
import GrpcEbcdic.Service.DocumentRun
import GrpcEbcdic.Stream.Status

/-!
# What the document loses, and who says so

In a successful parse the trailer, the truncation warnings and the document's tables come out of the
same rows: one table for each schema with a row, in the order of the layout, and the rows a table holds
and those it has dropped are together the rows the trailer counts.
-/

namespace GrpcEbcdic
open Rust Emit

section Tables

variable [F64]

variable [Unicode]

omit [F64] [Unicode] in
/-- The counters of the trailer are the rows of each name. -/
lemma EndsAt.rowsOf_eq {layout : Layout} (v : layout.Valid) {received : Nat}
    {rows : List Pb.RecordRow} {σ : WalkState} (at_end : EndsAt layout received rows σ)
    (name : String) : (σ.rowsPerType.lookup name).getD 0 = rowsOf rows name := by
  by_cases declared : name ∈ layout.records.map (·.name)
  · obtain ⟨record, mem, rfl⟩ := List.mem_map.mp declared
    exact at_end.counts.rowIndex v mem
  · have absent : σ.rowsPerType.lookup name = none := by
      rw [at_end.counts.rows, List.lookup_eq_none_iff]
      intro entry counted
      obtain ⟨record, mem, rfl⟩ := List.mem_map.mp counted
      simpa using fun eq : name = record.name => declared (eq ▸ List.mem_map_of_mem mem)
    rw [absent, Option.getD_none, rowsOf, eq_comm, List.countP_eq_zero]
    intro row mem eq
    exact declared (of_decide_eq_true eq ▸ at_end.types row mem)

variable [SerdeJson]

/-- The fold loses nothing without saying so, whatever rows it is given and under whatever caps; and in
a parse that succeeds the document has, in the order of the layout, one table for each schema the
trailer counts a row of, whose rows and dropped rows are together those the trailer counts. -/
theorem fold_accounts_for_rows :
    (∀ (info : Pb.LayoutInfo) (version : String) (rowCap byteCap : Nat) (rows : List Pb.RecordRow),
      (info.records.map (·.name)).Nodup →
      Truthful info rows rowCap byteCap fun rows =>
        foldEvents version rowCap byteCap (openingEvents info rows)) ∧
    ∀ (request : Pb.ParseOptions) (layout : Layout) (encoding : String) (options : DecodeOptions)
      (limits : Limits) (inbound : List Inbound) (client : Nat → SendOutcome) (idleTimeout : Nat)
      (version : String) (rowCap byteCap : Nat) (sink : EventSink),
      resolve request = .ok layout →
      runParse (RecordStream.new layout options) (layout.toLayoutInfo encoding) limits inbound
        ⟨⟨client, 0, []⟩, some (((DocumentFold.new version).withRowCap rowCap).withByteCap byteCap),
          idleTimeout⟩ = (.ok (), sink) →
      ∃ (rows : List Pb.RecordRow) (document : Doc.Document) (status : Pb.ParseStatus),
        sink.tx.items = (openingEvents (layout.toLayoutInfo encoding) rows ++
          [Pb.Event.document document, Pb.Event.status status]).map .ok ∧
        List.Forall₂
          (fun record table =>
            TableOf record.toSchema rows ((status.rowsPerRecordType.lookup record.name).getD 0) table)
          (layout.records.filter fun record =>
            (status.rowsPerRecordType.lookup record.name).getD 0 ≠ 0)
          document.tables := by
  refine ⟨fun info version rowCap byteCap rows nodup =>
    foldEvents_truthful nodup version rowCap byteCap rows, ?_⟩
  intro request layout encoding options limits inbound client idleTimeout version rowCap byteCap sink
    resolved ran
  have v := resolve_valid resolved
  obtain ⟨rows, status, said, items⟩ := runParse_ok ran
  obtain ⟨σ, at_end, ended⟩ := walk_finished v (recital_walk said)
  obtain ⟨warnings, rfl⟩ := RecordStream.status_ok ended.symm
  have counts := at_end.rowsOf_eq v
  have names := v.schemas encoding
  have acc := (Accounts.start names version rowCap byteCap).foldRows names rows
  have folded : (foldEvents version rowCap byteCap
      [.layoutInfo (layout.toLayoutInfo encoding)]).foldRows rows
        = (openingEvents (layout.toLayoutInfo encoding) rows).foldl DocumentFold.consume
          (((DocumentFold.new version).withRowCap rowCap).withByteCap byteCap) := by
    rw [openingEvents, List.foldl_cons, List.foldl_map]
    rfl
  have blank := (DocumentFold.blank_new version rowCap byteCap).foldl
    (openingEvents (layout.toLayoutInfo encoding) rows)
  rw [folded, List.nil_append] at acc
  have tables := take_tables acc blank (v.columns encoding)
  rw [Layout.toLayoutInfo, List.filter_map, List.forall₂_map_left_iff] at tables
  refine ⟨rows, _, _, items, ?_⟩
  change List.Forall₂ (fun record table =>
    TableOf record.toSchema rows ((σ.rowsPerType.lookup record.name).getD 0) table)
      (layout.records.filter fun record => (σ.rowsPerType.lookup record.name).getD 0 ≠ 0) _
  simp only [counts]
  exact tables

end Tables

section Sample

attribute [local instance] asciiUnicode noJson coreF64

/-- The sample parse with a document, under caps of one row and a kibibyte. -/
def sampleParse : Except ParseError Unit × EventSink :=
  runParse (RecordStream.new sampleLayout sampleOptions) (sampleLayout.toLayoutInfo "cp037")
    ⟨100, 30000⟩ sampleInbound
    ⟨⟨keepsReading, 0, []⟩, some (((DocumentFold.new "0.1.0").withRowCap 1).withByteCap 1024), 30000⟩

theorem fold_accounts_for_rows_sample :
    (Truthful (sampleLayout.toLayoutInfo "cp037") [sampleRow, sampleRow] 1 1024 fun rows =>
      foldEvents "0.1.0" 1 1024 (openingEvents (sampleLayout.toLayoutInfo "cp037") rows)) ∧
    ∃ (rows : List Pb.RecordRow) (document : Doc.Document) (status : Pb.ParseStatus),
      sampleParse.2.tx.items = (openingEvents (sampleLayout.toLayoutInfo "cp037") rows ++
        [Pb.Event.document document, Pb.Event.status status]).map .ok ∧
      List.Forall₂
        (fun record table =>
          TableOf record.toSchema rows ((status.rowsPerRecordType.lookup record.name).getD 0) table)
        (sampleLayout.records.filter fun record =>
          (status.rowsPerRecordType.lookup record.name).getD 0 ≠ 0)
        document.tables :=
  ⟨fold_accounts_for_rows.1 _ "0.1.0" 1 1024 [sampleRow, sampleRow] (by decide),
    fold_accounts_for_rows.2 sampleRequest sampleLayout "cp037" sampleOptions ⟨100, 30000⟩
      sampleInbound keepsReading 30000 "0.1.0" 1 1024 sampleParse.2 resolve_sample rfl⟩

end Sample

end GrpcEbcdic

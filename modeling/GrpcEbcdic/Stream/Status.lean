import GrpcEbcdic.Stream.Tiling

/-!
# The trailer

What `status` says at the end of a walk, against the rows the walk emitted: the bytes behind the last
row, the anomaly it reports, the rows of each schema, and the bytes it calls consumed.
-/

namespace GrpcEbcdic
open Rust Incremental

/-- Whether a trailer carries a warning of a code. -/
def Pb.ParseStatus.HasWarning (status : Pb.ParseStatus) (code : Pb.WarningCode) : Prop :=
  ∃ warning ∈ status.warnings, warning.code = code.toI32

/-- The bytes of some rows. -/
def rowBytes (rows : List Pb.RecordRow) : Nat := (rows.map (·.byteLength)).sum

/-- A trailer is the stream's counters under some warnings. -/
lemma RecordStream.status_ok {s : RecordStream} {status : Pb.ParseStatus}
    (ok : s.status = .ok status) : ∃ warnings, status = s.trailer warnings := by
  unfold RecordStream.status at ok
  split_ifs at ok
  all_goals
    cases ok
    exact ⟨_, rfl⟩

/-- The trailer of a stream short of its boundaries. -/
lemma RecordStream.status_short {s : RecordStream}
    (short : s.received < s.layout.headerSize + s.layout.footerSize) :
    s.status = .ok (s.trailer [s.shortWarning]) := if_pos short

/-- A walk that `max_records` did not cut reports the bytes it leaves over, as an error or as a warning,
exactly when there are some. -/
lemma RecordStream.status_uncut {s : RecordStream}
    (long : s.layout.headerSize + s.layout.footerSize ≤ s.received) (uncut : s.truncated = false) :
    if 0 < s.leftover ∧ s.options.abortOnError = true then
      ∃ message, s.status = .error (.invalid message)
    else ∃ status, s.status = .ok status ∧ status.trailingBytes = s.leftover ∧
      (status.HasWarning .trailingPartialRecord ↔ 0 < s.leftover) := by
  rw [RecordStream.status, if_neg (Nat.not_lt.mpr long), uncut, if_neg Bool.false_ne_true]
  by_cases left : 0 < s.leftover
  · by_cases abort : s.options.abortOnError = true
    · rw [if_pos ⟨left, abort⟩, if_pos left, if_pos abort]
      exact ⟨_, rfl⟩
    · rw [if_neg fun h => abort h.2, if_pos left, if_neg abort]
      exact ⟨_, rfl, rfl, fun _ => left, fun _ => ⟨_, List.mem_singleton_self _, rfl⟩⟩
  · rw [if_neg fun h => left h.1, if_neg left]
    refine ⟨_, rfl, rfl, ?_⟩
    simp [Pb.ParseStatus.HasWarning, RecordStream.trailer, left]

/-- A trailer warns of a limit exactly when the walk was cut at one. -/
lemma RecordStream.status_cut {s : RecordStream} {status : Pb.ParseStatus} (ok : s.status = .ok status) :
    status.HasWarning .maxRecordsReached ↔
      s.layout.headerSize + s.layout.footerSize ≤ s.received ∧ s.truncated = true := by
  have short_code : Pb.WarningCode.inputShorterThanBoundaries.toI32
      ≠ Pb.WarningCode.maxRecordsReached.toI32 := by decide
  have partial_code : Pb.WarningCode.trailingPartialRecord.toI32
      ≠ Pb.WarningCode.maxRecordsReached.toI32 := by decide
  unfold RecordStream.status at ok
  split_ifs at ok with short cut left abort
  all_goals
    cases ok
    simp only [Pb.ParseStatus.HasWarning, RecordStream.trailer, List.mem_singleton, List.not_mem_nil,
      exists_eq_left, false_and, exists_false]
  · exact iff_of_false short_code fun cut => absurd short (Nat.not_lt.mpr cut.1)
  · exact iff_of_true rfl ⟨Nat.not_lt.mp short, cut⟩
  · exact iff_of_false partial_code fun h => cut h.2
  · exact iff_of_false id fun h => cut h.2

/-- How a walk without a decode error ends: its rows tile what lies between the header and the position
the reader halts at, and the trailer is that of a stream standing there. -/
structure EndsAt (layout : Layout) (received : Nat) (rows : List Pb.RecordRow) (σ : WalkState) :
    Prop where
  tiles : Tiles layout.headerSize rows σ.pos
  counts : Counts layout σ rows
  types : ∀ row ∈ rows, row.recordType ∈ layout.records.map (·.name)
  /-- The footer lies behind the last row. -/
  room : rows ≠ [] → σ.pos + layout.footerSize ≤ received

namespace EndsAt

variable {layout : Layout} {received : Nat} {rows : List Pb.RecordRow} {σ : WalkState}

lemma pos_eq (at_end : EndsAt layout received rows σ) :
    σ.pos = layout.headerSize + rowBytes rows := at_end.tiles.sum_eq.symm

/-- An input shorter than its own boundaries holds no record. -/
lemma rows_nil (at_end : EndsAt layout received rows σ)
    (short : received < layout.headerSize + layout.footerSize) : rows = [] := by
  by_contra ne
  have room := at_end.room ne
  rw [at_end.pos_eq] at room
  omega

/-- In an input that holds its boundaries, the walk ends before the footer. -/
lemma pos_le (at_end : EndsAt layout received rows σ)
    (long : layout.headerSize + layout.footerSize ≤ received) :
    σ.pos + layout.footerSize ≤ received := by
  by_cases ne : rows = []
  · rw [at_end.pos_eq, ne]
    exact long
  · exact at_end.room ne

/-- The reader is full when the rows are as many as were asked for. -/
lemma full_iff (at_end : EndsAt layout received rows σ) (options : DecodeOptions) :
    σ.Full options ↔ options.maxRecords ≠ 0 ∧ options.maxRecords ≤ rows.length := by
  rw [WalkState.Full, at_end.counts.kept]

/-- The counts by schema are one entry for each schema of the layout, and sum to the rows. -/
lemma rowsPerType (v : layout.Valid) (at_end : EndsAt layout received rows σ) :
    σ.rowsPerType.map Prod.fst = layout.records.map (·.name) ∧
      (σ.rowsPerType.map Prod.snd).sum = rows.length := by
  rw [at_end.counts.rows]
  refine ⟨by simp, ?_⟩
  rw [List.map_map, ← sum_rowsOf v.names at_end.types, List.map_map]
  rfl

end EndsAt

/-- What a walk leaves between the last row and the footer. -/
lemma atEnd_leftover (layout : Layout) (received : Nat) {σ : WalkState} {options : DecodeOptions}
    (not_full : ¬ σ.Full options) :
    (atEnd layout options received σ).leftover = received - layout.footerSize - σ.pos := by
  simp only [RecordStream.leftover, RecordStream.decodableEnd, atEnd, not_full, if_false]
  omega

section Trailing

variable [Unicode] {layout : Layout} {options : DecodeOptions} {chunks : List (List UInt8)}
  {rows : List Pb.RecordRow} {res : Except ParseError Pb.ParseStatus}

/-- A walk without a decode error ends at some state of the reader. -/
lemma walk_finished (v : layout.Valid)
    (run : walk layout options chunks = (rows, .finished res)) :
    ∃ σ, EndsAt layout chunks.flatten.length rows σ ∧
      res = (atEnd layout options chunks.flatten.length σ).status := by
  rw [walk_eq v] at run
  obtain ⟨σ, rest, halt, tiles, counts, inside, after⟩ := batch_rows v options chunks.flatten
  unfold wholeWalk at run
  generalize batch v options chunks.flatten = b at *
  obtain ⟨rs, h⟩ := b
  dsimp only at *
  have at_end : EndsAt layout chunks.flatten.length (rs.map Prod.fst) σ := by
    refine ⟨tiles, counts, fun row mem => ?_, fun ne => ?_⟩
    · obtain ⟨i, at_i⟩ := List.mem_iff_getElem?.mp mem
      obtain ⟨_, _, record, mem, rowOf⟩ := after i row at_i
      rw [rowOf.name]
      exact List.mem_map_of_mem mem
    · have last := List.getLast?_eq_some_getLast ne
      rw [← tiles.last _ last]
      exact inside _ (List.getLast_mem ne)
  rcases (recordReader v options).run_halt halt with ⟨_, rfl⟩ | ⟨_, rfl⟩ | ⟨_, _, rfl⟩
  · cases run
    exact ⟨σ, at_end, rfl⟩
  · cases run
    exact ⟨σ, at_end, rfl⟩
  · cases run

/-- Trailing bytes and their classification, for a walk that ends without a decode error and does not
reach `max_records`. -/
theorem walk_trailing [SerdeJson] {request : Pb.ParseOptions}
    (ok : resolve request = .ok layout)
    (run : walk layout options chunks = (rows, .finished res))
    (uncut : options.maxRecords = 0 ∨ rows.length < options.maxRecords) :
    (layout.headerSize + layout.footerSize ≤ chunks.flatten.length →
      ∃ trailing,
        chunks.flatten.length
          = layout.headerSize + rowBytes rows + trailing + layout.footerSize ∧
        if 0 < trailing ∧ options.abortOnError = true then ∃ message, res = .error (.invalid message)
        else ∃ status, res = .ok status ∧ status.trailingBytes = trailing ∧
          (status.HasWarning .trailingPartialRecord ↔ 0 < trailing)) ∧
    (chunks.flatten.length < layout.headerSize + layout.footerSize →
      rows = [] ∧ ∃ status, res = .ok status ∧ status.trailingBytes = 0 ∧
        status.warnings.map (·.code) = [Pb.WarningCode.inputShorterThanBoundaries.toI32]) ∧
    ∀ status, res = .ok status →
      status.rowsPerRecordType.map Prod.fst = layout.records.map (·.name) ∧
      (status.rowsPerRecordType.map Prod.snd).sum = status.recordsKept ∧
      status.recordsKept = rows.length := by
  have v := resolve_valid ok
  obtain ⟨σ, at_end, rfl⟩ := walk_finished v run
  have not_full : ¬ σ.Full options := by
    rw [at_end.full_iff options]
    omega
  have pos := at_end.pos_eq
  refine ⟨fun long => ?_, fun short => ⟨at_end.rows_nil short, ?_⟩, ?_⟩
  · have le := at_end.pos_le long
    have left := atEnd_leftover layout chunks.flatten.length not_full
    exact ⟨(atEnd layout options chunks.flatten.length σ).leftover, by omega,
      RecordStream.status_uncut long (decide_eq_false not_full)⟩
  · have left := atEnd_leftover layout chunks.flatten.length not_full
    refine ⟨_, RecordStream.status_short short, ?_, rfl⟩
    change (atEnd layout options chunks.flatten.length σ).leftover = 0
    omega
  · intro status hs
    obtain ⟨warnings, rfl⟩ := RecordStream.status_ok hs
    obtain ⟨names, sum⟩ := at_end.rowsPerType v
    refine ⟨names, ?_, at_end.counts.kept⟩
    rw [← at_end.counts.kept] at sum
    exact sum

end Trailing

section Sample

attribute [local instance] asciiUnicode noJson

/-- The sample input with one byte more in front of its footer: the length of a record that does not come. -/
def sampleTrailing : List (List UInt8) := [[0, 0, 5, 0xc1], [0xc2, 0x12, 0x3c, 9, 0xff]]

theorem walk_trailing_sample :
    (∃ status, walk sampleLayout sampleOptions sampleTrailing = ([sampleRow], .finished (.ok status)) ∧
      status.trailingBytes = 1 ∧ status.HasWarning .trailingPartialRecord ∧ status.recordsKept = 1) ∧
    ∃ message, walk sampleLayout { sampleOptions with abortOnError := true } sampleTrailing
      = ([sampleRow], .finished (.error (.invalid message))) := by
  obtain ⟨res, run⟩ : ∃ res, walk sampleLayout sampleOptions sampleTrailing = ([sampleRow], .finished res) :=
    ⟨_, rfl⟩
  obtain ⟨res', run'⟩ : ∃ res, walk sampleLayout { sampleOptions with abortOnError := true } sampleTrailing
      = ([sampleRow], .finished res) := ⟨_, rfl⟩
  obtain ⟨long, _, counts⟩ := walk_trailing resolve_sample run (.inl rfl)
  obtain ⟨trailing, all, ends⟩ := long (by decide)
  obtain ⟨trailing', all', ends'⟩ := (walk_trailing resolve_sample run' (.inl rfl)).1 (by decide)
  have one : trailing = 1 := by
    have sum : 9 = 2 + 5 + trailing + 1 := all
    omega
  have one' : trailing' = 1 := by
    have sum : 9 = 2 + 5 + trailing' + 1 := all'
    omega
  subst one one'
  obtain ⟨status, rfl, bytes, warns⟩ := ends
  obtain ⟨message, rfl⟩ := ends'
  exact ⟨⟨status, run, bytes, warns.mpr Nat.one_pos, (counts status rfl).2.2⟩, message, run'⟩

end Sample

end GrpcEbcdic

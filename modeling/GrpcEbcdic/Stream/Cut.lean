import GrpcEbcdic.Stream.Backlog
import GrpcEbcdic.Stream.Limit

/-!
# A walk that `max_records` cuts

Such a walk emits the first rows of the unlimited one, ends without an error whatever comes behind
them, and holds nothing from the last row on. Its trailer warns of the limit. The warning is placed at
`buffer_base`, which the cut moved to the end of what was received, and every later push moves along.
-/

namespace GrpcEbcdic
open Rust Incremental

section Held

variable [Unicode] {layout : Layout} {options : DecodeOptions} {s : RecordStream}

namespace RecordStream

/-- A cut walk holds nothing. -/
def CutEmpty (s : RecordStream) : Prop := s.truncated = true → s.buffer = []

omit [Unicode] in
lemma CutEmpty.push (s : RecordStream) (chunk : List UInt8) : (s.push chunk).CutEmpty := by
  intro cut
  unfold RecordStream.push at cut ⊢
  dsimp only at cut ⊢
  split_ifs at cut ⊢ with was
  · rfl
  · exact absurd cut was

omit [Unicode] in
lemma CutEmpty.commit (go : s.truncated = false) (record : RecordLayout) (total : Nat) :
    (s.commit record total).CutEmpty := by
  intro cut
  unfold RecordStream.commit at cut ⊢
  dsimp only at cut ⊢
  split_ifs at cut ⊢
  · rfl
  · exact absurd (go.symm.trans cut) Bool.false_ne_true

lemma CutEmpty.nextRecord (empty : s.CutEmpty) : s.nextRecord.2.CutEmpty := by
  have body {t : RecordStream} (go : t.truncated = false) : t.nextBody.2.CutEmpty := by
    rcases t.nextBody_cases with ⟨same, _⟩ | ⟨record, size, _, _, _, _, emits⟩
    · rw [same]
      exact fun cut => absurd (go.symm.trans cut) Bool.false_ne_true
    · rw [emits]
      exact CutEmpty.commit go record _
  cases cut : s.truncated with
  | true =>
    rw [nextRecord_cut cut]
    exact empty
  | false =>
    have go : s.skipHeader.truncated = false := cut
    by_cases left : 0 < s.headerLeft
    · rw [nextRecord_header cut left]
      split_ifs
      · exact fun cut => absurd (go.symm.trans cut) Bool.false_ne_true
      · exact body go
    · rw [nextRecord_body cut (Nat.eq_zero_of_not_pos left)]
      exact body cut

/-- From the cut on no call makes a walk hold anything. -/
lemma CutEmpty.calls (empty : s.CutEmpty) (calls : List Call) : (s.calls calls).CutEmpty := by
  induction calls generalizing s with
  | nil => exact empty
  | cons call calls ih =>
    cases call with
    | push chunk => exact ih (CutEmpty.push s chunk)
    | nextRecord => exact ih empty.nextRecord
    | finishInput => exact ih (s := s.finishInput) empty

/-- A drain is some calls that push nothing. -/
lemma drainFor_calls {fuel : Nat} {s' : RecordStream} (ok : (s.drainFor fuel).2 = .ok s') :
    ∃ calls, s' = s.calls calls ∧ pushed calls = [] := by
  induction fuel generalizing s with
  | zero =>
    cases ok
    exact ⟨[], rfl, rfl⟩
  | succ fuel ih =>
    rw [drainFor] at ok
    cases e : s.nextRecord with
    | mk answer next =>
      have moved : next = s.calls [.nextRecord] := (congrArg Prod.snd e).symm
      rw [e] at ok
      cases answer with
      | error err => cases ok
      | ok found =>
        cases found with
        | none =>
          cases ok
          exact ⟨_, moved, rfl⟩
        | some row =>
          obtain ⟨calls, rfl, none⟩ := ih ok
          exact ⟨.nextRecord :: calls, by rw [moved]; rfl, none⟩

/-- Feeding chunks is some calls that push those chunks. -/
lemma feed_calls {chunks : List (List UInt8)} {s' : RecordStream}
    (ok : (s.feed chunks).2 = .ok s') :
    ∃ calls, s' = s.calls calls ∧ pushed calls = chunks.flatten := by
  induction chunks generalizing s with
  | nil =>
    cases ok
    exact ⟨[], rfl, rfl⟩
  | cons chunk chunks ih =>
    rw [feed] at ok
    cases e : (s.push chunk).drain with
    | mk rows res =>
      rw [e] at ok
      cases res with
      | error err => cases ok
      | ok next =>
        obtain ⟨drained, rfl, none⟩ := drainFor_calls (congrArg Prod.snd e)
        obtain ⟨calls, rfl, rest⟩ := ih ok
        refine ⟨.push chunk :: (drained ++ calls), ?_, ?_⟩
        · change _ = (drained ++ calls).foldl RecordStream.call (s.push chunk)
          rw [List.foldl_append]
          rfl
        · rw [pushed, pushed_append, none, rest, List.nil_append, List.flatten_cons]

end RecordStream

end Held

section Cut

variable [Unicode] {layout : Layout} {options : DecodeOptions}

/-- A run that emits as many rows as it was asked for stops, whatever comes behind them. -/
lemma run_full (v : layout.Valid) (limited : options.maxRecords ≠ 0) (σ : WalkState)
    (xs : List UInt8)
    (many : options.maxRecords ≤ σ.recordsKept + ((recordReader v options).run σ xs).1.length) :
    ∃ σ', ((recordReader v options).run σ xs).2 = .stopped σ' := by
  have full {σ xs} {st : Step WalkState Pb.RecordRow ParseError}
      (go : recordStep layout options σ xs = st) (ne : st ≠ .stop) : ¬ σ.Full options :=
    mt recordStep_stop.mpr (go ▸ ne)
  induction σ, xs using (recordReader v options).run_induction with
  | wait σ xs st =>
    rw [(recordReader v options).run_wait st] at many
    exact absurd ⟨limited, many⟩ (full st (by simp))
  | stop σ xs st => exact ⟨σ, by rw [(recordReader v options).run_stop st]⟩
  | fail σ xs e st =>
    rw [(recordReader v options).run_fail st] at many
    exact absurd ⟨limited, many⟩ (full st (by simp))
  | emit σ xs r n σ' st ih =>
    obtain ⟨_, _, _, _, _, _, _, _, _, _, rfl⟩ := recordStep_emit.mp st
    rw [(recordReader v options).run_emit st] at many ⊢
    apply ih
    simp only [WalkState.advance, List.length_cons] at many ⊢
    omega

/-- A walk over more rows than it was asked for ends at a full state of the reader. -/
lemma batch_full (v : layout.Valid) (limited : options.maxRecords ≠ 0) {input : List UInt8}
    (many : options.maxRecords ≤ (batch v options input).1.length) :
    ∃ σ, (batch v options input).2 = .stopped σ ∧ σ.Full options := by
  obtain ⟨σ, stopped⟩ := run_full v limited (walkStart layout) (recordData layout input)
    (many.trans (Nat.le_add_left _ _))
  exact ⟨σ, stopped, batch_stopped stopped⟩

/-- A walk without a limit that emits as many rows as the limit would allow fills the limited one. -/
lemma batch_reached (v : layout.Valid) (limited : options.maxRecords ≠ 0) {front : List (List UInt8)}
    (many : options.maxRecords ≤ (walk layout options.unlimited front).1.length) :
    ∃ σ, (batch v options front.flatten).2 = .stopped σ ∧ σ.Full options := by
  apply batch_full v limited
  have rows := walk_limited v limited front
  rw [walk_eq v] at rows
  have len : (batch v options front.flatten).1.length
      = ((walk layout options.unlimited front).1.take options.maxRecords).length := by
    rw [← rows]
    exact (List.length_map _).symm
  rw [len, List.length_take]
  omega

/-- A stream that has kept all the rows it was asked for holds nothing and counts on. -/
lemma calls_full (limited : options.maxRecords ≠ 0) (calls : List Call)
    (many : options.maxRecords ≤ ((RecordStream.new layout options).calls calls).recordsKept) :
    ((RecordStream.new layout options).calls calls).buffer = [] ∧
      ((RecordStream.new layout options).calls calls).received = (pushed calls).length := by
  obtain ⟨σ, fol⟩ := (follows_new layout options).calls calls
  have full : σ.Full options := ⟨limited, fol.kept ▸ many⟩
  have empty : (RecordStream.new layout options).CutEmpty := fun cut => rfl
  exact ⟨empty.calls calls (fol.truncated.trans (decide_eq_true full)), fol.received⟩

/-- `max_records` is a prefix. The limited walk emits the first rows of the unlimited one. When there are
as many as the limit, it ends without an error, and the trailer counts every byte pushed; from the chunk
on that brings the last row, and from the call on that emits it, the walk holds nothing and counts on. -/
theorem max_records_prefix [SerdeJson] {request : Pb.ParseOptions}
    (ok : resolve request = .ok layout) (limited : 1 ≤ options.maxRecords)
    (chunks : List (List UInt8)) :
    let all := (walk layout options.unlimited chunks).1
    let start := RecordStream.new layout options
    (walk layout options chunks).1 = all.take (min options.maxRecords all.length) ∧
    (options.maxRecords ≤ all.length →
      (∃ status, (walk layout options chunks).2 = .finished (.ok status) ∧
        status.bytesReceived = chunks.flatten.length) ∧
      ∀ front back, chunks = front ++ back →
        options.maxRecords ≤ (walk layout options.unlimited front).1.length →
        ∃ stream, (start.feed front).2 = .ok stream ∧ stream.buffer = [] ∧
          stream.received = front.flatten.length) ∧
    ∀ calls, options.maxRecords ≤ (start.calls calls).recordsKept →
      (start.calls calls).buffer = [] ∧ (start.calls calls).received = (pushed calls).length := by
  intro all start
  have v := resolve_valid ok
  have on : options.maxRecords ≠ 0 := Nat.one_le_iff_ne_zero.mp limited
  have cut_rows := walk_limited v on chunks
  refine ⟨?_, fun many => ⟨?_, fun front back split enough => ?_⟩, calls_full on⟩
  · rw [cut_rows, List.take_eq_take_min]
  · obtain ⟨σ, stopped, full⟩ := batch_reached v on many
    rw [walk_eq v]
    simp only [wholeWalk, stopped]
    unfold RecordStream.status
    have cut : (atEnd layout options chunks.flatten.length σ).truncated = true :=
      decide_eq_true full
    rw [if_pos cut]
    split_ifs
    · exact ⟨_, rfl, rfl⟩
    · exact ⟨_, rfl, rfl⟩
  · obtain ⟨σ, stopped, full⟩ := batch_reached v on enough
    obtain ⟨_, ends⟩ := feed_new v options front
    rw [stopped] at ends
    obtain ⟨stream, fed, settled⟩ := ends
    refine ⟨stream, fed, ?_⟩
    -- What was fed came as calls, and of these the last part of the statement speaks.
    obtain ⟨calls, rfl, all_pushed⟩ := RecordStream.feed_calls fed
    have kept : options.maxRecords ≤ (start.calls calls).recordsKept := settled.kept ▸ full.2
    obtain ⟨empty, received⟩ := calls_full on calls kept
    exact ⟨empty, by rw [received, all_pushed]⟩

/-- Whether a trailer places its warning of the limit at the end of the last row, and reports what came
behind it as not decoded. -/
def StopsAt (rows : List Pb.RecordRow) (status : Pb.ParseStatus) : Prop :=
  ∃ warning ∈ status.warnings, ∃ row, warning.code = Pb.WarningCode.maxRecordsReached.toI32 ∧
    rows.getLast? = some row ∧
    warning.byteOffset = row.byteOffset + row.byteLength ∧
    warning.message = s!"stopped after {status.recordsKept} records; " ++
      s!"{status.bytesReceived - (row.byteOffset + row.byteLength)} bytes of input were not decoded"

/-- The warning of a limit says where decoding stopped exactly when the record the limit names ends the
input. -/
theorem stopsAt_iff [SerdeJson] {request : Pb.ParseOptions} {chunks : List (List UInt8)}
    {rows : List Pb.RecordRow} {status : Pb.ParseStatus} (ok : resolve request = .ok layout)
    (run : walk layout options chunks = (rows, .finished (.ok status)))
    (cut : status.truncated = true) :
    StopsAt rows status ↔
      ∀ row, (walk layout options.unlimited chunks).1[options.maxRecords - 1]? = some row →
        row.byteOffset + row.byteLength = chunks.flatten.length := by
  have v := resolve_valid ok
  obtain ⟨σ, at_end, res⟩ := walk_finished v run
  have rows_eq : (walk layout options chunks).1 = rows := by rw [run]
  have full : σ.Full options := by
    obtain ⟨_, rfl⟩ := RecordStream.status_ok res.symm
    exact of_decide_eq_true cut
  obtain ⟨limited, many⟩ := (at_end.full_iff options).mp full
  have ne : rows ≠ [] := by
    rintro rfl
    exact limited (Nat.le_zero.mp many)
  have last := List.getLast?_eq_some_getLast ne
  have named := getLast?_limited v limited (rows_eq ▸ many)
  rw [rows_eq, last] at named
  -- The cut leaves one warning, at the end of the input.
  have room := at_end.room ne
  have pos := at_end.pos_eq
  have long : ¬(atEnd layout options chunks.flatten.length σ).received
      < (atEnd layout options chunks.flatten.length σ).layout.headerSize
        + (atEnd layout options chunks.flatten.length σ).layout.footerSize := by
    simp only [atEnd]
    omega
  have on : (atEnd layout options chunks.flatten.length σ).truncated = true := decide_eq_true full
  rw [RecordStream.status, if_neg long, if_pos on] at res
  cases res
  have base : (atEnd layout options chunks.flatten.length σ).bufferBase = chunks.flatten.length :=
    if_pos full
  simp only [StopsAt, RecordStream.trailer, List.mem_singleton, exists_eq_left,
    RecordStream.cutWarning, base, last, ← named, Option.some.injEq, forall_eq', true_and,
    exists_eq_left']
  constructor
  · rintro ⟨at_row, _⟩
    exact at_row.symm
  · intro ends
    exact ⟨ends.symm, by rw [ends]⟩

end Cut

section Sample

attribute [local instance] asciiUnicode noJson

/-- Three records of which one is wanted: in one chunk, or with the last two pushed after the cut. -/
def padChunks : List (List (List UInt8)) := [[[1, 1, 1]], [[1], [1, 1]]]

/-- The row of those records that is emitted. -/
def padRow : Pb.RecordRow where
  recordType := "pad"
  rowIndex := 0
  recordIndex := 0
  byteOffset := 0
  byteLength := 1
  cells := []

/-- The trailer of either run: the warning is at the end of the input. -/
def padStatus : Pb.ParseStatus where
  recordsKept := 1
  bytesReceived := 3
  bytesConsumed := 3
  trailingBytes := 0
  truncated := true
  warnings := [{
    code := 2
    message := "stopped after 1 records; 0 bytes of input were not decoded"
    byteOffset := 3 }]
  rowsPerRecordType := [("pad", 1)]

/-- The warning does not say where decoding stopped. -/
theorem stopsAt_fails :
    resolve padRequest = .ok padLayout ∧
      (∀ chunks ∈ padChunks,
        walk padLayout limitedOptions chunks = ([padRow], .finished (.ok padStatus))) ∧
      ¬StopsAt [padRow] padStatus := by
  refine ⟨resolve_pad, ?_, ?_⟩
  · intro chunks mem
    simp only [padChunks, List.mem_cons, List.not_mem_nil, or_false] at mem
    rcases mem with rfl | rfl
    · rfl
    · rfl
  · rintro ⟨warning, mem, row, _, last, at_row, _⟩
    obtain rfl := List.mem_singleton.mp mem
    cases last
    cases at_row

theorem stopsAt_iff_sample :
    ¬StopsAt [padRow] padStatus :=
  have run : walk padLayout limitedOptions [[1, 1, 1]] = ([padRow], .finished (.ok padStatus)) := rfl
  fun stops => absurd ((stopsAt_iff resolve_pad run rfl).mp stops padRow rfl) (by decide)

/-- Of three records one is kept, and nothing is held once it is emitted. -/
theorem max_records_prefix_sample :
    (walk padLayout limitedOptions [[1], [1, 1]]).1 = [padRow] ∧
      ∃ stream, ((RecordStream.new padLayout limitedOptions).feed [[1]]).2 = .ok stream ∧
        stream.buffer = [] ∧ stream.received = 1 :=
  have holds := max_records_prefix resolve_pad (Nat.le_refl limitedOptions.maxRecords) [[1], [1, 1]]
  ⟨holds.1.trans rfl, (holds.2.1 (by decide)).2 [[1]] [[1, 1]] rfl (by decide)⟩

end Sample

end GrpcEbcdic

import GrpcEbcdic.Stream.Reader
import Mathlib.Data.List.Infix

/-!
# The walker refines the reader

`Follows` ties a `RecordStream` that has received an input to the state of the record reader: where its
buffer, its cursor and its counters stand. Every `push` keeps it, every `nextRecord` takes the step the
reader takes on the record data received so far, and so a drain is a run. `walk_eq` is the refinement:
whatever the chunks, a walk is `wholeWalk`, one run of the reader over the record data of the input.
-/

namespace GrpcEbcdic
open Rust Incremental

/-- The bytes certain to lie before the footer of an input, from an absolute offset on. -/
def dataFrom (layout : Layout) (input : List UInt8) (pos : Nat) : List UInt8 :=
  (input.take (input.length - layout.footerSize)).drop pos

/-- The bytes of an input that belong to records: those behind the header and before the footer. -/
def recordData (layout : Layout) (input : List UInt8) : List UInt8 :=
  dataFrom layout input layout.headerSize

@[simp] lemma dataFrom_length (layout : Layout) (input : List UInt8) (pos : Nat) :
    (dataFrom layout input pos).length = input.length - layout.footerSize - pos := by
  simp only [dataFrom, List.length_drop, List.length_take]
  omega

lemma dataFrom_drop (layout : Layout) (input : List UInt8) (pos n : Nat) :
    (dataFrom layout input pos).drop n = dataFrom layout input (pos + n) := by
  rw [dataFrom, dataFrom, List.drop_drop]

/-- More input only adds record data at the end. -/
lemma recordData_append (layout : Layout) (input chunk : List UInt8) :
    ∃ more, recordData layout (input ++ chunk) = recordData layout input ++ more := by
  have pre : input.take (input.length - layout.footerSize)
      <+: (input ++ chunk).take ((input ++ chunk).length - layout.footerSize) := by
    have keep : (input ++ chunk).take (input.length - layout.footerSize)
        = input.take (input.length - layout.footerSize) :=
      List.take_append_of_le_length (Nat.sub_le _ _)
    rw [← keep]
    apply List.take_prefix_take_left
    rw [List.length_append]
    omega
  obtain ⟨more, eq⟩ := pre.drop layout.headerSize
  exact ⟨more, eq.symm⟩

/-- A stream that has received `input` and stands where the reader's state `σ` does. -/
structure Follows (layout : Layout) (options : DecodeOptions) (input : List UInt8) (σ : WalkState)
    (s : RecordStream) : Prop where
  sameLayout : s.layout = layout
  sameOptions : s.options = options
  received : s.received = input.length
  kept : s.recordsKept = σ.recordsKept
  rows : s.rowsPerType = σ.rowsPerType
  truncated : s.truncated = decide (σ.Full options)
  /-- The unconsumed bytes are those of the input from `bufferBase` on. -/
  pending : ¬ σ.Full options → s.pending = input.drop s.bufferBase
  /-- What is consumed and what is left of the header end where the next record starts. -/
  pos : ¬ σ.Full options → s.bufferBase + s.headerLeft = σ.pos
  base : ¬ σ.Full options → s.bufferBase ≤ input.length - layout.footerSize
  /-- Past `max_records` nothing is held and everything counts as behind the cursor. -/
  full : σ.Full options → s.pending = [] ∧ s.bufferBase = s.received

namespace Follows

variable {layout : Layout} {options : DecodeOptions} {input : List UInt8} {σ : WalkState}
  {s : RecordStream}

/-- The bytes available are those before the footer that the cursor has not passed. -/
lemma available (fol : Follows layout options input σ s) (nf : ¬ σ.Full options) :
    s.available = input.length - layout.footerSize - s.bufferBase := by
  simp only [RecordStream.available, RecordStream.decodableEnd, fol.received, fol.sameLayout,
    fol.pending nf, List.length_drop]
  omega

/-- Behind the header, the reader's bytes are the first of the unconsumed ones. -/
lemma dataFrom_eq (fol : Follows layout options input σ s) (nf : ¬ σ.Full options)
    (hd : s.headerLeft = 0) : s.pending = dataFrom layout input σ.pos ++ input.drop
      (max s.bufferBase (input.length - layout.footerSize)) := by
  have pos := fol.pos nf
  rw [hd, Nat.add_zero] at pos
  rw [fol.pending nf, dataFrom, ← pos, max_eq_right (fol.base nf), ← List.drop_append_of_le_length,
    List.take_append_drop]
  rw [List.length_take, min_eq_left (Nat.sub_le _ _)]
  exact fol.base nf

/-- Pushing a chunk extends the input a stream follows. -/
lemma push (fol : Follows layout options input σ s) (chunk : List UInt8) :
    Follows layout options (input ++ chunk) σ (s.push chunk) := by
  have tr := fol.truncated
  have len : s.received + chunk.length = (input ++ chunk).length := by
    rw [fol.received, List.length_append]
  by_cases full : σ.Full options
  · rw [decide_eq_true full] at tr
    simp only [RecordStream.push, tr, if_true]
    refine ⟨fol.sameLayout, fol.sameOptions, len, fol.kept, fol.rows, ?_, ?_, ?_, ?_, ?_⟩
    · exact (decide_eq_true full).symm
    · exact fun nf => absurd full nf
    · exact fun nf => absurd full nf
    · exact fun nf => absurd full nf
    · exact fun _ => ⟨rfl, rfl⟩
  · rw [decide_eq_false full] at tr
    simp only [RecordStream.push, tr, Bool.false_eq_true, if_false]
    have base := fol.base full
    refine ⟨fol.sameLayout, fol.sameOptions, len, fol.kept, fol.rows, ?_, ?_, fol.pos, ?_, ?_⟩
    · exact (decide_eq_false full).symm
    · intro _
      change s.pending ++ chunk = _
      rw [fol.pending full, List.drop_append_of_le_length (base.trans (Nat.sub_le _ _))]
    · intro _
      rw [List.length_append]
      exact base.trans (by omega)
    · exact fun full' => absurd full' full

/-- Finishing the input moves nothing. -/
lemma finishInput (fol : Follows layout options input σ s) :
    Follows layout options input σ s.finishInput :=
  ⟨fol.sameLayout, fol.sameOptions, fol.received, fol.kept, fol.rows, fol.truncated, fol.pending, fol.pos,
    fol.base, fol.full⟩

/-- Consuming bytes that are there moves the cursor over the same input. -/
lemma pending_consume (fol : Follows layout options input σ s) (nf : ¬ σ.Full options) (n : Nat) :
    (s.consume n).pending = input.drop (s.bufferBase + n) := by
  have pend := fol.pending nf
  simp only [RecordStream.pending, RecordStream.consume] at pend ⊢
  rw [← List.drop_drop, pend, List.drop_drop]

/-- Skipping header bytes keeps the place of the next record. -/
lemma skipHeader (fol : Follows layout options input σ s) (nf : ¬ σ.Full options) :
    Follows layout options input σ s.skipHeader ∧
      s.skipHeader.bufferBase = min σ.pos (input.length - layout.footerSize) := by
  have av := fol.available nf
  have pos := fol.pos nf
  have base := fol.base nf
  have at_base : s.bufferBase + min s.headerLeft s.available
      = min σ.pos (input.length - layout.footerSize) := by
    rw [av]
    omega
  refine ⟨⟨fol.sameLayout, fol.sameOptions, fol.received, fol.kept, fol.rows, fol.truncated,
    fun _ => fol.pending_consume nf _, fun _ => ?_, fun _ => ?_, fun full => absurd full nf⟩,
    at_base⟩
  · simp only [RecordStream.skipHeader, RecordStream.consume]
    omega
  · simp only [RecordStream.skipHeader, RecordStream.consume]
    omega

/-- Emitting a record takes the stream to the state the reader advances to. -/
lemma commit (fol : Follows layout options input σ s) (nf : ¬ σ.Full options)
    (hd : s.headerLeft = 0) (record : RecordLayout) {total : Nat}
    (le : total ≤ (dataFrom layout input σ.pos).length) :
    Follows layout options input (σ.advance record total) (s.commit record total) := by
  have pos := fol.pos nf
  have base := fol.base nf
  have tr := fol.truncated
  rw [decide_eq_false nf] at tr
  rw [dataFrom_length] at le
  have rows : AssocList.insert record.name (s.rowIndex record.name + 1) s.rowsPerType
      = (σ.advance record total).rowsPerType := by
    simp only [WalkState.advance, WalkState.rowIndex, RecordStream.rowIndex, fol.rows]
  have kept : s.recordsKept + 1 = (σ.advance record total).recordsKept := by
    simp only [WalkState.advance, fol.kept]
  have cond : (s.options.maxRecords ≠ 0 ∧ s.options.maxRecords ≤ s.recordsKept + 1) ↔
      (σ.advance record total).Full options := by
    rw [kept, fol.sameOptions]
    rfl
  -- The row that fills the limit empties the buffer; any other leaves what is behind it.
  by_cases full : (σ.advance record total).Full options
  · simp only [RecordStream.commit, RecordStream.consume, cond, full, if_true]
    refine ⟨fol.sameLayout, fol.sameOptions, fol.received, kept, rows, ?_, ?_, ?_, ?_, ?_⟩
    · exact (decide_eq_true full).symm
    · exact fun nf => absurd full nf
    · exact fun nf => absurd full nf
    · exact fun nf => absurd full nf
    · exact fun _ => ⟨rfl, rfl⟩
  · simp only [RecordStream.commit, RecordStream.consume, cond, full, if_false]
    refine ⟨fol.sameLayout, fol.sameOptions, fol.received, kept, rows, ?_, ?_, ?_, ?_, ?_⟩
    · exact tr.trans (decide_eq_false full).symm
    · exact fun _ => fol.pending_consume nf total
    · intro _
      simp only [WalkState.advance]
      omega
    · intro _
      simp only
      omega
    · exact fun full' => absurd full' full

end Follows

/-- A stream follows the state it starts from before any input. -/
lemma follows_new (layout : Layout) (options : DecodeOptions) :
    Follows layout options [] (walkStart layout) (RecordStream.new layout options) := by
  have nf : ¬ (walkStart layout).Full options := fun full => full.1 (Nat.le_zero.mp full.2)
  refine ⟨rfl, rfl, rfl, rfl, rfl, (decide_eq_false nf).symm, fun _ => rfl, fun _ => ?_,
    fun _ => Nat.zero_le _, fun full => absurd full nf⟩
  simp [RecordStream.new, walkStart]

/-- A stream that has nothing more to say on its input: the cursor is where the next record starts, or
at the footer when that comes first. -/
structure Settled (layout : Layout) (options : DecodeOptions) (input : List UInt8) (σ : WalkState)
    (s : RecordStream) : Prop extends Follows layout options input σ s where
  settled : ¬ σ.Full options → s.bufferBase = min σ.pos (input.length - layout.footerSize)

/-- The stream a walk over `length` bytes leaves when the reader halts in the state `σ`. -/
def atEnd (layout : Layout) (options : DecodeOptions) (length : Nat) (σ : WalkState) :
    RecordStream where
  layout := layout
  options := options
  buffer := []
  start := 0
  bufferBase := if σ.Full options then length else min σ.pos (length - layout.footerSize)
  received := length
  headerLeft := 0
  recordsKept := σ.recordsKept
  rowsPerType := σ.rowsPerType
  truncated := decide (σ.Full options)
  inputFinished := true

/-- The trailer reads the layout, the settings and the counters, never the buffer. -/
lemma RecordStream.status_congr {s t : RecordStream} (layout : s.layout = t.layout)
    (options : s.options = t.options) (base : s.bufferBase = t.bufferBase)
    (received : s.received = t.received) (kept : s.recordsKept = t.recordsKept)
    (rows : s.rowsPerType = t.rowsPerType) (truncated : s.truncated = t.truncated) :
    s.status = t.status := by
  obtain ⟨_, _, _, _, _, _, _, _, _, _, _⟩ := s
  obtain ⟨_, _, _, _, _, _, _, _, _, _, _⟩ := t
  cases layout
  cases options
  cases base
  cases received
  cases kept
  cases rows
  cases truncated
  rfl

/-- The trailer of a settled stream depends on the reader's state alone. -/
lemma Settled.status {layout : Layout} {options : DecodeOptions} {input : List UInt8} {σ : WalkState}
    {s : RecordStream} (settled : Settled layout options input σ s) :
    s.status = (atEnd layout options input.length σ).status := by
  refine RecordStream.status_congr settled.sameLayout settled.sameOptions ?_ settled.received
    settled.kept settled.rows settled.truncated
  by_cases full : σ.Full options
  · rw [(settled.full full).2, settled.received, atEnd, if_pos full]
  · rw [settled.settled full, atEnd, if_neg full]

variable [Unicode]

section NextRecord

variable {layout : Layout} {options : DecodeOptions} {input : List UInt8} {σ σ' : WalkState}
  {s : RecordStream}

/-- What a call leaves and returns, by the step the reader takes. -/
def Answers (layout : Layout) (options : DecodeOptions) (input : List UInt8) (σ : WalkState)
    (answer : Except ParseError (Option Pb.RecordRow) × RecordStream) :
    Incremental.Step WalkState Pb.RecordRow ParseError → Prop
  | .wait | .stop => answer.1 = .ok none ∧ Settled layout options input σ answer.2
  | .fail e => answer.1 = .error e
  | .emit r _ σ' => answer.1 = .ok (some r) ∧ Follows layout options input σ' answer.2

/-- Without a byte the reader waits. -/
lemma recordStep_none (layout : Layout) {xs : List UInt8} (nf : ¬ σ.Full options) (none : xs.length = 0) :
    recordStep layout options σ xs = .wait := by
  simp only [recordStep, nf, none, if_false, and_true]
  split_ifs
  · rfl
  · rfl
  · omega

/-- Behind the header, a call takes the reader's step. -/
lemma nextBody_answers (v : layout.Valid) (fol : Follows layout options input σ s)
    (nf : ¬ σ.Full options) (hd : s.headerLeft = 0) :
    Answers layout options input σ s.nextBody
      (recordStep layout options σ (dataFrom layout input σ.pos)) := by
  have pos : s.bufferBase = σ.pos := by
    have pos := fol.pos nf
    rwa [hd, Nat.add_zero] at pos
  have av : s.available = (dataFrom layout input σ.pos).length := by
    rw [fol.available nf, pos, dataFrom_length]
  have base := fol.base nf
  have settled : Settled layout options input σ s := ⟨fol, fun _ => by omega⟩
  have pend := fol.dataFrom_eq nf hd
  unfold RecordStream.nextBody recordStep
  simp only [fol.sameLayout, fol.sameOptions, av, nf, if_false]
  split_ifs with short empty
  · exact ⟨rfl, settled⟩
  · exact ⟨rfl, settled⟩
  · rw [pend, pos, readPrefix_append v _ (Nat.not_lt.mp short)]
    cases hp : readPrefix layout options σ.pos (dataFrom layout input σ.pos) with
    | error e => exact rfl
    | ok rs =>
      obtain ⟨record, size⟩ := rs
      dsimp only
      split_ifs with long
      · exact ⟨rfl, settled⟩
      · rw [slice_append _ (Nat.not_lt.mp long)]
        cases hc : decodeCells record (slice (dataFrom layout input σ.pos) layout.prefixSize
            (layout.prefixSize + size)) options with
        | error e => exact rfl
        | ok cells =>
          refine ⟨?_, fol.commit nf hd record (Nat.not_lt.mp long)⟩
          simp only [WalkState.row, WalkState.rowIndex, RecordStream.rowIndex, fol.rows, fol.kept]

/-- Every call takes the reader's step on the record data received so far. -/
lemma nextRecord_answers (v : layout.Valid) (fol : Follows layout options input σ s) :
    Answers layout options input σ s.nextRecord
      (recordStep layout options σ (dataFrom layout input σ.pos)) := by
  have tr := fol.truncated
  unfold RecordStream.nextRecord
  by_cases full : σ.Full options
  · rw [decide_eq_true full] at tr
    simp only [tr, if_true, recordStep, full]
    exact ⟨rfl, fol, fun nf => absurd full nf⟩
  · rw [decide_eq_false full] at tr
    simp only [tr, Bool.false_eq_true, if_false]
    by_cases hd : 0 < s.headerLeft
    · obtain ⟨fol', base⟩ := fol.skipHeader full
      simp only [hd, if_true]
      by_cases hd' : 0 < s.skipHeader.headerLeft
      · -- The header is not all there, so the reader sees no byte and waits.
        have pos := fol'.pos full
        have none : (dataFrom layout input σ.pos).length = 0 := by
          rw [dataFrom_length]
          omega
        simp only [hd', if_true, recordStep_none layout full none]
        exact ⟨rfl, fol', fun _ => base⟩
      · simp only [hd', if_false]
        exact nextBody_answers v fol' full (by omega)
    · simp only [hd, if_false]
      exact nextBody_answers v fol full (by omega)

end NextRecord

/-- The reader stops exactly when it has all the records it was asked for. -/
lemma recordStep_stop {layout : Layout} {options : DecodeOptions} {σ : WalkState}
    {xs : List UInt8} : recordStep layout options σ xs = .stop ↔ σ.Full options := by
  unfold recordStep
  by_cases full : σ.Full options
  · simp [full]
  · simp only [full, if_false, iff_false]
    split_ifs
    · simp
    · simp
    · split
      · simp
      · split_ifs
        · simp
        · split <;> simp

section Run

variable {layout : Layout} (v : layout.Valid) (options : DecodeOptions)

/-- The run of the reader over all the record data of an input. -/
def batch (input : List UInt8) : List (Pb.RecordRow × Nat) × Halt UInt8 WalkState ParseError :=
  (recordReader v options).run (walkStart layout) (recordData layout input)

variable {options} {v} {input : List UInt8} {σ σ' : WalkState} {s : RecordStream}

/-- A trace moves the position over the bytes its records took. -/
lemma trace_pos {xs rest : List UInt8} {rs : List (Pb.RecordRow × Nat)}
    (tr : (recordReader v options).Trace σ xs rs σ' rest) :
    σ'.pos = σ.pos + (rs.map Prod.snd).sum := by
  induction tr with
  | nil => simp
  | cons st _ ih =>
    obtain ⟨_, _, _, _, _, _, _, _, _, _, rfl⟩ := recordStep_emit.mp st
    rw [ih]
    simp only [WalkState.advance, List.map_cons, List.sum_cons]
    omega

/-- Where a batch run waits, on the record data it has not consumed. -/
lemma batch_waiting {rest : List UInt8} (e : (batch v options input).2 = .waiting σ rest) :
    σ.pos = layout.headerSize + ((batch v options input).1.map Prod.snd).sum ∧
      rest = dataFrom layout input σ.pos ∧ recordStep layout options σ rest = .wait := by
  obtain ⟨tr, st⟩ := (recordReader v options).run_waiting e
  have pos := trace_pos tr
  refine ⟨pos, ?_, st⟩
  rw [tr.rest_eq, recordData, dataFrom_drop, pos]
  rfl

/-- A batch run stops at `max_records`. -/
lemma batch_stopped (e : (batch v options input).2 = .stopped σ) : σ.Full options := by
  obtain ⟨_, _, st⟩ := (recordReader v options).run_stopped e
  exact recordStep_stop.mp st

/-- The batch run over a longer input is the run over the shorter one, resumed. -/
lemma batch_append (v : layout.Valid) (options : DecodeOptions) (input chunk : List UInt8) :
    ∃ more, recordData layout (input ++ chunk) = recordData layout input ++ more ∧
      batch v options (input ++ chunk) = ((batch v options input).1
        ++ ((recordReader v options).resume (batch v options input).2 more).1,
        ((recordReader v options).resume (batch v options input).2 more).2) := by
  obtain ⟨more, eq⟩ := recordData_append layout input chunk
  refine ⟨more, eq, ?_⟩
  rw [batch, batch, eq, Reader.run_append]

/-- A failed run is not changed by what comes after. -/
lemma batch_failed {e : ParseError} (fl : (batch v options input).2 = .failed e)
    (chunk : List UInt8) : batch v options (input ++ chunk) = batch v options input := by
  obtain ⟨more, _, app⟩ := batch_append v options input chunk
  rw [app, fl, Reader.resume_failed, List.append_nil, ← fl]

/-- How a drain ends, by how the run halts. -/
def Ends (layout : Layout) (options : DecodeOptions) (input : List UInt8)
    (res : Except ParseError RecordStream) : Halt UInt8 WalkState ParseError → Prop
  | .waiting σ _ | .stopped σ => ∃ s, res = .ok s ∧ Settled layout options input σ s
  | .failed e => res = .error e

/-- With enough calls a drain is a run of the reader from the state the stream follows. -/
lemma drainFor_run (v : layout.Valid) (fuel : Nat) (fol : Follows layout options input σ s)
    (pos : 0 < fuel) (enough : ¬ σ.Full options → (dataFrom layout input σ.pos).length < fuel) :
    (s.drainFor fuel).1
        = ((recordReader v options).run σ (dataFrom layout input σ.pos)).1.map Prod.fst ∧
      Ends layout options input (s.drainFor fuel).2
        ((recordReader v options).run σ (dataFrom layout input σ.pos)).2 := by
  induction fuel generalizing σ s with
  | zero => exact absurd pos (Nat.lt_irrefl 0)
  | succ fuel ih =>
    have ans := nextRecord_answers v fol
    cases st : recordStep layout options σ (dataFrom layout input σ.pos) with
    | wait =>
      rw [st] at ans
      rw [(recordReader v options).run_wait st, RecordStream.drainFor]
      generalize s.nextRecord = answer at ans ⊢
      obtain ⟨a, s'⟩ := answer
      obtain ⟨rfl, settled⟩ := ans
      exact ⟨rfl, s', rfl, settled⟩
    | stop =>
      rw [st] at ans
      rw [(recordReader v options).run_stop st, RecordStream.drainFor]
      generalize s.nextRecord = answer at ans ⊢
      obtain ⟨a, s'⟩ := answer
      obtain ⟨rfl, settled⟩ := ans
      exact ⟨rfl, s', rfl, settled⟩
    | fail e =>
      rw [st] at ans
      rw [(recordReader v options).run_fail st, RecordStream.drainFor]
      generalize s.nextRecord = answer at ans ⊢
      obtain ⟨a, s'⟩ := answer
      cases ans
      exact ⟨rfl, rfl⟩
    | emit r n σ' =>
      rw [st] at ans
      have le := (recordReader v options).emit_le st
      have n_pos := (recordReader v options).emit_pos st
      obtain ⟨_, _, _, nf, _, _, _, _, _, _, adv⟩ := recordStep_emit.mp st
      have step : (dataFrom layout input σ.pos).drop n = dataFrom layout input σ'.pos := by
        rw [dataFrom_drop, adv]
        rfl
      have room := enough nf
      -- A row consumes bytes, so what is left fits into the rest of the fuel.
      have shorter : (dataFrom layout input σ'.pos).length < fuel := by
        rw [← step, List.length_drop]
        omega
      rw [(recordReader v options).run_emit st, RecordStream.drainFor, step]
      generalize s.nextRecord = answer at ans ⊢
      obtain ⟨a, s'⟩ := answer
      obtain ⟨rfl, fol'⟩ := ans
      obtain ⟨rows, ends⟩ := ih fol' (by omega) (fun _ => shorter)
      exact ⟨by simp [rows], ends⟩

/-- A drain is a run of the reader from the state the stream follows. -/
lemma drain_run (v : layout.Valid) (fol : Follows layout options input σ s) :
    s.drain.1 = ((recordReader v options).run σ (dataFrom layout input σ.pos)).1.map Prod.fst ∧
      Ends layout options input s.drain.2
        ((recordReader v options).run σ (dataFrom layout input σ.pos)).2 := by
  refine drainFor_run v _ fol (Nat.succ_pos _) fun nf => ?_
  have pos := fol.pos nf
  have base := fol.base nf
  rw [fol.pending nf, dataFrom_length, List.length_drop]
  omega

/-- A stream that goes on from where a run halted. -/
def GoesOn (layout : Layout) (options : DecodeOptions) (input : List UInt8) (s : RecordStream) :
    Halt UInt8 WalkState ParseError → Prop
  | .waiting σ _ | .stopped σ => Follows layout options input σ s
  | .failed _ => False

/-- Draining a stream that goes on from the batch run over `input`, with `chunk` more received,
completes the batch run over both. -/
lemma drain_batch {chunk : List UInt8}
    (on : GoesOn layout options (input ++ chunk) s (batch v options input).2) :
    (batch v options (input ++ chunk)).1.map Prod.fst
        = (batch v options input).1.map Prod.fst ++ s.drain.1 ∧
      Ends layout options (input ++ chunk) s.drain.2 (batch v options (input ++ chunk)).2 := by
  obtain ⟨more, eq, app⟩ := batch_append v options input chunk
  rw [app, List.map_append]
  cases hb : (batch v options input).2 with
  | failed e =>
    rw [hb] at on
    exact on.elim
  | stopped σ =>
    rw [hb] at on
    obtain ⟨rows, ends⟩ := drain_run v on
    rw [(recordReader v options).run_stop (recordStep_stop.mpr (batch_stopped hb))] at rows ends
    rw [rows]
    exact ⟨rfl, ends⟩
  | waiting σ rest =>
    rw [hb] at on
    obtain ⟨rows, ends⟩ := drain_run v on
    obtain ⟨tr, _⟩ := (recordReader v options).run_waiting hb
    have rest_more : rest ++ more = dataFrom layout (input ++ chunk) σ.pos := by
      rw [tr.rest_eq, ← List.drop_append_of_le_length tr.consumed_le, ← eq, (batch_waiting hb).1,
        ← dataFrom_drop]
      rfl
    rw [rows, Reader.resume_waiting, rest_more]
    exact ⟨rfl, ends⟩

omit [Unicode] in
/-- A chunk pushed where a run ended goes on from there. -/
lemma Ends.push {h : Halt UInt8 WalkState ParseError} (ends : Ends layout options input (.ok s) h)
    (chunk : List UInt8) : GoesOn layout options (input ++ chunk) (s.push chunk) h := by
  cases h with
  | failed e => cases ends
  | waiting σ rest =>
    obtain ⟨_, e, settled⟩ := ends
    cases e
    exact settled.toFollows.push chunk
  | stopped σ =>
    obtain ⟨_, e, settled⟩ := ends
    cases e
    exact settled.toFollows.push chunk

omit [Unicode] in
/-- A drain that fails is a run that fails. -/
lemma Ends.failed {e : ParseError} {h : Halt UInt8 WalkState ParseError}
    (ends : Ends layout options input (.error e) h) : h = .failed e := by
  cases h with
  | failed e' => cases ends; rfl
  | waiting σ rest => obtain ⟨_, h, _⟩ := ends; cases h
  | stopped σ => obtain ⟨_, h, _⟩ := ends; cases h

/-- Feeding chunks completes the batch run over all of them. -/
lemma feed_batch (ends : Ends layout options input (.ok s) (batch v options input).2)
    (chunks : List (List UInt8)) :
    (batch v options (input ++ chunks.flatten)).1.map Prod.fst
        = (batch v options input).1.map Prod.fst ++ (s.feed chunks).1 ∧
      Ends layout options (input ++ chunks.flatten) (s.feed chunks).2
        (batch v options (input ++ chunks.flatten)).2 := by
  induction chunks generalizing input s with
  | nil => simpa [RecordStream.feed] using ends
  | cons chunk chunks ih =>
    obtain ⟨rows, ends'⟩ := drain_batch (ends.push chunk)
    rw [RecordStream.feed, List.flatten_cons, ← List.append_assoc]
    generalize (s.push chunk).drain = d at rows ends' ⊢
    obtain ⟨rs, res⟩ := d
    cases res with
    | ok s' =>
      obtain ⟨rows', ends''⟩ := ih ends'
      refine ⟨?_, ends''⟩
      rw [rows', rows, List.append_assoc]
    | error e =>
      have fl := ends'.failed
      rw [batch_failed fl, fl]
      exact ⟨rows, rfl⟩

/-- Before any input a stream has nothing to say. -/
lemma ends_new (v : layout.Valid) (options : DecodeOptions) :
    Ends layout options [] (.ok (RecordStream.new layout options)) (batch v options []).2 ∧
      (batch v options []).1 = [] := by
  have fol := follows_new layout options
  have nf : ¬ (walkStart layout).Full options := fun full => full.1 (Nat.le_zero.mp full.2)
  have none : (recordData layout []).length = 0 := by
    rw [recordData, dataFrom_length, List.length_nil, Nat.zero_sub, Nat.zero_sub]
  have st := recordStep_none layout nf none
  rw [batch, (recordReader v options).run_wait st]
  refine ⟨⟨_, rfl, fol, fun _ => ?_⟩, rfl⟩
  simp [RecordStream.new]

/-- The rows fed so far are those of the batch run over the bytes received so far. -/
lemma feed_new (v : layout.Valid) (options : DecodeOptions) (chunks : List (List UInt8)) :
    ((RecordStream.new layout options).feed chunks).1
        = (batch v options chunks.flatten).1.map Prod.fst ∧
      Ends layout options chunks.flatten ((RecordStream.new layout options).feed chunks).2
        (batch v options chunks.flatten).2 := by
  obtain ⟨ends, none⟩ := ends_new v options
  obtain ⟨rows, ends'⟩ := feed_batch ends chunks
  rw [none, List.nil_append, List.map_nil, List.nil_append] at rows
  exact ⟨rows.symm, by simpa using ends'⟩

end Run

/-- The walk of an input as one run of the reader over its record data. -/
def wholeWalk {layout : Layout} (v : layout.Valid) (options : DecodeOptions)
    (input : List UInt8) : List Pb.RecordRow × WalkEnd :=
  ((batch v options input).1.map Prod.fst,
    match (batch v options input).2 with
    | .failed e => .failed e
    | .waiting σ _ | .stopped σ => .finished (atEnd layout options input.length σ).status)

/-- However its input is cut into chunks, a walk is one run over all of it. -/
theorem walk_eq {layout : Layout} (v : layout.Valid) (options : DecodeOptions)
    (chunks : List (List UInt8)) : walk layout options chunks = wholeWalk v options chunks.flatten := by
  obtain ⟨rows, ends⟩ := feed_new v options chunks
  unfold walk wholeWalk
  generalize (RecordStream.new layout options).feed chunks = d at rows ends ⊢
  obtain ⟨rs, res⟩ := d
  cases hb : (batch v options chunks.flatten).2 with
  | failed e =>
    rw [hb] at ends
    cases ends
    simpa using rows
  | waiting σ rest =>
    rw [hb] at ends
    obtain ⟨s, e, settled⟩ := ends
    cases e
    obtain ⟨_, on, wt⟩ := batch_waiting hb
    -- After the end of input the stream is asked once more, and the reader still waits.
    obtain ⟨rows', ends'⟩ := drain_run v settled.toFollows.finishInput
    rw [(recordReader v options).run_wait (on ▸ wt)] at rows' ends'
    obtain ⟨s', hs, settled'⟩ := ends'
    dsimp only
    generalize s.finishInput.drain = d' at rows' hs ⊢
    obtain ⟨rs', res'⟩ := d'
    cases hs
    cases rows'
    simp only [List.append_nil]
    rw [settled'.status]
    exact Prod.ext rows rfl
  | stopped σ =>
    rw [hb] at ends
    obtain ⟨s, e, settled⟩ := ends
    cases e
    obtain ⟨rows', ends'⟩ := drain_run v settled.toFollows.finishInput
    rw [(recordReader v options).run_stop (recordStep_stop.mpr (batch_stopped hb))] at rows' ends'
    obtain ⟨s', hs, settled'⟩ := ends'
    dsimp only
    generalize s.finishInput.drain = d' at rows' hs ⊢
    obtain ⟨rs', res'⟩ := d'
    cases hs
    cases rows'
    simp only [List.append_nil]
    rw [settled'.status]
    exact Prod.ext rows rfl

end GrpcEbcdic

import GrpcEbcdic.Stream.Bounds
import GrpcEbcdic.Stream.Simulation

/-!
# What a walk holds, and that it drains

Between two chunks a walk holds the bytes of a record that is not all there, and the footer. Whatever a
call waits for is bounded by the layout, so what a drained walk leaves in its buffer is bounded however
long the input is. A call that returns a row consumes at least one byte of what is available, so a
drain ends; and a call that returns none leaves a state in which the next one returns none too.
-/

namespace GrpcEbcdic
open Rust

namespace RecordStream

variable {s s' : RecordStream}

/-- What is available behind bytes that were there. -/
lemma available_consume {n : Nat} (le : n ≤ s.available) :
    (s.consume n).available = s.available - n := by
  unfold available pending at *
  simp only [consume, decodableEnd, List.length_drop] at *
  omega

/-- What is available behind the header bytes that were there. -/
lemma available_skipHeader (s : RecordStream) :
    s.skipHeader.available = s.available - min s.headerLeft s.available := by
  have le : min s.headerLeft s.available ≤ s.available := min_le_right _ _
  exact available_consume le

/-- A header that is not all there leaves nothing to skip. -/
lemma skipHeader_stuck (left : 0 < s.skipHeader.headerLeft) :
    s.skipHeader.skipHeader = s.skipHeader := by
  have none : min s.skipHeader.headerLeft s.skipHeader.available = 0 := by
    rw [available_skipHeader]
    simp only [skipHeader] at left ⊢
    omega
  rw [skipHeader, none]
  rfl

/-- A record takes its bytes off what is available, or everything when it is the last of a limit. -/
lemma available_commit (record : RecordLayout) {total : Nat} (le : total ≤ s.available) :
    (s.commit record total).available + total ≤ s.available := by
  have moved := available_consume le
  unfold commit
  dsimp only
  split
  · simp only [available, pending, List.drop_nil, List.length_nil, Nat.min_zero, Nat.zero_add]
    exact le
  · change (s.consume total).available + total ≤ s.available
    omega

/-- Counting a row does not look at whether the input is finished. -/
lemma commit_finishInput (s : RecordStream) (record : RecordLayout) (total : Nat) :
    s.finishInput.commit record total = (s.commit record total).finishInput := by
  unfold commit
  change (if s.options.maxRecords ≠ 0 ∧ s.options.maxRecords ≤ s.recordsKept + 1 then _ else _)
    = finishInput (if s.options.maxRecords ≠ 0 ∧ s.options.maxRecords ≤ s.recordsKept + 1 then _
        else _)
  split_ifs <;> rfl

variable [Unicode]

lemma nextRecord_cut (cut : s.truncated = true) : s.nextRecord = (.ok none, s) := if_pos cut

lemma nextRecord_header (go : s.truncated = false) (left : 0 < s.headerLeft) :
    s.nextRecord = if 0 < s.skipHeader.headerLeft then (.ok none, s.skipHeader)
      else s.skipHeader.nextBody := by
  simp only [nextRecord, go, left, if_true, Bool.false_eq_true, if_false]

lemma nextRecord_body (go : s.truncated = false) (behind : s.headerLeft = 0) :
    s.nextRecord = s.nextBody := by
  simp only [nextRecord, go, behind, Nat.lt_irrefl, Bool.false_eq_true, if_false]

/-- Behind the header a call changes the walk only when it returns a row: then the record was there and
is consumed. -/
lemma nextBody_cases (s : RecordStream) :
    (s.nextBody.2 = s ∧ ∀ row, s.nextBody.1 ≠ .ok (some row)) ∨
    ∃ record size row,
      readPrefix s.layout s.options s.bufferBase s.pending = .ok (record, size) ∧
      s.layout.prefixSize + size ≤ s.available ∧
      row.byteLength = s.layout.prefixSize + size ∧
      s.nextBody = (.ok (some row), s.commit record (s.layout.prefixSize + size)) := by
  unfold nextBody
  dsimp only
  split_ifs with short empty
  · exact .inl ⟨rfl, fun row => by simp⟩
  · exact .inl ⟨rfl, fun row => by simp⟩
  · cases hp : readPrefix s.layout s.options s.bufferBase s.pending with
    | error e => exact .inl ⟨rfl, fun row => by simp⟩
    | ok found =>
      obtain ⟨record, size⟩ := found
      dsimp only
      split_ifs with long
      · exact .inl ⟨rfl, fun row => by simp⟩
      · cases hc : decodeCells record (slice s.pending s.layout.prefixSize
            (s.layout.prefixSize + size)) s.options with
        | error e => exact .inl ⟨rfl, fun row => by simp⟩
        | ok cells => exact .inr ⟨record, size, _, rfl, Nat.not_lt.mp long, rfl, rfl⟩

/-- A call that returns no row returns none again, and changes nothing, until more is pushed. -/
lemma nextRecord_idle (idle : s.nextRecord = (.ok none, s')) : s'.nextRecord = (.ok none, s') := by
  have body {t : RecordStream} (e : t.nextBody = (.ok none, s')) : s' = t := by
    rcases t.nextBody_cases with ⟨same, _⟩ | ⟨_, _, _, _, _, _, emits⟩
    · rw [e] at same
      exact same
    · rw [e] at emits
      cases emits
  cases cut : s.truncated with
  | true =>
    rw [nextRecord_cut cut] at idle
    cases idle
    exact nextRecord_cut cut
  | false =>
    by_cases left : 0 < s.headerLeft
    · have go : s.skipHeader.truncated = false := cut
      rw [nextRecord_header cut left] at idle
      split_ifs at idle with left'
      · cases idle
        rw [nextRecord_header go left', skipHeader_stuck left', if_pos left']
      · obtain rfl := body idle
        rwa [nextRecord_body go (Nat.eq_zero_of_not_pos left')]
    · have behind := Nat.eq_zero_of_not_pos left
      rw [nextRecord_body cut behind] at idle
      obtain rfl := body idle
      rwa [nextRecord_body cut behind]

/-- A call that returns a row consumes at least one byte of what is available. -/
lemma nextRecord_row (v : s.layout.Valid) {row : Pb.RecordRow}
    (emits : s.nextRecord = (.ok (some row), s')) :
    0 < row.byteLength ∧ s'.available + row.byteLength ≤ s.available := by
  have body {t : RecordStream} (valid : t.layout.Valid) (e : t.nextBody = (.ok (some row), s')) :
      0 < row.byteLength ∧ s'.available + row.byteLength ≤ t.available := by
    rcases t.nextBody_cases with ⟨_, none⟩ | ⟨record, size, _, hp, le, len, emits⟩
    · exact absurd (congrArg Prod.fst e) (none row)
    · rw [e] at emits
      cases emits
      rw [len]
      exact ⟨readPrefix_pos valid hp, available_commit record le⟩
  cases cut : s.truncated with
  | true =>
    rw [nextRecord_cut cut] at emits
    cases emits
  | false =>
    by_cases left : 0 < s.headerLeft
    · rw [nextRecord_header cut left] at emits
      split_ifs at emits with left'
      · cases emits
      · have valid : s.skipHeader.layout.Valid := v
        obtain ⟨pos, le⟩ := body valid emits
        have skipped := available_skipHeader s
        exact ⟨pos, by omega⟩
    · rw [nextRecord_body cut (Nat.eq_zero_of_not_pos left)] at emits
      exact body v emits

/-- The drain loop of the service: ask for rows until there is none or one cannot be decoded. -/
inductive Drains :
    RecordStream → List Pb.RecordRow → Except ParseError RecordStream → Prop where
  | none {stream stream' : RecordStream} :
    stream.nextRecord = (.ok none, stream') →
    Drains stream [] (.ok stream')
  | error {stream stream' : RecordStream} {e : ParseError} :
    stream.nextRecord = (.error e, stream') →
    Drains stream [] (.error e)
  | row {stream stream' : RecordStream} {row rows res} :
    stream.nextRecord = (.ok (some row), stream') →
    Drains stream' rows res →
    Drains stream (row :: rows) res

/-- A drain has one outcome. -/
lemma Drains.unique {rows rows' : List Pb.RecordRow} {res res' : Except ParseError RecordStream}
    (dr : Drains s rows res) (dr' : Drains s rows' res') : rows = rows' ∧ res = res' := by
  induction dr generalizing rows' with
  | none e =>
    cases dr' with
    | none e' => cases e.symm.trans e'; exact ⟨rfl, rfl⟩
    | error e' => cases e.symm.trans e'
    | row e' _ => cases e.symm.trans e'
  | error e =>
    cases dr' with
    | none e' => cases e.symm.trans e'
    | error e' => cases e.symm.trans e'; exact ⟨rfl, rfl⟩
    | row e' _ => cases e.symm.trans e'
  | row e _ ih =>
    cases dr' with
    | none e' => cases e.symm.trans e'
    | error e' => cases e.symm.trans e'
    | row e' rest =>
      cases e.symm.trans e'
      obtain ⟨rfl, rfl⟩ := ih rest
      exact ⟨rfl, rfl⟩

/-- A call leaves the layout alone. -/
lemma nextRecord_layout (s : RecordStream) : s.nextRecord.2.layout = s.layout := by
  have body (t : RecordStream) : t.nextBody.2.layout = t.layout := by
    rcases t.nextBody_cases with ⟨same, _⟩ | ⟨record, size, _, _, _, _, emits⟩
    · rw [same]
    · rw [emits]
      unfold commit
      dsimp only
      split <;> rfl
  cases cut : s.truncated with
  | true => rw [nextRecord_cut cut]
  | false =>
    by_cases left : 0 < s.headerLeft
    · rw [nextRecord_header cut left]
      split_ifs
      · rfl
      · exact body s.skipHeader
    · rw [nextRecord_body cut (Nat.eq_zero_of_not_pos left)]
      exact body s

/-- With more calls than bytes available the drain loop ends, with at most a row for each byte. -/
lemma drainFor_drains {fuel : Nat} (v : s.layout.Valid) (enough : s.available < fuel) :
    Drains s (s.drainFor fuel).1 (s.drainFor fuel).2 ∧
      (s.drainFor fuel).1.length ≤ s.available := by
  induction fuel generalizing s with
  | zero => exact absurd enough (Nat.not_lt_zero _)
  | succ fuel ih =>
    rw [drainFor]
    have kept := nextRecord_layout s
    cases e : s.nextRecord with
    | mk answer next =>
      rw [e] at kept
      cases answer with
      | error err => exact ⟨.error e, Nat.zero_le _⟩
      | ok found =>
        cases found with
        | none => exact ⟨.none e, Nat.zero_le _⟩
        | some row =>
          have valid : next.layout.Valid := kept ▸ v
          obtain ⟨pos, less⟩ := nextRecord_row v e
          obtain ⟨drains, few⟩ := ih valid (by omega)
          refine ⟨.row e drains, ?_⟩
          rw [List.length_cons]
          omega

/-- No call looks at whether the input is finished. -/
lemma nextRecord_finishInput (s : RecordStream) :
    s.finishInput.nextRecord = (s.nextRecord.1, s.nextRecord.2.finishInput) := by
  have body (t : RecordStream) :
      t.finishInput.nextBody = (t.nextBody.1, t.nextBody.2.finishInput) := by
    have available : t.finishInput.available = t.available := rfl
    have pending : t.finishInput.pending = t.pending := rfl
    unfold nextBody
    rw [available, pending]
    dsimp only [finishInput]
    split_ifs
    · rfl
    · rfl
    · cases readPrefix t.layout t.options t.bufferBase t.pending with
      | error e => rfl
      | ok found =>
        obtain ⟨record, size⟩ := found
        dsimp only
        split_ifs
        · rfl
        · cases decodeCells record (slice t.pending t.layout.prefixSize
              (t.layout.prefixSize + size)) t.options with
          | error e => rfl
          | ok cells =>
            exact Prod.ext rfl (commit_finishInput t record (t.layout.prefixSize + size))
  -- The call skips the header first, and only then reads a record.
  cases cut : s.truncated with
  | true =>
    have cut' : s.finishInput.truncated = true := cut
    rw [nextRecord_cut cut, nextRecord_cut cut']
  | false =>
    have go : s.finishInput.truncated = false := cut
    by_cases left : 0 < s.headerLeft
    · have left' : 0 < s.finishInput.headerLeft := left
      have skipped : s.finishInput.skipHeader = s.skipHeader.finishInput := rfl
      rw [nextRecord_header cut left, nextRecord_header go left', skipped]
      change (if 0 < s.skipHeader.headerLeft then _ else _) = _
      split_ifs
      · rfl
      · exact body s.skipHeader
    · have behind := Nat.eq_zero_of_not_pos left
      have behind' : s.finishInput.headerLeft = 0 := behind
      rw [nextRecord_body cut behind, nextRecord_body go behind']
      exact body s

end RecordStream

section Calls

variable [Unicode] {layout : Layout} {options : DecodeOptions}

/-- Every sequence of calls keeps the layout. -/
lemma calls_layout (s : RecordStream) (calls : List Call) : (s.calls calls).layout = s.layout := by
  induction calls generalizing s with
  | nil => rfl
  | cons call calls ih =>
    apply (ih (s.call call)).trans
    cases call with
    | push chunk =>
      unfold RecordStream.call RecordStream.push
      dsimp only
      split <;> rfl
    | nextRecord => exact s.nextRecord_layout
    | finishInput => rfl

/-- Draining always ends. Whatever calls are made on a walk, a call that returns a row consumes at least
one byte of what is available, so the drain loop has an outcome, and only one, with at most a row for each
byte; and once a call has returned none, the next returns none as well and changes nothing. -/
theorem drain_ends [SerdeJson] {request : Pb.ParseOptions} (ok : resolve request = .ok layout)
    (options : DecodeOptions) (calls : List Call) :
    let stream := (RecordStream.new layout options).calls calls
    (∀ row next, stream.nextRecord = (.ok (some row), next) →
      0 < row.byteLength ∧ next.available + row.byteLength ≤ stream.available) ∧
    (stream.Drains stream.drain.1 stream.drain.2 ∧ stream.drain.1.length ≤ stream.available ∧
      ∀ rows res, stream.Drains rows res → rows = stream.drain.1 ∧ res = stream.drain.2) ∧
    ∀ next, stream.nextRecord = (.ok none, next) →
      next.nextRecord = (.ok none, next) ∧
      next.finishInput.nextRecord = (.ok none, next.finishInput) := by
  intro stream
  have v : stream.layout.Valid := by
    rw [calls_layout]
    exact resolve_valid ok
  have enough : stream.available < stream.pending.length + 1 :=
    Nat.lt_succ_of_le (min_le_right _ _)
  obtain ⟨drains, few⟩ := RecordStream.drainFor_drains v enough
  refine ⟨fun row next emits => RecordStream.nextRecord_row v emits,
    ⟨drains, few, fun rows res other => other.unique drains⟩, fun next idle => ?_⟩
  have again := RecordStream.nextRecord_idle idle
  refine ⟨again, ?_⟩
  rw [next.nextRecord_finishInput, again]

end Calls

section Backlog

variable {layout : Layout} {options : DecodeOptions}

/-- The largest schema. -/
def Layout.largestSize (layout : Layout) : Nat :=
  layout.records.foldr (fun record size => max record.size size) 0

lemma Layout.le_largestSize {record : RecordLayout} (mem : record ∈ layout.records) :
    record.size ≤ layout.largestSize := by
  unfold largestSize
  generalize layout.records = records at mem
  induction records with
  | nil => cases mem
  | cons first records ih =>
    rw [List.foldr_cons]
    cases mem with
    | head => exact le_max_left _ _
    | tail _ mem => exact (ih mem).trans (le_max_right _ _)

/-- A strict bound on the bytes a drained walk holds: the footer, a prefix, and a body of the largest
schema or, with a length field, of the largest length this build decodes. -/
def Layout.backlog (layout : Layout) : Nat :=
  layout.footerSize + layout.prefixSize +
    match layout.recordLengthField with
    | none => layout.largestSize
    | some _ => maxRecordBytes + 1

/-- The bytes some calls push. -/
def pushed : List Call → List UInt8
  | [] => []
  | .push chunk :: calls => chunk ++ pushed calls
  | .nextRecord :: calls => pushed calls
  | .finishInput :: calls => pushed calls

lemma pushed_append (calls calls' : List Call) :
    pushed (calls ++ calls') = pushed calls ++ pushed calls' := by
  induction calls with
  | nil => rfl
  | cons call calls ih => cases call <;> simp [pushed, ih]

variable [Unicode] {input : List UInt8} {σ : WalkState} {s s' : RecordStream}

omit [Unicode] in
/-- Every layout has a record, so the bound leaves room for a body. -/
lemma Layout.Valid.backlog_gt (v : layout.Valid) :
    layout.footerSize + layout.prefixSize < layout.backlog := by
  obtain ⟨record, mem⟩ := List.exists_mem_of_ne_nil _ v.records_ne
  have size_pos := (v.record record mem).size_pos
  have le := Layout.le_largestSize mem
  unfold Layout.backlog
  cases layout.recordLengthField with
  | none => dsimp only; omega
  | some f => dsimp only; omega

/-- A body the reader waits for is bounded by the layout. -/
lemma recordStep_wait_lt (v : layout.Valid) {xs : List UInt8} (nf : ¬ σ.Full options)
    (wait : recordStep layout options σ xs = .wait) :
    xs.length + layout.footerSize < layout.backlog := by
  have room := v.backlog_gt
  unfold recordStep at wait
  split_ifs at wait with short empty
  · omega
  · omega
  · split at wait
    · cases wait
    · next record size hp =>
      obtain ⟨declared, recordType, hlen, _, sel, hsize⟩ := readPrefix_ok hp
      have bound : size + layout.footerSize + layout.prefixSize ≤ layout.backlog := by
        unfold Layout.backlog
        cases field : layout.recordLengthField with
        | none =>
          simp only [readLength, field] at hlen
          cases hlen
          have eq := bodySize_none hsize
          have le := Layout.le_largestSize (Layout.select_mem sel)
          dsimp only
          omega
        | some f =>
          have le := (bodySize_ok.mp hsize).2
          dsimp only
          omega
      dsimp only at wait
      split_ifs at wait with long
      · omega
      · split at wait <;> cases wait

/-- Every call on a stream that follows the reader leaves one that does. -/
lemma Follows.nextRecord (fol : Follows layout options input σ s) :
    ∃ σ', Follows layout options input σ' s.nextRecord.2 := by
  have tr := fol.truncated
  by_cases full : σ.Full options
  · rw [decide_eq_true full] at tr
    rw [RecordStream.nextRecord_cut tr]
    exact ⟨σ, fol⟩
  · rw [decide_eq_false full] at tr
    have body {t : RecordStream} (fol : Follows layout options input σ t) (hd : t.headerLeft = 0) :
        ∃ σ', Follows layout options input σ' t.nextBody.2 := by
      rcases t.nextBody_cases with ⟨same, _⟩ | ⟨record, size, row, _, le, _, emits⟩
      · rw [same]
        exact ⟨σ, fol⟩
      · have pos := fol.pos full
        rw [fol.available full] at le
        rw [emits]
        refine ⟨_, fol.commit full hd record ?_⟩
        rw [dataFrom_length]
        omega
    by_cases left : 0 < s.headerLeft
    · obtain ⟨fol', _⟩ := fol.skipHeader full
      rw [RecordStream.nextRecord_header tr left]
      split_ifs with left'
      · exact ⟨σ, fol'⟩
      · exact body fol' (Nat.eq_zero_of_not_pos left')
    · rw [RecordStream.nextRecord_body tr (Nat.eq_zero_of_not_pos left)]
      exact body fol (Nat.eq_zero_of_not_pos left)

/-- So does every sequence of calls, over the bytes it pushes. -/
lemma Follows.calls (fol : Follows layout options input σ s) (calls : List Call) :
    ∃ σ', Follows layout options (input ++ pushed calls) σ' (s.calls calls) := by
  induction calls generalizing input σ s with
  | nil => exact ⟨σ, by rw [pushed, List.append_nil]; exact fol⟩
  | cons call calls ih =>
    cases call with
    | push chunk =>
      have rest := ih (fol.push chunk)
      rwa [List.append_assoc] at rest
    | nextRecord =>
      obtain ⟨σ', fol'⟩ := fol.nextRecord
      exact ih fol'
    | finishInput => exact ih fol.finishInput

/-- A call that returns none leaves a settled stream, whose reader waits unless it is full. -/
lemma Follows.idle (v : layout.Valid) (fol : Follows layout options input σ s)
    (idle : s.nextRecord = (.ok none, s')) :
    Settled layout options input σ s' ∧
      (¬ σ.Full options →
        recordStep layout options σ (dataFrom layout input σ.pos) = .wait) := by
  have ans := nextRecord_answers v fol
  rw [idle] at ans
  cases st : recordStep layout options σ (dataFrom layout input σ.pos) with
  | wait =>
    rw [st] at ans
    exact ⟨ans.2, fun _ => rfl⟩
  | stop =>
    rw [st] at ans
    exact ⟨ans.2, fun nf => absurd (recordStep_stop.mp st) nf⟩
  | fail e => rw [st] at ans; cases ans
  | emit r n σ' => rw [st] at ans; cases ans.1

/-- A settled stream whose reader waits holds less than the bound. -/
lemma Settled.pending_lt (v : layout.Valid) (settled : Settled layout options input σ s)
    (wait : ¬ σ.Full options →
      recordStep layout options σ (dataFrom layout input σ.pos) = .wait) :
    s.pending.length < layout.backlog := by
  by_cases full : σ.Full options
  · rw [(settled.full full).1]
    exact (Nat.zero_le _).trans_lt v.backlog_gt
  · have lt := recordStep_wait_lt v full (wait full)
    have base := settled.settled full
    rw [dataFrom_length] at lt
    rw [settled.pending full, List.length_drop]
    omega

/-- What waits in memory is bounded. Whatever calls are made on a walk, when one returns no row what is
unconsumed is below the bound of the layout, and nothing once the limit is reached; so the buffer behind
the next push is below that bound and the chunk, and so it is behind the first. -/
theorem backlog_bounded [SerdeJson] {request : Pb.ParseOptions} (ok : resolve request = .ok layout)
    (options : DecodeOptions) :
    (∀ chunk, ((RecordStream.new layout options).push chunk).buffer.length
      < layout.backlog + chunk.length) ∧
    ∀ calls stream, ((RecordStream.new layout options).calls calls).nextRecord = (.ok none, stream) →
      stream.pending.length < layout.backlog ∧
      (options.maxRecords ≠ 0 → options.maxRecords ≤ stream.recordsKept → stream.pending = []) ∧
      ∀ chunk, (stream.push chunk).buffer.length < layout.backlog + chunk.length := by
  have v := resolve_valid ok
  have push (stream : RecordStream) (lt : stream.pending.length < layout.backlog) (chunk) :
      (stream.push chunk).buffer.length < layout.backlog + chunk.length := by
    unfold RecordStream.push
    dsimp only
    split
    · simp only [List.length_nil]
      omega
    · rw [List.length_append]
      exact Nat.add_lt_add_right lt _
  constructor
  · intro chunk
    have fol := follows_new layout options
    have nf : ¬ (walkStart layout).Full options := fun full => full.1 (Nat.le_zero.mp full.2)
    have none : (dataFrom layout [] (walkStart layout).pos).length = 0 := by simp
    have settled : Settled layout options [] (walkStart layout) (RecordStream.new layout options) :=
      ⟨fol, fun _ => by simp [RecordStream.new]⟩
    exact push _ (settled.pending_lt v fun nf => recordStep_none layout nf none) chunk
  · intro calls stream idle
    obtain ⟨σ, fol⟩ := (follows_new layout options).calls calls
    obtain ⟨settled, wait⟩ := fol.idle v idle
    have lt := settled.pending_lt v wait
    refine ⟨lt, fun limited many => ?_, push stream lt⟩
    rw [settled.kept] at many
    exact (settled.full ⟨limited, many⟩).1

end Backlog

section Sample

attribute [local instance] asciiUnicode noJson

/-- A request for records that are a length byte and a filler. -/
def padRequest : Pb.ParseOptions where
  layoutSource := some (.layout {
    records := [{
      name := "pad"
      fields := [{ name := "", size := 1, type := 6, scale := 0, picture := "", offset := none }]
      selector := none }]
    recordLengthField := some
      { name := "LENGTH", size := 1, type := 3, scale := 0, picture := "", offset := none } })

/-- The layout of the request. -/
def padLayout : Layout where
  records := [{
    name := "pad"
    fields := [
      { name := "", offset := 0, size := 1, kind := .skip, scale := 0, picture := "",
        declaration := {} }]
    size := 1
    selector := none }]
  description := ""
  headerSize := 0
  footerSize := 0
  recordLengthField := some
    { name := "LENGTH", offset := 0, size := 1, kind := .unsignedInteger, scale := 0, picture := "",
      declaration := { path := "LENGTH" } }
  recordTypeField := none
  prefixSize := 1
  source := .proto

lemma resolve_pad : resolve padRequest = .ok padLayout := rfl

/-- Three records that declare nothing but their own prefix are three rows. -/
theorem drain_ends_sample :
    let stream := (RecordStream.new padLayout sampleOptions).calls [.push [1, 1, 1]]
    stream.drain.1.length = 3 ∧ stream.drain.1.length ≤ stream.available ∧
      stream.Drains stream.drain.1 stream.drain.2 :=
  have ends := (drain_ends resolve_pad sampleOptions [.push [1, 1, 1]]).2.1
  ⟨rfl, ends.2.1, ends.1⟩

/-- The footer and half a record of the sample input wait. -/
theorem backlog_bounded_sample :
    let stream := (RecordStream.new sampleLayout sampleOptions).calls [.push [0, 0, 5, 0xc1]]
    stream.nextRecord.2.pending.length = 2 ∧ stream.nextRecord.2.pending.length < 1 + 1 + 16777217 :=
  ⟨rfl, ((backlog_bounded resolve_sample sampleOptions).2 [.push [0, 0, 5, 0xc1]] _ rfl).1⟩

end Sample

end GrpcEbcdic

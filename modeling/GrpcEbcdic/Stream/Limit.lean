import GrpcEbcdic.Stream.Status

/-!
# `max_records`

A limited walk emits the first rows of the unlimited one. The limit also moves what the trailer calls
consumed: `buffer_base`, which is advanced over the header, over every record, and to the end of the
input once the limit is reached. The trailer calls a walk truncated as soon as it has as many records as
asked for, before it is known whether there are more.
-/

namespace GrpcEbcdic
open Rust Incremental

/-- The settings without a limit. -/
def DecodeOptions.unlimited (options : DecodeOptions) : DecodeOptions :=
  { options with maxRecords := 0 }

lemma not_full_unlimited (σ : WalkState) (options : DecodeOptions) :
    ¬ σ.Full options.unlimited := fun full => full.1 rfl

section Limited

variable [Unicode] {layout : Layout} {options : DecodeOptions}

/-- A limit that is not reached does not change what a step decides. -/
lemma recordStep_unlimited {σ : WalkState} {xs : List UInt8}
    (go : recordStep layout options σ xs ≠ .stop) :
    recordStep layout options.unlimited σ xs = recordStep layout options σ xs := by
  have nf : ¬ σ.Full options := mt recordStep_stop.mpr go
  rw [recordStep, recordStep, if_neg nf, if_neg (not_full_unlimited σ options)]
  rfl

/-- A limited run emits what the unlimited one does, up to the limit. -/
lemma run_limited (v : layout.Valid) (limited : options.maxRecords ≠ 0) (σ : WalkState)
    (xs : List UInt8) :
    ((recordReader v options).run σ xs).1
      = ((recordReader v options.unlimited).run σ xs).1.take
          (options.maxRecords - σ.recordsKept) := by
  have same {σ xs} {st : Step WalkState Pb.RecordRow ParseError}
      (go : recordStep layout options σ xs = st) (ne : st ≠ .stop) :
      (recordReader v options.unlimited).step σ xs = st :=
    (recordStep_unlimited (go ▸ ne)).trans go
  induction σ, xs using (recordReader v options).run_induction with
  | wait σ xs st =>
    rw [(recordReader v options).run_wait st, Reader.run_wait _ (same st (by simp))]
    exact List.take_nil.symm
  | stop σ xs st =>
    have full := recordStep_stop.mp st
    rw [(recordReader v options).run_stop st, Nat.sub_eq_zero_of_le full.2, List.take_zero]
  | fail σ xs e st =>
    rw [(recordReader v options).run_fail st, Reader.run_fail _ (same st (by simp))]
    exact List.take_nil.symm
  | emit σ xs r n σ' st ih =>
    obtain ⟨_, _, _, nf, _, _, _, _, _, _, rfl⟩ := recordStep_emit.mp st
    have more : options.maxRecords - σ.recordsKept
        = options.maxRecords - (σ.recordsKept + 1) + 1 := by
      rw [WalkState.Full] at nf
      omega
    rw [(recordReader v options).run_emit st, Reader.run_emit _ (same st (by simp)), ih, more,
      List.take_succ_cons]
    rfl

/-- A limited walk emits the first rows of the unlimited one. -/
lemma walk_limited (v : layout.Valid) (limited : options.maxRecords ≠ 0)
    (chunks : List (List UInt8)) :
    (walk layout options chunks).1
      = (walk layout options.unlimited chunks).1.take options.maxRecords := by
  rw [walk_eq v, walk_eq v]
  dsimp only [wholeWalk]
  rw [batch, run_limited v limited, List.map_take]
  rfl

/-- The last row of a full walk is the one the limit names. -/
lemma getLast?_limited (v : layout.Valid) (limited : options.maxRecords ≠ 0)
    {chunks : List (List UInt8)} (full : options.maxRecords ≤ (walk layout options chunks).1.length) :
    (walk layout options chunks).1.getLast?
      = (walk layout options.unlimited chunks).1[options.maxRecords - 1]? := by
  rw [walk_limited v limited] at full ⊢
  have len := full
  rw [List.length_take] at len
  rw [List.getLast?_eq_getElem?, List.length_take, min_eq_left (by omega),
    List.getElem?_take_of_lt (by omega)]

/-- A walk that is not full met no record the limit names. -/
lemma getElem?_limited (v : layout.Valid) (limited : options.maxRecords ≠ 0)
    {chunks : List (List UInt8)} (few : (walk layout options chunks).1.length < options.maxRecords) :
    (walk layout options.unlimited chunks).1[options.maxRecords - 1]? = none := by
  rw [walk_limited v limited, List.length_take] at few
  rw [List.getElem?_eq_none_iff]
  omega

/-- The trailer's `bytes_consumed` counts record data exactly when the walk skips no header byte and, if
the input holds the record the limit names, that record ends with the input. -/
theorem bytesConsumed_iff [SerdeJson] {request : Pb.ParseOptions} {chunks : List (List UInt8)}
    {rows : List Pb.RecordRow} {status : Pb.ParseStatus} (ok : resolve request = .ok layout)
    (run : walk layout options chunks = (rows, .finished (.ok status))) :
    (status.bytesConsumed = rowBytes rows ∧
      (status.truncated = false →
        layout.headerSize + layout.footerSize ≤ status.bytesReceived →
        status.bytesReceived = layout.headerSize + status.bytesConsumed + status.trailingBytes
          + layout.footerSize)) ↔
    (min layout.headerSize (chunks.flatten.length - layout.footerSize) = 0 ∧
      (options.maxRecords ≠ 0 → ∀ row,
        (walk layout options.unlimited chunks).1[options.maxRecords - 1]? = some row →
        row.byteOffset + row.byteLength = chunks.flatten.length)) := by
  have v := resolve_valid ok
  obtain ⟨σ, at_end, res⟩ := walk_finished v run
  obtain ⟨_, rfl⟩ := RecordStream.status_ok res.symm
  have pos := at_end.pos_eq
  have rows_eq : (walk layout options chunks).1 = rows := by rw [run]
  simp only [RecordStream.trailer]
  by_cases full : σ.Full options
  · -- The limit moved the cursor to the end of the input.
    obtain ⟨limited, many⟩ := (at_end.full_iff options).mp full
    have ne : rows ≠ [] := by
      rintro rfl
      exact limited (Nat.le_zero.mp many)
    have room := at_end.room ne
    have last := List.getLast?_eq_some_getLast ne
    have stop := at_end.tiles.last _ last
    have named := getLast?_limited v limited (rows_eq ▸ many)
    rw [rows_eq, last] at named
    rw [← named]
    simp only [atEnd, full, if_true, decide_true, Bool.true_eq_false, false_implies, and_true,
      Option.some.injEq, forall_eq', stop]
    omega
  · have few (limited : options.maxRecords ≠ 0) : rows.length < options.maxRecords := by
      by_contra many
      exact full ((at_end.full_iff options).mpr ⟨limited, Nat.not_lt.mp many⟩)
    have free : options.maxRecords ≠ 0 → ∀ row,
        (walk layout options.unlimited chunks).1[options.maxRecords - 1]? = some row →
        row.byteOffset + row.byteLength = chunks.flatten.length := fun limited row at_limit => by
      rw [getElem?_limited v limited (rows_eq ▸ few limited)] at at_limit
      cases at_limit
    -- Below the limit the second condition speaks of no row, and only the header is left.
    refine Iff.trans ?_ (and_iff_left free).symm
    rw [atEnd_leftover layout chunks.flatten.length full]
    simp only [atEnd, full, if_false, decide_false, true_implies]
    by_cases ne : rows = []
    · subst ne
      simp only [rowBytes, List.map_nil, List.sum_nil] at pos ⊢
      omega
    · have room := at_end.room ne
      omega

/-- The bytes an input holds between the end of the last emitted row and the footer. -/
def BytesLeft (layout : Layout) (length : Nat) (rows : List Pb.RecordRow) : Prop :=
  layout.headerSize + rowBytes rows + layout.footerSize < length

/-- Whether an input is the header, exactly `count` whole records, and the footer. -/
def HoldsExactly (layout : Layout) (options : DecodeOptions) (chunks : List (List UInt8))
    (count : Nat) : Prop :=
  let rows := (walk layout options.unlimited chunks).1
  rows.length = count ∧
    layout.headerSize + rowBytes rows + layout.footerSize = chunks.flatten.length

/-- What `truncated` is to mean: the walk was cut, with bytes left to decode. -/
structure MeansCut (layout : Layout) (options : DecodeOptions) (chunks : List (List UInt8))
    (rows : List Pb.RecordRow) (status : Pb.ParseStatus) : Prop where
  flag : status.truncated = true ↔
    rows.length = options.maxRecords ∧ BytesLeft layout chunks.flatten.length rows
  warning : status.HasWarning .maxRecordsReached ↔
    rows.length = options.maxRecords ∧ BytesLeft layout chunks.flatten.length rows
  /-- An input that holds no more than the limit is reported as without one. -/
  exact : HoldsExactly layout options chunks options.maxRecords →
    (walk layout options.unlimited chunks).2 = .finished (.ok status)

/-- The rows of any walk tile the input behind its header, before the footer. -/
lemma walk_tiles (v : layout.Valid) (options : DecodeOptions) (chunks : List (List UInt8)) :
    ∃ stop, Tiles layout.headerSize (walk layout options chunks).1 stop ∧
      ∀ row ∈ (walk layout options chunks).1,
        row.byteOffset + row.byteLength + layout.footerSize ≤ chunks.flatten.length := by
  obtain ⟨σ, _, _, tiles, _, inside, _⟩ := batch_rows v options chunks.flatten
  rw [walk_eq v]
  exact ⟨σ.pos, tiles, inside⟩

/-- A walk that the limit cut with nothing left is the unlimited one. -/
lemma holdsExactly_of_full (v : layout.Valid) (limited : options.maxRecords ≠ 0)
    {chunks : List (List UInt8)} {rows : List Pb.RecordRow} {σ : WalkState}
    (rows_eq : (walk layout options chunks).1 = rows)
    (at_end : EndsAt layout chunks.flatten.length rows σ) (many : options.maxRecords ≤ rows.length)
    (none_left : ¬ BytesLeft layout chunks.flatten.length rows) :
    HoldsExactly layout options chunks options.maxRecords := by
  have taken := walk_limited v limited chunks
  rw [rows_eq] at taken
  have ne : rows ≠ [] := by
    rintro rfl
    exact limited (Nat.le_zero.mp many)
  have room := at_end.room ne
  rw [at_end.pos_eq] at room
  obtain ⟨stop, tiles, inside⟩ := walk_tiles v options.unlimited chunks
  unfold HoldsExactly
  generalize (walk layout options.unlimited chunks).1 = all at taken tiles inside ⊢
  rw [← List.take_append_drop options.maxRecords all, ← taken] at tiles
  cases more : all.drop options.maxRecords with
  | nil =>
    have all_eq : all = rows := by
      rw [← List.take_append_drop options.maxRecords all, more, ← taken, List.append_nil]
    have few : rows.length ≤ options.maxRecords := by
      rw [taken]
      exact List.length_take_le _ _
    unfold BytesLeft at none_left
    rw [all_eq]
    exact ⟨le_antisymm few many, by omega⟩
  | cons row rest =>
    -- One more record would lie between the last row and the footer.
    rw [more] at tiles
    have mem : row ∈ all := List.mem_of_mem_drop (more ▸ List.mem_cons_self)
    have offset := tiles.offset
    have pos := tiles.mem (List.mem_append_right rows List.mem_cons_self)
    have before := inside row mem
    unfold BytesLeft rowBytes at none_left
    omega

/-- The trailer says truthfully whether the limit cut the walk unless the input is exactly as many whole
records as the limit. -/
theorem truncated_iff [SerdeJson] {request : Pb.ParseOptions} {chunks : List (List UInt8)}
    {rows : List Pb.RecordRow} {status : Pb.ParseStatus} (ok : resolve request = .ok layout)
    (limited : 1 ≤ options.maxRecords)
    (run : walk layout options chunks = (rows, .finished (.ok status))) :
    MeansCut layout options chunks rows status ↔
      ¬ HoldsExactly layout options chunks options.maxRecords := by
  have v := resolve_valid ok
  have on : options.maxRecords ≠ 0 := Nat.one_le_iff_ne_zero.mp limited
  obtain ⟨σ, at_end, res⟩ := walk_finished v run
  have rows_eq : (walk layout options chunks).1 = rows := by rw [run]
  have taken := walk_limited v on chunks
  rw [rows_eq] at taken
  have few : rows.length ≤ options.maxRecords := taken ▸ List.length_take_le _ _
  -- Both signs of a cut say only that the limit was reached, whatever was left.
  have flag : status.truncated = true ↔ rows.length = options.maxRecords := by
    obtain ⟨_, rfl⟩ := RecordStream.status_ok res.symm
    refine decide_eq_true_iff.trans ((at_end.full_iff options).trans ?_)
    omega
  have warning : status.HasWarning .maxRecordsReached ↔ rows.length = options.maxRecords := by
    apply (RecordStream.status_cut res.symm).trans
    apply (and_congr_right' (decide_eq_true_iff.trans (at_end.full_iff options))).trans
    constructor
    · rintro ⟨_, _, many⟩
      exact le_antisymm few many
    · intro count
      have ne : rows ≠ [] := by
        rintro rfl
        exact on count.symm
      have room := at_end.room ne
      rw [at_end.pos_eq] at room
      refine ⟨?_, on, count.ge⟩
      simp only [atEnd]
      omega
  constructor
  · rintro means ⟨count, exact⟩
    -- All the records of such an input are emitted, and the flag is set with nothing left.
    have all : (walk layout options.unlimited chunks).1 = rows := by
      rw [taken, List.take_of_length_le count.le]
    rw [all] at count exact
    have left := (means.flag.mp (flag.mpr count)).2
    unfold BytesLeft at left
    omega
  · intro not_exact
    have left (count : rows.length = options.maxRecords) :
        BytesLeft layout chunks.flatten.length rows := by
      by_contra none_left
      exact not_exact (holdsExactly_of_full v on rows_eq at_end count.ge none_left)
    have cut : rows.length = options.maxRecords ↔
        rows.length = options.maxRecords ∧ BytesLeft layout chunks.flatten.length rows :=
      ⟨fun count => ⟨count, left count⟩, And.left⟩
    exact ⟨flag.trans cut, warning.trans cut, fun holds => absurd holds not_exact⟩

end Limited

section Sample

attribute [local instance] asciiUnicode noJson

/-- The header of the sample input is called consumed along with its record. -/
theorem bytesConsumed_counts_header :
    resolve sampleRequest = .ok sampleLayout ∧
      walk sampleLayout sampleOptions sampleChunks
        = ([sampleRow], .finished (.ok sampleStatus)) ∧
      sampleStatus.bytesConsumed ≠ rowBytes [sampleRow] :=
  ⟨resolve_sample, walk_sample, by decide⟩

theorem bytesConsumed_iff_sample :
    ¬ (sampleStatus.bytesConsumed = rowBytes [sampleRow] ∧
      (sampleStatus.truncated = false →
        sampleLayout.headerSize + sampleLayout.footerSize ≤ sampleStatus.bytesReceived →
        sampleStatus.bytesReceived = sampleLayout.headerSize + sampleStatus.bytesConsumed
          + sampleStatus.trailingBytes + sampleLayout.footerSize)) :=
  fun counts => absurd ((bytesConsumed_iff resolve_sample walk_sample).mp counts).1 (by decide)

/-- The sample settings with a limit of one record. -/
def limitedOptions : DecodeOptions := { sampleOptions with maxRecords := 1 }

/-- The trailer of the sample input under that limit. -/
def limitedStatus : Pb.ParseStatus where
  recordsKept := 1
  bytesReceived := 8
  bytesConsumed := 8
  trailingBytes := 0
  truncated := true
  warnings := [{
    code := 2
    message := "stopped after 1 records; 0 bytes of input were not decoded"
    byteOffset := 8 }]
  rowsPerRecordType := [("sale", 1)]

/-- A limit that cuts nothing is reported as if it had. -/
theorem truncated_at_exact :
    resolve sampleRequest = .ok sampleLayout ∧
      walk sampleLayout limitedOptions sampleChunks
        = ([sampleRow], .finished (.ok limitedStatus)) ∧
      ¬ MeansCut sampleLayout limitedOptions sampleChunks [sampleRow] limitedStatus :=
  ⟨resolve_sample, rfl, fun means => (Nat.lt_irrefl 8) (means.flag.mp rfl).2⟩

/-- The sample input with one byte more before its footer. -/
def longerChunks : List (List UInt8) := [[0, 0, 5, 0xc1], [0xc2, 0x12, 0x3c, 0x05, 0xff]]

theorem truncated_iff_sample :
    MeansCut sampleLayout limitedOptions longerChunks [sampleRow]
      { limitedStatus with
        bytesReceived := 9
        bytesConsumed := 9
        warnings := [{
          code := 2
          message := "stopped after 1 records; 0 bytes of input were not decoded"
          byteOffset := 9 }] } :=
  (truncated_iff resolve_sample (Nat.le_refl 1) rfl).mpr fun ⟨_, length⟩ =>
    absurd (show 8 = 9 from length) (by decide)

end Sample

end GrpcEbcdic

import GrpcEbcdic.Stream.Tiling
import GrpcEbcdic.Stream.Bounds

/-!
# The declared length

A length field is decoded to an `i128`, from which the size of the prefix is subtracted. The numbers a
field can spell reach down to the least `i128` in two of the kinds only: a signed binary number of
sixteen bytes, and a text. There the subtraction wraps around, and nowhere else.
-/

namespace GrpcEbcdic
open Rust Fallible

/-- Subtracting a small number wraps around exactly near the least `i128`. -/
lemma fitsI128_sub_iff {n : Int} {k : Nat} (fits : FitsI128 n) :
    FitsI128 (n - k) ↔ ¬ n + 2 ^ 127 < k := by
  unfold FitsI128 at fits ⊢
  omega

/-- Whether the bytes of a length field spell a number less than `k` above the least `i128`: the sixteen
bytes of a signed binary number, or the digits of a text behind a minus sign. -/
def SpellsLeast [Unicode] (k : Nat) (field : Field) (options : DecodeOptions) (bytes : List UInt8) : Prop :=
  match field.kind with
  | .integer => 2 ^ 127 ≤ bigEndian bytes ∧ bigEndian bytes < 2 ^ 127 + k
  | .text => ∃ text digits n,
      decodeText options.codec bytes options.stripControlCharacters = .ok text ∧
      trim text.toList = '-' :: digits ∧ parseDigits digits = some n ∧
      2 ^ 127 < n + k ∧ n ≤ 2 ^ 127
  | _ => False

/-- Among the texts that parse, those of the least numbers are digits behind a minus sign. -/
lemma parseI128_least {cs : List Char} {k : Nat} (small : k < 2 ^ 64) :
    (∃ n, parseI128 cs = some n ∧ n + 2 ^ 127 < k) ↔
      ∃ digits m, cs = '-' :: digits ∧ parseDigits digits = some m ∧ 2 ^ 127 < m + k ∧ m ≤ 2 ^ 127 := by
  constructor
  · rintro ⟨n, ok, least⟩
    unfold parseI128 at ok
    split at ok
    · next digits =>
      obtain ⟨m, parsed, ok⟩ := Option.bind_eq_some_iff.mp ok
      split_ifs at ok with le
      cases ok
      exact ⟨digits, m, rfl, parsed, by omega, le⟩
    · obtain ⟨m, parsed, ok⟩ := Option.bind_eq_some_iff.mp ok
      split_ifs at ok
      cases ok
      omega
  · rintro ⟨digits, m, rfl, parsed, near, le⟩
    refine ⟨-(m : Int), ?_, by omega⟩
    rw [parseI128, parsed, Option.bind_some, if_pos le]

/-- A signed binary number is one of the least when its bytes are those of a number just beyond the
greatest. -/
lemma decodeBinary_least {bytes : List UInt8} {k : Nat} (width : bytes.length ≤ maxBinaryBytes)
    (small : k < 2 ^ 64) :
    (∃ n, decodeBinary bytes true = .ok n ∧ n + 2 ^ 127 < k) ↔
      2 ^ 127 ≤ bigEndian bytes ∧ bigEndian bytes < 2 ^ 127 + k := by
  simp only [decodeBinary_ok]
  cases bytes with
  | nil => simp [bigEndian]
  | cons first rest =>
    have rest_lt := bigEndian_lt rest
    have first_lt := first.toNat_lt
    have whole_lt := bigEndian_lt (first :: rest)
    rw [List.length_cons] at width whole_lt
    simp only [bigEndian_cons, List.length_cons, List.head?_cons] at whole_lt ⊢
    unfold maxBinaryBytes at width ⊢
    obtain narrow | wide : rest.length ≤ 14 ∨ rest.length = 15 := by omega
    · -- A narrower number is nowhere near the bounds.
      have le : 256 ^ (rest.length + 1) ≤ 256 ^ 15 := Nat.pow_le_pow_right (by omega) (by omega)
      have cast : ((256 ^ (rest.length + 1) : Nat) : Int) = 256 ^ (rest.length + 1) := by
        push_cast
        rfl
      refine iff_of_false ?_ (by omega)
      rintro ⟨n, ⟨_, _, _, _, rfl⟩, least⟩
      rw [← cast] at least
      split_ifs at least <;> omega
    · rw [wide] at rest_lt whole_lt ⊢
      constructor
      · rintro ⟨n, ⟨byte, head, _, _, rfl⟩, least⟩
        cases head
        split_ifs at least with negative <;> omega
      · rintro ⟨high, near⟩
        have negative : 0x80 ≤ first.toNat := by omega
        refine ⟨_, ⟨first, rfl, le_rfl, by simp, rfl⟩, ?_⟩
        rw [if_pos ⟨trivial, negative⟩]
        omega

/-- A length field declares one of the least numbers when its bytes spell one. -/
lemma spellsLeast_iff [Unicode] {field : Field} {options : DecodeOptions} {bytes : List UInt8}
    {k : Nat} (width : bytes.length ≤ widthLimit field.kind) (small : k < 2 ^ 64) :
    (∃ value n, decodeField field bytes options = .ok value ∧ value.toLength = some n ∧
      n + 2 ^ 127 < k) ↔ SpellsLeast k field options bytes := by
  -- A number is its own length, so only how far down the decoder reaches matters.
  have number {res : Except ParseError Int} :
      (∃ value n, res.map (FieldValue.number · field.scale) = .ok value ∧ value.toLength = some n ∧
        n + 2 ^ 127 < k) ↔ ∃ n, res = .ok n ∧ n + 2 ^ 127 < k := by
    simp only [map_eq_ok]
    constructor
    · rintro ⟨_, n, ⟨m, dec, rfl⟩, len, least⟩
      cases len
      exact ⟨_, dec, least⟩
    · rintro ⟨n, dec, least⟩
      exact ⟨_, n, ⟨n, dec, rfl⟩, rfl, least⟩
  unfold SpellsLeast decodeField
  cases kind : field.kind with
  | text =>
    simp only [map_eq_ok]
    constructor
    · rintro ⟨_, n, ⟨text, dec, rfl⟩, len, least⟩
      obtain ⟨digits, m, eq, h⟩ := (parseI128_least small).mp ⟨n, len, least⟩
      exact ⟨text, digits, m, dec, eq, h⟩
    · rintro ⟨text, digits, m, dec, eq, h⟩
      obtain ⟨n, len, least⟩ := (parseI128_least small).mpr ⟨digits, m, eq, h⟩
      exact ⟨_, n, ⟨text, dec, rfl⟩, len, least⟩
  | integer =>
    rw [kind] at width
    exact number.trans (decodeBinary_least width small)
  | unsignedInteger =>
    refine number.trans (iff_false_intro ?_)
    rintro ⟨n, dec, least⟩
    obtain ⟨first, _, _, _, rfl⟩ := decodeBinary_ok.mp dec
    simp only [Bool.false_eq_true, false_and, if_false] at least
    omega
  | packedDecimal =>
    rw [kind] at width
    refine number.trans (iff_false_intro ?_)
    rintro ⟨n, dec, least⟩
    have far := decodePacked_lt dec width
    omega
  | zonedDecimal =>
    rw [kind] at width
    refine number.trans (iff_false_intro ?_)
    rintro ⟨n, dec, least⟩
    have far := decodeZoned_lt dec width
    omega
  | skip =>
    apply iff_false_intro
    rintro ⟨_, n, ok, len, _⟩
    cases ok
    cases len

/-- The body a declared length leaves behind the prefix, or why it is none, in exact arithmetic. -/
def exactBodySize (layout : Layout) (base : Nat) (length : Int) : Except ParseError Nat :=
  let size := length - layout.prefixSize
  if size < 0 then
    .error (.invalid (s!"record at byte {base} declares length {length}, " ++
      s!"shorter than its own {layout.prefixSize}-byte prefix"))
  else if 2 ^ 64 ≤ size then
    .error (.invalid s!"record at byte {base} declares an unusable length {size}")
  else if maxRecordBytes < size then
    .error (.unsupported (s!"record at byte {base} declares a {size.toNat}-byte body; this " ++
      s!"build decodes records up to {maxRecordBytes} bytes"))
  else .ok size.toNat

/-- Where the subtraction does not wrap around, the decision is the exact one. -/
lemma bodySize_exact {layout : Layout} {base : Nat} {record : RecordLayout} {length : Int}
    (fits : FitsI128 (length - layout.prefixSize)) :
    bodySize layout base record (some length) = exactBodySize layout base length := by
  unfold bodySize exactBodySize
  simp only [bodyLength, wrapI128_of_fits fits, Option.getD_some]
  generalize length - layout.prefixSize = size
  by_cases negative : size < 0
  · rw [if_pos negative, if_pos negative]
  · rw [if_neg negative, if_neg negative]
    by_cases huge : 2 ^ 64 ≤ size
    · rw [if_pos huge, toUsize_none.mpr (.inr huge)]
    · obtain ⟨n, rfl⟩ := Int.eq_ofNat_of_zero_le (Int.not_lt.mp negative)
      rw [if_neg huge, toUsize_some.mpr ⟨rfl, Int.not_le.mp huge⟩]
      simp only [Int.ofNat_lt, Int.toNat_natCast]

section Exact

variable [Unicode] (layout : Layout) (options : DecodeOptions) (base : Nat) (pending : List UInt8)

/-- Whether the prefix of a record picks a schema. -/
def PicksSchema : Prop :=
  ∃ recordType record, readType layout options pending = .ok recordType ∧
    layout.select recordType = some record

/-- What reading a prefix does when its arithmetic is exact. -/
structure ExactPrefix : Prop where
  /-- A length field that spells no number is an error. -/
  unreadable : ∀ e, readLength layout options base pending = .error e →
    readPrefix layout options base pending = .error e
  /-- A declared length stays in range, and is decided on by its exact value. -/
  exact : ∀ length recordType record,
    readLength layout options base pending = .ok (some length) →
    readType layout options pending = .ok recordType →
    layout.select recordType = some record →
    FitsI128 length ∧ FitsI128 (length - layout.prefixSize) ∧
      readPrefix layout options base pending
        = (exactBodySize layout base length).map (record, ·)

variable {layout options base pending}

/-- A prefix that is read up to the schema leaves the decision to the body size. -/
lemma readPrefix_picked {declared : Option Int} {recordType : Option String} {record : RecordLayout}
    (length : readLength layout options base pending = .ok declared)
    (type : readType layout options pending = .ok recordType)
    (sel : layout.select recordType = some record) :
    readPrefix layout options base pending
      = (bodySize layout base record declared).map (record, ·) := by
  unfold readPrefix
  rw [length, type, ok_bind, ok_bind, sel]
  dsimp only
  cases bodySize layout base record declared <;> rfl

/-- A length field declares what its bytes spell. -/
lemma readLength_some {field : Field} (has : layout.recordLengthField = some field) {length : Int} :
    readLength layout options base pending = .ok (some length) ↔
      ∃ value, decodeField field (slice pending 0 field.size) options = .ok value ∧
        value.toLength = some length := by
  unfold readLength
  rw [has]
  dsimp only
  cases dec : decodeField field (slice pending 0 field.size) options with
  | error e => simp
  | ok value =>
    cases len : value.toLength <;> simp [len]

/-- The arithmetic on a record prefix is exact unless its bytes spell one of the least numbers of the
accumulator in front of a record type that has a schema. -/
theorem exactPrefix_iff [SerdeJson] {request : Pb.ParseOptions} (ok : resolve request = .ok layout)
    {field : Field} (has : layout.recordLengthField = some field) (options : DecodeOptions)
    (base : Nat) (pending : List UInt8) :
    ExactPrefix layout options base pending ↔
      ¬ (SpellsLeast layout.prefixSize field options (slice pending 0 field.size) ∧
        PicksSchema layout options pending) := by
  have v := resolve_valid ok
  have small := v.prefix_lt
  have width : (slice pending 0 field.size).length ≤ widthLimit field.kind := by
    have le := (v.lengthField field has).1.width
    rw [slice_length]
    omega
  rw [← spellsLeast_iff width small]
  constructor
  · rintro ⟨_, exact⟩ ⟨⟨value, n, dec, len, least⟩, recordType, record, type, sel⟩
    obtain ⟨fits, sub, _⟩ := exact n recordType record ((readLength_some has).mpr ⟨value, dec, len⟩)
      type sel
    exact (fitsI128_sub_iff fits).mp sub least
  · intro clear
    refine ⟨fun e failed => ?_, fun length recordType record declared type sel => ?_⟩
    · unfold readPrefix
      rw [failed]
      rfl
    · obtain ⟨value, dec, len⟩ := (readLength_some has).mp declared
      have fits := decodeField_fits dec width len
      have sub : FitsI128 (length - layout.prefixSize) := (fitsI128_sub_iff fits).mpr fun least =>
        clear ⟨⟨value, length, dec, len, least⟩, recordType, record, type, sel⟩
      rw [readPrefix_picked declared type sel, bodySize_exact sub]
      exact ⟨fits, sub, rfl⟩

end Exact

section Short

variable [Unicode]

/-- A cell is decoded when its bytes are there and decode. -/
lemma decodeCell_ok {record : RecordLayout} {body : List UInt8} {options : DecodeOptions}
    {field : Field} :
    (∃ cell, decodeCell record body options field = .ok cell) ↔
      ∃ bytes, getSlice body field.offset field.stop = some bytes ∧
        ∃ value, decodeField field bytes options = .ok value := by
  unfold decodeCell
  cases getSlice body field.offset field.stop with
  | none => simp
  | some bytes =>
    simp only [Option.some.injEq, exists_eq_left']
    cases decodeField field bytes options with
    | error e => simp
    | ok value => exact ⟨fun _ => ⟨value, rfl⟩, fun _ => ⟨_, rfl⟩⟩

/-- Whether a data field of a schema reaches beyond the declared bytes of a record, or its bytes there
do not decode. -/
def Undecodable (stream : RecordStream) (length : Int) (field : Field) : Prop :=
  length < stream.layout.prefixSize + field.stop ∨
    ∃ e, decodeField field
      (slice stream.pending (stream.layout.prefixSize + field.offset)
        (stream.layout.prefixSize + field.stop)) stream.options = .error e

/-- The cells of a record fail to decode exactly when a data field does. -/
lemma decodeCells_error {stream : RecordStream} (record : RecordLayout) {total : Nat}
    (le : stream.layout.prefixSize ≤ total) (there : total ≤ stream.pending.length) :
    (∃ e, decodeCells record (slice stream.pending stream.layout.prefixSize total) stream.options
        = .error e) ↔
      ∃ field ∈ record.fields, field.kind ≠ .skip ∧ Undecodable stream total field := by
  have cell (field : Field) :
      (¬ ∃ cell, decodeCell record (slice stream.pending stream.layout.prefixSize total)
        stream.options field = .ok cell) ↔ Undecodable stream total field := by
    rw [decodeCell_ok, Undecodable, error_iff]
    by_cases fits : stream.layout.prefixSize + field.stop ≤ total
    · have stop : field.stop
          ≤ (slice stream.pending stream.layout.prefixSize total).length := by
        rw [slice_length]
        omega
      have near : ¬ (total : Int) < stream.layout.prefixSize + field.stop := by omega
      have order : field.offset ≤ field.stop := Nat.le_add_right _ _
      rw [getSlice_eq order stop, slice_slice fits, or_iff_right near]
      simp only [Option.some.injEq, exists_eq_left']
    · have far : (total : Int) < stream.layout.prefixSize + field.stop := by omega
      have out : getSlice (slice stream.pending stream.layout.prefixSize total) field.offset
          field.stop = none := by
        apply if_neg
        rw [slice_length]
        omega
      simp [out, far]
  rw [decodeCells, error_iff, mapM_ok_iff]
  simp only [List.mem_filter, decide_eq_true_eq, not_forall, exists_prop, cell, and_assoc]

/-- The stream once it has skipped what it can of the header. -/
def RecordStream.front (stream : RecordStream) : RecordStream :=
  if 0 < stream.headerLeft then stream.skipHeader else stream

/-- Asking for the next record behind the header. -/
lemma RecordStream.nextRecord_front {stream : RecordStream} (uncut : stream.truncated = false)
    (behind : stream.front.headerLeft = 0) : stream.nextRecord = stream.front.nextBody := by
  unfold RecordStream.nextRecord
  rw [uncut, if_neg Bool.false_ne_true]
  exact if_neg (Nat.not_lt.mpr behind.le)

/-- A record declared shorter than its schema is refused exactly when some data field of the schema,
not only fillers, lies beyond the declared bytes, or one within them does not decode. -/
theorem short_refused_iff [SerdeJson] {request : Pb.ParseOptions} {stream : RecordStream}
    (ok : resolve request = .ok stream.layout) (uncut : stream.truncated = false)
    (behind : stream.front.headerLeft = 0) {length : Int} {recordType : Option String}
    {record : RecordLayout}
    (declared : readLength stream.layout stream.options stream.front.bufferBase stream.front.pending
      = .ok (some length))
    (type : readType stream.layout stream.options stream.front.pending = .ok recordType)
    (sel : stream.layout.select recordType = some record)
    (prefix_le : stream.layout.prefixSize ≤ length)
    (short : length < stream.layout.prefixSize + record.size)
    (arrived : length ≤ stream.front.available) :
    (∃ e, stream.nextRecord.1 = .error e) ↔
      ∃ field ∈ record.fields, field.kind ≠ .skip ∧ Undecodable stream.front length field := by
  have v := resolve_valid ok
  have small := (v.record record (Layout.select_mem sel)).size_le
  obtain ⟨total, rfl⟩ := Int.eq_ofNat_of_zero_le (le_trans (Int.natCast_nonneg _) prefix_le)
  obtain ⟨size, rfl⟩ := Nat.exists_eq_add_of_le (Int.ofNat_le.mp prefix_le)
  have layout_eq : stream.front.layout = stream.layout := by
    unfold RecordStream.front
    split <;> rfl
  have options_eq : stream.front.options = stream.options := by
    unfold RecordStream.front
    split <;> rfl
  -- The body is positive and below the limit of a record, so its length has no way to wrap.
  have body : bodySize stream.layout stream.front.bufferBase record
      (some (stream.layout.prefixSize + size : Nat)) = .ok size := by
    have fits : FitsI128 size := by
      unfold FitsI128
      unfold maxRecordBytes at small
      omega
    refine bodySize_ok.mpr ⟨?_, by omega⟩
    rw [bodyLength, Nat.cast_add, add_sub_cancel_left]
    exact wrapI128_of_fits fits
  have room := Int.ofNat_le.mp arrived
  have there : stream.layout.prefixSize + size ≤ stream.front.pending.length :=
    room.trans (min_le_right _ _)
  have prefix_le' : stream.front.layout.prefixSize ≤ stream.layout.prefixSize + size := by
    rw [layout_eq]
    exact Nat.le_add_right _ _
  have cells := decodeCells_error record prefix_le' there
  rw [RecordStream.nextRecord_front uncut behind, ← cells]
  unfold RecordStream.nextBody
  have long : ¬ stream.front.available < stream.layout.prefixSize + size := Nat.not_lt.mpr room
  have far : ¬ stream.front.available < stream.layout.prefixSize := by omega
  have data : ¬ (stream.layout.prefixSize = 0 ∧ stream.front.available = 0) := by
    have read := readPrefix_picked declared type sel
    rw [body] at read
    have pos := readPrefix_pos v read
    omega
  -- Every check before the cells passes, so the call fails exactly when one of them does.
  simp only [layout_eq, options_eq, far, data, if_false, readPrefix_picked declared type sel, body,
    Except.map, long]
  cases decodeCells record (slice stream.front.pending stream.layout.prefixSize
    (stream.layout.prefixSize + size)) stream.options <;> simp

end Short

section Sample

attribute [local instance] asciiUnicode noJson

/-- A request for records behind a signed binary length of sixteen bytes. -/
def wideRequest : Pb.ParseOptions where
  layoutSource := some (.layout {
    records := [{
      name := "sale"
      fields := [
        { name := "ITEM", size := 1, type := 1, scale := 0, picture := "", offset := none }]
      selector := none }]
    recordLengthField := some
      { name := "LENGTH", size := 16, type := 2, scale := 0, picture := "", offset := none } })

/-- The layout of that request. -/
def wideLayout : Layout where
  records := [{
    name := "sale"
    fields := [
      { name := "ITEM", offset := 0, size := 1, kind := .text, scale := 0, picture := "",
        declaration := { path := "ITEM" } }]
    size := 1
    selector := none }]
  description := ""
  headerSize := 0
  footerSize := 0
  recordLengthField := some
    { name := "LENGTH", offset := 0, size := 16, kind := .integer, scale := 0, picture := "",
      declaration := { path := "LENGTH" } }
  recordTypeField := none
  prefixSize := 16
  source := .proto

/-- The bytes of the least `i128`. -/
def leastBytes : List UInt8 := 0x80 :: List.replicate 15 0

/-- The prefix of a record that declares the least `i128` wraps around. -/
theorem exactPrefix_wraps :
    resolve wideRequest = .ok wideLayout ∧
      ¬ ExactPrefix wideLayout sampleOptions 0 leastBytes := by
  refine ⟨rfl, fun ⟨_, exact⟩ => ?_⟩
  obtain ⟨_, sub, _⟩ := exact (-2 ^ 127) none _ rfl rfl rfl
  exact absurd sub.1 (by decide)

theorem exactPrefix_iff_sample : ExactPrefix sampleLayout sampleOptions 2 [5] :=
  (exactPrefix_iff resolve_sample rfl sampleOptions 2 [5]).mpr fun least => least.1

/-- A request for records that end in a filler. -/
def fillerRequest : Pb.ParseOptions where
  layoutSource := some (.layout {
    records := [{
      name := "sale"
      fields := [
        { name := "ITEM", size := 1, type := 1, scale := 0, picture := "", offset := none },
        { name := "", size := 1, type := 6, scale := 0, picture := "", offset := none }]
      selector := none }]
    recordLengthField := some
      { name := "LENGTH", size := 1, type := 3, scale := 0, picture := "", offset := none } })

/-- The schema of that request. -/
def fillerRecord : RecordLayout where
  name := "sale"
  fields := [
    { name := "ITEM", offset := 0, size := 1, kind := .text, scale := 0, picture := "",
      declaration := { path := "ITEM" } },
    { name := "", offset := 1, size := 1, kind := .skip, scale := 0, picture := "",
      declaration := {} }]
  size := 2
  selector := none

/-- The layout of that request. -/
def fillerLayout : Layout where
  records := [fillerRecord]
  description := ""
  headerSize := 0
  footerSize := 0
  recordLengthField := some
    { name := "LENGTH", offset := 0, size := 1, kind := .unsignedInteger, scale := 0, picture := "",
      declaration := { path := "LENGTH" } }
  recordTypeField := none
  prefixSize := 1
  source := .proto

/-- A record declared as two bytes, all of which have arrived. -/
def fillerStream : RecordStream := (RecordStream.new fillerLayout sampleOptions).push [2, 0xc1]

/-- A record that lacks nothing but its filler is accepted. -/
theorem short_accepted :
    resolve fillerRequest = .ok fillerLayout ∧
      readLength fillerLayout sampleOptions 0 fillerStream.pending = .ok (some 2) ∧
      fillerLayout.select none = some fillerRecord ∧
      fillerLayout.prefixSize ≤ 2 ∧ 2 < fillerLayout.prefixSize + fillerRecord.size ∧
      2 ≤ fillerStream.available ∧
      ∃ row, fillerStream.nextRecord.1 = .ok (some row) :=
  ⟨rfl, rfl, rfl, by decide, by decide, by decide, _, rfl⟩

/-- The sample input with a record declared as three bytes. -/
def shortStream : RecordStream :=
  (RecordStream.new sampleLayout sampleOptions).push [0, 0, 3, 0xc1, 0xc2, 0xff]

theorem short_refused_iff_sample : ∃ e, shortStream.nextRecord.1 = .error e := by
  have declared : readLength sampleLayout sampleOptions 2 shortStream.front.pending
      = .ok (some 3) := rfl
  have type : readType sampleLayout sampleOptions shortStream.front.pending = .ok none := rfl
  have refused := @short_refused_iff asciiUnicode noJson _ shortStream resolve_sample rfl rfl _ _ _
    declared type rfl (by decide) (by decide) (by decide)
  exact refused.mpr ⟨_, List.mem_cons_of_mem _ List.mem_cons_self, by decide, .inl (by decide)⟩

end Sample

end GrpcEbcdic

import GrpcEbcdic.Stream.Walk
import GrpcEbcdic.Support.Incremental

/-!
# The walk as an incremental reader

What the walker does, without its buffer: a reader of record data whose symbols are the bytes between
the header and the footer. Its state is the position of the next record and the two counters; its step
reads one record off the bytes that are there. On a valid layout the step keeps the laws of an
incremental reader, so a run of it does not depend on how the bytes arrive.
-/

namespace GrpcEbcdic
open Rust Fallible

lemma slice_append {xs : List UInt8} {a b : Nat} (ys : List UInt8) (le : b ≤ xs.length) :
    slice (xs ++ ys) a b = slice xs a b := by
  rw [slice, slice, List.take_append_of_le_length le]

@[simp] lemma slice_length (xs : List UInt8) (a b : Nat) :
    (slice xs a b).length = min b xs.length - a := by
  simp [slice]

/-- A slice of a slice, counted from the start of the whole. -/
lemma slice_slice {xs : List UInt8} {a b c d : Nat} (le : a + d ≤ b) :
    slice (slice xs a b) c d = slice xs (a + c) (a + d) := by
  simp only [slice]
  rw [List.take_drop, List.drop_drop, List.take_take, min_eq_left le]

lemma slice_drop (xs : List UInt8) (k a b : Nat) :
    slice (xs.drop k) a b = slice xs (k + a) (k + b) := by
  simp only [slice]
  rw [List.take_drop, List.drop_drop]

lemma slice_take {xs : List UInt8} {k b : Nat} (a : Nat) (le : b ≤ k) :
    slice (xs.take k) a b = slice xs a b := by
  simp only [slice]
  rw [List.take_take, min_eq_left le]

/-- A slice that is all there. -/
lemma getSlice_eq {xs : List UInt8} {a b : Nat} (ab : a ≤ b) (le : b ≤ xs.length) :
    getSlice xs a b = some (slice xs a b) := if_pos ⟨ab, le⟩

lemma toUsize_some {n : Int} {k : Nat} : toUsize n = some k ↔ n = k ∧ (k : Int) < 2 ^ 64 := by
  unfold toUsize
  split
  · next h =>
    rw [Option.some.injEq]
    omega
  · next h =>
    simp only [false_iff, reduceCtorEq]
    omega

lemma toUsize_none {n : Int} : toUsize n = none ↔ n < 0 ∨ 2 ^ 64 ≤ n := by
  unfold toUsize
  split
  · next h =>
    simp only [false_iff, reduceCtorEq]
    omega
  · next h =>
    simp only [true_iff]
    omega

/-- A selected schema is one of the layout's. -/
lemma Layout.select_mem {layout : Layout} {recordType : Option String} {record : RecordLayout}
    (sel : layout.select recordType = some record) : record ∈ layout.records := by
  unfold Layout.select at sel
  cases h : layout.recordTypeField with
  | none =>
    rw [h] at sel
    exact List.mem_of_mem_head? sel
  | some f =>
    rw [h] at sel
    exact List.mem_of_find?_eq_some sel

/-- The body length is the declared length less the prefix, or that of the schema, when it is one this
build assembles. -/
lemma bodySize_ok {layout : Layout} {base : Nat} {record : RecordLayout} {declared : Option Int} {size : Nat} :
    bodySize layout base record declared = .ok size ↔
      bodyLength layout record declared = size ∧ size ≤ maxRecordBytes := by
  unfold bodySize
  rw [guard_eq_ok]
  cases h : toUsize (bodyLength layout record declared) with
  | none =>
    have ne := toUsize_none.mp h
    constructor
    · rintro ⟨_, ok⟩
      cases ok
    · rintro ⟨eq, le⟩
      rw [eq] at ne
      unfold maxRecordBytes at le
      omega
  | some n =>
    obtain ⟨eq, _⟩ := toUsize_some.mp h
    rw [guard_eq_ok, eq, Except.ok.injEq]
    constructor
    · rintro ⟨_, le, rfl⟩
      exact ⟨rfl, Nat.not_lt.mp le⟩
    · rintro ⟨eq, le⟩
      have eq : n = size := by exact_mod_cast eq
      subst eq
      exact ⟨by omega, Nat.not_lt.mpr le, rfl⟩

/-- Without a length field a record has the length of its schema. -/
lemma bodySize_none {layout : Layout} {base : Nat} {record : RecordLayout} {size : Nat}
    (ok : bodySize layout base record none = .ok size) : size = record.size := by
  obtain ⟨eq, _⟩ := bodySize_ok.mp ok
  simp only [bodyLength] at eq
  omega

/-- Where a walk stands between two records. -/
structure WalkState where
  /-- Absolute offset of the next record. -/
  pos : Nat
  recordsKept : Nat
  rowsPerType : List (String × Nat)

namespace WalkState

/-- Rows of a schema emitted so far. -/
def rowIndex (s : WalkState) (name : String) : Nat := (s.rowsPerType.lookup name).getD 0

/-- The state after one row of a schema that took `total` bytes. -/
def advance (s : WalkState) (record : RecordLayout) (total : Nat) : WalkState where
  pos := s.pos + total
  recordsKept := s.recordsKept + 1
  rowsPerType := AssocList.insert record.name (s.rowIndex record.name + 1) s.rowsPerType

/-- Whether the walk has all the records it was asked for. -/
def Full (options : DecodeOptions) (s : WalkState) : Prop :=
  options.maxRecords ≠ 0 ∧ options.maxRecords ≤ s.recordsKept

instance (options : DecodeOptions) (s : WalkState) : Decidable (s.Full options) :=
  inferInstanceAs (Decidable (_ ∧ _))

/-- The row of a record that starts here. -/
def row (s : WalkState) (record : RecordLayout) (total : Nat) (cells : List Pb.Cell) :
    Pb.RecordRow where
  recordType := record.name
  rowIndex := s.rowIndex record.name
  recordIndex := s.recordsKept
  byteOffset := s.pos
  byteLength := total
  cells := cells

end WalkState

/-- The state of a walk that has emitted nothing. -/
def walkStart (layout : Layout) : WalkState where
  pos := layout.headerSize
  recordsKept := 0
  rowsPerType := AssocList.collect (layout.records.map fun record => (record.name, 0))

variable [Unicode]

section Prefix

variable {layout : Layout} {options : DecodeOptions}

lemma readLength_append (v : layout.Valid) {base : Nat} {xs : List UInt8} (ys : List UInt8)
    (le : layout.prefixSize ≤ xs.length) :
    readLength layout options base (xs ++ ys) = readLength layout options base xs := by
  have eq := v.prefix_eq
  unfold readLength
  cases h : layout.recordLengthField with
  | none => rfl
  | some f =>
    simp only [h, optionalSize, Option.map_some, Option.getD_some] at eq
    simp only [slice_append ys (show f.size ≤ xs.length by omega)]

lemma readType_append (v : layout.Valid) {xs : List UInt8} (ys : List UInt8)
    (le : layout.prefixSize ≤ xs.length) :
    readType layout options (xs ++ ys) = readType layout options xs := by
  have eq := v.prefix_eq
  unfold readType
  cases h : layout.recordTypeField with
  | none => rfl
  | some f =>
    simp only [h, optionalSize, Option.map_some, Option.getD_some] at eq ⊢
    rw [slice_append ys (by omega)]

/-- The prefix of a record is read off its first bytes alone. -/
lemma readPrefix_append (v : layout.Valid) {base : Nat} {xs : List UInt8} (ys : List UInt8)
    (le : layout.prefixSize ≤ xs.length) :
    readPrefix layout options base (xs ++ ys) = readPrefix layout options base xs := by
  unfold readPrefix
  rw [readLength_append v ys le, readType_append v ys le]

/-- What a prefix that reads well says. -/
lemma readPrefix_ok {base : Nat} {xs : List UInt8} {record : RecordLayout} {size : Nat}
    (ok : readPrefix layout options base xs = .ok (record, size)) :
    ∃ declared recordType,
      readLength layout options base xs = .ok declared ∧
      readType layout options xs = .ok recordType ∧
      layout.select recordType = some record ∧
      bodySize layout base record declared = .ok size := by
  unfold readPrefix at ok
  obtain ⟨declared, hlen, ok⟩ := bind_eq_ok.mp ok
  obtain ⟨recordType, htype, ok⟩ := bind_eq_ok.mp ok
  cases sel : layout.select recordType with
  | none => rw [sel] at ok; cases ok
  | some r =>
    rw [sel] at ok
    obtain ⟨n, hsize, ok⟩ := bind_eq_ok.mp ok
    cases ok
    exact ⟨declared, recordType, hlen, htype, sel, hsize⟩

/-- A record takes at least one byte. -/
lemma readPrefix_pos (v : layout.Valid) {base : Nat} {xs : List UInt8} {record : RecordLayout}
    {size : Nat} (ok : readPrefix layout options base xs = .ok (record, size)) :
    0 < layout.prefixSize + size := by
  obtain ⟨declared, recordType, hlen, _, sel, hsize⟩ := readPrefix_ok ok
  cases h : layout.recordLengthField with
  | some f =>
    have pos := (v.lengthField f h).1.size_pos
    have eq := v.prefix_eq
    simp only [h, optionalSize, Option.map_some, Option.getD_some] at eq
    omega
  | none =>
    simp only [readLength, h] at hlen
    cases hlen
    have pos := (v.record record (Layout.select_mem sel)).size_pos
    have eq := bodySize_none hsize
    omega

end Prefix

section Step

variable (layout : Layout) (options : DecodeOptions)

/-- Read the next record off the bytes `xs` at hand. -/
def recordStep (s : WalkState) (xs : List UInt8) :
    Incremental.Step WalkState Pb.RecordRow ParseError :=
  if s.Full options then .stop
  else if xs.length < layout.prefixSize then .wait
  else if layout.prefixSize = 0 ∧ xs.length = 0 then .wait
  else
    match readPrefix layout options s.pos xs with
    | .error e => .fail e
    | .ok (record, size) =>
      let total := layout.prefixSize + size
      if xs.length < total then .wait
      else
        match decodeCells record (slice xs layout.prefixSize total) options with
        | .error e => .fail e
        | .ok cells => .emit (s.row record total cells) total (s.advance record total)

variable {layout options}

/-- What the reader emits: a record all of whose bytes are there, prefix and cells decoded. -/
lemma recordStep_emit {s s' : WalkState} {xs : List UInt8} {r : Pb.RecordRow} {n : Nat} :
    recordStep layout options s xs = .emit r n s' ↔
      ∃ record size cells,
        ¬ s.Full options ∧
        ¬ (layout.prefixSize = 0 ∧ xs.length = 0) ∧
        readPrefix layout options s.pos xs = .ok (record, size) ∧
        layout.prefixSize + size ≤ xs.length ∧
        decodeCells record (slice xs layout.prefixSize (layout.prefixSize + size)) options
          = .ok cells ∧
        n = layout.prefixSize + size ∧
        r = s.row record n cells ∧
        s' = s.advance record n := by
  unfold recordStep
  constructor
  · intro st
    split_ifs at st with full short empty
    split at st
    · cases st
    · next record size hp =>
      dsimp only at st
      split_ifs at st with le
      split at st
      · cases st
      · next cells hc =>
        cases st
        exact ⟨record, size, cells, full, empty, hp, by omega, hc, rfl, rfl, rfl⟩
  · rintro ⟨record, size, cells, full, empty, hp, le, hc, rfl, rfl, rfl⟩
    have short : ¬ xs.length < layout.prefixSize := by omega
    have long : ¬ xs.length < layout.prefixSize + size := by omega
    simp only [full, short, empty, hp, long, hc, if_false]

/-- A decision of the reader stands whatever comes after the bytes it was taken on. -/
lemma recordStep_stable (v : layout.Valid) {s : WalkState} {xs : List UInt8} (ys : List UInt8)
    (dec : recordStep layout options s xs ≠ .wait) :
    recordStep layout options s (xs ++ ys) = recordStep layout options s xs := by
  unfold recordStep at dec ⊢
  by_cases full : s.Full options
  · simp [full]
  · by_cases short : xs.length < layout.prefixSize
    · simp [full, short] at dec
    · by_cases empty : layout.prefixSize = 0 ∧ xs.length = 0
      · simp [full, empty] at dec
      · have short' : ¬ (xs ++ ys).length < layout.prefixSize := by
          rw [List.length_append]
          omega
        have empty' : ¬ (layout.prefixSize = 0 ∧ (xs ++ ys).length = 0) := by
          rw [List.length_append]
          omega
        simp only [full, short, empty, short', empty', if_false,
          readPrefix_append v ys (Nat.not_lt.mp short)] at dec ⊢
        cases hp : readPrefix layout options s.pos xs with
        | error e => rfl
        | ok rs =>
          obtain ⟨record, size⟩ := rs
          simp only [hp] at dec ⊢
          by_cases long : xs.length < layout.prefixSize + size
          · simp [long] at dec
          · have long' : ¬ (xs ++ ys).length < layout.prefixSize + size := by
              rw [List.length_append]
              omega
            simp only [long, long', if_false, slice_append ys (Nat.not_lt.mp long)]

/-- A record is emitted as soon as its last byte is there. -/
lemma recordStep_prompt (v : layout.Valid) {s s' : WalkState} {xs ys : List UInt8}
    {r : Pb.RecordRow} {n : Nat} (st : recordStep layout options s (xs ++ ys) = .emit r n s')
    (le : n ≤ xs.length) : recordStep layout options s xs = .emit r n s' := by
  obtain ⟨record, size, cells, full, _, hp, _, hc, rfl, rfl, rfl⟩ := recordStep_emit.mp st
  rw [readPrefix_append v ys (by omega)] at hp
  rw [slice_append ys le] at hc
  have pos := readPrefix_pos v hp
  exact recordStep_emit.mpr ⟨record, size, cells, full, by omega, hp, le, hc, rfl, rfl, rfl⟩

/-- The reader of a valid layout. -/
def recordReader (v : layout.Valid) (options : DecodeOptions) :
    Incremental.Reader UInt8 WalkState Pb.RecordRow ParseError where
  step := recordStep layout options
  emit_pos st := by
    obtain ⟨_, _, _, _, _, hp, _, _, rfl, _, _⟩ := recordStep_emit.mp st
    exact readPrefix_pos v hp
  emit_le st := by
    obtain ⟨_, _, _, _, _, _, le, _, rfl, _, _⟩ := recordStep_emit.mp st
    exact le
  stable ys dec := recordStep_stable v ys dec
  prompt st le := recordStep_prompt v st le

end Step

end GrpcEbcdic

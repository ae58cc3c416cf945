import GrpcEbcdic.Copybook.Leaves
import GrpcEbcdic.Copybook.Sizes

/-!
# Expansion is bounded

`flatten` stays within its limits at every point of its loop, stops at the first item that would leave
them, and leaves nothing for the totals checks of `validate` to refuse: what validation still refuses of
a flattened copybook is the width, the name or the scale of one field (`FieldRefusal`).
-/

namespace GrpcEbcdic.Copybook
open Rust Fallible StateTransition Budget

section Fields

variable [Unicode]

/-- The refusals of one field of a record, for what it is on its own or for its name. -/
inductive FieldRefusal (record : String) (field : RawField) : ParseError → Prop where
  | empty : field.size = 0 → FieldRefusal record field
      (.invalid s!"field {debug field.name} of record {debug record} has zero width")
  | width : field.kind.isNumeric = true → widthLimit field.kind < field.size →
    FieldRefusal record field
      (.unsupported (s!"record {debug record} field {debug field.name} is {field.size} bytes; " ++
        s!"this build decodes at most {widthLimit field.kind}"))
  | twice : field.kind ≠ .skip → FieldRefusal record field
      (.invalid (s!"record {debug record} has two fields named {debug field.name}; " ++
        "cells are addressed by name, so qualify one of them or mark it as a filler"))
  | unnamed : field.kind ≠ .skip → field.name = "" → FieldRefusal record field
      (.invalid (s!"a field of record {debug record} has no name; only fillers may " ++
        "be anonymous"))
  | scale {e : ParseError} : checkScale field s!"record {debug record}" = .error e →
    FieldRefusal record field e

/-- A field within the limit of a record that is too wide is numeric. -/
lemma checkWidth_error {record : String} {field : RawField} {e : ParseError}
    (le : field.size ≤ maxRecordBytes)
    (error : checkWidth field s!"record {debug record}" = .error e) :
    FieldRefusal record field e := by
  unfold checkWidth at error
  split_ifs at error with past
  cases error
  have numeric : field.kind.isNumeric = true := by
    cases kind : field.kind with
    | text => exact absurd past (not_lt.mpr (kind ▸ le))
    | skip => exact absurd past (not_lt.mpr (kind ▸ le))
    | _ => rfl
  exact .width numeric past

/-- Where the fields fit, none is refused for where it stands or ends. -/
lemma validateFields_error {record : String} {cursor : Nat} {taken : List String}
    {raws : List RawField} {e : ParseError} (placed : PlacedWithin cursor raws)
    (error : validateFields record cursor taken raws = .error e) :
    ∃ field ∈ raws, FieldRefusal record field e := by
  induction raws generalizing cursor taken with
  | nil => cases error
  | cons raw raws ih =>
    obtain ⟨le, stop, rest⟩ := placed
    have at_ : fieldOffset record cursor raw = .ok (raw.start cursor) := fieldOffset_ok.mpr ⟨le, rfl⟩
    have fits : checkedAdd32 (raw.start cursor) raw.size = some (raw.start cursor + raw.size) :=
      if_pos (lt_of_le_of_lt stop (by decide))
    rw [validateFields, guard_eq_error] at error
    rcases error with ⟨empty, rfl⟩ | ⟨_, error⟩
    · exact ⟨raw, List.mem_cons_self, .empty empty⟩
    rcases bind_eq_error.mp error with error | ⟨_, _, error⟩
    · exact ⟨raw, List.mem_cons_self, checkWidth_error (le_of_add_le_right stop) error⟩
    rw [at_, ok_bind, fits] at error
    simp only [guard_eq_error] at error
    rcases error with ⟨past, _⟩ | ⟨_, ⟨twice, rfl⟩ | ⟨_, ⟨unnamed, rfl⟩ | ⟨_, error⟩⟩⟩
    · exact absurd past (not_lt.mpr stop)
    · exact ⟨raw, List.mem_cons_self, .twice twice.1⟩
    · exact ⟨raw, List.mem_cons_self, .unnamed unnamed.1 (String.isEmpty_iff.mp unnamed.2)⟩
    rcases bind_eq_error.mp error with error | ⟨_, _, error⟩
    · exact ⟨raw, List.mem_cons_self, .scale error⟩
    rcases bind_eq_error.mp error with error | ⟨_, _, error⟩
    · obtain ⟨field, mem, refused⟩ := ih rest error
      exact ⟨field, List.mem_cons_of_mem _ mem, refused⟩
    · cases error

/-- A step of `flatten` declares no offsets. -/
lemma flattenItem_offsets {flat next : Flat} {item : Item} {rest : List Item}
    (ok : flattenItem flat item rest = .ok next) (free : ∀ field ∈ flat.out, field.offset = none) :
    ∀ field ∈ next.out, field.offset = none := by
  cases gr : isGroup item rest with
  | true =>
    obtain ⟨_, _, rfl⟩ := (flattenItem_group gr).mp ok
    exact free
  | false =>
    rw [flattenItem_leaf gr] at ok
    obtain ⟨picture, _, described, _, _, _, _, rfl⟩ := flattenLeaf_ok.mp ok
    refine List.forall_mem_append.mpr ⟨free, fun field mem => ?_⟩
    obtain ⟨i, _, rfl⟩ := List.mem_map.mp mem
    rfl

/-- The fields of a copybook have no offsets of their own. -/
lemma flattenFrom_offsets {flat last : Flat} {items : List Item}
    (ok : flattenFrom flat items = .ok last) (free : ∀ field ∈ flat.out, field.offset = none) :
    ∀ field ∈ last.out, field.offset = none := by
  induction items generalizing flat with
  | nil =>
    cases ok
    exact free
  | cons item rest ih =>
    obtain ⟨next, step, ok⟩ := flattenFrom_cons.mp ok
    exact ih ok (flattenItem_offsets step free)

end Fields

section Recheck

variable [Unicode]

/-- What the totals checks of validation find in a layout: few enough fields, all within the limit of a
record, and nothing to refuse that is not in one field. -/
structure Rechecked (raw : RawLayout) : Prop where
  fields_le : (raw.records.map (·.fields.length)).sum ≤ maxLayoutFields
  placed : ∀ record ∈ raw.records, PlacedWithin 0 record.fields
  refusal : ∀ source e, validate raw source = .error e →
    ∃ record ∈ raw.records, ∃ field ∈ record.fields, FieldRefusal record.schemaName field e

/-- Validation of one record without prefix fields fails in its fields. -/
lemma validate_error {name : String} {fields : List RawField} {source : Pb.LayoutSource}
    {e : ParseError} (ne : fields ≠ []) (le : fields.length ≤ maxLayoutFields)
    (placed : PlacedWithin 0 fields)
    (error : validate {
      records := [{ name := name, fields := fields, selector := none }]
      description := ""
      headerSize := 0
      footerSize := 0
      recordLengthField := none
      recordTypeField := none } source = .error e) :
    ∃ field ∈ fields, FieldRefusal (if name.isEmpty then defaultRecordName else name) field e := by
  have count : ¬maxLayoutFields < fields.length := not_lt.mpr le
  simp only [validate, reduceCtorEq, if_false, Nat.not_lt_zero, optionalPrefix, ok_bind,
    Option.map_none, Option.getD_none, ne_eq, not_true_eq_false, List.length_singleton, lt_irrefl,
    false_and, List.map_cons, List.map_nil, List.sum_cons, List.sum_nil, Nat.add_zero, if_neg count,
    Option.isSome_none] at error
  rcases bind_eq_error.mp error with error | ⟨_, _, error⟩
  · simp only [validateRecords, List.not_mem_nil, if_false, Bool.false_and, Bool.false_eq_true,
      if_neg ne] at error
    rcases bind_eq_error.mp error with error | ⟨_, _, error⟩
    · exact validateFields_error placed error
    · rcases bind_eq_error.mp error with error | ⟨_, _, error⟩
      · cases error
      · cases error
  · cases error

/-- A compiled copybook passes the totals checks. -/
lemma compileItems_rechecked {items : List Item} {raw : RawLayout}
    (ok : compileItems items = .ok raw) : Rechecked raw := by
  obtain ⟨flat, _, read, ne, rfl⟩ := compileItems_ok.mp ok
  have flattened : flatten items = .ok flat.out := by
    rw [flatten, read]
    rfl
  have within := flatten_within flattened
  have count : flat.out.length ≤ maxLayoutFields := within .layoutFields
  have bytes : 0 + (flat.out.map (·.size)).sum ≤ maxRecordBytes := by
    rw [Nat.zero_add]
    exact within .recordBytes
  have free := flattenFrom_offsets read fun _ mem => absurd mem List.not_mem_nil
  have placed := placedWithin_sum free bytes
  refine ⟨?_, List.forall_mem_singleton.mpr placed, fun source e error => ?_⟩
  · rwa [List.map_singleton, List.sum_singleton]
  · exact ⟨_, List.mem_cons_self, validate_error ne count placed error⟩

end Recheck

section Expansion

variable [Unicode]

/-- What holds of the expansion of a list of items. -/
structure Bounded (items : List Item) : Prop where
  /-- Nothing that has been pushed is over a limit, at any point and whatever the run ends in. -/
  held : ∀ point, Passes items point → Within Limit.most fun limit => limit.measure point.out
  /-- The run ends, in one point, with what `flatten` returns. -/
  ends : ∃ last, Passes items last ∧ last.result = some (flatten items) ∧
    ∀ point, Passes items point → point.step = none → point = last
  /-- It fails for a limit at an item exactly when the totals go over it there and over none before. -/
  fails : ∀ n limit total, FailsAt items n limit total ↔
    ExpandFirst items (n + 1) ∧ Within Limit.most (totals items n) ∧
      breach Limit.order Limit.most (totals items (n + 1)) = some limit ∧
      total = totals items (n + 1) limit
  /-- It fails for some limit exactly when some totals go over one, before an item is refused. -/
  exceeds : (∃ n limit total, FailsAt items n limit total) ↔
    ∃ n, ExpandFirst items n ∧ ¬Within Limit.most (totals items n)
  /-- The failure is the error for that limit. -/
  error : ∀ n limit total, FailsAt items n limit total →
    ∃ item ∈ items[n]?, flatten items = .error (limit.refusal item.label total)
  /-- Otherwise all items are expanded, or one cannot be. -/
  accepted : (∃ fields, flatten items = .ok fields) ↔
    ExpandFirst items items.length ∧ Within Limit.most (totals items items.length)
  /-- No counter overflows on parsed items, unless one has more condition names and values than
  `maxCounted`. -/
  counters : ∀ stmts, collectItems [] stmts = .ok items → ∀ flat item picture described rest,
    Passes items (.charging flat item picture described rest) → conditionCount item ≤ maxCounted →
      flat.charge64 item described = some (flat.charge item described)
  /-- And none has more than its source has characters. -/
  counted : ∀ source stmts, statements source = .ok stmts → collectItems [] stmts = .ok items →
    ∀ item ∈ items, conditionCount item ≤ source.length
  /-- Validation does not refuse what was expanded for its totals. -/
  rechecked : ∀ raw, compileItems items = .ok raw → Rechecked raw

/-- Expansion is bounded, for every list of items. -/
theorem flatten_bounded (items : List Item) : Bounded items where
  held _ passes := passes.sound.within
  ends := flatten_runs items
  fails _ _ _ := failsAt_iff
  exceeds := exists_failsAt
  error _ _ _ fails := fails.error
  accepted := flatten_ok_iff.trans ⟨fun paid => ⟨paid.expand, paid.within⟩, fun all => ⟨all.1, all.2⟩⟩
  counters _ collected _ _ _ _ _ passes few := charge64_of_count collected passes few
  counted _ _ read collected _ mem := conditionCount_le read collected mem
  rechecked _ ok := compileItems_rechecked ok

end Expansion

section Sample

attribute [local instance] asciiUnicode

/-- A hundred conditions under a count are copied to every occurrence. -/
def sampleCopies : List Item :=
  [⟨1, some "REC", none, .display, none, []⟩,
    ⟨5, some "A", some "X", .display, some 4096, List.replicate 100 ⟨"C", [.literal "X"]⟩⟩]

example : breach Limit.order Limit.most (totals sampleCopies 2) = some .conditionValues ∧
    totals sampleCopies 2 .conditionValues = 819200 := by decide

end Sample

end GrpcEbcdic.Copybook

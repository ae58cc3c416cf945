import GrpcEbcdic.Layout.Valid

/-!
# What validation accepts

`RawLayout.Admitted` lists the conditions a layout must meet, each on its own and without an order, and
`RawLayout.resolved` is the layout they allow: the same records, with every field at its declared offset
or at the end of the field before it. Validation returns that layout exactly when the conditions hold.
The running state of its loops, the cursor and the names and selectors seen so far, shows only in the
lemmas about their tails.
-/

namespace GrpcEbcdic
open Rust Fallible

/-- The name of a record schema, after defaulting. -/
def RawRecord.schemaName (raw : RawRecord) : String :=
  if raw.name.isEmpty then defaultRecordName else raw.name

/-- The fields that have a cell, by name. -/
def rawCellNames (raws : List RawField) : List String :=
  (raws.filter (·.kind ≠ .skip)).map (·.name)

/-- Where a field starts that comes behind the position `cursor`. -/
def RawField.start (raw : RawField) (cursor : Nat) : Nat := raw.offset.getD cursor

/-- Whether each declared offset is at or beyond the end of the field before it, from the position
`cursor` on, and no field ends beyond the limit. -/
def PlacedWithin (cursor : Nat) : List RawField → Prop
  | [] => True
  | raw :: raws =>
    cursor ≤ raw.start cursor ∧ raw.start cursor + raw.size ≤ maxRecordBytes ∧
      PlacedWithin (raw.start cursor + raw.size) raws

/-- What is asked of the fields of a record from the position `cursor` on, when the names `taken` are. -/
structure FieldsAdmitted (cursor : Nat) (taken : List String) (raws : List RawField) : Prop where
  width : ∀ raw ∈ raws, 0 < raw.size ∧ raw.size ≤ widthLimit raw.kind
  scale : ∀ raw ∈ raws, ScaleFits raw.kind raw.size raw.scale
  placed : PlacedWithin cursor raws
  named : ∀ raw ∈ raws, raw.kind ≠ .skip → raw.name ≠ ""
  names : (rawCellNames raws).Nodup
  fresh : ∀ name ∈ rawCellNames raws, name ∉ taken

/-- What is asked of a prefix field. -/
structure RawField.PrefixAdmitted (raw : RawField) : Prop where
  size_pos : 0 < raw.size
  kind_ne : raw.kind ≠ .skip
  width : raw.size ≤ widthLimit raw.kind
  scale : ScaleFits raw.kind raw.size raw.scale

/-- What is asked of a layout. -/
structure RawLayout.Admitted (raw : RawLayout) : Prop where
  records_ne : raw.records ≠ []
  footer_le : raw.footerSize ≤ maxFooterBytes
  lengthField : ∀ field ∈ raw.recordLengthField, field.PrefixAdmitted ∧ field.scale = 0
  typeField : ∀ field ∈ raw.recordTypeField, field.PrefixAdmitted
  typed : 1 < raw.records.length → raw.recordTypeField ≠ none
  fields_le : (raw.records.map (·.fields.length)).sum ≤ maxLayoutFields
  names : (raw.records.map (·.schemaName)).Nodup
  selectors : raw.recordTypeField ≠ none →
    (∀ record ∈ raw.records, record.selector ≠ none) ∧ (raw.records.map (·.selector)).Nodup
  record : ∀ record ∈ raw.records, record.fields ≠ [] ∧ FieldsAdmitted 0 [] record.fields

/-- The fields of a record from the position `cursor` on, at their offsets. -/
def resolveFields (cursor : Nat) : List RawField → List Field
  | [] => []
  | raw :: raws => raw.resolved (raw.start cursor) :: resolveFields (raw.start cursor + raw.size) raws

/-- Where the last of some fields ends. -/
def fieldsEnd (cursor : Nat) : List RawField → Nat
  | [] => cursor
  | raw :: raws => fieldsEnd (raw.start cursor + raw.size) raws

/-- A record with its fields at their offsets. -/
def RawRecord.resolved (raw : RawRecord) : RecordLayout where
  name := raw.schemaName
  fields := resolveFields 0 raw.fields
  size := fieldsEnd 0 raw.fields
  selector := raw.selector

/-- A prefix field, named after its role when it has no name of its own. -/
def RawField.asPrefix (raw : RawField) (role : String) : Field where
  name := if raw.name.isEmpty then role else raw.name
  offset := 0
  size := raw.size
  kind := raw.kind
  scale := raw.scale
  picture := raw.picture
  declaration := { raw.declaration with path := if raw.name.isEmpty then role else raw.name }

/-- The layout a raw layout stands for. -/
def RawLayout.resolved (raw : RawLayout) (source : Pb.LayoutSource) : Layout :=
  let lengthField := raw.recordLengthField.map (·.asPrefix "record_length")
  let typeField := raw.recordTypeField.map (·.asPrefix "record_type")
  { records := raw.records.map (·.resolved)
    description := raw.description
    headerSize := raw.headerSize
    footerSize := raw.footerSize
    recordLengthField := lengthField
    recordTypeField := typeField.map fun field => { field with offset := optionalSize lengthField }
    prefixSize := optionalSize lengthField + optionalSize typeField
    source := source }

lemma rawCellNames_cons (raw : RawField) (raws : List RawField) :
    rawCellNames (raw :: raws)
      = if raw.kind = .skip then rawCellNames raws else raw.name :: rawCellNames raws := by
  by_cases sk : raw.kind = .skip <;> simp [rawCellNames, sk]

/-- What is asked of a field list is asked of its first field and, behind it, of the others. -/
lemma fieldsAdmitted_cons {cursor : Nat} {taken : List String} {raw : RawField}
    {raws : List RawField} :
    FieldsAdmitted cursor taken (raw :: raws) ↔
      (0 < raw.size ∧ raw.size ≤ widthLimit raw.kind) ∧
      ScaleFits raw.kind raw.size raw.scale ∧
      (cursor ≤ raw.start cursor ∧ raw.start cursor + raw.size ≤ maxRecordBytes) ∧
      (raw.kind ≠ .skip → raw.name ∉ taken ∧ raw.name ≠ "") ∧
      FieldsAdmitted (raw.start cursor + raw.size) (seenNames taken raw) raws := by
  constructor
  · rintro ⟨width, scale, placed, named, names, fresh⟩
    obtain ⟨width, widths⟩ := List.forall_mem_cons.mp width
    obtain ⟨scale, scales⟩ := List.forall_mem_cons.mp scale
    obtain ⟨named, nameds⟩ := List.forall_mem_cons.mp named
    rw [rawCellNames_cons] at names fresh
    by_cases sk : raw.kind = .skip
    · rw [if_pos sk] at names fresh
      refine ⟨width, scale, ⟨placed.1, placed.2.1⟩, fun cell => absurd sk cell,
        widths, scales, placed.2.2, nameds, names, ?_⟩
      simpa [seenNames, sk] using fresh
    · rw [if_neg sk] at names fresh
      rw [List.nodup_cons] at names
      obtain ⟨head, tail⟩ := List.forall_mem_cons.mp fresh
      refine ⟨width, scale, ⟨placed.1, placed.2.1⟩, fun _ => ⟨head, named sk⟩,
        widths, scales, placed.2.2, nameds, names.2, fun name mem => ?_⟩
      rw [seenNames, if_pos sk, List.mem_cons, not_or]
      exact ⟨fun eq => names.1 (eq ▸ mem), tail name mem⟩
  · rintro ⟨width, scale, ⟨le, stop⟩, cell, rest⟩
    refine ⟨List.forall_mem_cons.mpr ⟨width, rest.width⟩,
      List.forall_mem_cons.mpr ⟨scale, rest.scale⟩, ⟨le, stop, rest.placed⟩,
      List.forall_mem_cons.mpr ⟨fun sk => (cell sk).2, rest.named⟩, ?_, ?_⟩
    · rw [rawCellNames_cons]
      split_ifs with sk
      · exact rest.names
      · refine List.nodup_cons.mpr ⟨fun mem => rest.fresh _ mem ?_, rest.names⟩
        rw [seenNames, if_pos sk]
        exact List.mem_cons_self
    · rw [rawCellNames_cons]
      have fresh := rest.fresh
      split_ifs with sk
      · simpa [seenNames, sk] using fresh
      · refine List.forall_mem_cons.mpr ⟨(cell sk).1, fun name mem taken => fresh name mem ?_⟩
        rw [seenNames, if_pos sk]
        exact List.mem_cons_of_mem _ taken

variable [Unicode]

/-- Validating fields accepts what is asked, and returns them at their offsets. -/
lemma validateFields_iff {record : String} {cursor : Nat} {taken : List String}
    {raws : List RawField} {fields : List Field} {size : Nat} :
    validateFields record cursor taken raws = .ok (fields, size) ↔
      FieldsAdmitted cursor taken raws ∧ fields = resolveFields cursor raws ∧
        size = fieldsEnd cursor raws := by
  induction raws generalizing cursor taken fields with
  | nil =>
    have none : FieldsAdmitted cursor taken [] :=
      ⟨by simp, by simp, trivial, by simp, by simp [rawCellNames], by simp [rawCellNames]⟩
    simp only [validateFields, Except.ok.injEq, Prod.mk.injEq, none, true_and, resolveFields,
      fieldsEnd]
    exact and_congr eq_comm eq_comm
  | cons raw raws ih =>
    rw [validateFields_cons, fieldsAdmitted_cons]
    simp only [ih, resolveFields, fieldsEnd]
    constructor
    · rintro ⟨_, _, pos, width, ⟨le, rfl⟩, stop, cell, scale, ⟨rest, rfl, rfl⟩, rfl⟩
      exact ⟨⟨⟨Nat.pos_of_ne_zero pos, width⟩, scale, ⟨le, stop⟩, cell, rest⟩, rfl, rfl⟩
    · rintro ⟨⟨⟨pos, width⟩, scale, ⟨le, stop⟩, cell, rest⟩, rfl, rfl⟩
      exact ⟨_, _, pos.ne', width, ⟨le, rfl⟩, stop, cell, scale, ⟨rest, rfl, rfl⟩, rfl⟩

/-- What is asked of the records from one on, when the names and the selectors before it are taken. -/
structure RecordsAdmitted (typed : Bool) (taken takenSelectors : List String)
    (raws : List RawRecord) : Prop where
  names : (raws.map (·.schemaName)).Nodup
  fresh : ∀ raw ∈ raws, raw.schemaName ∉ taken
  selected : typed = true →
    ∀ raw ∈ raws, raw.selector ≠ none ∧ raw.selector.getD "" ∉ takenSelectors
  selectors : typed = true → (raws.map (·.selector)).Nodup
  record : ∀ raw ∈ raws, raw.fields ≠ [] ∧ FieldsAdmitted 0 [] raw.fields

omit [Unicode] in
/-- Two selectors with the same text. -/
lemma selector_eq {a b : Option String} (ha : a ≠ none) (hb : b ≠ none)
    (eq : a.getD "" = b.getD "") : a = b := by
  obtain ⟨a, rfl⟩ := Option.ne_none_iff_exists'.mp ha
  obtain ⟨b, rfl⟩ := Option.ne_none_iff_exists'.mp hb
  exact congrArg some eq

omit [Unicode] in
/-- What is asked of a record list is asked of its first record and, behind it, of the others. -/
lemma recordsAdmitted_cons {typed : Bool} {taken takenSelectors : List String} {raw : RawRecord}
    {raws : List RawRecord} :
    RecordsAdmitted typed taken takenSelectors (raw :: raws) ↔
      raw.schemaName ∉ taken ∧
      (typed = true → raw.selector ≠ none ∧ raw.selector.getD "" ∉ takenSelectors) ∧
      (raw.fields ≠ [] ∧ FieldsAdmitted 0 [] raw.fields) ∧
      RecordsAdmitted typed (raw.schemaName :: taken)
        (if typed then raw.selector.getD "" :: takenSelectors else takenSelectors) raws := by
  constructor
  · rintro ⟨names, fresh, selected, selectors, record⟩
    rw [List.map_cons, List.nodup_cons] at names
    obtain ⟨head, fresh⟩ := List.forall_mem_cons.mp fresh
    obtain ⟨first, record⟩ := List.forall_mem_cons.mp record
    refine ⟨head, fun ty => (List.forall_mem_cons.mp (selected ty)).1, first,
      names.2, fun r mem => ?_, fun ty r mem => ?_, fun ty => ?_, record⟩
    · rw [List.mem_cons, not_or]
      exact ⟨fun eq => names.1 (eq ▸ List.mem_map_of_mem mem), fresh r mem⟩
    · have distinct := selectors ty
      rw [List.map_cons, List.nodup_cons] at distinct
      obtain ⟨⟨some, _⟩, others⟩ := List.forall_mem_cons.mp (selected ty)
      obtain ⟨some', notin⟩ := others r mem
      refine ⟨some', ?_⟩
      -- A selector of a later record is neither this one nor one taken before.
      rw [ty, if_pos rfl, List.mem_cons, not_or]
      refine ⟨fun eq => distinct.1 ?_, notin⟩
      rw [← selector_eq some' some eq]
      exact List.mem_map_of_mem mem
    · have distinct := selectors ty
      rw [List.map_cons, List.nodup_cons] at distinct
      exact distinct.2
  · rintro ⟨head, selected, first, rest⟩
    refine ⟨?_, ?_, fun ty => ?_, fun ty => ?_, List.forall_mem_cons.mpr ⟨first, rest.record⟩⟩
    · rw [List.map_cons, List.nodup_cons]
      refine ⟨fun mem => ?_, rest.names⟩
      obtain ⟨r, hr, eq⟩ := List.mem_map.mp mem
      exact rest.fresh r hr (eq ▸ List.mem_cons_self)
    · exact List.forall_mem_cons.mpr
        ⟨head, fun r mem taken => rest.fresh r mem (List.mem_cons_of_mem _ taken)⟩
    · refine List.forall_mem_cons.mpr ⟨selected ty, fun r mem => ?_⟩
      obtain ⟨some, notin⟩ := rest.selected ty r mem
      rw [ty, if_pos rfl, List.mem_cons, not_or] at notin
      exact ⟨some, notin.2⟩
    · rw [List.map_cons, List.nodup_cons]
      refine ⟨fun mem => ?_, rest.selectors ty⟩
      obtain ⟨r, hr, eq⟩ := List.mem_map.mp mem
      have notin := (rest.selected ty r hr).2
      rw [ty, if_pos rfl, eq] at notin
      exact notin List.mem_cons_self

/-- Validating records accepts what is asked, and returns them with their fields at their offsets. -/
lemma validateRecords_iff {typed : Bool} {taken takenSelectors : List String} {raws : List RawRecord}
    {records : List RecordLayout} :
    validateRecords typed taken takenSelectors raws = .ok records ↔
      RecordsAdmitted typed taken takenSelectors raws ∧ records = raws.map (·.resolved) := by
  induction raws generalizing taken takenSelectors records with
  | nil =>
    have none : RecordsAdmitted typed taken takenSelectors [] :=
      ⟨by simp, by simp, by simp, by simp, by simp⟩
    simp only [validateRecords, Except.ok.injEq, none, true_and, List.map_nil]
    exact eq_comm
  | cons raw raws ih =>
    rw [validateRecords_cons, recordsAdmitted_cons]
    simp only [ih, validateFields_iff]
    constructor
    · rintro ⟨_, _, _, _, rfl, fresh, sel, ne, ⟨fields, rfl, rfl⟩, ⟨rest, rfl⟩, rfl⟩
      exact ⟨⟨fresh, sel, ⟨ne, fields⟩, rest⟩, rfl⟩
    · rintro ⟨⟨fresh, sel, ⟨ne, fields⟩, rest⟩, rfl⟩
      exact ⟨_, _, _, _, rfl, fresh, sel, ne, ⟨fields, rfl, rfl⟩, ⟨rest, rfl⟩, rfl⟩

/-- Validating a prefix field accepts what is asked of one. -/
lemma prefixField_iff {raw : RawField} {role : String} {field : Field} :
    prefixField raw role = .ok field ↔ raw.PrefixAdmitted ∧ field = raw.asPrefix role := by
  unfold prefixField
  simp only [guard_eq_ok, bind_eq_ok, checkWidth_ok, checkScale_ok, pure_eq_ok]
  constructor
  · rintro ⟨pos, kind, _, width, _, scale, rfl⟩
    exact ⟨⟨Nat.pos_of_ne_zero pos, kind, width, scale⟩, rfl⟩
  · rintro ⟨⟨pos, kind, width, scale⟩, rfl⟩
    exact ⟨pos.ne', kind, (), width, (), scale, rfl⟩

lemma optionalPrefix_iff {raw : Option RawField} {role : String} {field : Option Field} :
    optionalPrefix raw role = .ok field ↔
      (∀ f ∈ raw, f.PrefixAdmitted) ∧ field = raw.map (·.asPrefix role) := by
  cases raw with
  | none => simp [optionalPrefix, eq_comm]
  | some raw =>
    simp only [optionalPrefix, map_eq_ok, prefixField_iff, Option.mem_some_iff, forall_eq',
      Option.map_some]
    constructor
    · rintro ⟨_, ⟨ok, rfl⟩, rfl⟩
      exact ⟨ok, rfl⟩
    · rintro ⟨ok, rfl⟩
      exact ⟨_, ⟨ok, rfl⟩, rfl⟩

/-- Validation accepts what is asked of a layout, and returns the layout it stands for. -/
theorem validate_resolved {raw : RawLayout} {source : Pb.LayoutSource} {layout : Layout} :
    validate raw source = .ok layout ↔ raw.Admitted ∧ layout = raw.resolved source := by
  unfold validate
  simp only [guard_eq_ok, bind_eq_ok, pure_eq_ok, optionalPrefix_iff, validateRecords_iff]
  have typed (f : RawField → Field) (g : Field → Field) :
      ((raw.recordTypeField.map f).map g).isSome = true ↔ raw.recordTypeField ≠ none := by
    rw [Option.isSome_map, Option.isSome_map, Option.isSome_iff_ne_none]
  have untyped (f : RawField → Field) (g : Field → Field) :
      (raw.recordTypeField.map f).map g = none ↔ raw.recordTypeField = none := by
    rw [Option.map_eq_none_iff, Option.map_eq_none_iff]
  constructor
  · rintro ⟨ne, footer, _, ⟨length, rfl⟩, scale, _, ⟨type, rfl⟩, multi, few, _, ⟨records, rfl⟩, rfl⟩
    refine ⟨⟨ne, Nat.not_lt.mp footer, fun field has => ⟨length field has, ?_⟩, type,
      fun many absent => multi ⟨many, (untyped _ _).mpr absent⟩, Nat.not_lt.mp few, records.names,
      fun present => ⟨fun record mem => (records.selected ((typed _ _).mpr present) record mem).1,
        records.selectors ((typed _ _).mpr present)⟩, records.record⟩, rfl⟩
    rw [Option.mem_def.mp has] at scale
    exact not_ne_iff.mp scale
  · rintro ⟨ok, rfl⟩
    refine ⟨ok.records_ne, Nat.not_lt.mpr ok.footer_le, _,
      ⟨fun field has => (ok.lengthField field has).1, rfl⟩, ?_, _, ⟨ok.typeField, rfl⟩,
      fun ⟨many, absent⟩ => ok.typed many ((untyped _ _).mp absent), Nat.not_lt.mpr ok.fields_le, _,
      ⟨⟨ok.names, by simp,
        fun ty record mem => ⟨(ok.selectors ((typed _ _).mp ty)).1 record mem, by simp⟩,
        fun ty => (ok.selectors ((typed _ _).mp ty)).2, ok.record⟩, rfl⟩, rfl⟩
    cases has : raw.recordLengthField with
    | none => simp
    | some field => exact not_ne_iff.mpr (ok.lengthField field has).2

/-- Where the last of some fields ends, when they follow the position `cursor`. -/
def endFrom (cursor : Nat) (fields : List Field) : Nat :=
  (fields.getLast?.map (·.stop)).getD cursor

/-- A record schema as validation resolves it. -/
structure RecordResolves (raw : RawRecord) (record : RecordLayout) : Prop where
  name : record.name = raw.schemaName
  selector : record.selector = raw.selector
  /-- Nothing of a field changes but its offset and its path. -/
  fields : List.Forall₂ (fun raw field => field = raw.resolved field.offset) raw.fields record.fields
  /-- A field is where it declares to be, or at the end of the field before it. -/
  offset : ∀ (i : Nat) (raw' : RawField) (field : Field),
    raw.fields[i]? = some raw' → record.fields[i]? = some field →
    field.offset = raw'.offset.getD (endFrom 0 (record.fields.take i))
  /-- The fields are in increasing order, and no two share a byte. -/
  ordered : record.fields.Pairwise fun field later => field.stop ≤ later.offset
  size : record.size = endFrom 0 record.fields

/-- A layout as validation resolves it. -/
structure Resolves (raw : RawLayout) (layout : Layout) : Prop where
  records : List.Forall₂ RecordResolves raw.records layout.records
  prefixSize : layout.prefixSize
    = (raw.recordLengthField.map (·.size)).getD 0 + (raw.recordTypeField.map (·.size)).getD 0
  lengthField : ∀ field ∈ layout.recordLengthField, field.offset = 0
  typeField : ∀ field ∈ layout.recordTypeField,
    field.offset = (raw.recordLengthField.map (·.size)).getD 0
  valid : layout.Valid

section Resolved

omit [Unicode]

lemma endFrom_cons (cursor : Nat) (field : Field) (fields : List Field) :
    endFrom cursor (field :: fields) = endFrom field.stop fields := by
  cases fields with
  | nil => rfl
  | cons next fields =>
    rw [endFrom, endFrom, List.getLast?_cons_cons, List.getLast?_eq_some_getLast (List.cons_ne_nil _ _)]
    rfl

/-- Resolving changes nothing of a field but its offset and its path. -/
lemma resolveFields_same (cursor : Nat) (raws : List RawField) :
    List.Forall₂ (fun raw field => field = raw.resolved field.offset) raws
      (resolveFields cursor raws) := by
  induction raws generalizing cursor with
  | nil => exact .nil
  | cons raw raws ih => exact .cons rfl (ih _)

/-- A resolved field is where it declares to be, or at the end of the field before it. -/
lemma resolveFields_offset {cursor : Nat} {raws : List RawField} {i : Nat} {raw : RawField}
    {field : Field} (at_raw : raws[i]? = some raw)
    (at_field : (resolveFields cursor raws)[i]? = some field) :
    field.offset = raw.offset.getD (endFrom cursor ((resolveFields cursor raws).take i)) := by
  induction raws generalizing cursor i with
  | nil => cases at_raw
  | cons first raws ih =>
    cases i with
    | zero =>
      cases at_raw
      cases at_field
      rfl
    | succ i =>
      rw [resolveFields, List.take_succ_cons, endFrom_cons]
      exact ih at_raw at_field

/-- The end of some fields is that of the last. -/
lemma fieldsEnd_eq (cursor : Nat) (raws : List RawField) :
    fieldsEnd cursor raws = endFrom cursor (resolveFields cursor raws) := by
  induction raws generalizing cursor with
  | nil => rfl
  | cons raw raws ih =>
    rw [fieldsEnd, ih, resolveFields, endFrom_cons]
    rfl

/-- Placed fields are in order. -/
lemma Placed.pairwise {c : Nat} {fields : List Field} {n : Nat} (pl : Placed c fields n) :
    fields.Pairwise fun field later => field.stop ≤ later.offset := by
  induction pl with
  | nil => exact .nil
  | cons _ _ pl ih => exact .cons (fun later mem => (pl.mem mem).1) ih

lemma optionalSize_asPrefix (raw : Option RawField) (role : String) :
    optionalSize (raw.map (·.asPrefix role)) = (raw.map (·.size)).getD 0 := by
  cases raw <;> rfl

end Resolved

/-- Validation returns a layout exactly when what is asked of one holds, and the layout has its fields
resolved without overlap. -/
theorem validate_iff (raw : RawLayout) (source : Pb.LayoutSource) :
    ((∃ layout, validate raw source = .ok layout) ↔ raw.Admitted) ∧
      ∀ layout, validate raw source = .ok layout → Resolves raw layout := by
  constructor
  · constructor
    · rintro ⟨layout, ok⟩
      exact (validate_resolved.mp ok).1
    · exact fun ok => ⟨_, validate_resolved.mpr ⟨ok, rfl⟩⟩
  · intro layout ok
    have v := validate_valid ok
    obtain ⟨admitted, rfl⟩ := validate_resolved.mp ok
    refine ⟨?_, ?_, ?_, ?_, v⟩
    · refine List.forall₂_map_right_iff.mpr (List.forall₂_same.mpr fun record mem => ?_)
      have valid := v.record record.resolved (List.mem_map_of_mem mem)
      exact ⟨rfl, rfl, resolveFields_same 0 record.fields, fun _ _ _ => resolveFields_offset,
        valid.placed.pairwise, fieldsEnd_eq 0 record.fields⟩
    · rw [← optionalSize_asPrefix raw.recordLengthField "record_length",
        ← optionalSize_asPrefix raw.recordTypeField "record_type"]
      rfl
    · intro field mem
      obtain ⟨_, _, rfl⟩ := Option.map_eq_some_iff.mp mem
      rfl
    · intro field mem
      obtain ⟨_, _, rfl⟩ := Option.map_eq_some_iff.mp mem
      exact optionalSize_asPrefix raw.recordLengthField "record_length"

end GrpcEbcdic

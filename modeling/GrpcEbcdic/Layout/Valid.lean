import GrpcEbcdic.Layout.Validate
import GrpcEbcdic.Support.Fallible

/-!
# Valid layouts

What validation promises every later stage. The fields of a record are `Placed`: each starts at or
beyond the end of the one before it and has a positive width, and the record's size is the end of the
last. `Layout.Valid` collects this with the facts about names, prefix and widths, and
`validate_valid` shows that whatever `validate` returns has them.
-/

namespace GrpcEbcdic
open Rust Fallible

/-- Fields in increasing order without overlap, from the position `c` to the position `n`. -/
inductive Placed : Nat → List Field → Nat → Prop where
  | nil {c} :
    Placed c [] c
  | cons {c f fs n} :
    c ≤ f.offset →
    0 < f.size →
    Placed f.stop fs n →
    Placed c (f :: fs) n

/-- The start of a placement is at or before its end. -/
lemma Placed.le {c fs n} (pl : Placed c fs n) : c ≤ n := by
  induction pl with
  | nil => exact Nat.le_refl _
  | cons le _ _ ih =>
    simp only [Field.stop] at ih
    omega

/-- A placed field lies between the ends of the placement. -/
lemma Placed.mem {c fs n} (pl : Placed c fs n) {f : Field} (mem : f ∈ fs) :
    c ≤ f.offset ∧ 0 < f.size ∧ f.stop ≤ n := by
  induction pl with
  | nil => cases mem
  | cons le pos pl ih =>
    cases mem with
    | head => exact ⟨le, pos, pl.le⟩
    | tail _ mem =>
      obtain ⟨h1, h2, h3⟩ := ih mem
      simp only [Field.stop] at h1 h3 ⊢
      omega

/-- A scale the field can hold. -/
def ScaleFits (kind : FieldKind) (size scale : Nat) : Prop :=
  scale = 0 ∨ kind = .skip ∨ kind.isNumeric = true ∧ scale ≤ digitCapacity kind size

/-- The cells of a field list, by name. -/
def cellNames (fields : List Field) : List String :=
  (fields.filter (·.kind ≠ .skip)).map (·.name)

lemma cellNames_skip {f : Field} (sk : f.kind = .skip) (fs : List Field) :
    cellNames (f :: fs) = cellNames fs := by
  simp [cellNames, sk]

lemma cellNames_cell {f : Field} (ns : f.kind ≠ .skip) (fs : List Field) :
    cellNames (f :: fs) = f.name :: cellNames fs := by
  simp [cellNames, ns]

/-- What validation promises of one record schema. -/
structure RecordLayout.Valid (record : RecordLayout) : Prop where
  placed : Placed 0 record.fields record.size
  fields_ne : record.fields ≠ []
  size_le : record.size ≤ maxRecordBytes
  width : ∀ f ∈ record.fields, f.size ≤ widthLimit f.kind
  scale : ∀ f ∈ record.fields, ScaleFits f.kind f.size f.scale
  names : (cellNames record.fields).Nodup

/-- What validating a field list from the position `cursor` on promises, when the names `seen` are
taken. -/
structure FieldsValid (cursor : Nat) (seen : List String) (fields : List Field) (size : Nat) :
    Prop where
  placed : Placed cursor fields size
  size_le : size ≤ maxRecordBytes
  width : ∀ f ∈ fields, f.size ≤ widthLimit f.kind
  scale : ∀ f ∈ fields, ScaleFits f.kind f.size f.scale
  names : (cellNames fields).Nodup
  fresh : ∀ n ∈ cellNames fields, n ∉ seen

/-- A valid record schema has a body. -/
lemma RecordLayout.Valid.size_pos {record : RecordLayout} (v : record.Valid) : 0 < record.size := by
  have pl := v.placed
  cases h : record.fields with
  | nil => exact absurd h v.fields_ne
  | cons f fs =>
    rw [h] at pl
    cases pl with
    | cons _ pos pl =>
      have := pl.le
      simp only [Field.stop] at this
      omega

/-- What validation promises of a prefix field. -/
structure Field.PrefixValid (field : Field) : Prop where
  size_pos : 0 < field.size
  kind_ne : field.kind ≠ .skip
  width : field.size ≤ widthLimit field.kind
  scale : ScaleFits field.kind field.size field.scale

/-- What validation promises of a layout. -/
structure Layout.Valid (layout : Layout) : Prop where
  records_ne : layout.records ≠ []
  record : ∀ r ∈ layout.records, r.Valid
  names : (layout.records.map (·.name)).Nodup
  footer_le : layout.footerSize ≤ maxFooterBytes
  prefix_eq :
    layout.prefixSize = optionalSize layout.recordLengthField + optionalSize layout.recordTypeField
  lengthField : ∀ f ∈ layout.recordLengthField, f.PrefixValid ∧ f.scale = 0
  typeField : ∀ f ∈ layout.recordTypeField, f.PrefixValid
  single : layout.recordTypeField = none → layout.records.length = 1
  selectors : layout.recordTypeField ≠ none →
    (∀ r ∈ layout.records, r.selector ≠ none) ∧ (layout.records.map (·.selector)).Nodup

section Checks

variable [Unicode]

lemma checkWidth_ok {raw : RawField} {context : String} {u : Unit} :
    checkWidth raw context = .ok u ↔ raw.size ≤ widthLimit raw.kind := by
  rw [checkWidth, check_eq_ok, Nat.not_lt]

lemma checkScale_ok {raw : RawField} {context : String} {u : Unit} :
    checkScale raw context = .ok u ↔ ScaleFits raw.kind raw.size raw.scale := by
  unfold checkScale ScaleFits
  by_cases h : raw.scale = 0 ∨ raw.kind = .skip
  · rw [if_pos h]
    rcases h with h | h <;> simp [h]
  · rw [if_neg h, guard_eq_ok, check_eq_ok]
    rw [not_or] at h
    simp [h.1, h.2]

lemma fieldOffset_ok {record : String} {cursor offset : Nat} {raw : RawField} :
    fieldOffset record cursor raw = .ok offset ↔
      cursor ≤ offset ∧ offset = raw.offset.getD cursor := by
  unfold fieldOffset
  cases raw.offset with
  | none => simp [eq_comm]; omega
  | some declared =>
    by_cases h : cursor ≤ declared
    · simp [h, eq_comm]; omega
    · simp [h]; omega

/-- The names of the cells seen after one more field. -/
def seenNames (fieldNames : List String) (raw : RawField) : List String :=
  if raw.kind ≠ .skip then raw.name :: fieldNames else fieldNames

/-- One field passes validation exactly when each of its checks does. -/
lemma validateFields_cons {record cursor fieldNames raw raws fields size} :
    validateFields record cursor fieldNames (raw :: raws) = .ok (fields, size) ↔
      ∃ offset rest,
        raw.size ≠ 0 ∧
        raw.size ≤ widthLimit raw.kind ∧
        (cursor ≤ offset ∧ offset = raw.offset.getD cursor) ∧
        offset + raw.size ≤ maxRecordBytes ∧
        (raw.kind ≠ .skip → raw.name ∉ fieldNames ∧ raw.name ≠ "") ∧
        ScaleFits raw.kind raw.size raw.scale ∧
        validateFields record (offset + raw.size) (seenNames fieldNames raw) raws
          = .ok (rest, size) ∧
        fields = raw.resolved offset :: rest := by
  rw [validateFields, guard_eq_ok]
  simp only [bind_eq_ok, checkWidth_ok, fieldOffset_ok]
  constructor
  · rintro ⟨pos, _, width, offset, off, h⟩
    refine ⟨offset, ?_⟩
    cases hs : checkedAdd32 offset raw.size with
    | none => rw [hs] at h; cases h
    | some stop =>
      simp only [hs, guard_eq_ok, bind_eq_ok, checkScale_ok, pure_eq_ok] at h
      obtain ⟨le, dup, empty, _, scale, ⟨rest, size'⟩, tail, eq⟩ := h
      have stop_eq : stop = offset + raw.size := by
        unfold checkedAdd32 at hs
        split at hs <;> simp_all
      subst stop_eq
      cases eq
      refine ⟨rest, pos, width, off, by omega, ?_, scale, tail, rfl⟩
      intro ns
      simp only [not_and, ns, ne_eq, not_false_eq_true, true_implies, String.isEmpty_iff] at dup empty
      exact ⟨dup, empty⟩
  · rintro ⟨offset, rest, pos, width, off, le, named, scale, tail, eq⟩
    refine ⟨pos, (), width, offset, off, ?_⟩
    have hs : checkedAdd32 offset raw.size = some (offset + raw.size) := by
      unfold checkedAdd32
      rw [if_pos]
      unfold maxRecordBytes at le
      omega
    simp only [hs, guard_eq_ok, bind_eq_ok, checkScale_ok, pure_eq_ok]
    refine ⟨by omega, ?_, ?_, (), scale, (rest, size), tail, by rw [eq]⟩
    · exact fun ⟨ns, mem⟩ => (named ns).1 mem
    · exact fun ⟨ns, mem⟩ => (named ns).2 (by simpa using mem)

/-- The fields validation returns are valid. -/
lemma validateFields_valid {record cursor seen raws fields size}
    (ok : validateFields record cursor seen raws = .ok (fields, size))
    (le : cursor ≤ maxRecordBytes) : FieldsValid cursor seen fields size := by
  induction raws generalizing cursor seen fields with
  | nil =>
    cases ok
    exact ⟨.nil, le, by simp, by simp, by simp [cellNames], by simp [cellNames]⟩
  | cons raw raws ih =>
    obtain ⟨offset, rest, pos, width, ⟨off, _⟩, stop, named, scale, tail, rfl⟩ :=
      validateFields_cons.mp ok
    have v := ih tail stop
    refine ⟨.cons off (Nat.pos_of_ne_zero pos) v.placed, v.size_le, ?_, ?_, ?_, ?_⟩
    · exact List.forall_mem_cons.mpr ⟨width, v.width⟩
    · exact List.forall_mem_cons.mpr ⟨scale, v.scale⟩
    · by_cases sk : raw.kind = .skip
      · rw [cellNames_skip (f := raw.resolved offset) sk]
        exact v.names
      · rw [cellNames_cell (f := raw.resolved offset) sk, List.nodup_cons]
        exact ⟨fun mem => v.fresh _ mem (by simp [seenNames, sk, RawField.resolved]), v.names⟩
    · by_cases sk : raw.kind = .skip
      · rw [cellNames_skip (f := raw.resolved offset) sk]
        simpa [seenNames, sk] using v.fresh
      · rw [cellNames_cell (f := raw.resolved offset) sk]
        refine List.forall_mem_cons.mpr ⟨(named sk).1, fun n mem notin => v.fresh n mem ?_⟩
        simp [seenNames, sk, notin]

/-- One record passes validation exactly when each of its checks does. -/
lemma validateRecords_cons {typed names selectors raw raws records} :
    validateRecords typed names selectors (raw :: raws) = .ok records ↔
      ∃ name fields size rest,
        name = (if raw.name.isEmpty then defaultRecordName else raw.name) ∧
        name ∉ names ∧
        (typed = true → raw.selector ≠ none ∧ raw.selector.getD "" ∉ selectors) ∧
        raw.fields ≠ [] ∧
        validateFields name 0 [] raw.fields = .ok (fields, size) ∧
        validateRecords typed (name :: names)
          (if typed then raw.selector.getD "" :: selectors else selectors) raws = .ok rest ∧
        records = ⟨name, fields, size, raw.selector⟩ :: rest := by
  rw [validateRecords]
  simp only [guard_eq_ok, bind_eq_ok, pure_eq_ok, Prod.exists]
  constructor
  · rintro ⟨dup, sel, dupSel, ne, fields, size, hf, rest, tail, eq⟩
    refine ⟨_, fields, size, rest, rfl, dup, ?_, ne, hf, tail, eq.symm⟩
    intro ty
    simp only [ty, Bool.true_and, decide_eq_true_eq] at sel dupSel
    exact ⟨sel, dupSel⟩
  · rintro ⟨name, fields, size, rest, rfl, dup, sel, ne, hf, tail, eq⟩
    refine ⟨dup, ?_, ?_, ne, fields, size, hf, rest, tail, eq.symm⟩
    · cases typed with
      | false => simp
      | true => simpa using (sel rfl).1
    · cases typed with
      | false => simp
      | true => simpa using (sel rfl).2

/-- Validation never returns a record without fields. -/
lemma validateFields_ne {record cursor seen raws fields size}
    (ok : validateFields record cursor seen raws = .ok (fields, size)) (ne : raws ≠ []) :
    fields ≠ [] := by
  cases raws with
  | nil => exact absurd rfl ne
  | cons raw raws =>
    obtain ⟨_, _, _, _, _, _, _, _, _, rfl⟩ := validateFields_cons.mp ok
    simp

/-- What validating a record list promises, when the names and selectors before it are taken. -/
structure RecordsValid (typed : Bool) (taken takenSelectors : List String)
    (records : List RecordLayout) : Prop where
  record : ∀ r ∈ records, r.Valid
  names : (records.map (·.name)).Nodup
  fresh : ∀ r ∈ records, r.name ∉ taken
  selected : typed = true →
    ∀ r ∈ records, r.selector ≠ none ∧ r.selector.getD "" ∉ takenSelectors
  selectors : typed = true → (records.map (·.selector)).Nodup

/-- The records validation returns are valid. -/
lemma validateRecords_valid {typed names selectors raws records}
    (ok : validateRecords typed names selectors raws = .ok records) :
    RecordsValid typed names selectors records ∧ records.length = raws.length := by
  induction raws generalizing names selectors records with
  | nil =>
    cases ok
    exact ⟨⟨by simp, by simp, by simp, by simp, by simp⟩, rfl⟩
  | cons raw raws ih =>
    obtain ⟨name, fields, size, rest, _, dup, sel, ne, hf, tail, rfl⟩ :=
      validateRecords_cons.mp ok
    obtain ⟨v, len⟩ := ih tail
    have fv := validateFields_valid hf (Nat.zero_le _)
    refine ⟨⟨?_, ?_, ?_, ?_, ?_⟩, by simp [len]⟩
    · refine List.forall_mem_cons.mpr ⟨?_, v.record⟩
      exact ⟨fv.placed, validateFields_ne hf ne, fv.size_le, fv.width, fv.scale, fv.names⟩
    · rw [List.map_cons, List.nodup_cons]
      refine ⟨?_, v.names⟩
      intro mem
      obtain ⟨r, hr, e⟩ := List.mem_map.mp mem
      exact v.fresh r hr (by simp [e])
    · refine List.forall_mem_cons.mpr ⟨dup, fun r hr mem => v.fresh r hr (by simp [mem])⟩
    · intro ty
      refine List.forall_mem_cons.mpr ⟨sel ty, fun r hr => ?_⟩
      obtain ⟨some, notin⟩ := v.selected ty r hr
      simp only [ty, if_true, List.mem_cons, not_or] at notin
      exact ⟨some, notin.2⟩
    · intro ty
      rw [List.map_cons, List.nodup_cons]
      refine ⟨?_, v.selectors ty⟩
      intro mem
      obtain ⟨r, hr, e⟩ := List.mem_map.mp mem
      have notin := (v.selected ty r hr).2
      simp [ty, e] at notin

/-- A prefix field that passes validation is valid. -/
lemma prefixField_valid {raw : RawField} {role : String} {field : Field}
    (ok : prefixField raw role = .ok field) : field.PrefixValid := by
  unfold prefixField at ok
  simp only [guard_eq_ok, bind_eq_ok, checkWidth_ok, checkScale_ok, pure_eq_ok] at ok
  obtain ⟨pos, kind, _, width, _, scale, rfl⟩ := ok
  exact ⟨Nat.pos_of_ne_zero pos, kind, width, scale⟩

/-- An optional prefix field that passes validation is valid. -/
lemma optionalPrefix_valid {raw : Option RawField} {role : String} {field : Option Field}
    (ok : optionalPrefix raw role = .ok field) : ∀ f ∈ field, f.PrefixValid := by
  cases raw with
  | none => cases ok; simp
  | some raw =>
    obtain ⟨f, hf, rfl⟩ := map_eq_ok.mp ok
    simpa using prefixField_valid hf

/-- The layouts validation returns are valid. -/
theorem validate_valid {raw : RawLayout} {source : Pb.LayoutSource} {layout : Layout}
    (ok : validate raw source = .ok layout) : layout.Valid := by
  unfold validate at ok
  simp only [guard_eq_ok, bind_eq_ok, pure_eq_ok] at ok
  obtain ⟨ne, footer, lenField, hlen, scale, typeField, htype, multi, _, records, hrec, rfl⟩ := ok
  obtain ⟨v, len⟩ := validateRecords_valid hrec
  have raws_pos : raw.records.length ≠ 0 := by simpa using ne
  refine ⟨?_, v.record, v.names, Nat.not_lt.mp footer, ?_, ?_, ?_, ?_, ?_⟩
  · rintro rfl
    exact raws_pos (by simpa using len.symm)
  · cases typeField <;> simp [optionalSize]
  · intro f mem
    refine ⟨optionalPrefix_valid hlen f mem, ?_⟩
    obtain rfl := Option.mem_def.mp mem
    simpa using scale
  · intro f mem
    obtain ⟨g, hg, rfl⟩ := Option.map_eq_some_iff.mp mem
    have pv := optionalPrefix_valid htype g hg
    exact ⟨pv.size_pos, pv.kind_ne, pv.width, pv.scale⟩
  · intro none
    have le : ¬ 1 < raw.records.length := fun lt => multi ⟨lt, none⟩
    change records.length = 1
    omega
  · intro some
    have ty : (typeField.map fun field =>
        { field with offset := optionalSize lenField }).isSome = true := by
      simpa [Option.isSome_iff_ne_none] using some
    exact ⟨fun r hr => (v.selected ty r hr).1, v.selectors ty⟩

end Checks

end GrpcEbcdic

import GrpcEbcdic.Copybook.Shapes
import GrpcEbcdic.Support.Budget
import GrpcEbcdic.Support.Runs

/-!
# The loop of flatten, step by step

`flatten` as a machine that stops between any two effects: before an item, before its charges, and
before each occurrence it pushes. A run ends where the items do, at an item that cannot be expanded, or
at a charge over one of the limits. `flatten_runs` shows that every run ends, with what `flatten`
returns.
-/

namespace GrpcEbcdic.Copybook
open Rust StateTransition

/-- The limits on what a copybook expands to. -/
inductive Limit where
  | recordBytes
  | layoutFields
  | conditionValues
deriving DecidableEq

namespace Limit

/-- The limits in the order they are checked. -/
def order : List Limit := [.recordBytes, .layoutFields, .conditionValues]

/-- The most a record may have. -/
def most : Limit → Nat
  | recordBytes => maxRecordBytes
  | layoutFields => maxLayoutFields
  | conditionValues => maxConditionValues

/-- What one occurrence of an item of some size counts. -/
def each (item : Item) (size : Nat) : Limit → Nat
  | recordBytes => size
  | layoutFields => 1
  | conditionValues => conditionCount item

/-- What the fields pushed so far count. -/
def measure (out : List RawField) : Limit → Nat
  | recordBytes => (out.map (·.size)).sum
  | layoutFields => out.length
  | conditionValues => (out.map fun field =>
      (field.declaration.conditions.map fun condition => 1 + condition.values.length).sum).sum

/-- What the loop has charged so far. -/
def charged (flat : Flat) : Limit → Nat
  | recordBytes => flat.recordBytes
  | layoutFields => flat.out.length
  | conditionValues => flat.conditionValues

/-- The refusal of a record that goes over the limit at an item. -/
def refusal [Unicode] (label : String) (total : Nat) : Limit → ParseError
  | recordBytes =>
    .unsupported (s!"the record reaches {total} bytes at {debug label}; " ++
      s!"this build decodes records up to {maxRecordBytes} bytes")
  | layoutFields =>
    .unsupported (s!"the record expands to more than {maxLayoutFields} fields at " ++
      s!"{debug label}; this build accepts at most {maxLayoutFields}")
  | conditionValues =>
    .unsupported (s!"the record's level-88 conditions expand to more than " ++
      s!"{maxConditionValues} values at {debug label}; this build accepts at most " ++
      s!"{maxConditionValues}")

end Limit

/-- The charges of an elementary item, or the limit they go over and what they come to there. -/
def Flat.charge (flat : Flat) (item : Item) (described : Described) : Except (Limit × Nat) Flat :=
  let occurrences := item.occurs.getD 1
  let recordBytes := flat.recordBytes + described.size * occurrences
  if maxRecordBytes < recordBytes then .error (.recordBytes, recordBytes)
  else
    let fields := flat.out.length + occurrences
    if maxLayoutFields < fields then .error (.layoutFields, fields)
    else
      let conditionValues := flat.conditionValues + conditionCount item * occurrences
      if maxConditionValues < conditionValues then .error (.conditionValues, conditionValues)
      else .ok { flat with recordBytes := recordBytes, conditionValues := conditionValues }

/-- The charges in `u64` and `usize` arithmetic, when none of it overflows. -/
def Flat.charge64 (flat : Flat) (item : Item) (described : Described) :
    Option (Except (Limit × Nat) Flat) := do
  let occurrences := item.occurs.getD 1
  let bytes ← Word.mul 64 described.size occurrences
  let recordBytes ← Word.add 64 flat.recordBytes bytes
  if maxRecordBytes < recordBytes then return .error (.recordBytes, recordBytes)
  else
    let fields ← Word.add 64 flat.out.length occurrences
    if maxLayoutFields < fields then return .error (.layoutFields, fields)
    else
      let perOccurrence ← Word.sum 64 (fun condition => Word.add 64 1 condition.values.length)
        item.conditions
      let values ← Word.mul 64 perOccurrence occurrences
      let conditionValues ← Word.add 64 flat.conditionValues values
      if maxConditionValues < conditionValues then return .error (.conditionValues, conditionValues)
      else return .ok { flat with recordBytes := recordBytes, conditionValues := conditionValues }

/-- A point of the loop. -/
inductive Point where
  /-- Before the first of the items that are left. -/
  | next (flat : Flat) (rest : List Item)
  /-- Before the charges of an elementary item, with its picture and what that describes. -/
  | charging (flat : Flat) (item : Item) (picture : String) (described : Described) (rest : List Item)
  /-- Behind the charges, with the number of occurrences pushed. -/
  | pushing (flat : Flat) (item : Item) (picture : String) (described : Described) (pushed : Nat)
      (rest : List Item)
  /-- At an item that goes over a limit. -/
  | exceeded (limit : Limit) (total : Nat) (flat : Flat) (item : Item) (rest : List Item)
  /-- At an item that cannot be expanded. -/
  | refused (e : ParseError) (flat : Flat) (rest : List Item)
  /-- Behind the last item. -/
  | done (flat : Flat)

/-- What the loop carries. -/
def Point.flat : Point → Flat
  | .next flat _ => flat
  | .charging flat _ _ _ _ => flat
  | .pushing flat _ _ _ _ _ => flat
  | .exceeded _ _ flat _ _ => flat
  | .refused _ flat _ => flat
  | .done flat => flat

/-- The fields pushed so far. -/
def Point.out (point : Point) : List RawField := point.flat.out

variable [Unicode]

/-- The loop body up to the charges. -/
def enterItem (flat : Flat) (item : Item) (rest : List Item) : Point :=
  let closed := flat.close item.level
  if isGroup item rest then
    match flattenItem flat item rest with
    | .error e => .refused e closed (item :: rest)
    | .ok opened => .next opened rest
  else
    match item.picture with
    | none =>
      .refused (.invalid s!"elementary item {debug item.label} has no PICTURE clause") closed
        (item :: rest)
    | some picture =>
      match describe picture item.usage item.name with
      | .error e => .refused e closed (item :: rest)
      | .ok described => .charging closed item picture described rest

/-- One step of the loop. -/
def Point.step : Point → Option Point
  | .next flat [] => some (.done flat)
  | .next flat (item :: rest) => some (enterItem flat item rest)
  | .charging flat item picture described rest =>
    match flat.charge item described with
    | .error (limit, total) => some (.exceeded limit total flat item rest)
    | .ok flat => some (.pushing flat item picture described 0 rest)
  | .pushing flat item picture described pushed rest =>
    if pushed < item.occurs.getD 1 then
      let field := occurrenceField flat.groups item picture described (pushed + 1)
      some (.pushing { flat with out := flat.out ++ [field] } item picture described (pushed + 1) rest)
    else some (.next flat rest)
  | .exceeded _ _ _ _ _ => none
  | .refused _ _ _ => none
  | .done _ => none

/-- What the loop returns where it ends. -/
def Point.result : Point → Option (Except ParseError (List RawField))
  | .exceeded limit total _ item _ => some (.error (limit.refusal item.label total))
  | .refused e _ _ => some (.error e)
  | .done flat => some (.ok flat.out)
  | _ => none

/-- The points `flatten` passes. -/
def Passes (items : List Item) (point : Point) : Prop := Reaches Point.step (.next {} items) point

section Runs

/-- A leaf is flattened when its charges are within the limits, by pushing its occurrences. -/
lemma flattenLeaf_charge {flat : Flat} {item : Item} {picture : String} {described : Described}
    (pic : item.picture = some picture)
    (hd : describe picture item.usage item.name = .ok described) :
    flattenLeaf flat item = match flat.charge item described with
      | .error (limit, total) => .error (limit.refusal item.label total)
      | .ok next => .ok { next with
          out := next.out ++ (List.range (item.occurs.getD 1)).map fun i =>
            occurrenceField next.groups item picture described (i + 1) } := by
  rw [flattenLeaf, pic]
  simp only [hd, Flat.charge]
  split_ifs <;> rfl

/-- The occurrences of an item are pushed one by one. -/
lemma pushing_runs (flat : Flat) (item : Item) (picture : String) (described : Described)
    (rest : List Item) :
    Reaches Point.step (.pushing flat item picture described 0 rest)
      (.next { flat with
        out := flat.out ++ (List.range (item.occurs.getD 1)).map fun i =>
          occurrenceField flat.groups item picture described (i + 1) } rest) := by
  let out (n : Nat) : List RawField := flat.out ++ (List.range n).map fun i =>
    occurrenceField flat.groups item picture described (i + 1)
  let at_ (n : Nat) : Point := .pushing { flat with out := out n } item picture described n rest
  have start : at_ 0 = .pushing flat item picture described 0 rest := by
    simp only [at_, out, List.range_zero, List.map_nil, List.append_nil]
  have loop : Reaches Point.step (at_ 0) (at_ (item.occurs.getD 1)) := by
    refine Reaches.loop fun n lt => ?_
    simp only [at_, out, Point.step, if_pos lt, List.range_succ, List.map_append, List.map_singleton,
      List.append_assoc]
  rw [← start]
  apply loop.tail
  simp only [at_, Point.step, lt_irrefl, if_false]
  rfl

/-- An elementary item with a picture that describes bytes comes to its charges. -/
lemma step_leaf {flat : Flat} {item : Item} {rest : List Item} {picture : String}
    {described : Described} (gr : isGroup item rest = false) (pic : item.picture = some picture)
    (hd : describe picture item.usage item.name = .ok described) :
    Point.step (.next flat (item :: rest))
      = some (.charging (flat.close item.level) item picture described rest) := by
  rw [Point.step, enterItem, gr, if_neg Bool.false_ne_true, pic]
  simp only [hd]

/-- An item that is flattened is passed. -/
lemma item_runs {flat next : Flat} {item : Item} {rest : List Item}
    (ok : flattenItem flat item rest = .ok next) :
    Reaches Point.step (.next flat (item :: rest)) (.next next rest) := by
  cases gr : isGroup item rest with
  | true =>
    apply Reaches.one
    rw [Point.step, enterItem, if_pos gr, ok]
  | false =>
    rw [flattenItem_leaf gr] at ok
    obtain ⟨picture, pic, described, hd, _⟩ := flattenLeaf_ok.mp ok
    rw [flattenLeaf_charge pic hd] at ok
    cases hc : (flat.close item.level).charge item described with
    | error past =>
      rw [hc] at ok
      cases ok
    | ok charged =>
      rw [hc] at ok
      cases ok
      have charge : Point.step (.charging (flat.close item.level) item picture described rest)
          = some (.pushing charged item picture described 0 rest) := by
        rw [Point.step, hc]
      apply ((Reaches.one (step_leaf gr pic hd)).tail charge).trans
      exact pushing_runs charged item picture described rest

/-- At an item that is not flattened the loop ends. -/
lemma item_ends {flat : Flat} {item : Item} {rest : List Item} {e : ParseError}
    (error : flattenItem flat item rest = .error e) :
    ∃ last, Reaches Point.step (.next flat (item :: rest)) last ∧ last.result = some (.error e) := by
  cases gr : isGroup item rest with
  | true =>
    refine ⟨.refused e (flat.close item.level) (item :: rest), Reaches.one ?_, rfl⟩
    rw [Point.step, enterItem, if_pos gr, error]
  | false =>
    rw [flattenItem_leaf gr] at error
    cases pic : item.picture with
    | none =>
      rw [flattenLeaf, pic] at error
      cases error
      refine ⟨.refused _ (flat.close item.level) (item :: rest), Reaches.one ?_, rfl⟩
      rw [Point.step, enterItem, gr, if_neg Bool.false_ne_true, pic]
    | some picture =>
      cases hd : describe picture item.usage item.name with
      | error e' =>
        simp only [flattenLeaf, pic, hd] at error
        cases error
        refine ⟨.refused e (flat.close item.level) (item :: rest), Reaches.one ?_, rfl⟩
        rw [Point.step, enterItem, gr, if_neg Bool.false_ne_true, pic]
        simp only [hd]
      | ok described =>
        rw [flattenLeaf_charge pic hd] at error
        cases hc : (flat.close item.level).charge item described with
        | ok charged =>
          rw [hc] at error
          cases error
        | error past =>
          rw [hc] at error
          cases error
          refine ⟨.exceeded past.1 past.2 (flat.close item.level) item rest, ?_, rfl⟩
          apply (Reaches.one (step_leaf gr pic hd)).tail
          rw [Point.step, hc]
          rfl

/-- Every run of the loop ends, with what `flattenFrom` returns. -/
lemma flattenFrom_runs (flat : Flat) (items : List Item) :
    ∃ last, Reaches Point.step (.next flat items) last ∧
      last.result = some ((flattenFrom flat items).map (·.out)) := by
  induction items generalizing flat with
  | nil => exact ⟨.done flat, Reaches.one rfl, rfl⟩
  | cons item rest ih =>
    rw [flattenFrom]
    cases step : flattenItem flat item rest with
    | error e => exact item_ends step
    | ok next =>
      obtain ⟨last, reach, result⟩ := ih next
      exact ⟨last, (item_runs step).trans reach, result⟩

/-- The points where the loop returns are those without a step. -/
lemma step_eq_none {point : Point} : point.step = none ↔ ∃ result, point.result = some result := by
  cases point with
  | next flat items => cases items <;> simp [Point.step, Point.result]
  | charging flat item picture described rest =>
    simp only [Point.step, Point.result, reduceCtorEq, exists_false, iff_false]
    split <;> simp
  | pushing flat item picture described pushed rest =>
    simp only [Point.step, Point.result, reduceCtorEq, exists_false, iff_false]
    split_ifs <;> simp
  | exceeded limit total flat item rest => simp [Point.step, Point.result]
  | refused e flat rest => simp [Point.step, Point.result]
  | done flat => simp [Point.step, Point.result]

/-- The loop returns behind the last item, at one that cannot be expanded, or over a limit. -/
lemma result_cases {point : Point} {result : Except ParseError (List RawField)}
    (some : point.result = .some result) :
    (∃ flat, point = .done flat ∧ result = .ok flat.out) ∨
      (∃ e flat rest, point = .refused e flat rest ∧ result = .error e) ∨
      ∃ limit total flat item rest, point = .exceeded limit total flat item rest ∧
        result = .error (limit.refusal item.label total) := by
  cases point with
  | done flat =>
    cases some
    exact .inl ⟨flat, rfl, rfl⟩
  | refused e flat rest =>
    cases some
    exact .inr (.inl ⟨e, flat, rest, rfl, rfl⟩)
  | exceeded limit total flat item rest =>
    cases some
    exact .inr (.inr ⟨limit, total, flat, item, rest, rfl, rfl⟩)
  | next flat items => cases some
  | charging flat item picture described rest => cases some
  | pushing flat item picture described pushed rest => cases some

/-- The loop ends in one point, with what `flatten` returns. -/
theorem flatten_runs (items : List Item) :
    ∃ last, Passes items last ∧ last.result = some (flatten items) ∧
      ∀ point, Passes items point → point.step = none → point = last := by
  obtain ⟨last, reach, result⟩ := flattenFrom_runs {} items
  refine ⟨last, reach, result, fun point passes stop => ?_⟩
  exact Reaches.end_unique passes reach stop (step_eq_none.mpr ⟨_, result⟩)

end Runs

end GrpcEbcdic.Copybook

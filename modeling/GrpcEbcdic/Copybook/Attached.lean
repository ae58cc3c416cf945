import GrpcEbcdic.Copybook.Shapes

/-!
# Conditions on the way to the columns

A level-88 entry is attached to the data item in front of it and stays there, whatever follows
(`collectItems_attached`). The columns of an item carry its conditions, each occurrence the same; a
group has no columns, so its conditions go no further (`compileItems_conditions`).
-/

namespace GrpcEbcdic
open Rust

/-- The conditions of the columns of a layout. -/
def RawLayout.conditions (raw : RawLayout) : List (List ConditionName) :=
  raw.records.flatMap fun record => record.fields.map (·.declaration.conditions)

namespace Copybook

/-- The conditions of the columns of some items. -/
def leafConditions : List Item → List (List ConditionName)
  | [] => []
  | item :: rest =>
    (if isGroup item rest then [] else List.replicate (item.occurs.getD 1) item.conditions)
      ++ leafConditions rest

variable [Unicode]

/-- The columns of a layout carry a condition that is compiled from a statement: each column of the data
item in front of the statement, and none when that is a group. -/
def Carried (raw : RawLayout) (front : List Statement) (statement : Statement) (rest : List Statement)
    (condition : ConditionName) : Prop :=
  ∃ items item more later before after,
    collectItems [] front = .ok (items ++ [item]) ∧
    collectItems [] (front ++ statement :: rest)
      = .ok (items ++ { item with conditions := item.conditions ++ condition :: more } :: later) ∧
    raw.conditions = before ++ (if isGroup item later then []
      else List.replicate (item.occurs.getD 1) (item.conditions ++ condition :: more)) ++ after

section Items

/-- One step of `flatten` adds the conditions of its item. -/
lemma flattenItem_conditions {flat flat' : Flat} {item : Item} {rest : List Item}
    (ok : flattenItem flat item rest = .ok flat') :
    flat'.out.map (·.declaration.conditions) = flat.out.map (·.declaration.conditions) ++
      if isGroup item rest then [] else List.replicate (item.occurs.getD 1) item.conditions := by
  cases gr : isGroup item rest with
  | true =>
    obtain ⟨_, _, rfl⟩ := (flattenItem_group gr).mp ok
    simp [Flat.close]
  | false =>
    rw [flattenItem_leaf gr] at ok
    obtain ⟨picture, pic, described, hd, _, _, _, rfl⟩ := flattenLeaf_ok.mp ok
    simp [Flat.close, occurrenceField, Function.comp_def]

/-- A flattened item list has the conditions of its elementary items. -/
lemma flattenFrom_conditions {flat flat' : Flat} {items : List Item}
    (ok : flattenFrom flat items = .ok flat') :
    flat'.out.map (·.declaration.conditions)
      = flat.out.map (·.declaration.conditions) ++ leafConditions items := by
  induction items generalizing flat with
  | nil =>
    cases ok
    simp [leafConditions]
  | cons item rest ih =>
    obtain ⟨next, step, ok⟩ := flattenFrom_cons.mp ok
    rw [ih ok, flattenItem_conditions step, leafConditions, List.append_assoc]

/-- Compiled items have the conditions of the elementary ones. -/
lemma compileItems_conditions {items : List Item} {raw : RawLayout}
    (ok : compileItems items = .ok raw) : raw.conditions = leafConditions items := by
  obtain ⟨flat, _, hf, _, rfl⟩ := compileItems_ok.mp ok
  have conditions := flattenFrom_conditions hf
  simpa [RawLayout.conditions] using conditions

omit [Unicode] in
/-- The conditions of an item stand among those of all. -/
lemma leafConditions_split (before after : List Item) (item : Item) :
    ∃ front, leafConditions (before ++ item :: after) = front ++
      (if isGroup item after then [] else List.replicate (item.occurs.getD 1) item.conditions)
      ++ leafConditions after := by
  induction before with
  | nil => exact ⟨[], rfl⟩
  | cons first before ih =>
    obtain ⟨front, eq⟩ := ih
    rw [List.cons_append, leafConditions, eq]
    exact ⟨_, by rw [← List.append_assoc, ← List.append_assoc]⟩

end Items

section Statements

/-- Statements are collected in two parts. -/
lemma collectItems_append {items items' : List Item} {front rest : List Statement} :
    collectItems items (front ++ rest) = .ok items' ↔
      ∃ mid, collectItems items front = .ok mid ∧ collectItems mid rest = .ok items' := by
  induction front generalizing items with
  | nil => exact ⟨fun ok => ⟨items, rfl, ok⟩, fun ⟨_, same, ok⟩ => by cases same; exact ok⟩
  | cons statement front ih =>
    rw [List.cons_append, collectItems_cons]
    simp only [ih]
    constructor
    · rintro ⟨parsed, read, next, own, mid, first, ok⟩
      exact ⟨mid, collectItems_cons.mpr ⟨parsed, read, next, own, first⟩, ok⟩
    · rintro ⟨mid, first, ok⟩
      obtain ⟨parsed, read, next, own, first⟩ := collectItems_cons.mp first
      exact ⟨parsed, read, next, own, mid, first, ok⟩

/-- An item stays where it is and keeps the conditions it has. -/
lemma collectItems_attached {items later all : List Item} {item : Item} {rest : List Statement}
    (ok : collectItems (items ++ item :: later) rest = .ok all) :
    ∃ more later', all = items ++ { item with conditions := item.conditions ++ more } :: later' := by
  induction rest generalizing item later with
  | nil =>
    cases ok
    exact ⟨[], later, by rw [List.append_nil]⟩
  | cons statement rest ih =>
    obtain ⟨parsed, _, next, own, ok⟩ := collectItems_cons.mp ok
    cases parsed with
    | item new =>
      cases own
      rw [List.append_assoc, List.cons_append] at ok
      exact ih ok
    | condition condition =>
      obtain ⟨before, last, eq, rfl⟩ := attachCondition_ok.mp own
      rcases List.eq_nil_or_concat later with rfl | ⟨later, end_, rfl⟩
      · -- The condition is one more of the item.
        obtain ⟨rfl, rfl⟩ := List.append_inj' eq rfl |>.imp_right List.singleton_inj.mp
        obtain ⟨more, later, rfl⟩ := ih ok
        exact ⟨condition :: more, later, by rw [List.append_assoc, List.singleton_append]⟩
      · rw [List.concat_eq_append, ← List.cons_append, ← List.append_assoc] at eq
        obtain ⟨rfl, _⟩ := List.append_inj' eq rfl
        rw [List.append_assoc, List.cons_append] at ok
        exact ih ok

/-- In a copybook that compiles the columns carry the condition of each level-88 entry. -/
lemma compileStatements_carried {raw : RawLayout} {front rest : List Statement} {statement : Statement}
    {condition : ConditionName} (ok : compileStatements (front ++ statement :: rest) = .ok raw)
    (read : parseItem statement = .ok (.condition condition)) :
    Carried raw front statement rest condition := by
  obtain ⟨_, all, collected, ok⟩ := compileStatements_ok.mp ok
  obtain ⟨mid, first, behind⟩ := collectItems_append.mp collected
  obtain ⟨parsed, same, next, own, behind⟩ := collectItems_cons.mp behind
  cases read.symm.trans same
  obtain ⟨items, item, rfl, rfl⟩ := attachCondition_ok.mp own
  obtain ⟨more, later, rfl⟩ := collectItems_attached behind
  rw [List.append_assoc, List.singleton_append] at ok collected
  obtain ⟨before, split⟩ := leafConditions_split items later
    { item with conditions := item.conditions ++ condition :: more }
  exact ⟨items, item, more, later, before, _, first, collected, (compileItems_conditions ok).trans split⟩

end Statements

end Copybook

end GrpcEbcdic

import GrpcEbcdic.Copybook.Compile
import GrpcEbcdic.Support.Fallible
import GrpcEbcdic.Support.Pairing

/-!
# The shapes of a compiled copybook

What a copybook says about the bytes of a record is a list of shapes, one for each occurrence of each
elementary item: a kind, a width and a scale. `leafShapes` reads it off the items; `compile_shapes`
shows that a copybook that compiles has exactly these. `Alike` items, which differ in how they come by
their shape, compile to records of the same shapes or not at all (`compileItems_alike`).
-/

namespace GrpcEbcdic
open Rust Fallible

/-- The shape of a field. -/
def RawField.shape (field : RawField) : Copybook.Described := ⟨field.kind, field.size, field.scale⟩

/-- The shapes of a layout's fields, record after record. -/
def RawLayout.shapes (raw : RawLayout) : List Copybook.Described :=
  raw.records.flatMap fun record => record.fields.map (·.shape)

namespace Copybook

variable [Unicode]

/-- The shape of one occurrence of an item; a filler is skipped whatever it holds. -/
def Item.shape (item : Item) : Option Described :=
  match item.picture with
  | none => none
  | some picture =>
    match describe picture item.usage item.name with
    | .error _ => none
    | .ok described =>
      some { described with kind := if item.name.isNone then .skip else described.kind }

lemma Item.shape_eq_some {item : Item} {shape : Described} :
    item.shape = some shape ↔ ∃ picture, item.picture = some picture ∧
      ∃ described, describe picture item.usage item.name = .ok described ∧
      shape = { described with kind := if item.name.isNone then .skip else described.kind } := by
  unfold Item.shape
  cases item.picture with
  | none => simp
  | some picture =>
    simp only [Option.some.injEq, exists_eq_left']
    cases describe picture item.usage item.name with
    | error e => simp
    | ok described =>
      simp only [Option.some.injEq, Except.ok.injEq, exists_eq_left']
      exact eq_comm

/-- The shapes of the elementary items, an item repeated as often as it occurs. -/
def leafShapes : List Item → List (Option Described)
  | [] => []
  | item :: rest =>
    (if isGroup item rest then [] else List.replicate (item.occurs.getD 1) item.shape)
      ++ leafShapes rest

/-- An elementary item is flattened when its picture describes bytes and the record stays within its
limits. -/
lemma flattenLeaf_ok {flat flat' : Flat} {item : Item} :
    flattenLeaf flat item = .ok flat' ↔
      ∃ picture, item.picture = some picture ∧
        ∃ described, describe picture item.usage item.name = .ok described ∧
        flat.recordBytes + described.size * item.occurs.getD 1 ≤ maxRecordBytes ∧
        flat.out.length + item.occurs.getD 1 ≤ maxLayoutFields ∧
        flat.conditionValues + conditionCount item * item.occurs.getD 1 ≤ maxConditionValues ∧
        flat' = { flat with
          out := flat.out ++ (List.range (item.occurs.getD 1)).map fun i =>
            occurrenceField flat.groups item picture described (i + 1)
          recordBytes := flat.recordBytes + described.size * item.occurs.getD 1
          conditionValues :=
            flat.conditionValues + conditionCount item * item.occurs.getD 1 } := by
  unfold flattenLeaf
  cases item.picture with
  | none => simp
  | some picture =>
    simp only [Option.some.injEq, exists_eq_left']
    cases describe picture item.usage item.name with
    | error e => simp
    | ok described =>
      simp only [guard_eq_ok, Nat.not_lt, Except.ok.injEq, exists_eq_left']
      exact and_congr_right fun _ => and_congr_right fun _ => and_congr_right fun _ => eq_comm

/-- A group item is flattened when it has neither a picture nor a count, and opens a group. -/
lemma flattenItem_group {flat flat' : Flat} {item : Item} {rest : List Item}
    (gr : isGroup item rest = true) :
    flattenItem flat item rest = .ok flat' ↔
      item.picture = none ∧ item.occurs = none ∧
        flat' = { flat.close item.level with
          groups := (flat.close item.level).groups ++ [(item.level, item.label)] } := by
  rw [flattenItem, if_pos gr, guard_eq_ok, guard_eq_ok, Except.ok.injEq, Bool.not_eq_true,
    Bool.not_eq_true, Option.isSome_eq_false_iff, Option.isSome_eq_false_iff,
    Option.isNone_iff_eq_none, Option.isNone_iff_eq_none]
  exact and_congr_right fun _ => and_congr_right fun _ => eq_comm

/-- Any other item is flattened as a leaf under the groups it leaves open. -/
lemma flattenItem_leaf {flat : Flat} {item : Item} {rest : List Item}
    (gr : isGroup item rest = false) :
    flattenItem flat item rest = flattenLeaf (flat.close item.level) item := by
  rw [flattenItem, gr, if_neg Bool.false_ne_true]

/-- The loop goes on from what a step left. -/
lemma flattenFrom_cons {flat flat' : Flat} {item : Item} {rest : List Item} :
    flattenFrom flat (item :: rest) = .ok flat' ↔
      ∃ next, flattenItem flat item rest = .ok next ∧ flattenFrom next rest = .ok flat' := by
  rw [flattenFrom]
  cases flattenItem flat item rest <;> simp

/-- The occurrences of an item have its shape. -/
lemma occurrenceField_shape {groups : List (Nat × String)} {item : Item} {picture : String}
    {described : Described} (pic : item.picture = some picture)
    (ok : describe picture item.usage item.name = .ok described) (i : Nat) :
    some (occurrenceField groups item picture described i).shape = item.shape :=
  (Item.shape_eq_some.mpr ⟨picture, pic, described, ok, rfl⟩).symm

/-- One step of `flatten` adds the shapes of its item. -/
lemma flattenItem_shapes {flat flat' : Flat} {item : Item} {rest : List Item}
    (ok : flattenItem flat item rest = .ok flat') :
    flat'.out.map (fun field => some field.shape) = flat.out.map (fun field => some field.shape) ++
      if isGroup item rest then [] else List.replicate (item.occurs.getD 1) item.shape := by
  cases gr : isGroup item rest with
  | true =>
    obtain ⟨_, _, rfl⟩ := (flattenItem_group gr).mp ok
    simp [Flat.close]
  | false =>
    rw [flattenItem_leaf gr] at ok
    obtain ⟨picture, pic, described, hd, _, _, _, rfl⟩ := flattenLeaf_ok.mp ok
    simp only [Flat.close, List.map_append, List.map_map, Bool.false_eq_true, if_false]
    congr 1
    rw [List.eq_replicate_iff]
    refine ⟨by simp, fun shape mem => ?_⟩
    obtain ⟨i, _, rfl⟩ := List.mem_map.mp mem
    exact occurrenceField_shape pic hd (i + 1)

/-- A flattened item list has the shapes of its elementary items. -/
lemma flattenFrom_shapes {flat flat' : Flat} {items : List Item}
    (ok : flattenFrom flat items = .ok flat') :
    flat'.out.map (fun field => some field.shape)
      = flat.out.map (fun field => some field.shape) ++ leafShapes items := by
  induction items generalizing flat with
  | nil =>
    cases ok
    simp [leafShapes]
  | cons item rest ih =>
    obtain ⟨next, step, ok⟩ := flattenFrom_cons.mp ok
    rw [ih ok, flattenItem_shapes step, leafShapes, List.append_assoc]

/-- An item with a picture is flattened as a leaf, which has a shape. -/
lemma flattenFrom_leaf {flat flat' : Flat} {before after : List Item} {item : Item}
    (ok : flattenFrom flat (before ++ item :: after) = .ok flat') (pic : item.picture ≠ none) :
    isGroup item after = false ∧ ∃ shape, item.shape = some shape := by
  induction before generalizing flat with
  | nil =>
    obtain ⟨next, step, _⟩ := flattenFrom_cons.mp ok
    cases gr : isGroup item after with
    | true => exact absurd ((flattenItem_group gr).mp step).1 pic
    | false =>
      rw [flattenItem_leaf gr] at step
      obtain ⟨picture, pic, described, hd, _⟩ := flattenLeaf_ok.mp step
      exact ⟨rfl, _, Item.shape_eq_some.mpr ⟨picture, pic, described, hd, rfl⟩⟩
  | cons first before ih =>
    obtain ⟨next, _, ok⟩ := flattenFrom_cons.mp ok
    exact ih ok

omit [Unicode] in
/-- Whether an item is a group depends on the level of the next one only. -/
lemma isGroup_append {item a b : Item} {before after : List Item} (level : a.level = b.level) :
    isGroup item (before ++ a :: after) = isGroup item (before ++ b :: after) := by
  cases before with
  | nil => simp [isGroup, level]
  | cons _ _ => rfl

/-- Shapes that agree behind the same items agree before them. -/
lemma leafShapes_cancel {before after : List Item} {a b : Item} (level : a.level = b.level)
    (eq : leafShapes (before ++ a :: after) = leafShapes (before ++ b :: after)) :
    leafShapes (a :: after) = leafShapes (b :: after) := by
  induction before with
  | nil => exact eq
  | cons item before ih =>
    rw [List.cons_append, List.cons_append, leafShapes, leafShapes, isGroup_append level] at eq
    exact ih (List.append_cancel_left eq)

/-- What `compileItems` returns: one record, with the flattened fields. -/
lemma compileItems_ok {items : List Item} {raw : RawLayout} :
    compileItems items = .ok raw ↔
      ∃ flat, checkRoots items = .ok () ∧ flattenFrom {} items = .ok flat ∧ flat.out ≠ [] ∧
        raw = {
          records := [{
            name := (items.head?.bind (·.name)).getD "record", fields := flat.out,
            selector := none }]
          description := ""
          headerSize := 0
          footerSize := 0
          recordLengthField := none
          recordTypeField := none } := by
  unfold compileItems flatten
  cases checkRoots items with
  | error e => simp
  | ok u =>
    dsimp only
    cases flattenFrom {} items with
    | error e => simp [Except.map]
    | ok flat =>
      simp only [Except.map, guard_eq_ok, Except.ok.injEq, true_and, exists_eq_left']
      constructor
      · rintro ⟨ne, rfl⟩
        exact ⟨ne, rfl⟩
      · rintro ⟨ne, rfl⟩
        exact ⟨ne, rfl⟩

/-- Compiled items have the shapes of the elementary ones. -/
lemma compileItems_shapes {items : List Item} {raw : RawLayout}
    (ok : compileItems items = .ok raw) : raw.shapes.map some = leafShapes items := by
  obtain ⟨flat, _, hf, _, rfl⟩ := compileItems_ok.mp ok
  have shapes := flattenFrom_shapes hf
  simpa [RawLayout.shapes, Function.comp_def] using shapes

section Alike

/-- Two items that stand in the same place and give as many occurrences of the same shape. -/
structure Item.Alike (a b : Item) : Prop where
  level : a.level = b.level
  name : a.name = b.name
  conditions : a.conditions = b.conditions
  same : a = b ∨
    a.occurs.getD 1 = b.occurs.getD 1 ∧ ∃ shape, a.shape = some shape ∧ b.shape = some shape

/-- An item is alike to itself. -/
lemma Item.Alike.refl (a : Item) : a.Alike a := ⟨rfl, rfl, rfl, .inl rfl⟩

/-- Two states of `flatten` with the same groups, counters and shapes. -/
structure Flat.Alike (f g : Flat) : Prop where
  groups : f.groups = g.groups
  shapes : f.out.map (·.shape) = g.out.map (·.shape)
  recordBytes : f.recordBytes = g.recordBytes
  conditionValues : f.conditionValues = g.conditionValues

/-- Alike items are flattened to alike states. -/
lemma flattenItem_alike {f f' g : Flat} {a b : Item} {rest rest' : List Item} (fl : f.Alike f')
    (al : a.Alike b) (gr : isGroup a rest = isGroup b rest') (ok : flattenItem f a rest = .ok g) :
    ∃ g', flattenItem f' b rest' = .ok g' ∧ g.Alike g' := by
  have len : f.out.length = f'.out.length := by
    simpa using congrArg List.length fl.shapes
  cases h : isGroup a rest with
  | true =>
    obtain ⟨pic, occ, rfl⟩ := (flattenItem_group h).mp ok
    rcases al.same with rfl | ⟨_, shape, hs, _⟩
    · refine ⟨_, (flattenItem_group (gr ▸ h)).mpr ⟨pic, occ, rfl⟩, ?_⟩
      simp only [Flat.close, fl.groups]
      exact ⟨rfl, fl.shapes, fl.recordBytes, fl.conditionValues⟩
    · obtain ⟨_, some, _⟩ := Item.shape_eq_some.mp hs
      rw [pic] at some
      cases some
  | false =>
    rw [flattenItem_leaf h] at ok
    obtain ⟨picture, pic, described, hd, bytes, fields, values, rfl⟩ := flattenLeaf_ok.mp ok
    have ha := Item.shape_eq_some.mpr ⟨picture, pic, described, hd, rfl⟩
    -- Alike items are equal, or have the same shape as often.
    have both : a.occurs.getD 1 = b.occurs.getD 1 ∧ a.shape = b.shape := by
      rcases al.same with rfl | ⟨occ, shape, hs, hs'⟩
      · exact ⟨rfl, rfl⟩
      · exact ⟨occ, hs.trans hs'.symm⟩
    obtain ⟨occ, shape⟩ := both
    obtain ⟨picture', pic', described', hd', eq⟩ := Item.shape_eq_some.mp (shape ▸ ha)
    have size : described.size = described'.size := (Described.mk.inj eq).2.1
    have count : conditionCount a = conditionCount b := by
      rw [conditionCount, conditionCount, al.conditions]
    simp only [Flat.close] at bytes fields values
    rw [occ] at bytes fields values
    rw [flattenItem_leaf (gr ▸ h)]
    refine ⟨_, flattenLeaf_ok.mpr ⟨picture', pic', described', hd', ?_, ?_, ?_, rfl⟩, ?_⟩
    · rwa [← size, Flat.close, ← fl.recordBytes]
    · rwa [Flat.close, ← len]
    · rwa [← count, Flat.close, ← fl.conditionValues]
    · refine ⟨?_, ?_, ?_, ?_⟩
      · simp only [Flat.close, fl.groups, al.level]
      · simp only [Flat.close, List.map_append, List.map_map, fl.shapes, occ]
        congr 1
        refine List.map_congr_left fun i _ => Option.some.inj ?_
        exact (occurrenceField_shape pic hd _).trans
          (shape.trans (occurrenceField_shape pic' hd' _).symm)
      · simp only [Flat.close, fl.recordBytes, size, occ]
      · simp only [Flat.close, fl.conditionValues, count, occ]

/-- Items of the same levels have the same group structure. -/
lemma isGroup_alike {a b : Item} {rest rest' : List Item} (al : a.Alike b)
    (als : List.Forall₂ Item.Alike rest rest') : isGroup a rest = isGroup b rest' := by
  cases als with
  | nil => rfl
  | cons al' _ => simp only [isGroup, List.head?_cons, al.level, al'.level]

/-- Alike item lists are flattened to alike states. -/
lemma flattenFrom_alike {f f' g : Flat} {items items' : List Item} (fl : f.Alike f')
    (als : List.Forall₂ Item.Alike items items') (ok : flattenFrom f items = .ok g) :
    ∃ g', flattenFrom f' items' = .ok g' ∧ g.Alike g' := by
  induction als generalizing f f' with
  | nil =>
    cases ok
    exact ⟨f', rfl, fl⟩
  | cons al als ih =>
    obtain ⟨next, step, ok⟩ := flattenFrom_cons.mp ok
    obtain ⟨next', step', fl'⟩ := flattenItem_alike fl al (isGroup_alike al als) step
    obtain ⟨g', ok', fl''⟩ := ih fl' ok
    exact ⟨g', flattenFrom_cons.mpr ⟨next', step', ok'⟩, fl''⟩

/-- The checks on the roots read the levels alone. -/
lemma checkRoots_alike {items items' : List Item} (als : List.Forall₂ Item.Alike items items') :
    checkRoots items = checkRoots items' := by
  have levels : items.map (·.level) = items'.map (·.level) := by
    induction als with
    | nil => rfl
    | cons al _ ih => rw [List.map_cons, List.map_cons, al.level, ih]
  have roots (items : List Item) : (items.filter fun item => item.level = 1 ∨ item.level = 77).length
      = ((items.map (·.level)).filter fun level => level = 1 ∨ level = 77).length := by
    rw [List.filter_map, List.length_map]
    rfl
  have empty (items : List Item) : items = [] ↔ items.map (·.level) = [] := by simp
  have first (items : List Item) : items.head?.map (·.level) = (items.map (·.level)).head? := by
    rw [List.head?_map]
  simp only [checkRoots, roots, empty, first, levels]

/-- Alike items compile to layouts of the same shapes. -/
lemma compileItems_alike {items items' : List Item} {raw : RawLayout}
    (als : List.Forall₂ Item.Alike items items') (ok : compileItems items = .ok raw) :
    ∃ raw', compileItems items' = .ok raw' ∧ raw'.shapes = raw.shapes := by
  obtain ⟨flat, roots, hf, ne, rfl⟩ := compileItems_ok.mp ok
  obtain ⟨flat', hf', fl⟩ := flattenFrom_alike ⟨rfl, rfl, rfl, rfl⟩ als hf
  have ne' : flat'.out ≠ [] := by
    intro nil
    have shapes := fl.shapes
    rw [nil, List.map_nil, List.map_eq_nil_iff] at shapes
    exact ne shapes
  refine ⟨_, compileItems_ok.mpr ⟨flat', checkRoots_alike als ▸ roots, hf', ne', rfl⟩, ?_⟩
  simp [RawLayout.shapes, fl.shapes]

end Alike

section Statements

/-- A condition is attached to the last item, when there is one. -/
lemma attachCondition_ok {items items' : List Item} {condition : ConditionName} :
    attachCondition items condition = .ok items' ↔
      ∃ before item, items = before ++ [item] ∧
        items' = before ++ [{ item with conditions := item.conditions ++ [condition] }] := by
  unfold attachCondition
  induction items using List.reverseRecOn with
  | nil => simp
  | append_singleton before item =>
    simp only [List.getLast?_append, List.getLast?_singleton, Option.some_or, List.dropLast_concat,
      Except.ok.injEq, List.append_singleton_inj]
    constructor
    · rintro rfl
      exact ⟨before, item, ⟨rfl, rfl⟩, rfl⟩
    · rintro ⟨_, _, ⟨rfl, rfl⟩, rfl⟩
      rfl

/-- Alike lists have alike last items. -/
lemma alike_concat {before items' : List Item} {item : Item}
    (als : List.Forall₂ Item.Alike (before ++ [item]) items') :
    ∃ before' item', items' = before' ++ [item'] ∧ List.Forall₂ Item.Alike before before' ∧
      item.Alike item' := by
  obtain ⟨before', last, front, back, rfl⟩ := Pairing.forall₂_append_left als
  obtain ⟨item', _, al, none, rfl⟩ := List.forall₂_cons_left_iff.mp back
  cases none
  exact ⟨before', item', rfl, front, al⟩

/-- Conditions do not enter the shape of an item. -/
lemma Item.Alike.conditions_congr {a b : Item} (al : a.Alike b) (condition : ConditionName) :
    Item.Alike { a with conditions := a.conditions ++ [condition] }
      { b with conditions := b.conditions ++ [condition] } := by
  refine ⟨al.level, al.name, ?_, ?_⟩
  · rw [al.conditions]
  · rcases al.same with rfl | same
    · exact .inl rfl
    · exact .inr same

/-- A condition attached to alike items leaves them alike. -/
lemma attachCondition_alike {items items' r : List Item} {condition : ConditionName}
    (als : List.Forall₂ Item.Alike items items') (ok : attachCondition items condition = .ok r) :
    ∃ r', attachCondition items' condition = .ok r' ∧ List.Forall₂ Item.Alike r r' := by
  obtain ⟨before, item, rfl, rfl⟩ := attachCondition_ok.mp ok
  obtain ⟨before', item', rfl, als, al⟩ := alike_concat als
  exact ⟨_, attachCondition_ok.mpr ⟨before', item', rfl, rfl⟩,
    List.rel_append als (.cons (al.conditions_congr condition) .nil)⟩

/-- What one statement turned out to be leaves alike items alike. -/
lemma collect_alike {items items' r : List Item} {parsed : Parsed}
    (als : List.Forall₂ Item.Alike items items') (ok : collect items parsed = .ok r) :
    ∃ r', collect items' parsed = .ok r' ∧ List.Forall₂ Item.Alike r r' := by
  cases parsed with
  | item item =>
    cases ok
    exact ⟨_, rfl, List.rel_append als (.cons (.refl item) .nil)⟩
  | condition condition => exact attachCondition_alike als ok

/-- One statement collected. -/
lemma collectItems_cons {items items' : List Item} {statement : Statement}
    {rest : List Statement} :
    collectItems items (statement :: rest) = .ok items' ↔
      ∃ parsed, parseItem statement = .ok parsed ∧
        ∃ next, collect items parsed = .ok next ∧ collectItems next rest = .ok items' := by
  rw [collectItems, bind_eq_ok]
  simp only [bind_eq_ok]

/-- Two statements that are the same or describe alike items. -/
def Statement.Alike (s s' : Statement) : Prop :=
  s = s' ∨ ∃ a b : Item,
    parseItem s = .ok (.item a) ∧ parseItem s' = .ok (.item b) ∧ a.Alike b

/-- Alike statements give alike items. -/
lemma collectItems_alike {items items' r : List Item} {stmts stmts' : List Statement}
    (als : List.Forall₂ Item.Alike items items') (sts : List.Forall₂ Statement.Alike stmts stmts')
    (ok : collectItems items stmts = .ok r) :
    ∃ r', collectItems items' stmts' = .ok r' ∧ List.Forall₂ Item.Alike r r' := by
  induction sts generalizing items items' with
  | nil =>
    cases ok
    exact ⟨items', rfl, als⟩
  | @cons s s' stmts stmts' st sts ih =>
    obtain ⟨parsed, hp, next, hc, ok⟩ := collectItems_cons.mp ok
    rcases st with rfl | ⟨a, b, hs, hs', al⟩
    · obtain ⟨next', hc', als'⟩ := collect_alike als hc
      obtain ⟨r', ok', alr⟩ := ih als' ok
      exact ⟨r', collectItems_cons.mpr ⟨parsed, hp, next', hc', ok'⟩, alr⟩
    · rw [hs] at hp
      cases hp
      cases hc
      obtain ⟨r', ok', alr⟩ := ih (List.rel_append als (.cons al .nil)) ok
      exact ⟨r', collectItems_cons.mpr ⟨.item b, hs', _, rfl, ok'⟩, alr⟩

/-- An item without its conditions, which say nothing about the bytes. -/
def Item.bare (item : Item) : Item := { item with conditions := [] }

/-- The item behind what a statement turned out to be, without its conditions. -/
def Parsed.bareItem : Parsed → Option Item
  | .item i => some i.bare
  | .condition _ => none

/-- The item a statement describes, when it is one. -/
def parsedItem (statement : Statement) : Option Item :=
  (parseItem statement).toOption.bind Parsed.bareItem

/-- The items of a statement list are the ones its statements describe. -/
lemma collectItems_bare {items items' : List Item} {stmts : List Statement}
    (ok : collectItems items stmts = .ok items') :
    items'.map (·.bare) = items.map (·.bare) ++ stmts.filterMap parsedItem := by
  induction stmts generalizing items with
  | nil => cases ok; simp
  | cons statement rest ih =>
    obtain ⟨parsed, hp, next, hc, ok⟩ := collectItems_cons.mp ok
    have one : parsedItem statement = parsed.bareItem := by
      rw [parsedItem, hp]
      rfl
    rw [ih ok]
    cases parsed with
    | item item =>
      cases hc
      rw [List.filterMap_cons_some one]
      simp
    | condition condition =>
      obtain ⟨before, item, rfl, rfl⟩ := attachCondition_ok.mp hc
      rw [List.filterMap_cons_none one]
      simp [Item.bare]

/-- Conditions do not change the shapes. -/
lemma leafShapes_bare (items : List Item) : leafShapes (items.map (·.bare)) = leafShapes items := by
  induction items with
  | nil => rfl
  | cons item rest ih =>
    have gr : isGroup item.bare (rest.map (·.bare)) = isGroup item rest := by
      cases rest <;> rfl
    rw [List.map_cons, leafShapes, leafShapes, ih, gr]
    rfl

/-- Statements compile when there is one and their items do. -/
lemma compileStatements_ok {stmts : List Statement} {raw : RawLayout} :
    compileStatements stmts = .ok raw ↔
      stmts ≠ [] ∧ ∃ items, collectItems [] stmts = .ok items ∧ compileItems items = .ok raw := by
  rw [compileStatements, guard_eq_ok]
  refine and_congr_right fun _ => ?_
  cases collectItems [] stmts <;> simp

/-- The statements of a source are what is compiled. -/
lemma compile_statements {source : String} {stmts : List Statement}
    (st : statements source = .ok stmts) : compile source = compileStatements stmts := by
  rw [compile, st]

/-- A copybook compiles when its statements do. -/
lemma compile_ok {source : String} {raw : RawLayout} :
    compile source = .ok raw ↔
      ∃ stmts, statements source = .ok stmts ∧ compileStatements stmts = .ok raw := by
  rw [compile]
  cases statements source <;> simp

/-- In a copybook that compiles an item with a picture is elementary and has a shape. -/
lemma compileStatements_leaf {before after : List Statement} {statement : Statement} {item : Item}
    {raw : RawLayout} (ok : compileStatements (before ++ statement :: after) = .ok raw)
    (hp : parsedItem statement = some item) (pic : item.picture ≠ none) :
    isGroup item (after.filterMap parsedItem) = false ∧ ∃ shape, item.shape = some shape := by
  obtain ⟨_, items, hc, ok⟩ := compileStatements_ok.mp ok
  obtain ⟨flat, _, hf, _, _⟩ := compileItems_ok.mp ok
  have bare := collectItems_bare hc
  rw [List.filterMap_append, List.filterMap_cons_some hp, List.map_nil, List.nil_append] at bare
  obtain ⟨xs, ys, rfl, hxs, hys⟩ := List.map_eq_append_iff.mp bare
  obtain ⟨found, ys, rfl, hf', hys⟩ := List.map_eq_cons_iff.mp hys
  have same : found.picture = item.picture := hf' ▸ rfl
  obtain ⟨gr, shape, hs⟩ := flattenFrom_leaf hf (same ▸ pic)
  refine ⟨?_, shape, ?_⟩
  · rw [← gr, ← hys, ← hf']
    cases ys <;> rfl
  · rw [← hs, ← hf']
    rfl

/-- A compiled copybook has the shapes of its elementary items. -/
theorem compileStatements_shapes {stmts : List Statement} {raw : RawLayout}
    (ok : compileStatements stmts = .ok raw) :
    raw.shapes.map some = leafShapes (stmts.filterMap parsedItem) := by
  obtain ⟨_, items, hc, ok⟩ := compileStatements_ok.mp ok
  rw [compileItems_shapes ok, ← leafShapes_bare, collectItems_bare hc]
  simp

/-- Alike statements compile to layouts of the same shapes. -/
theorem compileStatements_alike {stmts stmts' : List Statement} {raw : RawLayout}
    (sts : List.Forall₂ Statement.Alike stmts stmts') (ok : compileStatements stmts = .ok raw) :
    ∃ raw', compileStatements stmts' = .ok raw' ∧ raw'.shapes = raw.shapes := by
  obtain ⟨ne, items, hc, ok⟩ := compileStatements_ok.mp ok
  obtain ⟨items', hc', als⟩ := collectItems_alike .nil sts hc
  obtain ⟨raw', ok', shapes⟩ := compileItems_alike als ok
  refine ⟨raw', compileStatements_ok.mpr ⟨?_, items', hc', ok'⟩, shapes⟩
  rintro rfl
  cases sts
  exact ne rfl

end Statements

end Copybook

end GrpcEbcdic

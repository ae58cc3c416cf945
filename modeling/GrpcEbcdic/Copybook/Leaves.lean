import GrpcEbcdic.Copybook.Entries
import GrpcEbcdic.Layout.Accepted
import Mathlib.Data.List.Nodup
import Mathlib.Algebra.Order.BigOperators.Group.List

/-!
# Trees compile to their leaves

The walk of `flatten` over the items of a tree. What is open in front of a subtree is open behind it, once
the next item has closed the groups it ends (`flattenFrom_tree`), so every leaf is met under the groups
above it and no others. With the lexer and the parser in front and validation behind, a printed tree
compiles to its leaves in order, each right behind the one before it (`compile_tree`).
-/

namespace GrpcEbcdic.Copybook
open Rust

section Walk

/-- The groups an item closes are closed by a later one at that level or above. -/
lemma Flat.close_close (flat : Flat) {level outer : Nat} (le : level ≤ outer) :
    (flat.close outer).close level = flat.close level := by
  rw [close, close, close, List.filter_filter]
  have both : ∀ group : Nat × String,
      (decide (group.1 < level) && decide (group.1 < outer)) = decide (group.1 < level) := by
    intro group
    by_cases lt : group.1 < level
    · simp [lt, lt.trans_le le]
    · simp [lt]
  simp only [both]

/-- The walk with a group opened. -/
def Flat.enter (flat : Flat) (level : Nat) (name : String) : Flat :=
  { flat with groups := flat.groups ++ [(level, name)] }

/-- An item at the level of a group closes it. -/
lemma Flat.enter_close (flat : Flat) (level : Nat) (name : String) :
    ((flat.close level).enter level name).close level = flat.close level := by
  rw [enter, close, List.filter_append]
  have own : [(level, name)].filter (fun group => group.1 < level) = [] := by simp
  rw [own, List.append_nil]
  exact flat.close_close le_rfl

/-- An item below a group leaves it open, and the groups it was opened in. -/
lemma Flat.enter_close_below (flat : Flat) {level below : Nat} (name : String) (lt : level < below) :
    ((flat.close level).enter level name).close below = (flat.close level).enter level name := by
  have opened : ∀ group ∈ (flat.close level).groups ++ [(level, name)],
      decide (group.1 < below) = true := by
    refine List.forall_mem_append.mpr ⟨fun group mem => ?_, List.forall_mem_singleton.mpr ?_⟩
    · have closed := of_decide_eq_true (List.mem_filter.mp mem).2
      exact decide_eq_true (closed.trans lt)
    · exact decide_eq_true lt
  rw [close, enter, List.filter_eq_self.mpr opened]

variable [Unicode]

/-- What a data item adds to the walk: the fields of a leaf, and nothing for a group. -/
def Flat.add (flat : Flat) (position : Position) : Flat :=
  { flat with
    out := flat.out ++ position.fields
    recordBytes := flat.recordBytes + position.bytes
    conditionValues := flat.conditionValues + position.values }

/-- What some data items add in all. -/
lemma Flat.foldl_add (positions : List Position) (flat : Flat) :
    positions.foldl Flat.add flat = { flat with
      out := flat.out ++ positions.flatMap (·.fields)
      recordBytes := flat.recordBytes + (positions.map (·.bytes)).sum
      conditionValues := flat.conditionValues + (positions.map (·.values)).sum } := by
  induction positions generalizing flat with
  | nil => simp
  | cons position positions ih =>
    rw [List.foldl_cons, ih]
    simp [add, Nat.add_assoc]

/-- Leaves close no groups. -/
lemma Flat.foldl_add_close (positions : List Position) (flat : Flat) (level : Nat) :
    (positions.foldl Flat.add flat).close level = positions.foldl Flat.add (flat.close level) := by
  rw [foldl_add, foldl_add]
  rfl

/-- A walk within the limits of the record. -/
structure Flat.Within (flat : Flat) : Prop where
  bytes : flat.recordBytes ≤ maxRecordBytes
  fields : flat.out.length ≤ maxLayoutFields
  values : flat.conditionValues ≤ maxConditionValues

/-- A walk that ends within the limits was within them before. -/
lemma Flat.Within.before {positions : List Position} {flat : Flat}
    (within : (positions.foldl Flat.add flat).Within) : flat.Within := by
  rw [foldl_add] at within
  obtain ⟨bytes, fields, values⟩ := within
  rw [List.length_append] at fields
  exact ⟨(Nat.le_add_right _ _).trans bytes, (Nat.le_add_right _ _).trans fields,
    (Nat.le_add_right _ _).trans values⟩

omit [Unicode] in
/-- The path of a leaf is that of its groups with its column. -/
lemma join_path (groups : List String) (leaf : String) :
    String.join (groups.map fun group => group ++ ".") ++ leaf = ".".intercalate (groups ++ [leaf]) := by
  induction groups with
  | nil => simp
  | cons group groups ih =>
    rw [List.map_cons, String.join_cons, String.append_assoc, ih, List.cons_append,
      String.intercalate_cons_of_ne_nil (by simp)]

omit [Unicode] in
/-- An occurrence of an item under the groups of a path is the field of the leaf. -/
lemma occurrenceField_leaf (leaf : Leaf) (level : Nat) (groups : List (Nat × String))
    (shape : Described) (occurrence : Nat) :
    occurrenceField groups (leaf.item level) leaf.picture shape occurrence
      = leaf.field level (groups.map (·.2)) shape occurrence := by
  have qualified : ∀ column, qualify groups (leaf.item level) column
      = if leaf.name = none then "" else ".".intercalate (groups.map (·.2) ++ [column]) := by
    intro column
    rw [qualify, ← join_path, List.map_map, Leaf.item]
    cases leaf.name <;> rfl
  rw [occurrenceField, Leaf.field, qualified]
  obtain ⟨name, picture, usage, occurs, value, conditions⟩ := leaf
  cases name <;> cases occurs <;> rfl

/-- A leaf is flattened to its fields. -/
lemma flattenItem_elementary {flat : Flat} {level : Nat} {path : List String} {leaf : Leaf}
    {rest : List Item} (valid : leaf.Valid) (groups : (flat.close level).groups.map (·.2) = path)
    (behind : ∀ next ∈ rest.head?, next.level ≤ level)
    (within : ((flat.close level).add ⟨level, path, .elementary leaf⟩).Within) :
    flattenItem flat (leaf.item level) rest
      = .ok ((flat.close level).add ⟨level, path, .elementary leaf⟩) := by
  obtain ⟨shape, described, _⟩ := valid.shape
  have single : isGroup (leaf.item level) rest = false := by
    rw [isGroup]
    cases head : rest.head? with
    | none => rfl
    | some next =>
      have le : ¬level < next.level := Nat.not_lt.mpr (behind next head)
      simp [Leaf.item, le]
  have count : conditionCount (leaf.item level) * leaf.count
      = Position.values ⟨level, path, .elementary leaf⟩ := by
    simp [conditionCount, Leaf.item, Position.values, Condition.declared, Function.comp_def]
  have bytes : shape.size * leaf.count = Position.bytes ⟨level, path, .elementary leaf⟩ := by
    simp [Position.bytes, described]
  have fields : (List.range leaf.count).map (fun i =>
      occurrenceField (flat.close level).groups (leaf.item level) leaf.picture shape (i + 1))
      = Position.fields ⟨level, path, .elementary leaf⟩ := by
    simp only [occurrenceField_leaf, groups, Position.fields, described]
  have length : (Position.fields ⟨level, path, .elementary leaf⟩).length = leaf.count := by
    rw [← fields, List.length_map, List.length_range]
  obtain ⟨within_bytes, within_fields, within_values⟩ := within
  rw [Flat.add, List.length_append, length] at within_fields
  rw [flattenItem_leaf single]
  refine flattenLeaf_ok.mpr ⟨leaf.picture, rfl, shape, Fallible.toOption_eq_some.mp described, ?_,
    within_fields, ?_, ?_⟩
  · exact bytes.symm ▸ within_bytes
  · exact count.symm ▸ within_values
  · rw [Flat.add, ← fields, ← bytes, ← count]
    rfl

/-- A group is flattened to nothing, and is open behind it. -/
lemma flattenItem_groupItem {flat : Flat} {name : String} {conditions : List Condition} {level : Nat}
    {rest : List Item} (le : level ≤ 49) (deeper : ∃ next ∈ rest.head?, level < next.level) :
    flattenItem flat (groupItem name conditions level) rest
      = .ok ((flat.close level).enter level name) := by
  obtain ⟨next, head, lt⟩ := deeper
  have group : isGroup (groupItem name conditions level) rest = true := by
    have not77 : level ≠ 77 := by omega
    rw [isGroup, Option.mem_def.mp head]
    simp [groupItem, lt, not77]
  exact (flattenItem_group group).mpr ⟨rfl, rfl, rfl⟩

omit [Unicode] in
/-- The first data item of siblings is at their level. -/
lemma positionsOf_head {level : Nat} {path : List String} {trees : List Tree} (ne : trees ≠ []) :
    ∃ position ∈ (positionsOf level path trees).head?, position.level = level := by
  cases trees with
  | nil => exact absurd rfl ne
  | cons tree trees => cases tree <;> exact ⟨_, rfl, rfl⟩

mutual

/-- The walk over a tree adds its data items, and leaves open what was open in front of it once the next
item at its level or above has closed the rest. -/
lemma flattenFrom_tree (tree : Tree) {level : Nat} {path : List String} {flat : Flat}
    {rest : List Item} (le : level ≤ 49) (nested : tree.Nested level)
    (valid : ∀ position ∈ tree.positions level path, position.node.Valid)
    (groups : (flat.close level).groups.map (·.2) = path)
    (behind : ∀ next ∈ rest.head?, next.level ≤ level)
    (within : ((tree.positions level path).foldl Flat.add (flat.close level)).Within) :
    ∃ next, flattenFrom flat ((tree.positions level path).map (·.item) ++ rest)
        = flattenFrom next rest ∧
      next.close level = (tree.positions level path).foldl Flat.add (flat.close level) := by
  cases tree with
  | elementary leaf =>
    have leafValid : leaf.Valid := valid ⟨level, path, .elementary leaf⟩ List.mem_cons_self
    have step := flattenItem_elementary leafValid groups behind within
    refine ⟨(flat.close level).add ⟨level, path, .elementary leaf⟩, ?_, ?_⟩
    · rw [Tree.positions, List.map_singleton, List.singleton_append, flattenFrom, Position.item]
      simp only [step]
    · show ((flat.close level).close level).add ⟨level, path, .elementary leaf⟩
        = (flat.close level).add ⟨level, path, .elementary leaf⟩
      rw [Flat.close_close flat le_rfl]
  | group name conditions below children =>
    obtain ⟨lt, most, ne, all⟩ := nested
    obtain ⟨first, head, at_below⟩ := @positionsOf_head below (path ++ [name]) children ne
    have deeper : ∃ next ∈ ((positionsOf below (path ++ [name]) children).map (·.item) ++ rest).head?,
        level < next.level := by
      refine ⟨first.item, ?_, ?_⟩
      · rw [List.head?_append, List.head?_map, Option.mem_def.mp head]
        rfl
      · rw [first.item_level, at_below]
        exact lt
    have step := @flattenItem_groupItem _ flat name conditions level _ le deeper
    have kept := flat.enter_close_below name lt
    have names : (((flat.close level).enter level name).close below).groups.map (·.2)
        = path ++ [name] := by
      rw [kept, Flat.enter, List.map_append, groups]
      rfl
    -- The children are added below their group, which closing takes back off the path.
    have opened : (positionsOf below (path ++ [name]) children).foldl Flat.add (flat.close level)
        = ((positionsOf below (path ++ [name]) children).foldl Flat.add
            (((flat.close level).enter level name).close below)).close level := by
      rw [Flat.foldl_add_close, kept, Flat.enter_close]
    have own : (flat.close level).add ⟨level, path, .group name conditions⟩ = flat.close level := by
      simp [Flat.add, Position.fields, Position.bytes, Position.values]
    have total : ((Tree.group name conditions below children).positions level path).foldl Flat.add
        (flat.close level)
        = (positionsOf below (path ++ [name]) children).foldl Flat.add (flat.close level) := by
      rw [Tree.positions, List.foldl_cons, own]
    rw [total, opened] at within
    -- What comes behind the group comes behind its last child too, since its level is lower still.
    obtain ⟨next, walked, closed⟩ := flattenFrom_trees children most all
      (fun position mem => valid position (List.mem_cons_of_mem _ mem)) names
      (fun next mem => (behind next mem).trans lt.le)
      ⟨within.bytes, within.fields, within.values⟩
    refine ⟨next, ?_, ?_⟩
    · rw [Tree.positions, List.map_cons, List.cons_append, flattenFrom, Position.item]
      simp only [step]
      exact walked
    · rw [total, opened, ← closed, Flat.close_close next lt.le]

/-- The walk over siblings adds their data items in order. -/
lemma flattenFrom_trees (trees : List Tree) {level : Nat} {path : List String} {flat : Flat}
    {rest : List Item} (le : level ≤ 49) (nested : NestedAll level trees)
    (valid : ∀ position ∈ positionsOf level path trees, position.node.Valid)
    (groups : (flat.close level).groups.map (·.2) = path)
    (behind : ∀ next ∈ rest.head?, next.level ≤ level)
    (within : ((positionsOf level path trees).foldl Flat.add (flat.close level)).Within) :
    ∃ next, flattenFrom flat ((positionsOf level path trees).map (·.item) ++ rest)
        = flattenFrom next rest ∧
      next.close level = (positionsOf level path trees).foldl Flat.add (flat.close level) := by
  cases trees with
  | nil => exact ⟨flat, rfl, rfl⟩
  | cons tree trees =>
    rw [positionsOf, List.foldl_append] at within
    rw [positionsOf, List.map_append, List.append_assoc, List.foldl_append]
    obtain ⟨first, valid⟩ := List.forall_mem_append.mp valid
    have sibling : ∀ next ∈ ((positionsOf level path trees).map (·.item) ++ rest).head?,
        next.level ≤ level := by
      intro next mem
      cases trees with
      | nil => exact behind next mem
      | cons second trees =>
        obtain ⟨position, head, at_level⟩ :=
          @positionsOf_head level path (second :: trees) (List.cons_ne_nil _ _)
        rw [List.head?_append, List.head?_map, Option.mem_def.mp head] at mem
        cases mem
        rw [position.item_level, at_level]
    obtain ⟨middle, walked, closed⟩ :=
      flattenFrom_tree tree le nested.1 first groups sibling within.before
    rw [← closed] at within
    have names : (middle.close level).groups.map (·.2) = path := by
      rw [closed, Flat.foldl_add]
      exact groups
    obtain ⟨next, walked', closed'⟩ :=
      flattenFrom_trees trees le nested.2 valid names behind within
    exact ⟨next, walked.trans walked', closed'.trans (by rw [closed])⟩

end

end Walk

section Compile

mutual

/-- There is a leaf in every tree. -/
lemma Tree.exists_leaf (tree : Tree) {level : Nat} (nested : tree.Nested level) (path : List String) :
    ∃ position ∈ tree.positions level path, ∃ leaf, position.node = .elementary leaf := by
  cases tree with
  | elementary leaf => exact ⟨_, List.mem_cons_self, leaf, rfl⟩
  | group name conditions below children =>
    obtain ⟨_, _, ne, all⟩ := nested
    obtain ⟨position, mem, leaf⟩ := positionsOf_leaf children ne all (path ++ [name])
    exact ⟨position, List.mem_cons_of_mem _ mem, leaf⟩

/-- And among siblings. -/
lemma positionsOf_leaf (trees : List Tree) (ne : trees ≠ []) {level : Nat}
    (nested : NestedAll level trees) (path : List String) :
    ∃ position ∈ positionsOf level path trees, ∃ leaf, position.node = .elementary leaf := by
  cases trees with
  | nil => exact absurd rfl ne
  | cons tree trees =>
    obtain ⟨position, mem, leaf⟩ := tree.exists_leaf nested.1 path
    exact ⟨position, List.mem_append_left _ mem, leaf⟩

end

variable [Unicode]

/-- An elementary item has the fields of its occurrences. -/
lemma Leaf.Valid.fields {leaf : Leaf} (valid : leaf.Valid) (level : Nat) (path : List String) :
    ∃ shape, describe leaf.picture leaf.storage leaf.name = .ok shape ∧
      (leaf.name ≠ none → shape.size ≤ widthLimit shape.kind) ∧ 1 ≤ leaf.count ∧
      Position.fields ⟨level, path, .elementary leaf⟩
        = (List.range leaf.count).map fun i => leaf.field level path shape (i + 1) := by
  obtain ⟨shape, described, width⟩ := valid.shape
  refine ⟨shape, Fallible.toOption_eq_some.mp described, width, ?_, ?_⟩
  · rw [Leaf.count]
    cases some : leaf.occurs with
    | none => exact le_rfl
    | some count => exact (valid.occurs count some).1
  · rw [Position.fields]
    simp only [described]

/-- A valid tree has a field. -/
lemma Tree.Valid.fields_ne {tree : Tree} (valid : tree.Valid) : tree.fields ≠ [] := by
  obtain ⟨⟨level, path, _⟩, mem, leaf, rfl⟩ := tree.exists_leaf valid.nested []
  obtain ⟨shape, _, _, count, eq⟩ := Leaf.Valid.fields (valid.nodes _ mem) level path
  intro none
  have empty : Position.fields ⟨level, path, .elementary leaf⟩ = [] :=
    List.flatMap_eq_nil_iff.mp none _ mem
  rw [eq, List.map_eq_nil_iff, List.range_eq_nil] at empty
  omega

/-- The root of a tree is its only item at level 1. -/
lemma Tree.Valid.root {tree : Tree} (valid : tree.Valid) :
    ∃ item items, tree.all.map (·.item) = item :: items ∧ item.level = 1 ∧ item.name = tree.name ∧
      ∀ other ∈ items, 1 < other.level ∧ other.level ≤ 49 := by
  cases tree with
  | elementary leaf => exact ⟨_, _, rfl, rfl, rfl, fun _ mem => absurd mem List.not_mem_nil⟩
  | group name conditions below children =>
    obtain ⟨lt, most, _, all⟩ := valid.nested
    refine ⟨_, _, rfl, rfl, rfl, List.forall_mem_map.mpr fun position mem => ?_⟩
    have range := positionsOf_level children most all _ position mem
    rw [position.item_level]
    exact ⟨lt.trans_le range.1, range.2⟩

/-- The items of a tree pass the checks on the roots. -/
lemma Tree.Valid.roots {tree : Tree} (valid : tree.Valid) :
    checkRoots (tree.all.map (·.item)) = .ok () := by
  obtain ⟨item, items, eq, level, _, others⟩ := valid.root
  have single : ((item :: items).filter fun item => item.level = 1 ∨ item.level = 77) = [item] := by
    rw [List.filter_cons_of_pos (by simp [level]), List.filter_eq_nil_iff.mpr]
    intro other mem
    have range := others other mem
    simp
    omega
  rw [eq, checkRoots, single]
  simp [level]

/-- A printed tree compiles to the layout it stands for. -/
lemma Tree.Valid.compiles {tree : Tree} (valid : tree.Valid) : compile tree.print = .ok tree.layout := by
  obtain ⟨stated, collected⟩ := valid.collected
  obtain ⟨item, items, eq, _, name, _⟩ := valid.root
  have total : (tree.all.foldl Flat.add {}).Within := by
    rw [Flat.foldl_add]
    refine ⟨?_, ?_, ?_⟩
    · exact (Nat.zero_add _).le.trans valid.bytes_le
    · exact valid.fields_le
    · exact (Nat.zero_add _).le.trans valid.values_le
  obtain ⟨flat, walked, closed⟩ := @flattenFrom_tree _ tree 1 [] {} [] (by decide) valid.nested
    valid.nodes rfl (fun _ mem => by cases mem) total
  rw [List.append_nil, flattenFrom] at walked
  have out : flat.out = tree.fields := by
    have same := congrArg Flat.out closed
    rw [Flat.foldl_add] at same
    exact same
  have compiled : compileItems (tree.all.map (·.item)) = .ok tree.layout := by
    refine compileItems_ok.mpr ⟨flat, valid.roots, walked, out ▸ valid.fields_ne, ?_⟩
    rw [eq, List.head?_cons, Option.bind_some, name, out]
    rfl
  refine compile_ok.mpr ⟨_, stated, compileStatements_ok.mpr ⟨?_, _, collected, compiled⟩⟩
  intro none
  rw [none, eq] at collected
  cases collected

end Compile

section Offsets

/-- Fields without offsets of their own fit when their sizes do. -/
lemma placedWithin_sum {cursor : Nat} {raws : List RawField} (free : ∀ raw ∈ raws, raw.offset = none)
    (le : cursor + (raws.map (·.size)).sum ≤ maxRecordBytes) : PlacedWithin cursor raws := by
  induction raws generalizing cursor with
  | nil => trivial
  | cons raw raws ih =>
    obtain ⟨first, free⟩ := List.forall_mem_cons.mp free
    have start : raw.start cursor = cursor := by
      rw [RawField.start, first]
      rfl
    rw [List.map_cons, List.sum_cons] at le
    rw [PlacedWithin, start]
    exact ⟨le_rfl, by omega, ih free (by omega)⟩

/-- They end where their sizes add up to. -/
lemma fieldsEnd_sum {cursor : Nat} {raws : List RawField} (free : ∀ raw ∈ raws, raw.offset = none) :
    fieldsEnd cursor raws = cursor + (raws.map (·.size)).sum := by
  induction raws generalizing cursor with
  | nil => rfl
  | cons raw raws ih =>
    obtain ⟨first, free⟩ := List.forall_mem_cons.mp free
    have start : raw.start cursor = cursor := by
      rw [RawField.start, first]
      rfl
    rw [fieldsEnd, start, ih free, List.map_cons, List.sum_cons, Nat.add_assoc]

/-- And each is where the sizes before it add up to. -/
lemma resolveFields_sum {cursor : Nat} {raws : List RawField}
    (free : ∀ raw ∈ raws, raw.offset = none) :
    resolveFields cursor raws
      = raws.mapIdx fun i raw => raw.resolved (cursor + ((raws.take i).map (·.size)).sum) := by
  induction raws generalizing cursor with
  | nil => rfl
  | cons raw raws ih =>
    obtain ⟨first, free⟩ := List.forall_mem_cons.mp free
    have start : raw.start cursor = cursor := by
      rw [RawField.start, first]
      rfl
    rw [resolveFields, start, ih free, List.mapIdx_cons]
    simp [Nat.add_assoc]

end Offsets

section Shapes

variable [Unicode]

/-- A picture has no more digits behind the point than digits. -/
lemma countDigits_scale {picture label : String} {position : Nat} {acc acc' : Digits}
    {symbols : List Char} (ok : countDigits picture label position acc symbols = .ok acc')
    (le : acc.scale ≤ acc.digits) : acc'.scale ≤ acc'.digits := by
  induction symbols generalizing position acc with
  | nil =>
    cases ok
    exact le
  | cons symbol symbols ih =>
    rw [countDigits] at ok
    split at ok
    · rw [Fallible.guard_eq_ok] at ok
      exact ih ok.2 le
    · split at ok
      · rw [Fallible.guard_eq_ok] at ok
        exact ih ok.2 le
      · split at ok
        · apply ih ok
          dsimp only
          split <;> omega
        · cases ok

/-- What a picture describes has a width, and a scale its digits can hold. -/
lemma describe_fits {picture : String} {usage : Usage} {name : Option String}
    {described : Described} (ok : describe picture usage name = .ok described) :
    0 < described.size ∧ ScaleFits described.kind described.size described.scale := by
  obtain ⟨symbols, _, ne, rest⟩ := describe_ok.mp ok
  split at rest
  · simp only [describeCharacter, Fallible.guard_eq_ok] at rest
    have rest := rest.2
    split at rest
    · cases rest
    · rw [Fallible.guard_eq_ok] at rest
      cases rest.2
      exact ⟨List.length_pos_of_ne_nil ne, .inl rfl⟩
  · obtain ⟨acc, counted, some, stored⟩ := rest
    have scale : acc.scale ≤ acc.digits := countDigits_scale counted le_rfl
    cases usage with
    | display =>
      cases stored
      exact ⟨Nat.pos_of_ne_zero some, .inr (.inr ⟨rfl, scale⟩)⟩
    | packed =>
      cases stored
      refine ⟨Nat.succ_pos _, .inr (.inr ⟨rfl, ?_⟩)⟩
      simp only [digitCapacity]
      omega
    | binary =>
      obtain ⟨width, wide, rfl⟩ := Option.map_eq_some_iff.mp stored
      have spec : 0 < width ∧ acc.digits ≤ 18 := by
        unfold binaryWidth at wide
        split_ifs at wide <;> cases wide <;> omega
      refine ⟨spec.1, .inr (.inr ?_)⟩
      cases acc.signed <;> simp only [if_true, if_false, Bool.false_eq_true, digitCapacity,
        FieldKind.isNumeric, maxBinaryDigits, true_and] <;> omega

end Shapes

section Names

variable [Unicode]

/-- A name has no subscript in it. -/
lemma NameValid.no_subscript {name : String} (valid : NameValid name) : '(' ∉ name.toList := by
  intro mem
  have chars := valid.chars
  rw [isDataName, Bool.and_eq_true, List.all_eq_true] at chars
  cases chars.2 _ mem

/-- The name of a column is what stands in front of its subscript. -/
lemma Leaf.Valid.column {leaf : Leaf} (valid : leaf.Valid) {name : String}
    (named : leaf.name = some name) (occurrence : Nat) :
    (leaf.column occurrence).toList.takeWhile (· ≠ '(') = name.toList := by
  have plain : ∀ c ∈ name.toList, decide (c ≠ '(') = true := by
    intro c mem
    rw [decide_eq_true_eq]
    rintro rfl
    exact (valid.name name named).no_subscript mem
  rw [Leaf.column, named]
  cases leaf.occurs with
  | none => exact List.takeWhile_eq_self_iff.mpr plain
  | some count =>
    have split : (name ++ "(" ++ toString occurrence ++ ")").toList
        = name.toList ++ '(' :: ((toString occurrence).toList ++ [')']) := by
      simp
    simp only [split]
    rw [List.takeWhile_append_of_pos plain]
    simp

/-- The columns of a leaf are those of a named one. -/
lemma Leaf.Valid.cellNames {leaf : Leaf} (valid : leaf.Valid) {level : Nat} {path : List String} :
    ∀ column ∈ rawCellNames (Position.fields ⟨level, path, .elementary leaf⟩),
      ∃ name, leaf.name = some name ∧ column.toList.takeWhile (· ≠ '(') = name.toList := by
  obtain ⟨shape, _, _, _, eq⟩ := valid.fields level path
  intro column mem
  rw [rawCellNames, eq] at mem
  obtain ⟨raw, has, rfl⟩ := List.mem_map.mp mem
  obtain ⟨has, cell⟩ := List.mem_filter.mp has
  obtain ⟨i, _, rfl⟩ := List.mem_map.mp has
  cases named : leaf.name with
  | none => simp [Leaf.field, named] at cell
  | some name => exact ⟨name, rfl, valid.column named (i + 1)⟩

/-- No two of them are the same. -/
lemma Leaf.Valid.cellNames_nodup {leaf : Leaf} (valid : leaf.Valid) {level : Nat}
    {path : List String} : (rawCellNames (Position.fields ⟨level, path, .elementary leaf⟩)).Nodup := by
  obtain ⟨shape, _, _, _, eq⟩ := valid.fields level path
  cases named : leaf.name with
  | none =>
    have none : rawCellNames (Position.fields ⟨level, path, .elementary leaf⟩) = [] := by
      rw [List.eq_nil_iff_forall_not_mem]
      intro column mem
      obtain ⟨name, some, _⟩ := valid.cellNames column mem
      rw [named] at some
      cases some
    rw [none]
    exact List.nodup_nil
  | some name =>
    have columns : ((List.range leaf.count).map fun i => leaf.column (i + 1)).Nodup := by
      rw [Leaf.count]
      simp only [Leaf.column, named]
      cases leaf.occurs with
      | none => exact List.pairwise_singleton _ _
      | some count =>
        refine List.Nodup.map (fun i j same => ?_) List.nodup_range
        have lists := congrArg String.toList same
        simp only [String.toList_append, List.append_assoc] at lists
        have digits := List.append_cancel_right
          (List.append_cancel_left (List.append_cancel_left lists))
        exact Nat.succ_injective (toString_nat_inj (String.toList_inj.mp digits))
    rw [rawCellNames, eq]
    refine (columns.sublist ?_)
    have names : ((List.range leaf.count).map fun i => leaf.column (i + 1))
        = ((List.range leaf.count).map fun i => leaf.field level path shape (i + 1)).map (·.name) := by
      rw [List.map_map]
      rfl
    rw [names]
    exact List.filter_sublist.map _

/-- The columns of a record are distinct when the names of its leaves are. -/
lemma Tree.Valid.cellNames_nodup {tree : Tree} (valid : tree.Valid) :
    (rawCellNames tree.fields).Nodup := by
  have split : rawCellNames tree.fields
      = tree.all.flatMap fun position => rawCellNames position.fields := by
    rw [rawCellNames, Tree.fields, List.filter_flatMap, List.map_flatMap]
    rfl
  rw [split, List.nodup_flatMap]
  constructor
  · rintro ⟨level, path, node⟩ mem
    cases node with
    | elementary leaf => exact Leaf.Valid.cellNames_nodup (valid.nodes _ mem)
    | group name conditions => exact List.nodup_nil
  · apply (List.pairwise_filterMap.mp valid.names).imp_of_mem
    rintro ⟨level, path, node⟩ ⟨level', path', node'⟩ mem mem' distinct column here there
    cases node with
    | group name conditions => cases here
    | elementary leaf =>
      cases node' with
      | group name conditions => cases there
      | elementary leaf' =>
        obtain ⟨name, named, front⟩ := Leaf.Valid.cellNames (valid.nodes _ mem) column here
        obtain ⟨name', named', front'⟩ := Leaf.Valid.cellNames (valid.nodes _ mem') column there
        exact distinct name named name' named' (String.toList_inj.mp (front.symm.trans front'))

end Names

section Validate

variable [Unicode]

/-- A field of a tree is an occurrence of one of its leaves. -/
lemma Tree.Valid.field {tree : Tree} (valid : tree.Valid) {raw : RawField} (mem : raw ∈ tree.fields) :
    ∃ leaf level path shape i, leaf.Valid ∧ raw = Leaf.field leaf level path shape i ∧
      describe leaf.picture leaf.storage leaf.name = .ok shape ∧
      (leaf.name ≠ none → shape.size ≤ widthLimit shape.kind) := by
  obtain ⟨⟨level, path, node⟩, has, mem⟩ := List.mem_flatMap.mp mem
  cases node with
  | group name conditions => cases mem
  | elementary leaf =>
    have leafValid : leaf.Valid := valid.nodes _ has
    obtain ⟨shape, described, width, _, eq⟩ := leafValid.fields level path
    rw [eq] at mem
    obtain ⟨i, _, rfl⟩ := List.mem_map.mp mem
    exact ⟨leaf, level, path, shape, i + 1, leafValid, rfl, described, width⟩

/-- The sizes of the fields add up to that of the record. -/
lemma Tree.Valid.sizes {tree : Tree} (valid : tree.Valid) :
    (tree.fields.map (·.size)).sum = tree.bytes := by
  have all : ∀ position ∈ tree.all,
      (position.fields.map (·.size)).sum = position.bytes := by
    rintro ⟨level, path, node⟩ mem
    cases node with
    | group name conditions => rfl
    | elementary leaf =>
      obtain ⟨shape, described, _, _, eq⟩ := Leaf.Valid.fields (valid.nodes _ mem) level path
      have some : leaf.shape = some shape := Fallible.toOption_eq_some.mpr described
      have each : ((List.range leaf.count).map fun i => leaf.field level path shape (i + 1)).map (·.size)
          = List.replicate leaf.count shape.size := by
        have size : (fun raw : RawField => raw.size) ∘ (fun i => leaf.field level path shape (i + 1))
            = fun _ => shape.size := rfl
        rw [List.map_map, size, List.map_const', List.length_range]
      rw [eq, each, List.sum_replicate, Position.bytes]
      simp [some, Nat.mul_comm]
  rw [Tree.fields, List.map_flatMap, List.flatMap, List.sum_flatten, List.map_map, Tree.bytes]
  exact congrArg List.sum (List.map_congr_left all)

/-- The fields of a tree have no offsets of their own. -/
lemma Tree.Valid.free {tree : Tree} (valid : tree.Valid) :
    ∀ raw ∈ tree.fields, raw.offset = none := by
  intro raw mem
  obtain ⟨_, _, _, _, _, _, rfl, _⟩ := valid.field mem
  rfl

/-- What is asked of the fields of a record holds of those of a tree. -/
lemma Tree.Valid.admitted {tree : Tree} (valid : tree.Valid) : FieldsAdmitted 0 [] tree.fields := by
  have total : 0 + (tree.fields.map (·.size)).sum ≤ maxRecordBytes := by
    rw [Nat.zero_add, valid.sizes]
    exact valid.bytes_le
  refine ⟨fun raw mem => ?_, fun raw mem => ?_, placedWithin_sum valid.free total, fun raw mem cell => ?_,
    valid.cellNames_nodup, fun _ _ => List.not_mem_nil⟩
  · have le : raw.size ≤ maxRecordBytes :=
      (List.le_sum_of_mem (List.mem_map_of_mem mem)).trans ((Nat.zero_add _).symm.le.trans total)
    obtain ⟨leaf, level, path, shape, i, _, rfl, described, width⟩ := valid.field mem
    refine ⟨(describe_fits described).1, ?_⟩
    cases named : leaf.name with
    | none =>
      simp only [Leaf.field, named, if_true] at le ⊢
      exact le
    | some name =>
      have some : leaf.name ≠ none := named ▸ Option.some_ne_none name
      simp only [Leaf.field, if_neg some]
      exact width some
  · obtain ⟨leaf, level, path, shape, i, _, rfl, described, _⟩ := valid.field mem
    cases named : leaf.name with
    | none =>
      simp only [Leaf.field, named, if_true]
      exact .inr (.inl rfl)
    | some name =>
      have some : leaf.name ≠ none := named ▸ Option.some_ne_none name
      simp only [Leaf.field, if_neg some]
      exact (describe_fits described).2
  · obtain ⟨leaf, level, path, shape, i, leafValid, rfl, _⟩ := valid.field mem
    cases named : leaf.name with
    | none => simp [Leaf.field, named] at cell
    | some name =>
      intro empty
      have column := leafValid.column named i
      have none : leaf.column i = "" := empty
      rw [none] at column
      exact (leafValid.name name named).word.1.2 (String.toList_inj.mp column.symm)

/-- The layout of a tree is what is asked of one. -/
lemma Tree.Valid.layout_admitted {tree : Tree} (valid : tree.Valid) : tree.layout.Admitted where
  records_ne := List.cons_ne_nil _ _
  footer_le := Nat.zero_le _
  lengthField _ mem := by cases mem
  typeField _ mem := by cases mem
  typed many := absurd many (lt_irrefl 1)
  fields_le := (Nat.add_zero _).le.trans valid.fields_le
  names := List.pairwise_singleton _ _
  selectors present := absurd rfl present
  record := List.forall_mem_singleton.mpr ⟨valid.fields_ne, valid.admitted⟩

/-- The record of a tree has a name. -/
lemma Tree.Valid.name_ne {tree : Tree} (valid : tree.Valid) : tree.name.getD "record" ≠ "" := by
  cases tree with
  | elementary leaf =>
    have leafValid : leaf.Valid := valid.nodes ⟨1, [], .elementary leaf⟩ List.mem_cons_self
    show leaf.name.getD "record" ≠ ""
    cases named : leaf.name with
    | none => decide
    | some name => exact (leafValid.name name named).word.1.2
  | group name conditions below children =>
    have node : NameValid name ∧ ∀ condition ∈ conditions, condition.Valid :=
      valid.nodes ⟨1, [], .group name conditions⟩ List.mem_cons_self
    exact node.1.word.1.2

/-- The layout of a valid tree validates with each field right behind the one before it. -/
lemma Tree.Valid.validates {tree : Tree} (valid : tree.Valid) :
    validate tree.layout .copybook = .ok {
      records := [tree.record]
      description := ""
      headerSize := 0
      footerSize := 0
      recordLengthField := none
      recordTypeField := none
      prefixSize := 0
      source := .copybook } := by
  refine validate_resolved.mpr ⟨valid.layout_admitted, ?_⟩
  have named : RawRecord.schemaName ⟨tree.name.getD "record", tree.fields, none⟩
      = tree.name.getD "record" := by
    rw [RawRecord.schemaName, if_neg]
    simpa using valid.name_ne
  have record : RawRecord.resolved ⟨tree.name.getD "record", tree.fields, none⟩ = tree.record := by
    rw [RawRecord.resolved, named, Tree.record]
    simp only [resolveFields_sum valid.free, fieldsEnd_sum valid.free, Nat.zero_add, valid.sizes]
  rw [RawLayout.resolved, Tree.layout, List.map_singleton, record]
  rfl

/-- A valid tree, printed as free-format source, compiles to its leaves in order and validates with each
field right behind the one before it. -/
theorem compile_tree (tree : Tree) (valid : tree.Valid) :
    compile tree.print = .ok tree.layout ∧
      validate tree.layout .copybook = .ok {
        records := [tree.record]
        description := ""
        headerSize := 0
        footerSize := 0
        recordLengthField := none
        recordTypeField := none
        prefixSize := 0
        source := .copybook } := by
  exact ⟨valid.compiles, valid.validates⟩

end Validate

section Sample

attribute [local instance] asciiUnicode

/-- A table of three bytes, twice, with a condition. -/
def sampleTable : Leaf where
  name := some "A"
  picture := "X(3)"
  usage := none
  occurs := some 2
  value := none
  conditions := [⟨"FULL", [⟨.quoted '\'' "A. B", none⟩, ⟨.plain "1", some (.plain "9")⟩]⟩]

/-- A packed number with an initial value. -/
def sampleNumberLeaf : Leaf where
  name := some "B"
  picture := "S9(3)V99"
  usage := some ⟨["USAGE"], "COMP-3"⟩
  occurs := none
  value := some (.plain "-1.5")
  conditions := []

/-- A filler. -/
def sampleFiller : Leaf := ⟨none, "X", none, none, none, []⟩

/-- Two groups, both of which end at `B`. -/
def sampleTree : Tree :=
  .group "REC" [] 5 [
    .group "G" [] 10 [.group "H" [] 15 [.elementary sampleTable]],
    .elementary sampleNumberLeaf,
    .elementary sampleFiller]

lemma sampleTable_valid : sampleTable.Valid where
  name := by
    rintro _ ⟨⟩
    exact ⟨by decide, by decide, by decide⟩
  shape := ⟨⟨.text, 3, 0⟩, rfl, fun _ => by decide⟩
  usage := by rintro _ ⟨⟩
  occurs := by
    rintro _ ⟨⟩
    decide
  value := by rintro _ ⟨⟩
  conditions := by
    refine List.forall_mem_singleton.mpr ⟨⟨by decide, by decide, by decide⟩, by simp, ?_, ?_⟩
    · refine List.forall_mem_cons.mpr ⟨⟨by decide, by decide⟩, List.forall_mem_singleton.mpr ?_⟩
      exact ⟨by decide, by decide, by decide, by decide⟩
    · refine List.forall_mem_cons.mpr ⟨by rintro _ ⟨⟩, List.forall_mem_singleton.mpr ?_⟩
      rintro _ ⟨⟩
      exact ⟨by decide, by decide, by decide, by decide⟩

lemma sampleNumberLeaf_valid : sampleNumberLeaf.Valid where
  name := by
    rintro _ ⟨⟩
    exact ⟨by decide, by decide, by decide⟩
  shape := ⟨⟨.packedDecimal, 3, 2⟩, rfl, fun _ => by decide⟩
  usage := by
    rintro _ ⟨⟩
    decide
  occurs := by rintro _ ⟨⟩
  value := by
    rintro _ ⟨⟩
    exact ⟨by decide, by decide, by decide, by decide⟩
  conditions := by
    rintro _ ⟨⟩

lemma sampleFiller_valid : sampleFiller.Valid where
  name := by rintro _ ⟨⟩
  shape := ⟨⟨.text, 1, 0⟩, rfl, fun some => absurd rfl some⟩
  usage := by rintro _ ⟨⟩
  occurs := by rintro _ ⟨⟩
  value := by rintro _ ⟨⟩
  conditions := by
    rintro _ ⟨⟩

lemma sampleTree_valid : sampleTree.Valid where
  nested := by simp [sampleTree, Tree.Nested, NestedAll]
  nodes := by
    have name : NameValid "REC" ∧ NameValid "G" ∧ NameValid "H" :=
      ⟨⟨by decide, by decide, by decide⟩, ⟨by decide, by decide, by decide⟩,
        ⟨by decide, by decide, by decide⟩⟩
    simp [sampleTree, Tree.all, Tree.positions, positionsOf, Node.Valid, name, sampleTable_valid,
      sampleNumberLeaf_valid, sampleFiller_valid]
  names := by decide
  bytes_le := by decide
  fields_le := by decide
  values_le := by decide

/-- The source of the sample. -/
example : sampleTree.print = "01 REC.\n05 G.\n10 H.\n15 A PIC X(3) OCCURS 2.\n" ++
    "88 FULL VALUE 'A. B' 1 THRU 9.\n05 B PIC S9(3)V99 USAGE COMP-3 VALUE -1.5.\n" ++
    "05 FILLER PIC X." := by
  decide

theorem compile_tree_sample :
    compile sampleTree.print = .ok sampleTree.layout ∧
      validate sampleTree.layout .copybook = .ok {
        records := [sampleTree.record]
        description := ""
        headerSize := 0
        footerSize := 0
        recordLengthField := none
        recordTypeField := none
        prefixSize := 0
        source := .copybook } :=
  compile_tree sampleTree sampleTree_valid

end Sample

end GrpcEbcdic.Copybook

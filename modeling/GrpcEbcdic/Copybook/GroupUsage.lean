import GrpcEbcdic.Copybook.Clauses
import GrpcEbcdic.Copybook.Usages

/-!
# The usage of a group

What a copybook would describe if every elementary item without a usage of its own took the usage of the
nearest group around it that declares one (`honoured`), against what it compiles to. The compiler does
not pass usages down, so the two agree exactly where a usage handed down describes the same bytes as
`DISPLAY` (`compile_groupUsage_iff`).
-/

namespace GrpcEbcdic.Copybook
open Rust Fallible

section Spec

/-- The usage a statement declares: the last usage word behind its level number. -/
def declaredUsage [Unicode] (statement : Statement) : Option Usage :=
  ((statement.tail.map toUppercase).filterMap usageOf).getLast?

/-- The items of a copybook, each with the usage its statement declares. -/
def declarations [Unicode] (stmts : List Statement) : List (Item × Option Usage) :=
  stmts.filterMap fun statement => (parsedItem statement).map (·, declaredUsage statement)

/-- The usage handed down to an item of this level: the one of the nearest group around it that declares
one. The levels and usages in front of it come nearest first. -/
def inherited (level : Nat) : List (Nat × Option Usage) → Option Usage
  | [] => none
  | (outer, usage) :: before =>
    if outer < level then usage.or (inherited outer before) else inherited level before

/-- An item with the usage handed down to it, when it declares none of its own. -/
def Item.honour (item : Item) (own : Option Usage) (before : List (Nat × Option Usage)) : Item :=
  match own, inherited item.level before with
  | none, some usage => item.withUsage usage
  | _, _ => item

/-- The items with the usages of their groups. -/
def honoured (before : List (Nat × Option Usage)) : List (Item × Option Usage) → List Item
  | [] => []
  | (item, own) :: rest => item.honour own before :: honoured ((item.level, own) :: before) rest

/-- Wherever a usage is handed down to an elementary item, it describes the same bytes as `DISPLAY`. -/
def Unaffected [Unicode] (outer : List (Nat × Option Usage)) (items : List (Item × Option Usage)) :
    Prop :=
  ∀ before item after usage, items = before ++ (item, none) :: after →
    isGroup item (after.map (·.1)) = false →
    inherited item.level ((before.map fun (item, own) => (item.level, own)).reverse ++ outer)
      = some usage →
    usage.SameBytes item.name item.picture

end Spec

section Parsing

variable [Unicode]

/-- What the clause loop read comes from the tokens it went over. -/
structure Clauses.From (acc : Clauses) (tokens : List String) (clauses : Clauses) : Prop where
  usage : clauses.usage = acc.usage ∨ ∃ token ∈ tokens, (usageOf token).isSome = true
  occurs : clauses.occurs = acc.occurs ∨ ∃ n, clauses.occurs = some n ∧ 1 ≤ n

omit [Unicode] in
/-- It may go over more tokens, and start with another picture. -/
lemma Clauses.From.weaken {acc acc' clauses : Clauses} {tokens tokens' : List String}
    (fr : acc'.From tokens' clauses) (sub : ∀ token ∈ tokens', token ∈ tokens)
    (us : acc'.usage = acc.usage ∨ ∃ token ∈ tokens, (usageOf token).isSome = true)
    (oc : acc'.occurs = acc.occurs ∨ ∃ n, acc'.occurs = some n ∧ 1 ≤ n) :
    acc.From tokens clauses where
  usage := by
    rcases fr.usage with eq | ⟨token, mem, u⟩
    · exact us.imp_left eq.trans
    · exact .inr ⟨token, sub token mem, u⟩
  occurs := by
    rcases fr.occurs with eq | pos
    · rw [eq]
      exact oc
    · exact .inr pos

lemma parseClauses_from {label : String} {acc clauses : Clauses} {tokens : List String}
    (ok : parseClauses label acc tokens = .ok clauses) : acc.From tokens clauses := by
  fun_induction parseClauses label acc tokens with
  | case1 | case20 =>
    cases ok
    exact ⟨.inl rfl, .inl rfl⟩
  | case5 | case6 | case21 =>
    rename_i ih
    exact (ih ok).weaken (fun _ mem => by simp [mem]) (.inl rfl) (.inl rfl)
  | case11 acc word _ usage us | case14 acc word _ _ usage us =>
    rename_i ih
    exact (ih ok).weaken (fun _ mem => by simp [mem]) (.inr ⟨word, by simp, by simp [us]⟩) (.inl rfl)
  | case19 acc word _ _ _ _ _ usage us =>
    rename_i ih
    exact (ih ok).weaken (fun _ mem => by simp [mem]) (.inr ⟨word, by simp, by simp [us]⟩) (.inl rfl)
  | case18 _ _ _ count _ range =>
    rename_i ih
    exact (ih ok).weaken (fun _ mem => by simp [mem]) (.inl rfl) (.inr ⟨count, rfl, by omega⟩)
  | _ => cases ok

/-- A parsed item has been through the clause loop. -/
lemma parseItem_ok {statement : Statement} {item : Item}
    (ok : parseItem statement = .ok (.item item)) :
    ∃ clauses, (parseClauses ((itemName statement).1.getD "FILLER") {}
        ((itemName statement).2.map toUppercase)) = .ok clauses ∧
      item.usage = clauses.usage.getD .display ∧ item.occurs = clauses.occurs := by
  obtain ⟨level, clauses, read, rfl⟩ := parseItem_item ok
  exact ⟨clauses, read, rfl, rfl⟩

/-- The clauses follow the level number. -/
lemma itemName_tail (statement : Statement) : (itemName statement).2 ⊆ statement.tail := by
  unfold itemName
  split
  · exact List.nil_subset _
  · next name rest eq =>
    rw [eq]
    split
    · exact List.Subset.refl _
    · split <;> exact List.subset_cons_self name rest

/-- An item whose statement declares no usage has `DISPLAY`, and every item occurs at least once. -/
lemma declarations_spec {stmts : List Statement} {item : Item} {own : Option Usage}
    (mem : (item, own) ∈ declarations stmts) :
    (own = none → item.usage = .display) ∧ 1 ≤ item.occurs.getD 1 := by
  obtain ⟨statement, _, eq⟩ := List.mem_filterMap.mp mem
  obtain ⟨found, hp, eq⟩ := Option.map_eq_some_iff.mp eq
  cases eq
  rw [parsedItem, Option.bind_eq_some_iff] at hp
  obtain ⟨parsed, hp, bare⟩ := hp
  cases parsed with
  | condition _ => cases bare
  | item item =>
    cases bare
    obtain ⟨clauses, ok, usage, occurs⟩ := parseItem_ok (toOption_eq_some.mp hp)
    have fr := parseClauses_from ok
    constructor
    · intro own
      rw [declaredUsage, List.getLast?_eq_none_iff, List.filterMap_eq_nil_iff] at own
      have none : clauses.usage = none := by
        rcases fr.usage with eq | ⟨token, mem, some⟩
        · exact eq
        · have none := own token (List.map_subset _ (itemName_tail statement) mem)
          rw [none] at some
          cases some
      exact usage.trans (by rw [none]; rfl)
    · rcases fr.occurs with eq | ⟨n, eq, pos⟩
      · rw [Item.bare, occurs, eq]
        exact le_refl 1
      · rw [Item.bare, occurs, eq]
        exact pos

end Parsing

section Agreement

variable [Unicode]

omit [Unicode] in
/-- An item honours its groups in its usage alone. -/
@[simp]
lemma Item.honour_level (item : Item) (own : Option Usage) (before : List (Nat × Option Usage)) :
    (item.honour own before).level = item.level := by
  unfold Item.honour
  split <;> rfl

omit [Unicode] in
@[simp]
lemma Item.honour_occurs (item : Item) (own : Option Usage) (before : List (Nat × Option Usage)) :
    (item.honour own before).occurs = item.occurs := by
  unfold Item.honour
  split <;> rfl

omit [Unicode] in
/-- Nor does it become a group or cease to be one. -/
lemma isGroup_honoured (item : Item) (own : Option Usage) (before outer : List (Nat × Option Usage))
    (rest : List (Item × Option Usage)) :
    isGroup (item.honour own before) (honoured outer rest) = isGroup item (rest.map (·.1)) := by
  cases rest with
  | nil => rfl
  | cons next rest =>
    simp [isGroup, honoured]

/-- The first of the items, and those behind it. -/
lemma unaffected_cons {outer : List (Nat × Option Usage)} {item : Item} {own : Option Usage}
    {rest : List (Item × Option Usage)} :
    Unaffected outer ((item, own) :: rest) ↔
      (own = none → isGroup item (rest.map (·.1)) = false → ∀ usage,
        inherited item.level outer = some usage → usage.SameBytes item.name item.picture) ∧
      Unaffected ((item.level, own) :: outer) rest := by
  constructor
  · intro un
    constructor
    · rintro rfl leaf usage down
      exact un [] item rest usage rfl leaf down
    · intro before found after usage eq leaf down
      apply un ((item, own) :: before) found after usage (by rw [eq]; rfl) leaf
      simpa using down
  · rintro ⟨head, tail⟩ before found after usage eq leaf down
    cases before with
    | nil =>
      cases eq
      exact head rfl leaf usage down
    | cons first before =>
      cases eq
      apply tail before found after usage rfl leaf
      simpa using down

/-- Handing a usage down to an elementary item leaves its shape alone exactly when the usage describes
the same bytes. -/
lemma honour_shape_iff {item : Item} {own : Option Usage} {before : List (Nat × Option Usage)}
    {shape : Described} (some : item.shape = some shape)
    (display : own = none → item.usage = .display) :
    (item.honour own before).shape = item.shape ↔
      (own = none → ∀ usage, inherited item.level before = .some usage →
        usage.SameBytes item.name item.picture) := by
  unfold Item.honour
  cases own with
  | some u => simp
  | none =>
    have same : item.withUsage .display = item := by
      rw [Item.withUsage, ← display rfl]
    cases inherited item.level before with
    | none => simp
    | some usage =>
      have iff := @Item.shape_display_iff _ item usage shape (.inr (same.symm ▸ some))
      rw [same] at iff
      simpa using iff

/-- The items compile to the shapes of their own usages, so they honour their groups exactly when
nothing that is handed down matters. -/
lemma honoured_iff {outer : List (Nat × Option Usage)} {items : List (Item × Option Usage)}
    (total : ∀ shape ∈ leafShapes (items.map (·.1)), shape.isSome = true)
    (spec : ∀ item own, (item, own) ∈ items →
      (own = none → item.usage = .display) ∧ 1 ≤ item.occurs.getD 1) :
    leafShapes (items.map (·.1)) = leafShapes (honoured outer items) ↔ Unaffected outer items := by
  induction items generalizing outer with
  | nil => exact iff_of_true rfl fun before _ _ _ eq => by simp at eq
  | cons first rest ih =>
    obtain ⟨item, own⟩ := first
    obtain ⟨display, pos⟩ := spec item own List.mem_cons_self
    rw [List.map_cons, leafShapes] at total
    have tail : leafShapes (rest.map (·.1)) = leafShapes (honoured ((item.level, own) :: outer) rest) ↔
        Unaffected ((item.level, own) :: outer) rest :=
      ih (fun shape mem => total shape (List.mem_append_right _ mem))
        (fun item own mem => spec item own (List.mem_cons_of_mem _ mem))
    rw [List.map_cons, honoured, leafShapes, leafShapes, isGroup_honoured, Item.honour_occurs,
      unaffected_cons, ← tail]
    cases gr : isGroup item (rest.map (·.1)) with
    | true => simp
    | false =>
      rw [gr] at total
      have mem : item.shape ∈ List.replicate (item.occurs.getD 1) item.shape :=
        List.mem_replicate.mpr ⟨Nat.ne_of_gt pos, rfl⟩
      obtain ⟨shape, some⟩ := Option.isSome_iff_exists.mp
        (total _ (List.mem_append_left _ mem))
      simp only [Bool.false_eq_true, if_false, forall_const]
      rw [← honour_shape_iff some display]
      constructor
      · intro eq
        obtain ⟨head, tail⟩ := List.append_inj eq (by simp)
        exact ⟨((List.replicate_right_inj (Nat.ne_of_gt pos)).mp head).symm, tail⟩
      · rintro ⟨head, tail⟩
        rw [head, tail]

/-- In a copybook that compiles, every elementary item without a usage of its own has the fields of the
usage its nearest declaring group hands down exactly when each of these describes the same bytes as
`DISPLAY`. -/
theorem compile_groupUsage_iff {source : String} {stmts : List Statement} {raw : RawLayout}
    (st : statements source = .ok stmts) (ok : compile source = .ok raw) :
    raw.shapes.map some = leafShapes (honoured [] (declarations stmts)) ↔
      Unaffected [] (declarations stmts) := by
  have items : (declarations stmts).map (·.1) = stmts.filterMap parsedItem := by
    rw [declarations, List.map_filterMap]
    refine List.filterMap_congr fun statement _ => ?_
    cases parsedItem statement <;> rfl
  rw [compile_statements st] at ok
  have shapes := compileStatements_shapes ok
  rw [shapes, ← items]
  refine honoured_iff ?_ fun item own => declarations_spec
  rw [items, ← shapes]
  intro shape mem
  obtain ⟨_, _, rfl⟩ := List.mem_map.mp mem
  rfl

end Agreement

section Sample

attribute [local instance] asciiUnicode

lemma sampleGroup_statements : statements "01 R. 05 G COMP-3. 10 A PIC S9(5)."
    = .ok [["01", "R"], ["05", "G", "COMP-3"], ["10", "A", "PIC", "S9(5)"]] := rfl

theorem compile_groupUsage_iff_sample :
    ∃ raw, compile "01 R. 05 G COMP-3. 10 A PIC S9(5)." = .ok raw ∧
      (raw.shapes.map some = leafShapes (honoured []
          (declarations [["01", "R"], ["05", "G", "COMP-3"], ["10", "A", "PIC", "S9(5)"]])) ↔
        Unaffected []
          (declarations [["01", "R"], ["05", "G", "COMP-3"], ["10", "A", "PIC", "S9(5)"]])) := by
  obtain ⟨raw, ok⟩ : ∃ raw, compile "01 R. 05 G COMP-3. 10 A PIC S9(5)." = .ok raw :=
    ⟨_, (compile_statements sampleGroup_statements).trans rfl⟩
  exact ⟨raw, ok, compile_groupUsage_iff sampleGroup_statements ok⟩

/-- The group's usage is lost: its item is compiled as `DISPLAY`. -/
theorem compile_loses_groupUsage :
    (compile "01 R. 05 G COMP-3. 10 A PIC S9(5).").map (·.shapes) = .ok [⟨.zonedDecimal, 5, 0⟩] ∧
    leafShapes (honoured []
        (declarations [["01", "R"], ["05", "G", "COMP-3"], ["10", "A", "PIC", "S9(5)"]]))
      = [some ⟨.packedDecimal, 3, 0⟩] := by
  rw [compile_statements sampleGroup_statements]
  exact ⟨rfl, rfl⟩

end Sample

end GrpcEbcdic.Copybook

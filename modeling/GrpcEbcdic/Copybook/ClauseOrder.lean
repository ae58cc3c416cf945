import GrpcEbcdic.Copybook.Clauses
import GrpcEbcdic.Copybook.Usages

/-!
# The order of clauses

The fields of an elementary item against the order of its clauses. Everything behind `VALUE` is taken for
its literal, so an order gives the same fields as the one with `VALUE` last exactly when the clauses it
puts behind `VALUE` say nothing that an item without them does not say (`compile_order_iff`).
-/

namespace GrpcEbcdic.Copybook
open Rust

section Contents

/-- The picture of a `PICTURE` clause. -/
def Clause.getPicture : Clause → Option String
  | .picture p => some p
  | _ => none

/-- The usage of a `USAGE` clause. -/
def Clause.getUsage : Clause → Option Usage
  | .usage u => some u
  | _ => none

/-- The count of an `OCCURS` clause. -/
def Clause.getOccurs : Clause → Option Nat
  | .occurs n => some n
  | _ => none

/-- The last clause of a kind decides what the loop reads for it. -/
lemma foldl_add (clauses : List Clause) (acc : Clauses) :
    clauses.foldl Clauses.add acc = {
      picture := (clauses.filterMap (·.getPicture)).getLast?.or acc.picture
      usage := (clauses.filterMap (·.getUsage)).getLast?.or acc.usage
      occurs := (clauses.filterMap (·.getOccurs)).getLast?.or acc.occurs } := by
  induction clauses generalizing acc with
  | nil => rfl
  | cons clause clauses ih =>
    rw [List.foldl_cons, ih]
    cases clause <;>
      simp [Clauses.add, Clause.getPicture, Clause.getUsage, Clause.getOccurs, List.getLast?_cons]

/-- An entry of an elementary item: one picture, at most one usage and one count, nothing refused. -/
structure Entry.Elementary (entry : Entry) : Prop where
  picture : ∃ p, entry.clauses.filterMap (·.getPicture) = [p]
  usage : (entry.clauses.filterMap (·.getUsage)).length ≤ 1
  occurs : (entry.clauses.filterMap (·.getOccurs)).length ≤ 1
  supported : ∀ clause ∈ entry.clauses, clause.refuses = false

/-- The picture of an entry. -/
def Entry.picture (entry : Entry) : Option String := (entry.clauses.filterMap (·.getPicture)).head?

/-- A clause that says nothing about the bytes beyond what an item without it says. -/
def Clause.Harmless [Unicode] (name picture : Option String) : Clause → Prop
  | .picture _ => False
  | .usage u => u.SameBytes name picture
  | .occurs n => n = 1
  | _ => True

lemma harmless_iff [Unicode] {name picture : Option String} {clauses : List Clause} :
    (∀ clause ∈ clauses, clause.Harmless name picture) ↔
      clauses.filterMap (·.getPicture) = [] ∧
      (∀ u ∈ clauses.filterMap (·.getUsage), u.SameBytes name picture) ∧
      ∀ n ∈ clauses.filterMap (·.getOccurs), n = 1 := by
  induction clauses with
  | nil => simp
  | cons clause clauses ih =>
    rw [List.forall_mem_cons, ih]
    cases clause <;>
      simp [Clause.Harmless, Clause.getPicture, Clause.getUsage, Clause.getOccurs] <;> tauto

/-- A list of at most one thing. -/
lemma nil_or_singleton {α : Type} {xs : List α} (le : xs.length ≤ 1) : xs = [] ∨ ∃ x, xs = [x] := by
  match xs, le with
  | [], _ => exact .inl rfl
  | [x], _ => exact .inr ⟨x, rfl⟩

/-- What a list reordered and cut in two has on either side, when it holds at most one thing. -/
lemma perm_split {α : Type} {xs ys zs : List α} (perm : (xs ++ ys).Perm zs) (le : zs.length ≤ 1) :
    (xs = zs ∧ ys = []) ∨ (xs = [] ∧ ys = zs) := by
  rcases nil_or_singleton le with rfl | ⟨z, rfl⟩
  · obtain ⟨rfl, rfl⟩ := List.append_eq_nil_iff.mp perm.eq_nil
    exact .inl ⟨rfl, rfl⟩
  · exact (List.append_eq_singleton_iff.mp (List.perm_singleton.mp perm)).elim .inr .inl

/-- The contents of the clauses on either side of `VALUE`. -/
lemma contents_split {α : Type} (get : Clause → Option α) {clauses clauses' : List Clause}
    (perm : clauses'.Perm clauses) :
    ((seen clauses').filterMap get ++ (hidden clauses').filterMap get).Perm
      (clauses.filterMap get) := by
  rw [← List.filterMap_append, seen_append_hidden]
  exact perm.filterMap get

end Contents

section Items

variable [Unicode]

/-- The shape of an item is that of its picture, usage and name. -/
lemma Item.shape_congr {a b : Item} (picture : a.picture = b.picture) (usage : a.usage = b.usage)
    (name : a.name = b.name) : a.shape = b.shape := by
  unfold Item.shape
  rw [picture, usage, name]

omit [Unicode] in
/-- With nothing but `VALUE` behind `VALUE`, all clauses are seen. -/
lemma contents_seen {α : Type} (get : Clause → Option α) (none : get .value = none)
    {clauses : List Clause} (last : ∀ clause ∈ hidden clauses, clause = .value) :
    (seen clauses).filterMap get = clauses.filterMap get := by
  have nil : (hidden clauses).filterMap get = [] := by
    rw [List.filterMap_eq_nil_iff]
    intro clause mem
    rw [last clause mem, none]
  conv_rhs => rw [← seen_append_hidden clauses, List.filterMap_append, nil, List.append_nil]

omit [Unicode] in
/-- The picture, usage and count of an item are the last ones seen. -/
lemma Entry.item_picture (entry : Entry) :
    entry.item.picture = ((seen entry.clauses).filterMap (·.getPicture)).getLast? := by
  simp [Entry.item, foldl_add]

omit [Unicode] in
lemma Entry.item_usage (entry : Entry) :
    entry.item.usage = ((seen entry.clauses).filterMap (·.getUsage)).getLast?.getD .display := by
  simp [Entry.item, foldl_add]

omit [Unicode] in
lemma Entry.item_occurs (entry : Entry) :
    entry.item.occurs = ((seen entry.clauses).filterMap (·.getOccurs)).getLast? := by
  simp [Entry.item, foldl_add]

omit [Unicode] in
/-- A reordered entry occurs as often exactly when no count but one is hidden. -/
lemma reordered_occurs {entry entry' : Entry} (el : entry.Elementary)
    (perm : entry'.clauses.Perm entry.clauses)
    (last : ∀ clause ∈ hidden entry.clauses, clause = .value) :
    entry'.item.occurs.getD 1 = entry.item.occurs.getD 1 ↔
      ∀ n ∈ (hidden entry'.clauses).filterMap (·.getOccurs), n = 1 := by
  have aocc : entry.item.occurs = (entry.clauses.filterMap (·.getOccurs)).getLast? := by
    rw [Entry.item_occurs, contents_seen _ rfl last]
  rw [aocc, Entry.item_occurs]
  rcases perm_split (contents_split (·.getOccurs) perm) el.occurs with ⟨os, oh⟩ | ⟨os, oh⟩
  · rw [oh, os]
    simp
  · rw [oh, os]
    rcases nil_or_singleton el.occurs with nil | ⟨n, one⟩
    · simp [nil]
    · simp [one, eq_comm]

/-- With its picture seen it has the same shape exactly when no usage with other bytes is hidden. -/
lemma reordered_shape {entry entry' : Entry} {shape : Described} {p : String} (el : entry.Elementary)
    (name : entry'.name = entry.name) (perm : entry'.clauses.Perm entry.clauses)
    (last : ∀ clause ∈ hidden entry.clauses, clause = .value)
    (some : entry.item.shape = some shape) (apic : entry.item.picture = .some p)
    (bpic : entry'.item.picture = .some p) :
    entry'.item.shape = entry.item.shape ↔
      ∀ u ∈ (hidden entry'.clauses).filterMap (·.getUsage), u.SameBytes entry.name (.some p) := by
  have ause : entry.item.usage = (entry.clauses.filterMap (·.getUsage)).getLast?.getD .display := by
    rw [Entry.item_usage, contents_seen _ rfl last]
  rcases perm_split (contents_split (·.getUsage) perm) el.usage with ⟨us, uh⟩ | ⟨us, uh⟩
  · have same : entry'.item.usage = entry.item.usage := by rw [ause, Entry.item_usage, us]
    rw [uh]
    simp [Item.shape_congr (bpic.trans apic.symm) same name]
  · have buse : entry'.item.usage = .display := by rw [Entry.item_usage, us]; rfl
    rw [uh]
    rcases nil_or_singleton el.usage with nil | ⟨u, one⟩
    · rw [nil] at ause ⊢
      simp [Item.shape_congr (bpic.trans apic.symm) (buse.trans ause.symm) name]
    · rw [one] at ause ⊢
      have full : entry.item.shape = (entry'.item.withUsage u).shape :=
        Item.shape_congr (apic.trans bpic.symm) ause name.symm
      have bare : entry'.item.shape = (entry'.item.withUsage .display).shape :=
        Item.shape_congr rfl buse rfl
      rw [List.forall_mem_singleton, full, bare, eq_comm,
        Item.shape_display_iff (.inl (full ▸ some)), bpic]
      exact iff_of_eq (congrArg (u.SameBytes · (.some p)) name)

/-- A reordered entry gives as many occurrences of the same shape as the one with `VALUE` last exactly
when what it puts behind `VALUE` is harmless. -/
lemma reordered_iff {entry entry' : Entry} {shape : Described} (el : entry.Elementary)
    (name : entry'.name = entry.name) (perm : entry'.clauses.Perm entry.clauses)
    (last : ∀ clause ∈ hidden entry.clauses, clause = .value)
    (some : entry.item.shape = some shape) :
    (entry'.item.occurs.getD 1 = entry.item.occurs.getD 1 ∧
        entry'.item.shape = entry.item.shape) ↔
      ∀ clause ∈ hidden entry'.clauses, clause.Harmless entry.name entry.picture := by
  obtain ⟨p, pics⟩ := el.picture
  have pic : entry.picture = .some p := by rw [Entry.picture, pics]; rfl
  have apic : entry.item.picture = .some p := by
    rw [Entry.item_picture, contents_seen _ rfl last, pics]
    rfl
  rw [harmless_iff, pic]
  -- The one PICTURE is either still seen, or hidden behind the VALUE clause with all that follows.
  obtain ⟨ps, ph⟩ | ⟨ps, ph⟩ :=
    perm_split (contents_split (·.getPicture) perm) (by rw [pics]; exact le_refl 1)
  · have bpic : entry'.item.picture = .some p := by
      rw [Entry.item_picture, ps, pics]
      rfl
    rw [ph, reordered_occurs el perm last, reordered_shape el name perm last some apic bpic]
    tauto
  · rw [ph, pics]
    simp only [List.cons_ne_self, false_and, iff_false, not_and]
    intro _ eq
    rw [some] at eq
    -- Without its PICTURE the item has no shape, while the entry as written has one.
    obtain ⟨q, bpic, _⟩ := Item.shape_eq_some.mp eq
    rw [Entry.item_picture, ps] at bpic
    cases bpic

omit [Unicode] in
/-- A written count is positive. -/
lemma occurs_pos {clauses : List Clause} {tokens : List (List String)} {n : Nat}
    (ws : List.Forall₂ Clause.Written clauses tokens) (mem : n ∈ clauses.filterMap (·.getOccurs)) :
    1 ≤ n := by
  induction ws with
  | nil => cases mem
  | cons w ws ih =>
    rw [List.filterMap_cons] at mem
    cases w with
    | occurs _ pos =>
      rcases List.mem_cons.mp mem with rfl | mem
      · exact pos
      · exact ih mem
    | picture | usage | value | neutral | unsupported | depending | dependingRange => exact ih mem

/-- An item occurs at least once. -/
lemma Entry.Written.occurs_pos {entry : Entry} {statement : Statement}
    (w : entry.Written statement) : 1 ≤ entry.item.occurs.getD 1 := by
  obtain ⟨_, _, _, _, _, _, tokens, ws, _⟩ := w.tokens
  rw [Entry.item_occurs]
  cases eq : ((seen entry.clauses).filterMap (·.getOccurs)).getLast? with
  | none => exact le_refl 1
  | some n =>
    have sub : ((seen entry.clauses).filterMap (·.getOccurs)).Sublist
        (entry.clauses.filterMap (·.getOccurs)) := (List.takeWhile_sublist _).filterMap _
    exact Copybook.occurs_pos ws (sub.subset (List.mem_of_getLast? eq))

end Items

section Copybooks

variable [Unicode]

/-- The item of a statement that says nothing refused. -/
lemma parsedItem_written {entry : Entry} {statement : Statement} (w : entry.Written statement)
    (su : ∀ clause ∈ entry.clauses, clause.refuses = false) :
    parseItem statement = .ok (.item entry.item) ∧ parsedItem statement = some entry.item := by
  have seen : (seen entry.clauses).find? Clause.refuses = none := by
    rw [List.find?_eq_none]
    intro clause mem
    rw [su clause ((List.takeWhile_sublist _).subset mem)]
    exact Bool.false_ne_true
  have parsed := parseItem_written w seen
  refine ⟨parsed, ?_⟩
  rw [parsedItem, parsed]
  rfl

/-- In a copybook that compiles with `VALUE` last in an entry, any other order of its clauses gives the
same fields exactly when the clauses it puts behind `VALUE` are harmless. -/
theorem compile_order_iff {source source' : String} {before after : List Statement}
    {statement statement' : Statement} {entry entry' : Entry} {raw : RawLayout}
    (el : entry.Elementary) (level : entry'.level = entry.level) (name : entry'.name = entry.name)
    (perm : entry'.clauses.Perm entry.clauses)
    (last : ∀ clause ∈ hidden entry.clauses, clause = .value)
    (w : entry.Written statement) (w' : entry'.Written statement')
    (st : statements source = .ok (before ++ statement :: after))
    (st' : statements source' = .ok (before ++ statement' :: after))
    (ok : compile source = .ok raw) :
    (∃ raw', compile source' = .ok raw' ∧ raw'.shapes = raw.shapes) ↔
      ∀ clause ∈ hidden entry'.clauses, clause.Harmless entry.name entry.picture := by
  obtain ⟨stmts, eq, ok⟩ := compile_ok.mp ok
  cases st.symm.trans eq
  obtain ⟨parse, parsed⟩ := parsedItem_written w el.supported
  obtain ⟨parse', parsed'⟩ := parsedItem_written w'
    fun clause mem => el.supported clause (perm.subset mem)
  have pic : entry.item.picture ≠ none := by
    obtain ⟨p, pics⟩ := el.picture
    rw [Entry.item_picture, contents_seen _ rfl last, pics]
    exact Option.some_ne_none p
  obtain ⟨leaf, shape, some⟩ := compileStatements_leaf ok parsed pic
  rw [← reordered_iff el name perm last some]
  constructor
  · rintro ⟨raw', ok', same⟩
    obtain ⟨_, eq', ok'⟩ := compile_ok.mp ok'
    cases st'.symm.trans eq'
    have shapes := compileStatements_shapes ok
    have shapes' := compileStatements_shapes ok'
    rw [same, shapes, List.filterMap_append, List.filterMap_append,
      List.filterMap_cons_some parsed, List.filterMap_cons_some parsed'] at shapes'
    have leaf' : isGroup entry'.item (after.filterMap parsedItem) = false := by
      rw [← leaf, isGroup, isGroup, Entry.item, Entry.item, level]
    -- The entries around it are the same, so their shapes cancel on both sides.
    have eq := leafShapes_cancel (a := entry.item) (b := entry'.item) level.symm shapes'
    rw [leafShapes, leafShapes, leaf, leaf'] at eq
    have eq := List.append_cancel_right eq
    simp only [Bool.false_eq_true, if_false] at eq
    have occurs : entry'.item.occurs.getD 1 = entry.item.occurs.getD 1 := by
      simpa using congrArg List.length eq.symm
    refine ⟨occurs, ?_⟩
    rw [occurs] at eq
    exact (List.replicate_right_inj (Nat.ne_of_gt w.occurs_pos)).mp eq.symm
  · rintro ⟨occurs, same⟩
    have alike : entry.item.Alike entry'.item :=
      ⟨level.symm, name.symm, rfl, .inr ⟨occurs.symm, shape, some, same.trans some⟩⟩
    obtain ⟨raw', ok', shapes⟩ := compileStatements_alike
      (List.rel_append (List.forall₂_same.mpr fun _ _ => .inl rfl)
        (.cons (.inr ⟨_, _, parse, parse', alike⟩)
          (List.forall₂_same.mpr fun _ _ => .inl rfl))) ok
    exact ⟨raw', compile_ok.mpr ⟨_, st', ok'⟩, shapes⟩

end Copybooks

section Sample

attribute [local instance] asciiUnicode

/-- `A`, with its usage in front of `VALUE`. -/
def sampleEntry : Entry := ⟨5, some "A", [.picture "S9(5)", .usage .packed, .value]⟩

/-- The same clauses with the usage behind it. -/
def sampleReordered : Entry := ⟨5, some "A", [.picture "S9(5)", .value, .usage .packed]⟩

lemma samplePicture_written : (Clause.picture "S9(5)").Written ["PIC", "S9(5)"] :=
  @Clause.Written.picture "PIC" "S9(5)" [] (by decide) (by decide) (by decide)

lemma sampleUsage_written : (Clause.usage .packed).Written ["COMP-3"] :=
  @Clause.Written.usage [] "COMP-3" .packed (by decide) (by decide)

lemma sampleValue_written : Clause.value.Written ["VALUE", "0"] :=
  @Clause.Written.value "VALUE" "0" [] [] (by decide) (by decide) (by decide) (.inl (by decide))

lemma sampleEntry_written :
    sampleEntry.Written ["05", "A", "PIC", "S9(5)", "COMP-3", "VALUE", "0"] := by
  refine ⟨.inl (by decide), "05", ["A"], ["PIC", "S9(5)", "COMP-3", "VALUE", "0"], rfl, by decide,
    .named (by decide) (by decide), [["PIC", "S9(5)"], ["COMP-3"], ["VALUE", "0"]], ?_, by decide⟩
  exact .cons samplePicture_written (.cons sampleUsage_written (.cons sampleValue_written .nil))

lemma sampleReordered_written :
    sampleReordered.Written ["05", "A", "PIC", "S9(5)", "VALUE", "0", "COMP-3"] := by
  refine ⟨.inl (by decide), "05", ["A"], ["PIC", "S9(5)", "VALUE", "0", "COMP-3"], rfl, by decide,
    .named (by decide) (by decide), [["PIC", "S9(5)"], ["VALUE", "0"], ["COMP-3"]], ?_, by decide⟩
  exact .cons samplePicture_written (.cons sampleValue_written (.cons sampleUsage_written .nil))

lemma sampleEntry_statements : statements "01 R. 05 A PIC S9(5) COMP-3 VALUE 0."
    = .ok ([["01", "R"]] ++ ["05", "A", "PIC", "S9(5)", "COMP-3", "VALUE", "0"] :: []) := rfl

lemma sampleReordered_statements : statements "01 R. 05 A PIC S9(5) VALUE 0 COMP-3."
    = .ok ([["01", "R"]] ++ ["05", "A", "PIC", "S9(5)", "VALUE", "0", "COMP-3"] :: []) := rfl

theorem compile_order_iff_sample :
    ∃ raw, compile "01 R. 05 A PIC S9(5) COMP-3 VALUE 0." = .ok raw ∧
      ((∃ raw', compile "01 R. 05 A PIC S9(5) VALUE 0 COMP-3." = .ok raw' ∧
          raw'.shapes = raw.shapes) ↔
        ∀ clause ∈ hidden sampleReordered.clauses,
          clause.Harmless sampleEntry.name sampleEntry.picture) := by
  obtain ⟨raw, ok⟩ : ∃ raw, compile "01 R. 05 A PIC S9(5) COMP-3 VALUE 0." = .ok raw :=
    ⟨_, (compile_statements sampleEntry_statements).trans rfl⟩
  exact ⟨raw, ok, compile_order_iff ⟨⟨_, rfl⟩, by decide, by decide, by decide⟩ rfl rfl (by decide)
    (by decide) sampleEntry_written sampleReordered_written sampleEntry_statements
    sampleReordered_statements ok⟩

/-- The usage behind `VALUE` is lost, and the item takes two bytes more. -/
theorem compile_order_loses_usage :
    sampleReordered.clauses.Perm sampleEntry.clauses ∧
    sampleEntry.Written ["05", "A", "PIC", "S9(5)", "COMP-3", "VALUE", "0"] ∧
    sampleReordered.Written ["05", "A", "PIC", "S9(5)", "VALUE", "0", "COMP-3"] ∧
    (compile "01 R. 05 A PIC S9(5) COMP-3 VALUE 0.").map (·.shapes)
      = .ok [⟨.packedDecimal, 3, 0⟩] ∧
    (compile "01 R. 05 A PIC S9(5) VALUE 0 COMP-3.").map (·.shapes)
      = .ok [⟨.zonedDecimal, 5, 0⟩] := by
  rw [compile_statements sampleEntry_statements, compile_statements sampleReordered_statements]
  exact ⟨by decide, sampleEntry_written, sampleReordered_written, rfl, rfl⟩

end Sample

end GrpcEbcdic.Copybook

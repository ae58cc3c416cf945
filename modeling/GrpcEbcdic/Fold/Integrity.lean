import GrpcEbcdic.Fold.Fold
import Mathlib.Data.List.ReduceOption
import Mathlib.Data.List.Sort

/-!
# The integrity check of a document

`integrityErrors` walks the links of a document once, records them, and then checks both directions:
every child that is listed resolves, and every parent that is named resolves and lists the item. It
says nothing if and only if the document is `Sound`.
-/

namespace GrpcEbcdic
open Rust

/-- The link fields of one item. -/
structure ItemLinks where
  selfRef : String
  children : List Doc.RefItem
  parent : Option Doc.RefItem

/-- The references an item lists. -/
def ItemLinks.listed (item : ItemLinks) : List String := item.children.map (·.ref)

/-- The item with the parent it names, if it names one. -/
def ItemLinks.claim (item : ItemLinks) : List (String × String) :=
  item.parent.toList.map fun parent => (item.selfRef, parent.ref)

/-- Everything gathered by one walk of a document's link structure. A set is the list of its elements,
and a map of sets the list of its entries; both are read in the order of their elements. -/
structure Links where
  errors : List String := []
  /-- Every self reference seen, plus the two roots. -/
  refs : List String
  /-- Items and the parents they name. -/
  parents : List (String × String) := []
  /-- Children listed by each container. -/
  children : List (String × List String) := []

namespace Links

/-- Note a problem. -/
def addError (links : Links) (error : String) : Links :=
  { links with errors := links.errors ++ [error] }

/-- The children recorded for a container. -/
def childrenOf (links : Links) (container : String) : List String :=
  (links.children.lookup container).getD []

/-- Record one child of a container. -/
def addChild (container : String) (links : Links) (child : Doc.RefItem) : Links :=
  { links with
    children :=
      AssocList.insert container ((links.childrenOf container).insert child.ref) links.children }

/-- Record one item's own reference, its children, and its parent pointer. -/
def collect (links : Links) (item : ItemLinks) : Links :=
  if item.selfRef = "" then links.addError "item with empty self_ref"
  else
    let seen := item.selfRef ∈ links.refs
    let links := { links with refs := links.refs.insert item.selfRef }
    let links := if seen then links.addError s!"duplicate self_ref {item.selfRef}" else links
    let links := item.children.foldl (addChild item.selfRef) links
    { links with parents := links.parents ++ item.claim }

/-- Record one item, if it is one. -/
def collectText (links : Links) : Option ItemLinks → Links
  | some item => links.collect item
  | none => links.addError "text item with unset variant"

/-- The children that do not resolve. -/
def childErrors (links : Links) : List String :=
  (links.children.insertionSort fun entry entry' => entry.1 ≤ entry'.1).flatMap
    fun (parent, children) =>
      ((children.insertionSort (· ≤ ·)).filter (· ∉ links.refs)).map fun child =>
        s!"child {child} of {parent} does not resolve"

/-- What is wrong with one parent pointer. -/
def parentError (links : Links) (item parent : String) : Option String :=
  if parent ∉ links.refs then some s!"parent {parent} of {item} does not resolve"
  else if item ∉ links.childrenOf parent then
    some s!"parent {parent} does not list {item} as a child"
  else none

/-- The parent pointers that do not resolve, or are not returned. -/
def parentErrors (links : Links) : List String :=
  links.parents.filterMap fun (item, parent) => links.parentError item parent

end Links

section Check

variable [F64]

/-- The three link fields of a wrapped text item. -/
def baseLinks (base : Doc.TextItemBase) : ItemLinks := ⟨base.selfRef, base.children, base.parent⟩

/-- The link fields of one text item, whatever variant it is. -/
def textLinks (item : Option Doc.BaseTextItem) : Option ItemLinks :=
  item.bind fun
    | .title base => base.map baseLinks
    | .sectionHeader base _ => base.map baseLinks
    | .listItem base => base.map baseLinks
    | .formula base => base.map baseLinks
    | .text base => base.map baseLinks
    | .fieldHeading base => base.map baseLinks
    | .fieldValue base => base.map baseLinks
    | .code selfRef children parent => some ⟨selfRef, children, parent⟩

/-- The link fields of a group. -/
def groupLinks (group : Doc.GroupItem) : ItemLinks := ⟨group.selfRef, group.children, group.parent⟩

/-- The link fields of a picture. -/
def pictureLinks (picture : Doc.PictureItem) : ItemLinks :=
  ⟨picture.selfRef, picture.children, picture.parent⟩

/-- The link fields of a table. -/
def tableLinks (table : Doc.TableItem) : ItemLinks := ⟨table.selfRef, table.children, table.parent⟩

/-- Check one root, and record its children. -/
def Links.root (links : Links) (root : String) : Option Doc.GroupItem → Links
  | none => links.addError s!"{root} is missing"
  | some group =>
    let links :=
      if group.selfRef ≠ root then links.addError s!"{root} carries self_ref {group.selfRef}"
      else links
    group.children.foldl (Links.addChild root) links

/-- Walk the links of a document. -/
def Links.walk (document : Doc.Document) : Links :=
  let links : Links := { refs := [bodyRef, furnitureRef] }
  let links := links.root bodyRef document.body
  let links := links.root furnitureRef document.furniture
  let links := document.groups.foldl (fun links group => links.collect (groupLinks group)) links
  let links := document.texts.foldl (fun links text => links.collectText (textLinks text)) links
  let links :=
    document.pictures.foldl (fun links picture => links.collect (pictureLinks picture)) links
  document.tables.foldl (fun links table => links.collect (tableLinks table)) links

/-- Check that a document fragment is safe for an additive merge: what is wrong with it. -/
def integrityErrors (document : Doc.Document) : List String :=
  let links := Links.walk document
  links.errors ++ links.childErrors ++ links.parentErrors

end Check

/-! ## What the walk records -/

namespace Links

/-- Whether a container is recorded with a child. -/
def Listed (links : Links) (container child : String) : Prop := child ∈ links.childrenOf container

/-- A record of children that is a map. -/
def Mapped (links : Links) : Prop := (AssocList.keys links.children).Nodup

lemma addChild_listed (links : Links) (container : String) (child : Doc.RefItem)
    (other ref : String) : (links.addChild container child).Listed other ref ↔
      links.Listed other ref ∨ container = other ∧ ref = child.ref := by
  unfold Listed childrenOf addChild
  by_cases same : other = container
  · subst same
    rw [AssocList.lookup_insert_self]
    simp [List.mem_insert_iff, or_comm, childrenOf]
  · rw [AssocList.lookup_insert_of_ne same]
    simp [Ne.symm same]

/-- What some children of one container do to the record. -/
structure WithChildren (container : String) (children : List Doc.RefItem) (links links' : Links) :
    Prop where
  errors : links'.errors = links.errors
  refs : links'.refs = links.refs
  parents : links'.parents = links.parents
  listed : ∀ other child, links'.Listed other child ↔
    links.Listed other child ∨ container = other ∧ child ∈ children.map (·.ref)
  mapped : links.Mapped → links'.Mapped

lemma addChildren (container : String) (children : List Doc.RefItem) (links : Links) :
    WithChildren container children links (children.foldl (addChild container) links) := by
  induction children generalizing links with
  | nil => exact ⟨rfl, rfl, rfl, fun _ _ => by simp, id⟩
  | cons child children ih =>
    have rest := ih (links.addChild container child)
    refine ⟨rest.errors, rest.refs, rest.parents, fun other ref => ?_,
      fun nodup => rest.mapped (AssocList.nodup_insert nodup _ _)⟩
    rw [List.foldl_cons, rest.listed, addChild_listed, List.map_cons, List.mem_cons]
    tauto

/-- An item is recorded without a problem if it has a reference that has not been seen. -/
lemma collect_errors (links : Links) (item : ItemLinks) :
    (links.collect item).errors = [] ↔
      links.errors = [] ∧ item.selfRef ≠ "" ∧ item.selfRef ∉ links.refs := by
  unfold collect
  by_cases unnamed : item.selfRef = ""
  · simp [addError, unnamed]
  · rw [if_neg unnamed]
    dsimp only
    rw [(addChildren _ _ _).errors]
    split_ifs with seen <;> simp [addError, unnamed, seen]

/-- What some items add to the record. -/
structure WithItems (items : List ItemLinks) (links links' : Links) : Prop where
  refs : ∀ ref, ref ∈ links'.refs ↔ ref ∈ links.refs ∨ ref ∈ items.map (·.selfRef)
  parents : links'.parents = links.parents ++ items.flatMap (·.claim)
  listed : ∀ container child, links'.Listed container child ↔
    links.Listed container child ∨ ∃ item ∈ items, item.selfRef = container ∧ child ∈ item.listed
  mapped : links.Mapped → links'.Mapped

lemma WithItems.nil (links : Links) : WithItems [] links links :=
  ⟨fun _ => by simp, by simp, fun _ _ => by simp, id⟩

lemma WithItems.append {items items' : List ItemLinks} {links links' links'' : Links}
    (first : WithItems items links links') (second : WithItems items' links' links'') :
    WithItems (items ++ items') links links'' where
  refs ref := by
    rw [second.refs, first.refs, List.map_append, List.mem_append, or_assoc]
  parents := by
    rw [second.parents, first.parents, List.flatMap_append, List.append_assoc]
  listed container child := by
    rw [second.listed, first.listed]
    simp only [List.mem_append, or_and_right, exists_or, or_assoc]
  mapped := second.mapped ∘ first.mapped

lemma collect_withItems (links : Links) {item : ItemLinks} (named : item.selfRef ≠ "") :
    WithItems [item] links (links.collect item) := by
  have children (links : Links) := addChildren item.selfRef item.children links
  unfold collect
  rw [if_neg named]
  dsimp only
  split_ifs with seen
  all_goals
    refine ⟨fun ref => ?_, ?_, fun container child => ?_, fun mapped => ?_⟩
    · simp [(children _).refs, addError, List.mem_insert_iff, or_comm]
    · simp [(children _).parents, addError]
    · apply ((children _).listed container child).trans
      simp [Listed, childrenOf, addError, ItemLinks.listed]
    · exact (children _).mapped mapped

/-- Items with references of their own. -/
structure Distinct (refs : List String) (items : List ItemLinks) : Prop where
  named : ∀ item ∈ items, item.selfRef ≠ ""
  fresh : ∀ item ∈ items, item.selfRef ∉ refs
  nodup : (items.map (·.selfRef)).Nodup

lemma distinct_nil (refs : List String) : Distinct refs [] :=
  ⟨fun _ mem => absurd mem List.not_mem_nil, fun _ mem => absurd mem List.not_mem_nil, List.nodup_nil⟩

lemma distinct_cons {refs : List String} {item : ItemLinks} {items : List ItemLinks} :
    Distinct refs (item :: items) ↔
      (item.selfRef ≠ "" ∧ item.selfRef ∉ refs) ∧ Distinct (refs.insert item.selfRef) items := by
  constructor
  · rintro ⟨named, fresh, nodup⟩
    obtain ⟨other, nodup⟩ := List.nodup_cons.mp nodup
    refine ⟨⟨named item List.mem_cons_self, fresh item List.mem_cons_self⟩,
      fun item' mem => named item' (List.mem_cons_of_mem _ mem), fun item' mem seen => ?_, nodup⟩
    rcases List.mem_insert_iff.mp seen with same | seen
    · exact other (List.mem_map.mpr ⟨item', mem, same⟩)
    · exact fresh item' (List.mem_cons_of_mem _ mem) seen
  · rintro ⟨⟨named, fresh⟩, rest⟩
    refine ⟨List.forall_mem_cons.mpr ⟨named, rest.named⟩, List.forall_mem_cons.mpr ⟨fresh, ?_⟩,
      List.nodup_cons.mpr ⟨fun mem => ?_, rest.nodup⟩⟩
    · exact fun item' mem seen => rest.fresh item' mem (List.mem_insert_of_mem seen)
    · obtain ⟨item', mem, same⟩ := List.mem_map.mp mem
      exact rest.fresh item' mem (same ▸ List.mem_insert_self)

lemma collect_refs (links : Links) {item : ItemLinks} (named : item.selfRef ≠ "") :
    (links.collect item).refs = links.refs.insert item.selfRef := by
  unfold collect
  rw [if_neg named]
  dsimp only
  split_ifs
  · rw [(addChildren _ _ _).refs]
    rfl
  · rw [(addChildren _ _ _).refs]

/-- Items are recorded without a problem if each is one, with a reference of its own. -/
lemma collect_run (entries : List (Option ItemLinks)) (links : Links) :
    (entries.foldl collectText links).errors = [] ↔
      links.errors = [] ∧ none ∉ entries ∧ Distinct links.refs entries.reduceOption := by
  induction entries generalizing links with
  | nil => simp [List.reduceOption_nil, distinct_nil]
  | cons entry entries ih =>
    rw [List.foldl_cons, ih]
    cases entry with
    | none => simp [collectText, addError]
    | some item =>
      rw [List.reduceOption_cons_of_some, distinct_cons, collectText, collect_errors]
      by_cases named : item.selfRef = ""
      · simp [named]
      · rw [collect_refs links named]
        simp only [List.mem_cons, reduceCtorEq, false_or]
        tauto

/-- What a walk over items records of them. -/
lemma collect_run_withItems {entries : List (Option ItemLinks)} (set : none ∉ entries)
    (named : ∀ item ∈ entries.reduceOption, item.selfRef ≠ "") (links : Links) :
    WithItems entries.reduceOption links (entries.foldl collectText links) := by
  induction entries generalizing links with
  | nil => exact .nil links
  | cons entry entries ih =>
    cases entry with
    | none => exact absurd List.mem_cons_self set
    | some item =>
      rw [List.reduceOption_cons_of_some] at named ⊢
      obtain ⟨named, rest⟩ := List.forall_mem_cons.mp named
      exact (collect_withItems links named).append
        (ih (fun mem => set (List.mem_cons_of_mem _ mem)) rest _)

end Links

/-! ## What the check means -/

namespace Links

/-- The check of the children is silent if every child recorded is a reference recorded. -/
lemma childErrors_nil {links : Links} (mapped : links.Mapped) :
    links.childErrors = [] ↔ ∀ container child, links.Listed container child → child ∈ links.refs := by
  have silent : links.childErrors = [] ↔
      ∀ entry ∈ links.children, ∀ child ∈ entry.2, child ∈ links.refs := by
    simp [childErrors, List.flatMap_eq_nil_iff, List.mem_insertionSort]
  rw [silent]
  constructor
  · intro all container child listed
    unfold Listed childrenOf at listed
    cases look : links.children.lookup container with
    | none =>
      rw [look] at listed
      exact absurd listed List.not_mem_nil
    | some children =>
      rw [look] at listed
      exact all _ ((AssocList.mem_iff_lookup mapped).mpr look) child listed
  · rintro all ⟨container, children⟩ mem child listed
    apply all container child
    rw [Listed, childrenOf, (AssocList.mem_iff_lookup mapped).mp mem]
    exact listed

/-- The check of the parents is silent if every parent recorded is one, and lists its item. -/
lemma parentErrors_nil (links : Links) :
    links.parentErrors = [] ↔
      ∀ pair ∈ links.parents, pair.2 ∈ links.refs ∧ links.Listed pair.2 pair.1 := by
  rw [parentErrors, List.filterMap_eq_nil_iff]
  refine forall₂_congr fun ⟨item, parent⟩ _ => ?_
  unfold Listed
  dsimp only
  rw [parentError]
  split_ifs with resolves listed
  · simp [resolves, listed]
  · simp [listed]
  · simp [resolves]

end Links

variable [F64]

/-- A root as a container. -/
def rootLinks (root : String) (group : Option Doc.GroupItem) : List ItemLinks :=
  group.toList.map fun group => ⟨root, group.children, none⟩

/-- Whether a root is there, under its own reference. -/
def IsRoot (root : String) (group : Option Doc.GroupItem) : Prop :=
  ∃ own, group = some own ∧ own.selfRef = root

namespace Doc.Document

/-- The items of a document in the order of the walk, `none` for a text item that is not one. -/
def walkItems (document : Doc.Document) : List (Option ItemLinks) :=
  document.groups.map (some ∘ groupLinks) ++ document.texts.map textLinks ++
    document.pictures.map (some ∘ pictureLinks) ++ document.tables.map (some ∘ tableLinks)

/-- The items of a document. -/
def items (document : Doc.Document) : List ItemLinks := document.walkItems.reduceOption

/-- The references of a document. -/
def references (document : Doc.Document) : List String :=
  [bodyRef, furnitureRef] ++ document.items.map (·.selfRef)

/-- The containers of a document: its roots, and all its items. -/
def containers (document : Doc.Document) : List ItemLinks :=
  rootLinks bodyRef document.body ++ rootLinks furnitureRef document.furniture ++ document.items

/-- Whether a container of a document lists a child. -/
def Lists (document : Doc.Document) (container child : String) : Prop :=
  ∃ item ∈ document.containers, item.selfRef = container ∧ child ∈ item.listed

/-- The references the body lists. -/
def bodyRefs (document : Doc.Document) : List String :=
  document.body.elim [] fun body => body.children.map (·.ref)

end Doc.Document

/-- A document that is safe for an additive merge. -/
structure Sound (document : Doc.Document) : Prop where
  body : IsRoot bodyRef document.body
  furniture : IsRoot furnitureRef document.furniture
  set : none ∉ document.walkItems
  distinct : Links.Distinct [bodyRef, furnitureRef] document.items
  children : ∀ container child, document.Lists container child → child ∈ document.references
  parents : ∀ item ∈ document.items, ∀ parent, item.parent = some parent →
    parent.ref ∈ document.references ∧ document.Lists parent.ref item.selfRef

namespace Links

lemma root_errors (links : Links) (root : String) (group : Option Doc.GroupItem) :
    (links.root root group).errors = [] ↔ links.errors = [] ∧ IsRoot root group := by
  cases group with
  | none => simp [Links.root, addError, IsRoot]
  | some group =>
    rw [Links.root, (addChildren _ _ _).errors]
    split_ifs with other
    · simp [addError, IsRoot, other]
    · simp [IsRoot, not_not.mp other]

/-- What a root adds to the record. -/
lemma root_withChildren {root : String} {group : Option Doc.GroupItem} (is : IsRoot root group)
    (links : Links) : ∃ children, (rootLinks root group = [⟨root, children, none⟩]) ∧
      WithChildren root children links (links.root root group) := by
  obtain ⟨own, rfl, same⟩ := is
  refine ⟨own.children, rfl, ?_⟩
  rw [Links.root, if_neg (not_not.mpr same)]
  exact addChildren root own.children links

/-- The walk takes the roots and then the items, one after the other. -/
lemma walk_eq (document : Doc.Document) :
    walk document = document.walkItems.foldl collectText
      ((root { refs := [bodyRef, furnitureRef] } bodyRef document.body).root furnitureRef
        document.furniture) := by
  simp only [Doc.Document.walkItems, List.foldl_append, List.foldl_map]
  rfl

lemma walk_errors (document : Doc.Document) :
    (walk document).errors = [] ↔ IsRoot bodyRef document.body ∧
      IsRoot furnitureRef document.furniture ∧ none ∉ document.walkItems ∧
      Distinct [bodyRef, furnitureRef] document.items := by
  rw [walk_eq, collect_run, root_errors, root_errors]
  constructor
  · rintro ⟨⟨⟨-, body⟩, furniture⟩, set, distinct⟩
    obtain ⟨_, _, first⟩ := root_withChildren body { refs := [bodyRef, furnitureRef] }
    obtain ⟨_, _, second⟩ := root_withChildren furniture
      (root { refs := [bodyRef, furnitureRef] } bodyRef document.body)
    rw [second.refs, first.refs] at distinct
    exact ⟨body, furniture, set, distinct⟩
  · rintro ⟨body, furniture, set, distinct⟩
    obtain ⟨_, _, first⟩ := root_withChildren body { refs := [bodyRef, furnitureRef] }
    obtain ⟨_, _, second⟩ := root_withChildren furniture
      (root { refs := [bodyRef, furnitureRef] } bodyRef document.body)
    rw [second.refs, first.refs]
    exact ⟨⟨⟨rfl, body⟩, furniture⟩, set, distinct⟩

/-- What the walk records of a document, if it notes no problem. -/
structure Records (document : Doc.Document) (links : Links) : Prop where
  refs : ∀ ref, ref ∈ links.refs ↔ ref ∈ document.references
  parents : links.parents = document.items.flatMap (·.claim)
  listed : ∀ container child, links.Listed container child ↔ document.Lists container child
  mapped : links.Mapped

lemma walk_records {document : Doc.Document} (body : IsRoot bodyRef document.body)
    (furniture : IsRoot furnitureRef document.furniture) (set : none ∉ document.walkItems)
    (distinct : Distinct [bodyRef, furnitureRef] document.items) :
    Records document (walk document) := by
  obtain ⟨children, eq, first⟩ := root_withChildren body { refs := [bodyRef, furnitureRef] }
  obtain ⟨children', eq', second⟩ := root_withChildren furniture
    (root { refs := [bodyRef, furnitureRef] } bodyRef document.body)
  have rest := collect_run_withItems set distinct.named
    ((root { refs := [bodyRef, furnitureRef] } bodyRef document.body).root furnitureRef
      document.furniture)
  rw [← walk_eq] at rest
  refine ⟨fun ref => ?_, ?_, fun container child => ?_, ?_⟩
  · rw [rest.refs, second.refs, first.refs, Doc.Document.references, List.mem_append]
    rfl
  · rw [rest.parents, second.parents, first.parents]
    rfl
  · have start : ¬ Listed { refs := [bodyRef, furnitureRef] } container child := List.not_mem_nil
    rw [rest.listed, second.listed, first.listed]
    simp only [Doc.Document.Lists, Doc.Document.containers, eq, eq', List.mem_append, or_and_right, exists_or,
      List.mem_singleton, exists_eq_left, ItemLinks.listed, start, false_or]
    rfl
  · exact rest.mapped (second.mapped (first.mapped List.nodup_nil))

end Links

/-- The check is silent on exactly the sound documents. -/
theorem integrityErrors_nil_iff (document : Doc.Document) :
    integrityErrors document = [] ↔ Sound document := by
  have parts : integrityErrors document = [] ↔ (Links.walk document).errors = [] ∧
      (Links.walk document).childErrors = [] ∧ (Links.walk document).parentErrors = [] := by
    simp [integrityErrors]
  rw [parts, Links.walk_errors]
  constructor
  · rintro ⟨⟨body, furniture, set, distinct⟩, childErrors, parentErrors⟩
    have records := Links.walk_records body furniture set distinct
    rw [Links.childErrors_nil records.mapped] at childErrors
    rw [Links.parentErrors_nil] at parentErrors
    refine ⟨body, furniture, set, distinct, fun container child lists => ?_,
      fun item mem parent named => ?_⟩
    · exact (records.refs child).mp (childErrors container child ((records.listed _ _).mpr lists))
    · have claim : (item.selfRef, parent.ref) ∈ (Links.walk document).parents := by
        rw [records.parents]
        exact List.mem_flatMap.mpr ⟨item, mem, by simp [ItemLinks.claim, named]⟩
      obtain ⟨resolves, listed⟩ := parentErrors _ claim
      exact ⟨(records.refs _).mp resolves, (records.listed _ _).mp listed⟩
  · intro sound
    have records := Links.walk_records sound.body sound.furniture sound.set sound.distinct
    refine ⟨⟨sound.body, sound.furniture, sound.set, sound.distinct⟩, ?_, ?_⟩
    · rw [Links.childErrors_nil records.mapped]
      intro container child listed
      exact (records.refs child).mpr (sound.children container child ((records.listed _ _).mp listed))
    · rw [Links.parentErrors_nil, records.parents]
      intro pair claim
      obtain ⟨item, mem, claim⟩ := List.mem_flatMap.mp claim
      obtain ⟨parent, named, rfl⟩ := List.mem_map.mp claim
      obtain ⟨resolves, lists⟩ := sound.parents item mem parent (Option.mem_toList.mp named)
      exact ⟨(records.refs _).mpr resolves, (records.listed _ _).mpr lists⟩

end GrpcEbcdic

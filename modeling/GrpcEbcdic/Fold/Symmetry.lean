import GrpcEbcdic.Fold.Integrity

/-!
# Links in both directions

A document that is safe to merge is linked both ways: an item names the container that lists it, and
that is one. The integrity check sees to the direction from the item to its container. The other it
leaves open, so a document it is silent on is `Symmetric` only if what a container lists answers.
-/

namespace GrpcEbcdic
open Rust

section Check

variable [F64]

/-- The item names the container as its parent. -/
def ItemLinks.Names (item container : ItemLinks) : Prop :=
  ∃ parent, item.parent = some parent ∧ parent.ref = container.selfRef

/-- Items under references of their own, linked with their containers in both directions. -/
structure Symmetric (document : Doc.Document) : Prop where
  named : ∀ item ∈ document.items, item.selfRef ≠ ""
  nodup : (document.items.map (·.selfRef)).Nodup
  links : ∀ item ∈ document.items, ∀ container ∈ document.containers,
    item.Names container ↔ item.selfRef ∈ container.listed
  once : ∀ item ∈ document.items, ∀ container ∈ document.containers,
    ∀ container' ∈ document.containers, item.selfRef ∈ container.listed →
      item.selfRef ∈ container'.listed → container = container'

/-- What a container lists names it as its parent. -/
def Answered (document : Doc.Document) : Prop :=
  ∀ container ∈ document.containers, ∀ item ∈ document.items,
    item.selfRef ∈ container.listed → item.Names container

/-- The containers of a sound document are told apart by their references. -/
lemma Sound.containers_nodup {document : Doc.Document} (sound : Sound document) :
    (document.containers.map (·.selfRef)).Nodup := by
  obtain ⟨body, hasBody, _⟩ := sound.body
  obtain ⟨furniture, hasFurniture, _⟩ := sound.furniture
  have refs : document.containers.map (·.selfRef)
      = [bodyRef, furnitureRef] ++ document.items.map (·.selfRef) := by
    rw [Doc.Document.containers, hasBody, hasFurniture]
    rfl
  rw [refs]
  refine List.Nodup.append (by decide) sound.distinct.nodup fun ref root mem => ?_
  obtain ⟨item, has, rfl⟩ := List.mem_map.mp mem
  exact sound.distinct.fresh item has root

/-- Two containers of a sound document with one reference are the same. -/
lemma Sound.container_unique {document : Doc.Document} (sound : Sound document)
    {container container' : ItemLinks} (mem : container ∈ document.containers)
    (mem' : container' ∈ document.containers) (same : container.selfRef = container'.selfRef) :
    container = container' :=
  List.inj_on_of_nodup_map sound.containers_nodup mem mem' same

/-- What is checked: an item that names a container is listed by it. -/
lemma Sound.listed {document : Doc.Document} (sound : Sound document) {item container : ItemLinks}
    (mem : item ∈ document.items) (has : container ∈ document.containers)
    (names : item.Names container) : item.selfRef ∈ container.listed := by
  obtain ⟨parent, named, same⟩ := names
  obtain ⟨_, other, has', ref, listed⟩ := sound.parents item mem parent named
  obtain rfl := sound.container_unique has' has (ref.trans same)
  exact listed

/-- A sound document is symmetric when its containers are answered, and not otherwise. -/
lemma Sound.symmetric_iff {document : Doc.Document} (sound : Sound document) :
    Symmetric document ↔ Answered document := by
  constructor
  · intro symmetric container has item mem listed
    exact (symmetric.links item mem container has).mpr listed
  · intro answered
    refine ⟨sound.distinct.named, sound.distinct.nodup, fun item mem container has => ?_, ?_⟩
    · exact ⟨sound.listed mem has, answered container has item mem⟩
    · intro item mem container has container' has' listed listed'
      obtain ⟨parent, named, same⟩ := answered container has item mem listed
      obtain ⟨parent', named', same'⟩ := answered container' has' item mem listed'
      rw [named, Option.some.injEq] at named'
      exact sound.container_unique has has' (same.symm.trans (named' ▸ same'))

/-- A document the check is silent on is symmetric exactly when, if it is sound, what its containers
list names them. -/
theorem integrityErrors_symmetric_iff (document : Doc.Document) :
    (integrityErrors document = [] → Symmetric document) ↔ (Sound document → Answered document) := by
  rw [integrityErrors_nil_iff]
  exact forall_congr' fun sound => sound.symmetric_iff

end Check

section Sample

attribute [local instance] coreF64

/-- A picture the body lists, which names no parent. -/
def sampleOrphan : Doc.Document where
  schemaName := none
  body := some { selfRef := bodyRef, children := [⟨"#/pictures/0"⟩], contentLayer := 1 }
  furniture := some { selfRef := furnitureRef, contentLayer := 2 }
  pictures := [⟨"#/pictures/0", none, []⟩]

/-- The check says nothing about a link from the container to the item alone. -/
theorem integrityErrors_misses_child :
    integrityErrors sampleOrphan = [] ∧ ¬Symmetric sampleOrphan := by
  refine ⟨by decide, fun symmetric => ?_⟩
  have names := (symmetric.links ⟨"#/pictures/0", [], none⟩ ?_
    ⟨bodyRef, [⟨"#/pictures/0"⟩], none⟩ ?_).mpr List.mem_cons_self
  · obtain ⟨parent, named, _⟩ := names
    cases named
  · exact List.mem_cons_self
  · exact List.mem_cons_self

end Sample

end GrpcEbcdic

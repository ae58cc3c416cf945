import Mathlib.Algebra.Order.BigOperators.Group.List
import Mathlib.Algebra.Order.Ring.Nat
import Mathlib.Data.List.Induction
import Mathlib.Data.List.Nodup
import Mathlib.Tactic.Tauto

/-!
# Association lists as finite maps

A map is the list of its entries, a key at most once, in order of first insertion. Insertion replaces
the value of a key that is there and appends otherwise, so the order of the keys never moves. A map
with no duplicate key is what `collect` builds, and a map that is the image of a list of keys stays
one under `insert` at a listed key.
-/

namespace AssocList

variable {α β ι : Type*}

/-- The keys of a map. -/
def keys (m : List (α × β)) : List α := m.map Prod.fst

@[simp] lemma keys_nil : keys ([] : List (α × β)) = [] := rfl

@[simp] lemma keys_cons (kv : α × β) (m : List (α × β)) : keys (kv :: m) = kv.1 :: keys m := rfl

variable [DecidableEq α]

/-- Set the value of one key. -/
def insert (k : α) (v : β) : List (α × β) → List (α × β)
  | [] => [(k, v)]
  | (k', v') :: m => if k' = k then (k, v) :: m else (k', v') :: insert k v m

/-- The map of a list of pairs, a later pair over an earlier one. -/
def collect (kvs : List (α × β)) : List (α × β) :=
  kvs.foldl (fun m kv => insert kv.1 kv.2 m) []

/-- Set the value of one key, unless it has one. -/
def orInsert (k : α) (v : β) (m : List (α × β)) : List (α × β) :=
  if (m.lookup k).isSome then m else m ++ [(k, v)]

lemma lookup_insert_self (k : α) (v : β) (m : List (α × β)) :
    (insert k v m).lookup k = some v := by
  induction m with
  | nil => simp [insert]
  | cons kv m ih =>
    obtain ⟨k', v'⟩ := kv
    by_cases e : k' = k
    · simp [insert, e]
    · have ne : (k == k') = false := by simpa using fun h => e h.symm
      simp [insert, e, List.lookup_cons, ne, ih]

lemma lookup_insert_of_ne {k k' : α} (ne : k' ≠ k) (v : β) (m : List (α × β)) :
    (insert k v m).lookup k' = m.lookup k' := by
  induction m with
  | nil =>
    have h : (k' == k) = false := by simpa using ne
    simp [insert, List.lookup_cons, h]
  | cons kv m ih =>
    obtain ⟨k₀, v₀⟩ := kv
    by_cases e : k₀ = k
    · subst e
      have h : (k' == k₀) = false := by simpa using ne
      simp [insert, List.lookup_cons, h]
    · simp only [insert, e, if_false, List.lookup_cons, ih]

/-- Insertion adds at most one entry, so a sum over the map grows by no more than its part. -/
lemma sum_map_insert_le (part : α × β → Nat) (k : α) (v : β) (m : List (α × β)) :
    ((insert k v m).map part).sum ≤ part (k, v) + (m.map part).sum := by
  induction m with
  | nil => exact Nat.le_refl _
  | cons kv m ih =>
    obtain ⟨k', v'⟩ := kv
    rw [insert]
    split_ifs
    · simp only [List.map_cons, List.sum_cons]
      omega
    · simp only [List.map_cons, List.sum_cons]
      omega

/-- A new key goes to the end. -/
lemma insert_of_notMem {k : α} {v : β} {m : List (α × β)} (h : k ∉ keys m) :
    insert k v m = m ++ [(k, v)] := by
  induction m with
  | nil => rfl
  | cons kv m ih =>
    obtain ⟨k', v'⟩ := kv
    simp only [keys_cons, List.mem_cons, not_or] at h
    have ne : k' ≠ k := fun e => h.1 e.symm
    simp [insert, ne, ih h.2]

lemma mem_keys_insert {k k' : α} {v : β} {m : List (α × β)} :
    k' ∈ keys (insert k v m) ↔ k' = k ∨ k' ∈ keys m := by
  induction m with
  | nil => simp [insert]
  | cons kv m ih =>
    obtain ⟨k₀, v₀⟩ := kv
    by_cases e : k₀ = k
    · simp [insert, e]
    · simp only [insert, e, if_false, keys_cons, List.mem_cons, ih]
      tauto

/-- Insertion keeps a map a map. -/
lemma nodup_insert {m : List (α × β)} (nd : (keys m).Nodup) (k : α) (v : β) :
    (keys (insert k v m)).Nodup := by
  induction m with
  | nil => exact List.nodup_singleton k
  | cons kv m ih =>
    obtain ⟨k₀, v₀⟩ := kv
    obtain ⟨fresh, nd⟩ := List.nodup_cons.mp nd
    by_cases e : k₀ = k
    · subst e
      simp only [insert, if_true]
      exact List.nodup_cons.mpr ⟨fresh, nd⟩
    · simp only [insert, e, if_false]
      refine List.nodup_cons.mpr ⟨fun mem => ?_, ih nd⟩
      exact (mem_keys_insert.mp mem).elim e fresh

/-- The entries of a map are what it looks up. -/
lemma mem_iff_lookup {k : α} {v : β} {m : List (α × β)} (nd : (keys m).Nodup) :
    (k, v) ∈ m ↔ m.lookup k = some v := by
  induction m with
  | nil => simp
  | cons kv m ih =>
    obtain ⟨k₀, v₀⟩ := kv
    obtain ⟨fresh, nd⟩ := List.nodup_cons.mp nd
    rw [List.mem_cons, List.lookup_cons]
    by_cases e : k = k₀
    · subst e
      have absent : (k, v) ∉ m := fun mem => fresh (List.mem_map.mpr ⟨(k, v), mem, rfl⟩)
      simp [absent, eq_comm]
    · have ne : (k == k₀) = false := by simpa using e
      simp [ne, e, ih nd]

/-- In whatever order its entries stand, a map looks up the same. -/
lemma lookup_perm {m m' : List (α × β)} (nd : (keys m).Nodup) (perm : m.Perm m') (k : α) :
    m.lookup k = m'.lookup k := by
  have nd' : (keys m').Nodup := (perm.map Prod.fst).nodup_iff.mp nd
  refine Option.ext fun v => ?_
  rw [← mem_iff_lookup nd, ← mem_iff_lookup nd', perm.mem_iff]

/-- Setting a key keeps two orders of a map orders of one map. -/
lemma insert_perm {m m' : List (α × β)} (nd : (keys m).Nodup) (perm : m.Perm m') (k : α) (v : β) :
    (insert k v m).Perm (insert k v m') := by
  have nd' : (keys m').Nodup := (perm.map Prod.fst).nodup_iff.mp nd
  have nd_set := nodup_insert nd k v
  have nd_set' := nodup_insert nd' k v
  refine (List.perm_ext_iff_of_nodup (.of_map _ nd_set) (.of_map _ nd_set')).mpr fun kv => ?_
  obtain ⟨k₀, v₀⟩ := kv
  rw [mem_iff_lookup nd_set, mem_iff_lookup nd_set']
  by_cases e : k₀ = k
  · subst e
    rw [lookup_insert_self, lookup_insert_self]
  · rw [lookup_insert_of_ne e, lookup_insert_of_ne e, lookup_perm nd perm]

/-- Pairs with distinct keys are already a map. -/
lemma collect_of_nodup {kvs : List (α × β)} (nd : (keys kvs).Nodup) : collect kvs = kvs := by
  suffices h : ∀ (kvs m : List (α × β)), (keys (m ++ kvs)).Nodup →
      kvs.foldl (fun m kv => insert kv.1 kv.2 m) m = m ++ kvs from h kvs [] (by simpa using nd)
  intro kvs
  induction kvs with
  | nil => intro m _; simp
  | cons kv kvs ih =>
    intro m nd
    have fresh : kv.1 ∉ keys m := by
      intro mem
      have := (List.nodup_append.mp (by simpa [keys] using nd)).2.2 _ (by simpa [keys] using mem)
        kv.1 (by simp)
      exact this rfl
    rw [List.foldl_cons, insert_of_notMem fresh, ih _ (by simpa using nd)]
    simp

/-- On the image of distinct keys, looking a key up reads its image. -/
lemma lookup_map {f : ι → α} {g : ι → β} {l : List ι} (nd : (l.map f).Nodup) {i : ι} (mem : i ∈ l) :
    (l.map fun j => (f j, g j)).lookup (f i) = some (g i) := by
  induction l with
  | nil => cases mem
  | cons j l ih =>
    rw [List.map_cons, List.nodup_cons] at nd
    rw [List.map_cons, List.lookup_cons]
    cases mem with
    | head => simp
    | tail _ mem =>
      have ne : (f i == f j) = false := by
        simp only [beq_eq_false_iff_ne]
        intro e
        exact nd.1 (e ▸ List.mem_map_of_mem mem)
      rw [ne]
      exact ih nd.2 mem

/-- On the image of distinct keys, setting a listed key changes its image alone. -/
lemma insert_map {f : ι → α} {g : ι → β} {l : List ι} (nd : (l.map f).Nodup) {i : ι} (mem : i ∈ l)
    (v : β) :
    insert (f i) v (l.map fun j => (f j, g j))
      = l.map fun j => (f j, if f j = f i then v else g j) := by
  induction l with
  | nil => cases mem
  | cons j l ih =>
    rw [List.map_cons, List.nodup_cons] at nd
    rw [List.map_cons, List.map_cons, insert]
    by_cases e : f j = f i
    · have rest : ∀ k ∈ l, ¬ f k = f i := fun k hk ek =>
        nd.1 (e ▸ ek ▸ List.mem_map_of_mem hk)
      simp only [e, if_true, List.cons.injEq, true_and]
      refine List.map_congr_left fun k hk => ?_
      rw [if_neg (rest k hk)]
    · have mem' : i ∈ l := by
        cases mem with
        | head => exact absurd rfl e
        | tail _ mem => exact mem
      simp only [e, if_false]
      rw [ih nd.2 mem']

/-- The positions of a list by their keys, when these are distinct. -/
lemma lookup_zipIdx {f : ι → α} {l : List ι} (nd : (l.map f).Nodup) {k : α} {i : Nat} :
    (l.zipIdx.map fun (entry, index) => (f entry, index)).lookup k = some i ↔
      ∃ entry, l[i]? = some entry ∧ f entry = k := by
  constructor
  · intro look
    obtain ⟨front, back, eq, _⟩ := List.lookup_eq_some_iff.mp look
    have mem : (k, i) ∈ l.zipIdx.map fun (entry, index) => (f entry, index) := by
      rw [eq]
      exact List.mem_append_right _ List.mem_cons_self
    obtain ⟨⟨entry, index⟩, mem, same⟩ := List.mem_map.mp mem
    cases same
    exact ⟨entry, List.mem_zipIdx_iff_getElem?.mp mem, rfl⟩
  · rintro ⟨entry, at_i, rfl⟩
    have keys : l.zipIdx.map (fun pair => f pair.1) = l.map f := by
      rw [← Function.comp_def, ← List.map_map, List.zipIdx_map_fst]
    exact lookup_map (f := fun pair : ι × Nat => f pair.1) (g := fun pair => pair.2) (keys ▸ nd)
      (i := (entry, i)) (List.mem_zipIdx_iff_getElem?.mpr at_i)

/-- Collected from the positions of a list, a map has the last one of each key. -/
lemma lookup_collect_zipIdx {f : ι → α} {l : List ι} {k : α} {i : Nat} :
    (collect (l.zipIdx.map fun (entry, index) => (f entry, index))).lookup k = some i ↔
      ∃ entry, l[i]? = some entry ∧ f entry = k ∧ ∀ later ∈ l.drop (i + 1), f later ≠ k := by
  induction l using List.reverseRecOn with
  | nil => simp [collect]
  | append_singleton l last ih =>
    have step : collect ((l ++ [last]).zipIdx.map fun (entry, index) => (f entry, index))
        = insert (f last) l.length (collect (l.zipIdx.map fun (entry, index) => (f entry, index))) := by
      simp [collect, List.zipIdx_append]
    rw [step]
    by_cases e : f last = k
    · subst e
      rw [lookup_insert_self, Option.some.injEq]
      constructor
      · rintro rfl
        exact ⟨last, by simp, rfl, by simp⟩
      · rintro ⟨entry, at_i, _, none⟩
        obtain ⟨lt, _⟩ := List.getElem?_eq_some_iff.mp at_i
        rw [List.length_append, List.length_singleton] at lt
        by_contra ne
        -- The last entry is behind every other.
        have le : i + 1 ≤ l.length := by omega
        rw [List.drop_append_of_le_length le] at none
        exact none last (List.mem_append_right _ (List.mem_singleton_self _)) rfl
    · rw [lookup_insert_of_ne fun eq => e eq.symm, ih]
      refine exists_congr fun entry => ?_
      constructor
      · rintro ⟨at_i, same, none⟩
        obtain ⟨lt, _⟩ := List.getElem?_eq_some_iff.mp at_i
        refine ⟨by rw [List.getElem?_append_left lt, at_i], same, ?_⟩
        rw [List.drop_append_of_le_length lt]
        exact List.forall_mem_append.mpr ⟨none, List.forall_mem_singleton.mpr e⟩
      · rintro ⟨at_i, rfl, none⟩
        by_cases lt : i < l.length
        · rw [List.getElem?_append_left lt] at at_i
          rw [List.drop_append_of_le_length lt] at none
          exact ⟨at_i, rfl, (List.forall_mem_append.mp none).1⟩
        · rw [List.getElem?_append_right (Nat.not_lt.mp lt)] at at_i
          exact absurd (congrArg f (List.mem_singleton.mp (List.mem_of_getElem? at_i))).symm e

/-- Where the first value of a key stays, the map looks up what the list of the pairs does. -/
lemma lookup_orInsert (m kvs : List (α × β)) (k : α) :
    (kvs.foldl (fun m kv => orInsert kv.1 kv.2 m) m).lookup k = (m ++ kvs).lookup k := by
  induction kvs generalizing m with
  | nil => rw [List.foldl_nil, List.append_nil]
  | cons kv kvs ih =>
    obtain ⟨k₀, v₀⟩ := kv
    rw [List.foldl_cons, ih, orInsert]
    split
    · next found =>
      -- The pair that is dropped is behind one with its key.
      obtain ⟨v, has⟩ := Option.isSome_iff_exists.mp found
      rw [List.lookup_append, List.lookup_append, List.lookup_cons]
      by_cases e : k = k₀
      · subst e
        rw [has, Option.some_or, Option.some_or]
      · have ne : (k == k₀) = false := by simpa using e
        rw [ne]
    · rw [List.append_assoc, List.singleton_append]

end AssocList

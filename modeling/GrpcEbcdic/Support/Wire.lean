import Mathlib.Algebra.Order.BigOperators.Group.List
import Mathlib.Algebra.Order.Ring.Nat

/-!
# Lengths on the protobuf wire

How many bytes the parts of a protobuf message take: a varint, a field with its key, and a repeated
field. Lengths only, so the parts of a message add up in any order.
-/

namespace Wire

universe u

/-- Bytes of a varint: seven bits each, and one byte for zero. -/
def varint (n : Nat) : Nat := (n ||| 1).log2 / 7 + 1

/-- Bytes of the key of a field. -/
def key (field : Nat) : Nat := varint (field <<< 3)

/-- A field of a known number of bytes: a string or a message. -/
def delimited (field length : Nat) : Nat := key field + varint length + length

/-- A field that is absent when it has no value. -/
def optional {α : Type u} (length : α → Nat) (value : Option α) : Nat := (value.map length).getD 0

/-- A string, which is absent when it is empty. -/
def string (field : Nat) (text : String) : Nat :=
  if text = "" then 0 else delimited field text.utf8ByteSize

/-- A string that is present when it is empty. -/
def presentString (field : Nat) (text : String) : Nat := delimited field text.utf8ByteSize

/-- A number, which is absent when it is zero. -/
def uint (field value : Nat) : Nat := if value = 0 then 0 else key field + varint value

/-- A number that is present when it is zero. -/
def presentUint (field value : Nat) : Nat := key field + varint value

/-- An enumeration, which travels as a sign-extended number and is absent when it is zero. -/
def enumeration (field : Nat) (value : Int) : Nat :=
  if value = 0 then 0 else key field + varint (value % 2 ^ 64).toNat

/-- A flag, which is absent when it is not set. -/
def bool (field : Nat) (value : Bool) : Nat := if value then key field + 1 else 0

/-- A double that is present when it is zero. -/
def presentDouble (field : Nat) : Nat := key field + 8

/-- A repeated field of strings or messages of these lengths. -/
def repeated (field : Nat) (lengths : List Nat) : Nat := (lengths.map (delimited field)).sum

/-- A varint has as many bytes as its number has groups of seven bits. -/
lemma varint_le_iff {n k : Nat} (pos : 0 < k) : varint n ≤ k ↔ n < 2 ^ (7 * k) := by
  have one : 1 < 2 ^ (7 * k) := Nat.one_lt_two_pow (by omega)
  have odd : n ||| 1 < 2 ^ (7 * k) ↔ n < 2 ^ (7 * k) :=
    ⟨Nat.left_le_or.trans_lt, fun lt => Nat.or_lt_two_pow lt one⟩
  have ne : n ||| 1 ≠ 0 := (Nat.one_pos.trans_le Nat.right_le_or).ne'
  rw [← odd, ← Nat.log2_lt ne, varint]
  omega

lemma varint_pos (n : Nat) : 0 < varint n := Nat.succ_pos _

/-- A smaller number has no longer varint. -/
lemma varint_mono {n m : Nat} (le : n ≤ m) : varint n ≤ varint m :=
  (varint_le_iff (varint_pos m)).mpr
    (le.trans_lt ((varint_le_iff (varint_pos m)).mp le_rfl))

/-- Content lies inside its field. -/
lemma le_delimited (field length : Nat) : length ≤ delimited field length := Nat.le_add_left _ _

lemma repeated_cons (field length : Nat) (lengths : List Nat) :
    repeated field (length :: lengths) = delimited field length + repeated field lengths := by
  rw [repeated, List.map_cons, List.sum_cons]
  rfl

lemma repeated_singleton (field length : Nat) : repeated field [length] = delimited field length := by
  rw [repeated_cons]
  rfl

lemma repeated_append (field : Nat) (lengths lengths' : List Nat) :
    repeated field (lengths ++ lengths') = repeated field lengths + repeated field lengths' := by
  rw [repeated, List.map_append, List.sum_append]
  rfl

/-- Any field number in use has a key of two bytes at most. -/
lemma key_le {field : Nat} (small : field < 2 ^ 11) : key field ≤ 2 := by
  refine (varint_le_iff Nat.two_pos).mpr ?_
  rw [Nat.shiftLeft_eq]
  omega

/-- A field is as long as its content and at most twelve bytes. -/
lemma delimited_le {field length : Nat} (small : field < 2 ^ 11) (fits : length < 2 ^ 70) :
    delimited field length ≤ length + 12 := by
  have key := key_le small
  have varint : varint length ≤ 10 := (varint_le_iff (by decide)).mpr fits
  unfold delimited
  omega

lemma string_le {field : Nat} {text : String} (small : field < 2 ^ 11)
    (fits : text.utf8ByteSize < 2 ^ 70) : string field text ≤ text.utf8ByteSize + 12 := by
  unfold string
  split_ifs
  · exact Nat.zero_le _
  · exact delimited_le small fits

lemma presentUint_le {field value : Nat} (small : field < 2 ^ 11) :
    presentUint field value ≤ varint value + 2 := by
  have key := key_le small
  unfold presentUint
  omega

/-- Items of at least some length take at least as much each. -/
lemma mul_le_repeated {field least : Nat} {lengths : List Nat} (all : ∀ n ∈ lengths, least ≤ n) :
    lengths.length * least ≤ repeated field lengths := by
  have each : ∀ n ∈ lengths.map (delimited field), least ≤ n := by
    refine List.forall_mem_map.mpr fun n mem => ?_
    exact (all n mem).trans (le_delimited field n)
  have bound := List.card_nsmul_le_sum _ least each
  rw [List.length_map] at bound
  exact bound

end Wire

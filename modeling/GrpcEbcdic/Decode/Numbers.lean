import GrpcEbcdic.Decode.Decode
import GrpcEbcdic.Support.Digits
import GrpcEbcdic.Support.Fallible
import Mathlib.Tactic.Linarith

/-!
# What the number decoders accept and return

One lemma for each decoder says when it succeeds and with which number. From them, a decoded number of
an admitted width fits the accumulator of the source.
-/

namespace GrpcEbcdic
open Rust Fallible

/-- Folding digits succeeds on digits alone, with the number they spell after what came before. -/
lemma foldDigits_ok {err : Nat → Nat → ParseError} {i : Nat} {a v : Int} {ds : List Nat} :
    foldDigits err i a ds = .ok v ↔
      (∀ d ∈ ds, d ≤ 9) ∧ v = a * 10 ^ ds.length + Digits.value 10 ds := by
  induction ds generalizing i a with
  | nil => simp [foldDigits, eq_comm]
  | cons d ds ih =>
    rw [foldDigits, guard_eq_ok, ih, List.forall_mem_cons, Nat.not_lt, and_assoc, Digits.value_cons,
      List.length_cons]
    push_cast
    have eq : (a * 10 + d) * 10 ^ ds.length + (Digits.value 10 ds : Int)
        = a * 10 ^ (ds.length + 1) + (d * 10 ^ ds.length + Digits.value 10 ds) := by ring
    rw [eq]

/-- The nibbles of a byte string, in order. -/
def nibbles (bytes : List UInt8) : List Nat :=
  bytes.flatMap fun byte => [highNibble byte, lowNibble byte]

lemma nibbles_length (bytes : List UInt8) : (nibbles bytes).length = 2 * bytes.length := by
  induction bytes with
  | nil => rfl
  | cons byte bytes ih =>
    simp only [nibbles, List.flatMap_cons, List.length_append, List.length_cons, List.length_nil]
      at ih ⊢
    omega

/-- A packed field decodes when every nibble but the last is a digit. -/
lemma decodePacked_ok {bytes : List UInt8} {v : Int} :
    decodePacked bytes = .ok v ↔
      ∃ last, bytes.getLast? = some last ∧
        (∀ d ∈ (nibbles bytes).dropLast, d ≤ 9) ∧
        v = applySign (lowNibble last) (Digits.value 10 (nibbles bytes).dropLast) := by
  unfold decodePacked
  cases bytes.getLast? with
  | none => simp
  | some last =>
    simp only [map_eq_ok, foldDigits_ok, Option.some.injEq, exists_eq_left', nibbles]
    constructor
    · rintro ⟨a, ⟨digits, rfl⟩, rfl⟩
      exact ⟨digits, by simp⟩
    · rintro ⟨digits, rfl⟩
      exact ⟨_, ⟨digits, rfl⟩, by simp⟩

/-- A zoned field decodes when every low nibble is a digit. -/
lemma decodeZoned_ok {bytes : List UInt8} {v : Int} :
    decodeZoned bytes = .ok v ↔
      ∃ last, bytes.getLast? = some last ∧
        (∀ d ∈ bytes.map lowNibble, d ≤ 9) ∧
        v = applySign (highNibble last) (Digits.value 10 (bytes.map lowNibble)) := by
  unfold decodeZoned
  cases bytes.getLast? with
  | none => simp
  | some last =>
    simp only [map_eq_ok, foldDigits_ok, Option.some.injEq, exists_eq_left']
    constructor
    · rintro ⟨a, ⟨digits, rfl⟩, rfl⟩
      exact ⟨digits, by simp⟩
    · rintro ⟨digits, rfl⟩
      exact ⟨_, ⟨digits, rfl⟩, by simp⟩

/-- The unsigned big-endian value of a byte string. -/
def bigEndian (bytes : List UInt8) : Nat := Digits.value 256 (bytes.map UInt8.toNat)

lemma bigEndian_lt (bytes : List UInt8) : bigEndian bytes < 256 ^ bytes.length := by
  have lt : ∀ d ∈ bytes.map UInt8.toNat, d < 256 :=
    List.forall_mem_map.mpr fun byte _ => byte.toNat_lt
  have bound := Digits.value_lt (by omega) lt
  rwa [List.length_map] at bound

@[simp] lemma bigEndian_cons (byte : UInt8) (bytes : List UInt8) :
    bigEndian (byte :: bytes) = byte.toNat * 256 ^ bytes.length + bigEndian bytes := by
  simp [bigEndian]

/-- A binary field decodes to its two's-complement or its unsigned value, the latter only below
`2 ^ 127`. -/
lemma decodeBinary_ok {bytes : List UInt8} {signed : Bool} {v : Int} :
    decodeBinary bytes signed = .ok v ↔
      ∃ first, bytes.head? = some first ∧
        bytes.length ≤ maxBinaryBytes ∧
        ¬ (signed = false ∧ bytes.length = maxBinaryBytes ∧ 0x80 ≤ first.toNat) ∧
        v = bigEndian bytes
          - if signed = true ∧ 0x80 ≤ first.toNat then 256 ^ bytes.length else 0 := by
  unfold decodeBinary
  cases bytes.head? with
  | none => simp
  | some first =>
    have fold (start : Int) :
        bytes.foldl (fun (value : Int) (byte : UInt8) => value * 256 + byte.toNat) start
        = start * 256 ^ bytes.length + bigEndian bytes := by
      have eq := Digits.foldl_eq 256 start (bytes.map UInt8.toNat)
      rw [List.foldl_map, List.length_map] at eq
      exact_mod_cast eq
    simp only [guard_eq_ok, Option.some.injEq, exists_eq_left', Nat.not_lt, fold, Except.ok.injEq,
      Bool.and_eq_true, Bool.not_eq_true', decide_eq_true_eq, and_assoc]
    refine and_congr_right fun _ => and_congr_right fun _ => ?_
    split_ifs
    · constructor <;> intro h <;> linarith
    · constructor <;> intro h <;> linarith

/-- The numbers an `i128` holds. -/
def FitsI128 (n : Int) : Prop := -2 ^ 127 ≤ n ∧ n < 2 ^ 127

lemma applySign_natAbs (sign : Nat) (v : Int) : (applySign sign v).natAbs = v.natAbs := by
  unfold applySign
  split
  · exact Int.natAbs_neg v
  · rfl

/-- A signed number of at most 37 decimal digits is far from the bounds of the accumulator. -/
lemma applySign_lt {sign : Nat} {ds : List Nat} (digits : ∀ d ∈ ds, d ≤ 9)
    (len : ds.length ≤ 37) : (applySign sign (Digits.value 10 ds)).natAbs < 10 ^ 37 := by
  rw [applySign_natAbs, Int.natAbs_natCast]
  refine (Digits.value_lt (by omega) fun d mem => ?_).trans_le (Nat.pow_le_pow_right (by omega) len)
  exact Nat.lt_succ_of_le (digits d mem)

lemma decodePacked_lt {bytes : List UInt8} {v : Int} (ok : decodePacked bytes = .ok v)
    (width : bytes.length ≤ maxPackedBytes) : v.natAbs < 10 ^ 37 := by
  obtain ⟨last, _, digits, rfl⟩ := decodePacked_ok.mp ok
  apply applySign_lt digits
  rw [List.length_dropLast, nibbles_length]
  unfold maxPackedBytes at width
  omega

lemma decodeZoned_lt {bytes : List UInt8} {v : Int} (ok : decodeZoned bytes = .ok v)
    (width : bytes.length ≤ maxZonedBytes) : v.natAbs < 10 ^ 37 := by
  obtain ⟨last, _, digits, rfl⟩ := decodeZoned_ok.mp ok
  apply applySign_lt digits
  rwa [List.length_map]

lemma fitsI128_of_lt {v : Int} (lt : v.natAbs < 10 ^ 37) : FitsI128 v := by
  unfold FitsI128
  omega

lemma decodeBinary_fits {bytes : List UInt8} {signed : Bool} {v : Int}
    (ok : decodeBinary bytes signed = .ok v) : FitsI128 v := by
  obtain ⟨first, head, width, fits, rfl⟩ := decodeBinary_ok.mp ok
  cases bytes with
  | nil => cases head
  | cons byte rest =>
    cases head
    have lt := bigEndian_lt rest
    have byte_lt := first.toNat_lt
    simp only [bigEndian_cons, List.length_cons, maxBinaryBytes] at width fits ⊢
    obtain short | eq : rest.length ≤ 14 ∨ rest.length = 15 := by omega
    · have whole := bigEndian_lt (first :: rest)
      rw [bigEndian_cons, List.length_cons] at whole
      have le : 256 ^ (rest.length + 1) ≤ 256 ^ 15 := Nat.pow_le_pow_right (by omega) (by omega)
      have cast : ((256 ^ (rest.length + 1) : Nat) : Int) = 256 ^ (rest.length + 1) := by push_cast; rfl
      unfold FitsI128
      rw [← cast]
      split_ifs <;> omega
    · rw [eq] at lt fits ⊢
      unfold FitsI128
      cases signed with
      | true =>
        simp only [true_and]
        split_ifs <;> omega
      | false =>
        simp only [true_and, Bool.false_eq_true, false_and, if_false, not_le] at fits ⊢
        omega

end GrpcEbcdic

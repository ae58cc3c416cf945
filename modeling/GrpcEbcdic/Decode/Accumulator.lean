import GrpcEbcdic.Decode.Images

/-!
# The accumulator of the source

The decoders of the source compute in an `i128`. Their loops are written here once more over that
machine: the decimal ones with every result checked, where `none` is a value that leaves the
accumulator, and the binary one on the bits, where a shift drops what leaves them. At the widths the
decoders admit they are the decoders over the integers, so those say exactly what the source accepts
and returns.
-/

namespace GrpcEbcdic
open Rust Fallible

instance (n : Int) : Decidable (FitsI128 n) := inferInstanceAs (Decidable (_ ∧ _))

/-- The error about a nibble of a packed field that is not a digit. -/
def notAPackedDigit (bytes : List UInt8) (index nibble : Nat) : ParseError :=
  .invalid (s!"packed decimal nibble {index} is 0x{hex nibble}, not a digit " ++
    s!"(bytes {hexBytes bytes})")

/-- The error about a low nibble of a zoned field that is not a digit. -/
def notAZonedDigit (bytes : List UInt8) (index digit : Nat) : ParseError :=
  .invalid (s!"zoned decimal digit {index} is 0x{hex digit}, not a digit " ++
    s!"(bytes {hexBytes bytes})")

namespace I128

/-- The result of an operation, when the accumulator holds it. -/
def result (n : Int) : Option Int := if FitsI128 n then some n else none

lemma result_eq {n : Int} (fits : FitsI128 n) : result n = some n := if_pos fits

/-- Fold digit nibbles into a value. -/
def foldDigits (notADigit : Nat → Nat → ParseError) (index : Nat) (value : Int) :
    List Nat → Option (Except ParseError Int)
  | [] => some (.ok value)
  | nibble :: nibbles =>
    if 9 < nibble then some (.error (notADigit index nibble))
    else do
      let tens ← result (value * 10)
      let value ← result (tens + nibble)
      foldDigits notADigit (index + 1) value nibbles

/-- The value, negated under a negative sign nibble. -/
def applySign (sign : Nat) (value : Int) : Option Int :=
  if sign ∈ negativeSigns then result (-value) else some value

/-- The digits of a field under its sign. -/
def decodeDigits (notADigit : Nat → Nat → ParseError) (sign : Nat) (digits : List Nat) :
    Option (Except ParseError Int) := do
  match ← foldDigits notADigit 0 0 digits with
  | .error e => return .error e
  | .ok value =>
    let value ← applySign sign value
    return .ok value

/-- Decode `COMP-3` packed decimal. -/
def decodePacked (bytes : List UInt8) : Option (Except ParseError Int) :=
  match bytes.getLast? with
  | none => some (.error (.invalid "a packed decimal field needs at least one byte"))
  | some last =>
    decodeDigits (notAPackedDigit bytes) (lowNibble last)
      (bytes.flatMap fun byte => [highNibble byte, lowNibble byte]).dropLast

/-- Decode a zoned decimal. -/
def decodeZoned (bytes : List UInt8) : Option (Except ParseError Int) :=
  match bytes.getLast? with
  | none => some (.error (.invalid "a zoned decimal field needs at least one byte"))
  | some last =>
    decodeDigits (notAZonedDigit bytes) (highNibble last) (bytes.map lowNibble)

/-- `(value << 8) | i128::from(byte)`. -/
def shiftIn (value : BitVec 128) (byte : UInt8) : BitVec 128 :=
  value <<< 8 ||| byte.toBitVec.setWidth 128

/-- Decode a big-endian binary field. -/
def decodeBinary (bytes : List UInt8) (signed : Bool) : Except ParseError (BitVec 128) :=
  match bytes.head? with
  | none => .error (.invalid "a binary field needs at least one byte")
  | some first =>
    if maxBinaryBytes < bytes.length then
      .error (.unsupported (s!"binary fields wider than {maxBinaryBytes} bytes are not supported " ++
        s!"(got {bytes.length})"))
    else if !signed && bytes.length = maxBinaryBytes && first &&& 0x80 ≠ 0 then
      .error (.unsupported (s!"unsigned binary value {hexBytes bytes} exceeds the largest number " ++
        "this build carries"))
    else .ok (bytes.foldl shiftIn (if signed && first &&& 0x80 ≠ 0 then -1 else 0))

end I128

section Decimal

/-- Up to 37 digits no step of the fold leaves the accumulator. -/
lemma I128.foldDigits_eq {err : Nat → Nat → ParseError} {i k : Nat} {v : Int} {ds : List Nat}
    (nonneg : 0 ≤ v) (lt : v < 10 ^ k) (room : k + ds.length ≤ 37) :
    foldDigits err i v ds = some (GrpcEbcdic.foldDigits err i v ds) := by
  induction ds generalizing i k v with
  | nil => rfl
  | cons d ds ih =>
    rw [foldDigits, GrpcEbcdic.foldDigits]
    rw [List.length_cons] at room
    split_ifs with above
    · rfl
    · have next : v * 10 + d < 10 ^ (k + 1) := by
        rw [pow_succ]
        omega
      have bound : (10 : Int) ^ (k + 1) ≤ 10 ^ 37 := pow_le_pow_right₀ (by decide) (by omega)
      have tens_fits : FitsI128 (v * 10) := fitsI128_of_lt (by omega)
      have next_fits : FitsI128 (v * 10 + d) := fitsI128_of_lt (by omega)
      simp only [result_eq tens_fits, result_eq next_fits, Option.bind_eq_bind, Option.bind_some]
      exact ih (by omega) next (by omega)

/-- And neither does the sign. -/
lemma I128.decodeDigits_eq {err : Nat → Nat → ParseError} {sign : Nat} {ds : List Nat}
    (room : ds.length ≤ 37) :
    decodeDigits err sign ds
      = some ((GrpcEbcdic.foldDigits err 0 0 ds).map (GrpcEbcdic.applySign sign)) := by
  have fold : foldDigits err 0 0 ds = some (GrpcEbcdic.foldDigits err 0 0 ds) :=
    foldDigits_eq (Int.le_refl 0) (by decide : (0 : Int) < 10 ^ 0) (by omega)
  unfold decodeDigits
  rw [fold, Option.bind_eq_bind, Option.bind_some]
  cases decoded : GrpcEbcdic.foldDigits err 0 0 ds with
  | error e => rfl
  | ok v =>
    obtain ⟨digits, value⟩ := foldDigits_ok.mp decoded
    rw [Int.zero_mul, Int.zero_add] at value
    have small : (GrpcEbcdic.applySign sign v).natAbs < 10 ^ 37 := value ▸ applySign_lt digits room
    have signed : applySign sign v = some (GrpcEbcdic.applySign sign v) := by
      unfold applySign
      unfold GrpcEbcdic.applySign at small ⊢
      split_ifs at small ⊢
      · exact result_eq (fitsI128_of_lt small)
      · rfl
    dsimp only
    rw [signed]
    rfl

/-- At the admitted widths no intermediate value of a packed field leaves the accumulator. -/
lemma I128.decodePacked_eq {bytes : List UInt8} (width : bytes.length ≤ maxPackedBytes) :
    decodePacked bytes = some (GrpcEbcdic.decodePacked bytes) := by
  unfold decodePacked GrpcEbcdic.decodePacked
  cases bytes.getLast? with
  | none => rfl
  | some last =>
    apply decodeDigits_eq
    have len := nibbles_length bytes
    unfold nibbles at len
    unfold maxPackedBytes at width
    rw [List.length_dropLast, len]
    omega

/-- Nor does one of a zoned field. -/
lemma I128.decodeZoned_eq {bytes : List UInt8} (width : bytes.length ≤ maxZonedBytes) :
    decodeZoned bytes = some (GrpcEbcdic.decodeZoned bytes) := by
  unfold decodeZoned GrpcEbcdic.decodeZoned
  cases bytes.getLast? with
  | none => rfl
  | some last =>
    apply decodeDigits_eq
    rwa [List.length_map]

/-- Folding digits fails at the first nibble that is none. -/
lemma foldDigits_error {err : Nat → Nat → ParseError} {i : Nat} {v : Int} {ds : List Nat}
    {e : ParseError} (failed : foldDigits err i v ds = .error e) :
    ∃ k d, ds[k]? = some d ∧ 9 < d ∧ (∀ j < k, ∀ d' ∈ ds[j]?, d' ≤ 9) ∧ e = err (i + k) d := by
  induction ds generalizing i v with
  | nil => cases failed
  | cons d ds ih =>
    rw [foldDigits] at failed
    split_ifs at failed with here
    · cases failed
      exact ⟨0, d, rfl, here, fun j lt => absurd lt (Nat.not_lt_zero j), rfl⟩
    · obtain ⟨k, d', at_k, above, before, rfl⟩ := ih failed
      refine ⟨k + 1, d', at_k, above, fun j lt => ?_, by rw [Nat.add_right_comm, Nat.add_assoc]⟩
      cases j with
      | zero => simpa using Nat.not_lt.mp here
      | succ j => exact before j (Nat.lt_of_succ_lt_succ lt)

/-- What a decimal decoder does with the digits and the sign nibble of a field: it accepts digits alone
and returns the number they spell, negated under a negative sign; otherwise it names the first nibble
that is not a digit. -/
structure DecodesExactly (digits : List Nat) (sign : Nat) (notADigit : Nat → Nat → ParseError)
    (decoded : Except ParseError Int) : Prop where
  accepts : (∃ v, decoded = .ok v) ↔ ∀ d ∈ digits, d ≤ 9
  value : ∀ v, decoded = .ok v →
    v = if sign = 0x0b ∨ sign = 0x0d then -(Digits.value 10 digits : Int)
      else Digits.value 10 digits
  refuses : ∀ e, decoded = .error e → ∃ i d, digits[i]? = some d ∧ 9 < d ∧
    (∀ j < i, ∀ d' ∈ digits[j]?, d' ≤ 9) ∧ e = notADigit i d

/-- Folding the digits and applying the sign is exact. -/
lemma decodesExactly (digits : List Nat) (sign : Nat) (notADigit : Nat → Nat → ParseError) :
    DecodesExactly digits sign notADigit
      ((foldDigits notADigit 0 0 digits).map (applySign sign)) := by
  have signs : sign ∈ negativeSigns ↔ sign = 0x0b ∨ sign = 0x0d := by simp [negativeSigns]
  refine ⟨⟨?_, fun all => ?_⟩, ?_, ?_⟩
  · rintro ⟨v, ok⟩
    obtain ⟨u, folded, _⟩ := map_eq_ok.mp ok
    exact (foldDigits_ok.mp folded).1
  · exact ⟨_, map_eq_ok.mpr ⟨_, foldDigits_ok.mpr ⟨all, rfl⟩, rfl⟩⟩
  · intro v ok
    obtain ⟨u, folded, rfl⟩ := map_eq_ok.mp ok
    rw [(foldDigits_ok.mp folded).2, Int.zero_mul, Int.zero_add, applySign]
    simp only [signs]
  · intro e failed
    cases folded : foldDigits notADigit 0 0 digits with
    | ok u => rw [folded] at failed; cases failed
    | error e' =>
      rw [folded] at failed
      cases failed
      obtain ⟨i, d, at_i, above, before, rfl⟩ := foldDigits_error folded
      exact ⟨i, d, at_i, above, before, by rw [Nat.zero_add]⟩

/-- The decimal decoders accept exactly their format, and at the widths validation admits no intermediate
value leaves the accumulator. -/
theorem decimals_decode_exactly {bytes : List UInt8} (ne : bytes ≠ []) :
    (bytes.length ≤ maxPackedBytes →
      DecodesExactly (nibbles bytes).dropLast (lowNibble (bytes.getLast ne)) (notAPackedDigit bytes)
        (decodePacked bytes) ∧
      I128.decodePacked bytes = some (decodePacked bytes)) ∧
    (bytes.length ≤ maxZonedBytes →
      DecodesExactly (bytes.map lowNibble) (highNibble (bytes.getLast ne)) (notAZonedDigit bytes)
        (decodeZoned bytes) ∧
      I128.decodeZoned bytes = some (decodeZoned bytes)) := by
  have last := List.getLast?_eq_some_getLast ne
  refine ⟨fun width => ⟨?_, I128.decodePacked_eq width⟩, fun width => ⟨?_, I128.decodeZoned_eq width⟩⟩
  · unfold decodePacked
    rw [last]
    exact decodesExactly _ _ _
  · unfold decodeZoned
    rw [last]
    exact decodesExactly _ _ _

/-- A packed amount, and a zoned one with a blank for a digit. -/
theorem decimals_decode_exactly_sample :
    I128.decodePacked [0x12, 0x3d] = some (decodePacked [0x12, 0x3d]) ∧
      decodePacked [0x12, 0x3d] = .ok (-123) ∧
      ∃ i d, [1, 15, 3][i]? = some d ∧ 9 < d ∧ (∀ j < i, ∀ d' ∈ [1, 15, 3][j]?, d' ≤ 9) ∧
        decodeZoned [0xf1, 0x4f, 0xf3] = .error (notAZonedDigit [0xf1, 0x4f, 0xf3] i d) := by
  have packed := (decimals_decode_exactly (List.cons_ne_nil 0x12 [0x3d])).1 (by decide)
  have zoned := (decimals_decode_exactly (List.cons_ne_nil 0xf1 [0x4f, 0xf3])).2 (by decide)
  obtain ⟨i, d, at_i, above, before, eq⟩ := zoned.1.refuses _ rfl
  exact ⟨packed.2, rfl, i, d, at_i, above, before, congrArg Except.error eq⟩

end Decimal

section Binary

lemma I128.shiftIn_ofInt (v : Int) (byte : UInt8) :
    shiftIn (BitVec.ofInt 128 v) byte = BitVec.ofInt 128 (v * 256 + byte.toNat) := by
  have lt := byte.toNat_lt
  have low : (byte.toBitVec.setWidth 128).toNat = byte.toNat := by
    rw [BitVec.toNat_setWidth]
    exact Nat.mod_eq_of_lt (lt_trans lt (by decide))
  have high : (BitVec.ofInt 128 v <<< 8).toNat = ((v % 2 ^ 120).toNat) <<< 8 := by
    rw [BitVec.toNat_shiftLeft, BitVec.toNat_ofInt, Nat.shiftLeft_eq, Nat.shiftLeft_eq]
    push_cast
    omega
  apply BitVec.eq_of_toNat_eq
  rw [shiftIn, BitVec.toNat_or, high, low, ← Nat.shiftLeft_add_eq_or_of_lt lt, BitVec.toNat_ofInt,
    Nat.shiftLeft_eq]
  push_cast
  omega

/-- Shifting bytes in is folding them over the integers, modulo what leaves the accumulator. -/
lemma I128.foldl_shiftIn (v : Int) (bytes : List UInt8) :
    bytes.foldl shiftIn (BitVec.ofInt 128 v)
      = BitVec.ofInt 128 (bytes.foldl (fun value byte => value * 256 + byte.toNat) v) := by
  induction bytes generalizing v with
  | nil => rfl
  | cons byte bytes ih => rw [List.foldl_cons, List.foldl_cons, shiftIn_ofInt, ih]

/-- The top bit of a byte is its sign. -/
lemma topBit (byte : UInt8) : byte &&& 0x80 ≠ 0 ↔ 0x80 ≤ byte.toNat := by
  obtain ⟨bits⟩ := byte
  revert bits
  decide

/-- The bits the source folds are those of the number decoded over the integers. -/
lemma I128.decodeBinary_eq (bytes : List UInt8) (signed : Bool) :
    (decodeBinary bytes signed).map BitVec.toInt = GrpcEbcdic.decodeBinary bytes signed := by
  cases decoded : GrpcEbcdic.decodeBinary bytes signed with
  | error e =>
    unfold decodeBinary
    unfold GrpcEbcdic.decodeBinary at decoded
    simp only [topBit]
    cases head : bytes.head? with
    | none => rw [head] at decoded; exact decoded
    | some first =>
      rw [head] at decoded
      dsimp only at decoded ⊢
      split_ifs at decoded ⊢
      all_goals exact decoded
  | ok v =>
    have fits := decodeBinary_fits decoded
    unfold decodeBinary
    unfold GrpcEbcdic.decodeBinary at decoded
    simp only [topBit]
    cases head : bytes.head? with
    | none => rw [head] at decoded; cases decoded
    | some first =>
      rw [head] at decoded
      dsimp only at decoded ⊢
      split_ifs at decoded ⊢
      · cases decoded
        exact congrArg Except.ok ((congrArg BitVec.toInt (foldl_shiftIn (-1) bytes)).trans
          (BitVec.toInt_ofInt_eq_self (by decide) fits.1 fits.2))
      · cases decoded
        exact congrArg Except.ok ((congrArg BitVec.toInt (foldl_shiftIn 0 bytes)).trans
          (BitVec.toInt_ofInt_eq_self (by decide) fits.1 fits.2))

/-- The two's-complement value of a byte string, most significant byte first. -/
def twosComplement (bytes : List UInt8) : Int :=
  (BitVec.ofNat (8 * bytes.length) (bigEndian bytes)).toInt

lemma pow256 (n : Nat) : 256 ^ n = 2 ^ (8 * n) := by
  rw [pow_mul]
  rfl

lemma bigEndian_toNat (bytes : List UInt8) :
    (BitVec.ofNat (8 * bytes.length) (bigEndian bytes)).toNat = bigEndian bytes := by
  rw [BitVec.toNat_ofNat, ← pow256, Nat.mod_eq_of_lt (bigEndian_lt bytes)]

/-- The top bit of the first byte says whether the number is in the upper half. -/
lemma top_iff (first : UInt8) (rest : List UInt8) :
    0x80 ≤ first.toNat ↔ 256 ^ (rest.length + 1) ≤ 2 * bigEndian (first :: rest) := by
  have lt := bigEndian_lt rest
  rw [bigEndian_cons, pow_succ]
  constructor
  · intro le
    have high : 0x80 * 256 ^ rest.length ≤ first.toNat * 256 ^ rest.length :=
      Nat.mul_le_mul_right _ le
    omega
  · intro le
    by_contra small
    have low : (first.toNat + 1) * 256 ^ rest.length ≤ 0x80 * 256 ^ rest.length :=
      Nat.mul_le_mul_right _ (by omega)
    rw [Nat.succ_mul] at low
    omega

/-- A signed field decodes to its two's-complement value. -/
lemma decodeBinary_signed {bytes : List UInt8} (ne : bytes ≠ [])
    (width : bytes.length ≤ maxBinaryBytes) :
    decodeBinary bytes true = .ok (twosComplement bytes) := by
  obtain ⟨first, rest, rfl⟩ := List.exists_cons_of_ne_nil ne
  refine decodeBinary_ok.mpr ⟨first, rfl, width, by simp, ?_⟩
  have top := top_iff first rest
  rw [twosComplement, BitVec.toInt_eq_toNat_cond, bigEndian_toNat, ← pow256, List.length_cons]
  simp only [true_and, top]
  push_cast
  split_ifs <;> omega

/-- An unsigned field decodes to its value when the accumulator holds it. -/
lemma decodeBinary_unsigned {bytes : List UInt8} (ne : bytes ≠ [])
    (width : bytes.length ≤ maxBinaryBytes) :
    if bigEndian bytes < 2 ^ 127 then decodeBinary bytes false = .ok (bigEndian bytes)
    else ∃ message, decodeBinary bytes false = .error (.unsupported message) := by
  obtain ⟨first, rest, rfl⟩ := List.exists_cons_of_ne_nil ne
  have top := top_iff first rest
  have lt := bigEndian_lt (first :: rest)
  unfold maxBinaryBytes at width
  rw [List.length_cons] at width lt
  -- Only a field as wide as the accumulator reaches beyond it.
  have beyond : 2 ^ 127 ≤ bigEndian (first :: rest) ↔
      (first :: rest).length = maxBinaryBytes ∧ 0x80 ≤ first.toNat := by
    unfold maxBinaryBytes
    rw [top, List.length_cons]
    by_cases wide : rest.length + 1 = 16
    · rw [wide]
      omega
    · have le : 256 ^ (rest.length + 1) ≤ 256 ^ 15 := Nat.pow_le_pow_right (by decide) (by omega)
      omega
  split_ifs with small
  · refine decodeBinary_ok.mpr ⟨first, rfl, width, ?_, by simp⟩
    exact fun guard => absurd (beyond.mpr guard.2) (Nat.not_le.mpr small)
  · obtain ⟨wide, high⟩ := beyond.mp (Nat.not_lt.mp small)
    simp only [decodeBinary, List.head?_cons, wide, high, Bool.not_false,
      Bool.true_and, decide_true, if_true]
    exact ⟨_, rfl⟩

section Image

variable {w : Nat} {v : Int}

lemma binaryImage_range (w : Nat) (v : Int) : (v % 256 ^ w).toNat < 256 ^ w := by
  have pos : (0 : Int) < 256 ^ w := by positivity
  have lt := Int.emod_lt_of_pos v pos
  have nonneg := Int.emod_nonneg v pos.ne'
  have cast : ((256 ^ w : Nat) : Int) = 256 ^ w := by push_cast; rfl
  omega

lemma binaryImage_length (w : Nat) (v : Int) : (binaryImage w v).length = w := by
  rw [← List.length_map UInt8.toNat, binaryImage_toNat,
    Digits.numeral_length (by decide) (binaryImage_range w v)]

lemma bigEndian_image (w : Nat) (v : Int) : bigEndian (binaryImage w v) = (v % 256 ^ w).toNat := by
  rw [bigEndian, binaryImage_toNat, Digits.value_numeral]

/-- The encoding of a number a signed field holds has that number for its value. -/
lemma twosComplement_image (pos : 0 < w) (ge : -2 ^ (8 * w - 1) ≤ v) (lt : v < 2 ^ (8 * w - 1)) :
    twosComplement (binaryImage w v) = v := by
  have same : BitVec.ofNat (8 * w) (v % 256 ^ w).toNat = BitVec.ofInt (8 * w) v := by
    apply BitVec.eq_of_toNat_eq
    rw [BitVec.toNat_ofNat, BitVec.toNat_ofInt, ← pow256, Nat.mod_eq_of_lt (binaryImage_range w v)]
    push_cast
    rfl
  rw [twosComplement, binaryImage_length, bigEndian_image, same,
    BitVec.toInt_ofInt_eq_self (by omega) ge lt]

/-- The encoding of a number an unsigned field holds spells it. -/
lemma bigEndian_image_nat {n : Nat} (lt : n < 256 ^ w) : bigEndian (binaryImage w n) = n := by
  rw [bigEndian_image, Int.emod_eq_of_lt (Int.natCast_nonneg n) (by exact_mod_cast lt),
    Int.toNat_natCast]

/-- A binary image decodes to its number, signed or not, while the number leaves the sign bit free. -/
theorem decodeBinary_image {k : Nat} {v : Int} {signed : Bool} (width : k + 1 < maxBinaryBytes)
    (lt : v.natAbs < 128 * 256 ^ k) (nonneg : signed = false → 0 ≤ v) :
    (binaryImage (k + 1) v).length = k + 1 ∧ decodeBinary (binaryImage (k + 1) v) signed = .ok v := by
  have len := binaryImage_length (k + 1) v
  have ne : binaryImage (k + 1) v ≠ [] := List.ne_nil_of_length_pos (by omega)
  refine ⟨len, ?_⟩
  cases signed with
  | true =>
    have half : (2 : Int) ^ (8 * (k + 1) - 1) = ((128 * 256 ^ k : Nat) : Int) := by
      have split : 8 * (k + 1) - 1 = 7 + 8 * k := by omega
      rw [pow256, split, pow_add]
      push_cast
      rfl
    have ge : -2 ^ (8 * (k + 1) - 1) ≤ v := by
      rw [half]
      omega
    have lt' : v < 2 ^ (8 * (k + 1) - 1) := by
      rw [half]
      omega
    rw [decodeBinary_signed ne (by omega), twosComplement_image k.succ_pos ge lt']
  | false =>
    obtain ⟨n, rfl⟩ := Int.eq_ofNat_of_zero_le (nonneg rfl)
    rw [Int.natAbs_natCast] at lt
    have room : 256 ^ k ≤ 256 ^ 14 :=
      Nat.pow_le_pow_right (by decide) (by unfold maxBinaryBytes at width; omega)
    have decoded := decodeBinary_unsigned ne (by omega)
    rwa [bigEndian_image_nat (by rw [pow_succ]; omega), if_pos (by omega)] at decoded

end Image

/-- Binary fields decode to their two's-complement or their unsigned value, the latter when the
accumulator holds it; every number a width holds is read back from its encoding. -/
theorem binary_decodes_exactly :
    (∀ bytes : List UInt8, bytes ≠ [] → bytes.length ≤ maxBinaryBytes →
      (∀ signed, (I128.decodeBinary bytes signed).map BitVec.toInt = decodeBinary bytes signed) ∧
      decodeBinary bytes true = .ok (twosComplement bytes) ∧
      if bigEndian bytes < 2 ^ 127 then decodeBinary bytes false = .ok (bigEndian bytes)
      else ∃ message, decodeBinary bytes false = .error (.unsupported message)) ∧
    (∀ w : Nat, 0 < w → w ≤ maxBinaryBytes →
      (∀ v : Int, (binaryImage w v).length = w) ∧
      (∀ v : Int, -2 ^ (8 * w - 1) ≤ v → v < 2 ^ (8 * w - 1) →
        decodeBinary (binaryImage w v) true = .ok v) ∧
      ∀ n : Nat, n < 2 ^ (8 * w) → n < 2 ^ 127 → decodeBinary (binaryImage w n) false = .ok ↑n) ∧
    ∀ (bytes : List UInt8) (v : Int), decodeBinary bytes false = .ok v → 0 ≤ v := by
  refine ⟨fun bytes ne width => ?_, fun w pos le => ⟨binaryImage_length w, ?_, ?_⟩, ?_⟩
  · exact ⟨I128.decodeBinary_eq bytes, decodeBinary_signed ne width, decodeBinary_unsigned ne width⟩
  · intro v ge lt
    have len := binaryImage_length w v
    have ne : binaryImage w v ≠ [] := List.ne_nil_of_length_pos (by omega)
    rw [decodeBinary_signed ne (by omega), twosComplement_image pos ge lt]
  · intro n lt small
    have len := binaryImage_length w n
    have ne : binaryImage w (n : Int) ≠ [] := List.ne_nil_of_length_pos (by omega)
    have decoded := decodeBinary_unsigned ne (by omega)
    rwa [bigEndian_image_nat (pow256 w ▸ lt), if_pos small] at decoded
  · intro bytes v ok
    obtain ⟨_, _, _, _, rfl⟩ := decodeBinary_ok.mp ok
    simp

/-- The largest unsigned number of the accumulator's width, and a negative one. -/
theorem binary_decodes_exactly_sample :
    decodeBinary (binaryImage 16 (2 ^ 127 - 1 : Nat)) false = .ok ((2 ^ 127 - 1 : Nat) : Int) ∧
      decodeBinary (binaryImage 2 (-2)) true = .ok (-2) ∧
      (I128.decodeBinary [0xff, 0xfe] true).map BitVec.toInt = decodeBinary [0xff, 0xfe] true :=
  ⟨(binary_decodes_exactly.2.1 16 (by decide) (by decide)).2.2 _ (by decide) (by decide),
    (binary_decodes_exactly.2.1 2 (by decide) (by decide)).2.1 _ (by decide) (by decide),
    (binary_decodes_exactly.1 [0xff, 0xfe] (by decide) (by decide)).1 true⟩

end Binary

end GrpcEbcdic

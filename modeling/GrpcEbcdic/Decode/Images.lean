import GrpcEbcdic.Decode.Numbers

/-!
# Storage images

How COBOL stores a number in so many digits, one image for each storage usage, and that the decimal
decoders read theirs back. The sign is a nibble; the preferred ones and their alternatives all count.
-/

namespace GrpcEbcdic
open Rust Fallible

/-- The decimal digits of a number's size, at a width. -/
def imageDigits (digits : Nat) (v : Int) : List Nat := Digits.numeral 10 digits v.natAbs

/-- A sign nibble a number may be stored with. -/
def SignOf (sign : Nat) (v : Int) : Prop :=
  0 ≤ v ∧ sign ∈ [0x0a, 0x0c, 0x0e, 0x0f] ∨ v ≤ 0 ∧ sign ∈ [0x0b, 0x0d]

/-- Two nibbles in a byte. -/
def nibblePair (high low : Nat) : UInt8 := UInt8.ofNat (high * 16 + low)

/-- Nibbles in bytes, two by two. -/
def packNibbles : List Nat → List UInt8
  | high :: low :: rest => nibblePair high low :: packNibbles rest
  | _ => []

/-- The image of a number under `DISPLAY`: a digit in the low nibble of every byte, the sign in the zone
of the last. -/
def zonedImage (digits sign : Nat) (v : Int) : List UInt8 :=
  (imageDigits digits v).dropLast.map (nibblePair 0x0f) ++
    [nibblePair sign ((imageDigits digits v).getLastD 0)]

/-- The image under `COMP-3`: the digits, behind a nibble of padding when there is an even number of
them, and the sign in the last nibble. -/
def packedImage (digits sign : Nat) (v : Int) : List UInt8 :=
  packNibbles ((if digits % 2 = 0 then [0] else []) ++ imageDigits digits v ++ [sign])

/-- The image under `BINARY`: two's complement, most significant byte first. -/
def binaryImage (width : Nat) (v : Int) : List UInt8 :=
  (Digits.numeral 256 width (v % 256 ^ width).toNat).map UInt8.ofNat

section Nibbles

lemma SignOf.lt {sign : Nat} {v : Int} (so : SignOf sign v) : sign < 16 := by
  have spec : ∀ s ∈ [0x0a, 0x0c, 0x0e, 0x0f] ++ [0x0b, 0x0d], s < 16 := by decide
  exact spec sign (List.mem_append.mpr (so.imp And.right And.right))

/-- The sign nibble gives the size its sign back. -/
lemma SignOf.apply {sign : Nat} {v : Int} (so : SignOf sign v) : applySign sign v.natAbs = v := by
  unfold applySign
  rcases so with ⟨nonneg, mem⟩ | ⟨nonpos, mem⟩
  · have spec : ∀ s ∈ [0x0a, 0x0c, 0x0e, 0x0f], s ∉ negativeSigns := by decide
    rw [if_neg (spec sign mem)]
    omega
  · have spec : ∀ s ∈ [0x0b, 0x0d], s ∈ negativeSigns := by decide
    rw [if_pos (spec sign mem)]
    omega

lemma nibblePair_toNat {high low : Nat} (hh : high < 16) (hl : low < 16) :
    (nibblePair high low).toNat = high * 16 + low := by
  rw [nibblePair, UInt8.toNat_ofNat', Nat.mod_eq_of_lt (by omega)]

lemma highNibble_pair {high low : Nat} (hh : high < 16) (hl : low < 16) :
    highNibble (nibblePair high low) = high := by
  rw [highNibble, nibblePair_toNat hh hl]
  omega

lemma lowNibble_pair {high low : Nat} (hh : high < 16) (hl : low < 16) :
    lowNibble (nibblePair high low) = low := by
  rw [lowNibble, nibblePair_toNat hh hl]
  omega

/-- Packed nibbles are there again. -/
lemma nibbles_packNibbles {ns : List Nat} (even : ns.length % 2 = 0) (lt : ∀ n ∈ ns, n < 16) :
    nibbles (packNibbles ns) = ns := by
  induction ns using packNibbles.induct with
  | case1 high low rest ih =>
    simp only [List.forall_mem_cons] at lt
    simp only [List.length_cons] at even
    have rest := ih (by omega) lt.2.2
    rw [nibbles] at rest
    rw [packNibbles, nibbles, List.flatMap_cons, rest, highNibble_pair lt.1 lt.2.1,
      lowNibble_pair lt.1 lt.2.1]
    rfl
  | case2 ns short =>
    rcases ns with _ | ⟨high, _ | ⟨low, rest⟩⟩
    · rfl
    · cases even
    · exact absurd rfl (short high low rest)

lemma packNibbles_length (ns : List Nat) : (packNibbles ns).length = ns.length / 2 := by
  induction ns using packNibbles.induct with
  | case1 high low rest ih =>
    rw [packNibbles, List.length_cons, ih]
    simp only [List.length_cons]
    omega
  | case2 ns short =>
    match ns with
    | [] => rfl
    | [_] => simp [packNibbles]
    | high :: low :: rest => exact absurd rfl (short high low rest)

/-- The last nibble is the low one of the last byte. -/
lemma nibbles_getLast? (bytes : List UInt8) :
    (nibbles bytes).getLast? = bytes.getLast?.map lowNibble := by
  induction bytes using List.reverseRecOn with
  | nil => rfl
  | append_singleton bytes byte => simp [nibbles]

end Nibbles

section Decimal

lemma imageDigits_length {digits : Nat} {v : Int} (lt : v.natAbs < 10 ^ digits) :
    (imageDigits digits v).length = digits :=
  Digits.numeral_length (by decide) lt

lemma imageDigits_lt {digits : Nat} {v : Int} : ∀ d ∈ imageDigits digits v, d < 10 := fun _ mem =>
  Digits.numeral_lt (by decide) mem

lemma imageDigits_value (digits : Nat) (v : Int) :
    Digits.value 10 (imageDigits digits v) = v.natAbs :=
  Digits.value_numeral 10 digits v.natAbs

/-- A zoned image is as wide as it has digits, and decodes to its number. -/
theorem decodeZoned_image {digits sign : Nat} {v : Int} (pos : 0 < digits)
    (lt : v.natAbs < 10 ^ digits) (so : SignOf sign v) :
    (zonedImage digits sign v).length = digits ∧ decodeZoned (zonedImage digits sign v) = .ok v := by
  have len := imageDigits_length lt
  obtain ⟨front, last, eq⟩ : ∃ front last, imageDigits digits v = front ++ [last] := by
    rcases List.eq_nil_or_concat' (imageDigits digits v) with nil | ⟨front, last, eq⟩
    · rw [nil] at len
      cases len
      cases pos
    · exact ⟨front, last, eq⟩
  have small : ∀ d ∈ imageDigits digits v, d < 10 := imageDigits_lt
  rw [eq] at small len
  rw [List.forall_mem_append, List.forall_mem_singleton] at small
  have bytes : zonedImage digits sign v = front.map (nibblePair 0x0f) ++ [nibblePair sign last] := by
    simp [zonedImage, eq]
  have low : (zonedImage digits sign v).map lowNibble = imageDigits digits v := by
    rw [bytes, eq, List.map_append, List.map_map, List.map_singleton,
      lowNibble_pair so.lt (by omega)]
    congr 1
    conv_rhs => rw [← List.map_id front]
    exact List.map_congr_left fun d mem =>
      lowNibble_pair (by decide) (Nat.lt_trans (small.1 d mem) (by decide))
  constructor
  · rw [← List.length_map lowNibble, low, imageDigits_length lt]
  · refine decodeZoned_ok.mpr ⟨nibblePair sign last, by simp [bytes], ?_, ?_⟩
    · rw [low]
      exact fun d mem => Nat.le_of_lt_succ (imageDigits_lt d mem)
    · rw [low, imageDigits_value, highNibble_pair so.lt (by omega), so.apply]

/-- A packed image takes half a byte for each digit and the sign, and decodes to its number. -/
theorem decodePacked_image {digits sign : Nat} {v : Int} (lt : v.natAbs < 10 ^ digits)
    (so : SignOf sign v) :
    (packedImage digits sign v).length = digits / 2 + 1 ∧
      decodePacked (packedImage digits sign v) = .ok v := by
  have len := imageDigits_length lt
  generalize hp : (if digits % 2 = 0 then [0] else [] : List Nat) = pad
  obtain ⟨padLength, zeros⟩ : (pad.length + digits) % 2 = 1 ∧ ∀ d ∈ pad, d = 0 := by
    subst hp
    split
    · next even => exact ⟨by simp; omega, by simp⟩
    · next odd => exact ⟨by simp; omega, by simp⟩
  have padLe : pad.length ≤ 1 := by
    subst hp
    split <;> simp
  -- An even number of digits leaves a nibble free, which holds a zero.
  have whole : nibbles (packedImage digits sign v) = pad ++ imageDigits digits v ++ [sign] := by
    rw [packedImage, hp]
    refine nibbles_packNibbles ?_ fun n mem => ?_
    · simp only [List.length_append, List.length_singleton, len]
      omega
    · rcases List.mem_append.mp mem with mem | mem
      · rcases List.mem_append.mp mem with mem | mem
        · rw [zeros n mem]
          decide
        · exact Nat.lt_trans (imageDigits_lt n mem) (by decide)
      · rw [List.mem_singleton.mp mem]
        exact so.lt
  have last := nibbles_getLast? (packedImage digits sign v)
  rw [whole, List.getLast?_concat, eq_comm, Option.map_eq_some_iff] at last
  obtain ⟨byte, last, low⟩ := last
  constructor
  · rw [packedImage, hp, packNibbles_length]
    simp only [List.length_append, List.length_singleton, len]
    omega
  · refine decodePacked_ok.mpr ⟨byte, last, ?_, ?_⟩
    · rw [whole, List.dropLast_concat]
      intro d mem
      rcases List.mem_append.mp mem with mem | mem
      · rw [zeros d mem]
        decide
      · exact Nat.le_of_lt_succ (imageDigits_lt d mem)
    · have none : Digits.value 10 pad = 0 := by
        subst hp
        split <;> rfl
      rw [whole, List.dropLast_concat, Digits.value_append, imageDigits_value, none, Nat.zero_mul,
        Nat.zero_add, low, so.apply]

end Decimal

section Binary

lemma binaryImage_toNat (width : Nat) (v : Int) :
    (binaryImage width v).map UInt8.toNat = Digits.numeral 256 width (v % 256 ^ width).toNat := by
  rw [binaryImage, List.map_map]
  conv_rhs => rw [← List.map_id (Digits.numeral _ _ _)]
  refine List.map_congr_left fun d mem => ?_
  have lt : d < 256 := Digits.numeral_lt (by decide) mem
  rw [Function.comp_apply, UInt8.toNat_ofNat', Nat.mod_eq_of_lt lt, id]

end Binary

end GrpcEbcdic

import GrpcEbcdic.Decode.Accumulator
import GrpcEbcdic.Decode.Images
import GrpcEbcdic.Decode.Text
import GrpcEbcdic.Stream.Tiling

/-!
# Stored fields

The other direction of `decodeField`: the bytes a field of a record stores a value with, where it can
store it. A field reads back what it stores (`store_reads`), but for what text decoding takes off a text
(`FieldValue.tidy`), and whatever a field reads it can store (`reads_store`).
-/

namespace GrpcEbcdic
open Rust Fallible

/-- The blank, at the same place of every code page. -/
def blank : UInt8 := 0x40

/-- The sign nibble a number is stored with. -/
def signNibble (v : Int) : Nat := if v < 0 then 0x0d else 0x0c

/-- A text in so many bytes, with blanks behind it. -/
def storeText (codec : Codec) (size : Nat) (text : String) : Option (List UInt8) :=
  match codec.encode text.toList with
  | .error _ => none
  | .ok bytes =>
    if bytes.length ≤ size then some (bytes ++ List.replicate (size - bytes.length) blank) else none

/-- Whether a number fits so many bytes of a storage usage. -/
def FieldKind.Holds (kind : FieldKind) (size : Nat) (v : Int) : Prop :=
  match kind with
  | .integer => -2 ^ (8 * size - 1) ≤ v ∧ v < 2 ^ (8 * size - 1)
  | .unsignedInteger => 0 ≤ v ∧ v < 2 ^ (8 * size) ∧ v < 2 ^ 127
  | .packedDecimal => v.natAbs < 10 ^ (2 * size - 1)
  | .zonedDecimal => v.natAbs < 10 ^ size
  | .text | .skip => False

instance (kind : FieldKind) (size : Nat) (v : Int) : Decidable (kind.Holds size v) := by
  cases kind
  · exact instDecidableFalse
  · exact inferInstanceAs (Decidable (_ ∧ _))
  · exact inferInstanceAs (Decidable (_ ∧ _ ∧ _))
  · exact inferInstanceAs (Decidable (_ < _))
  · exact inferInstanceAs (Decidable (_ < _))
  · exact instDecidableFalse

/-- The image of a number in so many bytes of a storage usage. -/
def FieldKind.image (kind : FieldKind) (size : Nat) (v : Int) : List UInt8 :=
  match kind with
  | .integer | .unsignedInteger => binaryImage size v
  | .packedDecimal => packedImage (2 * size - 1) (signNibble v) v
  | .zonedDecimal => zonedImage size (signNibble v) v
  | .text | .skip => []

/-- The bytes a field stores a value with. -/
def Field.store (codec : Codec) (field : Field) : FieldValue → Option (List UInt8)
  | .text t => if field.kind = .text then storeText codec field.size t else none
  | .number v scale =>
    if scale = field.scale ∧ field.kind.Holds field.size v then some (field.kind.image field.size v)
    else none

/-- What text decoding leaves of a text. -/
def tidyText (stripControl : Bool) (text : List Char) : List Char :=
  trim (if stripControl then text.filter (!isControl ·) else text)

/-- What decoding leaves of a value that is stored. -/
def FieldValue.tidy (options : DecodeOptions) : FieldValue → FieldValue
  | .text t => .text (String.ofList (tidyText options.stripControlCharacters t.toList))
  | .number v scale => .number v scale

section Texts

lemma blank_scalar : ∀ page ∈ codePages, page.table.getD blank.toNat Codepages.undefined = 0x20 := by
  decide +kernel

/-- Bytes that decode, with blanks behind them. -/
lemma decodeFrom_blanks {codec : Codec} {index : Nat} {bytes : List UInt8} {text : List Char}
    (ok : codec.decodeFrom index bytes = .ok text) (n : Nat) :
    codec.decodeFrom index (bytes ++ List.replicate n blank) = .ok (text ++ List.replicate n ' ') := by
  induction bytes generalizing index text with
  | cons byte bytes ih =>
    obtain ⟨ch, rest, rfl, assigned, number, ok⟩ := Codec.decodeFrom_cons.mp ok
    exact Codec.decodeFrom_cons.mpr ⟨ch, _, rfl, assigned, number, ih ok⟩
  | nil =>
    cases ok
    induction n generalizing index with
    | zero => rfl
    | succ n ih =>
      have scalar : codec.scalar blank = 0x20 := blank_scalar _ codec.carried
      rw [List.replicate_succ, List.replicate_succ]
      apply Codec.decodeFrom_cons.mpr
      refine ⟨' ', List.replicate n ' ', rfl, ?_, scalar.symm, ih⟩
      rw [Codec.Assigned, scalar]
      decide

/-- Blanks behind a text are trimmed away. -/
lemma trim_blanks (cs : List Char) (n : Nat) : trim (cs ++ List.replicate n ' ') = trim cs := by
  have space : ∀ c ∈ List.replicate n ' ', isWhitespace c = true := fun c mem =>
    List.eq_of_mem_replicate mem ▸ rfl
  have behind (ds : List Char) :
      (ds ++ List.replicate n ' ').rdropWhile isWhitespace = ds.rdropWhile isWhitespace := by
    unfold List.rdropWhile
    rw [List.reverse_append, List.dropWhile_append_of_pos]
    exact fun c mem => space c (List.mem_reverse.mp mem)
  unfold trim
  rw [List.dropWhile_append]
  split_ifs with empty
  · rw [List.isEmpty_iff.mp empty, List.dropWhile_eq_nil_iff.mpr space]
  · exact behind _

/-- A text that neither starts nor ends with whitespace is not trimmed. -/
lemma trim_eq_self {cs : List Char} (first : ∀ c ∈ cs.head?, isWhitespace c = false)
    (last : ∀ c ∈ cs.getLast?, isWhitespace c = false) : trim cs = cs := by
  have front : cs.dropWhile isWhitespace = cs := by
    cases cs with
    | nil => rfl
    | cons c cs => exact List.dropWhile_cons_of_neg (Bool.eq_false_iff.mp (first c rfl))
  rw [trim, front, List.rdropWhile_eq_self_iff]
  intro ne
  exact Bool.eq_false_iff.mp (last _ (List.getLast?_eq_some_getLast ne))

lemma tidyText_blanks (stripControl : Bool) (cs : List Char) (n : Nat) :
    tidyText stripControl (cs ++ List.replicate n ' ') = tidyText stripControl cs := by
  have keep : (List.replicate n ' ').filter (!isControl ·) = List.replicate n ' ' :=
    List.filter_replicate_of_pos (by decide)
  unfold tidyText
  split_ifs
  · rw [List.filter_append, keep, trim_blanks]
  · rw [trim_blanks]

/-- What is left of a text is part of it, in order. -/
lemma tidyText_sublist (stripControl : Bool) (cs : List Char) :
    (tidyText stripControl cs).Sublist cs := by
  have part (ds : List Char) : (trim ds).Sublist ds := by
    obtain ⟨before, after, trimmed⟩ := trim_trimmed ds
    conv_rhs => rw [trimmed.split]
    apply (List.sublist_append_right before (trim ds)).trans
    exact List.sublist_append_left _ _
  unfold tidyText
  split_ifs
  · exact (part _).trans List.filter_sublist
  · exact part cs

/-- What text decoding leaves of a text, it leaves alone. -/
lemma tidyText_tidyText (stripControl : Bool) (cs : List Char) :
    tidyText stripControl (tidyText stripControl cs) = tidyText stripControl cs := by
  unfold tidyText
  split_ifs
  · have plain : (trim (cs.filter (!isControl ·))).filter (!isControl ·)
        = trim (cs.filter (!isControl ·)) := by
      apply List.filter_eq_self.mpr
      intro c mem
      obtain ⟨before, after, trimmed⟩ := trim_trimmed (cs.filter (!isControl ·))
      have has : c ∈ cs.filter (!isControl ·) := by
        rw [trimmed.split]
        exact List.mem_append_left _ (List.mem_append_right _ mem)
      exact (List.mem_filter.mp has).2
    rw [plain, trim_eq_self head_trim getLast_trim]
  · exact trim_eq_self head_trim getLast_trim

/-- A text field decodes to what is left of its characters. -/
lemma decodeText_ok [Unicode] {codec : Codec} {bytes : List UInt8} {stripControl : Bool} {text : String} :
    decodeText codec bytes stripControl = .ok text ↔
      ∃ cs, codec.decode bytes = .ok cs ∧ text = String.ofList (tidyText stripControl cs) := by
  unfold decodeText
  cases codec.decode bytes with
  | error e => simp
  | ok cs => simp [tidyText, eq_comm]

/-- Bytes decode to as many characters. -/
lemma decodeFrom_length {codec : Codec} {index : Nat} {bytes : List UInt8} {text : List Char}
    (ok : codec.decodeFrom index bytes = .ok text) : text.length = bytes.length := by
  induction bytes generalizing index text with
  | nil => cases ok; rfl
  | cons byte bytes ih =>
    obtain ⟨ch, rest, rfl, _, _, ok⟩ := Codec.decodeFrom_cons.mp ok
    rw [List.length_cons, List.length_cons, ih ok]

/-- A text field reads back the text it stores, less what decoding takes off. -/
lemma storeText_reads [Unicode] {codec : Codec} {size : Nat} {text : String} {bytes : List UInt8}
    (stored : storeText codec size text = some bytes) (stripControl : Bool) :
    bytes.length = size ∧
      decodeText codec bytes stripControl = .ok (String.ofList (tidyText stripControl text.toList)) := by
  unfold storeText at stored
  cases encoded : codec.encode text.toList with
  | error c => rw [encoded] at stored; cases stored
  | ok image =>
    rw [encoded] at stored
    dsimp only at stored
    split_ifs at stored with fits
    cases stored
    obtain ⟨_, decoded⟩ := Codec.encodeWith_ok 0 encoded
    constructor
    · rw [List.length_append, List.length_replicate]
      omega
    · refine decodeText_ok.mpr ⟨_, decodeFrom_blanks decoded (size - image.length), ?_⟩
      rw [tidyText_blanks]

/-- What a text field reads it can store. -/
lemma decodeText_stores [Unicode] {codec : Codec} {bytes : List UInt8} {stripControl : Bool}
    {text : String} (ok : decodeText codec bytes stripControl = .ok text) :
    ∃ image, storeText codec bytes.length text = some image := by
  obtain ⟨cs, decoded, rfl⟩ := decodeText_ok.mp ok
  have part := tidyText_sublist stripControl cs
  obtain ⟨_, _, from_bytes⟩ := Codec.decodeFrom_ok decoded
  have on_page : ∀ ch ∈ tidyText stripControl cs,
      ∃ byte, codec.Assigned byte ∧ ch.toNat = codec.scalar byte := fun ch mem =>
    (from_bytes ch (part.subset mem)).imp fun _ has => has.2
  obtain ⟨image, encoded⟩ := Codec.encodeWith_total on_page
  have short : image.length ≤ bytes.length := by
    rw [(Codec.encodeWith_ok 0 encoded).1, ← decodeFrom_length decoded]
    exact part.length_le
  refine ⟨image ++ List.replicate (bytes.length - image.length) blank, ?_⟩
  unfold storeText Codec.encode
  rw [String.toList_ofList, encoded]
  exact if_pos short

end Texts

section Numbers

lemma signOf_signNibble (v : Int) : SignOf (signNibble v) v := by
  unfold SignOf signNibble
  split_ifs with negative
  · exact .inr ⟨negative.le, by decide⟩
  · exact .inl ⟨Int.not_lt.mp negative, by decide⟩

/-- How the bytes of a numeric field decode. -/
def FieldKind.decode (kind : FieldKind) (bytes : List UInt8) : Except ParseError Int :=
  match kind with
  | .integer => decodeBinary bytes true
  | .unsignedInteger => decodeBinary bytes false
  | .packedDecimal => decodePacked bytes
  | .zonedDecimal => decodeZoned bytes
  | .text | .skip => .ok 0

/-- A number that fits is read back from its image, which is as wide as the field. -/
lemma FieldKind.decode_image {kind : FieldKind} {size : Nat} {v : Int} (pos : 0 < size)
    (width : size ≤ widthLimit kind) (holds : kind.Holds size v) :
    (kind.image size v).length = size ∧ kind.decode (kind.image size v) = .ok v := by
  have ne : binaryImage size v ≠ [] := List.ne_nil_of_length_pos (by rw [binaryImage_length]; exact pos)
  cases kind with
  | text => cases holds
  | skip => cases holds
  | zonedDecimal => exact decodeZoned_image pos holds (signOf_signNibble v)
  | packedDecimal =>
    obtain ⟨length, decoded⟩ := decodePacked_image holds (signOf_signNibble v)
    exact ⟨length.trans (by omega), decoded⟩
  | integer =>
    refine ⟨binaryImage_length size v, ?_⟩
    show decodeBinary (binaryImage size v) true = .ok v
    rw [decodeBinary_signed ne (by rw [binaryImage_length]; exact width),
      twosComplement_image pos holds.1 holds.2]
  | unsignedInteger =>
    refine ⟨binaryImage_length size v, ?_⟩
    obtain ⟨nonneg, lt, small⟩ := holds
    obtain ⟨n, rfl⟩ := Int.eq_ofNat_of_zero_le nonneg
    have lt' : n < 256 ^ size := by
      rw [pow256]
      exact_mod_cast lt
    have decoded := decodeBinary_unsigned ne (by rw [binaryImage_length]; exact width)
    rwa [bigEndian_image_nat lt', if_pos (by omega)] at decoded

/-- What a numeric field reads fits it. -/
lemma FieldKind.holds_decode {kind : FieldKind} {bytes : List UInt8} {v : Int} (pos : bytes ≠ [])
    (numeric : kind.isNumeric = true) (ok : kind.decode bytes = .ok v) : kind.Holds bytes.length v := by
  cases kind with
  | text => cases numeric
  | skip => cases numeric
  | zonedDecimal =>
    obtain ⟨last, _, digits, rfl⟩ := decodeZoned_ok.mp ok
    show (applySign _ _).natAbs < _
    rw [applySign_natAbs, Int.natAbs_natCast, ← List.length_map lowNibble]
    exact Digits.value_lt (by omega) fun d mem => Nat.lt_succ_of_le (digits d mem)
  | packedDecimal =>
    obtain ⟨last, _, digits, rfl⟩ := decodePacked_ok.mp ok
    show (applySign _ _).natAbs < _
    have length : (nibbles bytes).dropLast.length = 2 * bytes.length - 1 := by
      rw [List.length_dropLast, nibbles_length]
    rw [applySign_natAbs, Int.natAbs_natCast, ← length]
    exact Digits.value_lt (by omega) fun d mem => Nat.lt_succ_of_le (digits d mem)
  | integer =>
    obtain ⟨_, _, width, _⟩ := decodeBinary_ok.mp ok
    cases (decodeBinary_signed pos width).symm.trans ok
    have wide : 0 < 8 * bytes.length := by
      have := List.length_pos_of_ne_nil pos
      omega
    exact ⟨BitVec.le_toInt _, BitVec.toInt_lt⟩
  | unsignedInteger =>
    obtain ⟨_, _, width, _⟩ := decodeBinary_ok.mp ok
    have decoded := decodeBinary_unsigned pos width
    have lt := bigEndian_lt bytes
    rw [pow256] at lt
    split_ifs at decoded with small
    · cases decoded.symm.trans ok
      exact ⟨Int.natCast_nonneg _, by exact_mod_cast lt, by exact_mod_cast small⟩
    · obtain ⟨message, refused⟩ := decoded
      cases refused.symm.trans ok

end Numbers

section Fields

variable [Unicode] {field : Field} {options : DecodeOptions} {bytes : List UInt8} {value : FieldValue}

/-- A number field decodes by its kind. -/
lemma decodeField_number (numeric : field.kind.isNumeric = true) :
    decodeField field bytes options = (field.kind.decode bytes).map fun v => .number v field.scale := by
  unfold decodeField FieldKind.decode
  cases kind : field.kind with
  | text => rw [kind] at numeric; cases numeric
  | skip => rw [kind] at numeric; cases numeric
  | _ => rfl

/-- A field reads back what it stores, but for what text decoding takes off it. -/
lemma store_reads (pos : 0 < field.size) (width : field.size ≤ widthLimit field.kind)
    (stored : field.store options.codec value = some bytes) :
    bytes.length = field.size ∧ decodeField field bytes options = .ok (value.tidy options) := by
  unfold Field.store at stored
  cases value with
  | number v scale =>
    dsimp only at stored
    split_ifs at stored with fits
    obtain ⟨rfl, holds⟩ := fits
    cases stored
    obtain ⟨length, decoded⟩ := FieldKind.decode_image pos width holds
    have numeric : field.kind.isNumeric = true := by
      cases kind : field.kind with
      | text => rw [kind] at holds; cases holds
      | skip => rw [kind] at holds; cases holds
      | _ => rfl
    rw [decodeField_number numeric, decoded]
    exact ⟨length, rfl⟩
  | text t =>
    dsimp only at stored
    split_ifs at stored with kind
    obtain ⟨length, decoded⟩ := storeText_reads stored options.stripControlCharacters
    refine ⟨length, ?_⟩
    unfold decodeField
    rw [kind]
    exact map_eq_ok.mpr ⟨_, decoded, rfl⟩

/-- Whatever a field reads it can store, and decoding leaves it as it is. -/
lemma reads_store (size : bytes.length = field.size) (pos : 0 < field.size)
    (data : field.kind ≠ .skip) (ok : decodeField field bytes options = .ok value) :
    (∃ image, field.store options.codec value = some image) ∧ value.tidy options = value := by
  cases kind : field.kind with
  | skip => exact absurd kind data
  | text =>
    unfold decodeField at ok
    rw [kind] at ok
    obtain ⟨text, decoded, rfl⟩ := map_eq_ok.mp ok
    constructor
    · obtain ⟨image, stored⟩ := decodeText_stores decoded
      rw [size] at stored
      exact ⟨image, (if_pos kind).trans stored⟩
    · obtain ⟨cs, _, rfl⟩ := decodeText_ok.mp decoded
      show FieldValue.text _ = _
      rw [String.toList_ofList, tidyText_tidyText]
  | _ =>
    have numeric : field.kind.isNumeric = true := by rw [kind]; rfl
    rw [decodeField_number numeric] at ok
    obtain ⟨v, decoded, rfl⟩ := map_eq_ok.mp ok
    have ne : bytes ≠ [] := List.ne_nil_of_length_pos (size ▸ pos)
    have holds := FieldKind.holds_decode ne numeric decoded
    rw [size] at holds
    exact ⟨⟨_, if_pos ⟨rfl, holds⟩⟩, rfl⟩

end Fields

end GrpcEbcdic

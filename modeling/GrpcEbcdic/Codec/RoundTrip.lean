import GrpcEbcdic.Codec.Codec

/-!
# Code pages round trip

What a code page assigns to a byte is a character (`assigned_scalar`), and the reverse map finds a
byte for each of them and for no other (`reverseMap_lookup`). Encoding and decoding undo each other
from there.
-/

namespace GrpcEbcdic.Codec
open Rust

/-- What the table of the page says about a byte. -/
def scalar (codec : Codec) (byte : UInt8) : Nat := codec.page.table.getD byte.toNat Codepages.undefined

/-- The page assigns a character to the byte. -/
def Assigned (codec : Codec) (byte : UInt8) : Prop := codec.scalar byte ≠ Codepages.undefined

instance (codec : Codec) (byte : UInt8) : Decidable (codec.Assigned byte) := instDecidableNot

section Tables

/-- Every table has an entry for each byte, and every entry it assigns is a character of the Basic
Multilingual Plane other than the replacement character. -/
lemma tables_valid : ∀ page ∈ codePages, page.table.length = 256 ∧
    ∀ scalar ∈ page.table, scalar ≠ Codepages.undefined →
      scalar.isValidChar ∧ scalar < 2 ^ 16 ∧ scalar ≠ 0xFFFD := by
  decide +kernel

/-- What the page says about a byte is in its table. -/
lemma scalar_mem (codec : Codec) (byte : UInt8) :
    codec.page.table[byte.toNat]? = some (codec.scalar byte) := by
  have below : byte.toNat < codec.page.table.length := by
    rw [(tables_valid _ codec.carried).1]
    exact byte.toNat_lt
  rw [scalar, List.getD_eq_getElem?_getD, List.getElem?_eq_getElem below, Option.getD_some]

/-- The character of a byte the page assigns. -/
lemma assigned_scalar {codec : Codec} {byte : UInt8} (assigned : codec.Assigned byte) :
    ∃ ch : Char, ch.toNat = codec.scalar byte ∧ ch.toNat < 2 ^ 16 ∧ ch ≠ '\uFFFD' ∧
      fromU32 (codec.scalar byte) = some ch := by
  have mem := List.mem_of_getElem? (codec.scalar_mem byte)
  obtain ⟨valid, below, char⟩ := (tables_valid _ codec.carried).2 _ mem assigned
  have number : (Char.ofNat (codec.scalar byte)).toNat = codec.scalar byte := by
    rw [Char.ofNat, dif_pos valid]
    exact UInt32.toNat_ofNatLT
  refine ⟨Char.ofNat (codec.scalar byte), number, number.symm ▸ below, ?_, if_pos valid⟩
  intro replacement
  rw [replacement] at number
  exact char number.symm

end Tables

section Decode

/-- Decoding takes one byte after the other, each to the character the page assigns it. -/
lemma decodeFrom_cons {codec : Codec} {index : Nat} {byte : UInt8} {bytes : List UInt8}
    {text : List Char} :
    codec.decodeFrom index (byte :: bytes) = .ok text ↔
      ∃ ch rest, text = ch :: rest ∧ codec.Assigned byte ∧ ch.toNat = codec.scalar byte ∧
        codec.decodeFrom (index + 1) bytes = .ok rest := by
  by_cases assigned : codec.Assigned byte
  · obtain ⟨ch, number, _, _, char⟩ := assigned_scalar assigned
    have step : codec.decodeFrom index (byte :: bytes)
        = (codec.decodeFrom (index + 1) bytes).map (ch :: ·) := by
      rw [decodeFrom]
      apply (if_neg assigned).trans
      rw [show codec.page.table.getD byte.toNat Codepages.undefined = codec.scalar byte from rfl,
        char]
      cases codec.decodeFrom (index + 1) bytes <;> rfl
    rw [step]
    cases codec.decodeFrom (index + 1) bytes with
    | error e => simp [Except.map]
    | ok rest =>
      simp only [Except.map, Except.ok.injEq]
      constructor
      · rintro rfl
        exact ⟨ch, rest, rfl, assigned, number, rfl⟩
      · rintro ⟨other, rest, rfl, _, same, rfl⟩
        rw [Char.toNat_inj.mp (same.trans number.symm)]
  · have refused : codec.decodeFrom index (byte :: bytes)
        = .error (.undefinedByte codec.name byte index) := by
      rw [decodeFrom]
      exact if_pos (not_not.mp assigned)
    simp [refused, assigned]

/-- The character one byte decodes to. -/
lemma decode_byte {codec : Codec} {byte : UInt8} {ch : Char} :
    codec.decode [byte] = .ok [ch] ↔ codec.Assigned byte ∧ ch.toNat = codec.scalar byte := by
  rw [decode, decodeFrom_cons]
  constructor
  · rintro ⟨other, rest, eq, assigned, number, _⟩
    cases eq
    exact ⟨assigned, number⟩
  · rintro ⟨assigned, number⟩
    exact ⟨ch, [], rfl, assigned, number, rfl⟩

/-- Decoding fails at the first byte the page does not assign. -/
lemma decodeFrom_error {codec : Codec} {index : Nat} {bytes : List UInt8} {e : CodecError}
    (failed : codec.decodeFrom index bytes = .error e) :
    ∃ before byte after, bytes = before ++ byte :: after ∧ (∀ b ∈ before, codec.Assigned b) ∧
      ¬codec.Assigned byte ∧ e = .undefinedByte codec.name byte (index + before.length) := by
  induction bytes generalizing index with
  | nil => cases failed
  | cons byte bytes ih =>
    rw [decodeFrom] at failed
    split at failed
    · next undefined =>
      cases failed
      exact ⟨[], byte, bytes, rfl, fun _ mem => absurd mem List.not_mem_nil, not_not.mpr undefined, rfl⟩
    · next assigned =>
      cases rest : codec.decodeFrom (index + 1) bytes with
      | ok text =>
        rw [rest] at failed
        cases failed
      | error e' =>
        rw [rest] at failed
        cases failed
        obtain ⟨before, bad, after, rfl, all, un, rfl⟩ := ih rest
        refine ⟨byte :: before, bad, after, rfl, List.forall_mem_cons.mpr ⟨assigned, all⟩, un, ?_⟩
        rw [List.length_cons, Nat.add_assoc, Nat.add_comm 1]

/-- What is decoded holds no replacement character, and all bytes behind it are assigned. -/
lemma decodeFrom_ok {codec : Codec} {index : Nat} {bytes : List UInt8} {text : List Char}
    (ok : codec.decodeFrom index bytes = .ok text) :
    (∀ byte ∈ bytes, codec.Assigned byte) ∧ '\uFFFD' ∉ text ∧
      ∀ ch ∈ text, ∃ byte ∈ bytes, codec.Assigned byte ∧ ch.toNat = codec.scalar byte := by
  induction bytes generalizing index text with
  | nil =>
    cases ok
    simp
  | cons byte bytes ih =>
    obtain ⟨ch, rest, rfl, assigned, number, ok⟩ := decodeFrom_cons.mp ok
    obtain ⟨all, plain, from_bytes⟩ := ih ok
    refine ⟨List.forall_mem_cons.mpr ⟨assigned, all⟩, ?_, List.forall_mem_cons.mpr ⟨?_, ?_⟩⟩
    · obtain ⟨own, same, _, char, _⟩ := assigned_scalar assigned
      rw [← Char.toNat_inj.mp (same.trans number.symm), List.mem_cons, not_or]
      exact ⟨char.symm, plain⟩
    · exact ⟨byte, List.mem_cons_self, assigned, number⟩
    · intro c mem
      obtain ⟨b, has, found⟩ := from_bytes c mem
      exact ⟨b, List.mem_cons_of_mem _ has, found⟩

end Decode

section Encode

/-- Looking a list's element up by its position finds its image. -/
lemma getD_findIdx {α β : Type*} [DecidableEq α] (f : α → β) (d : β) {a : α} {l : List α} (mem : a ∈ l) :
    (l.map f).getD ((l.findIdx? (· = a)).getD 0) d = f a := by
  induction l with
  | nil => cases mem
  | cons b l ih =>
    rw [List.findIdx?_cons]
    by_cases here : b = a
    · simp [here]
    · have later : a ∈ l := (List.mem_cons.mp mem).resolve_left (Ne.symm here)
      have found : (l.findIdx? (· = a)).isSome := by
        rw [List.findIdx?_isSome, List.any_eq_true]
        exact ⟨a, later, decide_eq_true rfl⟩
      obtain ⟨i, at_i⟩ := Option.isSome_iff_exists.mp found
      have rest := ih later
      rw [at_i, Option.getD_some] at rest
      rw [if_neg (by simpa using here), at_i, Option.map_some, Option.getD_some, List.map_cons,
        List.getD_cons_succ, rest]

/-- The reverse map is that of the page. -/
lemma reverseMap_eq (codec : Codec) : codec.reverseMap = pageMap codec.page :=
  getD_findIdx pageMap [] codec.carried

/-- The entries a reverse map is built from, each scalar with its byte. -/
def mapEntries (page : CodePage) : List (Nat × UInt8) :=
  (page.table.zipIdx.filter (·.1 ≠ Codepages.undefined)).map fun entry =>
    (entry.1, if entry.2 < 256 then UInt8.ofNat entry.2 else 0)

/-- The reverse map looks up the first entry of a scalar. -/
lemma pageMap_lookup (page : CodePage) (scalar : Nat) :
    (pageMap page).lookup scalar = (mapEntries page).lookup scalar := by
  have built : pageMap page
      = (mapEntries page).foldl (fun map kv => AssocList.orInsert kv.1 kv.2 map) [] := by
    rw [pageMap, mapEntries, List.foldl_map, List.foldl_filter]
    simp only [decide_eq_true_eq]
  rw [built, AssocList.lookup_orInsert, List.nil_append]

/-- An entry stands for a byte the page assigns. -/
lemma mem_mapEntries {codec : Codec} {scalar : Nat} {byte : UInt8} :
    (scalar, byte) ∈ mapEntries codec.page ↔ codec.Assigned byte ∧ scalar = codec.scalar byte := by
  have length := (tables_valid _ codec.carried).1
  rw [mapEntries, List.mem_map]
  constructor
  · rintro ⟨⟨entry, i⟩, mem, eq⟩
    obtain ⟨mem, assigned⟩ := List.mem_filter.mp mem
    have at_i : codec.page.table[i]? = some entry := List.mem_zipIdx_iff_getElem?.mp mem
    have below : i < 256 := length ▸ (List.getElem?_eq_some_iff.mp at_i).1
    rw [if_pos below, Prod.mk.injEq] at eq
    obtain ⟨rfl, rfl⟩ := eq
    have index : (UInt8.ofNat i).toNat = i := by
      rw [UInt8.toNat_ofNat']
      exact Nat.mod_eq_of_lt below
    have same : entry = codec.scalar (UInt8.ofNat i) := by
      have own := codec.scalar_mem (UInt8.ofNat i)
      rw [index, at_i] at own
      exact Option.some.inj own
    rw [Assigned, ← same]
    exact ⟨of_decide_eq_true assigned, rfl⟩
  · rintro ⟨assigned, rfl⟩
    refine ⟨(codec.scalar byte, byte.toNat), List.mem_filter.mpr ⟨?_, decide_eq_true assigned⟩, ?_⟩
    · exact List.mem_zipIdx_iff_getElem?.mpr (codec.scalar_mem byte)
    · rw [if_pos byte.toNat_lt, UInt8.ofNat_toNat]

/-- The reverse map finds a byte of a character, if the page has one. -/
lemma reverseMap_lookup {codec : Codec} {scalar : Nat} :
    (∀ byte, codec.reverseMap.lookup scalar = some byte →
      codec.Assigned byte ∧ scalar = codec.scalar byte) ∧
    (codec.reverseMap.lookup scalar = none →
      ∀ byte, ¬(codec.Assigned byte ∧ scalar = codec.scalar byte)) := by
  rw [reverseMap_eq, pageMap_lookup]
  constructor
  · intro byte found
    obtain ⟨before, after, split, _⟩ := List.lookup_eq_some_iff.mp found
    refine mem_mapEntries.mp (split ▸ ?_)
    exact List.mem_append_right _ List.mem_cons_self
  · intro none byte assigned
    have absent := List.lookup_eq_none_iff.mp none _ (mem_mapEntries.mpr assigned)
    simp at absent

/-- A character is encoded as a byte that decodes to it, if there is one. -/
lemma byteOf_reverseMap (codec : Codec) (ch : Char) :
    match byteOf codec.reverseMap ch with
    | some byte => codec.Assigned byte ∧ ch.toNat = codec.scalar byte
    | none => ∀ byte, ¬(codec.Assigned byte ∧ ch.toNat = codec.scalar byte) := by
  rw [byteOf]
  split
  · next byte found =>
    split at found
    · exact reverseMap_lookup.1 byte found
    · cases found
  · next absent =>
    split at absent
    · exact reverseMap_lookup.2 absent
    · next wide =>
      rintro byte ⟨assigned, number⟩
      -- No table entry is beyond sixteen bits.
      obtain ⟨own, same, below, _⟩ := assigned_scalar assigned
      exact wide (number.trans same.symm ▸ below)

/-- What is encoded decodes back, byte for character. -/
lemma encodeWith_ok {codec : Codec} {text : List Char} {bytes : List UInt8} (index : Nat)
    (ok : encodeWith codec.reverseMap text = .ok bytes) :
    bytes.length = text.length ∧ codec.decodeFrom index bytes = .ok text := by
  induction text generalizing index bytes with
  | nil =>
    cases ok
    exact ⟨rfl, rfl⟩
  | cons ch text ih =>
    have has := codec.byteOf_reverseMap ch
    rw [encodeWith] at ok
    cases found : byteOf codec.reverseMap ch with
    | none =>
      rw [found] at ok
      cases ok
    | some byte =>
      simp only [found] at ok has
      cases rest : encodeWith codec.reverseMap text with
      | error e =>
        rw [rest] at ok
        cases ok
      | ok later =>
        rw [rest] at ok
        cases ok
        obtain ⟨length, decoded⟩ := ih (index + 1) rest
        refine ⟨by rw [List.length_cons, List.length_cons, length], ?_⟩
        exact decodeFrom_cons.mpr ⟨ch, text, rfl, has.1, has.2, decoded⟩

/-- Encoding fails at the first character no byte decodes to. -/
lemma encodeWith_error {codec : Codec} {text : List Char} {c : Char}
    (failed : encodeWith codec.reverseMap text = .error c) :
    ∃ before after, text = before ++ c :: after ∧
      (∀ ch ∈ before, ∃ byte, codec.Assigned byte ∧ ch.toNat = codec.scalar byte) ∧
      ∀ byte, ¬(codec.Assigned byte ∧ c.toNat = codec.scalar byte) := by
  induction text with
  | nil => cases failed
  | cons ch text ih =>
    have has := codec.byteOf_reverseMap ch
    rw [encodeWith] at failed
    cases found : byteOf codec.reverseMap ch with
    | none =>
      simp only [found] at failed has
      cases failed
      exact ⟨[], text, rfl, fun _ mem => absurd mem List.not_mem_nil, has⟩
    | some byte =>
      simp only [found] at failed has
      cases rest : encodeWith codec.reverseMap text with
      | ok bytes =>
        rw [rest] at failed
        cases failed
      | error e =>
        rw [rest] at failed
        cases failed
        obtain ⟨before, after, rfl, all, none⟩ := ih rest
        exact ⟨ch :: before, after, rfl, List.forall_mem_cons.mpr ⟨⟨byte, has⟩, all⟩, none⟩

/-- Text whose characters the page has is encoded. -/
lemma encodeWith_total {codec : Codec} {text : List Char}
    (all : ∀ ch ∈ text, ∃ byte, codec.Assigned byte ∧ ch.toNat = codec.scalar byte) :
    ∃ bytes, encodeWith codec.reverseMap text = .ok bytes := by
  cases result : encodeWith codec.reverseMap text with
  | ok bytes => exact ⟨bytes, rfl⟩
  | error c =>
    obtain ⟨before, after, rfl, _, none⟩ := encodeWith_error result
    obtain ⟨byte, has⟩ := all c (List.mem_append_right _ List.mem_cons_self)
    exact absurd has (none byte)

end Encode

/-- Encoded text decodes to itself and is refused at the first character the page lacks; bytes are
refused at the first one the page leaves open, and otherwise decode to text that the page encodes and
decodes again. -/
theorem encode_decode (codec : Codec) :
    (∀ text : List Char,
      match codec.encode text with
      | .ok bytes => bytes.length = text.length ∧ codec.decode bytes = .ok text
      | .error c => ∃ before after, text = before ++ c :: after ∧
          (∀ ch ∈ before, ∃ byte, codec.decode [byte] = .ok [ch]) ∧
          ∀ byte, codec.decode [byte] ≠ .ok [c]) ∧
      ∀ bytes : List UInt8,
        match codec.decode bytes with
        | .ok text => (∀ byte ∈ bytes, codec.Assigned byte) ∧ '\uFFFD' ∉ text ∧
            ∃ again, codec.encode text = .ok again ∧ codec.decode again = .ok text
        | .error e => ∃ before byte after, bytes = before ++ byte :: after ∧
            (∀ b ∈ before, codec.Assigned b) ∧ ¬codec.Assigned byte ∧
            e = .undefinedByte codec.name byte before.length := by
  constructor
  · intro text
    split
    · next bytes ok => exact encodeWith_ok 0 ok
    · next c failed =>
      obtain ⟨before, after, split, all, none⟩ := encodeWith_error failed
      refine ⟨before, after, split, fun ch mem => ?_, fun byte has => none byte (decode_byte.mp has)⟩
      obtain ⟨byte, has⟩ := all ch mem
      exact ⟨byte, decode_byte.mpr has⟩
  · intro bytes
    split
    · next text ok =>
      obtain ⟨all, plain, from_bytes⟩ := decodeFrom_ok ok
      obtain ⟨again, encoded⟩ := encodeWith_total fun ch mem =>
        (from_bytes ch mem).imp fun _ has => has.2
      exact ⟨all, plain, again, encoded, (encodeWith_ok 0 encoded).2⟩
    · next e failed =>
      obtain ⟨before, byte, after, split, all, un, error⟩ := decodeFrom_error failed
      exact ⟨before, byte, after, split, all, un, error.trans (by rw [Nat.zero_add])⟩

end GrpcEbcdic.Codec

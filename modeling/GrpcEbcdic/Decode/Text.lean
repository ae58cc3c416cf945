import GrpcEbcdic.Codec.RoundTrip
import GrpcEbcdic.Decode.Decode

/-!
# Decoded text

What `decode_text` keeps of the characters a code page decodes to: with controls stripped all others,
without all of them, in both cases less the whitespace at either end (`trim_trimmed`). Some controls
are whitespace, so a field may lose them at its ends when nothing is stripped.
-/

namespace GrpcEbcdic
open Rust

section Trim

/-- A text without its leading and trailing whitespace, `before` and `after`. -/
structure Trimmed (text before kept after : List Char) : Prop where
  split : text = before ++ kept ++ after
  before : ∀ c ∈ before, isWhitespace c = true
  after : ∀ c ∈ after, isWhitespace c = true
  first : ∀ c ∈ kept.head?, isWhitespace c = false
  last : ∀ c ∈ kept.getLast?, isWhitespace c = false

/-- A trimmed text ends in no whitespace. -/
lemma getLast_trim {cs : List Char} : ∀ c ∈ (trim cs).getLast?, isWhitespace c = false := by
  intro c mem
  obtain ⟨ne, rfl⟩ := List.mem_getLast?_eq_getLast mem
  exact Bool.not_eq_true _ ▸ List.rdropWhile_last_not _ _ ne

/-- Nor does it start with any. -/
lemma head_trim {cs : List Char} : ∀ c ∈ (trim cs).head?, isWhitespace c = false := by
  intro c mem
  obtain ⟨after, split⟩ := List.rdropWhile_prefix isWhitespace (l := cs.dropWhile isWhitespace)
  have first : (cs.dropWhile isWhitespace).head? = some c := by
    rw [← split]
    cases kept : (cs.dropWhile isWhitespace).rdropWhile isWhitespace with
    | nil =>
      rw [trim, kept] at mem
      cases mem
    | cons d ds =>
      rw [trim, kept] at mem
      exact mem
  have not := List.head?_dropWhile_not isWhitespace cs
  rw [first] at not
  simpa using not

/-- `trim` takes the whitespace off both ends, and nothing else. -/
lemma trim_trimmed (cs : List Char) : ∃ before after, Trimmed cs before (trim cs) after := by
  refine ⟨cs.takeWhile isWhitespace, (cs.dropWhile isWhitespace).rtakeWhile isWhitespace, ?_, ?_, ?_,
    head_trim, getLast_trim⟩
  · rw [List.append_assoc, trim, List.rdropWhile_append_rtakeWhile, List.takeWhile_append_dropWhile]
  · exact fun c mem => List.mem_takeWhile_imp mem
  · exact fun c mem => List.mem_rtakeWhile_imp mem

end Trim

/-- Bytes the page assigns are decoded. -/
lemma Codec.decode_total {codec : Codec} {bytes : List UInt8}
    (assigned : ∀ byte ∈ bytes, codec.Assigned byte) : ∃ text, codec.decode bytes = .ok text := by
  cases decoded : codec.decode bytes with
  | ok text => exact ⟨text, rfl⟩
  | error e =>
    obtain ⟨before, byte, after, rfl, _, un, _⟩ := decodeFrom_error decoded
    exact absurd (assigned byte (List.mem_append_right _ List.mem_cons_self)) un

/-- All controls of a text survive trimming when none stands in what is trimmed away. -/
lemma Trimmed.controls {text before kept after : List Char} (trimmed : Trimmed text before kept after) :
    (text.filter isControl).Sublist kept ↔ ∀ c ∈ before ++ after, isControl c = false := by
  have filtered : text.filter isControl
      = before.filter isControl ++ kept.filter isControl ++ after.filter isControl := by
    rw [trimmed.split, List.filter_append, List.filter_append]
  constructor
  · intro survive
    have own := survive.filter isControl
    rw [List.filter_filter] at own
    simp only [Bool.and_self] at own
    have lengths := own.length_le
    rw [filtered, List.length_append, List.length_append] at lengths
    have none : before.filter isControl = [] ∧ after.filter isControl = [] :=
      ⟨List.length_eq_zero_iff.mp (by omega), List.length_eq_zero_iff.mp (by omega)⟩
    intro c mem
    rw [Bool.eq_false_iff]
    intro control
    rcases List.mem_append.mp mem with mem | mem
    · exact List.filter_eq_nil_iff.mp none.1 c mem control
    · exact List.filter_eq_nil_iff.mp none.2 c mem control
  · intro plain
    have clear : ∀ cs : List Char, (∀ c ∈ cs, isControl c = false) → cs.filter isControl = [] :=
      fun cs all => List.filter_eq_nil_iff.mpr fun c mem => Bool.eq_false_iff.mp (all c mem)
    rw [filtered, clear before fun c mem => plain c (List.mem_append_left _ mem),
      clear after fun c mem => plain c (List.mem_append_right _ mem), List.nil_append, List.append_nil]
    exact List.filter_sublist

section Keeps

variable [Unicode]

/-- Text decoding keeps the characters that are no controls, or all of them when these are not
stripped, less the whitespace at both ends; so a control is lost from text that is not stripped
exactly when it stands in that whitespace. -/
theorem decodeText_keeps (codec : Codec) (bytes : List UInt8)
    (assigned : ∀ byte ∈ bytes, codec.Assigned byte) :
    ∃ text, codec.decode bytes = .ok text ∧
      (∃ before kept after, decodeText codec bytes true = .ok (String.ofList kept) ∧
        Trimmed (text.filter (!isControl ·)) before kept after ∧ ∀ c ∈ kept, isControl c = false) ∧
      ∃ before kept after, decodeText codec bytes false = .ok (String.ofList kept) ∧
        Trimmed text before kept after ∧
        ((text.filter isControl).Sublist kept ↔ ∀ c ∈ before ++ after, isControl c = false) := by
  obtain ⟨text, decoded⟩ := Codec.decode_total assigned
  refine ⟨text, decoded, ?_, ?_⟩
  · obtain ⟨before, after, trimmed⟩ := trim_trimmed (text.filter (!isControl ·))
    refine ⟨before, _, after, by rw [decodeText, decoded]; rfl, trimmed, fun c mem => ?_⟩
    have has : c ∈ text.filter (!isControl ·) := by
      rw [trimmed.split]
      exact List.mem_append_left _ (List.mem_append_right _ mem)
    simpa using (List.mem_filter.mp has).2
  · obtain ⟨before, after, trimmed⟩ := trim_trimmed text
    exact ⟨before, _, after, by rw [decodeText, decoded]; rfl, trimmed, trimmed.controls⟩

end Keeps

section Sample

attribute [local instance] asciiUnicode

/-- A code page. -/
def sampleCodec : Codec := ⟨⟨"cp273", Codepages.cp273⟩, List.mem_cons_of_mem _ List.mem_cons_self⟩

/-- `AB`, a shift-out and `C`, blank-padded: the shift-out stays when nothing is stripped. -/
theorem decodeText_keeps_padded :
    ∃ before kept after,
      decodeText sampleCodec [0xc1, 0xc2, 0x0e, 0xc3, 0x40, 0x40] false = .ok (String.ofList kept) ∧
        Trimmed ['A', 'B', Char.ofNat 14, 'C', ' ', ' '] before kept after := by
  obtain ⟨text, decoded, _, before, kept, after, ok, trimmed, _⟩ :=
    decodeText_keeps sampleCodec [0xc1, 0xc2, 0x0e, 0xc3, 0x40, 0x40] (by decide +kernel)
  have own : sampleCodec.decode [0xc1, 0xc2, 0x0e, 0xc3, 0x40, 0x40]
      = .ok ['A', 'B', Char.ofNat 14, 'C', ' ', ' '] := by decide +kernel
  obtain rfl := Except.ok.inj (decoded.symm.trans own)
  exact ⟨before, kept, after, ok, trimmed⟩

/-- A tab in front of a field is lost though nothing is stripped. -/
theorem decodeText_loses_tab :
    ¬∀ (codec : Codec) (bytes : List UInt8) (text kept : List Char), codec.decode bytes = .ok text →
      decodeText codec bytes false = .ok (String.ofList kept) → (text.filter isControl).Sublist kept := by
  intro keeps
  have lost := keeps sampleCodec [0x05, 0xc1] ['\t', 'A'] ['A'] (by decide +kernel) (by decide +kernel)
  revert lost
  decide

end Sample

end GrpcEbcdic

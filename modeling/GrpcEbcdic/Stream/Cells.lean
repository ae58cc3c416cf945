import GrpcEbcdic.Decode.Python
import GrpcEbcdic.Stream.Walk

/-!
# Numbers on the wire

A decoded number reaches the client as an integer or as a decimal with its text. Either way the exact
value can be read off the cell. The text is meant to be the one Docling writes, which is Python's, and
is so as far as Python writes plain digits.
-/

namespace GrpcEbcdic
open Rust

/-- A cell value that denotes a number. A decimal has a text, and a scale with an unscaled integer when
that fits; both have to say the same. -/
def Pb.CellValue.Denotes (value : Pb.CellValue) (q : ℚ) : Prop :=
  match value with
  | .text _ => False
  | .integer n => (n : ℚ) = q
  | .decimal d => readDecimal d.text = some q ∧ ∀ n ∈ d.unscaled, (n : ℚ) / 10 ^ d.scale = q

/-- The wire cell of a number denotes it. -/
lemma toCellValue_denotes (v : Int) (scale : Nat) :
    (toCellValue (.number v scale) scale).Denotes ((v : ℚ) / 10 ^ scale) := by
  have some : ∀ n ∈ toI64 v, n = v := by
    intro n mem
    unfold toI64 at mem
    split at mem
    · exact (Option.some.inj mem).symm
    · cases mem
  rw [toCellValue]
  by_cases zero : scale = 0
  · subst zero
    rw [if_pos rfl]
    cases fits : toI64 v with
    | some n =>
      obtain rfl := some n (Option.mem_def.mpr fits)
      simp [Pb.CellValue.Denotes]
    | none => exact ⟨readDecimal_renderDecimal v 0, by simp⟩
  · rw [if_neg zero]
    refine ⟨readDecimal_renderDecimal v scale, fun n mem => ?_⟩
    rw [some n mem]

/-- The numbers an `i64` holds. -/
def FitsI64 (n : Int) : Prop := -2 ^ 63 ≤ n ∧ n < 2 ^ 63

lemma toI64_eq (n : Int) : toI64 n = some n ∧ FitsI64 n ∨ toI64 n = none ∧ ¬FitsI64 n := by
  unfold toI64 FitsI64
  split_ifs with fits
  · exact .inl ⟨rfl, fits⟩
  · exact .inr ⟨rfl, fits⟩

/-- The sign is there exactly under negative numbers. -/
lemma DecimalParts.head {v : Int} {scale : Nat} {text : String} {whole fraction : List Char}
    (parts : DecimalParts v scale text whole fraction) : text.toList.head? = some '-' ↔ v < 0 := by
  rw [parts.text, String.toList_ofList, signChars]
  split_ifs with negative
  · simp [negative]
  · rw [List.nil_append, List.head?_append_of_ne_nil _ parts.whole_ne]
    simp [parts.whole_digits.head_ne, negative]

/-- At one scale different numbers have different texts. -/
lemma renderDecimal_inj {u v : Int} {scale : Nat}
    (same : renderDecimal u scale = renderDecimal v scale) : u = v := by
  have read := readDecimal_renderDecimal u scale
  rw [same, readDecimal_renderDecimal v scale, Option.some.injEq,
    div_left_inj' (pow_ne_zero scale (by decide : (10 : ℚ) ≠ 0))] at read
  exact_mod_cast read.symm

/-- Numbers reach the wire exactly: as a text that is read back as the number, and in a cell whose form
depends on the scale and on whether the number fits an `i64`. -/
theorem numbers_exact (u : Int) (scale : Nat) :
    (∃ whole fraction, DecimalParts u scale (renderDecimal u scale) whole fraction) ∧
    readDecimal (renderDecimal u scale) = some ((u : ℚ) / 10 ^ scale) ∧
    ((renderDecimal u scale).toList.head? = some '-' ↔ u < 0) ∧
    (∀ v, renderDecimal v scale = renderDecimal u scale → v = u) ∧
    (toCellValue (.number u scale) scale = .integer u ↔ scale = 0 ∧ FitsI64 u) ∧
    (¬(scale = 0 ∧ FitsI64 u) → ∃ unscaled,
      toCellValue (.number u scale) scale
        = .decimal { text := renderDecimal u scale, scale := scale, unscaled := unscaled } ∧
      (unscaled = some u ↔ 0 < scale ∧ FitsI64 u) ∧ (unscaled = none ↔ ¬(0 < scale ∧ FitsI64 u))) ∧
    (toCellValue (.number u scale) scale).Denotes ((u : ℚ) / 10 ^ scale) := by
  obtain ⟨whole, fraction, parts⟩ := renderDecimal_shape u scale
  refine ⟨⟨whole, fraction, parts⟩, readDecimal_renderDecimal u scale, parts.head,
    fun v same => renderDecimal_inj same, ?_, fun other => ?_, toCellValue_denotes u scale⟩
  · unfold toCellValue
    rcases toI64_eq u with ⟨held, fits⟩ | ⟨held, beyond⟩
    · by_cases zero : scale = 0 <;> simp [held, fits, zero]
    · by_cases zero : scale = 0 <;> simp [held, beyond, zero]
  · unfold toCellValue
    rcases toI64_eq u with ⟨held, fits⟩ | ⟨held, beyond⟩
    · have pos : 0 < scale := Nat.pos_of_ne_zero fun zero => other ⟨zero, fits⟩
      exact ⟨some u, by simp [held, pos.ne'], by simp [pos, fits], by simp [pos, fits]⟩
    · refine ⟨none, ?_, by simp [beyond], by simp [beyond]⟩
      by_cases zero : scale = 0 <;> simp [held, zero]

section Docling

/-- The fields of a layout that hold numbers, those of the prefix included. -/
def Layout.numberFields (layout : Layout) : List Field :=
  (layout.recordLengthField.toList ++ layout.recordTypeField.toList ++
    layout.records.flatMap (·.fields)).filter (·.kind.isNumeric)

/-- No number has more implied digits than the widest binary field. -/
lemma ScaleFits.le {kind : FieldKind} {size scale : Nat} (numeric : kind.isNumeric = true)
    (width : size ≤ widthLimit kind) (fits : ScaleFits kind size scale) :
    scale ≤ maxBinaryDigits := by
  rcases fits with rfl | rfl | ⟨_, le⟩
  · exact Nat.zero_le _
  · cases numeric
  · apply le.trans
    cases kind <;>
      simp only [digitCapacity, widthLimit, maxPackedBytes, maxZonedBytes, maxBinaryDigits]
        at width ⊢ <;> omega

/-- Nor has a number field of a valid layout. -/
lemma Layout.Valid.scale_le {layout : Layout} (v : layout.Valid) {field : Field}
    (mem : field ∈ layout.numberFields) : field.scale ≤ maxBinaryDigits := by
  obtain ⟨mem, numeric⟩ := List.mem_filter.mp mem
  simp only [List.mem_append, Option.mem_toList, List.mem_flatMap] at mem
  rcases mem with (mem | mem) | ⟨record, rm, mem⟩
  · have pv := (v.lengthField field mem).1
    exact pv.scale.le numeric pv.width
  · have pv := v.typeField field mem
    exact pv.scale.le numeric pv.width
  · have rv := v.record record rm
    exact (rv.scale field mem).le numeric (rv.width field mem)

variable [Unicode] [SerdeJson]

/-- A number is written as Docling writes it exactly when its digits, with five more, cover the scale. -/
theorem docling_text_iff {request : Pb.ParseOptions} {layout : Layout} {field : Field} {u : Int}
    (ok : resolve request = .ok layout) (mem : field ∈ layout.numberFields)
    (small : u.natAbs < 10 ^ 28) :
    renderDecimal u field.scale = Python.render u field.scale ↔
      field.scale < (Nat.toDigits 10 u.natAbs).length + 6 := by
  have le := (resolve_valid ok).scale_le mem
  refine renderDecimal_eq_python small (le.trans ?_)
  decide

end Docling

section Sample

attribute [local instance] asciiUnicode noJson

/-- A request for records of one zoned fraction, as `PIC V9(8)` declares it. -/
def fractionRequest : Pb.ParseOptions where
  layoutSource := some (.layout {
    records := [{
      name := "rate"
      fields := [
        { name := "RATE", size := 8, type := 5, scale := 8, picture := "V9(8)", offset := none }]
      selector := none }] })

/-- The field of the request. -/
def fractionField : Field where
  name := "RATE"
  offset := 0
  size := 8
  kind := .zonedDecimal
  scale := 8
  picture := "V9(8)"
  declaration := { path := "RATE" }

/-- The layout of the request. -/
def fractionLayout : Layout where
  records := [{ name := "rate", fields := [fractionField], size := 8, selector := none }]
  description := ""
  headerSize := 0
  footerSize := 0
  recordLengthField := none
  recordTypeField := none
  prefixSize := 0
  source := .proto

lemma resolve_fraction : resolve fractionRequest = .ok fractionLayout := rfl

/-- Python writes the smallest of these fractions with an exponent. -/
theorem docling_text_differs :
    (renderDecimal 1 fractionField.scale = "0.00000001" ∧
      Python.render 1 fractionField.scale = "1E-8") ∧
    ¬∀ (request : Pb.ParseOptions) (layout : Layout) (field : Field) (u : Int),
      resolve request = .ok layout → field ∈ layout.numberFields → u.natAbs < 10 ^ 28 →
        renderDecimal u field.scale = Python.render u field.scale := by
  have here : renderDecimal 1 fractionField.scale = "0.00000001" := by decide
  have there : Python.render 1 fractionField.scale = "1E-8" := by decide
  refine ⟨⟨here, there⟩, fun same => ?_⟩
  have eq := same _ _ _ 1 resolve_fraction (List.mem_singleton_self _) (by decide)
  rw [here, there] at eq
  exact absurd eq (by decide)

theorem docling_text_iff_sample :
    renderDecimal 123 fractionField.scale = Python.render 123 fractionField.scale :=
  (docling_text_iff resolve_fraction (List.mem_singleton_self _) (by decide)).mpr (by decide)

end Sample

end GrpcEbcdic

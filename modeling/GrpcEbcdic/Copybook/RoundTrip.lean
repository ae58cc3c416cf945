import GrpcEbcdic.Copybook.Describe
import GrpcEbcdic.Copybook.Shapes
import GrpcEbcdic.Decode.Accumulator
import GrpcEbcdic.Layout.Valid
import GrpcEbcdic.Stream.Cells

/-!
# From pictures to values

A numeric picture under any usage, from the copybook to the cell. The compiled field is as wide as the
storage image of every number the picture admits, and the image decodes to a cell that denotes the
number (`picture_roundTrip`).
-/

namespace GrpcEbcdic
open Rust Fallible

/-- The shape of a validated field. -/
def Field.shape (field : Field) : Copybook.Described := ⟨field.kind, field.size, field.scale⟩

namespace Copybook

section Picture

/-- A numeric picture `[S]9(whole)[V9(fraction)]`. -/
structure NumericPicture where
  signed : Bool
  whole : Nat
  fraction : Option Nat

/-- The digits behind the point. -/
def NumericPicture.scale (picture : NumericPicture) : Nat := picture.fraction.getD 0

/-- All digits of the picture. -/
def NumericPicture.digits (picture : NumericPicture) : Nat := picture.whole + picture.scale

/-- The symbols of the picture. -/
def NumericPicture.symbols (picture : NumericPicture) : List Char :=
  (if picture.signed then ['S'] else []) ++ List.replicate picture.whole '9' ++
    match picture.fraction with
    | none => []
    | some n => 'V' :: List.replicate n '9'

/-- What the symbol loop counts in the picture. -/
def NumericPicture.counted (picture : NumericPicture) : Digits where
  digits := picture.digits
  scale := picture.scale
  seenPoint := picture.fraction.isSome
  signed := picture.signed

variable [Unicode]

/-- A run of nines adds to the digits, and to the scale behind the point. -/
lemma countDigits_nines (p l : String) (position n : Nat) (acc : Digits) (rest : List Char) :
    countDigits p l position acc (List.replicate n '9' ++ rest)
      = countDigits p l (position + n) { acc with
          digits := acc.digits + n
          scale := if acc.seenPoint then acc.scale + n else acc.scale } rest := by
  induction n generalizing position acc with
  | zero => simp
  | succ n ih =>
    rw [List.replicate_succ, List.cons_append, countDigits, if_neg (by decide), if_neg (by decide),
      if_pos rfl, ih]
    congr 1
    · omega
    · cases acc.seenPoint <;> simp <;> omega

/-- The symbol loop counts what the picture says. -/
lemma countDigits_symbols (p l : String) (picture : NumericPicture) :
    countDigits p l 0 {} picture.symbols = .ok picture.counted := by
  obtain ⟨signed, whole, fraction⟩ := picture
  have sign : ∀ rest, countDigits p l 0 {} ((if signed then ['S'] else []) ++ rest)
      = countDigits p l (if signed then 1 else 0) { signed := signed } rest := by
    intro rest
    cases signed <;> rfl
  rw [NumericPicture.symbols, List.append_assoc, sign, countDigits_nines]
  cases fraction with
  | none => simp [countDigits, NumericPicture.counted, NumericPicture.digits, NumericPicture.scale]
  | some n =>
    simp only [Bool.false_eq_true, if_false]
    rw [countDigits, if_neg (by decide), if_pos rfl, if_neg Bool.false_ne_true,
      ← List.append_nil (List.replicate n '9'), countDigits_nines]
    simp [countDigits, NumericPicture.counted, NumericPicture.digits, NumericPicture.scale]

omit [Unicode] in
/-- A numeric picture is no character picture. -/
lemma isCharacter_symbols (picture : NumericPicture) : isCharacter picture.symbols = false := by
  have symbols : ∀ c ∈ picture.symbols, c ∈ ['S', '9', 'V'] := by
    obtain ⟨signed, whole, fraction⟩ := picture
    intro c mem
    rw [NumericPicture.symbols, List.mem_append, List.mem_append] at mem
    rcases mem with (mem | mem) | mem
    · cases signed <;> simp_all
    · simp [List.eq_of_mem_replicate mem]
    · cases fraction with
      | none => cases mem
      | some n =>
        rcases List.mem_cons.mp mem with rfl | mem
        · decide
        · simp [List.eq_of_mem_replicate mem]
  have spec : ∀ c ∈ ['S', '9', 'V'], ¬(c = 'X' || c = 'A') = true := by simp
  exact List.any_eq_false.mpr fun c mem => spec c (symbols c mem)

/-- A numeric picture that describes anything describes its digits as the usage stores them. -/
lemma describe_symbols {picture : String} {np : NumericPicture} {usage : Usage}
    {name : Option String} {described : Described}
    (ex : expand picture "FILLER" = .ok np.symbols)
    (ok : describe picture usage name = .ok described) :
    0 < np.digits ∧ storage np.counted usage = some described := by
  obtain ⟨symbols, ex', _, rest⟩ := describe_ok.mp ok
  cases ex.symm.trans (expand_label ex')
  rw [isCharacter_symbols, if_neg Bool.false_ne_true] at rest
  obtain ⟨acc, cd, pos, st⟩ := rest
  cases (countDigits_symbols _ _ np).symm.trans cd
  exact ⟨Nat.pos_of_ne_zero pos, st⟩

end Picture

section Numbers

variable [Unicode]

/-- A number an item can hold, with the sign nibble it is stored with. -/
structure Number (item : Item) where
  picture : NumericPicture
  value : Int
  sign : Nat
  pictured : ∃ p, item.picture = some p ∧ expand p "FILLER" = .ok picture.symbols
  fits : value.natAbs < 10 ^ picture.digits
  unsigned : picture.signed = false → 0 ≤ value
  signOf : SignOf sign value

/-- How the item's usage stores the number. -/
def Number.image {item : Item} (number : Number item) : List UInt8 :=
  match item.usage with
  | .display => zonedImage number.picture.digits number.sign number.value
  | .packed => packedImage number.picture.digits number.sign number.value
  | .binary => binaryImage ((binaryWidth number.picture.digits).getD 0) number.value

/-- What the number stands for: its digits with the implied point. -/
def Number.denotes {item : Item} (number : Number item) : ℚ :=
  (number.value : ℚ) / 10 ^ number.picture.scale

omit [Unicode] in
/-- The binary widths leave the sign bit free. -/
lemma binaryWidth_spec {digits width : Nat} (wide : binaryWidth digits = some width) :
    ∃ k, width = k + 1 ∧ k + 1 < maxBinaryBytes ∧ 10 ^ digits ≤ 128 * 256 ^ k := by
  have pow {n : Nat} (le : digits ≤ n) : 10 ^ digits ≤ 10 ^ n := Nat.pow_le_pow_right (by decide) le
  unfold binaryWidth at wide
  split at wide
  · next le =>
    cases wide
    exact ⟨1, rfl, by decide, (pow le).trans (by decide)⟩
  · split at wide
    · next le =>
      cases wide
      exact ⟨3, rfl, by decide, (pow le).trans (by decide)⟩
    · split at wide
      · next le =>
        cases wide
        exact ⟨7, rfl, by decide, (pow le).trans (by decide)⟩
      · cases wide

/-- The image of a number is as wide as the item's field, and the field decodes it. -/
lemma decodeField_image {item : Item} {field : Field} (number : Number item)
    (some : item.shape = some field.shape) :
    number.image.length = field.size ∧ field.scale = number.picture.scale ∧
      (item.name ≠ none → field.kind ≠ .skip ∧ ∀ options,
        decodeField field number.image options = .ok (.number number.value field.scale)) := by
  obtain ⟨p, pic, described, ok, shape⟩ := Item.shape_eq_some.mp some
  obtain ⟨p', pic', ex⟩ := number.pictured
  cases pic.symm.trans pic'
  obtain ⟨pos, st⟩ := describe_symbols ex ok
  obtain ⟨kind, size, scale⟩ := Described.mk.inj shape
  have kinds : item.name ≠ none → field.kind = described.kind := by
    intro named
    rw [kind, if_neg (by simpa using named)]
  unfold Number.image
  cases usage : item.usage with
  | display =>
    rw [usage] at st
    cases st
    obtain ⟨len, dec⟩ := decodeZoned_image pos number.fits number.signOf
    refine ⟨len.trans size.symm, scale, fun named => ?_⟩
    have kind : field.kind = .zonedDecimal := kinds named
    refine ⟨by rw [kind]; decide, fun options => ?_⟩
    simp only [decodeField, kind, dec]
    rfl
  | packed =>
    rw [usage] at st
    cases st
    obtain ⟨len, dec⟩ := decodePacked_image number.fits number.signOf
    refine ⟨len.trans size.symm, scale, fun named => ?_⟩
    have kind : field.kind = .packedDecimal := kinds named
    refine ⟨by rw [kind]; decide, fun options => ?_⟩
    simp only [decodeField, kind, dec]
    rfl
  | binary =>
    rw [usage] at st
    obtain ⟨width, wide, rfl⟩ := Option.map_eq_some_iff.mp st
    have wide' : binaryWidth number.picture.digits = .some width := wide
    obtain ⟨k, rfl, small, bound⟩ := binaryWidth_spec wide'
    obtain ⟨len, dec⟩ := decodeBinary_image small (number.fits.trans_le bound) number.unsigned
    rw [wide', Option.getD_some]
    refine ⟨len.trans size.symm, scale, fun named => ?_⟩
    cases signed : number.picture.signed with
    | true =>
      have kind : field.kind = .integer :=
        (kinds named).trans (by simp [NumericPicture.counted, signed])
      rw [signed] at dec
      refine ⟨by rw [kind]; decide, fun options => ?_⟩
      simp only [decodeField, kind, dec]
      rfl
    | false =>
      have kind : field.kind = .unsignedInteger :=
        (kinds named).trans (by simp [NumericPicture.counted, signed])
      rw [signed] at dec
      refine ⟨by rw [kind]; decide, fun options => ?_⟩
      simp only [decodeField, kind, dec]
      rfl

end Numbers

section Layouts

variable [Unicode]

/-- The elementary items in order, each as often as it occurs. -/
def occurrences : List Item → List Item
  | [] => []
  | item :: rest =>
    (if isGroup item rest then [] else List.replicate (item.occurs.getD 1) item) ++ occurrences rest

/-- The leaf shapes are the shapes of the occurrences. -/
lemma leafShapes_eq (items : List Item) :
    leafShapes items = (occurrences items).map (·.shape) := by
  induction items with
  | nil => rfl
  | cons item rest ih =>
    rw [leafShapes, occurrences, List.map_append, ih]
    cases isGroup item rest <;> simp

/-- Validation leaves the shapes of the fields alone. -/
lemma validateFields_shapes {record cursor seen raws fields size}
    (ok : validateFields record cursor seen raws = .ok (fields, size)) :
    fields.map (·.shape) = raws.map (·.shape) := by
  induction raws generalizing cursor seen fields with
  | nil => cases ok; rfl
  | cons raw raws ih =>
    obtain ⟨offset, rest, _, _, _, _, _, _, tail, rfl⟩ := validateFields_cons.mp ok
    rw [List.map_cons, List.map_cons, ih tail]
    rfl

lemma validateRecords_shapes {typed names selectors raws records}
    (ok : validateRecords typed names selectors raws = .ok records) :
    records.map (·.fields.map (·.shape)) = raws.map (·.fields.map (·.shape)) := by
  induction raws generalizing names selectors records with
  | nil => cases ok; rfl
  | cons raw raws ih =>
    obtain ⟨name, fields, size, rest, _, _, _, _, hf, tail, rfl⟩ := validateRecords_cons.mp ok
    rw [List.map_cons, List.map_cons, ih tail, validateFields_shapes hf]

/-- The fields of a copybook's record are the occurrences of its elementary items. -/
lemma validate_occurrences {source : String} {stmts : List Statement} {raw : RawLayout}
    {origin : Pb.LayoutSource} {layout : Layout} {record : RecordLayout}
    (st : statements source = .ok stmts) (ok : compile source = .ok raw)
    (va : validate raw origin = .ok layout) (mem : record ∈ layout.records) :
    (occurrences (stmts.filterMap parsedItem)).map (·.shape)
      = record.fields.map fun field => some field.shape := by
  rw [compile_statements st] at ok
  rw [← leafShapes_eq, ← compileStatements_shapes ok]
  obtain ⟨_, items, _, hc⟩ := compileStatements_ok.mp ok
  obtain ⟨flat, _, _, _, rfl⟩ := compileItems_ok.mp hc
  unfold validate at va
  simp only [guard_eq_ok, bind_eq_ok, pure_eq_ok] at va
  obtain ⟨_, _, _, _, _, _, _, _, _, records, hr, rfl⟩ := va
  have shapes := validateRecords_shapes hr
  have shape : record.fields.map (·.shape) = flat.out.map (·.shape) := by
    have inside := List.mem_map_of_mem (f := fun r : RecordLayout => r.fields.map (·.shape)) mem
    rw [shapes] at inside
    simpa using inside
  simp only [RawLayout.shapes, List.flatMap_cons, List.flatMap_nil, List.append_nil, ← shape,
    List.map_map]
  rfl

end Layouts

section Records

variable [Unicode]

omit [Unicode] in
/-- Paired elements of two lists with the same images have the same image. -/
lemma zip_congr {α β γ : Type} {f : α → γ} {g : β → γ} {as : List α} {bs : List β}
    (eq : as.map f = bs.map g) {a : α} {b : β} (mem : (a, b) ∈ as.zip bs) : f a = g b := by
  induction as generalizing bs with
  | nil => cases mem
  | cons x as ih =>
    cases bs with
    | nil => cases mem
    | cons y bs =>
      rw [List.map_cons, List.map_cons, List.cons.injEq] at eq
      rcases List.mem_cons.mp mem with same | mem
      · cases same
        exact eq.1
      · exact ih eq.2 mem

/-- A field that holds the image of a number decodes to a cell that denotes it. -/
lemma decodeCell_image {record : RecordLayout} {body : List UInt8} {options : DecodeOptions}
    {item : Item} {field : Field} (number : Number item) (shape : item.shape = some field.shape)
    (named : item.name ≠ none) (inside : field.stop ≤ body.length)
    (image : slice body field.offset field.stop = number.image) :
    ∃ cell, decodeCell record body options field = .ok cell ∧ cell.name = field.name ∧
      ∃ value, cell.value = some value ∧ value.Denotes number.denotes := by
  obtain ⟨_, scale, dec⟩ := decodeField_image number shape
  have get : getSlice body field.offset field.stop = some number.image := by
    rw [getSlice, if_pos ⟨Nat.le_add_right _ _, inside⟩, image]
  refine ⟨_, by rw [decodeCell, get]; simp only [(dec named).2]; rfl, rfl, _, rfl, ?_⟩
  rw [Number.denotes, ← scale]
  exact toCellValue_denotes number.value field.scale

/-- The occurrences of the elementary items of a copybook, each with its field. -/
def compiledFields (stmts : List Statement) (record : RecordLayout) : List (Item × Field) :=
  (occurrences (stmts.filterMap parsedItem)).zip record.fields

/-- The fields of a compiled copybook are as wide as the images of the numbers their pictures admit, and
a record that holds such images decodes, each to a cell that denotes the number. -/
theorem picture_roundTrip {source : String} {stmts : List Statement} {raw : RawLayout}
    {layout : Layout} {record : RecordLayout} (options : DecodeOptions)
    (st : statements source = .ok stmts) (ok : compile source = .ok raw)
    (va : validate raw .copybook = .ok layout) (mem : record ∈ layout.records) :
    (occurrences (stmts.filterMap parsedItem)).length = record.fields.length ∧
    (∀ item field, (item, field) ∈ compiledFields stmts record →
      ∀ number : Number item, number.image.length = field.size) ∧
    ∀ body : List UInt8, record.size ≤ body.length →
      -- Every cell holds the image of a number, or is one that decodes.
      (∀ item field, (item, field) ∈ compiledFields stmts record → field.kind ≠ .skip →
        (∃ number : Number item, slice body field.offset field.stop = number.image) ∨
          ∃ cell, decodeCell record body options field = .ok cell) →
      ∃ cells, decodeCells record body options = .ok cells ∧
        ∀ item field, (item, field) ∈ compiledFields stmts record → item.name ≠ none →
          ∀ number : Number item, slice body field.offset field.stop = number.image →
          ∃ cell ∈ cells, cell.name = field.name ∧
            ∃ value, cell.value = some value ∧ value.Denotes number.denotes := by
  have shapes := validate_occurrences st ok va mem
  have len : (occurrences (stmts.filterMap parsedItem)).length = record.fields.length := by
    simpa using congrArg List.length shapes
  refine ⟨len, fun item field pair number => ?_, fun body long held => ?_⟩
  · exact (decodeField_image number (zip_congr shapes pair)).1
  · have inside : ∀ field ∈ record.fields, field.stop ≤ body.length := fun field hf =>
      ((((validate_valid va).record record mem).placed.mem hf).2.2).trans long
    have total : ∀ field ∈ record.fields.filter (·.kind ≠ .skip),
        ∃ cell, decodeCell record body options field = .ok cell := by
      intro field hf
      obtain ⟨hf, cell⟩ : field ∈ record.fields ∧ field.kind ≠ .skip := by simpa using hf
      have paired : field ∈ (compiledFields stmts record).map Prod.snd := by
        rwa [compiledFields, List.map_snd_zip (Nat.le_of_eq len.symm)]
      obtain ⟨⟨item, field⟩, pair, rfl⟩ := List.mem_map.mp paired
      rcases held item field pair cell with ⟨number, image⟩ | decodes
      · have shape : item.shape = some field.shape := zip_congr shapes pair
        have named : item.name ≠ none := by
          intro anonymous
          obtain ⟨_, _, _, _, eq⟩ := Item.shape_eq_some.mp shape
          exact cell ((Described.mk.inj eq).1.trans (if_pos (by rw [anonymous]; rfl)))
        obtain ⟨cell, decodes, _⟩ := decodeCell_image number shape named (inside field hf) image
        exact ⟨cell, decodes⟩
      · exact decodes
    obtain ⟨cells, decoded, all⟩ := mapM_total total
    refine ⟨cells, decoded, fun item field pair named number image => ?_⟩
    have shape : item.shape = some field.shape := zip_congr shapes pair
    have hf : field ∈ record.fields := (List.of_mem_zip pair).2
    obtain ⟨cell, decodes, name, value⟩ :=
      decodeCell_image number shape named (inside field hf) image
    have numeric := ((decodeField_image number shape).2.2 named).1
    exact ⟨cell, all field (List.mem_filter.mpr ⟨hf, by simpa using numeric⟩) cell decodes, name, value⟩

end Records

section Sample

attribute [local instance] asciiUnicode noJson

/-- A record of one packed amount. -/
def sampleAmount : RecordLayout where
  name := "R"
  fields := [{
    name := "A", offset := 0, size := 3, kind := .packedDecimal, scale := 2, picture := "S9(3)V99"
    declaration := { level := some 5, path := "R.A" } }]
  size := 3
  selector := none

/-- The item of the amount. -/
def sampleAmountItem : Item := ⟨5, some "A", some "S9(3)V99", .packed, none, []⟩

/-- The amount -123.45. -/
def sampleNumber : Number sampleAmountItem where
  picture := ⟨true, 3, some 2⟩
  value := -12345
  sign := 0x0d
  pictured := ⟨"S9(3)V99", rfl, rfl⟩
  fits := by decide
  unsigned := nofun
  signOf := .inr (by decide)

lemma sampleAmount_statements : statements "01 R. 05 A PIC S9(3)V99 COMP-3."
    = .ok [["01", "R"], ["05", "A", "PIC", "S9(3)V99", "COMP-3"]] := rfl

theorem picture_roundTrip_sample :
    ∃ raw layout, compile "01 R. 05 A PIC S9(3)V99 COMP-3." = .ok raw ∧
      validate raw .copybook = .ok layout ∧ sampleAmount ∈ layout.records ∧
      ∃ cells, decodeCells sampleAmount [0x12, 0x34, 0x5d] sampleOptions = .ok cells ∧
        ∃ cell ∈ cells, cell.name = "A" ∧
          ∃ value, cell.value = some value ∧ value.Denotes (-12345 / 100) := by
  obtain ⟨raw, ok, layout, va, mem⟩ : ∃ raw, compile "01 R. 05 A PIC S9(3)V99 COMP-3." = .ok raw ∧
      ∃ layout, validate raw .copybook = .ok layout ∧ sampleAmount ∈ layout.records :=
    ⟨_, (compile_statements sampleAmount_statements).trans rfl, _, rfl, List.mem_singleton.mpr rfl⟩
  refine ⟨raw, layout, ok, va, mem, ?_⟩
  have pairs : compiledFields [["01", "R"], ["05", "A", "PIC", "S9(3)V99", "COMP-3"]] sampleAmount
      = [(sampleAmountItem, sampleAmount.fields.head (by decide))] := rfl
  obtain ⟨_, _, decode⟩ :=
    picture_roundTrip sampleOptions sampleAmount_statements ok va mem
  obtain ⟨cells, decoded, denote⟩ := decode [0x12, 0x34, 0x5d] (by decide) (by
    intro item field pair _
    rw [pairs, List.mem_singleton] at pair
    cases pair
    exact .inl ⟨sampleNumber, by decide⟩)
  refine ⟨cells, decoded, ?_⟩
  have cell := denote _ _ (by rw [pairs]; exact List.mem_singleton_self _) (by decide) sampleNumber
    (by decide)
  have value : sampleNumber.denotes = -12345 / 100 := by
    norm_num [Number.denotes, sampleNumber, NumericPicture.scale]
  rwa [value] at cell

end Sample

end Copybook

end GrpcEbcdic

import GrpcEbcdic.Copybook.Describe
import GrpcEbcdic.Copybook.Shapes

/-!
# Usages and shapes

When an item has the same shape under two usages: a named item only under the same usage, since the
usage decides how its bytes are decoded; a filler also where the two happen to be as wide.
-/

namespace GrpcEbcdic.Copybook
open Rust

variable [Unicode]

/-- The shape of a numeric item is the storage of its digits. -/
lemma Item.shape_numeric (item : Item) {picture : String} {symbols : List Char} {acc : Digits}
    (pic : item.picture = some picture) (ex : expand picture "FILLER" = .ok symbols)
    (num : isCharacter symbols = false) (cd : countDigits "" "" 0 {} symbols = .ok acc)
    (pos : acc.digits ≠ 0) :
    item.shape = (storage acc item.usage).map fun described =>
      { described with kind := if item.name.isNone then .skip else described.kind } := by
  have ne : symbols ≠ [] := by
    rintro rfl
    cases cd
    exact pos rfl
  ext shape
  rw [Item.shape_eq_some, Option.map_eq_some_iff]
  constructor
  · rintro ⟨_, pic', described, hd, rfl⟩
    cases pic.symm.trans pic'
    obtain ⟨symbols', ex', _, num'⟩ := describe_ok.mp hd
    cases ex.symm.trans (expand_label ex')
    rw [num, if_neg Bool.false_ne_true] at num'
    obtain ⟨acc', cd', _, st⟩ := num'
    cases cd.symm.trans (countDigits_label cd')
    exact ⟨described, st, rfl⟩
  · rintro ⟨described, st, rfl⟩
    refine ⟨picture, pic, described, ?_, rfl⟩
    refine describe_ok.mpr ⟨symbols, expand_label ex, ne, ?_⟩
    rw [num, if_neg Bool.false_ne_true]
    exact ⟨acc, countDigits_label cd, pos, st⟩

/-- The shape of a character item needs `DISPLAY`. -/
lemma Item.shape_character (item : Item) {picture : String} {symbols : List Char}
    {shape : Described} (pic : item.picture = some picture)
    (ex : expand picture "FILLER" = .ok symbols) (char : isCharacter symbols = true)
    (some : item.shape = some shape) : item.usage = .display := by
  obtain ⟨_, pic', described, hd, rfl⟩ := Item.shape_eq_some.mp some
  cases pic.symm.trans pic'
  obtain ⟨symbols', ex', _, char'⟩ := describe_ok.mp hd
  cases ex.symm.trans (expand_label ex')
  rw [char, if_pos rfl] at char'
  exact describeCharacter_usage char'

/-- An item that describes bytes has a picture that expands, to characters or to digits. -/
lemma Item.shape_cases (item : Item) {shape : Described} (some : item.shape = some shape) :
    ∃ picture symbols, item.picture = .some picture ∧ expand picture "FILLER" = .ok symbols ∧
      (isCharacter symbols = true ∨ isCharacter symbols = false ∧
        ∃ acc, countDigits "" "" 0 {} symbols = .ok acc ∧ acc.digits ≠ 0) := by
  obtain ⟨picture, pic, described, hd, rfl⟩ := Item.shape_eq_some.mp some
  obtain ⟨symbols, ex, _, rest⟩ := describe_ok.mp hd
  refine ⟨picture, symbols, pic, expand_label ex, ?_⟩
  cases char : isCharacter symbols with
  | true => exact .inl rfl
  | false =>
    rw [char, if_neg Bool.false_ne_true] at rest
    obtain ⟨acc, cd, pos, _⟩ := rest
    exact .inr ⟨rfl, acc, countDigits_label cd, pos⟩

/-- An item with another usage. -/
def Item.withUsage (item : Item) (usage : Usage) : Item := { item with usage := usage }

/-- A usage that describes the same bytes as `DISPLAY` does, for an item of this name and picture. -/
def Usage.SameBytes (usage : Usage) (name picture : Option String) : Prop :=
  usage = .display ∨
    name = none ∧ ∃ p, picture = some p ∧ usage.asWide (digitPositions p) = true

/-- An item has the shape it has under `DISPLAY` exactly when its usage describes the same bytes. -/
theorem Item.shape_display_iff {item : Item} {usage : Usage} {shape : Described}
    (some : (item.withUsage usage).shape = some shape ∨
      (item.withUsage .display).shape = some shape) :
    (item.withUsage usage).shape = (item.withUsage .display).shape ↔
      usage.SameBytes item.name item.picture := by
  have cases' : ∃ picture symbols, item.picture = .some picture ∧
      expand picture "FILLER" = .ok symbols ∧
      (isCharacter symbols = true ∨ isCharacter symbols = false ∧
        ∃ acc, countDigits "" "" 0 {} symbols = .ok acc ∧ acc.digits ≠ 0) := by
    rcases some with some | some
    · exact Item.shape_cases (item.withUsage usage) some
    · exact Item.shape_cases (item.withUsage .display) some
  -- A character picture has a shape under DISPLAY alone; a numeric one is measured by its digits.
  obtain ⟨picture, symbols, pic, ex, char | ⟨num, acc, cd, pos⟩⟩ := cases'
  · have none : digitPositions picture = 0 := by
      simp [digitPositions, ex, char]
    constructor
    · intro eq
      rcases some with some | some
      · exact .inl (Item.shape_character (item.withUsage usage) pic ex char some)
      · exact .inl (Item.shape_character (item.withUsage usage) pic ex char (eq.trans some))
    · rintro (rfl | ⟨_, picture', pic', wide⟩)
      · rfl
      · cases pic.symm.trans pic'
        rw [none] at wide
        cases usage <;> first | rfl | simp [Usage.asWide] at wide
  · have digits : digitPositions picture = acc.digits := by
      simp [digitPositions, ex, num, countDigits_digits cd]
    rw [Item.shape_numeric (item.withUsage usage) pic ex num cd pos,
      Item.shape_numeric (item.withUsage .display) pic ex num cd pos]
    simp only [Item.withUsage, Usage.SameBytes, pic, Option.some.injEq, exists_eq_left', digits]
    rw [← storage_asWide acc]
    -- A filler is skipped whatever its usage, so only its width and its scale show.
    cases name : item.name with
    | none =>
      simp only [Option.isNone_none, if_true, true_and, storage, Option.map_some]
      rw [Option.map_eq_some_iff]
      constructor
      · rintro ⟨described, st, eq⟩
        obtain ⟨_, size, scale⟩ := Described.mk.inj eq
        exact .inr ⟨described, st, size, scale⟩
      · rintro (rfl | ⟨described, st, size, scale⟩)
        · exact ⟨_, rfl, rfl⟩
        · exact ⟨described, st, by rw [size, scale]⟩
    | some _ =>
      simp only [Option.isNone_some, Bool.false_eq_true, if_false, reduceCtorEq, false_and,
        or_false]
      cases usage with
      | display => simp
      | packed => simp [storage]
      | binary =>
        simp only [storage, Option.map_some, Option.map_map, reduceCtorEq, iff_false,
          Option.map_eq_some_iff, not_exists, not_and]
        intro width _ eq
        have kind := (Described.mk.inj eq).1
        revert kind
        cases acc.signed <;> simp

end GrpcEbcdic.Copybook

import GrpcEbcdic.Copybook.Item

/-!
# COBOL literals

What COBOL has for a value: a text between quotation marks, each such mark inside it doubled, a number, or
the word of a figurative constant. None of these is a word of the `VALUE` clause itself, and of a quoted
text `unquote` leaves what stands between the marks.
-/

namespace GrpcEbcdic.Copybook
open Rust

/-- A literal of a `VALUE` clause: a text for quotation marks, or a number. -/
inductive Constant where
  | quoted (mark : Char) (content : List Char)
  | number (text : List Char)

/-- A text with each of its quotation marks doubled. -/
def doubled (mark : Char) (content : List Char) : List Char :=
  content.flatMap fun c => if c = mark then [mark, mark] else [c]

/-- Whether a text is a number: digits with an optional sign and decimal point. -/
def IsNumber (text : List Char) : Prop :=
  ∃ sign whole fraction, text = sign ++ (whole ++ fraction) ∧ sign ∈ [[], ['+'], ['-']] ∧
    (∀ c ∈ whole, c.isDigit = true) ∧
    (fraction = [] ∧ whole ≠ [] ∨
      ∃ digits, fraction = '.' :: digits ∧ digits ≠ [] ∧ ∀ c ∈ digits, c.isDigit = true)

namespace Constant

/-- The text of a literal between its quotation marks. -/
def between : Constant → List Char
  | quoted mark content => doubled mark content
  | number text => text

/-- A literal as written. -/
def written : Constant → List Char
  | quoted mark content => mark :: (doubled mark content ++ [mark])
  | number text => text

/-- What a literal means. -/
def content : Constant → List Char
  | quoted _ content => content
  | number text => text

/-- Whether the content of a literal holds its own quotation mark. -/
def Doubles : Constant → Prop
  | quoted mark content => mark ∈ content
  | number _ => False

/-- A literal on one line. -/
def Valid : Constant → Prop
  | quoted mark content => (mark = '\'' ∨ mark = '"') ∧ '\n' ∉ content
  | number text => IsNumber text

end Constant

/-- The words for a figurative constant. -/
def figuratives : List String :=
  ["ZERO", "ZEROS", "ZEROES", "SPACE", "SPACES", "HIGH-VALUE", "HIGH-VALUES", "LOW-VALUE",
    "LOW-VALUES", "QUOTE", "QUOTES", "NULL", "NULLS"]

/-- A token that is a literal, and the literal without its quotation marks. -/
inductive Reads [Unicode] : String → String → Prop where
  | constant {constant : Constant} :
    constant.Valid →
    Reads (String.ofList constant.written) (String.ofList constant.between)
  | figurative {word : String} :
    toUppercase word ∈ figuratives →
    Reads word word

section Constants

/-- A number is digits, signs and points. -/
lemma IsNumber.chars {text : List Char} (number : IsNumber text) :
    text ≠ [] ∧ ∀ c ∈ text, c.isDigit = true ∨ c ∈ ['+', '-', '.'] := by
  obtain ⟨sign, whole, fraction, rfl, signs, digits, rest⟩ := number
  have signed : ∀ c ∈ sign, c ∈ ['+', '-', '.'] := by
    have all : ∀ sign ∈ [[], ['+'], ['-']], (sign.all fun c => c ∈ ['+', '-', '.']) = true := by decide
    intro c mem
    exact of_decide_eq_true (List.all_eq_true.mp (all sign signs) c mem)
  have behind : whole ++ fraction ≠ [] ∧ ∀ c ∈ fraction, c.isDigit = true ∨ c ∈ ['+', '-', '.'] := by
    rcases rest with ⟨rfl, some⟩ | ⟨decimals, rfl, _, all⟩
    · exact ⟨by simpa using some, fun c mem => absurd mem List.not_mem_nil⟩
    · exact ⟨by simp, List.forall_mem_cons.mpr ⟨.inr (by decide), fun c mem => .inl (all c mem)⟩⟩
  refine ⟨List.append_ne_nil_of_right_ne_nil sign behind.1, ?_⟩
  refine List.forall_mem_append.mpr ⟨fun c mem => .inr (signed c mem), ?_⟩
  exact List.forall_mem_append.mpr ⟨fun c mem => .inl (digits c mem), behind.2⟩

/-- A literal does not begin with a letter. -/
lemma Constant.Valid.head {constant : Constant} (valid : constant.Valid) :
    ∃ c, constant.written.head? = some c ∧ c.toNat < 65 := by
  cases constant with
  | quoted mark content =>
    obtain ⟨quotes, _⟩ := valid
    refine ⟨mark, rfl, ?_⟩
    obtain rfl | rfl := quotes <;> decide
  | number text =>
    obtain ⟨ne, chars⟩ := IsNumber.chars valid
    obtain ⟨c, cs, rfl⟩ := List.exists_cons_of_ne_nil ne
    refine ⟨c, rfl, ?_⟩
    obtain digit | sign := chars c List.mem_cons_self
    · have range := isDigit_range digit
      omega
    · have low : ∀ c ∈ ['+', '-', '.'], decide (c.toNat < 65) = true := List.all_eq_true.mp (by decide)
      exact of_decide_eq_true (low c sign)

/-- Of a quoted literal `unquote` leaves what stands between the marks, and a number it leaves alone. -/
lemma Constant.Valid.unquote {constant : Constant} (valid : constant.Valid) :
    unquote (String.ofList constant.written) = String.ofList constant.between := by
  rw [← String.toList_inj, String.toList_ofList]
  have chars : (String.ofList constant.written).toList = constant.written := String.toList_ofList
  cases constant with
  | quoted mark content =>
    rw [unquote_cons chars, List.getLast?_concat, if_pos ⟨valid.1, rfl⟩, List.dropLast_concat]
    rfl
  | number text =>
    obtain ⟨ne, only⟩ := IsNumber.chars valid
    obtain ⟨c, cs, rfl⟩ := List.exists_cons_of_ne_nil ne
    have plain : ¬(c = '\'' ∨ c = '"') := by
      rintro (rfl | rfl) <;> exact absurd (only _ List.mem_cons_self) (by decide)
    rw [unquote_cons chars, if_neg fun both => plain both.1]
    rfl

variable [Unicode]

/-- A word that does not begin with a letter is none of the clause. -/
lemma notMem_clause {word : String} {c : Char} (head : word.toList.head? = some c) (low : c.toNat < 65) :
    toUppercase word ∉ ["IS", "ARE", "THRU", "THROUGH"] := by
  intro mem
  have letters : ∀ word ∈ ["IS", "ARE", "THRU", "THROUGH"],
      (word.toList.head?.all fun c => 65 ≤ c.toNat) = true := by decide
  have high := letters _ mem
  rw [toUppercase_head head low, Option.all_some, decide_eq_true_eq] at high
  omega

/-- A figurative constant has no quotation marks to take off. -/
lemma unquote_figurative {word : String} (figurative : toUppercase word ∈ figuratives) :
    unquote word = word := by
  have letters : ∀ word ∈ figuratives, (word.toList.head?.all fun c => 65 ≤ c.toNat) = true := by decide
  rw [← String.toList_inj]
  cases chars : word.toList with
  | nil =>
    unfold unquote
    rw [chars]
    exact chars
  | cons c cs =>
    have plain : ¬(c = '\'' ∨ c = '"') := by
      intro mark
      have low : c.toNat < 65 := by obtain rfl | rfl := mark <;> decide
      have high := letters _ figurative
      rw [toUppercase_head (by rw [chars]; rfl) low, Option.all_some, decide_eq_true_eq] at high
      omega
    rw [unquote_cons chars, if_neg fun both => plain both.1]

/-- A literal is none of the words of its clause, and is read without its quotation marks. -/
lemma Reads.read {token text : String} (reads : Reads token text) :
    toUppercase token ∉ ["IS", "ARE", "THRU", "THROUGH"] ∧ unquote token = text := by
  cases reads with
  | constant valid =>
    obtain ⟨c, head, low⟩ := valid.head
    exact ⟨notMem_clause (by rw [String.toList_ofList, head]) low, valid.unquote⟩
  | figurative word =>
    refine ⟨fun mem => ?_, unquote_figurative word⟩
    have apart : ∀ word ∈ figuratives, word ∉ ["IS", "ARE", "THRU", "THROUGH"] := by decide
    exact apart _ word mem

end Constants

end GrpcEbcdic.Copybook

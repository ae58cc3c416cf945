import Mathlib.Tactic.Ring
import Mathlib.Data.List.DropRight

/-!
# Rust strings and integers

The parts of the standard library the service leans on, under its names: Unicode whitespace and
control characters, `trim`, `lines`, integer parsing, `{:?}` and `{:x}` formatting, and the
saturating and wrapping forms of `u64` arithmetic. A `str` is a `String`, read as the list of its
scalars.

Two Unicode facts are tables of the library's version rather than rules: the case mappings and the
characters `{:?}` escapes. They are the class `Unicode`, which fixes them on ASCII only; every result
holds for any such table.
-/

namespace Rust

/-- The Unicode tables of the standard library. -/
class Unicode where
  /-- `char::to_uppercase`. -/
  toUppercase : Char → List Char
  /-- `char::to_lowercase`. -/
  toLowercase : Char → List Char
  /-- Whether `{:?}` writes a character beyond ASCII as an escape. -/
  escapesDebug : Char → Bool
  toUppercase_ascii : ∀ c : Char, c.toNat < 128 → toUppercase c = [c.toUpper]
  toLowercase_ascii : ∀ c : Char, c.toNat < 128 → toLowercase c = [c.toLower]

/-- A table that leaves everything beyond ASCII alone. -/
@[reducible] def asciiUnicode : Unicode where
  toUppercase c := [c.toUpper]
  toLowercase c := [c.toLower]
  escapesDebug _ := false
  toUppercase_ascii _ _ := rfl
  toLowercase_ascii _ _ := rfl

/-- `u64::MAX`. -/
def u64Max : Nat := 2 ^ 64 - 1

/-- `u64::saturating_add`. -/
def satAdd (a b : Nat) : Nat := min (a + b) u64Max

/-- `u64 +=`, which wraps where overflow is not trapped. -/
def wrapAdd (a b : Nat) : Nat := (a + b) % 2 ^ 64

/-- `u32::checked_add`. -/
def checkedAdd32 (a b : Nat) : Option Nat := if a + b < 2 ^ 32 then some (a + b) else none

/-- The value an `i128` result holds where overflow is not trapped. -/
def wrapI128 (n : Int) : Int := (n + 2 ^ 127) % 2 ^ 128 - 2 ^ 127

/-- `i64::try_from`. -/
def toI64 (n : Int) : Option Int := if -2 ^ 63 ≤ n ∧ n < 2 ^ 63 then some n else none

/-- `usize::try_from`, on the 64-bit targets the service is built for. -/
def toUsize (n : Int) : Option Nat := if 0 ≤ n ∧ n < 2 ^ 64 then some n.toNat else none

/-- `i32::try_from(value).unwrap_or(i32::MAX)`. -/
def clampI32 (n : Nat) : Nat := min n (2 ^ 31 - 1)

/-- `i32::try_from`, of a `u32`. -/
def toI32 (n : Nat) : Option Nat := if n < 2 ^ 31 then some n else none

/-- `i32::saturating_add` of one. -/
def satSuccI32 (n : Nat) : Nat := min (n + 1) (2 ^ 31 - 1)

/-- `char::is_whitespace`: the Unicode property `White_Space`. -/
def isWhitespace (c : Char) : Bool :=
  let n := c.toNat
  (9 ≤ n && n ≤ 13) || n == 0x20 || n == 0x85 || n == 0xa0 || n == 0x1680 ||
    (0x2000 ≤ n && n ≤ 0x200a) || n == 0x2028 || n == 0x2029 || n == 0x202f || n == 0x205f ||
    n == 0x3000

/-- `char::is_control`: the general category `Cc`. -/
def isControl (c : Char) : Bool :=
  c.toNat < 0x20 || (0x7f ≤ c.toNat && c.toNat ≤ 0x9f)

/-- `char::from_u32`. -/
def fromU32 (n : Nat) : Option Char := if n.isValidChar then some (Char.ofNat n) else none

/-- `str::trim` on the scalars of a string. -/
def trim (cs : List Char) : List Char := (cs.dropWhile isWhitespace).rdropWhile isWhitespace

/-- `str::trim_start` on the scalars of a string. -/
def trimStart (cs : List Char) : List Char := cs.dropWhile isWhitespace

/-- One line without the carriage return of a `\r\n` ending. -/
def stripCr (line : List Char) : List Char :=
  if line.getLast? = some '\r' then line.dropLast else line

/-- `str::lines` from inside a line whose scalars so far are `line`. -/
def linesFrom (line : List Char) : List Char → List (List Char)
  | [] => if line.isEmpty then [] else [line]
  | '\n' :: cs => stripCr line :: linesFrom [] cs
  | c :: cs => linesFrom (line ++ [c]) cs

/-- `str::lines`. -/
def lines (cs : List Char) : List (List Char) := linesFrom [] cs

/-- Digits read in base ten, when there is at least one and nothing else. -/
def parseDigits (cs : List Char) : Option Nat :=
  if cs ≠ [] ∧ cs.all Char.isDigit then some (Nat.ofDigitChars 10 cs 0) else none

/-- The digits after an optional plus sign. -/
def stripPlus : List Char → List Char
  | '+' :: cs => cs
  | cs => cs

/-- `str::parse` at an unsigned type whose values are those below `bound`. -/
def parseUnsigned (bound : Nat) (cs : List Char) : Option Nat :=
  (parseDigits (stripPlus cs)).filter (· < bound)

/-- `str::parse` at `i128`. -/
def parseI128 (cs : List Char) : Option Int :=
  match cs with
  | '-' :: ds => (parseDigits ds).bind fun n => if n ≤ 2 ^ 127 then some (-(n : Int)) else none
  | _ => (parseDigits (stripPlus cs)).bind fun n => if n < 2 ^ 127 then some (n : Int) else none

/-- `str::to_uppercase`. -/
def toUppercase [Unicode] (s : String) : String :=
  String.ofList (s.toList.flatMap Unicode.toUppercase)

/-- `{:x}` of a number. -/
def hex (n : Nat) : String := String.ofList (Nat.toDigits 16 n)

/-- `{:02x}` of a byte. -/
def hex2 (b : UInt8) : String := if b.toNat < 16 then "0" ++ hex b.toNat else hex b.toNat

/-- `{:02}` of a number. -/
def pad2 (n : Nat) : String := if n < 10 then "0" ++ toString n else toString n

/-- One scalar as `{:?}` writes it between the quotes `quote`. -/
def escapeDebug [Unicode] (quote c : Char) : List Char :=
  let escapes := if c.toNat < 128 then isControl c else Unicode.escapesDebug c
  if c = Char.ofNat 0 then ['\\', '0']
  else if c = '\t' then ['\\', 't']
  else if c = '\r' then ['\\', 'r']
  else if c = '\n' then ['\\', 'n']
  else if c = quote || c = '\\' then ['\\', c]
  else if escapes then ['\\', 'u', Char.ofNat 123] ++ Nat.toDigits 16 c.toNat ++ [Char.ofNat 125]
  else [c]

/-- `{:?}` of a string. -/
def debug [Unicode] (s : String) : String :=
  "\"" ++ String.ofList (s.toList.flatMap (escapeDebug '"')) ++ "\""

/-- `{:?}` of a character. -/
def debugChar [Unicode] (c : Char) : String :=
  "'" ++ String.ofList (escapeDebug '\'' c) ++ "'"

section Lines

/-- A line is read up to its end. -/
lemma linesFrom_line {line rest : List Char} (acc : List Char) (one : '\n' ∉ line) :
    linesFrom acc (line ++ '\n' :: rest) = stripCr (acc ++ line) :: linesFrom [] rest := by
  induction line generalizing acc with
  | nil => rw [List.nil_append, linesFrom, List.append_nil]
  | cons c line ih =>
    rw [List.mem_cons, not_or] at one
    rw [List.cons_append, linesFrom.eq_3 _ _ _ (fun eq => one.1 eq.symm), ih _ one.2,
      List.append_assoc, List.singleton_append]

/-- The lines of a text have no more characters than it. -/
lemma linesFrom_length (line cs : List Char) :
    ((linesFrom line cs).map List.length).sum ≤ line.length + cs.length := by
  induction cs generalizing line with
  | nil =>
    rw [linesFrom]
    split <;> simp
  | cons c cs ih =>
    by_cases stop : c = '\n'
    · have cut : (stripCr line).length ≤ line.length := by
        unfold stripCr
        split <;> simp
      have rest := ih []
      rw [stop, linesFrom, List.map_cons, List.sum_cons, List.length_cons]
      rw [List.length_nil] at rest
      omega
    · have rest := ih (line ++ [c])
      rw [List.length_append, List.length_singleton] at rest
      rw [linesFrom.eq_3 _ _ _ stop, List.length_cons]
      omega

/-- The last line needs no end. -/
lemma linesFrom_last {line : List Char} (acc : List Char) (one : '\n' ∉ line)
    (ne : acc ++ line ≠ []) : linesFrom acc line = [acc ++ line] := by
  induction line generalizing acc with
  | nil =>
    rw [List.append_nil] at ne ⊢
    rw [linesFrom, if_neg (by simpa using ne)]
  | cons c line ih =>
    rw [List.mem_cons, not_or] at one
    have eq : acc ++ c :: line = acc ++ [c] ++ line := by simp
    rw [linesFrom.eq_3 _ _ _ (fun eq => one.1 eq.symm), eq, ih _ one.2 (by simp)]

/-- Joined lines are read back one by one, unless one is empty or ends in a carriage return. -/
lemma lines_intercalate {texts : List (List Char)} (one : ∀ text ∈ texts, '\n' ∉ text)
    (ends : ∀ text ∈ texts, text ≠ [] ∧ text.getLast? ≠ some '\r') :
    lines (['\n'].intercalate texts) = texts := by
  induction texts with
  | nil => rfl
  | cons text texts ih =>
    obtain ⟨first, one⟩ := List.forall_mem_cons.mp one
    obtain ⟨⟨ne, cr⟩, ends⟩ := List.forall_mem_cons.mp ends
    cases texts with
    | nil =>
      rw [List.intercalate_singleton]
      exact linesFrom_last [] first ne
    | cons next texts =>
      rw [List.intercalate_cons_cons, List.append_assoc, List.singleton_append, lines,
        linesFrom_line [] first, List.nil_append, stripCr, if_neg cr]
      exact congrArg (text :: ·) (ih one ends)

end Lines

section Numerals

/-- Digits alone are read as a number, when it is below the bound. -/
lemma parseUnsigned_digits {bound n : Nat} {cs : List Char} (hn : parseDigits cs = some n) :
    parseUnsigned bound cs = if n < bound then some n else none := by
  have strip : stripPlus cs = cs := by
    unfold stripPlus
    split
    · next ds => simp [parseDigits, Char.isDigit] at hn
    · rfl
  rw [parseUnsigned, strip, hn]
  simp [Option.filter]

/-- A number below the bound is read back from its digits. -/
lemma parseUnsigned_toString {bound n : Nat} (lt : n < bound) :
    parseUnsigned bound (toString n).toList = some n := by
  have digits : (toString n).toList = Nat.toDigits 10 n := Nat.toList_repr
  have all : (Nat.toDigits 10 n).all Char.isDigit = true := by
    rw [List.all_eq_true]
    exact fun c mem => Nat.isDigit_of_mem_toDigits (by decide) (by decide) mem
  have parse : parseDigits (Nat.toDigits 10 n) = some n := by
    rw [parseDigits, if_pos ⟨Nat.toDigits_ne_nil, all⟩, Nat.ofDigitChars_ten_toDigits]
  rw [digits, parseUnsigned_digits parse, if_pos lt]

/-- Numbers are told apart by their digits. -/
lemma toString_nat_inj {i j : Nat} (same : toString i = toString j) : i = j := by
  have digits : Nat.toDigits 10 i = Nat.toDigits 10 j := by
    rw [← Nat.toList_repr, ← Nat.toList_repr]
    exact congrArg String.toList same
  rw [← Nat.ofDigitChars_ten_toDigits (n := i), digits, Nat.ofDigitChars_ten_toDigits]

/-- A number has as many digits as it takes. -/
lemma toString_nat_size {n k : Nat} (lt : n < 10 ^ (k + 1)) : (toString n).utf8ByteSize ≤ k + 1 := by
  have digits : ∀ d < 10, (Nat.digitChar d).utf8Size = 1 := by decide
  have digit {d : Nat} (lt : d < 10) : (String.singleton (Nat.digitChar d)).utf8ByteSize = 1 := by
    rw [String.utf8ByteSize_singleton, digits d lt]
  change n.repr.utf8ByteSize ≤ k + 1
  induction k generalizing n with
  | zero => exact (congrArg String.utf8ByteSize (Nat.repr_of_lt lt)).trans_le (digit lt).le
  | succ k ih =>
    by_cases small : n < 10
    · rw [Nat.repr_of_lt small, digit small]
      omega
    · have rest := ih (n := n / 10) (by rw [pow_succ] at lt; omega)
      rw [Nat.repr_of_ge (Nat.not_lt.mp small), String.utf8ByteSize_append, digit (Nat.mod_lt _ (by decide))]
      omega

/-- The digits by number. -/
lemma isDigit_range {c : Char} (digit : c.isDigit = true) : 48 ≤ c.toNat ∧ c.toNat ≤ 57 := by
  simp only [Char.isDigit, Bool.and_eq_true, decide_eq_true_eq, ge_iff_le,
    UInt32.le_iff_toNat_le] at digit
  exact digit

end Numerals

section Uppercase

variable [Unicode]

/-- A character in front of the lower case letters is its own uppercase. -/
lemma toUppercase_char {c : Char} (low : c.toNat < 97) : Unicode.toUppercase c = [c] := by
  have below : ¬('a'.val ≤ c.val ∧ c.val ≤ 'z'.val) := fun le =>
    absurd (UInt32.le_iff_toNat_le.mp le.1) (Nat.not_le.mpr low)
  have kept : c.toUpper = c := dif_neg below
  rw [Unicode.toUppercase_ascii c (lt_trans low (by decide)), kept]

/-- ASCII text without lower case letters is its own uppercase. -/
lemma toUppercase_self {s : String} (upper : ∀ c ∈ s.toList, c.toNat < 97) : toUppercase s = s := by
  have same : s.toList.flatMap Unicode.toUppercase = s.toList.flatMap fun c => [c] :=
    List.flatMap_congr fun c mem => toUppercase_char (upper c mem)
  rw [toUppercase, same, List.flatMap_singleton', String.ofList_toList]

/-- The uppercase of a word that does not begin with a letter begins like it. -/
lemma toUppercase_head {word : String} {c : Char} (head : word.toList.head? = some c)
    (low : c.toNat < 65) : (toUppercase word).toList.head? = some c := by
  obtain ⟨cs, eq⟩ := List.head?_eq_some_iff.mp head
  rw [toUppercase, String.toList_ofList, eq, List.flatMap_cons,
    toUppercase_char (lt_trans low (by decide))]
  rfl

end Uppercase

end Rust

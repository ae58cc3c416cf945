import GrpcEbcdic.Error
import GrpcEbcdic.Support.Rust

/-!
# Copybook statements

Copybook source split into period-terminated statements of tokens. Each line loses its card columns
first; a token never crosses a line, a statement may.
-/

namespace GrpcEbcdic.Copybook
open Rust

/-- One data-description statement, already split into tokens. -/
abbrev Statement := List String

/-- Whether the bytes of a line look like the fixed card format: a sequence area of digits or blanks
and an indicator character. -/
def fixedFormat (bytes : List UInt8) : Bool :=
  7 ≤ bytes.length &&
    (bytes.take 6).all (fun b => (48 ≤ b.toNat && b.toNat ≤ 57) || b.toNat = 32) &&
    [' ', '-', '*', '/', 'D', 'd'].any fun c => (bytes.getD 6 0).toNat = c.toNat

/-- Strip the fixed-format card columns from one line, or drop it if it is a comment. -/
def stripCardColumns (line : List Char) : Option (List Char) :=
  let trimmed := trimStart line
  if trimmed.head? = some '*' ∨ trimmed.head? = some '/' then none
  else
    let bytes := line.flatMap String.utf8EncodeChar
    if !fixedFormat bytes then some line
    else if (bytes.getD 6 0).toNat = '*'.toNat ∨ (bytes.getD 6 0).toNat = '/'.toNat then none
    -- The first seven columns are ASCII here, so byte 6 is character 6.
    else some ((line.take 72).drop 6)

/-- A statement with one more token, unless it is empty. -/
def pushToken (current : Statement) (token : List Char) : Statement :=
  if token.isEmpty then current else current ++ [String.ofList token]

/-- The statements so far with one more, unless it is empty. -/
def pushStatement (out : List Statement) (current : Statement) : List Statement :=
  if current.isEmpty then out else out ++ [current]

/-- Split the rest of a line into tokens. `quote` is the open quotation mark when the scan is inside
a literal; `token`, `current` and `out` are the token, the statement and the statements so far. -/
def lexLine [Unicode] (line : List Char) (quote : Option Char) (token : List Char)
    (current : Statement) (out : List Statement) :
    List Char → Except ParseError (List Statement × Statement)
  | [] =>
    match quote with
    | some _ =>
      .error (.invalid s!"unterminated literal in copybook line {debug (String.ofList line)}")
    | none => .ok (out, pushToken current token)
  | ch :: chars =>
    match quote with
    -- A literal is one token, quotes included, so a period inside it cannot end the statement.
    | some open_ =>
      lexLine line (if ch = open_ then none else some open_) (token ++ [ch]) current out chars
    | none =>
      if ch = '\'' ∨ ch = '"' then lexLine line (some ch) (token ++ [ch]) current out chars
      -- A period ends a sentence only when a space or the end of the line follows it.
      else if ch = '.' ∧ chars.head?.all isWhitespace then
        lexLine line none [] [] (pushStatement out (pushToken current token)) chars
      else if isWhitespace ch then lexLine line none [] (pushToken current token) out chars
      else lexLine line none (token ++ [ch]) current out chars

/-- Split the lines of a source, given the statements and the open statement before them. -/
def lexLines [Unicode] (current : Statement) (out : List Statement) :
    List (List Char) → Except ParseError (List Statement × Statement)
  | [] => .ok (out, current)
  | raw :: raws =>
    match stripCardColumns raw with
    | none => lexLines current out raws
    | some line =>
      match lexLine line none [] current out line with
      | .error e => .error e
      | .ok (out, current) => lexLines current out raws

/-- Split copybook source into period-terminated statements of tokens. -/
def statements [Unicode] (source : String) : Except ParseError (List Statement) :=
  match lexLines [] [] (lines source.toList) with
  | .error e => .error e
  | .ok (out, current) =>
    if current.isEmpty then .ok out
    else
      .error (.invalid
        ("the copybook ends without a period after " ++ debug (" ".intercalate current)))

end GrpcEbcdic.Copybook

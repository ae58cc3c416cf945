import GrpcEbcdic.Copybook.Item

/-!
# Pictures

A picture clause expanded into its symbol run, and what the run and a usage together say about the
bytes.
-/

namespace GrpcEbcdic.Copybook
open Rust

variable [Unicode]

/-- Largest number of character positions one picture clause may describe. -/
def maxRecordSymbols : Nat := 65536

/-- What a picture clause and a usage together say about the bytes. -/
structure Described where
  kind : FieldKind
  size : Nat
  scale : Nat
deriving DecidableEq

/-- The symbols so far with one more, repeated. -/
def pushSymbols (picture name : String) (out : List Char) (symbol : Char) (count : Nat) :
    Except ParseError (List Char) :=
  if maxRecordSymbols < (out ++ List.replicate count symbol).length then
    .error (.invalid (s!"picture {debug picture} of {debug name} describes more than " ++
      s!"{maxRecordSymbols} character positions"))
  else .ok (out ++ List.replicate count symbol)

/-- A repeat count, from the characters between its parentheses. -/
def repeatCount (picture name : String) (digits : List Char) : Except ParseError Nat :=
  if digits = [] then
    .error (.invalid
      s!"picture {debug picture} of {debug name} has an unterminated repeat count")
  else
    match parseUnsigned (2 ^ 64) digits with
    | none =>
      let text := debug (String.ofList digits)
      .error (.invalid
        s!"picture {debug picture} of {debug name} has a non-numeric repeat count {text}")
    | some count =>
      if count = 0 ∨ maxRecordSymbols < count then
        .error (.invalid (s!"picture {debug picture} of {debug name} repeats {count} times, " ++
          s!"outside 1..={maxRecordSymbols}"))
      else .ok count

/-- Expand the rest of a picture after the symbols `out`. Inside a repeat count, `counting` is the
symbol it repeats with the characters of the count so far, none before its parenthesis. -/
def expandFrom (picture name : String) (counting : Option (Char × Option (List Char)))
    (out : List Char) :
    List Char → Except ParseError (List Char)
  | [] =>
    match counting with
    | some _ =>
      .error (.invalid
        s!"picture {debug picture} of {debug name} has an unterminated repeat count")
    | none => .ok out
  | ch :: chars =>
    match counting with
    | some (symbol, none) => expandFrom picture name (some (symbol, some [])) out chars
    | some (symbol, some digits) =>
      if ch = ')' then
        match repeatCount picture name digits with
        | .error e => .error e
        | .ok count =>
          match pushSymbols picture name out symbol count with
          | .error e => .error e
          | .ok out => expandFrom picture name none out chars
      else expandFrom picture name (some (symbol, some (digits ++ [ch]))) out chars
    | none =>
      if ch = '(' then
        .error (.invalid
          s!"picture {debug picture} of {debug name} starts a repeat count with nothing to repeat")
      else if chars.head? = some '(' then expandFrom picture name (some (ch, none)) out chars
      else
        match pushSymbols picture name out ch 1 with
        | .error e => .error e
        | .ok out => expandFrom picture name none out chars

/-- Expand a picture clause into its symbol run, resolving `(n)` repeats. -/
def expand (picture name : String) : Except ParseError (List Char) :=
  expandFrom picture name none [] picture.toList

/-- Resolve a character picture clause. -/
def describeCharacter (symbols : List Char) (picture : String) (usage : Usage) (label : String) :
    Except ParseError Described :=
  if symbols.any (fun c => c = 'S' || c = 'V' || c = 'P') then
    .error (.invalid (s!"picture {debug picture} of {debug label} mixes character symbols with " ++
      "the numeric symbols S, V or P"))
  else
    match symbols.find? (fun c => !(c = 'X' || c = 'A' || c = '9')) with
    | some bad =>
      .error (.unsupported (s!"picture {debug picture} of {debug label} uses the editing symbol " ++
        s!"{debugChar bad}; numeric-edited and alphanumeric-edited items are not decoded"))
    | none =>
      if usage ≠ .display then
        .error (.invalid
          s!"{debug label} is a character item, so it cannot have a computational usage")
      else .ok ⟨.text, symbols.length, 0⟩

/-- What the symbol loop of a numeric picture has counted so far. -/
structure Digits where
  digits : Nat := 0
  scale : Nat := 0
  seenPoint : Bool := false
  signed : Bool := false
deriving DecidableEq

/-- The symbol loop of `describe_numeric`, from one position on. -/
def countDigits (picture label : String) (position : Nat) (acc : Digits) :
    List Char → Except ParseError Digits
  | [] => .ok acc
  | symbol :: symbols =>
    if symbol = 'S' then
      if position ≠ 0 then
        .error (.invalid
          s!"picture {debug picture} of {debug label} puts S somewhere other than the front")
      else countDigits picture label (position + 1) { acc with signed := true } symbols
    else if symbol = 'V' then
      if acc.seenPoint then
        .error (.invalid
          s!"picture {debug picture} of {debug label} has more than one implied decimal point")
      else countDigits picture label (position + 1) { acc with seenPoint := true } symbols
    else if symbol = '9' then
      countDigits picture label (position + 1)
        { acc with
          digits := acc.digits + 1
          scale := if acc.seenPoint then acc.scale + 1 else acc.scale } symbols
    else
      .error (.unsupported (s!"picture {debug picture} of {debug label} uses the symbol " ++
        s!"{debugChar symbol}; only S, 9 and V describe stored digits, everything else is an " ++
        "edited picture this build does not decode"))

/-- Resolve a numeric picture clause together with its usage. -/
def describeNumeric (symbols : List Char) (picture : String) (usage : Usage) (label : String) :
    Except ParseError Described :=
  match countDigits picture label 0 {} symbols with
  | .error e => .error e
  | .ok acc =>
    if acc.digits = 0 then
      .error (.invalid s!"picture {debug picture} of {debug label} declares no digit positions")
    else
      match usage with
      | .display => .ok ⟨.zonedDecimal, acc.digits, acc.scale⟩
      | .packed => .ok ⟨.packedDecimal, acc.digits / 2 + 1, acc.scale⟩
      | .binary =>
        let kind := if acc.signed then FieldKind.integer else FieldKind.unsignedInteger
        if acc.digits ≤ 4 then .ok ⟨kind, 2, acc.scale⟩
        else if acc.digits ≤ 9 then .ok ⟨kind, 4, acc.scale⟩
        else if acc.digits ≤ 18 then .ok ⟨kind, 8, acc.scale⟩
        else
          .error (.unsupported (s!"{debug label} is a binary item of {acc.digits} digits; COBOL " ++
            "binary stops at 18"))

/-- Resolve a picture clause and a usage into a field description. -/
def describe (picture : String) (usage : Usage) (name : Option String) :
    Except ParseError Described :=
  let label := name.getD "FILLER"
  match expand picture label with
  | .error e => .error e
  | .ok symbols =>
    if symbols = [] then .error (.invalid s!"picture clause of {debug label} is empty")
    -- One `X` or `A` anywhere makes the whole item character data.
    else if symbols.any (fun c => c = 'X' || c = 'A') then
      describeCharacter symbols picture usage label
    else describeNumeric symbols picture usage label

end GrpcEbcdic.Copybook

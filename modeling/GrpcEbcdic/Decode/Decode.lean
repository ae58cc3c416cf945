import GrpcEbcdic.Codec.Codec

/-!
# The byte walk

One decoder per COBOL storage usage. Numerics are carried as an integer and a scale. The accumulator of
the source is an `i128`; the widths the layout admits keep every value inside it, so it is an `Int`
here.
-/

namespace GrpcEbcdic
open Rust

/-- Sign nibbles that mean negative. -/
def negativeSigns : List Nat := [0x0b, 0x0d]

/-- Widest packed field the decoder accepts, in bytes. -/
def maxPackedBytes : Nat := 19

/-- Widest zoned field the decoder accepts, in bytes. -/
def maxZonedBytes : Nat := 37

/-- Widest binary field the decoder accepts, in bytes. -/
def maxBinaryBytes : Nat := 16

/-- A decoded field value, before it is shaped into a protobuf cell. -/
inductive FieldValue where
  | text (text : String)
  | number (unscaled : Int) (scale : Nat)
deriving DecidableEq

/-- Render `unscaled * 10^-scale` as an exact decimal string. -/
def renderDecimal (unscaled : Int) (scale : Nat) : String :=
  if scale = 0 then toString unscaled
  else
    let digits := (toString unscaled.natAbs).toList
    let padded :=
      if digits.length ≤ scale then List.replicate (scale + 1 - digits.length) '0' ++ digits
      else digits
    let split := padded.length - scale
    let sign := if unscaled < 0 then ['-'] else []
    String.ofList (sign ++ padded.take split ++ ['.'] ++ padded.drop split)

/-- Render the value the way a record selector is compared. -/
def FieldValue.toDisplayString : FieldValue → String
  | .text t => t
  | .number unscaled scale => renderDecimal unscaled scale

/-- Lowercase hex of a field's bytes, for error messages. -/
def hexBytes (bytes : List UInt8) : String := String.join (bytes.map hex2)

/-- Decode `USAGE DISPLAY` character data. -/
def decodeText [Unicode] (codec : Codec) (bytes : List UInt8) (stripControl : Bool) :
    Except ParseError String :=
  match codec.decode bytes with
  | .error e => .error e.toParseError
  | .ok text =>
    let text := if stripControl then text.filter (!isControl ·) else text
    .ok (String.ofList (trim text))

/-- The high nibble of a byte. -/
def highNibble (byte : UInt8) : Nat := byte.toNat / 16

/-- The low nibble of a byte. -/
def lowNibble (byte : UInt8) : Nat := byte.toNat % 16

/-- Fold digit nibbles into a value; the first nibble above nine, which is not a digit, is reported
with its position. -/
def foldDigits (notADigit : Nat → Nat → ParseError) (index : Nat) (value : Int) :
    List Nat → Except ParseError Int
  | [] => .ok value
  | nibble :: nibbles =>
    if 9 < nibble then .error (notADigit index nibble)
    else foldDigits notADigit (index + 1) (value * 10 + nibble) nibbles

/-- The value, negated under a negative sign nibble. -/
def applySign (sign : Nat) (value : Int) : Int := if sign ∈ negativeSigns then -value else value

/-- Decode `COMP-3` packed decimal: two digits per byte, sign in the trailing nibble. -/
def decodePacked (bytes : List UInt8) : Except ParseError Int :=
  match bytes.getLast? with
  | none => .error (.invalid "a packed decimal field needs at least one byte")
  | some last =>
    let notADigit index nibble :=
      .invalid (s!"packed decimal nibble {index} is 0x{hex nibble}, not a digit " ++
        s!"(bytes {hexBytes bytes})")
    -- The very last nibble is the sign, not a digit.
    let digits := (bytes.flatMap fun byte => [highNibble byte, lowNibble byte]).dropLast
    (foldDigits notADigit 0 0 digits).map (applySign (lowNibble last))

/-- Decode a zoned decimal: one digit in the low nibble of every byte, the sign in the zone nibble of
the last. -/
def decodeZoned (bytes : List UInt8) : Except ParseError Int :=
  match bytes.getLast? with
  | none => .error (.invalid "a zoned decimal field needs at least one byte")
  | some last =>
    let notADigit index digit :=
      .invalid (s!"zoned decimal digit {index} is 0x{hex digit}, not a digit " ++
        s!"(bytes {hexBytes bytes})")
    (foldDigits notADigit 0 0 (bytes.map lowNibble)).map (applySign (highNibble last))

/-- Decode a big-endian binary field. -/
def decodeBinary (bytes : List UInt8) (signed : Bool) : Except ParseError Int :=
  match bytes.head? with
  | none => .error (.invalid "a binary field needs at least one byte")
  | some first =>
    if maxBinaryBytes < bytes.length then
      .error (.unsupported (s!"binary fields wider than {maxBinaryBytes} bytes are not supported " ++
        s!"(got {bytes.length})"))
    else if !signed && bytes.length = maxBinaryBytes && 0x80 ≤ first.toNat then
      .error (.unsupported (s!"unsigned binary value {hexBytes bytes} exceeds the largest number " ++
        "this build carries"))
    else
      -- Sign-extend by starting from -1 rather than 0.
      let start : Int := if signed && 0x80 ≤ first.toNat then -1 else 0
      .ok (bytes.foldl (fun value byte => value * 256 + byte.toNat) start)

end GrpcEbcdic

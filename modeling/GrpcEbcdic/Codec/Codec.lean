import GrpcEbcdic.Codec.Codepages
import GrpcEbcdic.Error
import GrpcEbcdic.Support.AssocList
import GrpcEbcdic.Support.Rust

/-!
# Code page resolution and decoding

A `Codec` is a code page this build carries. Decoding is strict: a byte the page leaves unassigned is
an error naming the byte and its index, never a replacement character.
-/

namespace GrpcEbcdic
open Rust

/-- One supported code page: its canonical name and its 256-entry table. -/
structure CodePage where
  name : String
  table : List Nat
deriving DecidableEq

/-- Every code page this build can decode. -/
def codePages : List CodePage :=
  [⟨"cp037", Codepages.cp037⟩, ⟨"cp273", Codepages.cp273⟩, ⟨"cp424", Codepages.cp424⟩,
   ⟨"cp500", Codepages.cp500⟩, ⟨"cp875", Codepages.cp875⟩, ⟨"cp1026", Codepages.cp1026⟩,
   ⟨"cp1140", Codepages.cp1140⟩]

/-- Aliases accepted for a code page, beyond its canonical name. -/
def aliases : List (String × String) :=
  [("037", "cp037"), ("ibm037", "cp037"), ("ibm-037", "cp037"), ("ebcdiccpus", "cp037"),
   ("ebcdiccpca", "cp037"), ("ebcdiccpwt", "cp037"), ("ebcdiccpnl", "cp037"),
   ("csibm037", "cp037"), ("273", "cp273"), ("ibm273", "cp273"), ("csibm273", "cp273"),
   ("424", "cp424"), ("ibm424", "cp424"), ("ebcdiccphe", "cp424"), ("csibm424", "cp424"),
   ("500", "cp500"), ("ibm500", "cp500"), ("ebcdiccpbe", "cp500"), ("ebcdiccpch", "cp500"),
   ("csibm500", "cp500"), ("875", "cp875"), ("ibm875", "cp875"), ("ebcdicgreek", "cp875"),
   ("1026", "cp1026"), ("ibm1026", "cp1026"), ("csibm1026", "cp1026"), ("1140", "cp1140"),
   ("ibm1140", "cp1140"), ("ebcdicuscanadaeuro", "cp1140")]

/-- Code page used when a request leaves `encoding` empty. -/
def defaultEncoding : String := "cp037"

/-- Why a code page name or a run of bytes could not be decoded. -/
inductive CodecError where
  | unknownEncoding (requested : String)
  | undefinedByte (encoding : String) (byte : UInt8) (index : Nat)
deriving DecidableEq

namespace CodecError

/-- Canonical names of every code page this build can decode. -/
def supportedEncodings : List String := codePages.map (·.name)

/-- The text of the error. -/
def message [Unicode] : CodecError → String
  | .unknownEncoding requested =>
    s!"unknown EBCDIC code page {debug requested}; this build carries " ++
      ", ".intercalate supportedEncodings
  | .undefinedByte encoding byte index =>
    s!"byte 0x{hex2 byte} at index {index} is unassigned in {encoding}"

/-- Both codec failures are the caller's. -/
def toParseError [Unicode] (e : CodecError) : ParseError := .invalid e.message

end CodecError

/-- A resolved code page, ready to decode field bytes. -/
structure Codec where
  page : CodePage
  carried : page ∈ codePages

namespace Codec

/-- Normalize a code page name for lookup. -/
def normalize [Unicode] (name : List Char) : String :=
  String.ofList ((name.filter fun c => !(c = '-' || c = '_' || c = ' ' || c = '.')).flatMap
    Unicode.toLowercase)

/-- Resolve a code page by name; an empty name selects the default. -/
def resolve [Unicode] (name : String) : Except CodecError Codec :=
  let trimmed := trim name.toList
  let wanted := if trimmed.isEmpty then defaultEncoding.toList else trimmed
  let key := normalize wanted
  let canonical := (aliases.lookup key).getD key
  match found : codePages.find? (·.name = canonical) with
  | some page => .ok ⟨page, List.mem_of_find?_eq_some found⟩
  | none => .error (.unknownEncoding (String.ofList wanted))

/-- Canonical name of the resolved code page. -/
def name (codec : Codec) : String := codec.page.name

/-- Decode the bytes from index `index` on. -/
def decodeFrom (codec : Codec) (index : Nat) : List UInt8 → Except CodecError (List Char)
  | [] => .ok []
  | byte :: bytes =>
    let scalar := codec.page.table.getD byte.toNat Codepages.undefined
    if scalar = Codepages.undefined then .error (.undefinedByte codec.name byte index)
    else
      match codec.decodeFrom (index + 1) bytes with
      | .error e => .error e
      | .ok text => .ok ((fromU32 scalar).getD '\uFFFD' :: text)

/-- Decode field bytes into a string. -/
def decode (codec : Codec) (bytes : List UInt8) : Except CodecError (List Char) :=
  codec.decodeFrom 0 bytes

/-- The scalar-to-byte map of a code page. -/
def pageMap (page : CodePage) : List (Nat × UInt8) :=
  page.table.zipIdx.foldl
    (fun map entry =>
      if entry.1 ≠ Codepages.undefined then
        AssocList.orInsert entry.1 (if entry.2 < 256 then UInt8.ofNat entry.2 else 0) map
      else map)
    []

/-- The scalar-to-byte map of the resolved code page, found by its position among them all. Where
several bytes decode to one scalar the lowest wins. -/
def reverseMap (codec : Codec) : List (Nat × UInt8) :=
  (codePages.map pageMap).getD ((codePages.findIdx? (· = codec.page)).getD 0) []

/-- The byte a reverse map has for a character. -/
def byteOf (reverse : List (Nat × UInt8)) (ch : Char) : Option UInt8 :=
  if ch.toNat < 2 ^ 16 then reverse.lookup ch.toNat else none

/-- Encode the characters of a text through a reverse map. -/
def encodeWith (reverse : List (Nat × UInt8)) : List Char → Except Char (List UInt8)
  | [] => .ok []
  | ch :: text =>
    match byteOf reverse ch with
    | none => .error ch
    | some byte =>
      match encodeWith reverse text with
      | .error e => .error e
      | .ok bytes => .ok (byte :: bytes)

/-- Encode text back into this code page; the error is a character it has no byte for. -/
def encode (codec : Codec) (text : List Char) : Except Char (List UInt8) :=
  encodeWith codec.reverseMap text

end Codec

end GrpcEbcdic

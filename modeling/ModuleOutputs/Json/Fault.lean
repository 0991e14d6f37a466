import ModuleOutputs.Text.Quoted
import ModuleOutputs.Text.Utf8

/-!
Why a text cannot be read as a JSON value of the expected shape, and where. A
place is a line and a column; columns count the bytes since the last line break.
-/

namespace ModuleOutputs.Json

open Text (Piece Bytes)

/-- What stands where something else is expected. -/
inductive Found where
  | null
  | flag (value : Bool)
  | integer (digits : String)
  | floating (digits : String)
  | text (value : String)
  | list
  | object
deriving Repr, DecidableEq

namespace Found

/-- The words for what was found. -/
def describe : Found → String
  | .null => "null"
  | .flag b => "boolean `" ++ (if b then "true" else "false") ++ "`"
  | .integer digits => "integer `" ++ digits ++ "`"
  | .floating digits => "floating point `" ++ digits ++ "`"
  | .text s => "string " ++ Text.quoted s
  | .list => "sequence"
  | .object => "map"

end Found

/-- Why a text is not the JSON value that is asked for. -/
inductive Problem where
  | endInValue
  | endInObject
  | endInList
  | endInString
  | expectedValue
  | expectedWord
  | expectedColon
  | expectedCommaOrBrace
  | expectedCommaOrBracket
  | trailingComma
  | keyNotString
  | trailingCharacters
  | controlCharacter
  | invalidEscape
  | loneSurrogate
  | endOfHexEscape
  | invalidNumber
  | numberOutOfRange
  | invalidCharacter
  | tooDeep
  | missingField (key : String)
  | duplicateField (key : String)
  /-- A list in place of an object has too few items. -/
  | tooShort (count : Nat) (expected : String)
  | unknownVariant (found : String) (known : List String)
  | wrongType (found : Found) (expected : String)
deriving Repr, DecidableEq

/-- Alternatives as they are listed to a reader. -/
def listing (known : List String) : String :=
  match known.map (fun w => "`" ++ w ++ "`") with
  | [] => "there are no variants"
  | [a] => "expected " ++ a
  | [a, b] => "expected " ++ a ++ " or " ++ b
  | many => "expected one of " ++ String.intercalate ", " many

namespace Problem

/-- The words for a problem. -/
def describe : Problem → String
  | .endInValue => "EOF while parsing a value"
  | .endInObject => "EOF while parsing an object"
  | .endInList => "EOF while parsing a list"
  | .endInString => "EOF while parsing a string"
  | .expectedValue => "expected value"
  | .expectedWord => "expected ident"
  | .expectedColon => "expected `:`"
  | .expectedCommaOrBrace => "expected `,` or `\x7d`"
  | .expectedCommaOrBracket => "expected `,` or `]`"
  | .trailingComma => "trailing comma"
  | .keyNotString => "key must be a string"
  | .trailingCharacters => "trailing characters"
  | .controlCharacter => "control character (\\u0000-\\u001F) found while parsing a string"
  | .invalidEscape => "invalid escape"
  | .loneSurrogate => "lone leading surrogate in hex escape"
  | .endOfHexEscape => "unexpected end of hex escape"
  | .invalidNumber => "invalid number"
  | .numberOutOfRange => "number out of range"
  | .invalidCharacter => "invalid unicode code point"
  | .tooDeep => "recursion limit exceeded"
  | .missingField key => "missing field `" ++ key ++ "`"
  | .duplicateField key => "duplicate field `" ++ key ++ "`"
  | .tooShort count expected =>
    "invalid length " ++ toString count ++ ", expected " ++ expected
  | .unknownVariant found known => "unknown variant `" ++ found ++ "`, " ++ listing known
  | .wrongType found expected =>
    "invalid type: " ++ found.describe ++ ", expected " ++ expected

end Problem

/-- A problem, what was not yet read when it showed, and how many bytes of that
are counted to its place. -/
structure Fault where
  problem : Problem
  rest : List Piece
  ahead : Nat
deriving Repr

/-- The number of bytes that pieces were read from. -/
def byteCount (ps : List Piece) : Nat :=
  (ps.flatMap Piece.bytes).length

/-- A line and a column. -/
structure Place where
  line : Nat
  column : Nat
deriving Repr, DecidableEq

namespace Place

/-- The place after one more byte: a line break begins a line. -/
def step (p : Place) (b : UInt8) : Place :=
  if b = 10 then ⟨p.line + 1, 0⟩ else ⟨p.line, p.column + 1⟩

/-- The place after some bytes. -/
def after (bs : Bytes) : Place :=
  bs.foldl step ⟨1, 0⟩

end Place

namespace Fault

/-- Where in the whole text the fault lies. -/
def place (f : Fault) (whole : List Piece) : Place :=
  let bytes := whole.flatMap Piece.bytes
  Place.after (bytes.take (bytes.length - byteCount f.rest + f.ahead))

def message (f : Fault) (whole : List Piece) : String :=
  let p := f.place whole
  f.problem.describe ++ " at line " ++ toString p.line ++ " column " ++ toString p.column

end Fault

/-- A reading step: a value and what follows it, or a fault. -/
abbrev Parsed (α : Type) := Except Fault (α × List Piece)

/-- The fault that lies at what was read last. -/
def faultAt (problem : Problem) (rest : List Piece) : Fault :=
  ⟨problem, rest, 0⟩

/-- The fault that lies at the byte looked at next. -/
def faultBefore (problem : Problem) (rest : List Piece) : Fault :=
  ⟨problem, rest, if rest.isEmpty then 0 else 1⟩

end ModuleOutputs.Json

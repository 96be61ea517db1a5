/-
# Why a document cannot be read

A document can break the rules of JSON, or follow them and not have the shape that is asked for.
In both cases the message names the cause; when the document is read from a text, it also names
the line and the column of the last byte that was read.
-/
import CoverageEstimate.Decimal.Shortest
import CoverageEstimate.Json.Value
import CoverageEstimate.Text.Bytes
import CoverageEstimate.Text.Quoted

namespace CoverageEstimate.Json

/-- What is found where something else is asked for. -/
inductive Found where
  | null
  | flag (b : Bool)
  | natural (n : Nat)
  | negative (n : Nat)
  | real (x : Float)
  | text (s : String)
  | list
  | object

/-- What a value is found to be. -/
def Found.ofValue : Value → Found
  | .null => null
  | .flag b => flag b
  | .number (.natural n) => natural n
  | .number (.negative n) => negative n
  | .number (.real x) => real x
  | .text s => text s
  | .list _ => list
  | .object _ => object

/-- What a number is found to be. -/
def Found.ofNumber (n : Number) : Found := ofValue (.number n)

/-- How a message describes what is found. -/
def Found.describe : Found → String
  | null => "null"
  | flag b => "boolean `" ++ (if b then "true" else "false") ++ "`"
  | natural n => "integer `" ++ String.ofList (Decimal.digits n) ++ "`"
  | negative n => "integer `-" ++ String.ofList (Decimal.digits n) ++ "`"
  | real x => "floating point `" ++ Decimal.documentText x ++ "`"
  | text s => "string " ++ Text.quoted s
  | list => "sequence"
  | object => "map"

/-- What is being read when a document ends too early. -/
inductive Part where
  | value
  | list
  | object
  | text
  deriving DecidableEq, Repr

/-- How a message names the part. -/
def Part.describe : Part → String
  | value => "a value"
  | list => "a list"
  | object => "an object"
  | text => "a string"

/-- Why a document cannot be read. -/
inductive Cause where
  | endWithin (part : Part)
  | expectedColon
  | expectedItemOrEnd
  | expectedMemberOrEnd
  | expectedWord
  | expectedValue
  | invalidEscape
  | invalidNumber
  | numberOutOfRange
  | invalidCharacter
  | controlCharacter
  | memberWithoutName
  | loneSurrogate
  | unfinishedSurrogates
  | trailingComma
  | trailingCharacters
  | tooDeep
  | wrongType (found : Found) (expected : String)
  | wrongValue (found : Found) (expected : String)
  | wrongLength (length : Nat) (expected : String)
  | missingMember (name : String)
  | repeatedMember (name : String)
  | unknownWord (word : String) (choices : List String)
  | noAlternative (name : String)

/-- The words that may stand somewhere, as a message lists them. -/
def describeChoices : List String → String
  | [] => "there are no variants"
  | [a] => "expected `" ++ a ++ "`"
  | [a, b] => "expected `" ++ a ++ "` or `" ++ b ++ "`"
  | choices => "expected one of " ++ ", ".intercalate (choices.map fun c => "`" ++ c ++ "`")

/-- The message of a cause, without its place. -/
def Cause.message : Cause → String
  | endWithin part => "EOF while parsing " ++ part.describe
  | expectedColon => "expected `:`"
  | expectedItemOrEnd => "expected `,` or `]`"
  | expectedMemberOrEnd => "expected `,` or `\x7d`"
  | expectedWord => "expected ident"
  | expectedValue => "expected value"
  | invalidEscape => "invalid escape"
  | invalidNumber => "invalid number"
  | numberOutOfRange => "number out of range"
  | invalidCharacter => "invalid unicode code point"
  | controlCharacter => "control character (\\u0000-\\u001F) found while parsing a string"
  | memberWithoutName => "key must be a string"
  | loneSurrogate => "lone leading surrogate in hex escape"
  | unfinishedSurrogates => "unexpected end of hex escape"
  | trailingComma => "trailing comma"
  | trailingCharacters => "trailing characters"
  | tooDeep => "recursion limit exceeded"
  | wrongType found expected => "invalid type: " ++ found.describe ++ ", expected " ++ expected
  | wrongValue found expected => "invalid value: " ++ found.describe ++ ", expected " ++ expected
  | wrongLength length expected =>
    "invalid length " ++ String.ofList (Decimal.digits length) ++ ", expected " ++ expected
  | missingMember name => "missing field `" ++ name ++ "`"
  | repeatedMember name => "duplicate field `" ++ name ++ "`"
  | unknownWord word choices => "unknown variant `" ++ word ++ "`, " ++ describeChoices choices
  | noAlternative name => "data did not match any variant of untagged enum " ++ name

/-- What is still to be read of a document. -/
abbrev Input := List Text.Piece

/-- Why and where the reading of a document failed: what was not yet read then, less so many of its
bytes. -/
structure Failure where
  /-- Why the reading failed. -/
  cause : Cause
  /-- What was not yet read. -/
  rest : Input
  /-- The number of bytes of the rest that count as read. -/
  beyond : Nat

/-- The number of bytes of an input. -/
def byteSize : Input → Nat
  | [] => 0
  | p :: rest => p.byteSize + byteSize rest

/-- The bytes of a piece. -/
def pieceBytes : Text.Piece → List UInt8
  | .char c => String.utf8EncodeChar c
  | .malformed bytes => bytes

/-- A place in a document: its line, counted from 1, and the number of bytes before it on the
line. -/
structure Place where
  line : Nat
  column : Nat
  deriving DecidableEq, Repr

/-- The place behind some bytes. -/
def Place.after (bytes : List UInt8) : Place where
  line := bytes.count 10 + 1
  column := (bytes.reverse.takeWhile (· != 10)).length

/-- The place of a failure in the document it comes from. -/
def Failure.place (f : Failure) (document : Input) : Place :=
  let read := byteSize document - byteSize f.rest + f.beyond
  .after ((document.flatMap pieceBytes).take read)

/-- The message of a failure in the document it comes from. -/
def Failure.message (f : Failure) (document : Input) : String :=
  let place := f.place document
  f.cause.message ++ " at line " ++ String.ofList (Decimal.digits place.line) ++ " column " ++
    String.ofList (Decimal.digits place.column)

end CoverageEstimate.Json

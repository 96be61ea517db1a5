/-
# Responses of an external parser

An external parser answers with one JSON document on its standard output: either the facts of one
file, or an object with the member `error`.  A document that could be read as both is an error.
-/
import CoverageEstimate.Report.Document

namespace CoverageEstimate

open Json

/-- What an external parser finds in a file. -/
structure ParserOutput where
  /-- The definitions, with spans that have not been checked. -/
  functions : List FunctionDefinition
  /-- The names of calls. -/
  testCalls : List String
  /-- The names that titles mention. -/
  testMentions : List String
  deriving DecidableEq, Repr, Inhabited

namespace ParserOutput

/-- The shape of the facts of one file. -/
def shape : Shape :=
  .record "ParserOutput"
    (.field "functions" .required (.list FunctionDefinition.shape) <|
      .field "testCalls" (.default (.list [])) (.list .text) <|
      .field "testMentions" (.default (.list [])) (.list .text) .none)
    .none

/-- The facts of a value in the normal form of the shape. -/
def ofValue : Value → ParserOutput
  | .object [(_, functions), (_, calls), (_, mentions)] =>
    ⟨(itemsOf functions).map FunctionDefinition.ofValue, (itemsOf calls).map textOf,
      (itemsOf mentions).map textOf⟩
  | _ => default

/-- The facts of a text, or why it holds none. -/
def ofJson (text : String) : Except Failure ParserOutput :=
  (shape.readDocument (Text.piecesOf text)).map ofValue

/-- The definitions with spans that can exist, in the order of the parser. -/
def validFunctions (o : ParserOutput) : List FunctionDefinition :=
  o.functions.filter (·.hasValidSpan)

/-- The signals as the parser gives them: its mentions are not cut into words. -/
def signals (o : ParserOutput) : Signals :=
  ⟨NameSet.ofList o.testCalls, NameSet.ofList o.testMentions⟩

end ParserOutput

/-- A response of an external parser that is a document. -/
inductive ParserResponse where
  /-- The parser could not read the file. -/
  | failure (message : String)
  /-- The facts of the file. -/
  | success (output : ParserOutput)
  deriving DecidableEq, Repr, Inhabited

namespace ParserResponse

/-- The shape of a response that reports an error. -/
def failureShape : Shape := .record "Failure" (.field "error" .required .text .none) .none

/-- The message of a value that reports an error.  Such a value is an object. -/
def failureOf? (v : Value) : Option String :=
  match v with
  | .object _ =>
    match failureShape.normalize v with
    | .ok (.object [(_, .text message)]) => some message
    | _ => none
  | _ => none

/-- The response that a value is, if it is one.  An error is looked for first. -/
def ofValue? (v : Value) : Option ParserResponse :=
  match failureOf? v with
  | some message => some (failure message)
  | none =>
    match ParserOutput.shape.normalize v with
    | .ok v => some (success (ParserOutput.ofValue v))
    | .error _ => none

/-- The response on a standard output, or a message that says why there is none. -/
def ofBytes (bytes : List UInt8) : Except String ParserResponse :=
  let document := Text.pieces bytes
  match readDocument document with
  | .error f => .error (f.message document)
  | .ok v =>
    match ofValue? v with
    | some response => .ok response
    | none => .error (Cause.noAlternative "ParserResponse").message

end ParserResponse

end CoverageEstimate

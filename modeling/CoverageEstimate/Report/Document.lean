/-
# Documents of the domain

How definitions, file records and reports are written as documents, and how documents are read
back.  Each type has a shape and two conversions; the shape decides which documents can be read.
-/
import CoverageEstimate.Json.Printer
import CoverageEstimate.Json.Shape
import CoverageEstimate.Report

namespace CoverageEstimate

open Json

/-- A text, or null. -/
def optionalText : Option String → Value
  | some s => .text s
  | none => .null

/-- The text of a value that is a text, and otherwise none. -/
def textOf? : Value → Option String
  | .text s => some s
  | _ => none

/-- The text of a value that is a text. -/
def textOf (v : Value) : String := (textOf? v).getD ""

/-- The natural number of a value that is one. -/
def naturalOf : Value → Nat
  | .number (.natural n) => n
  | _ => 0

/-- The whole number of a value that is one. -/
def integerOf : Value → Int
  | .number (.natural n) => n
  | .number (.negative n) => -(n : Int)
  | _ => 0

/-- The double of a value that is one. -/
def realOf : Value → Float
  | .number (.real x) => x
  | _ => 0

/-- The truth value of a value that is one. -/
def flagOf : Value → Bool
  | .flag b => b
  | _ => false

/-- The items of a value that is a list. -/
def itemsOf : Value → List Value
  | .list items => items
  | _ => []

/-- A natural number as a value. -/
def naturalValue (n : Nat) : Value := .number (.natural n)

/-- A whole number as a value. -/
def integerValue (n : Int) : Value :=
  match n with
  | .ofNat k => .number (.natural k)
  | .negSucc k => .number (.negative (k + 1))

/-- A double as a value. -/
def realValue (x : Float) : Value := .number (.real x)

/-- The words for the kinds of functions. -/
def kindWords : List String := FunctionKind.all.map FunctionKind.word

/-- The kind that a value names. -/
def kindOf (v : Value) : FunctionKind := (FunctionKind.ofWord? (textOf v)).getD .function

/-! ## Function definitions -/

namespace FunctionDefinition

/-- The shape of a definition. -/
def shape : Shape :=
  .record "FunctionDefinition"
    (.field "name" .required .text <|
      .field "startLine" .required (.natural "usize") <|
      .field "endLine" .required (.natural "usize") <|
      .field "signature" .required .text <|
      .field "type" .required (.choice kindWords) <|
      .field "className" (.default .null) (.optional .text) .none)
    .none

/-- The definition of a value in the normal form of the shape. -/
def ofValue : Value → FunctionDefinition
  | .object [(_, name), (_, startLine), (_, endLine), (_, signature), (_, kind), (_, owner)] =>
    ⟨textOf name, naturalOf startLine, naturalOf endLine, textOf signature, kindOf kind,
      textOf? owner⟩
  | _ => default

/-- The document of a definition.  The class is left out when there is none. -/
def toValue (d : FunctionDefinition) : Value :=
  .object <|
    [("name", .text d.name), ("startLine", naturalValue d.startLine),
      ("endLine", naturalValue d.endLine), ("signature", .text d.signature),
      ("type", .text d.kind.word)] ++
    d.enclosingType.toList.map fun owner => ("className", .text owner)

end FunctionDefinition

/-! ## File records -/

namespace FileRecord

/-- The shape of a file record. -/
def shape : Shape :=
  .record "FileRecord"
    (.field "relativePath" .required .text <|
      .field "sizeBytes" .required (.natural "u64") <|
      .field "extension" .required .text .none)
    .none

/-- The record of a value in the normal form of the shape. -/
def ofValue : Value → FileRecord
  | .object [(_, path), (_, size), (_, extension)] =>
    ⟨textOf path, naturalOf size, textOf extension⟩
  | _ => default

/-- The document of a file record. -/
def toValue (r : FileRecord) : Value :=
  .object [("relativePath", .text r.relativePath), ("sizeBytes", naturalValue r.sizeBytes),
    ("extension", .text r.extension)]

end FileRecord

/-! ## Coverages -/

namespace Evidence

/-- The fields of evidence, which stand among those of the function. -/
def fields : Fields :=
  .field "isCalled" .required .flag <|
    .field "isMentioned" .required .flag <|
    .field "isTextMatch" .required .flag <|
    .field "score" .required .integer32 .none

/-- The members of evidence. -/
def toMembers (e : Evidence) : List (String × Value) :=
  [("isCalled", .flag e.isCalled), ("isMentioned", .flag e.isMentioned),
    ("isTextMatch", .flag e.isTextMatch), ("score", integerValue e.score)]

end Evidence

namespace FunctionCoverage

/-- The shape of the coverage of a function. -/
def shape : Shape :=
  .record "FunctionCoverage"
    (.field "functionName" .required .text <|
      .field "startLine" .required (.natural "usize") <|
      .field "endLine" .required (.natural "usize") <|
      .field "type" .required (.choice kindWords) <|
      .field "className" (.default .null) (.optional .text) <|
      .field "covered" .required .flag .none)
    Evidence.fields

/-- The coverage of a value in the normal form of the shape. -/
def ofValue : Value → FunctionCoverage
  | .object [(_, name), (_, startLine), (_, endLine), (_, kind), (_, owner), (_, covered),
      (_, isCalled), (_, isMentioned), (_, isTextMatch), (_, score)] =>
    ⟨textOf name, naturalOf startLine, naturalOf endLine, kindOf kind, textOf? owner,
      ⟨flagOf isCalled, flagOf isMentioned, flagOf isTextMatch, integerOf score⟩, flagOf covered⟩
  | _ => default

/-- The document of the coverage of a function. -/
def toValue (f : FunctionCoverage) : Value :=
  .object <|
    [("functionName", .text f.functionName), ("startLine", naturalValue f.startLine),
      ("endLine", naturalValue f.endLine), ("type", .text f.kind.word)] ++
    (f.className.toList.map fun owner => ("className", .text owner)) ++
    f.evidence.toMembers ++ [("covered", .flag f.covered)]

end FunctionCoverage

namespace FileCoverage

/-- The shape of the coverage of a file. -/
def shape : Shape :=
  .record "FileCoverage"
    (.field "file" .required .text <|
      .field "pairedTestFile" .orNull (.optional .text) <|
      .field "functions" .required (.list FunctionCoverage.shape) <|
      .field "coveragePercentage" .required .real <|
      .field "language" .required .text .none)
    .none

/-- The coverage of a value in the normal form of the shape. -/
def ofValue : Value → FileCoverage
  | .object [(_, file), (_, test), (_, functions), (_, percentage), (_, language)] =>
    ⟨textOf file, textOf? test, (itemsOf functions).map FunctionCoverage.ofValue,
      realOf percentage, textOf language⟩
  | _ => default

/-- The document of the coverage of a file. -/
def toValue (f : FileCoverage) : Value :=
  .object [("file", .text f.file), ("pairedTestFile", optionalText f.pairedTestFile),
    ("functions", .list (f.functions.map FunctionCoverage.toValue)),
    ("coveragePercentage", realValue f.coveragePercentage), ("language", .text f.language)]

end FileCoverage

/-! ## Reports -/

namespace Summary

/-- The shape of the totals. -/
def shape : Shape :=
  .record "Summary"
    (.field "totalSourceFiles" .required (.natural "usize") <|
      .field "analyzedFiles" .required (.natural "usize") <|
      .field "testFiles" .required (.natural "usize") <|
      .field "overallCoveragePercentage" .required .real <|
      .field "totalFunctions" .required (.natural "usize") <|
      .field "coveredFunctions" .required (.natural "usize") .none)
    .none

/-- The totals of a value in the normal form of the shape. -/
def ofValue : Value → Summary
  | .object [(_, sources), (_, analyzed), (_, tests), (_, overall), (_, total), (_, covered)] =>
    ⟨naturalOf sources, naturalOf analyzed, naturalOf tests, realOf overall, naturalOf total,
      naturalOf covered⟩
  | _ => default

/-- The document of the totals. -/
def toValue (s : Summary) : Value :=
  .object [("totalSourceFiles", naturalValue s.totalSourceFiles),
    ("analyzedFiles", naturalValue s.analyzedFiles), ("testFiles", naturalValue s.testFiles),
    ("overallCoveragePercentage", realValue s.overallCoveragePercentage),
    ("totalFunctions", naturalValue s.totalFunctions),
    ("coveredFunctions", naturalValue s.coveredFunctions)]

end Summary

namespace Report

/-- The shape of a report. -/
def shape : Shape :=
  .record "AnalysisReport"
    (.field "summary" .required Summary.shape <|
      .field "details" .required (.list FileCoverage.shape) .none)
    .none

/-- The report of a value in the normal form of the shape. -/
def ofValue : Value → Report
  | .object [(_, summary), (_, details)] =>
    ⟨Summary.ofValue summary, (itemsOf details).map FileCoverage.ofValue⟩
  | _ => default

/-- The document of a report. -/
def toValue (r : Report) : Value :=
  .object [("summary", r.summary.toValue), ("details", .list (r.details.map FileCoverage.toValue))]

/-- The text of a report as a document. -/
def toJson (r : Report) : String := r.toValue.print

/-- The report of a text, or why it is none. -/
def ofJson (text : String) : Except Failure Report :=
  (shape.readDocument (Text.piecesOf text)).map ofValue

end Report

end CoverageEstimate

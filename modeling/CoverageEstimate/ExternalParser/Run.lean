/-
# Running an external parser

A parser is a program with arguments, which are followed by the path of the file.  Its answer counts
only when it ends by itself, in time and with success.
-/
import CoverageEstimate.Analysis
import CoverageEstimate.ExternalParser.Process
import CoverageEstimate.ExternalParser.Response

namespace CoverageEstimate

/-- An external parser. -/
structure ExternalParser where
  program : String
  arguments : List String
  /-- How long it may take for one file, in milliseconds. -/
  limit : Nat
  deriving DecidableEq, Repr, Inhabited

namespace ExternalParser

/-- The limit where none is given: half a minute. -/
def defaultLimit : Nat := 30 * 1000

/-- The time between two looks at a process, in milliseconds. -/
def pollInterval : Nat := 50

/-- The number of the look at which a moment has been reached. -/
def pollNumber (time : Nat) : Nat := (time + pollInterval - 1) / pollInterval

/-- The looks at a process until the wait for it ends, when nobody gives up the analysis. -/
def polls (process : ParserProcess) (limit : Nat) : List Supervision.Poll :=
  let last := match process.status with
    | some _ => min (pollNumber process.duration) (pollNumber limit)
    | none => pollNumber limit
  (List.range (last + 1)).map fun k =>
    { sight := match process.status with
        | some status => if process.duration ≤ k * pollInterval then .ended status else .running
        | none => .running
      isCancelled := false
      isOverdue := limit ≤ k * pollInterval }

/-- The answer of a process whose output is complete. -/
def decode (path : String) (output : List UInt8) (errors : String) :
    Except AnalysisError ParserOutput :=
  match ParserResponse.ofBytes output with
  | .ok (.success facts) => .ok facts
  | .ok (.failure message) => .error (.parserFailed path message errors)
  | .error message => .error (.parserFailed path ("invalid parser output: " ++ message) errors)

/-- The answer of a process, by the reason for which the wait for it has ended. -/
def answer (path : String) (limit : Nat) (output errors : List UInt8) :
    Supervision.Outcome → Except AnalysisError ParserOutput
  | .lost reason =>
    .error (.parserFailed path ("waiting for parser: " ++ reason) (Text.shownBytes errors))
  | .timedOut => .error (.timedOut path limit (Text.shownBytes errors))
  | .cancelled => .error (.cancelled path)
  | .ended status =>
    if status.isSuccess then decode path output (Text.shownBytes errors)
    else .error (.parserFailed path ("parser exited with " ++ status.message)
      (Text.shownBytes errors))

/-- The answer of a process that has been started, by the looks at it, and all that is done to it until
its output has been collected.  There is no answer when the looks do not suffice. -/
def conclude (path : String) (limit : Nat) (output errors : List UInt8)
    (looks : List Supervision.Poll) :
    Option (Except AnalysisError ParserOutput × List Supervision.Action) :=
  match Supervision.supervise looks with
  | some (outcome, actions) => some (answer path limit output errors outcome, actions)
  | none => none

/-- The path that is given to the parser for a path below a working directory. -/
def target (workingDirectory path : String) : String :=
  if path = "" then path else Path.absolute workingDirectory path

/-- The facts that the parser finds in the file at a path.  Nothing is started when the analysis has
been given up before. -/
def parseFile (parser : ExternalParser) (files : FileSystem) (isCancelled : Bool) (path : String) :
    Except AnalysisError ParserOutput :=
  if isCancelled then .error (.cancelled path)
  else
    let arguments := parser.arguments ++ ["--file", target files.workingDirectory path]
    let deadline := pollNumber parser.limit * pollInterval
    match ParserProcess.start files deadline parser.program arguments with
    | .error reason =>
      .error (.parserFailed path ("cannot start " ++ parser.program ++ ": " ++ reason) "")
    | .ok process =>
      match conclude path parser.limit process.output process.errors
          (polls process parser.limit) with
      | some (answer, _) => answer
      | none => .error (.timedOut path parser.limit (Text.shownBytes process.errors))

end ExternalParser

end CoverageEstimate

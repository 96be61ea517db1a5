/-
# Analyses of a file

An analyzer of a language finds the functions that a source file defines and the signals that a
test file gives.  It may fail, and a failure concerns one file only.
-/
import CoverageEstimate.Definition
import CoverageEstimate.FileSystem.FileError
import CoverageEstimate.Language
import CoverageEstimate.Signals
import CoverageEstimate.Text.Duration

namespace CoverageEstimate

/-- Why the analysis of a file fails. -/
inductive AnalysisError where
  /-- The file cannot be read. -/
  | unreadable (path : String) (error : FileError)
  /-- The external parser fails; `diagnostics` is what it has written to its standard error. -/
  | parserFailed (path message diagnostics : String)
  /-- The external parser takes longer than `limit` milliseconds. -/
  | timedOut (path : String) (limit : Nat) (diagnostics : String)
  /-- The analysis is given up on request. -/
  | cancelled (path : String)
  deriving DecidableEq, Repr, Inhabited

namespace AnalysisError

/-- The text that messages give for the failure. -/
def message : AnalysisError → String
  | unreadable path error => "cannot read " ++ path ++ ": " ++ error.message
  | parserFailed path message _ => "external parser failed on " ++ path ++ ": " ++ message
  | timedOut path limit _ =>
    "external parser timed out after " ++ Text.durationText limit ++ " on " ++ path
  | cancelled path => "analysis of " ++ path ++ " was cancelled"

/-- What the external parser has written to its standard error, without blanks around it, unless
that leaves nothing. -/
def diagnostics? : AnalysisError → Option String
  | parserFailed _ _ text => shown text
  | timedOut _ _ text => shown text
  | _ => none
where
  shown (text : String) : Option String :=
    let text := Text.trim text.toList
    if text.isEmpty then none else some (String.ofList text)

/-- The warning that a failure leaves: its message, and the diagnostics on the lines behind it.  An
analysis that is given up leaves none. -/
def warning? (e : AnalysisError) : Option String :=
  match e with
  | cancelled _ => none
  | _ =>
    match e.diagnostics? with
    | some text => some (e.message ++ "\n" ++ text)
    | none => some e.message

end AnalysisError

/-- What analyzes the files of a language.  The content of a file is given where it is known; an
empty one counts as not known. -/
structure Analyzer where
  /-- The language of the files. -/
  language : Language
  /-- The functions that a source file defines, in their order. -/
  functions : (content : Option String) → (path : String) →
    Except AnalysisError (List FunctionDefinition)
  /-- The signals of a test file. -/
  signals : (content : Option String) → (path : String) → Except AnalysisError Signals

namespace Analyzer

/-- Whether the analyzer handles files of an extension, which may be given with its dot. -/
def handles (a : Analyzer) (extension : String) : Bool :=
  a.language.extensions.contains (Language.withoutDot extension)

/-- The first analyzer that handles a file. -/
def forPath? (analyzers : List Analyzer) (path : String) : Option Analyzer :=
  (Path.extension? path).bind fun extension => analyzers.find? (·.handles extension)

end Analyzer

/-- The text of a file: the content if it is known, and otherwise what reading the path gives. -/
def sourceText (readText : String → Except FileError String) (content : Option String)
    (path : String) : Except AnalysisError String :=
  match content with
  | some text => if text = "" then read else .ok text
  | none => read
where
  read : Except AnalysisError String :=
    match readText path with
    | .ok text => .ok text
    | .error e => .error (.unreadable path e)

end CoverageEstimate

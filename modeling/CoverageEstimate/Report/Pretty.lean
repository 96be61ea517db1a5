/-
# Reports for readers

A report for a reader says what was analyzed and whether the coverage suffices, lists the files,
on request with their functions, and ends in counts.  Percentages are coloured by how high they
are.
-/
import CoverageEstimate.Decimal.Fixed
import CoverageEstimate.Report
import CoverageEstimate.Text.Styled

namespace CoverageEstimate

open Text (Span Style padLeft padRight)

/-- The name of the program. -/
def programName : String := "sentinel"

/-- The version of the program. -/
def programVersion : String := "0.1.0"

/-- What a report for a reader is about. -/
structure ReportHeading where
  /-- The path that was analyzed, as it was given. -/
  path : String
  /-- The path of the configuration, if it comes from a file. -/
  configPath : Option String
  /-- Whether the functions are listed. -/
  isVerbose : Bool
  /-- The coverage that is asked for. -/
  minimum : Option Float

namespace Report

/-- The colour of a percentage. -/
def percentageStyle (x : Float) : Style :=
  if 80 ≤ x then .boldColoured .green
  else if 60 ≤ x then .coloured .green
  else if 40 ≤ x then .coloured .yellow
  else if 0 < x then .boldColoured .yellow
  else .coloured .red

/-- A percentage with two places. -/
def percentageText (x : Float) : String := Decimal.fixedText x ++ "%"

/-- A percentage in its colour. -/
def percentageSpan (x : Float) : Span := .styled (percentageStyle x) (percentageText x)

/-- A piece of text in the colour of success or failure. -/
def verdictSpan (isGood : Bool) (good bad : String) : Span :=
  if isGood then .styled (.coloured .green) good else .styled (.coloured .red) bad

/-- The lines about what was analyzed. -/
def headingSpans (h : ReportHeading) : List Span :=
  [.plain "\n  ", .styled (.boldColoured .cyan) programName, .plain (" v" ++ programVersion),
    .plain "\n\n  ", .styled .dimmed "Scanning: ", .plain h.path,
    .plain "\n  ", .styled .dimmed "Config:   ", .plain (h.configPath.getD "(defaults)"),
    .plain "\n\n"]

/-- The line that says whether the coverage suffices. -/
def resultSpans (r : Report) (minimum : Option Float) : List Span :=
  let counts := "(" ++ toString r.summary.coveredFunctions ++ "/" ++
    toString r.summary.totalFunctions ++ " functions)"
  [.plain "  ", verdictSpan (r.meets minimum) "✓ PASS" "✗ FAIL", .plain "  Coverage: ",
    percentageSpan r.summary.overallCoveragePercentage, .plain "  ", .styled .dimmed counts,
    .plain "\n"]

/-- The words for the evidence for a function.  An occurrence counts only where there is nothing
better. -/
def evidenceWords (e : Evidence) : List String :=
  let better := (if e.isCalled then ["called"] else []) ++
    (if e.isMentioned then ["mentioned"] else [])
  if e.isTextMatch && better.isEmpty then ["text"] else better

/-- The line of a function. -/
def functionSpans (f : FunctionCoverage) : List Span :=
  let name := match f.className with
    | some owner => owner ++ "." ++ f.functionName
    | none => f.functionName
  let score := padLeft 3 (toString f.evidence.score)
  let words := evidenceWords f.evidence
  [.plain "        ", verdictSpan f.covered score score, .plain ("  " ++ padRight 32 name),
    .styled .dimmed (toString f.startLine ++ "-" ++ toString f.endLine)] ++
    (if words.isEmpty then []
      else [.plain "  ", .styled .dimmed (", ".intercalate words)]) ++
    [.plain "\n"]

/-- The line of a file, with those of its functions on request. -/
def fileSpans (isVerbose : Bool) (f : FileCoverage) : List Span :=
  [.plain "    ", percentageSpan f.coveragePercentage, .plain "  ",
    .styled (.coloured .blue) f.file] ++
    (match f.pairedTestFile with
      | some test => [.styled .dimmed ("  <- " ++ test)]
      | none => [.plain "  ", .styled (.coloured .yellow) "(no test file)"]) ++
    [.plain "\n"] ++
    (if isVerbose then f.functions.flatMap functionSpans ++ [.plain "\n"] else [])

/-- The lines of the files, if there are any. -/
def filesSpans (isVerbose : Bool) (files : List FileCoverage) : List Span :=
  if files.isEmpty then []
  else
    [.plain "  ", .styled .bold "Files", .plain (" (" ++ toString files.length ++ "):\n\n")] ++
      files.flatMap (fileSpans isVerbose) ++ [.plain "\n"]

/-- The lines of the counts. -/
def countSpans (s : Summary) : List Span :=
  let line (name : String) (n : Nat) : Span :=
    .plain ("    " ++ padRight 16 name ++ " " ++ padLeft 6 (toString n) ++ "\n")
  [.plain "  ", .styled .bold "Summary:", .plain "\n",
    line "source files" s.totalSourceFiles, line "analyzed files" s.analyzedFiles,
    line "test files" s.testFiles, line "functions" s.totalFunctions,
    line "covered" s.coveredFunctions]

/-- The line about the coverage that is asked for. -/
def minimumSpans (r : Report) (minimum : Float) : List Span :=
  [.plain "  ", .styled .dimmed ("Minimum: " ++ percentageText minimum), .plain "  Coverage: ",
    percentageSpan r.summary.overallCoveragePercentage, .plain "  ",
    verdictSpan (r.meets (some minimum)) "PASSED" "FAILED", .plain "\n"]

/-- The report for a reader. -/
def prettySpans (r : Report) (h : ReportHeading) : List Span :=
  headingSpans h ++ r.resultSpans h.minimum ++ [.plain "\n"] ++
    filesSpans h.isVerbose r.details ++ countSpans r.summary ++ [.plain "\n"] ++
    (match h.minimum with
      | some minimum => r.minimumSpans minimum ++ [.plain "\n"]
      | none => [])

/-- The text of the report for a reader. -/
def pretty (r : Report) (h : ReportHeading) (showsStyles : Bool) : String :=
  Text.renderSpans showsStyles (r.prettySpans h)

end Report

end CoverageEstimate

/-
# Reports

The result of one analysis of a project: the coverage of each source file with functions, and the
totals.
-/
import CoverageEstimate.FileRecord
import CoverageEstimate.Score

namespace CoverageEstimate

/-- The totals of a report. -/
structure Summary where
  totalSourceFiles : Nat
  /-- The source files with functions. -/
  analyzedFiles : Nat
  testFiles : Nat
  overallCoveragePercentage : Float
  totalFunctions : Nat
  coveredFunctions : Nat
  deriving Inhabited

/-- The result of an analysis. -/
structure Report where
  summary : Summary
  details : List FileCoverage
  deriving Inhabited

namespace Report

/-- The sum of a count over some files. -/
def totalOver (count : FileCoverage → Nat) : List FileCoverage → Nat
  | [] => 0
  | f :: rest => count f + totalOver count rest

/-- The report on a number of source files and test files with the given coverages. -/
def ofCounts (sourceFiles testFiles : Nat) (details : List FileCoverage) : Report where
  summary := {
    totalSourceFiles := sourceFiles
    analyzedFiles := details.length
    testFiles := testFiles
    overallCoveragePercentage := overallCoverage details
    totalFunctions := totalOver (fun f => f.functions.length) details
    coveredFunctions := totalOver (fun f => coveredCount f.functions) details }
  details := details

/-- The report on the files of a scan. -/
def ofScan (scan : ScanResult) (details : List FileCoverage) : Report :=
  ofCounts scan.sourceFiles.length scan.testFiles.length details

/-- Whether the overall coverage reaches a minimum; it always does when there is none. -/
def meets (r : Report) (minimum : Option Float) : Bool :=
  match minimum with
  | some m => m ≤ r.summary.overallCoveragePercentage
  | none => true

end Report

end CoverageEstimate

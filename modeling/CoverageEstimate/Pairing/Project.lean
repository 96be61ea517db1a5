/-
# The coverage of a project

Each source file is scored against the test that belongs to it.  A test that several sources share
is read and analyzed once.  A test that cannot be read leaves its sources without one; a test that
cannot be analyzed leaves them with its text alone; and a source that cannot be analyzed, or that
defines no function, does not show in the result.
-/
import CoverageEstimate.Analysis
import CoverageEstimate.Pairing.Index
import CoverageEstimate.Report
import CoverageEstimate.Scan

namespace CoverageEstimate

/-- What the coverage of a project is found from: where the project is, how its files are read and
what analyzes them. -/
structure Project where
  /-- The path of its directory. -/
  root : String
  /-- The text of the file at a path. -/
  readText : String → Except FileError String
  /-- What analyzes its files. -/
  analyzers : List Analyzer
  /-- Whether the analysis has been given up. -/
  isCancelled : Bool

/-- What a test says about the functions of its sources. -/
structure TestEvidence where
  signals : Signals
  text : String
  deriving Inhabited

/-- A result together with the warnings on the way to it. -/
structure Warned (α : Type) where
  result : α
  warnings : List String
  deriving Inhabited

namespace Project

/-- The path of a file of the project. -/
def pathOf (p : Project) (r : FileRecord) : String := Path.join p.root r.relativePath

/-- The warning for a test that cannot be read. -/
def unreadableTest (test : FileRecord) (e : FileError) : String :=
  "cannot read test file " ++ test.relativePath ++ ", treating its sources as unpaired: " ++
    e.message

/-- The evidence of a test, unless it cannot be read. -/
def evidence (p : Project) (test : FileRecord) : Warned (Option TestEvidence) :=
  if p.isCancelled then ⟨none, []⟩
  else
    match p.readText (p.pathOf test) with
    | .error e => ⟨none, [unreadableTest test e]⟩
    | .ok text =>
      match Analyzer.forPath? p.analyzers (p.pathOf test) with
      | none => ⟨some ⟨∅, text⟩, []⟩
      | some analyzer =>
        match analyzer.signals (some text) (p.pathOf test) with
        | .ok signals => ⟨some ⟨signals, text⟩, []⟩
        | .error e => ⟨some ⟨∅, text⟩, e.warning?.toList⟩

/-- The coverage of a definition against the evidence of a test, if there is one. -/
def functionCoverage (test : Option TestEvidence) (d : FunctionDefinition) : FunctionCoverage :=
  .ofDefinition d <|
    match test with
    | some e => scoreFunction d.name e.signals e.text.toList
    | none => .uncovered

/-- The coverage of a source file with some definitions. -/
def coverageOf (source : FileRecord) (language : Language) (test : Option (String × TestEvidence))
    (definitions : List FunctionDefinition) : FileCoverage :=
  let functions := definitions.map (functionCoverage (test.map (·.2)))
  { file := source.relativePath
    pairedTestFile := test.map (·.1)
    functions
    coveragePercentage := coveragePercentage functions
    language := language.displayName }

/-- The coverage of a source file, unless it does not show in the result.  `test` is the path of its
test and the evidence of it. -/
def fileCoverage (p : Project) (source : FileRecord) (test : Option (String × TestEvidence)) :
    Warned (Option FileCoverage) :=
  if p.isCancelled then ⟨none, []⟩
  else
    match Analyzer.forPath? p.analyzers (p.pathOf source) with
    | none => ⟨none, []⟩
    | some analyzer =>
      match analyzer.functions none (p.pathOf source) with
      | .error e => ⟨none, e.warning?.toList⟩
      | .ok [] => ⟨none, []⟩
      | .ok (d :: ds) => ⟨some (coverageOf source analyzer.language test (d :: ds)), []⟩

/-- Tests without those whose path is the one of a test before them. -/
def distinctTests : List FileRecord → List FileRecord
  | [] => []
  | t :: rest =>
    t :: (distinctTests rest).filter fun other => other.relativePath != t.relativePath

/-- The evidence of a path among those that have been loaded. -/
def loadedEvidence (loaded : List (String × Option TestEvidence)) (path : String) :
    Option (String × TestEvidence) :=
  match loaded.find? fun l => l.1 == path with
  | some (_, some e) => some (path, e)
  | _ => none

/-- Files in the order of their paths. -/
def sortedByPath (files : List FileCoverage) : List FileCoverage :=
  files.mergeSort fun a b => decide (a.file ≤ b.file)

/-- The coverage of the sources of a scan, in the order of their paths. -/
def coverage (p : Project) (scan : ScanResult) : Warned (List FileCoverage) :=
  let index := TestIndex.ofTests scan.testFiles
  let pairs := scan.sourceFiles.map fun source => (source, index.find? source)
  let tests := (distinctTests (pairs.filterMap (·.2))).map fun t => (t.relativePath, p.evidence t)
  let loaded := tests.map fun t => (t.1, t.2.result)
  let files := pairs.map fun pair =>
    p.fileCoverage pair.1 (pair.2.bind fun t => loadedEvidence loaded t.relativePath)
  ⟨sortedByPath (files.filterMap (·.result)),
    tests.flatMap (·.2.warnings) ++ files.flatMap (·.warnings)⟩

/-- The report on a scanned project. -/
def report (p : Project) (scan : ScanResult) : Warned Report :=
  let c := p.coverage scan
  ⟨Report.ofScan scan c.result, c.warnings⟩

/-- The report on what a scan of the project's directory finds, unless that cannot be scanned. -/
def run (p : Project) (files : FileSystem) (exclusions : Exclusions) :
    Except Scan.Fault (Warned Report) :=
  match files.scan exclusions p.root with
  | .error fault => .error fault
  | .ok scan => .ok (p.report scan)

end Project

end CoverageEstimate

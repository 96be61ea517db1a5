/-
# Reports are well formed

The report on a project agrees with itself and with the scan it is made from: its entries are
sources of the scan, each with functions whose lines exist and whose scores follow from their
evidence, and its totals are those of its entries.

This holds for every tree of files, with either way to read Dart files, and whatever an external
parser answers: a span that cannot exist is dropped where the answer comes in.  The parser of
TypeScript files is left open too, but for this that no node ends before it starts.
-/
import CoverageEstimate.Analyzers
import CoverageEstimate.Proofs.Dart.Extents
import CoverageEstimate.Proofs.Pairing.Grouping
import CoverageEstimate.Proofs.Pairing.Sharing
import CoverageEstimate.Proofs.Results
import CoverageEstimate.Proofs.Scan.Pruning
import CoverageEstimate.Proofs.TypeScript.ParseTree
import CoverageEstimate.Proofs.TypeScript.Spans

namespace CoverageEstimate

open FunctionDefinition (HasSpan)
open TypeScript (Node Source)

/-! ## What a report promises -/

/-- The line of a report on one function: its lines exist, its score follows from its evidence, and
it is covered when that is positive. -/
structure FunctionCoverage.WellFormed (f : FunctionCoverage) : Prop where
  one_le_startLine : 1 ≤ f.startLine
  startLine_le_endLine : f.startLine ≤ f.endLine
  score_eq : f.evidence.score =
    50 * f.evidence.isCalled.toInt + 30 * f.evidence.isMentioned.toInt +
      10 * (f.evidence.isTextMatch && !f.evidence.isCalled && !f.evidence.isMentioned).toInt
  score_mem : f.evidence.score ∈ [0, 10, 30, 50, 80]
  covered_iff : f.covered = true ↔ 0 < f.evidence.score

/-- The function has no evidence of any kind, and no points. -/
structure FunctionCoverage.Unsupported (f : FunctionCoverage) : Prop where
  isCalled : f.evidence.isCalled = false
  isMentioned : f.evidence.isMentioned = false
  isTextMatch : f.evidence.isTextMatch = false
  score : f.evidence.score = 0

/-- The entry of a report on one file of a scan: it is a source, it has functions, its test is a
test of the scan, and without a test there is no evidence. -/
structure FileCoverage.WellFormed (scan : ScanResult) (c : FileCoverage) : Prop where
  file_mem : c.file ∈ scan.sourceFiles.map (·.relativePath)
  functions_ne_nil : c.functions ≠ []
  functions : ∀ f ∈ c.functions, f.WellFormed
  unpaired : c.pairedTestFile = none → ∀ f ∈ c.functions, f.Unsupported
  paired : ∀ test ∈ c.pairedTestFile, test ∈ scan.testFiles.map (·.relativePath)

/-- The report on a scan: its entries are in strictly increasing order of their files, and its
totals are those of the scan and of the entries. -/
structure Report.WellFormed (scan : ScanResult) (r : Report) : Prop where
  increasing : r.details.Pairwise fun a b => a.file < b.file
  details : ∀ c ∈ r.details, c.WellFormed scan
  analyzedFiles : r.summary.analyzedFiles = r.details.length
  totalSourceFiles : r.summary.totalSourceFiles = scan.sourceFiles.length
  analyzed_le_total : r.summary.analyzedFiles ≤ r.summary.totalSourceFiles
  testFiles : r.summary.testFiles = scan.testFiles.length
  totalFunctions : r.summary.totalFunctions = (r.details.map fun c => c.functions.length).sum
  coveredFunctions : r.summary.coveredFunctions =
    (r.details.map fun c => c.functions.countP fun f => decide (0 < f.evidence.score)).sum

/-! ## Scores -/

namespace Evidence

lemma points_eq (a b c : Bool) :
    points a b c = 50 * a.toInt + 30 * b.toInt + 10 * (c && !a && !b).toInt := by
  cases a <;> cases b <;> cases c <;> rfl

lemma points_mem (a b c : Bool) : points a b c ∈ [0, 10, 30, 50, 80] := by
  cases a <;> cases b <;> cases c <;> decide

/-- The score is the points for the kinds of evidence that there are. -/
def IsScored (e : Evidence) : Prop := e.score = points e.isCalled e.isMentioned e.isTextMatch

lemma isScored_uncovered : uncovered.IsScored := rfl

lemma isScored_scoreFunction (name : String) (signals : Signals) (text : List Char) :
    (scoreFunction name signals text).IsScored := rfl

end Evidence

lemma FunctionCoverage.wellFormed_ofDefinition {d : FunctionDefinition} (hd : d.HasSpan)
    {e : Evidence} (he : e.IsScored) : (ofDefinition d e).WellFormed where
  one_le_startLine := hd.1
  startLine_le_endLine := hd.2
  score_eq := he.trans (Evidence.points_eq _ _ _)
  score_mem := by
    rw [ofDefinition, he]
    exact Evidence.points_mem _ _ _
  covered_iff := by simp [ofDefinition]

/-! ## The functions that the analyzers find -/

/-- What the analyzer finds in any file has lines that exist. -/
def Analyzer.FindsSpans (a : Analyzer) : Prop :=
  ∀ content path found, a.functions content path = .ok found → ∀ d ∈ found, d.HasSpan

lemma Analyzer.findsSpans_dartLines (readText : String → Except FileError String) :
    (dartLines readText).FindsSpans := by
  intro content path found h d hd
  obtain ⟨text, -, rfl⟩ := exists_of_map_eq_ok h
  obtain ⟨hspans, -⟩ := (Dart.functions_found text.toList).spans
  obtain ⟨hone, hle, -⟩ := hspans d hd
  exact ⟨hone, hle⟩

/-- Whatever the external parser answers, the spans that cannot exist are left out. -/
lemma Analyzer.findsSpans_dartParser (answer : String → Except AnalysisError ParserOutput) :
    (dartParser answer).FindsSpans := by
  intro content path found h d hd
  obtain ⟨output, -, rfl⟩ := exists_of_map_eq_ok h
  exact FunctionDefinition.hasValidSpan_iff.mp (List.mem_filter.mp hd).2

lemma Analyzer.findsSpans_typeScript {parse : Bool → Source → Node}
    (forward : ∀ markup source, (parse markup source).IsForward)
    (readText : String → Except FileError String) : (typeScript parse readText).FindsSpans := by
  intro content path found h d hd
  obtain ⟨text, -, rfl⟩ := exists_of_map_eq_ok h
  exact TypeScript.hasSpan_functions (forward _ _) hd

lemma Analyzer.findsSpans_builtIn {parse : Bool → Source → Node}
    (forward : ∀ markup source, (parse markup source).IsForward)
    (readText : String → Except FileError String)
    (answers : Option (String → Except AnalysisError ParserOutput)) :
    ∀ a ∈ builtIn readText parse answers, a.FindsSpans := by
  intro a ha
  rcases List.mem_cons.mp ha with rfl | ha
  · cases answers with
    | none => exact findsSpans_dartLines readText
    | some answer => exact findsSpans_dartParser answer
  · rw [List.mem_singleton.mp ha]
    exact findsSpans_typeScript forward readText

lemma Analyzer.mem_of_forPath? {analyzers : List Analyzer} {path : String} {a : Analyzer}
    (h : forPath? analyzers path = some a) : a ∈ analyzers := by
  obtain ⟨extension, -, ha⟩ := Option.bind_eq_some_iff.mp h
  exact List.mem_of_find?_eq_some ha

/-! ## The totals -/

lemma Report.totalOver_eq_sum (count : FileCoverage → Nat) (details : List FileCoverage) :
    totalOver count details = (details.map count).sum := by
  induction details with
  | nil => rfl
  | cons c rest ih => rw [totalOver, ih, List.map_cons, List.sum_cons]

/-- The covered functions of a well-formed entry are those with points. -/
lemma FileCoverage.WellFormed.coveredCount_eq {scan : ScanResult} {c : FileCoverage}
    (h : c.WellFormed scan) :
    coveredCount c.functions = c.functions.countP fun f => decide (0 < f.evidence.score) := by
  refine List.countP_congr fun f hf => ?_
  rw [decide_eq_true_eq]
  exact (h.functions f hf).covered_iff

/-- The report on well-formed entries in order, no more than there are sources, is well formed. -/
lemma Report.wellFormed_ofScan {scan : ScanResult} {details : List FileCoverage}
    (increasing : details.Pairwise fun a b => a.file < b.file)
    (entries : ∀ c ∈ details, c.WellFormed scan) (le : details.length ≤ scan.sourceFiles.length) :
    (ofScan scan details).WellFormed scan where
  increasing := increasing
  details := entries
  analyzedFiles := rfl
  totalSourceFiles := rfl
  analyzed_le_total := le
  testFiles := rfl
  totalFunctions := totalOver_eq_sum _ _
  coveredFunctions := (totalOver_eq_sum _ _).trans <|
    congrArg List.sum (List.map_congr_left fun c hc => (entries c hc).coveredCount_eq)

/-! ## The entries -/

namespace Project

variable {p : Project} {scan : ScanResult}

/-- The scores of a source with or without a test follow from its evidence. -/
lemma isScored_ownScore (test : Option (String × TestEvidence)) (name : String) :
    (ownScore test name).IsScored := by
  cases test with
  | none => exact Evidence.isScored_uncovered
  | some t => exact Evidence.isScored_scoreFunction _ _ _

/-- The path of the test of a source is the one of a test of the scan. -/
lemma mem_of_ownTest {tests : List FileRecord} {source : FileRecord} {path : String}
    (h : path ∈ (p.ownTest tests source).map (·.1)) : path ∈ tests.map (·.relativePath) := by
  obtain ⟨⟨own, e⟩, htest, rfl⟩ := Option.map_eq_some_iff.mp h
  rw [ownTest] at htest
  split at htest
  · simp at htest
  · rename_i test hfind
    split at htest
    · simp at htest
    · obtain ⟨rfl, -⟩ := Prod.mk.inj (Option.some.inj htest)
      exact List.mem_map_of_mem (mem_of_find? hfind)

lemma wellFormed_ownEntry {source : FileRecord} (hs : source ∈ scan.sourceFiles)
    (language : Language) {definitions : List FunctionDefinition} (hne : definitions ≠ [])
    (spans : ∀ d ∈ definitions, d.HasSpan) :
    (ownEntry source language (p.ownTest scan.testFiles source) definitions).WellFormed scan where
  file_mem := List.mem_map_of_mem hs
  functions_ne_nil h := hne (List.map_eq_nil_iff.mp h)
  functions f hf := by
    obtain ⟨d, hd, rfl⟩ := List.mem_map.mp hf
    exact FunctionCoverage.wellFormed_ofDefinition (spans d hd) (isScored_ownScore _ _)
  unpaired h f hf := by
    obtain ⟨d, -, rfl⟩ := List.mem_map.mp hf
    rw [Option.map_eq_none_iff.mp h]
    exact ⟨rfl, rfl, rfl, rfl⟩
  paired _ h := mem_of_ownTest h

/-- The entry of a source of the scan is well formed, if what the analyzers find has lines. -/
lemma wellFormed_ownCoverage (spans : ∀ a ∈ p.analyzers, a.FindsSpans) {source : FileRecord}
    (hs : source ∈ scan.sourceFiles) {c : FileCoverage}
    (h : p.ownCoverage scan.testFiles source = some c) : c.WellFormed scan := by
  unfold ownCoverage at h
  split at h
  · simp at h
  · rename_i a ha
    split at h
    · simp at h
    · rename_i definitions hdefs
      split at h
      · simp at h
      · rename_i hne
        obtain rfl := Option.some.inj h
        exact wellFormed_ownEntry hs _ hne (spans a (Analyzer.mem_of_forPath? ha) _ _ _ hdefs)

/-- An analysis that has been given up has no entries. -/
lemma result_coverage_of_cancelled (h : p.isCancelled = true) (scan : ScanResult) :
    (p.coverage scan).result = [] := by
  have hnone : ∀ source test, (p.fileCoverage source test).result = none := by
    intro source test
    rw [fileCoverage, if_pos h]
  simp [coverage, hnone, sortedByPath]

/-- The report on a scan with its sources in order is well formed. -/
lemma report_wellFormed (p : Project) {scan : ScanResult}
    (spans : ∀ a ∈ p.analyzers, a.FindsSpans)
    (increasing : scan.sourceFiles.Pairwise fun a b => a.relativePath < b.relativePath) :
    (p.report scan).result.WellFormed scan := by
  rw [report]
  cases hc : p.isCancelled with
  | true =>
    rw [result_coverage_of_cancelled hc]
    exact Report.wellFormed_ofScan .nil (by simp) (Nat.zero_le _)
  | false =>
    rw [result_coverage_of_increasing hc increasing]
    -- each entry is the one that a source has on its own
    refine Report.wellFormed_ofScan (pairwise_ownCoverage p _ increasing) (fun c hmem => ?_)
      (List.length_filterMap_le _ _)
    obtain ⟨source, hs, h⟩ := List.mem_filterMap.mp hmem
    exact wellFormed_ownCoverage spans hs h

/-- **The report on a project** is well formed, whatever its files and exclusions are, with or
without an external parser and whatever that answers, and also when the analysis is given up, as
long as no node of a parse tree ends before it starts. -/
theorem run_wellFormed {files : FileSystem} (tree : files.IsTree) (exclusions : Exclusions)
    {root name : String} {es : List Entry} (found : files.entry root = .ok (.directory name es))
    {parse : Bool → Source → Node} (forward : ∀ markup source, (parse markup source).IsForward)
    (answers : Option (String → Except AnalysisError ParserOutput)) (isCancelled : Bool) :
    ∃ scan report, files.scan exclusions root = .ok scan ∧
      Project.run ⟨root, files.readText, Analyzer.builtIn files.readText parse answers, isCancelled⟩
        files exclusions = .ok report ∧
      report.result.WellFormed scan := by
  have htop := tree.entry found
  have hscan := Scan.scan_eq_of_found htop exclusions found
  have hspans := Analyzer.findsSpans_builtIn forward files.readText answers
  have hreport := report_wellFormed
    ⟨root, files.readText, Analyzer.builtIn files.readText parse answers, isCancelled⟩ hspans
    (Scan.pairwise_unpruned exclusions htop).1
  refine ⟨_, _, hscan, ?_, hreport⟩
  rw [run, hscan]

/-- A directory with a source of each language and a test. -/
def sampleEntries : List Entry :=
  [.directory "lib" [
      .file "a.dart" (Text.bytesOf "void run() \x7b\n\x7d\n"),
      .file "b.ts" (Text.bytesOf "function go() \x7b\x7d\n")],
    .directory "test" [.file "a_test.dart" (Text.bytesOf "run();\n")]]

/-- The directory as the project of a file system. -/
def sampleFiles : FileSystem := ⟨[.directory "app" sampleEntries], "/"⟩

/-- The answer of a parser that finds one function where it can be and one where it cannot. -/
def sampleAnswer (_ : String) : Except AnalysisError ParserOutput :=
  .ok ⟨[⟨"run", 1, 2, "void run()", .function, none⟩, ⟨"go", 2, 1, "go()", .function, none⟩], [],
    []⟩

/-- The report on the sample is well formed: no parse tree has a node that ends before it starts. -/
theorem run_sampleFiles :
    sampleFiles.IsTree ∧ sampleFiles.entry "/app" = .ok (.directory "app" sampleEntries) ∧
      (∀ markup source, (TypeScript.parse markup source).IsForward) ∧
      ∃ scan report, sampleFiles.scan [] "/app" = .ok scan ∧
        Project.run
          ⟨"/app", sampleFiles.readText,
            Analyzer.builtIn sampleFiles.readText TypeScript.parse (some sampleAnswer), false⟩
          sampleFiles [] = .ok report ∧
        report.result.WellFormed scan := by
  have tree : sampleFiles.IsTree := by decide
  have found := FileSystem.entry_app sampleEntries
  have forward : ∀ markup source, (TypeScript.parse markup source).IsForward :=
    fun markup source => (TypeScript.parse_isNested markup source).isForward
  exact ⟨tree, found, forward, run_wellFormed tree [] found forward (some sampleAnswer) false⟩

end Project

end CoverageEstimate

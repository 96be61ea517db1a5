/-
# Sharing the evidence of a test

The coverage of a project is found for all sources at once: the tests that belong to some source
are read and analyzed once each, what they say is kept by their paths, and the files are sorted in
the end.  This file compares it with the coverage that is found for one source at a time, with its
test read and analyzed anew.

Both are the same, whatever the files hold and whatever the analyzers answer.  The reason is that
the evidence of a test depends on its path alone, so it does not matter for which of its sources it
was loaded (`loadedEvidence_eq`).
-/
import CoverageEstimate.Pairing.Project
import CoverageEstimate.Proofs.Sorting

namespace CoverageEstimate

namespace Project

/-! ## One file at a time -/

/-- What the test at a path says when it is read and analyzed on its own: nothing if it cannot be
read, and its text without any signals if it cannot be analyzed. -/
def ownEvidence (p : Project) (path : String) : Option TestEvidence :=
  match p.readText path with
  | .error _ => none
  | .ok text =>
    match Analyzer.forPath? p.analyzers path with
    | none => some ⟨∅, text⟩
    | some analyzer =>
      match analyzer.signals (some text) path with
      | .error _ => some ⟨∅, text⟩
      | .ok signals => some ⟨signals, text⟩

/-- The path of the test that belongs to a source, with what the test says, unless there is no such
test or it cannot be read. -/
def ownTest (p : Project) (tests : List FileRecord) (source : FileRecord) :
    Option (String × TestEvidence) :=
  match (TestIndex.ofTests tests).find? source with
  | none => none
  | some test =>
    match p.ownEvidence (p.pathOf test) with
    | none => none
    | some evidence => some (test.relativePath, evidence)

/-- The evidence for a function in what its test says, if it has a test. -/
def ownScore (test : Option (String × TestEvidence)) (name : String) : Evidence :=
  match test with
  | none => .uncovered
  | some (_, e) => scoreFunction name e.signals e.text.toList

/-- The entry of a source with some functions: one line for each of them, in their order, scored
against what the test of the source says. -/
def ownEntry (source : FileRecord) (language : Language) (test : Option (String × TestEvidence))
    (definitions : List FunctionDefinition) : FileCoverage :=
  let functions := definitions.map fun d => FunctionCoverage.ofDefinition d (ownScore test d.name)
  { file := source.relativePath
    pairedTestFile := test.map (·.1)
    functions := functions
    coveragePercentage := coveragePercentage functions
    language := language.displayName }

/-- The coverage of a source that is looked at on its own.  There is none if nothing analyzes the
source, if its analysis fails, and if it has no functions. -/
def ownCoverage (p : Project) (tests : List FileRecord) (source : FileRecord) :
    Option FileCoverage :=
  match Analyzer.forPath? p.analyzers (p.pathOf source) with
  | none => none
  | some analyzer =>
    match analyzer.functions none (p.pathOf source) with
    | .error _ => none
    | .ok definitions =>
      if definitions = [] then none
      else some (ownEntry source analyzer.language (p.ownTest tests source) definitions)

/-! ## Evidence by path -/

variable {p : Project}

/-- The evidence of a test depends on its path alone. -/
lemma result_evidence (running : p.isCancelled = false) (test : FileRecord) :
    (p.evidence test).result = p.ownEvidence (p.pathOf test) := by
  rw [evidence, running, ownEvidence]
  simp only [Bool.false_eq_true, if_false]
  cases p.readText (p.pathOf test) with
  | error e => rfl
  | ok text =>
    cases Analyzer.forPath? p.analyzers (p.pathOf test) with
    | none => rfl
    | some analyzer =>
      simp only
      cases analyzer.signals (some text) (p.pathOf test) <;> rfl

/-- For each test, one of its path is kept. -/
lemma exists_mem_distinctTests {tests : List FileRecord} {t : FileRecord} (h : t ∈ tests) :
    ∃ kept ∈ distinctTests tests, kept.relativePath = t.relativePath := by
  induction tests with
  | nil => exact absurd h List.not_mem_nil
  | cons first rest ih =>
    rw [distinctTests]
    by_cases hp : t.relativePath = first.relativePath
    · exact ⟨first, List.mem_cons_self, hp.symm⟩
    · rcases List.mem_cons.mp h with rfl | h
      · exact absurd rfl hp
      · obtain ⟨kept, hk, hkp⟩ := ih h
        refine ⟨kept, List.mem_cons_of_mem _ (List.mem_filter.mpr ⟨hk, ?_⟩), hkp⟩
        simpa [hkp] using hp

/-- **What has been loaded for the path of a test** is the evidence of that test, from whichever
test of its path it was loaded. -/
lemma loadedEvidence_eq (running : p.isCancelled = false) {tests : List FileRecord}
    {t : FileRecord} (h : t ∈ tests) :
    loadedEvidence ((distinctTests tests).map fun t => (t.relativePath, (p.evidence t).result))
        t.relativePath =
      (p.ownEvidence (p.pathOf t)).map fun e => (t.relativePath, e) := by
  -- a test of this path has been kept, though it need not be this one
  obtain ⟨kept, hkept, hpath⟩ := exists_mem_distinctTests h
  have hsome : ((distinctTests tests).find? fun k => k.relativePath == t.relativePath).isSome :=
    List.find?_isSome.mpr ⟨kept, hkept, by simp [hpath]⟩
  obtain ⟨found, hfound⟩ := Option.isSome_iff_exists.mp hsome
  have hfp : found.relativePath = t.relativePath := by simpa using List.find?_some hfound
  have hown : p.pathOf found = p.pathOf t := by rw [pathOf, hfp, pathOf]
  rw [loadedEvidence, List.find?_map]
  simp only [Function.comp_def, hfound, Option.map_some, result_evidence running, hown, hfp]
  cases p.ownEvidence (p.pathOf t) <;> rfl

/-! ## One source -/

lemma functionCoverage_eq (test : Option (String × TestEvidence)) :
    functionCoverage (test.map (·.2)) =
      fun d => FunctionCoverage.ofDefinition d (ownScore test d.name) := by
  funext d
  cases test <;> rfl

lemma coverageOf_eq (source : FileRecord) (language : Language)
    (test : Option (String × TestEvidence)) (definitions : List FunctionDefinition) :
    coverageOf source language test definitions = ownEntry source language test definitions := by
  rw [coverageOf, ownEntry, functionCoverage_eq]

/-- A source that is given its test has the coverage that it has on its own. -/
lemma result_fileCoverage (running : p.isCancelled = false) (tests : List FileRecord)
    (source : FileRecord) :
    (p.fileCoverage source (p.ownTest tests source)).result = p.ownCoverage tests source := by
  unfold ownCoverage
  rw [fileCoverage, running]
  simp only [Bool.false_eq_true, if_false]
  cases Analyzer.forPath? p.analyzers (p.pathOf source) with
  | none => rfl
  | some analyzer =>
    simp only
    cases analyzer.functions none (p.pathOf source) with
    | error e => rfl
    | ok definitions =>
      cases definitions with
      | nil => rfl
      | cons d ds => simp only [coverageOf_eq, List.cons_ne_nil, if_false]

/-- The test that a source is given is its own one. -/
lemma bind_loadedEvidence (running : p.isCancelled = false) {tests paired : List FileRecord}
    {source : FileRecord}
    (h : ∀ t, (TestIndex.ofTests tests).find? source = some t → t ∈ paired) :
    (((TestIndex.ofTests tests).find? source).bind fun t =>
        loadedEvidence ((distinctTests paired).map fun t => (t.relativePath, (p.evidence t).result))
          t.relativePath) =
      p.ownTest tests source := by
  cases hf : (TestIndex.ofTests tests).find? source with
  | none => simp only [ownTest, hf, Option.bind_none]
  | some t =>
    simp only [ownTest, hf, Option.bind_some, loadedEvidence_eq running (h t hf)]
    cases p.ownEvidence (p.pathOf t) <;> rfl

/-- Before they are sorted, the files of the coverage are those that the sources have on their
own. -/
lemma result_coverage (running : p.isCancelled = false) (scan : ScanResult) :
    (p.coverage scan).result =
      sortedByPath (scan.sourceFiles.filterMap (p.ownCoverage scan.testFiles)) := by
  rw [coverage]
  simp only [List.filterMap_map, List.map_map]
  -- both sides go through the sources once, so a single source is enough
  refine congrArg sortedByPath (List.filterMap_congr fun source hsource => ?_)
  simp only [Function.comp_def]
  rw [bind_loadedEvidence running, result_fileCoverage running]
  intro t ht
  exact List.mem_filterMap.mpr ⟨source, hsource, ht⟩

/-! ## The order -/

lemma file_of_ownCoverage {tests : List FileRecord} {source : FileRecord} {f : FileCoverage}
    (h : p.ownCoverage tests source = some f) : f.file = source.relativePath := by
  unfold ownCoverage at h
  split at h
  · simp at h
  · split at h
    · simp at h
    · split at h
      · simp at h
      · obtain rfl := Option.some.inj h
        rfl

/-- The entries of sources in increasing order are in increasing order. -/
lemma pairwise_ownCoverage (p : Project) (tests : List FileRecord) {sources : List FileRecord}
    (increasing : sources.Pairwise fun a b => a.relativePath < b.relativePath) :
    (sources.filterMap (p.ownCoverage tests)).Pairwise fun a b => a.file < b.file := by
  refine increasing.filterMap _ fun a b hab f hf g hg => ?_
  rw [file_of_ownCoverage hf, file_of_ownCoverage hg]
  exact hab

/-- Sorting the files is the same as taking the sources in their order. -/
lemma sortedByPath_filterMap {sources ordered tests : List FileRecord}
    (perm : ordered.Perm sources)
    (increasing : ordered.Pairwise fun a b => a.relativePath < b.relativePath) :
    sortedByPath (sources.filterMap (p.ownCoverage tests)) =
      ordered.filterMap (p.ownCoverage tests) := by
  have hpairwise := pairwise_ownCoverage p tests increasing
  have hperm := perm.filterMap (p.ownCoverage tests)
  have hnodup : ((sources.filterMap (p.ownCoverage tests)).map (·.file)).Nodup :=
    (hperm.map _).nodup_iff.mp (Sorting.nodup_of_pairwise_lt _ hpairwise)
  -- two strictly increasing lists of the same entries
  exact Sorting.eq_of_perm_of_pairwise_lt FileCoverage.file
    ((List.mergeSort_perm _ _).trans hperm.symm) (Sorting.pairwise_lt_mergeSort _ hnodup) hpairwise

/-- Where the sources are in increasing order already, the files of the coverage are in the order of
the sources. -/
lemma result_coverage_of_increasing (running : p.isCancelled = false) {scan : ScanResult}
    (increasing : scan.sourceFiles.Pairwise fun a b => a.relativePath < b.relativePath) :
    (p.coverage scan).result = scan.sourceFiles.filterMap (p.ownCoverage scan.testFiles) := by
  rw [result_coverage running, sortedByPath_filterMap (.refl _) increasing]

/-- **The coverage of a project** is what is found for one source at a time, in the increasing order
of the paths of the sources: nothing is lost or changed by loading each test once and sharing what
it says. -/
theorem coverage_eq_ownCoverage (p : Project) (running : p.isCancelled = false)
    (scan : ScanResult) (distinct : (scan.sourceFiles.map (·.relativePath)).Nodup) :
    ∃ ordered : List FileRecord, ordered.Perm scan.sourceFiles ∧
      (ordered.Pairwise fun a b => a.relativePath < b.relativePath) ∧
      (p.coverage scan).result = ordered.filterMap (p.ownCoverage scan.testFiles) := by
  have hperm := List.mergeSort_perm scan.sourceFiles
    fun a b => decide (a.relativePath ≤ b.relativePath)
  have hpairwise := Sorting.pairwise_lt_mergeSort FileRecord.relativePath distinct
  refine ⟨_, hperm, hpairwise, ?_⟩
  rw [result_coverage running, sortedByPath_filterMap hperm hpairwise]

/-- Two sources of one test, of which only the text is to be had: whatever is analyzed is found to
define one function, and no test can be analyzed. -/
def sampleProject : Project where
  root := "/app"
  readText _ := .ok "run();"
  analyzers := [{
    language := .dart
    functions := fun _ _ => .ok [⟨"run", 1, 2, "void run()", .function, none⟩]
    signals := fun _ path => .error (.timedOut path 1000 "") }]
  isCancelled := false

/-- The scan of the sample. -/
def sampleScan : ScanResult where
  sourceFiles := [⟨"lib/a.dart", 0, ".dart"⟩, ⟨"src/a.dart", 0, ".dart"⟩]
  testFiles := [⟨"test/a_test.dart", 0, ".dart"⟩]

/-- Both sources of the sample are paired with the test, and its text is all that counts. -/
theorem coverage_sampleProject :
    sampleProject.isCancelled = false ∧
      (sampleScan.sourceFiles.map (·.relativePath)).Nodup ∧
      (∃ ordered : List FileRecord, ordered.Perm sampleScan.sourceFiles ∧
        (ordered.Pairwise fun a b => a.relativePath < b.relativePath) ∧
        (sampleProject.coverage sampleScan).result =
          ordered.filterMap (sampleProject.ownCoverage sampleScan.testFiles)) ∧
      (sampleProject.coverage sampleScan).result.map
          (fun c => (c.file, c.pairedTestFile, c.functions.map (·.evidence))) =
        [("lib/a.dart", some "test/a_test.dart", [⟨false, false, true, 10⟩]),
          ("src/a.dart", some "test/a_test.dart", [⟨false, false, true, 10⟩])] := by
  have distinct : (sampleScan.sourceFiles.map (·.relativePath)).Nodup := by decide
  refine ⟨rfl, distinct, coverage_eq_ownCoverage sampleProject rfl sampleScan distinct, ?_⟩
  rw [result_coverage_of_increasing rfl (by decide)]
  decide +kernel

end Project

end CoverageEstimate

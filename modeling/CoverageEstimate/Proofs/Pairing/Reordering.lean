/-
# The order of the work does not show

Sources and tests come in some order, tests are loaded and sources are done in some order, and none
of that shows in the report.  Three things see to it: what is loaded for a test is kept by its path;
the positions of tests count only between tests that could belong to one source; and the entries are
sorted before anything is summed up, so that a sum of floating-point numbers always adds the same
numbers in the same order.

Here the work itself is left open: `Project.IsOutcome` says what may come of it, whatever is loaded
first and whichever source is done first.
-/
import CoverageEstimate.Proofs.Pairing.Selection
import CoverageEstimate.Proofs.Report.WellFormed

namespace CoverageEstimate

/-! ## Lists in one order -/

section Order

variable {α : Type} {xs ys : List α} {a b : α}

/-- In a list without repetitions, one of two members comes first. -/
lemma eq_of_sublist_of_sublist (nodup : xs.Nodup) (hab : [a, b].Sublist xs)
    (hba : [b, a].Sublist xs) : a = b := by
  induction xs with
  | nil => simp at hab
  | cons x rest ih =>
    obtain ⟨hx, hrest⟩ := List.nodup_cons.mp nodup
    cases hab with
    | cons _ hab =>
      cases hba with
      | cons _ hba => exact ih hrest hab hba
      | cons_cons _ ha => exact absurd (hab.subset (by simp)) hx
    | cons_cons _ hb =>
      cases hba with
      | cons _ hba => exact absurd (hba.subset (by simp)) hx
      | cons_cons _ ha => rfl

/-- Two lists of the same members are the same if any two members come in the same order. -/
lemma eq_of_perm_of_sublist (perm : xs.Perm ys) (nodup : ys.Nodup)
    (order : ∀ a b, [a, b].Sublist xs → [a, b].Sublist ys) : xs = ys := by
  have hx : xs.Pairwise fun a b => [a, b].Sublist ys :=
    List.pairwise_iff_forall_sublist.mpr fun h => order _ _ h
  have hy : ys.Pairwise fun a b => [a, b].Sublist ys :=
    List.pairwise_iff_forall_sublist.mpr fun h => h
  exact List.Perm.eq_of_pairwise (fun a b _ _ => eq_of_sublist_of_sublist nodup) hx hy perm

end Order

/-! ## Scans in another order -/

/-- The test has one of the names that the source expects. -/
def IsCandidate (source test : FileRecord) : Prop := test.fileName ∈ expectedTestNames source

instance (source test : FileRecord) : Decidable (IsCandidate source test) :=
  inferInstanceAs (Decidable (test.fileName ∈ expectedTestNames source))

/-- The other scan has the same sources and the same tests, both in some order; but of two tests
that could belong to one source, the same one comes first. -/
structure ScanResult.IsReordering (scan other : ScanResult) : Prop where
  sources : other.sourceFiles.Perm scan.sourceFiles
  tests : other.testFiles.Perm scan.testFiles
  candidates : ∀ source ∈ scan.sourceFiles, ∀ t ∈ scan.testFiles, ∀ u ∈ scan.testFiles,
    IsCandidate source t → IsCandidate source u →
      ([t, u].Sublist other.testFiles ↔ [t, u].Sublist scan.testFiles)

namespace ScanResult.IsReordering

variable {scan other : ScanResult} {source : FileRecord}

/-- The tests that could belong to a source are in the same order in both scans. -/
lemma filter_testFiles (h : scan.IsReordering other) (nodup : scan.testFiles.Nodup)
    (hs : source ∈ scan.sourceFiles) :
    (other.testFiles.filter fun t => t.fileName ∈ expectedTestNames source) =
      scan.testFiles.filter fun t => t.fileName ∈ expectedTestNames source := by
  refine eq_of_perm_of_sublist (h.tests.filter _) (nodup.filter _) fun t u htu => ?_
  obtain ⟨ht, hct⟩ := List.mem_filter.mp (htu.subset (List.mem_cons_self))
  obtain ⟨hu, hcu⟩ := List.mem_filter.mp (htu.subset (by simp : u ∈ [t, u]))
  have hscan := (h.candidates source hs t (h.tests.mem_iff.mp ht) u (h.tests.mem_iff.mp hu)
    (of_decide_eq_true hct) (of_decide_eq_true hcu)).mp (htu.trans List.filter_sublist)
  -- both tests are kept, so they come in this order among those that are kept
  have hkept := hscan.filter fun t => decide (t.fileName ∈ expectedTestNames source)
  have hboth :
      ([t, u].filter fun t => decide (t.fileName ∈ expectedTestNames source)) = [t, u] := by
    refine List.filter_eq_self.mpr fun x hx => ?_
    rcases List.mem_pair.mp hx with rfl | rfl
    · exact hct
    · exact hcu
  rwa [hboth] at hkept

/-- A source finds the same test in both scans. -/
lemma find?_eq (h : scan.IsReordering other) (nodup : scan.testFiles.Nodup)
    (hs : source ∈ scan.sourceFiles) :
    (TestIndex.ofTests other.testFiles).find? source =
      (TestIndex.ofTests scan.testFiles).find? source := by
  rw [TestIndex.find?_eq_firstLongest, TestIndex.find?_eq_firstLongest, h.filter_testFiles nodup hs]

end ScanResult.IsReordering

namespace Project

variable {p : Project} {scan other : ScanResult} {source : FileRecord}

/-! ## What may come of the work -/

/-- The evidence of the tests that belong to the sources of a scan, each under its path. -/
def testEvidence (p : Project) (scan : ScanResult) : List (String × Option TestEvidence) :=
  (distinctTests (scan.sourceFiles.filterMap (TestIndex.ofTests scan.testFiles).find?)).map fun t =>
    (t.relativePath, (p.evidence t).result)

/-- The coverage of a source of a scan, when the evidence of the tests is what has been loaded. -/
def coverageFrom (p : Project) (scan : ScanResult) (loaded : List (String × Option TestEvidence))
    (source : FileRecord) : Option FileCoverage :=
  (p.fileCoverage source (((TestIndex.ofTests scan.testFiles).find? source).bind fun t =>
    loadedEvidence loaded t.relativePath)).result

/-- What may come of the work on a scan: the tests are loaded in some order, then the sources are
done in some order, and in the end the files are sorted. -/
def IsOutcome (p : Project) (scan : ScanResult) (files : List FileCoverage) : Prop :=
  ∃ loaded done, loaded.Perm (p.testEvidence scan) ∧
    done.Perm (scan.sourceFiles.filterMap (p.coverageFrom scan loaded)) ∧ files = sortedByPath done

/-- The coverage of a project is one of the outcomes. -/
lemma isOutcome_coverage (p : Project) (scan : ScanResult) :
    p.IsOutcome scan (p.coverage scan).result := by
  refine ⟨p.testEvidence scan, _, .refl _, .refl _, ?_⟩
  rw [coverage]
  simp only [List.filterMap_map, List.map_map]
  rfl

lemma nodup_distinctTests (tests : List FileRecord) :
    ((distinctTests tests).map (·.relativePath)).Nodup := by
  induction tests with
  | nil => simp [distinctTests]
  | cons t rest ih =>
    rw [distinctTests, List.map_cons, List.nodup_cons]
    refine ⟨fun hmem => ?_, ih.sublist (List.filter_sublist.map _)⟩
    obtain ⟨u, hu, heq⟩ := List.mem_map.mp hmem
    simp [heq] at hu

/-- What is found under a path does not depend on the order in which the tests were loaded. -/
lemma loadedEvidence_perm {loaded others : List (String × Option TestEvidence)}
    (perm : loaded.Perm others) (nodup : (others.map (·.1)).Nodup) (path : String) :
    loadedEvidence loaded path = loadedEvidence others path := by
  have hfind : (loaded.find? fun l => l.1 == path) = others.find? fun l => l.1 == path := by
    have hnodup := (perm.map (·.1)).nodup_iff.mpr nodup
    refine Option.ext fun l => ?_
    rw [Sorting.find?_eq_some_iff _ hnodup, Sorting.find?_eq_some_iff _ nodup, perm.mem_iff]
  rw [loadedEvidence, loadedEvidence, hfind]

lemma coverageFrom_of_cancelled (h : p.isCancelled = true)
    (loaded : List (String × Option TestEvidence)) : p.coverageFrom scan loaded source = none := by
  rw [coverageFrom, fileCoverage, h]
  rfl

/-- Whatever was loaded first, a source has the coverage that it has on its own. -/
lemma coverageFrom_eq (running : p.isCancelled = false)
    {loaded : List (String × Option TestEvidence)} (perm : loaded.Perm (p.testEvidence scan))
    (hs : source ∈ scan.sourceFiles) :
    p.coverageFrom scan loaded source = p.ownCoverage scan.testFiles source := by
  have hnodup : ((p.testEvidence scan).map (·.1)).Nodup := by
    rw [testEvidence, List.map_map]
    exact nodup_distinctTests _
  rw [coverageFrom]
  simp only [loadedEvidence_perm perm hnodup]
  rw [testEvidence, bind_loadedEvidence running, result_fileCoverage running]
  intro t ht
  exact List.mem_filterMap.mpr ⟨source, hs, ht⟩

/-- The coverage of a source on its own depends on the tests only through the one that it finds. -/
lemma ownCoverage_of_find?_eq {tests others : List FileRecord}
    (h : (TestIndex.ofTests tests).find? source = (TestIndex.ofTests others).find? source) :
    p.ownCoverage tests source = p.ownCoverage others source := by
  unfold ownCoverage ownTest
  rw [h]

/-- Files with different paths are sorted in one way only. -/
lemma sortedByPath_perm {files others : List FileCoverage} (perm : files.Perm others)
    (nodup : (others.map (·.file)).Nodup) : sortedByPath files = sortedByPath others := by
  have hnodup := (perm.map (·.file)).nodup_iff.mpr nodup
  have hsorted : (sortedByPath files).Perm (sortedByPath others) :=
    (List.mergeSort_perm _ _).trans (perm.trans (List.mergeSort_perm _ _).symm)
  exact Sorting.eq_of_perm_of_pairwise_lt FileCoverage.file hsorted
    (Sorting.pairwise_lt_mergeSort _ hnodup) (Sorting.pairwise_lt_mergeSort _ nodup)

lemma nodup_file_ownCoverage {tests sources : List FileRecord}
    (distinct : (sources.map (·.relativePath)).Nodup) :
    ((sources.filterMap (p.ownCoverage tests)).map (·.file)).Nodup := by
  refine List.pairwise_map.mpr ((List.pairwise_map.mp distinct).filterMap _ ?_)
  intro a b hab f hf g hg
  rw [file_of_ownCoverage hf, file_of_ownCoverage hg]
  exact hab

/-- Whatever comes of the work on a reordered scan is the coverage that the scan has. -/
lemma IsOutcome.eq_coverage {files : List FileCoverage} (h : p.IsOutcome other files)
    (reordering : scan.IsReordering other)
    (sources : (scan.sourceFiles.map (·.relativePath)).Nodup)
    (tests : (scan.testFiles.map (·.relativePath)).Nodup) :
    files = (p.coverage scan).result := by
  obtain ⟨loaded, done, hloaded, hdone, rfl⟩ := h
  cases hc : p.isCancelled with
  | true =>
    have hnone : other.sourceFiles.filterMap (p.coverageFrom other loaded) = [] :=
      List.filterMap_eq_nil_iff.mpr fun source _ => coverageFrom_of_cancelled hc loaded
    rw [hnone] at hdone
    rw [hdone.eq_nil, result_coverage_of_cancelled hc, sortedByPath, List.mergeSort_nil]
  | false =>
    -- the sources have the same coverage on their own in both scans
    have hown : other.sourceFiles.filterMap (p.coverageFrom other loaded) =
        other.sourceFiles.filterMap (p.ownCoverage scan.testFiles) := by
      refine List.filterMap_congr fun source hs => ?_
      rw [coverageFrom_eq hc hloaded hs]
      exact ownCoverage_of_find?_eq
        (reordering.find?_eq (.of_map _ tests) (reordering.sources.mem_iff.mp hs))
    rw [hown] at hdone
    rw [result_coverage hc]
    exact sortedByPath_perm (hdone.trans (reordering.sources.filterMap _))
      (nodup_file_ownCoverage sources)

/-- **The order of the work does not show.**  When the sources of a scan and its tests come in
another order, but for tests that could belong to one source, the coverage is the same list of
entries, and the report is the same with its totals and its mean.  And so it is whatever test is
loaded first and whatever source is done first. -/
theorem report_reordering (p : Project) {scan other : ScanResult}
    (reordering : scan.IsReordering other)
    (sources : (scan.sourceFiles.map (·.relativePath)).Nodup)
    (tests : (scan.testFiles.map (·.relativePath)).Nodup) :
    (p.coverage other).result = (p.coverage scan).result ∧
      (p.report other).result = (p.report scan).result ∧
      ∀ files, p.IsOutcome other files →
        files = (p.coverage scan).result ∧ Report.ofScan other files = (p.report scan).result := by
  have hcounts : ∀ details, Report.ofScan other details = Report.ofScan scan details := by
    intro details
    rw [Report.ofScan, Report.ofScan, reordering.sources.length_eq, reordering.tests.length_eq]
  have hall : ∀ files, p.IsOutcome other files → files = (p.coverage scan).result ∧
      Report.ofScan other files = (p.report scan).result := by
    intro files hfiles
    have hsame := hfiles.eq_coverage reordering sources tests
    refine ⟨hsame, ?_⟩
    rw [hcounts, hsame]
    rfl
  obtain ⟨hcoverage, hreport⟩ := hall _ (p.isOutcome_coverage other)
  exact ⟨hcoverage, hreport, hall⟩

/-- A scan with two tests that could belong to one source, and with a source and a test more. -/
def pairedScan : ScanResult where
  sourceFiles := [⟨"lib/a.dart", 0, ".dart"⟩, ⟨"lib/b.dart", 0, ".dart"⟩]
  testFiles := [⟨"test/a_test.dart", 0, ".dart"⟩, ⟨"test/b_test.dart", 0, ".dart"⟩,
    ⟨"test/lib/a_test.dart", 0, ".dart"⟩]

/-- The scan with its sources and its tests in another order. -/
def reorderedScan : ScanResult where
  sourceFiles := [⟨"lib/b.dart", 0, ".dart"⟩, ⟨"lib/a.dart", 0, ".dart"⟩]
  testFiles := [⟨"test/b_test.dart", 0, ".dart"⟩, ⟨"test/a_test.dart", 0, ".dart"⟩,
    ⟨"test/lib/a_test.dart", 0, ".dart"⟩]

/-- The two scans lead to the same report, of the sources in the order of their paths. -/
theorem report_reorderedScan :
    pairedScan.IsReordering reorderedScan ∧
      (pairedScan.sourceFiles.map (·.relativePath)).Nodup ∧
      (pairedScan.testFiles.map (·.relativePath)).Nodup ∧
      (sampleProject.report reorderedScan).result = (sampleProject.report pairedScan).result ∧
      (sampleProject.report pairedScan).result.details.map (fun c => (c.file, c.pairedTestFile)) =
        [("lib/a.dart", some "test/lib/a_test.dart"), ("lib/b.dart", some "test/b_test.dart")] := by
  have reordering : pairedScan.IsReordering reorderedScan :=
    ⟨by decide, by decide, by decide⟩
  have sources : (pairedScan.sourceFiles.map (·.relativePath)).Nodup := by decide
  have tests : (pairedScan.testFiles.map (·.relativePath)).Nodup := by decide
  refine ⟨reordering, sources, tests,
    (report_reordering sampleProject reordering sources tests).2.1, ?_⟩
  have hdetails : (sampleProject.report pairedScan).result.details =
      (sampleProject.coverage pairedScan).result := rfl
  rw [hdetails, result_coverage_of_increasing rfl (by decide)]
  decide +kernel

end Project

end CoverageEstimate

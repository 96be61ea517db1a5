/-
# Exclusions combine

A glob may match a directory, and then a scan does not enter it; or it may match the files below it
one by one.  Either way a file is left out when some exclusion matches a path on the way to it
(`Stays`), so a scan with two lists of patterns finds what the scans with each of them have in
common.  The order of the patterns does not matter, nor how often each of them is given.
-/
import CoverageEstimate.Proofs.Config.Choice
import CoverageEstimate.Proofs.Scan.Agreement

namespace CoverageEstimate

/-! ## Results in common -/

namespace ScanResult

/-- The files of one scan that another scan has found as well, as sources or as tests. -/
def common (a b : ScanResult) : ScanResult where
  sourceFiles := a.sourceFiles.filter (· ∈ b.sourceFiles)
  testFiles := a.testFiles.filter (· ∈ b.testFiles)

/-- One scan has found some of the files of another scan, in the same order, and has recorded them
in the same way: as sources or as tests, and with the same data. -/
structure IsPart (c a : ScanResult) : Prop where
  sources : c.sourceFiles.Sublist a.sourceFiles
  tests : c.testFiles.Sublist a.testFiles
  unchanged : ∀ r ∈ c.sourceFiles ++ c.testFiles, ∀ s ∈ a.sourceFiles ++ a.testFiles,
    r.relativePath = s.relativePath → r = s ∧ (r ∈ c.sourceFiles ↔ s ∈ a.sourceFiles)

end ScanResult

/-! ## Patterns and their exclusions -/

/-- A path is excluded when it matches some pattern. -/
lemma Exclusions.excludes_iff {patterns : List String} {e : Exclusions}
    (h : ofPatterns patterns = .ok e) {path : String} :
    e.excludes path = true ↔
      ∃ pattern ∈ patterns, ∃ glob, Glob.ofText pattern = .ok glob ∧ glob.isMatch path = true := by
  rw [ofPatterns_eq_ok_iff] at h
  rw [excludes, List.any_eq_true]
  induction h with
  | nil => simp
  | @cons pattern glob patterns globs hglob _ ih =>
    simp only [List.exists_mem_cons_iff, ih]
    refine or_congr ?_ Iff.rfl
    constructor
    · intro hmatch
      exact ⟨glob, hglob, hmatch⟩
    · rintro ⟨other, hother, hmatch⟩
      rwa [Except.ok.inj (hglob.symm.trans hother)]

lemma Exclusions.exists_glob_of_mem {patterns : List String} {e : Exclusions}
    (h : ofPatterns patterns = .ok e) {pattern : String} (hmem : pattern ∈ patterns) :
    ∃ glob, Glob.ofText pattern = .ok glob := by
  rw [ofPatterns_eq_ok_iff] at h
  induction h with
  | nil => simp at hmem
  | @cons first glob patterns globs hglob _ ih =>
    rcases List.mem_cons.mp hmem with rfl | hmem
    · exact ⟨glob, hglob⟩
    · exact ih hmem

/-- A path is excluded by some exclusions when one of two others excludes it. -/
def Exclusions.Combine (e f g : Exclusions) : Prop :=
  ∀ path, g.excludes path = true ↔ e.excludes path = true ∨ f.excludes path = true

/-- Patterns may be put together in any order, and as often as one likes. -/
lemma Exclusions.exists_combine {p q r : List String} {e f : Exclusions}
    (hp : ofPatterns p = .ok e) (hq : ofPatterns q = .ok f)
    (hr : ∀ pattern, pattern ∈ r ↔ pattern ∈ p ++ q) :
    ∃ g, ofPatterns r = .ok g ∧ Combine e f g := by
  have hglobs : ∀ pattern ∈ r, ∃ glob, Glob.ofText pattern = .ok glob := by
    intro pattern hmem
    rcases List.mem_append.mp ((hr pattern).mp hmem) with hmem | hmem
    · exact exists_glob_of_mem hp hmem
    · exact exists_glob_of_mem hq hmem
  obtain ⟨g, hg⟩ := exists_ofPatterns_eq_ok hglobs
  refine ⟨g, hg, ?_⟩
  intro path
  rw [excludes_iff hp, excludes_iff hq, excludes_iff hg]
  simp only [hr, List.mem_append, or_and_right, exists_or]

namespace Scan

variable {e f g : Exclusions} {n : String} {es : List Entry} {r : FileRecord}

/-- A file stays if it stays with either list of exclusions. -/
lemma stays_iff_and (h : Exclusions.Combine e f g) {place : List String} :
    Stays g place ↔ Stays e place ∧ Stays f place := by
  have hnot : ∀ path, g.excludes path = false ↔ e.excludes path = false ∧ f.excludes path = false := by
    intro path
    simp only [← Bool.not_eq_true, h path, not_or]
  constructor
  · intro hs
    refine ⟨{ hs with not_excluded := ?_ }, { hs with not_excluded := ?_ }⟩
    · intro front hne hf
      exact ((hnot _).mp (hs.not_excluded front hne hf)).1
    · intro front hne hf
      exact ((hnot _).mp (hs.not_excluded front hne hf)).2
  · rintro ⟨he, hf⟩
    refine { he with not_excluded := ?_ }
    intro front hne hfront
    exact (hnot _).mpr ⟨he.not_excluded front hne hfront, hf.not_excluded front hne hfront⟩

/-- A file is reported if it is reported with either list of exclusions. -/
lemma isReported_iff_and (htop : (Entry.directory n es).IsTree)
    (h : Exclusions.Combine e f g) :
    IsReported g (.directory n es) r ↔
      IsReported e (.directory n es) r ∧ IsReported f (.directory n es) r := by
  constructor
  · rintro ⟨place, name, content, extension, hat, hstays, hl, hext, rfl⟩
    obtain ⟨he, hf⟩ := (stays_iff_and h).mp hstays
    exact ⟨⟨place, name, content, extension, hat, he, hl, hext, rfl⟩,
      ⟨place, name, content, extension, hat, hf, hl, hext, rfl⟩⟩
  · rintro ⟨⟨place, name, content, extension, hat, he, hl, hext, rfl⟩,
      ⟨other, m, text, ending, hother, hf, -, -, heq⟩⟩
    have hpath : pathTo place = pathTo other := congrArg FileRecord.relativePath heq
    have hne : place ≠ [] := by
      rintro rfl
      simp [Entry.at?] at hat
    have hne' : other ≠ [] := by
      rintro rfl
      simp [Entry.at?] at hother
    -- the two files stand at the same place, since they have the same path
    obtain rfl := pathTo_injective hne hne' (htop.isName_of_mem hat) (htop.isName_of_mem hother) hpath
    exact ⟨place, name, content, extension, hat, (stays_iff_and h).mpr ⟨he, hf⟩, hl, hext, rfl⟩

/-- What the scan of a directory finds with the combined exclusions is what the scans with each of
them have in common. -/
lemma unpruned_eq_common (htop : (Entry.directory n es).IsTree) (h : Exclusions.Combine e f g) :
    unpruned g es = (unpruned e es).common (unpruned f es) := by
  obtain ⟨hsources, htests⟩ := pairwise_unpruned g htop
  obtain ⟨hsources', htests'⟩ := pairwise_unpruned e htop
  have hs : (unpruned g es).sourceFiles =
      (unpruned e es).sourceFiles.filter (· ∈ (unpruned f es).sourceFiles) := by
    refine Sorting.eq_filter_of_pairwise_lt _ hsources hsources' ?_
    intro r
    rw [mem_sourceFiles_unpruned_iff htop, mem_sourceFiles_unpruned_iff htop, mem_sourceFiles_unpruned_iff htop,
      isReported_iff_and htop h]
    exact and_and_right
  have ht : (unpruned g es).testFiles =
      (unpruned e es).testFiles.filter (· ∈ (unpruned f es).testFiles) := by
    refine Sorting.eq_filter_of_pairwise_lt _ htests htests' ?_
    intro r
    rw [mem_testFiles_unpruned_iff htop, mem_testFiles_unpruned_iff htop, mem_testFiles_unpruned_iff htop,
      isReported_iff_and htop h]
    exact and_and_right
  rw [ScanResult.common, ← hs, ← ht]

/-- The files that two scans have in common are recorded as the one of them has recorded them. -/
lemma isPart_common (htop : (Entry.directory n es).IsTree) (b : ScanResult) :
    ((unpruned e es).common b).IsPart (unpruned e es) where
  sources := List.filter_sublist
  tests := List.filter_sublist
  unchanged r hr s hs hpath := by
    have hmem : r ∈ (unpruned e es).sourceFiles ++ (unpruned e es).testFiles :=
      (List.filter_sublist.append List.filter_sublist).subset hr
    rw [(perm_unpruned e es).mem_iff] at hmem hs
    obtain rfl := List.inj_on_of_nodup_map (nodup_relativePath htop) hmem hs hpath
    refine ⟨rfl, fun hsource => (List.mem_filter.mp hsource).1, fun hsource => ?_⟩
    -- a test is no source
    rcases List.mem_append.mp hr with hr | hr
    · exact hr
    · have htest := (mem_testFiles_resultOf.mp (List.mem_filter.mp hr).1).2
      have hno := (mem_sourceFiles_resultOf.mp hsource).2
      exact absurd (htest.symm.trans hno) (by decide)

/-- **Exclusions combine.**  Let the patterns of a scan be those of two lists, in any order and each
of them as often as one likes.  Then they are globs if those of the lists are, and wherever the scan
starts, it fails just as the scans with the two lists do, or it finds what the two have in common:
the files of the first that the second has found, which are those of the second that the first has
found, recorded as by each of them. -/
theorem scan_combined {fs : FileSystem} (tree : fs.IsTree) {p q r : List String}
    (hp : Exclusions.ofPatterns p = .ok e) (hq : Exclusions.ofPatterns q = .ok f)
    (hr : ∀ pattern, pattern ∈ r ↔ pattern ∈ p ++ q) :
    ∃ g, Exclusions.ofPatterns r = .ok g ∧ ∀ root,
      (∃ fault, fs.scan e root = .error fault ∧ fs.scan f root = .error fault ∧
        fs.scan g root = .error fault) ∨
      ∃ a b c, fs.scan e root = .ok a ∧ fs.scan f root = .ok b ∧ fs.scan g root = .ok c ∧
        c = a.common b ∧ c = b.common a ∧ c.IsPart a ∧ c.IsPart b := by
  obtain ⟨g, hg, hcombine⟩ := Exclusions.exists_combine hp hq hr
  have hswap : Exclusions.Combine f e g := fun path => (hcombine path).trans or_comm
  refine ⟨g, hg, ?_⟩
  intro root
  cases hroot : fs.entry root with
  | error fault => exact .inl ⟨.inaccessible root fault, by simp [FileSystem.scan, hroot]⟩
  | ok top =>
    cases top with
    | file n content => exact .inl ⟨.notDirectory root, by simp [FileSystem.scan, hroot]⟩
    | link n target => exact .inl ⟨.notDirectory root, by simp [FileSystem.scan, hroot]⟩
    | directory n es =>
      have htop := tree.entry hroot
      have hscan := fun exclusions => scan_eq_of_found htop exclusions hroot
      have hfront := unpruned_eq_common htop hcombine
      have hback := unpruned_eq_common htop hswap
      refine .inr ⟨_, _, _, hscan e, hscan f, hscan g, hfront, hback, ?_, ?_⟩
      · rw [hfront]
        exact isPart_common htop _
      · rw [hback]
        exact isPart_common htop _

/-- The exclusion of the files of a directory whose names start with a letter. -/
def letterExclusions : Exclusions := ["lib/a".toList.map GlobToken.literal ++ [.anyBytes]]

/-- One pattern leaves out a directory and the other one a file; with both, only a test stays. -/
theorem scan_combined_sampleFiles :
    sampleFiles.IsTree ∧ Exclusions.ofPatterns ["lib/gen"] = .ok sampleExclusions ∧
      Exclusions.ofPatterns ["lib/a*"] = .ok letterExclusions ∧
      ∃ g, Exclusions.ofPatterns ["lib/a*", "lib/gen", "lib/gen"] = .ok g ∧
        sampleFiles.scan g "/app" = .ok ⟨[], [⟨"test/a_test.dart", 0, ".dart"⟩]⟩ := by
  have tree : sampleFiles.IsTree := by decide
  have found := FileSystem.entry_app sampleEntries
  have hp : Exclusions.ofPatterns ["lib/gen"] = .ok sampleExclusions := by rfl
  have hq : Exclusions.ofPatterns ["lib/a*"] = .ok letterExclusions := by rfl
  have hr : ∀ pattern, pattern ∈ ["lib/a*", "lib/gen", "lib/gen"] ↔
      pattern ∈ ["lib/gen"] ++ ["lib/a*"] := by
    intro pattern
    simp [or_comm]
  obtain ⟨g, hg, hall⟩ := scan_combined tree hp hq hr
  refine ⟨tree, hp, hq, g, hg, ?_⟩
  have htop := tree.entry found
  have ha : unpruned sampleExclusions sampleEntries =
      ⟨[⟨"lib/a.dart", 0, ".dart"⟩], [⟨"test/a_test.dart", 0, ".dart"⟩]⟩ := by decide +kernel
  have hb : unpruned letterExclusions sampleEntries =
      ⟨[⟨"lib/gen/c.dart", 0, ".dart"⟩], [⟨"test/a_test.dart", 0, ".dart"⟩]⟩ := by decide +kernel
  have hscan := scan_eq_of_found htop sampleExclusions found
  have hscan' := scan_eq_of_found htop letterExclusions found
  obtain ⟨_, herror, -, -⟩ | ⟨a, b, c, hsa, hsb, hsc, hcommon, -⟩ := hall "/app"
  · exact absurd (hscan.symm.trans herror) (by simp)
  · obtain rfl := Except.ok.inj (hscan.symm.trans hsa)
    obtain rfl := Except.ok.inj (hscan'.symm.trans hsb)
    rw [hsc, hcommon, ha, hb]
    decide

end Scan

end CoverageEstimate

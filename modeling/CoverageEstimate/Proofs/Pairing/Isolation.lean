/-
# One file does not show in the coverage of others

A project is looked at in two file systems that agree on everything but one file.  That file may be
in one of them only, and what it holds need not be text.  The coverage of a source is made from the
source and from its test, so it is the same in both unless the file is one of these two.

What makes this work is that failures stay where they are: a file is read in both or in none
(`Project.SameAt`), and the test of a source is found among the tests of its own names, whatever
others there are and wherever they stand in the scan.
-/
import CoverageEstimate.Analyzers
import CoverageEstimate.Proofs.Pairing.Selection
import CoverageEstimate.Proofs.Pairing.Sharing
import CoverageEstimate.Proofs.Results
import CoverageEstimate.Proofs.Report.WellFormed
import CoverageEstimate.Proofs.Scan.Agreement
import Mathlib.Data.Option.Defs

namespace CoverageEstimate

open TypeScript (Node Source)

/-! ## Analyzers -/

namespace Analyzer

/-- Both analyzers find the same in the file at a path, or both fail. -/
structure SameAt (path : String) (x y : Analyzer) : Prop where
  language : x.language = y.language
  functions : ∀ content, (x.functions content path).toOption = (y.functions content path).toOption
  signals : ∀ content, (x.signals content path).toOption = (y.signals content path).toOption

end Analyzer

section Reading

variable {readA readB : String → Except FileError String} {path : String}

lemma toOption_sourceText (h : (readA path).toOption = (readB path).toOption)
    (content : Option String) :
    (sourceText readA content path).toOption = (sourceText readB content path).toOption := by
  have hread : (sourceText.read readA path).toOption = (sourceText.read readB path).toOption := by
    rw [sourceText.read, sourceText.read]
    obtain ⟨e, f, ha, hb⟩ | ⟨text, ha, hb⟩ := toOption_eq_iff.mp h
    · rw [ha, hb]
      rfl
    · rw [ha, hb]
  cases content with
  | none => exact hread
  | some text =>
    rw [sourceText, sourceText]
    split
    · exact hread
    · rfl

namespace Analyzer

lemma sameAt_dartLines (h : (readA path).toOption = (readB path).toOption) :
    (dartLines readA).SameAt path (dartLines readB) where
  language := rfl
  functions content := by simp only [dartLines, toOption_map, toOption_sourceText h]
  signals content := by simp only [dartLines, toOption_map, toOption_sourceText h]

lemma sameAt_typeScript (parse : Bool → Source → Node)
    (h : (readA path).toOption = (readB path).toOption) :
    (typeScript parse readA).SameAt path (typeScript parse readB) where
  language := rfl
  functions content := by simp only [typeScript, toOption_map, toOption_sourceText h]
  signals content := by simp only [typeScript, toOption_map, toOption_sourceText h]

/-- The built-in analyzers of a path find the same in both, if the path holds the same text. -/
lemma rel_forPath?_builtIn (parse : Bool → Source → Node)
    (h : (readA path).toOption = (readB path).toOption) :
    Option.Rel (SameAt path) (forPath? (builtIn readA parse none) path)
      (forPath? (builtIn readB parse none) path) := by
  rw [forPath?, forPath?]
  cases Path.extension? path with
  | none => exact .none
  | some extension =>
    -- which of them handles an extension depends on its language alone
    have hdart : (dartLines readA).handles extension = (dartLines readB).handles extension := rfl
    have hts : (typeScript parse readA).handles extension =
        (typeScript parse readB).handles extension := rfl
    simp only [Option.bind_some, builtIn, List.find?_cons, List.find?_nil, hdart, hts]
    cases (dartLines readB).handles extension with
    | true => exact .some (sameAt_dartLines h)
    | false =>
      cases (typeScript parse readB).handles extension with
      | true => exact .some (sameAt_typeScript parse h)
      | false => exact .none

end Analyzer

end Reading

/-! ## One source -/

namespace Project

/-- The file at a path can be read in both projects, and is the same there, or in none, and is
analyzed in the same way. -/
structure SameAt (p q : Project) (path : String) : Prop where
  readText : (p.readText path).toOption = (q.readText path).toOption
  analyzer : Option.Rel (Analyzer.SameAt path) (Analyzer.forPath? p.analyzers path)
    (Analyzer.forPath? q.analyzers path)

variable {p q : Project} {path : String} {tests others : List FileRecord} {source : FileRecord}

lemma ownEvidence_congr (h : p.SameAt q path) : p.ownEvidence path = q.ownEvidence path := by
  rw [ownEvidence, ownEvidence]
  obtain ⟨e, f, hp, hq⟩ | ⟨text, hp, hq⟩ := toOption_eq_iff.mp h.readText
  · rw [hp, hq]
  · have hanalyzer := h.analyzer
    rw [hp, hq]
    generalize Analyzer.forPath? p.analyzers path = x? at hanalyzer ⊢
    generalize Analyzer.forPath? q.analyzers path = y? at hanalyzer ⊢
    cases hanalyzer with
    | none => rfl
    | some hsame =>
      obtain ⟨e, f, hx, hy⟩ | ⟨signals, hx, hy⟩ := toOption_eq_iff.mp (hsame.signals (some text))
      · simp only [hx, hy]
      · simp only [hx, hy]

lemma ownTest_congr (hroot : p.root = q.root)
    (hfind : (TestIndex.ofTests tests).find? source = (TestIndex.ofTests others).find? source)
    (h : ∀ test, (TestIndex.ofTests tests).find? source = some test → p.SameAt q (p.pathOf test)) :
    p.ownTest tests source = q.ownTest others source := by
  rw [ownTest, ownTest, ← hfind]
  cases htest : (TestIndex.ofTests tests).find? source with
  | none => rfl
  | some test =>
    have hpath : q.pathOf test = p.pathOf test := by rw [pathOf, pathOf, hroot]
    simp only [hpath, ownEvidence_congr (h test htest)]

/-- The coverage of a source on its own is made from the source and its test. -/
lemma ownCoverage_congr (hroot : p.root = q.root) (hsource : p.SameAt q (p.pathOf source))
    (htest : p.ownTest tests source = q.ownTest others source) :
    p.ownCoverage tests source = q.ownCoverage others source := by
  have hpath : q.pathOf source = p.pathOf source := by rw [pathOf, pathOf, hroot]
  have hanalyzer := hsource.analyzer
  unfold ownCoverage
  rw [hpath, htest]
  generalize Analyzer.forPath? p.analyzers (p.pathOf source) = x? at hanalyzer ⊢
  generalize Analyzer.forPath? q.analyzers (p.pathOf source) = y? at hanalyzer ⊢
  cases hanalyzer with
  | none => rfl
  | some hsame =>
    obtain ⟨e, f, hx, hy⟩ | ⟨definitions, hx, hy⟩ := toOption_eq_iff.mp (hsame.functions none)
    · simp only [hx, hy]
    · simp only [hx, hy, hsame.language]

/-! ## All sources -/

/-- The files of the coverage that are kept by their paths are those of the sources that are. -/
lemma filter_ownCoverage (keep : String → Bool) (sources : List FileRecord) :
    (sources.filterMap (p.ownCoverage tests)).filter (fun c => keep c.file) =
      (sources.filter fun r => keep r.relativePath).filterMap (p.ownCoverage tests) := by
  induction sources with
  | nil => rfl
  | cons r rest ih =>
    cases hown : p.ownCoverage tests r with
    | none =>
      rw [List.filterMap_cons_none hown, ih, List.filter_cons]
      split
      · rw [List.filterMap_cons_none hown]
      · rfl
    | some c =>
      rw [List.filterMap_cons_some hown, List.filter_cons, List.filter_cons,
        file_of_ownCoverage hown, ih]
      split
      · rw [List.filterMap_cons_some hown]
      · rfl

lemma details_report (p : Project) (scan : ScanResult) :
    (p.report scan).result.details = (p.coverage scan).result := rfl

/-- Two projects have the same coverage for some paths, if both scans have the same sources there
and these have the same coverage on their own. -/
lemma filter_details {scanA scanB : ScanResult} (hcancelled : p.isCancelled = q.isCancelled)
    (increasingA : scanA.sourceFiles.Pairwise fun a b => a.relativePath < b.relativePath)
    (increasingB : scanB.sourceFiles.Pairwise fun a b => a.relativePath < b.relativePath)
    (keep : String → Bool)
    (sources : scanA.sourceFiles.filter (fun r => keep r.relativePath) =
      scanB.sourceFiles.filter fun r => keep r.relativePath)
    (own : ∀ r ∈ scanA.sourceFiles, keep r.relativePath = true →
      p.ownCoverage scanA.testFiles r = q.ownCoverage scanB.testFiles r) :
    (p.report scanA).result.details.filter (fun c => keep c.file) =
      (q.report scanB).result.details.filter fun c => keep c.file := by
  rw [details_report, details_report]
  cases hc : p.isCancelled with
  | true => rw [result_coverage_of_cancelled hc, result_coverage_of_cancelled (hcancelled ▸ hc)]
  | false =>
    rw [result_coverage_of_increasing hc increasingA,
      result_coverage_of_increasing (hcancelled ▸ hc) increasingB, filter_ownCoverage,
      filter_ownCoverage, ← sources]
    refine List.filterMap_congr fun r hr => ?_
    obtain ⟨hmem, hkeep⟩ := List.mem_filter.mp hr
    exact own r hmem hkeep

/-! ## Two file systems -/

/-- The project at a path of a file system, with the built-in analyzers.  `parse` finds the parse
tree of a TypeScript source. -/
def builtIn (root : String) (files : FileSystem) (parse : Bool → Source → Node)
    (isCancelled : Bool) : Project :=
  ⟨root, files.readText, Analyzer.builtIn files.readText parse none, isCancelled⟩

lemma run_eq_report {files : FileSystem} {exclusions : Exclusions} {scan : ScanResult}
    (h : files.scan exclusions p.root = .ok scan) :
    p.run files exclusions = .ok (p.report scan) := by
  rw [run, h]

section Agreement

open Scan (IsElsewhere IsReported isTest pathTo unpruned)

variable {a b : FileSystem} {exclusions : Exclusions} {root : String} {top place : List String}
  {m n : String} {es fs : List Entry}

lemma sameAt_builtIn (parse : Bool → Source → Node) (isCancelled : Bool)
    (treeA : a.IsTree) (treeB : b.IsTree) (agree : a.AgreeBut (top ++ place) b)
    (hrootA : a.realPlace root = .ok top) (hrootB : b.realPlace root = .ok top)
    (ha : a.root.at? top = some (.directory m es)) (hb : b.root.at? top = some (.directory n fs))
    {r : FileRecord} (hr : IsReported exclusions (.directory m es) r)
    (elsewhere : IsElsewhere exclusions place r) :
    (builtIn root a parse isCancelled).SameAt (builtIn root b parse isCancelled)
      ((builtIn root a parse isCancelled).pathOf r) := by
  have hread :=
    Scan.toOption_readText_of_agreeBut treeA treeB agree hrootA hrootB ha hb hr elsewhere
  exact ⟨hread, Analyzer.rel_forPath?_builtIn parse hread⟩

/-- The coverage of a source on its own is the same in both, if the source stands elsewhere and so
do all tests that it could have by their names. -/
lemma ownCoverage_builtIn (parse : Bool → Source → Node) (isCancelled : Bool)
    (treeA : a.IsTree) (treeB : b.IsTree) (agree : a.AgreeBut (top ++ place) b)
    (hrootA : a.realPlace root = .ok top) (hrootB : b.realPlace root = .ok top)
    (ha : a.root.at? top = some (.directory m es)) (hb : b.root.at? top = some (.directory n fs))
    {r : FileRecord} (hr : r ∈ (unpruned exclusions es).sourceFiles)
    (elsewhere : IsElsewhere exclusions place r)
    (expected : ∀ t, isTest t = true → t.fileName ∈ expectedTestNames r →
      IsElsewhere exclusions place t) :
    (builtIn root a parse isCancelled).ownCoverage (unpruned exclusions es).testFiles r =
      (builtIn root b parse isCancelled).ownCoverage (unpruned exclusions fs).testFiles r := by
  obtain ⟨hreported, -⟩ := (Scan.mem_sourceFiles_unpruned_iff (treeA.at? ha)).mp hr
  have htests := Scan.filter_testFiles_of_agreeBut treeA treeB agree ha hb
    (fun t => t.fileName ∈ expectedTestNames r)
    fun t htest hkeep => expected t htest (of_decide_eq_true hkeep)
  have hfind : (TestIndex.ofTests (unpruned exclusions es).testFiles).find? r =
      (TestIndex.ofTests (unpruned exclusions fs).testFiles).find? r := by
    rw [TestIndex.find?_eq_firstLongest, TestIndex.find?_eq_firstLongest, htests]
  refine ownCoverage_congr rfl ?_ (ownTest_congr rfl hfind fun test htest => ?_)
  · exact sameAt_builtIn parse isCancelled treeA treeB agree hrootA hrootB ha hb hreported elsewhere
  · rw [TestIndex.find?_eq_firstLongest] at htest
    obtain ⟨hmem, hname⟩ := List.mem_filter.mp (mem_of_firstLongest htest)
    obtain ⟨htest, hnames⟩ := (Scan.mem_testFiles_unpruned_iff (treeA.at? ha)).mp hmem
    exact sameAt_builtIn parse isCancelled treeA treeB agree hrootA hrootB ha hb htest
      (expected test hnames (of_decide_eq_true hname))

/-- The entries for some paths are the same in both, if the sources of these paths stand elsewhere
and so do all tests that they could have by their names. -/
lemma filter_details_builtIn (exclusions : Exclusions) (parse : Bool → Source → Node)
    (isCancelled : Bool)
    (treeA : a.IsTree) (treeB : b.IsTree) (agree : a.AgreeBut (top ++ place) b)
    (hrootA : a.realPlace root = .ok top) (hrootB : b.realPlace root = .ok top)
    (ha : a.root.at? top = some (.directory m es)) (hb : b.root.at? top = some (.directory n fs))
    (keep : String → Bool)
    (elsewhere : ∀ r, isTest r = false → keep r.relativePath = true →
      IsElsewhere exclusions place r)
    (expected : ∀ r ∈ (unpruned exclusions es).sourceFiles, keep r.relativePath = true →
      ∀ t, isTest t = true → t.fileName ∈ expectedTestNames r → IsElsewhere exclusions place t) :
    ((builtIn root a parse isCancelled).report (unpruned exclusions es)).result.details.filter
        (fun c => keep c.file) =
      ((builtIn root b parse isCancelled).report (unpruned exclusions fs)).result.details.filter
        fun c => keep c.file := by
  have hcancelled : (builtIn root a parse isCancelled).isCancelled =
      (builtIn root b parse isCancelled).isCancelled := rfl
  refine filter_details hcancelled (Scan.pairwise_unpruned exclusions (treeA.at? ha)).1
    (Scan.pairwise_unpruned exclusions (treeB.at? hb)).1 keep ?_ fun r hr hkeep => ?_
  · exact Scan.filter_sourceFiles_of_agreeBut treeA treeB agree ha hb _ elsewhere
  · obtain ⟨-, htest⟩ := (Scan.mem_sourceFiles_unpruned_iff (treeA.at? ha)).mp hr
    exact ownCoverage_builtIn parse isCancelled treeA treeB agree hrootA hrootB ha hb hr
      (elsewhere r htest hkeep) (expected r hr hkeep)

/-- **One file does not show in the coverage of others.**  A project is looked at in two file
systems that agree on everything but one file of it, which may be in one of them only, with the
built-in analyzers and the same exclusions.  If the file is a source, the entries of all other
sources are the same.  If it is a test, the sources are the same, and so is the entry of each source
that does not expect a test of its name.  If it is excluded or of no supported language, all entries
are the same. -/
theorem run_agreeBut {a b : FileSystem} (treeA : a.IsTree) (treeB : b.IsTree)
    (exclusions : Exclusions) {root : String} {top place : List String} {name : String}
    {es : List Entry} (reached : a.realPlace root = .ok top)
    (found : a.root.at? top = some (.directory name es)) (agree : a.AgreeBut (top ++ place) b)
    (parse : Bool → Source → Node) (isCancelled : Bool) :
    ∃ scanA scanB reportA reportB,
      a.scan exclusions root = .ok scanA ∧ b.scan exclusions root = .ok scanB ∧
      (builtIn root a parse isCancelled).run a exclusions = .ok reportA ∧
      (builtIn root b parse isCancelled).run b exclusions = .ok reportB ∧
      (∀ source ∈ scanA.sourceFiles ++ scanB.sourceFiles, source.relativePath = pathTo place →
        reportA.result.details.filter (fun c => c.file ≠ pathTo place) =
          reportB.result.details.filter fun c => c.file ≠ pathTo place) ∧
      (∀ test ∈ scanA.testFiles ++ scanB.testFiles, test.relativePath = pathTo place →
        scanA.sourceFiles = scanB.sourceFiles ∧
          ∀ source ∈ scanA.sourceFiles, test.fileName ∉ expectedTestNames source →
            reportA.result.details.filter (fun c => c.file = source.relativePath) =
              reportB.result.details.filter fun c => c.file = source.relativePath) ∧
      (¬Scan.Stays exclusions place ∨ Language.ofPath? (pathTo place) = none →
        reportA.result.details = reportB.result.details) := by
  -- both projects are the same directory, so both scans find what is below it
  have hne : top ≠ top ++ place := by
    intro heq
    exact agree.not_isDirectoryAt (heq ▸ ⟨name, es, found⟩)
  have reachedB := agree.realPlace reached hne
  obtain ⟨nameB, fs, foundB⟩ := agree.isDirectoryAt ⟨name, es, found⟩
  have hta := treeA.at? found
  have htb := treeB.at? foundB
  have hscanA := Scan.scan_eq_of_found hta exclusions
    (FileSystem.entry_eq_ok_iff.mpr ⟨top, reached, found⟩)
  have hscanB := Scan.scan_eq_of_found htb exclusions
    (FileSystem.entry_eq_ok_iff.mpr ⟨top, reachedB, foundB⟩)
  have hdetails := filter_details_builtIn exclusions parse isCancelled treeA treeB agree reached
    reachedB found foundB
  refine ⟨_, _, _, _, hscanA, hscanB, run_eq_report hscanA, run_eq_report hscanB, ?_, ?_, ?_⟩
  · intro source hsource hpath
    have hnot : isTest source = false := by
      rcases List.mem_append.mp hsource with h | h
      · exact ((Scan.mem_sourceFiles_unpruned_iff hta).mp h).2
      · exact ((Scan.mem_sourceFiles_unpruned_iff htb).mp h).2
    refine hdetails (fun path => path ≠ pathTo place)
      (fun r _ hkeep => Scan.isElsewhere_of_ne (of_decide_eq_true hkeep)) fun r _ _ t ht _ => ?_
    -- no test has the path of a source
    refine Scan.isElsewhere_of_ne fun heq => ?_
    rw [Scan.isTest_congr (heq.trans hpath.symm), hnot] at ht
    exact Bool.noConfusion ht
  · intro test htest hpath
    have his : isTest test = true := by
      rcases List.mem_append.mp htest with h | h
      · exact ((Scan.mem_testFiles_unpruned_iff hta).mp h).2
      · exact ((Scan.mem_testFiles_unpruned_iff htb).mp h).2
    have hsources : ∀ r, isTest r = false → IsElsewhere exclusions place r := by
      intro r hr
      refine Scan.isElsewhere_of_ne fun heq => ?_
      rw [Scan.isTest_congr (heq.trans hpath.symm), his] at hr
      exact Bool.noConfusion hr
    have hsame := Scan.filter_sourceFiles_of_agreeBut treeA treeB agree found foundB (fun _ => true)
      fun r hr _ => hsources r hr
    refine ⟨by simpa using hsame, fun source hsource hname => ?_⟩
    refine hdetails (fun path => path = source.relativePath) (fun r hr _ => hsources r hr)
      fun r hr hkeep t _ ht => Scan.isElsewhere_of_ne fun heq => hname ?_
    -- the path is the one of this source only
    have hincreasing := (Scan.pairwise_unpruned exclusions hta).1
    obtain rfl := List.inj_on_of_nodup_map (Sorting.nodup_of_pairwise_lt _ hincreasing) hr hsource
      (of_decide_eq_true hkeep)
    have hnames : test.fileName = t.fileName := by
      rw [FileRecord.fileName, FileRecord.names, hpath, ← heq]
      rfl
    exact hnames ▸ ht
  · intro hout
    have hall : ∀ r, IsElsewhere exclusions place r := by
      rintro r other hstays hlanguage - rfl
      rcases hout with h | h
      · exact h hstays
      · simp [h] at hlanguage
    have hfilter := hdetails (fun _ => true) (fun r _ _ => hall r) fun r _ _ t _ _ => hall t
    simpa using hfilter

/-- The sample with a source that is no longer a text. -/
def damagedFiles : FileSystem := sampleFiles.putAt ["app", "lib"] (.file "b.ts" [0xFF])

/-- Damage to one source of the sample does not show in the entries of the others. -/
theorem run_damagedFiles :
    sampleFiles.IsTree ∧ damagedFiles.IsTree ∧ sampleFiles.realPlace "/app" = .ok ["app"] ∧
      sampleFiles.root.at? ["app"] = some (.directory "app" sampleEntries) ∧
      sampleFiles.AgreeBut (["app"] ++ ["lib", "b.ts"]) damagedFiles ∧
      ∃ reportA reportB,
        (builtIn "/app" sampleFiles TypeScript.parse false).run sampleFiles [] = .ok reportA ∧
        (builtIn "/app" damagedFiles TypeScript.parse false).run damagedFiles [] = .ok reportB ∧
        reportA.result.details.filter (fun c => c.file ≠ "lib/b.ts") =
          reportB.result.details.filter fun c => c.file ≠ "lib/b.ts" := by
  have treeA : sampleFiles.IsTree := by decide
  have treeB : damagedFiles.IsTree := by decide
  have reached := FileSystem.realPlace_app sampleEntries
  have found : sampleFiles.root.at? ["app"] = some (.directory "app" sampleEntries) := rfl
  have file : ∀ e, sampleFiles.root.at? (["app", "lib"] ++ ["b.ts"]) = some e →
      e.isFile = true := by
    intro e he
    obtain rfl := Option.some.inj he
    rfl
  have agree : sampleFiles.AgreeBut (["app"] ++ ["lib", "b.ts"]) damagedFiles :=
    sampleFiles.agreeBut_putAt file [0xFF]
  obtain ⟨scanA, scanB, reportA, reportB, hscanA, -, hreportA, hreportB, hsource, -⟩ :=
    run_agreeBut treeA treeB [] reached found agree TypeScript.parse false
  refine ⟨treeA, treeB, reached, found, agree, reportA, reportB, hreportA, hreportB, ?_⟩
  have hscan := Scan.scan_eq_of_found (treeA.at? found) [] (FileSystem.entry_app sampleEntries)
  obtain rfl := Except.ok.inj (hscanA.symm.trans hscan)
  have hreported : IsReported [] (.directory "app" sampleEntries)
      ⟨"lib/b.ts", (Text.bytesOf "function go() \x7b\x7d\n").length, ".ts"⟩ :=
    ⟨["lib", "b.ts"], "b.ts", _, "ts", rfl, by decide, by decide, by decide, rfl⟩
  have hmem := (Scan.mem_sourceFiles_unpruned_iff (treeA.at? found)).mpr ⟨hreported, by decide⟩
  exact hsource _ (List.mem_append_left _ hmem) rfl

end Agreement

end Project

end CoverageEstimate

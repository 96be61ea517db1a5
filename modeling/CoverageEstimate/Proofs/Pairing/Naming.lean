/-
# The names of sources and of their tests

Three rules meet where a source is paired with its test.  The scan reads the language off the
extension of a path and keeps the extension with its dot; the pairing takes the extension off the
file name again and puts the ending of a test in its place; and the scan tells tests from sources by
such endings.  This file shows that the three fit together.

The fact that ties them is `FileRecord.IsNamed`: what a scan finds has a file name made of a stem, a
dot and the extension of a language, and there is only one way to read it so, because no extension
has a dot in it.
-/
import CoverageEstimate.Proofs.Pairing.Selection
import CoverageEstimate.Proofs.Scan.Agreement
import Mathlib.Data.List.TakeWhile

namespace CoverageEstimate

/-! ## Extensions -/

namespace Path

/-- The extension of a file name is what stands behind its last dot, unless the dot is its first
character. -/
lemma extensionOfName?_eq_some_iff {name extension : String} :
    extensionOfName? name = some extension ↔
      ∃ stem, stem ≠ "" ∧ '.' ∉ extension.toList ∧ name = stem ++ "." ++ extension := by
  constructor
  · intro h
    simp only [extensionOfName?] at h
    split at h
    · -- backwards, the name is the extension, a dot, and at least one character more
      rename_i dot c rest hback
      obtain rfl := Option.some.inj h
      have hdot : dot = '.' := by
        have hhead := List.head?_dropWhile_not (· != '.') name.toList.reverse
        rw [hback] at hhead
        simpa using hhead
      subst hdot
      refine ⟨String.ofList (c :: rest).reverse, by simp, fun hmem => ?_, ?_⟩
      · rw [String.toList_ofList, List.mem_reverse] at hmem
        simpa using List.mem_takeWhile_imp hmem
      · have hsplit := List.takeWhile_append_dropWhile (p := (· != '.')) (l := name.toList.reverse)
        rw [hback] at hsplit
        generalize name.toList.reverse.takeWhile (· != '.') = behind at hsplit ⊢
        have hname := congrArg List.reverse hsplit
        rw [List.reverse_reverse] at hname
        apply String.toList_inj.mp
        rw [← hname]
        simp
    · simp at h
  · rintro ⟨stem, hstem, hdot, rfl⟩
    have hback : (stem ++ "." ++ extension).toList.reverse =
        extension.toList.reverse ++ '.' :: stem.toList.reverse := by simp
    have hno : ∀ c ∈ extension.toList.reverse, (c != '.') = true := by
      intro c hc
      rw [bne_iff_ne]
      rintro rfl
      exact hdot (List.mem_reverse.mp hc)
    obtain ⟨c, rest, hc⟩ : ∃ c rest, stem.toList.reverse = c :: rest := by
      refine List.exists_cons_of_ne_nil fun hnil => hstem ?_
      simpa using hnil
    simp only [extensionOfName?, hback, List.dropWhile_append_of_pos hno,
      List.takeWhile_append_of_pos hno]
    simp [hc]

/-- The last name of a path is its file name. -/
lemma fileName?_of_segments {path : String} {dirs : List String} {n : String}
    (h : segments path = dirs ++ [n]) (hn : component? n = some (.name n)) :
    fileName? path = some n := by
  have hrest : (segments path).filterMap component? = dirs.filterMap component? ++ [.name n] := by
    rw [h, List.filterMap_append, List.filterMap_cons_some hn, List.filterMap_nil]
  have hlast : (components path).getLast? = some (.name n) := by
    rw [components]
    simp only [hrest]
    split
    · rw [← List.cons_append, List.getLast?_concat]
    · split
      · rw [← List.cons_append, List.getLast?_concat]
      · rw [List.getLast?_concat]
  rw [fileName?, hlast]

end Path

namespace Language

variable {l : Language} {stem extension : String}

lemma dot_not_mem_of_mem_extensions (h : extension ∈ l.extensions) : '.' ∉ extension.toList := by
  cases l with
  | dart =>
    obtain rfl := List.mem_singleton.mp h
    decide
  | typeScript =>
    rcases List.mem_pair.mp h with rfl | rfl <;> decide

lemma withoutDot_dot (extension : String) : withoutDot ("." ++ extension) = extension := by
  simp [withoutDot]

lemma withoutDot_of_not_mem (h : '.' ∉ extension.toList) : withoutDot extension = extension := by
  rw [withoutDot]
  split
  · rename_i rest hrest
    exact absurd (hrest ▸ List.mem_cons_self) h
  · rfl

/-- The dot of an extension does not matter for its language. -/
lemma ofExtension?_dot (h : '.' ∉ extension.toList) :
    ofExtension? ("." ++ extension) = ofExtension? extension := by
  rw [ofExtension?, ofExtension?, withoutDot_dot, withoutDot_of_not_mem h]

lemma mem_extensions_of_ofExtension? (hdot : '.' ∉ extension.toList)
    (h : ofExtension? extension = some l) : extension ∈ l.extensions := by
  have hl := List.find?_some h
  rw [withoutDot_of_not_mem hdot] at hl
  simpa using hl

/-- No two languages share an extension. -/
lemma ofExtension?_of_mem (h : extension ∈ l.extensions) : ofExtension? extension = some l := by
  cases l with
  | dart =>
    obtain rfl := List.mem_singleton.mp h
    decide
  | typeScript =>
    rcases List.mem_pair.mp h with rfl | rfl <;> decide

/-- A stem and an ending of tests make up a name of a test, and the name has the extension that the
ending has. -/
lemma of_ending (ending : String) (h : ending ++ "." ++ extension ∈ l.testSuffixes)
    (hne : ending ≠ "")
    (hlow : lowered (ending ++ "." ++ extension) = (ending ++ "." ++ extension).toList) {n : String}
    (hn : n = stem ++ (ending ++ "." ++ extension)) :
    l.isTestFileName n = true ∧ ∃ front, front ≠ "" ∧ n = front ++ "." ++ extension := by
  subst hn
  constructor
  · refine List.any_eq_true.mpr ⟨_, h, ?_⟩
    rw [List.isSuffixOf_iff_suffix, ← hlow]
    refine ⟨lowered stem, ?_⟩
    rw [lowered, lowered, lowered, ← List.map_append, ← String.toList_append]
  · refine ⟨stem ++ ending, fun hempty => hne ?_, ?_⟩
    · exact (String.append_eq_empty_iff.mp hempty).2
    · rw [String.append_assoc, String.append_assoc, String.append_assoc]

/-- A name that is expected of a test is a name of a test, and it has the extension that it is
expected with. -/
lemma of_mem_testFileNames (h : extension ∈ l.extensions) {n : String}
    (hn : n ∈ l.testFileNames stem ("." ++ extension)) :
    l.isTestFileName n = true ∧ ∃ front, front ≠ "" ∧ n = front ++ "." ++ extension := by
  cases l with
  | dart =>
    obtain rfl := List.mem_singleton.mp h
    simp only [testFileNames, withoutDot_dot, List.mem_singleton, String.append_assoc] at hn
    exact of_ending "_test" (by decide) (by decide) (by decide) hn
  | typeScript =>
    -- two endings for each of the two extensions
    simp only [testFileNames, withoutDot_dot, List.mem_pair, String.append_assoc] at hn
    rcases List.mem_pair.mp h with rfl | rfl <;> rcases hn with hn | hn
    · exact of_ending ".spec" (by decide) (by decide) (by decide) hn
    · exact of_ending ".test" (by decide) (by decide) (by decide) hn
    · exact of_ending ".spec" (by decide) (by decide) (by decide) hn
    · exact of_ending ".test" (by decide) (by decide) (by decide) hn

end Language

/-! ## Records -/

/-- The file name of a record is made of a stem, a dot and an extension of a language, which the
record keeps with its dot; and the path of the record is one of the language. -/
structure FileRecord.IsNamed (r : FileRecord) (stem extension : String) (l : Language) : Prop where
  stem_ne_empty : stem ≠ ""
  fileName_eq : r.fileName = stem ++ "." ++ extension
  extension_eq : r.extension = "." ++ extension
  supported : extension ∈ l.extensions
  ofPath?_eq : Language.ofPath? r.relativePath = some l

namespace FileRecord.IsNamed

variable {r s : FileRecord} {stem front extension : String} {l m : Language}

lemma language?_eq (h : r.IsNamed stem extension l) : r.language? = some l := by
  have hdot := Language.dot_not_mem_of_mem_extensions h.supported
  rw [language?, h.extension_eq, Language.ofExtension?_dot hdot]
  exact Language.ofExtension?_of_mem h.supported

lemma fileName_eq_append (h : r.IsNamed stem extension l) : r.fileName = stem ++ r.extension := by
  rw [h.fileName_eq, h.extension_eq, String.append_assoc]

/-- Taking the extension off the file name leaves the stem. -/
lemma stem?_eq (h : r.IsNamed stem extension l) : stem? r = some stem :=
  stem?_eq_of_fileName_eq h.fileName_eq_append

/-- A file name can be read in one way only, so it decides the language. -/
lemma language_eq (h : r.IsNamed stem extension l) {front other : String} (hfront : front ≠ "")
    (hother : other ∈ m.extensions) (hname : r.fileName = front ++ "." ++ other) : l = m := by
  have hdot := Language.dot_not_mem_of_mem_extensions h.supported
  have hdot' := Language.dot_not_mem_of_mem_extensions hother
  have hread : Path.extensionOfName? r.fileName = some extension :=
    Path.extensionOfName?_eq_some_iff.mpr ⟨stem, h.stem_ne_empty, hdot, h.fileName_eq⟩
  have hread' : Path.extensionOfName? r.fileName = some other :=
    Path.extensionOfName?_eq_some_iff.mpr ⟨front, hfront, hdot', hname⟩
  obtain rfl := Option.some.inj (hread.symm.trans hread')
  have hl := Language.ofExtension?_of_mem h.supported
  have hm := Language.ofExtension?_of_mem hother
  exact Option.some.inj (hl.symm.trans hm)

end FileRecord.IsNamed

/-! ## What a scan finds -/

namespace Scan

open Entry (IsName)

/-- No file below the entries has one of the two names that stand for directories: the one for the
directory itself and the one for the directory around it.  A file system gives these names to no
file, but entries may have them here. -/
def NoDotFiles (es : List Entry) : Prop :=
  ∀ f ∈ filesInAll [] es, f.place.getLastD "" ∉ [".", ".."]

instance (es : List Entry) : Decidable (NoDotFiles es) :=
  inferInstanceAs (Decidable (∀ f ∈ filesInAll [] es, f.place.getLastD "" ∉ [".", ".."]))

lemma component?_of_isName {n : String} (h : IsName n) (hdots : n ∉ [".", ".."]) :
    Path.component? n = some (.name n) := by
  simp only [List.mem_pair, not_or] at hdots
  simp [Path.component?, h.1, hdots.1, hdots.2]

/-- A file that a scan has to report has a stem, and the extension of its language. -/
lemma IsReported.exists_isNamed {exclusions : Exclusions} {n : String} {es : List Entry}
    (h : (Entry.directory n es).IsTree) (noDots : NoDotFiles es) {r : FileRecord}
    (hr : IsReported exclusions (.directory n es) r) :
    ∃ stem extension l, r.IsNamed stem extension l := by
  obtain ⟨place, name, content, extension, hat, -, hl, he, rfl⟩ := hr
  have hnames := h.isName_of_mem hat
  have hlast := noDots ⟨place, content⟩ ((mem_filesInAll_iff h).mpr ⟨name, hat⟩)
  rcases List.eq_nil_or_concat place with rfl | ⟨dirs, k, rfl⟩
  · exact absurd hat (by simp [Entry.at?])
  · rw [List.concat_eq_append] at *
    have hsegments := segments_pathTo (by simp) hnames
    have hk : Path.component? k = some (.name k) := by
      exact component?_of_isName (hnames k (by simp)) (by simpa using hlast)
    -- the extension of the path is that of its last name
    have hname := Path.fileName?_of_segments hsegments hk
    rw [Path.extension?, hname, Option.bind_some] at he
    obtain ⟨stem, hstem, hdot, hk⟩ := Path.extensionOfName?_eq_some_iff.mp he
    obtain ⟨l, hl⟩ := Option.isSome_iff_exists.mp hl
    have hext := hl
    rw [Language.ofPath?, Path.extension?, hname, Option.bind_some, he, Option.bind_some] at hext
    refine ⟨stem, extension, l, hstem, ?_, rfl,
      Language.mem_extensions_of_ofExtension? hdot hext, hl⟩
    rw [FileRecord.fileName, FileRecord.names, hsegments, ← hk]
    simp

end Scan

/-- The record of a source fits the way in which it is paired: its language is that of its path, and
its file name is a stem, which is not empty, with the extension behind it; the names that its test
may have are names of tests, and no source has any of them; and its test is of the same language. -/
structure FitsPairing (scan : ScanResult) (source : FileRecord) (l : Language) (stem : String) :
    Prop where
  language?_eq : source.language? = some l
  ofPath?_eq : Language.ofPath? source.relativePath = some l
  stem_ne_empty : stem ≠ ""
  fileName_eq : source.fileName = stem ++ source.extension
  stem?_eq : stem? source = some stem
  isTestFileName : ∀ n ∈ l.testFileNames stem source.extension, l.isTestFileName n = true
  not_source : ∀ n ∈ l.testFileNames stem source.extension, ∀ other ∈ scan.sourceFiles,
    other.fileName ≠ n
  test_language : ∀ test, (TestIndex.ofTests scan.testFiles).find? source = some test →
    test.language? = some l

/-- A record with the file name of a test names a test. -/
lemma FileRecord.IsNamed.isTest_eq_true {r : FileRecord} {stem extension : String} {l : Language}
    (h : r.IsNamed stem extension l) (htest : l.isTestFileName r.fileName = true) :
    Scan.isTest r = true := by
  simp only [Scan.isTest, h.ofPath?_eq, isTestPath, Bool.or_eq_true]
  exact Or.inr htest

/-- Sources and tests with names and extensions of languages fit together. -/
lemma fitsPairing_of_isNamed {scan : ScanResult}
    (sources : ∀ r ∈ scan.sourceFiles, Scan.isTest r = false ∧ ∃ stem e l, r.IsNamed stem e l)
    (tests : ∀ r ∈ scan.testFiles, ∃ stem e l, r.IsNamed stem e l) {source : FileRecord}
    {stem extension : String} {l : Language} (h : source.IsNamed stem extension l) :
    FitsPairing scan source l stem := by
  have hexpected : ∀ n ∈ l.testFileNames stem source.extension,
      l.isTestFileName n = true ∧ ∃ front, front ≠ "" ∧ n = front ++ "." ++ extension := by
    rw [h.extension_eq]
    exact fun n hn => Language.of_mem_testFileNames h.supported hn
  refine ⟨h.language?_eq, h.ofPath?_eq, h.stem_ne_empty, h.fileName_eq_append, h.stem?_eq,
    fun n hn => (hexpected n hn).1, ?_, ?_⟩
  · rintro n hn other hother rfl
    obtain ⟨htest, front, hfront, hname⟩ := hexpected _ hn
    obtain ⟨hnot, s, e, m, hm⟩ := sources other hother
    -- the other file is of the same language, so the scan has told it for a test
    obtain rfl := hm.language_eq hfront h.supported hname
    rw [hm.isTest_eq_true htest] at hnot
    exact Bool.noConfusion hnot
  · intro test htest
    rw [TestIndex.find?_eq_firstLongest] at htest
    obtain ⟨hmem, hname⟩ := List.mem_filter.mp (mem_of_firstLongest htest)
    have hname := of_decide_eq_true hname
    simp only [expectedTestNames, h.language?_eq, h.stem?_eq] at hname
    obtain ⟨-, front, hfront, hname⟩ := hexpected _ hname
    obtain ⟨s, e, m, hm⟩ := tests test hmem
    obtain rfl := hm.language_eq hfront h.supported hname
    exact hm.language?_eq

/-- **What a scan finds fits the pairing.**  Each source of a scanned tree has the language of its
path and a file name that ends in its extension, with something before it, so the search for its
test never gives up early.  Every name that its test may have is one by which the scan tells tests,
so no source bears such a name; and the test that is found for it is of its language. -/
theorem scan_fitsPairing {fs : FileSystem} (tree : fs.IsTree) (exclusions : Exclusions)
    {root name : String} {es : List Entry} (found : fs.entry root = .ok (.directory name es))
    (noDots : Scan.NoDotFiles es) :
    ∃ scan, fs.scan exclusions root = .ok scan ∧
      ∀ source ∈ scan.sourceFiles, ∃ l stem, FitsPairing scan source l stem := by
  have htop := tree.entry found
  refine ⟨_, Scan.scan_eq_of_found htop exclusions found, fun source hsource => ?_⟩
  have hsources : ∀ r ∈ (Scan.unpruned exclusions es).sourceFiles,
      Scan.isTest r = false ∧ ∃ stem e l, r.IsNamed stem e l := by
    intro r hr
    obtain ⟨hreported, hnot⟩ := (Scan.mem_sourceFiles_unpruned_iff htop).mp hr
    exact ⟨hnot, hreported.exists_isNamed htop noDots⟩
  have htests : ∀ r ∈ (Scan.unpruned exclusions es).testFiles, ∃ stem e l, r.IsNamed stem e l := by
    intro r hr
    obtain ⟨hreported, -⟩ := (Scan.mem_testFiles_unpruned_iff htop).mp hr
    exact hreported.exists_isNamed htop noDots
  obtain ⟨-, stem, e, l, hl⟩ := hsources source hsource
  exact ⟨l, stem, fitsPairing_of_isNamed hsources htests hl⟩

/-- A directory with a source whose stem has a dot and a letter beyond ASCII in it, with its test,
and with a file of type declarations. -/
def dottedEntries : List Entry :=
  [.directory "lib" [.file "Äpfel.V2.tsx" [], .file "Äpfel.d.ts" []],
    .directory "spec" [.file "Äpfel.V2.spec.tsx" []]]

/-- The directory as the project of a file system. -/
def dottedFiles : FileSystem := ⟨[.directory "app" dottedEntries], "/"⟩

/-- The source of the directory fits the pairing, and finds its test. -/
theorem scan_dottedFiles :
    dottedFiles.IsTree ∧ dottedFiles.entry "/app" = .ok (.directory "app" dottedEntries) ∧
      Scan.NoDotFiles dottedEntries ∧
      ∃ scan, dottedFiles.scan [] "/app" = .ok scan ∧
        scan.sourceFiles = [⟨"lib/Äpfel.V2.tsx", 0, ".tsx"⟩] ∧
        FitsPairing scan ⟨"lib/Äpfel.V2.tsx", 0, ".tsx"⟩ .typeScript "Äpfel.V2" ∧
        (TestIndex.ofTests scan.testFiles).find? ⟨"lib/Äpfel.V2.tsx", 0, ".tsx"⟩ =
          some ⟨"spec/Äpfel.V2.spec.tsx", 0, ".tsx"⟩ := by
  have tree : dottedFiles.IsTree := by decide
  have found := FileSystem.entry_app dottedEntries
  have noDots : Scan.NoDotFiles dottedEntries := by decide
  have hresult : Scan.unpruned [] dottedEntries =
      ⟨[⟨"lib/Äpfel.V2.tsx", 0, ".tsx"⟩], [⟨"spec/Äpfel.V2.spec.tsx", 0, ".tsx"⟩]⟩ := by
    decide +kernel
  obtain ⟨scan, hscan, hfits⟩ := scan_fitsPairing tree [] found noDots
  have hsame := Scan.scan_eq_of_found (tree.entry found) [] found
  rw [hresult] at hsame
  obtain rfl := Except.ok.inj (hscan.symm.trans hsame)
  obtain ⟨l, stem, hsource⟩ := hfits _ (List.mem_singleton_self _)
  have hl : l = .typeScript := Option.some.inj (hsource.language?_eq.symm.trans (by decide))
  have hstem : stem = "Äpfel.V2" := Option.some.inj (hsource.stem?_eq.symm.trans (by decide))
  subst hl hstem
  exact ⟨tree, found, noDots, _, hscan, rfl, hsource, by decide +kernel⟩

end CoverageEstimate

/-
# Names of tests in capital letters

The scan tells tests by their names in any letter case, and the pairing builds the names that it
expects of the tests of a source and looks for them as they are.  But for the case of letters, the
two describe the same names (`Language.isTestFileName_iff`).

So a file may be a test by its name, be named for a source, and still not be found for that.  This
happens just when the ending that makes it a test is not written in lower case.
-/
import CoverageEstimate.Proofs.Pairing.Naming

namespace CoverageEstimate

/-! ## The two tables of names -/

namespace Language

variable {l : Language} {stem extension n : String}

/-- What stands between the stem of a source and its extension in the name of a test. -/
def testEndings : Language → List String
  | dart => ["_test"]
  | typeScript => [".spec", ".test"]

/-- The names by which the scan tells tests end in an ending and an extension. -/
lemma testSuffixes_eq (l : Language) :
    l.testSuffixes = l.extensions.flatMap fun e => l.testEndings.map (· ++ "." ++ e) := by
  cases l <;> decide

/-- The names that are expected of tests have the stem in front of them. -/
lemma testFileNames_eq (l : Language) (stem extension : String) :
    l.testFileNames stem ("." ++ extension) =
      l.testEndings.map fun ending => stem ++ (ending ++ "." ++ extension) := by
  have hdot : "_test." = "_test" ++ "." ∧ ".spec." = ".spec" ++ "." ∧ ".test." = ".test" ++ "." := by
    decide
  cases l <;>
    simp only [testFileNames, testEndings, withoutDot_dot, List.map_cons, List.map_nil, hdot,
      String.append_assoc]

lemma lowered_append (a b : String) : lowered (a ++ b) = lowered a ++ lowered b := by
  rw [lowered, String.toList_append, List.map_append]
  rfl

lemma lowered_suffix {s : String} (h : s ∈ l.testSuffixes) : lowered s = s.toList := by
  have hall : ∀ s ∈ l.testSuffixes, lowered s = s.toList := by cases l <;> decide
  exact hall s h

lemma lowered_ending {ending : String} (h : ending ∈ l.testEndings) :
    lowered ending = ending.toList := by
  have hall : ∀ ending ∈ l.testEndings, lowered ending = ending.toList := by cases l <;> decide
  exact hall ending h

/-- **The scan and the pairing** describe the same names, but for the case of letters: a name is one
of a test just when the test of some source is expected to have it. -/
theorem isTestFileName_iff :
    l.isTestFileName n = true ↔ ∃ stem, ∃ extension ∈ l.extensions,
      ∃ m ∈ l.testFileNames stem ("." ++ extension), lowered n = lowered m := by
  constructor
  · intro h
    obtain ⟨s, hs, hsuffix⟩ := List.any_eq_true.mp h
    obtain ⟨front, hfront⟩ := List.isSuffixOf_iff_suffix.mp hsuffix
    have hlow := lowered_suffix hs
    rw [testSuffixes_eq, List.mem_flatMap] at hs
    obtain ⟨extension, he, hending⟩ := hs
    obtain ⟨ending, hmem, rfl⟩ := List.mem_map.mp hending
    -- the characters of the name in front of its ending are a stem
    let stem := String.ofList (n.toList.take front.length)
    have hstem : lowered stem = front := by
      have htake := congrArg (List.take front.length) hfront
      rw [List.take_left, lowered, ← List.map_take] at htake
      rw [lowered, String.toList_ofList, ← htake]
    refine ⟨stem, extension, he, stem ++ (ending ++ "." ++ extension), ?_, ?_⟩
    · rw [testFileNames_eq]
      exact List.mem_map.mpr ⟨ending, hmem, rfl⟩
    · rw [lowered_append, hstem, hlow, hfront]
  · rintro ⟨stem, extension, he, m, hm, heq⟩
    have htest := (of_mem_testFileNames he hm).1
    rwa [isTestFileName, ← heq] at htest

/-! ## The names of the tests of one source -/

/-- The name is one of a test, and but for the case of letters between the stem and the extension it
is expected of the tests of the source `stem.extension`. -/
structure IsTestNameOf (l : Language) (stem extension n : String) : Prop where
  isTest : l.isTestFileName n = true
  named : ∃ ending, n = stem ++ (ending ++ "." ++ extension)
  expected : ∃ m ∈ l.testFileNames stem ("." ++ extension), lowered n = lowered m

/-- Such a name has the ending of a test, in any letter case. -/
lemma isTestNameOf_iff (h : extension ∈ l.extensions) {ending : String}
    (hn : n = stem ++ (ending ++ "." ++ extension)) :
    l.IsTestNameOf stem extension n ↔ String.ofList (lowered ending) ∈ l.testEndings := by
  have hlowered : ∀ other ∈ l.testEndings,
      lowered n = lowered (stem ++ (other ++ "." ++ extension)) ↔
        String.ofList (lowered ending) = other := by
    intro other hother
    rw [hn]
    simp only [lowered_append, List.append_cancel_left_eq, List.append_cancel_right_eq,
      lowered_ending hother]
    rw [← String.toList_inj, String.toList_ofList]
  constructor
  · rintro ⟨-, -, m, hm, heq⟩
    rw [testFileNames_eq] at hm
    obtain ⟨other, hother, rfl⟩ := List.mem_map.mp hm
    rwa [(hlowered other hother).mp heq]
  · intro hmem
    have hexpected : ∃ m ∈ l.testFileNames stem ("." ++ extension), lowered n = lowered m := by
      rw [testFileNames_eq]
      exact ⟨_, List.mem_map.mpr ⟨_, hmem, rfl⟩, (hlowered _ hmem).mpr rfl⟩
    exact ⟨isTestFileName_iff.mpr ⟨stem, extension, h, hexpected⟩, ⟨ending, hn⟩, hexpected⟩

/-- Of these names, the expected ones have their endings in lower case. -/
lemma mem_testFileNames_iff (h : extension ∈ l.extensions) :
    n ∈ l.testFileNames stem ("." ++ extension) ↔
      ∃ ending, n = stem ++ (ending ++ "." ++ extension) ∧ lowered ending = ending.toList ∧
        l.IsTestNameOf stem extension n := by
  rw [testFileNames_eq, List.mem_map]
  constructor
  · rintro ⟨ending, hmem, rfl⟩
    have hlow := lowered_ending hmem
    refine ⟨ending, rfl, hlow, (isTestNameOf_iff h rfl).mpr ?_⟩
    rwa [hlow, String.ofList_toList]
  · rintro ⟨ending, hn, hlow, htest⟩
    have hmem := (isTestNameOf_iff h hn).mp htest
    rw [hlow, String.ofList_toList] at hmem
    exact ⟨ending, hmem, hn.symm⟩

end Language

/-! ## The test of a source -/

lemma isSome_firstLongest_iff {dirs : List String} {tests : List FileRecord} :
    (firstLongest dirs tests).isSome ↔ tests ≠ [] := by
  cases tests with
  | nil => simp [firstLongest]
  | cons test rest =>
    rw [firstLongest]
    split
    · simp
    · split <;> simp

/-- **A source has a test** just when some file of the scan has the name of a test of that source
with its ending in lower case.  The names of tests in other letter cases, by which the scan tells
tests as well, are not found. -/
theorem isSome_find?_iff_lowercase (tests : List FileRecord) {source : FileRecord} {l : Language}
    {stem extension : String} (supported : extension ∈ l.extensions)
    (kept : source.extension = "." ++ extension)
    (name : source.fileName = stem ++ "." ++ extension) :
    ((TestIndex.ofTests tests).find? source).isSome ↔
      ∃ test ∈ tests, ∃ ending, test.fileName = stem ++ (ending ++ "." ++ extension) ∧
        Language.lowered ending = ending.toList ∧
        l.IsTestNameOf stem extension test.fileName := by
  have hdot := Language.dot_not_mem_of_mem_extensions supported
  have hl : source.language? = some l := by
    rw [FileRecord.language?, kept, Language.ofExtension?_dot hdot]
    exact Language.ofExtension?_of_mem supported
  have hstem : stem? source = some stem :=
    stem?_eq_of_fileName_eq (by rw [name, kept, String.append_assoc])
  have hnames : expectedTestNames source = l.testFileNames stem ("." ++ extension) := by
    rw [expectedTestNames, hl, hstem, kept]
  simp only [TestIndex.find?_eq_firstLongest, isSome_firstLongest_iff, ne_eq,
    List.filter_eq_nil_iff, decide_eq_true_eq, not_forall, not_not, exists_prop, hnames,
    Language.mem_testFileNames_iff supported]

/-- The test of a widget, with its ending in capital letters. -/
def capitalTest : FileRecord := ⟨"test/widget_TEST.dart", 1, ".dart"⟩

/-- The widget finds its test under the name in lower case. -/
theorem find?_lowercaseTest :
    let source : FileRecord := ⟨"lib/widget.dart", 1, ".dart"⟩
    let test : FileRecord := ⟨"test/widget_test.dart", 1, ".dart"⟩
    "dart" ∈ Language.dart.extensions ∧ source.extension = "." ++ "dart" ∧
      source.fileName = "widget" ++ "." ++ "dart" ∧
      ((TestIndex.ofTests [capitalTest, test]).find? source).isSome := by
  intro source test
  have supported : "dart" ∈ Language.dart.extensions := by decide
  have kept : source.extension = "." ++ "dart" := by decide
  have name : source.fileName = "widget" ++ "." ++ "dart" := by decide
  have htest : test.fileName = "widget" ++ ("_test" ++ "." ++ "dart") := by decide
  refine ⟨supported, kept, name, ?_⟩
  refine (isSome_find?_iff_lowercase [capitalTest, test] supported kept name).mpr ?_
  exact ⟨test, by simp, "_test", htest, by decide,
    (Language.isTestNameOf_iff supported htest).mpr (by decide)⟩

/-- The widget does not find its test under the name in capital letters. -/
theorem find?_capitalTest_eq_none :
    let source : FileRecord := ⟨"lib/widget.dart", 1, ".dart"⟩
    source.language? = some .dart ∧ source.fileName = "widget" ++ source.extension ∧
      Language.dart.IsTestNameOf "widget" "dart" capitalTest.fileName ∧
      (TestIndex.ofTests [capitalTest]).find? source = none := by
  refine ⟨by decide, by decide, ?_, by decide⟩
  have hname : capitalTest.fileName = "widget" ++ ("_TEST" ++ "." ++ "dart") := by decide
  exact (Language.isTestNameOf_iff (by decide) hname).mpr (by decide)

end CoverageEstimate

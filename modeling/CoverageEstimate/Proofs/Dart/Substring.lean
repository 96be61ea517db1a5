/-
# Coverage by the line scanner is a question of substrings

The signals of a Dart test come from its text by cutting: a called name is the identifier of a
match, a title is what stands between two quotes, and a word of a title is a run of its characters.
Nothing is decoded or put together on the way, so each of them is a piece of the text.

The consequence is that a call or a mention never says more about whether a function is covered than
the text does.  A function of the test's source is covered exactly when its name stands somewhere in
the test.
-/
import CoverageEstimate.Proofs.Dart.Calls
import CoverageEstimate.Proofs.Dart.Extents
import CoverageEstimate.Proofs.Dart.Titles
import CoverageEstimate.Score

namespace CoverageEstimate

/-! ## Signals cut from a text -/

/-- Every name that is called or mentioned is a piece of the text. -/
structure Signals.CutFrom (text : List Char) (s : Signals) : Prop where
  calls : ∀ n ∈ s.calls, n.toList <:+: text
  mentions : ∀ n ∈ s.mentions, n.toList <:+: text

namespace Signals

/-- The signals of names and titles that are cut from a text are cut from it. -/
lemma cutFrom_ofLists {text : List Char} {callees titles : List String}
    (hc : ∀ n ∈ callees, n.toList <:+: text)
    (ht : ∀ t ∈ titles, t.toList <:+: text) : (ofLists callees titles).CutFrom text where
  calls n hn := hc n (mem_calls_ofLists.mp hn).1
  mentions n hn := by
    obtain ⟨t, hmem, rfl | hn⟩ := mem_mentions_ofLists.mp hn
    · exact ht n hmem
    · exact (Text.infix_of_mem_tokens (mem_titleWords_iff.mp hn)).trans (ht t hmem)

end Signals

/-! ## Scores -/

/-- The evidence comes down to whether the name is a piece of the text: that decides whether there
are points, and what is called or mentioned stands in the text. -/
structure Evidence.IsTextual (name : String) (text : List Char) (e : Evidence) : Prop where
  score_pos_iff : 0 < e.score ↔ name.toList <:+: text
  isTextMatch_of_isCalled : e.isCalled = true → e.isTextMatch = true
  isTextMatch_of_isMentioned : e.isMentioned = true → e.isTextMatch = true

lemma isTextMatch_scoreFunction_iff {name : String} (hne : name ≠ "") (s : Signals)
    (text : List Char) :
    (scoreFunction name s text).isTextMatch = true ↔ name.toList <:+: text := by
  simp [scoreFunction, hne, occursIn_iff]

/-- With signals that are cut from the text, the evidence for a name comes down to the text. -/
lemma Signals.CutFrom.isTextual {text : List Char} {s : Signals} (h : s.CutFrom text)
    {name : String} (hne : name ≠ "") : (scoreFunction name s text).IsTextual name text := by
  have htext := isTextMatch_scoreFunction_iff hne s text
  have hcalled : (scoreFunction name s text).isCalled = true → name.toList <:+: text :=
    fun hc => h.calls name (Signals.isCalled_iff.mp hc)
  have hmentioned : (scoreFunction name s text).isMentioned = true → name.toList <:+: text :=
    fun hm => h.mentions name (Signals.isMentioned_iff.mp hm)
  refine ⟨?_, fun hc => htext.mpr (hcalled hc), fun hm => htext.mpr (hmentioned hm)⟩
  have hpoints : 0 < (scoreFunction name s text).score ↔
      (scoreFunction name s text).isCalled || (scoreFunction name s text).isMentioned ||
        (scoreFunction name s text).isTextMatch := Evidence.points_pos_iff
  rw [hpoints, Bool.or_eq_true, Bool.or_eq_true, htext]
  constructor
  · rintro ((hc | hm) | ht)
    · exact hcalled hc
    · exact hmentioned hm
    · exact ht
  · exact fun ht => Or.inr ht

namespace Dart

open Text

/-! ## What the patterns read -/

/-- The callee of a call stands in the text, and so does the title of a declaration: the signals of
a Dart test are cut from its text. -/
lemma cutFrom_signals (text : List Char) : (signals text).CutFrom text := by
  refine Signals.cutFrom_ofLists (fun n hn => ?_) (fun t ht => ?_)
  · obtain ⟨name, hname, rfl⟩ := List.mem_map.mp (List.mem_filter.mp hn).1
    obtain ⟨front, back, n, rfl, hmatch⟩ := Pattern.exists_of_mem_occurrences hname
    obtain ⟨-, lead, rest, rfl, -⟩ := callPattern_eq_some_iff.mp hmatch
    exact ⟨front, lead.text ++ '(' :: rest, by simp⟩
  · obtain ⟨title, htitle, rfl⟩ := List.mem_map.mp ht
    obtain ⟨front, back, n, rfl, hmatch⟩ := Pattern.exists_of_mem_occurrences htitle
    obtain ⟨-, word, -, lead, rest, -, rfl, -⟩ := titlePattern_eq_some_iff.mp hmatch
    exact ⟨front ++ (word ++ lead.text), lead.quote :: rest, by simp⟩

/-! ## Names of functions -/

/-- A declared name is a word, which has characters and only those of words. -/
lemma isWord_of_declaredName? {before name : List Char} (h : declaredName? before = some name) :
    name ≠ [] ∧ ∀ c ∈ name, isWord c = true := by
  rw [declaredName?] at h
  split at h
  · simp at h
  · dsimp only at h
    split at h
    · simp at h
    · rename_i hne
      split at h
      · obtain rfl := Option.some.inj h
        refine ⟨by simpa using hne, fun c hc => ?_⟩
        exact List.mem_takeWhile_imp (List.mem_reverse.mp hc)
      · simp at h

/-- The name of a header is declared in it. -/
lemma exists_declaredName? {line name : List Char} (h : headerName? line = some name) :
    ∃ before, declaredName? before = some name := by
  rw [headerName?] at h
  split at h
  · rename_i shaped hshaped
    split at h
    · simp at h
    · obtain rfl := Option.some.inj h
      rw [shapedName?] at hshaped
      split at hshaped
      · simp at hshaped
      · split at hshaped
        · exact ⟨_, hshaped⟩
        · simp at hshaped
  · simp at h

/-- The functions that are found have declared names. -/
lemma FoundFrom.exists_declaredName? {ls : List (List Char)} {start : ℕ}
    {found : List FunctionDefinition} (h : FoundFrom ls start found) :
    ∀ d ∈ found, ∃ before, declaredName? before = some d.name.toList := by
  induction h with
  | done => simp
  | unended => simp
  | @ended start i e name rest hi he hr ih =>
    intro d hd
    rcases List.mem_cons.mp hd with rfl | hd
    · rw [String.toList_ofList]
      exact Dart.exists_declaredName? hi.header
    · exact ih d hd

lemma FoundFrom.name_ne_empty {ls : List (List Char)} {start : ℕ} {found : List FunctionDefinition}
    (h : FoundFrom ls start found) : ∀ d ∈ found, d.name ≠ "" := by
  intro d hd hempty
  obtain ⟨before, hbefore⟩ := h.exists_declaredName? d hd
  refine (isWord_of_declaredName? hbefore).1 ?_
  rw [hempty]
  rfl

/-- **Coverage by the line scanner** is a question of substrings.  A name is worth points against a
Dart test exactly when it stands somewhere in its text, and so does a name that is called or
mentioned there.  This holds of every name, and so of the functions of any source, each of which is
covered exactly when its name stands in the test. -/
theorem scoreFunction_signals_isTextual (text : List Char) :
    (∀ name : String, name ≠ "" → (scoreFunction name (signals text) text).IsTextual name text) ∧
      ∀ source : List Char, ∀ d ∈ functions source,
        (scoreFunction d.name (signals text) text).IsTextual d.name text ∧
          ((FunctionCoverage.ofDefinition d (scoreFunction d.name (signals text) text)).covered =
            true ↔ d.name.toList <:+: text) := by
  have hall : ∀ name : String, name ≠ "" →
      (scoreFunction name (signals text) text).IsTextual name text :=
    fun name hne => (cutFrom_signals text).isTextual hne
  refine ⟨hall, fun source d hd => ?_⟩
  have hd := hall d.name ((functions_found source).name_ne_empty d hd)
  refine ⟨hd, ?_⟩
  rw [← hd.score_pos_iff]
  simp [FunctionCoverage.ofDefinition]

/-- A source with one function. -/
def sampleSource : List Char := "int load() => 1;".toList

/-- A test that names the function in a comment only. -/
def sampleTest : List Char := "// load\nrun();".toList

/-- The comment is enough for the function of the sample. -/
theorem scoreFunction_sampleTest :
    "load" ≠ "" ∧
      (scoreFunction "load" (signals sampleTest) sampleTest).IsTextual "load" sampleTest ∧
      ⟨"load", 1, 1, "int load() => 1;", .function, none⟩ ∈ functions sampleSource ∧
      (FunctionCoverage.ofDefinition ⟨"load", 1, 1, "int load() => 1;", .function, none⟩
        (scoreFunction "load" (signals sampleTest) sampleTest)).covered = true := by
  have hne : "load" ≠ "" := by decide
  have hfound : ⟨"load", 1, 1, "int load() => 1;", .function, none⟩ ∈ functions sampleSource := by
    decide +kernel
  obtain ⟨hnames, hfunctions⟩ := scoreFunction_signals_isTextual sampleTest
  refine ⟨hne, hnames "load" hne, hfound, ?_⟩
  exact (hfunctions sampleSource _ hfound).2.mpr ⟨"// ".toList, "\nrun();".toList, by decide⟩

end Dart

end CoverageEstimate

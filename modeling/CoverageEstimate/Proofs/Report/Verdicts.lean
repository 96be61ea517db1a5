/-
# The verdicts in a report for readers

A report for a reader says in words whether the coverage suffices: at the top, and once more at the end
if some coverage is asked for.  These words have the colour of success or failure, which scores and
some percentages have too, but neither of those can be taken for one of the words.  So the verdicts
in a report are the one or two that are meant, and they agree with each other.
-/
import CoverageEstimate.Report.Pretty
import Mathlib.Data.Nat.Notation
import Mathlib.Tactic.Lemma

namespace CoverageEstimate

open Text (Span Style padLeft)

/-- The words that say that the coverage suffices. -/
def goodVerdicts : List String := ["✓ PASS", "PASSED"]

/-- The words that say that the coverage does not suffice. -/
def badVerdicts : List String := ["✗ FAIL", "FAILED"]

/-- Whether a piece of a report is a verdict: one of these words, in the colour of success or
failure. -/
def Text.Span.isVerdict (s : Span) : Bool :=
  (s.style == some (.coloured .green) || s.style == some (.coloured .red)) &&
    (goodVerdicts ++ badVerdicts).contains s.text

/-- The verdicts among some pieces of a report, in their order. -/
def verdictsIn (spans : List Span) : List String := (spans.filter Span.isVerdict).map (·.text)

/-! ## Pieces that are no verdicts -/

@[simp] lemma verdictsIn_append (front back : List Span) :
    verdictsIn (front ++ back) = verdictsIn front ++ verdictsIn back := by
  simp [verdictsIn]

@[simp] lemma verdictsIn_nil : verdictsIn [] = [] := rfl

/-- A piece that is no verdict does not count. -/
lemma verdictsIn_cons {s : Span} (h : s.isVerdict = false) (rest : List Span) :
    verdictsIn (s :: rest) = verdictsIn rest := by
  rw [verdictsIn, List.filter_cons_of_neg (by simp [h]), verdictsIn]

lemma verdictsIn_eq_nil {spans : List Span} (h : ∀ s ∈ spans, s.isVerdict = false) :
    verdictsIn spans = [] := by
  rw [verdictsIn, List.map_eq_nil_iff, List.filter_eq_nil_iff]
  intro s hs
  simp [h s hs]

@[simp] lemma isVerdict_plain (text : String) : (Span.plain text).isVerdict = false := by
  simp [Span.isVerdict, Span.plain]

/-- Another colour is not that of a verdict. -/
lemma isVerdict_styled_of_ne {style : Style} (hgreen : style ≠ .coloured .green)
    (hred : style ≠ .coloured .red) (text : String) : (Span.styled style text).isVerdict = false := by
  simp [Span.isVerdict, Span.styled, hgreen, hred]

/-- Another text is not one of the words. -/
lemma isVerdict_styled_of_not_mem {text : String} (h : text ∉ goodVerdicts ++ badVerdicts)
    (style : Style) : (Span.styled style text).isVerdict = false := by
  simp only [Span.isVerdict, Span.styled, Bool.and_eq_false_iff]
  exact Or.inr (by simpa using h)

@[simp] lemma isVerdict_dimmed (text : String) : (Span.styled .dimmed text).isVerdict = false :=
  isVerdict_styled_of_ne (by decide) (by decide) text

@[simp] lemma isVerdict_bold (text : String) : (Span.styled .bold text).isVerdict = false :=
  isVerdict_styled_of_ne (by decide) (by decide) text

@[simp] lemma isVerdict_blue (text : String) :
    (Span.styled (.coloured .blue) text).isVerdict = false :=
  isVerdict_styled_of_ne (by decide) (by decide) text

@[simp] lemma isVerdict_yellow (text : String) :
    (Span.styled (.coloured .yellow) text).isVerdict = false :=
  isVerdict_styled_of_ne (by decide) (by decide) text

@[simp] lemma isVerdict_boldCyan (text : String) :
    (Span.styled (.boldColoured .cyan) text).isVerdict = false :=
  isVerdict_styled_of_ne (by decide) (by decide) text

namespace Report

/-- A percentage ends in its sign, and no verdict does. -/
@[simp] lemma isVerdict_percentageSpan (x : Float) : (percentageSpan x).isVerdict = false := by
  refine isVerdict_styled_of_not_mem (fun h => ?_) _
  have hlast : (percentageText x).toList.getLast? = some '%' := by
    rw [percentageText, String.toList_append, List.getLast?_append]
    rfl
  have hother : ∀ word ∈ goodVerdicts ++ badVerdicts, word.toList.getLast? ≠ some '%' := by decide
  exact hother _ h hlast

/-- A number has no letters. -/
lemma letter_not_mem_toString (n : Int) : 'A' ∉ (toString n).toList := by
  have hnatural : ∀ m : ℕ, 'A' ∉ (toString m).toList := by
    intro m h
    rw [Nat.toString_eq_repr, Nat.toList_repr] at h
    exact absurd (Nat.isDigit_of_mem_toDigits (by decide) (by decide) h) (by decide)
  rw [Int.toString_eq_repr, Int.repr_eq_if]
  split
  · exact hnatural _
  · rw [String.toList_append, List.mem_append, not_or]
    exact ⟨by decide, hnatural _⟩

/-- A score is a number behind spaces, and every verdict has letters. -/
@[simp] lemma isVerdict_scoreSpan (isGood : Bool) (score : Int) :
    (verdictSpan isGood (padLeft 3 (toString score)) (padLeft 3 (toString score))).isVerdict =
      false := by
  have hnot : padLeft 3 (toString score) ∉ goodVerdicts ++ badVerdicts := by
    intro h
    have hletter : ∀ word ∈ goodVerdicts ++ badVerdicts, 'A' ∈ word.toList := by decide
    have hmem := hletter _ h
    rw [padLeft, String.toList_append, String.toList_ofList, List.mem_append] at hmem
    rcases hmem with hmem | hmem
    · exact absurd (List.eq_of_mem_replicate hmem) (by decide)
    · exact letter_not_mem_toString score hmem
  cases isGood
  · exact isVerdict_styled_of_not_mem hnot _
  · exact isVerdict_styled_of_not_mem hnot _

/-! ## Parts of a report -/

lemma verdictsIn_headingSpans (h : ReportHeading) : verdictsIn (headingSpans h) = [] := by
  refine verdictsIn_eq_nil ?_
  simp [headingSpans]

lemma isVerdict_of_mem_functionSpans (f : FunctionCoverage) :
    ∀ s ∈ functionSpans f, s.isVerdict = false := by
  rw [functionSpans]
  simp only [List.forall_mem_append, List.forall_mem_cons, isVerdict_plain, isVerdict_scoreSpan,
    isVerdict_dimmed]
  split <;> simp

lemma isVerdict_of_mem_fileSpans (isVerbose : Bool) (f : FileCoverage) :
    ∀ s ∈ fileSpans isVerbose f, s.isVerdict = false := by
  rw [fileSpans]
  simp only [List.forall_mem_append, List.forall_mem_cons, isVerdict_plain,
    isVerdict_percentageSpan, isVerdict_blue]
  refine ⟨⟨⟨by simp, ?_⟩, by simp⟩, ?_⟩
  · split <;> simp
  · split
    · intro s hs
      rcases List.mem_append.mp hs with hs | hs
      · obtain ⟨g, -, hs⟩ := List.mem_flatMap.mp hs
        exact isVerdict_of_mem_functionSpans g s hs
      · obtain rfl := List.mem_singleton.mp hs
        rfl
    · simp

lemma verdictsIn_filesSpans (isVerbose : Bool) (files : List FileCoverage) :
    verdictsIn (filesSpans isVerbose files) = [] := by
  refine verdictsIn_eq_nil ?_
  rw [filesSpans]
  split
  · simp
  · simp only [List.forall_mem_append, List.forall_mem_cons, isVerdict_plain, isVerdict_bold]
    refine ⟨⟨by simp, ?_⟩, by simp⟩
    intro s hs
    obtain ⟨f, -, hs⟩ := List.mem_flatMap.mp hs
    exact isVerdict_of_mem_fileSpans isVerbose f s hs

lemma verdictsIn_countSpans (s : Summary) : verdictsIn (countSpans s) = [] := by
  refine verdictsIn_eq_nil ?_
  simp [countSpans]

/-- A verdict that is meant is one. -/
lemma verdictsIn_verdictSpan_cons {good bad : String} (hgood : good ∈ goodVerdicts)
    (hbad : bad ∈ badVerdicts) (isGood : Bool) (rest : List Span) :
    verdictsIn (verdictSpan isGood good bad :: rest) =
      (if isGood then good else bad) :: verdictsIn rest := by
  have hverdict : (verdictSpan isGood good bad).isVerdict = true := by
    cases isGood
    · simp [verdictSpan, Span.isVerdict, Span.styled, hbad]
    · simp [verdictSpan, Span.isVerdict, Span.styled, hgood]
  have htext : (verdictSpan isGood good bad).text = if isGood then good else bad := by
    cases isGood <;> rfl
  rw [verdictsIn, List.filter_cons_of_pos hverdict, List.map_cons, htext, verdictsIn]

lemma verdictsIn_resultSpans (r : Report) (minimum : Option Float) :
    verdictsIn (r.resultSpans minimum) = [if r.meets minimum then "✓ PASS" else "✗ FAIL"] := by
  have hverdict := fun rest => verdictsIn_verdictSpan_cons (show "✓ PASS" ∈ goodVerdicts by decide)
    (show "✗ FAIL" ∈ badVerdicts by decide) (r.meets minimum) rest
  rw [resultSpans]
  simp [verdictsIn_cons, hverdict]

lemma verdictsIn_minimumSpans (r : Report) (minimum : Float) :
    verdictsIn (r.minimumSpans minimum) =
      [if r.meets (some minimum) then "PASSED" else "FAILED"] := by
  have hverdict := fun rest => verdictsIn_verdictSpan_cons (show "PASSED" ∈ goodVerdicts by decide)
    (show "FAILED" ∈ badVerdicts by decide) (r.meets (some minimum)) rest
  rw [minimumSpans]
  simp [verdictsIn_cons, hverdict]

/-- **The verdicts in a report for a reader** are one at the top, and one more at the end if some
coverage is asked for; both say whether the coverage that is asked for is reached. -/
lemma verdictsIn_prettySpans (r : Report) (h : ReportHeading) :
    verdictsIn (r.prettySpans h) =
      (if r.meets h.minimum then "✓ PASS" else "✗ FAIL") ::
        (if h.minimum.isSome then [if r.meets h.minimum then "PASSED" else "FAILED"] else []) := by
  have hline : verdictsIn [.plain "\n"] = [] := rfl
  rw [prettySpans]
  simp only [verdictsIn_append, verdictsIn_headingSpans, verdictsIn_resultSpans,
    verdictsIn_filesSpans, verdictsIn_countSpans, hline, List.nil_append, List.append_nil,
    List.singleton_append]
  cases h.minimum with
  | none => rfl
  | some minimum =>
    simp only [verdictsIn_append, verdictsIn_minimumSpans, hline, List.append_nil,
      Option.isSome_some, if_true]

end Report

end CoverageEstimate

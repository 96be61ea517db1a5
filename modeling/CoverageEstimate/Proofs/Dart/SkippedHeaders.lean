/-
# Headers whose names are skipped

A header with a private name, or with a name on the list of those that only look like names, is left
out of the report.  What is left out is the header: the reading does not enter a body there, so the
lines of the body are looked at like any others, and a function or a call with a closure among them
is found as a function.

Two things hold instead.  Nothing is found in the body as long as none of its lines is a header
itself; and where the reading stands outside of any body at the skipped header, what is found behind
it is what a search from the next line on finds, so the first header behind it decides.
-/
import CoverageEstimate.Proofs.Dart.Extents

namespace CoverageEstimate.Dart

open Text

/-- Line `i` has the shape of a header but a name that is skipped, and a body that started there
would end on line `e`. -/
structure IsSkippedBody (ls : List (List Char)) (i e : ℕ) : Prop where
  one_le : 1 ≤ i
  skipped : ∃ name, shapedName? (lineAt ls i) = some name ∧ isSkippedName name = true
  first_end : IsLeast {e | CanEnd ls i e} e

/-- After the lines before line `i`, the reading stands outside of any body. -/
def SearchesAt (ls : List (List Char)) (i : ℕ) : Prop :=
  (Reading.searching.run 1 (ls.take (i - 1))).1 = .searching

instance (ls : List (List Char)) (i : ℕ) : Decidable (SearchesAt ls i) :=
  inferInstanceAs (Decidable ((Reading.searching.run 1 (ls.take (i - 1))).1 = .searching))

variable {ls : List (List Char)} {start i e : ℕ} {found : List FunctionDefinition}

/-! ## Functions and the lines that they start on -/

/-- Every function starts on a header line. -/
lemma FoundFrom.header_of_mem (h : FoundFrom ls start found) :
    ∀ d ∈ found, headerName? (lineAt ls d.startLine) = some d.name.toList := by
  induction h with
  | done => simp
  | unended => simp
  | ended hi he hr ih =>
    intro d hd
    rcases List.mem_cons.mp hd with rfl | hd
    · rw [String.toList_ofList]
      exact hi.header
    · exact ih d hd

/-- Whether a function starts up to a line is decided by the first header: no function before its own
one is found, and none at all if it does not end. -/
lemma FoundFrom.exists_startLine_le_iff (h : FoundFrom ls start found) :
    (∃ d ∈ found, d.startLine ≤ e) ↔
      ∃ j name f, IsNextHeader ls start j name ∧ j ≤ e ∧ EndsOn ls j f := by
  constructor
  · rintro ⟨d, hd, hle⟩
    cases h with
    | done => exact absurd hd List.not_mem_nil
    | unended => exact absurd hd List.not_mem_nil
    | @ended _ j f name rest hi he hr =>
      refine ⟨j, name, f, hi, ?_, he⟩
      rcases List.mem_cons.mp hd with rfl | hd
      · exact hle
      · -- the others start behind the end of the first one
        have hbehind := (hr.spans.1 d hd).1
        have hje := he.le
        omega
  · rintro ⟨j, name, f, hj, hle, hf⟩
    cases h with
    | done hnone => exact absurd hj.header (by simp [hnone j hj.start_le])
    | unended hi hnone =>
      obtain ⟨rfl, rfl⟩ := hi.unique hj
      exact absurd hf (hnone f)
    | ended hi he hr =>
      obtain ⟨rfl, rfl⟩ := hi.unique hj
      exact ⟨_, List.mem_cons_self, hle⟩

/-! ## Passing over a skipped header -/

lemma IsSkippedBody.headerName?_eq_none (h : IsSkippedBody ls i e) :
    headerName? (lineAt ls i) = none := by
  obtain ⟨name, hshaped, hskipped⟩ := h.skipped
  rw [headerName?, hshaped]
  simp [hskipped]

lemma IsSkippedBody.le_length (h : IsSkippedBody ls i e) : i ≤ ls.length := by
  obtain ⟨name, hshaped, -⟩ := h.skipped
  by_contra hlt
  rw [lineAt_of_length_lt (by omega)] at hshaped
  exact absurd hshaped (by simp [shapedName?])

lemma IsSkippedBody.eq_take_append (h : IsSkippedBody ls i e) :
    ls = ls.take (i - 1) ++ lineAt ls i :: ls.drop i := by
  have hpos := h.one_le
  have hle := h.le_length
  have hline : lineAt ls i = ls[i - 1] := by
    rw [lineAt, List.getD_eq_getElem?_getD, List.getElem?_eq_getElem (by omega), Option.getD_some]
  have hdrop : ls.drop (i - 1) = ls[i - 1] :: ls.drop i := by
    rw [List.drop_eq_getElem_cons (by omega)]
    congr 2
    omega
  rw [hline, ← hdrop, List.take_append_drop]

/-- A reading outside of any body passes over a skipped header, and goes on behind it as it would
from there. -/
lemma run_of_searchesAt (h : IsSkippedBody ls i e) (hs : SearchesAt ls i) :
    (Reading.searching.run 1 ls).2 =
      (Reading.searching.run 1 (ls.take (i - 1))).2 ++
        (Reading.searching.run (i + 1) (ls.drop i)).2 := by
  have hnumber : 1 + (ls.take (i - 1)).length = i := by
    have := h.one_le
    have := h.le_length
    rw [List.length_take]
    omega
  have hrun := Reading.run_append .searching 1 (ls.take (i - 1)) (lineAt ls i :: ls.drop i)
  rw [← h.eq_take_append, hs, hnumber] at hrun
  rw [hrun]
  simp [Reading.run, Reading.step, h.headerName?_eq_none]

/-- The functions of a source with a skipped header outside of any body: those that end before it,
and those that a search from the next line on finds. -/
lemma functions_eq_append_of_searchesAt {source : List Char} (h : IsSkippedBody (lines source) i e)
    (hs : SearchesAt (lines source) i) :
    ∃ before after, functions source = before ++ after ∧ (∀ d ∈ before, d.endLine < i) ∧
      FoundFrom (lines source) (i + 1) after := by
  refine ⟨_, _, run_of_searchesAt h hs, fun d hd => ?_, ?_⟩
  · have hbefore := run_finds [] ((lines source).take (i - 1)) (r := .searching) trivial
    have hend := (hbefore.spans.1 d hd).2.2
    have hpos := h.one_le
    rw [List.nil_append, List.length_take] at hend
    omega
  · have hlength : ((lines source).take i).length = i := by
      rw [List.length_take, Nat.min_eq_left h.le_length]
    have hafter := run_finds ((lines source).take i) ((lines source).drop i) (r := .searching)
      trivial
    rwa [List.take_append_drop, hlength] at hafter

/-- **The body of a skipped header** is not skipped with it.  If none of its lines behind the header
is a header, no function starts there.  If the reading stands outside of any body at the skipped
header, the functions behind it are those that a search from the next line on finds; so one of them
starts in the body just when the first header from there on does and its function ends. -/
theorem functions_of_isSkippedBody {source : List Char} (h : IsSkippedBody (lines source) i e) :
    ((∀ k, i < k → k ≤ e → headerName? (lineAt (lines source) k) = none) →
      ∀ d ∈ functions source, ¬(i < d.startLine ∧ d.startLine ≤ e)) ∧
    (SearchesAt (lines source) i →
      (∃ before after, functions source = before ++ after ∧ (∀ d ∈ before, d.endLine < i) ∧
        FoundFrom (lines source) (i + 1) after) ∧
      ((∃ d ∈ functions source, i < d.startLine ∧ d.startLine ≤ e) ↔
        ∃ j name f, IsNextHeader (lines source) (i + 1) j name ∧ j ≤ e ∧
          EndsOn (lines source) j f)) := by
  constructor
  · rintro hnone d hd ⟨hlt, hle⟩
    have hheader := (functions_found source).header_of_mem d hd
    rw [hnone _ hlt hle] at hheader
    exact absurd hheader (by simp)
  · intro hs
    obtain ⟨before, after, heq, hbefore, hafter⟩ := functions_eq_append_of_searchesAt h hs
    refine ⟨⟨before, after, heq, hbefore, hafter⟩, ?_⟩
    rw [← hafter.exists_startLine_le_iff]
    constructor
    · rintro ⟨d, hd, hlt, hle⟩
      refine ⟨d, ?_, hle⟩
      rw [heq, List.mem_append] at hd
      rcases hd with hd | hd
      · have hend := hbefore d hd
        have hspan := ((functions_found source).spans.1 d (heq ▸ List.mem_append_left _ hd)).2.1
        omega
      · exact hd
    · rintro ⟨d, hd, hle⟩
      exact ⟨d, heq ▸ List.mem_append_right _ hd, (hafter.spans.1 d hd).1, hle⟩

/-! ## A closure in a skipped body -/

/-- A program whose main function calls something with a closure. -/
def closureInMain : List Char := "main() \x7b\n  on(() \x7b\n    go();\n  \x7d);\n\x7d\n".toList

lemma isSkippedBody_closureInMain : IsSkippedBody (lines closureInMain) 1 5 := by
  refine ⟨le_rfl, ⟨"main".toList, by decide +kernel, by decide +kernel⟩, ?_, ?_⟩
  · refine ⟨by decide, by decide +kernel, by decide +kernel⟩
  · rintro k ⟨hk, hsum, -⟩
    by_contra hlt
    have hk : k ∈ Finset.Icc 1 4 := Finset.mem_Icc.mpr ⟨hk, by omega⟩
    -- some brace is open on each of the lines before the last one
    have hopen : ∀ k ∈ Finset.Icc 1 4,
        ∑ j ∈ Finset.Icc 1 k, balanceAt (lines closureInMain) j ≠ 0 := by decide +kernel
    exact hopen k hk hsum

/-- The call with a closure is found as a function in the body of the skipped header, so that body is
not left out of the report. -/
theorem skippedBody_closureInMain :
    IsSkippedBody (lines closureInMain) 1 5 ∧
      ∃ d ∈ functions closureInMain, 1 < d.startLine ∧ d.startLine ≤ 5 := by
  refine ⟨isSkippedBody_closureInMain, ⟨"on", 2, 4, "on(() \x7b", .function, none⟩, ?_, ?_⟩
  · decide +kernel
  · decide

/-- Behind the skipped header of the program, its closure is the first header, and ends. -/
theorem functions_closureInMain :
    IsSkippedBody (lines closureInMain) 1 5 ∧ SearchesAt (lines closureInMain) 1 ∧
      ∃ j name f, IsNextHeader (lines closureInMain) 2 j name ∧ j ≤ 5 ∧
        EndsOn (lines closureInMain) j f := by
  have hsearches : SearchesAt (lines closureInMain) 1 := by decide
  obtain ⟨-, hiff⟩ := (functions_of_isSkippedBody isSkippedBody_closureInMain).2 hsearches
  refine ⟨isSkippedBody_closureInMain, hsearches, hiff.mp ?_⟩
  exact ⟨⟨"on", 2, 4, "on(() \x7b", .function, none⟩, by decide +kernel, by decide⟩

end CoverageEstimate.Dart

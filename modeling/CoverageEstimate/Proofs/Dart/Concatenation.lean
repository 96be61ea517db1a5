/-
# Sources one behind the other

A source that goes on behind a line end has the lines of both of its parts.  What the first part
has ended stays as it was found; a function that was still open there may end in the second part.

Where none is open, the second part is read as it would be on its own, with its lines counted from
the end of the first part on.  The reason is that no step of the reading looks at the number of a
line, it only writes it down: whatever other numbers the lines get, the step leads to the same state
and the same functions, with their lines renumbered (`step_renumbered`).  Lines that are counted on
are the case in which all numbers move as far (`run_movedBy`).
-/
import CoverageEstimate.Dart.Functions
import Mathlib.Data.Int.Notation
import Mathlib.Data.List.Basic

namespace CoverageEstimate

namespace Text

lemma lines_ne_nil {cs : List Char} (h : cs ≠ []) : lines cs ≠ [] := by
  fun_cases lines cs with
  | case1 => exact absurd rfl h
  | case2 cs => exact List.cons_ne_nil _ _
  | case3 cs => exact List.cons_ne_nil _ _
  | case4 c cs hn hr => exact List.cons_ne_nil _ _
  | case5 c cs hn hr l ls => exact List.cons_ne_nil _ _

/-- The lines of a text that goes on behind a line end are those of both parts. -/
lemma lines_append {front : List Char} (h : ∀ c ∈ front.getLast?, c = '\n') (back : List Char) :
    lines (front ++ back) = lines front ++ lines back := by
  induction front with
  | nil => rfl
  | cons c cs ih =>
    cases cs with
    | nil =>
      obtain rfl : c = '\n' := h c rfl
      rfl
    | cons d ds =>
      rw [List.getLast?_cons_cons] at h
      have ih := ih h
      by_cases hn : c = '\n'
      · subst hn
        rw [List.cons_append, lines, ih, lines, List.cons_append]
      by_cases hr : c = '\r' ∧ d = '\n'
      · -- the line ends with both characters, and with the second one alone just as well
        obtain ⟨rfl, rfl⟩ := hr
        exact ih
      · have hline : ∀ back : List Char, c = '\r' → (d :: ds ++ back).head? ≠ some '\n' :=
          fun _ hc hd => hr ⟨hc, Option.some.inj hd⟩
        obtain ⟨l, ls, hl⟩ := List.exists_cons_of_ne_nil (lines_ne_nil (List.cons_ne_nil d ds))
        have hfront := lines_cons hn (hline [])
        rw [List.append_nil] at hfront
        rw [List.cons_append, lines_cons hn (hline back), ih, hfront, hl]
        rfl

end Text

/-- The definition with its lines renumbered. -/
def FunctionDefinition.renumbered (f : ℕ → ℕ) (d : FunctionDefinition) : FunctionDefinition :=
  { d with startLine := f d.startLine, endLine := f d.endLine }

/-- The definition so many lines further down. -/
def FunctionDefinition.movedBy (k : ℕ) (d : FunctionDefinition) : FunctionDefinition :=
  { d with startLine := d.startLine + k, endLine := d.endLine + k }

namespace Dart

open Text

/-- The state of the reading with its lines renumbered. -/
def Reading.renumbered (f : ℕ → ℕ) : Reading → Reading
  | .searching => .searching
  | .inBody pending depth => .inBody (pending.renumbered f) depth

/-- The state of the reading so many lines further down. -/
def Reading.movedBy (k : ℕ) : Reading → Reading
  | .searching => .searching
  | .inBody pending depth => .inBody (pending.movedBy k) depth

/-- The reading of the source stands outside of any function in the end. -/
def EndsSearching (source : List Char) : Prop :=
  (Reading.searching.run 1 (lines source)).1 = .searching

instance (source : List Char) : Decidable (EndsSearching source) :=
  inferInstanceAs (Decidable ((Reading.searching.run 1 (lines source)).1 = .searching))

namespace Reading

lemma continueBody_renumbered (f : ℕ → ℕ) (pending : FunctionDefinition) (depth : ℤ) (number : ℕ)
    (line : List Char) :
    continueBody (pending.renumbered f) depth (f number) line =
      ((continueBody pending depth number line).1.renumbered f,
        (continueBody pending depth number line).2.map (·.renumbered f)) := by
  rw [continueBody, continueBody]
  split
  · rfl
  · rfl

lemma definitionAt_apply (f : ℕ → ℕ) (name : List Char) (number : ℕ) (line : List Char) :
    definitionAt name (f number) line = (definitionAt name number line).renumbered f := rfl

/-- **A line with another number** leads to the same state and ends the same functions, with their
lines renumbered. -/
lemma step_renumbered (f : ℕ → ℕ) (r : Reading) (number : ℕ) (line : List Char) :
    (r.renumbered f).step (f number) line =
      ((r.step number line).1.renumbered f, (r.step number line).2.map (·.renumbered f)) := by
  cases r with
  | inBody pending depth => exact continueBody_renumbered f pending depth number line
  | searching =>
    rw [renumbered, step, step]
    cases headerName? line with
    | none => rfl
    | some name =>
      dsimp only
      rw [definitionAt_apply]
      split
      · rfl
      · exact continueBody_renumbered f _ 0 number line

lemma movedBy_eq_renumbered (k : ℕ) (r : Reading) : r.movedBy k = r.renumbered (· + k) := by
  cases r with
  | searching => rfl
  | inBody pending depth => rfl

/-- **One line further down** leads to the same state and ends the same functions, further down. -/
lemma step_movedBy (k : ℕ) (r : Reading) (number : ℕ) (line : List Char) :
    (r.movedBy k).step (number + k) line =
      ((r.step number line).1.movedBy k, (r.step number line).2.map (·.movedBy k)) := by
  rw [movedBy_eq_renumbered, movedBy_eq_renumbered]
  exact step_renumbered (· + k) r number line

/-- **All lines further down.** -/
lemma run_movedBy (k : ℕ) (r : Reading) (number : ℕ) (ls : List (List Char)) :
    (r.movedBy k).run (number + k) ls =
      ((r.run number ls).1.movedBy k, (r.run number ls).2.map (·.movedBy k)) := by
  induction ls generalizing r number with
  | nil => rfl
  | cons line rest ih =>
    have hnext : number + k + 1 = number + 1 + k := Nat.add_right_comm number k 1
    simp only [run, step_movedBy, hnext, ih, List.map_append]

end Reading

/-- **Sources one behind the other.**  The functions of a source that ends in a line end, or is
empty, come first among those of the source that goes on behind it.  If no function is open there,
the rest are those of the second part, with their lines counted on. -/
theorem functions_append {front : List Char} (hfront : ∀ c ∈ front.getLast?, c = '\n')
    (back : List Char) :
    functions front <+: functions (front ++ back) ∧
      (EndsSearching front →
        functions (front ++ back) =
          functions front ++ (functions back).map (·.movedBy (lines front).length)) := by
  have hrun : functions (front ++ back) = functions front ++
      ((Reading.searching.run 1 (lines front)).1.run (1 + (lines front).length) (lines back)).2 := by
    rw [functions, lines_append hfront, Reading.run_append, functions]
  constructor
  · rw [hrun]
    exact List.prefix_append _ _
  · intro hsearching
    have hmoved := Reading.run_movedBy (lines front).length .searching 1 (lines back)
    rw [Reading.movedBy] at hmoved
    rw [hrun, hsearching, hmoved]
    rfl

/-- The first part of a source, up to the end of a function. -/
def closedPart : List Char := "void load() \x7b\n  run();\n\x7d\r\n".toList

/-- The second part, in which one more function ends and another one does not. -/
def openPart : List Char := "\nint size() => 1;\nvoid save() \x7b\n".toList

/-- The function that ends in the second part is found five lines from the start of the first. -/
theorem functions_closedPart_append :
    (∀ c ∈ closedPart.getLast?, c = '\n') ∧ EndsSearching closedPart ∧
      functions (closedPart ++ openPart) =
        functions closedPart ++ (functions openPart).map (·.movedBy (lines closedPart).length) ∧
      (functions (closedPart ++ openPart)).map (·.startLine) = [1, 5] := by
  have hend : ∀ c ∈ closedPart.getLast?, c = '\n' := by
    have hlast : closedPart.getLast? = some '\n' := by decide
    simp [hlast]
  have hsearching : EndsSearching closedPart := by decide
  have happend := (functions_append hend openPart).2 hsearching
  exact ⟨hend, hsearching, happend, by decide⟩

/-- A function that is open where the first part ends may end in the second one. -/
example : functions "void load() \x7b\n".toList = [] ∧
    (functions ("void load() \x7b\n".toList ++ "\x7d\n".toList)).map (·.endLine) = [2] := by
  decide

end Dart

end CoverageEstimate

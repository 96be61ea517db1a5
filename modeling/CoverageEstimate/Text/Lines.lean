/-
# Lines of a text

A line ends at a line feed, and a carriage return just before the line feed belongs to the line
break.  A text that ends in a line break has no further empty line after it, and a carriage
return that no line feed follows is an ordinary character.
-/
namespace CoverageEstimate.Text

/-- The lines of a text, without their line breaks. -/
def lines : List Char → List (List Char)
  | [] => []
  | '\n' :: cs => [] :: lines cs
  | '\r' :: '\n' :: cs => [] :: lines cs
  | c :: cs =>
    match lines cs with
    | [] => [[c]]
    | l :: ls => (c :: l) :: ls

/-- A character that does not start a line break belongs to the first line. -/
theorem lines_cons {c : Char} {cs : List Char} (hn : c ≠ '\n')
    (hr : c = '\r' → cs.head? ≠ some '\n') :
    lines (c :: cs) =
      match lines cs with
      | [] => [[c]]
      | l :: ls => (c :: l) :: ls :=
  lines.eq_4 c cs hn fun _ hc hcs => hr hc (by rw [hcs, List.head?_cons])

/-- No line has a line feed in it. -/
theorem lineFeed_not_mem_of_mem_lines {cs l : List Char} (h : l ∈ lines cs) : '\n' ∉ l := by
  fun_induction lines cs generalizing l with
  | case1 => simp at h
  | case2 cs ih =>
    rcases List.mem_cons.mp h with rfl | h
    · simp
    · exact ih h
  | case3 cs ih =>
    rcases List.mem_cons.mp h with rfl | h
    · simp
    · exact ih h
  | case4 c cs hc _ hl ih =>
    simp only [List.mem_singleton] at h
    subst h
    simpa using fun h => hc h.symm
  | case5 c cs hc _ k ks hk ih =>
    rcases List.mem_cons.mp h with rfl | h
    · have := ih (hk ▸ List.mem_cons_self)
      simp only [List.mem_cons, not_or]
      exact ⟨fun h => hc h.symm, this⟩
    · exact ih (hk ▸ List.mem_cons_of_mem _ h)

end CoverageEstimate.Text

/-
# Layout does not matter

The lines of a Dart source may be indented in another way, have blanks at their ends, and stand
further apart, with lines of blanks between them.  The functions found in it are the same, with the
same signatures, and they start and end on what has become of their lines.

There are two reasons.  Of a line the reading sees only what is left of it without the blanks around
it (`step_trim`): the grammar of headers has room for blanks on both sides, and blanks are neither
braces nor parts of an arrow.  And a line of nothing but blanks leaves the reading as it is, also
inside a body (`run_of_blank`), so that only the numbers of the lines behind it change; and these are
only written down.
-/
import CoverageEstimate.Proofs.Dart.Concatenation
import CoverageEstimate.Proofs.Dart.Extents
import CoverageEstimate.Proofs.Dart.HeaderGrammar
import CoverageEstimate.Proofs.Text.Layout

namespace CoverageEstimate.Dart

open Text

/-! ## Blanks around a header -/

namespace HeaderParts

variable (p : HeaderParts)

/-- The line without the blanks that it starts with and without what stands behind the start of the
body. -/
def core : List Char :=
  p.words.flatMap TypeWord.text ++ p.name ++ p.nameGap ++
    p.parameters.elim [] TypeParameters.text ++ p.openGap ++
      '(' :: (p.arguments ++ ')' :: (p.closeGap ++ p.marker.elim [] Marker.text)) ++ p.opening

lemma text_eq : p.text = p.indent ++ p.core ++ p.rest := by
  simp [text, front, back, declaration, lead, core]

end HeaderParts

lemma isBlank_eq_false_of_isTypeChar {c : Char} (h : isTypeChar c = true) : isBlank c = false := by
  simp only [isTypeChar, Bool.or_eq_true, beq_iff_eq] at h
  rcases h with (((((h | rfl) | rfl) | rfl) | rfl) | rfl) | rfl
  · exact isBlank_eq_false_of_isWord h
  all_goals rfl

namespace HeaderParts

variable (p : HeaderParts)

lemma exists_core_eq_cons : ∃ c cs, p.core = c :: cs ∧ isBlank c = false := by
  cases hwords : p.words with
  | nil =>
    obtain ⟨c, cs, hname⟩ := List.exists_cons_of_ne_nil p.name_ne_nil
    refine ⟨c, _, by simp only [core, hwords, hname]; rfl, ?_⟩
    exact isBlank_eq_false_of_isWord (p.isWord_name c (hname ▸ List.mem_cons_self))
  | cons w ws =>
    obtain ⟨c, cs, hword⟩ := List.exists_cons_of_ne_nil w.word_ne_nil
    refine ⟨c, _, by simp only [core, hwords, List.flatMap_cons, TypeWord.text, hword]; rfl, ?_⟩
    exact isBlank_eq_false_of_isTypeChar (w.isTypeChar_word c (hword ▸ List.mem_cons_self))

lemma exists_core_eq_append : ∃ cs c, p.core = cs ++ [c] ∧ isBlank c = false := by
  obtain ⟨init, c, hopening, hc⟩ : ∃ init c, p.opening = init ++ [c] ∧ isBlank c = false := by
    rcases List.mem_pair.mp p.opening_mem with h | h
    · exact ⟨['='], '>', h, by decide⟩
    · exact ⟨[], '\x7b', h, by decide⟩
  obtain ⟨front, hcore⟩ : ∃ front, p.core = front ++ p.opening := ⟨_, rfl⟩
  exact ⟨front ++ init, c, by rw [hcore, hopening, List.append_assoc], hc⟩

end HeaderParts

/-- Blanks around a line belong to the indentation of a header and to what stands behind the start of
its body. -/
lemma shapedName?_padded {gap back : List Char} (hgap : ∀ c ∈ gap, isBlank c = true)
    (hback : ∀ c ∈ back, isBlank c = true) (line : List Char) :
    shapedName? (gap ++ line ++ back) = shapedName? line := by
  ext name
  rw [shapedName?_eq_some_iff, shapedName?_eq_some_iff]
  constructor
  · rintro ⟨p, hp, rfl⟩
    rw [p.text_eq] at hp
    obtain ⟨c, cs, hfirst, hc⟩ := p.exists_core_eq_cons
    obtain ⟨ds, d, hlast, hd⟩ := p.exists_core_eq_append
    -- the blanks at the end are the end of what stands behind the start of the body
    have hends : gap ++ line ++ back = p.indent ++ ds ++ [d] ++ p.rest := by
      rw [← hp, hlast]
      simp only [List.append_assoc]
    obtain ⟨rest, hrest, hfront⟩ := exists_of_append_back hback hd hends
    -- and those at the start are the start of the indentation
    have hstarts : gap ++ line = p.indent ++ c :: (cs ++ rest) := by
      rw [hfront, List.append_assoc p.indent, ← hlast, hfirst]
      simp
    obtain ⟨indent, hindent, hline⟩ := exists_of_gap_append hgap hc hstarts
    let q : HeaderParts :=
      { p with
        indent := indent
        rest := rest
        isBlank_indent := fun c hc => p.isBlank_indent c (hindent ▸ List.mem_append_right _ hc) }
    refine ⟨q, ?_, rfl⟩
    have hcore : q.core = c :: cs := hfirst
    rw [q.text_eq, hcore, hline]
    show indent ++ c :: cs ++ rest = indent ++ c :: (cs ++ rest)
    simp
  · rintro ⟨p, rfl, rfl⟩
    let q : HeaderParts :=
      { p with
        indent := gap ++ p.indent
        rest := p.rest ++ back
        isBlank_indent := fun c hc => (List.mem_append.mp hc).elim (hgap c) (p.isBlank_indent c) }
    refine ⟨q, ?_, rfl⟩
    have hcore : q.core = p.core := rfl
    rw [q.text_eq, hcore, p.text_eq]
    show gap ++ p.indent ++ p.core ++ (p.rest ++ back) = gap ++ (p.indent ++ p.core ++ p.rest) ++ back
    simp

lemma headerName?_padded {gap back : List Char} (hgap : ∀ c ∈ gap, isBlank c = true)
    (hback : ∀ c ∈ back, isBlank c = true) (line : List Char) :
    headerName? (gap ++ line ++ back) = headerName? line := by
  rw [headerName?, headerName?, shapedName?_padded hgap hback]

/-! ## Blanks around a line of a source -/

section Padded

variable {gap back line : List Char}

/-- No arrow starts in blanks, and none ends there. -/
lemma hasArrow_padded (hgap : ∀ c ∈ gap, isBlank c = true) (hback : ∀ c ∈ back, isBlank c = true)
    (line : List Char) : hasArrow (gap ++ line ++ back) = hasArrow line := by
  have hno : ∀ {c : Char}, isBlank c = true → (c == '=') = false ∧ (c == '>') = false := by
    intro c hc
    exact ⟨beq_false_of_ne (ne_of_isIn hc (by decide)), beq_false_of_ne (ne_of_isIn hc (by decide))⟩
  have hend : hasArrow back = false := by
    induction back with
    | nil => rfl
    | cons c cs ih =>
      obtain ⟨hc, hcs⟩ := List.forall_mem_cons.mp hback
      rw [hasArrow, (hno hc).1, ih hcs]
      rfl
  have hline : hasArrow (line ++ back) = hasArrow line := by
    induction line with
    | nil => exact hend
    | cons c cs ih =>
      have hhead : ((cs ++ back).head? == some '>') = (cs.head? == some '>') := by
        cases cs with
        | cons d ds => rfl
        | nil =>
          cases back with
          | nil => rfl
          | cons d ds => exact (hno (hback d List.mem_cons_self)).2
      rw [List.cons_append, hasArrow, hasArrow, hhead, ih]
  rw [List.append_assoc]
  induction gap with
  | nil => exact hline
  | cons c cs ih =>
    obtain ⟨hc, hcs⟩ := List.forall_mem_cons.mp hgap
    rw [List.cons_append, hasArrow, (hno hc).1, ih hcs]
    rfl

lemma isOneLine_padded (hgap : ∀ c ∈ gap, isBlank c = true) (hback : ∀ c ∈ back, isBlank c = true)
    (line : List Char) : isOneLine (gap ++ line ++ back) = isOneLine line := by
  rw [isOneLine, isOneLine, hasArrow_padded hgap hback, trim_padded hgap hback]

/-- There is nothing among blanks that is counted. -/
lemma count_padded (hgap : ∀ c ∈ gap, isBlank c = true) (hback : ∀ c ∈ back, isBlank c = true)
    {c : Char} (hc : isBlank c = false) (line : List Char) :
    (gap ++ line ++ back).count c = line.count c := by
  have hnone : ∀ {cs : List Char}, (∀ d ∈ cs, isBlank d = true) → cs.count c = 0 := by
    intro cs hcs
    refine List.count_eq_zero_of_not_mem fun hmem => ?_
    exact ne_of_isIn (hcs c hmem) hc rfl
  rw [List.count_append, List.count_append, hnone hgap, hnone hback]
  omega

lemma braceBalance_padded (hgap : ∀ c ∈ gap, isBlank c = true)
    (hback : ∀ c ∈ back, isBlank c = true) (line : List Char) :
    braceBalance (gap ++ line ++ back) = braceBalance line := by
  rw [braceBalance_eq, braceBalance_eq, count_padded hgap hback (by decide),
    count_padded hgap hback (by decide)]

lemma hasCloser_padded (hgap : ∀ c ∈ gap, isBlank c = true) (hback : ∀ c ∈ back, isBlank c = true)
    (line : List Char) : hasCloser (gap ++ line ++ back) = hasCloser line := by
  rw [Bool.eq_iff_iff, hasCloser_iff, hasCloser_iff]
  simp only [← List.count_pos_iff]
  rw [count_padded hgap hback (by decide), count_padded hgap hback (by decide)]

namespace Reading

lemma continueBody_padded (hgap : ∀ c ∈ gap, isBlank c = true)
    (hback : ∀ c ∈ back, isBlank c = true) (pending : FunctionDefinition) (depth : ℤ) (number : ℕ)
    (line : List Char) :
    continueBody pending depth number (gap ++ line ++ back) =
      continueBody pending depth number line := by
  rw [continueBody, continueBody, braceBalance_padded hgap hback, hasCloser_padded hgap hback]

/-- **Blanks around a line** do not show in any state of the reading. -/
lemma step_padded (hgap : ∀ c ∈ gap, isBlank c = true) (hback : ∀ c ∈ back, isBlank c = true)
    (r : Reading) (number : ℕ) (line : List Char) :
    r.step number (gap ++ line ++ back) = r.step number line := by
  cases r with
  | inBody pending depth => exact continueBody_padded hgap hback pending depth number line
  | searching =>
    rw [step, step, headerName?_padded hgap hback]
    cases headerName? line with
    | none => rfl
    | some name =>
      have hhere : definitionAt name number (gap ++ line ++ back) =
          definitionAt name number line := by
        rw [definitionAt, definitionAt, trim_padded hgap hback]
      dsimp only
      rw [hhere, isOneLine_padded hgap hback, continueBody_padded hgap hback]

/-- So only what is left of a line when it is trimmed matters. -/
lemma step_trim (r : Reading) (number : ℕ) (line : List Char) :
    r.step number (trim line) = r.step number line := by
  obtain ⟨gap, back, hgap, hback, hline⟩ := exists_eq_padded_trim line
  have hstep := step_padded hgap hback r number (trim line)
  rw [hline] at hstep
  exact hstep.symm

/-- A line of blanks leaves every state as it is. -/
lemma step_of_blank (r : Reading) (number : ℕ) (h : trim line = []) :
    r.step number line = (r, []) := by
  rw [← step_trim, h]
  cases r with
  | searching => rfl
  | inBody pending depth =>
    show continueBody pending depth number [] = _
    simp [continueBody, braceBalance, hasCloser]

/-- **Lines of blanks** leave every state as it is. -/
lemma run_of_blank (r : Reading) (number : ℕ) {ls : List (List Char)} (h : ∀ l ∈ ls, trim l = []) :
    r.run number ls = (r, []) := by
  induction ls generalizing number with
  | nil => rfl
  | cons l rest ih =>
    obtain ⟨hl, hrest⟩ := List.forall_mem_cons.mp h
    simp only [run, step_of_blank r number hl, ih (number + 1) hrest, List.append_nil]

end Reading

end Padded

/-! ## Both readings -/

/-- **One line of both readings.**  Behind the lines of blanks above it, a line is read in its new
place as it was in the old one. -/
lemma Reading.run_around {y : Layout} (r : Reading) (n : ℕ) {above : List (List Char)}
    (hlength : above.length = (y.line (n + 1)).above.length) (hblank : ∀ l ∈ above, trim l = [])
    {k l : List Char} (htrim : trim k = trim l) (later : List (List Char)) :
    ((r.renumbered y.place).run (y.place n + 1) (above ++ k :: later)).2 =
      ((r.step (n + 1) l).2.map (·.renumbered y.place)) ++
        (((r.step (n + 1) l).1.renumbered y.place).run (y.place (n + 1) + 1) later).2 := by
  have hnumber : y.place n + 1 + above.length = y.place (n + 1) := by
    rw [y.place_succ, hlength]
    omega
  have hstep : (r.renumbered y.place).step (y.place (n + 1)) k =
      ((r.step (n + 1) l).1.renumbered y.place,
        (r.step (n + 1) l).2.map (·.renumbered y.place)) := by
    rw [← step_trim, htrim, step_trim]
    exact step_renumbered y.place r (n + 1) l
  rw [run_append, run_of_blank _ _ hblank, hnumber, List.nil_append]
  simp only [run, hstep]

/-- **All lines of both readings.**  From a line on, the functions that end in the text with another
layout are those that end in the text, with their lines renumbered. -/
lemma Reading.run_textFrom (y : Layout) (r : Reading) (n : ℕ)
    {pieces : List (List Char × List Char)} (h : AreBroken pieces) :
    ((r.renumbered y.place).run (y.place n + 1) (lines (y.textFrom (n + 1) pieces))).2 =
      (r.run (n + 1) (pieces.map (·.1))).2.map (·.renumbered y.place) := by
  induction h generalizing r n with
  | nil =>
    rw [Layout.textFrom, run_of_blank _ _ fun l => trim_eq_nil_of_mem_lines y.isBlank_below]
    rfl
  | last ne_nil hfeed =>
    obtain ⟨above, k, later, hlines, hlength, hblank, htrim, hlater⟩ :=
      (y.line (n + 1)).exists_lines_last ne_nil hfeed y.isBlank_below
    rw [Layout.textFrom, Layout.textFrom, List.append_nil, hlines,
      run_around r n hlength hblank htrim, run_of_blank _ _ hlater]
    simp [run]
  | feed hfeed others ih =>
    have hstart : [] ∈ [[], ['\r']] := by simp
    obtain ⟨above, k, hlines, hlength, hblank, htrim⟩ :=
      (y.line (n + 1)).exists_lines_around hfeed hstart (y.textFrom (n + 1 + 1) _)
    rw [List.nil_append] at hlines
    rw [Layout.textFrom, hlines, run_around r n hlength hblank htrim, ih]
    simp [run]
  | returnFeed hfeed others ih =>
    have hstart : ['\r'] ∈ [[], ['\r']] := by simp
    obtain ⟨above, k, hlines, hlength, hblank, htrim⟩ :=
      (y.line (n + 1)).exists_lines_around hfeed hstart (y.textFrom (n + 1 + 1) _)
    rw [List.singleton_append] at hlines
    rw [Layout.textFrom, hlines, run_around r n hlength hblank htrim, ih]
    simp [run]

/-- **Layout does not matter.**  Blanks at the start and at the end of the lines of a source and lines
of blanks between its lines leave its functions as they are, with their names and signatures and in
their order, and move the lines on which they start and end by the lines that are put in above these;
so if no lines are put in, the functions are the same. -/
theorem functions_relaid (y : Layout) (source : List Char) :
    functions (y.relaid source) = (functions source).map (·.renumbered y.place) ∧
      ((∀ n, (y.line n).above = []) → functions (y.relaid source) = functions source) := by
  have hall : functions (y.relaid source) = (functions source).map (·.renumbered y.place) := by
    have hrun := Reading.run_textFrom y .searching 0 (areBroken_brokenLines source)
    rw [map_fst_brokenLines] at hrun
    exact hrun
  refine ⟨hall, fun hnone => ?_⟩
  have hplace : y.place = id := funext (y.place_of_above_eq_nil hnone)
  rw [hall, hplace]
  exact List.map_id (functions source)

/-- A tab and an ideographic space. -/
def wideGap : Gap where
  text := ['\t', '\u3000']
  isBlank_text := by simp [isBlank]
  lineFeed_not_mem := by simp

/-- A layout with such blanks on both sides of each line, and so many lines of them above it. -/
def wideLayout (count : ℕ) : Layout where
  line _ := ⟨List.replicate count wideGap, wideGap, wideGap⟩
  below := ['\n', '\t']
  isBlank_below := by simp [isBlank]

/-- A source of two functions, one of them with a body on several lines. -/
def spacedSource : List Char := "int load() \x7b\r\n  return 1;\n\x7d\nint size() => 2;".toList

/-- Both functions are found in either layout: where they were, and where their lines have gone. -/
theorem functions_spacedSource :
    (∀ n, ((wideLayout 0).line n).above = []) ∧
      functions ((wideLayout 0).relaid spacedSource) = functions spacedSource ∧
      functions ((wideLayout 2).relaid spacedSource) =
        (functions spacedSource).map (·.renumbered (wideLayout 2).place) ∧
      (functions ((wideLayout 2).relaid spacedSource)).map (fun d => (d.startLine, d.endLine)) =
        [(3, 9), (12, 12)] := by
  have hnone : ∀ n, ((wideLayout 0).line n).above = [] := fun _ => rfl
  exact ⟨hnone, (functions_relaid (wideLayout 0) spacedSource).2 hnone,
    (functions_relaid (wideLayout 2) spacedSource).1, by decide +kernel⟩

end CoverageEstimate.Dart

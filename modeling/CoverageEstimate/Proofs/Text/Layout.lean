/-
# Texts in another layout

The lines of a text may be indented in another way, have blanks at their ends, and stand further
apart, with lines of blanks between them.  This file says what such a layout is, and which lines the
text has in it: above each line those of blanks that are put in, and then the line itself, the same as
before when it is trimmed.

Lines are compared only when they are trimmed, because a line break may be of two characters: a
carriage return that is put at the end of a line becomes the first of them.
-/
import CoverageEstimate.Text.Blank
import CoverageEstimate.Text.Lines
import Mathlib.Algebra.BigOperators.Intervals
import Mathlib.Data.List.Basic
import Mathlib.Data.List.TakeWhile

namespace CoverageEstimate.Text

variable {cs gap back : List Char}

/-! ## Blanks around a text -/

lemma trimStart_eq_nil (h : ∀ c ∈ cs, isBlank c = true) : trimStart cs = [] :=
  List.dropWhile_eq_nil_iff.mpr h

lemma trimStart_reverse (cs : List Char) : (trimStart cs.reverse).reverse = trimEnd cs := rfl

lemma trimEnd_append (h : ∀ c ∈ back, isBlank c = true) (cs : List Char) :
    trimEnd (cs ++ back) = trimEnd cs := by
  rw [← trimStart_reverse, ← trimStart_reverse, List.reverse_append, trimStart, trimStart,
    List.dropWhile_append_of_pos]
  intro c hc
  exact h c (List.mem_reverse.mp hc)

/-- Blanks around a text are trimmed with those that it has already. -/
lemma trim_padded (hgap : ∀ c ∈ gap, isBlank c = true) (hback : ∀ c ∈ back, isBlank c = true)
    (cs : List Char) : trim (gap ++ cs ++ back) = trim cs := by
  have hstart : trimStart (gap ++ cs ++ back) = trimStart (cs ++ back) := by
    rw [List.append_assoc]
    exact List.dropWhile_append_of_pos hgap
  rw [trim, trim, hstart]
  by_cases hcs : trimStart cs = []
  · -- there is nothing but blanks
    have hblank := List.dropWhile_eq_nil_iff.mp hcs
    have hall : trimStart (cs ++ back) = [] := by
      refine trimStart_eq_nil fun c hc => ?_
      exact (List.mem_append.mp hc).elim (hblank c) (hback c)
    rw [hall, hcs]
  · have hkept : trimStart (cs ++ back) = trimStart cs ++ back := by
      rw [trimStart, List.dropWhile_append, if_neg]
      · rfl
      · rwa [List.isEmpty_iff]
    rw [hkept, trimEnd_append hback]

lemma trim_append (hback : ∀ c ∈ back, isBlank c = true) (cs : List Char) :
    trim (cs ++ back) = trim cs := by
  have hgap : ∀ c ∈ [], isBlank c = true := by simp
  exact trim_padded hgap hback cs

lemma trim_eq_nil (h : ∀ c ∈ cs, isBlank c = true) : trim cs = [] := by
  rw [trim, trimStart_eq_nil h]
  rfl

/-- A text is what is left of it without the blanks around it, between these blanks. -/
lemma exists_eq_padded_trim (cs : List Char) :
    ∃ gap back, (∀ c ∈ gap, isBlank c = true) ∧ (∀ c ∈ back, isBlank c = true) ∧
      gap ++ trim cs ++ back = cs := by
  have hstart := List.takeWhile_append_dropWhile (p := isBlank) (l := cs)
  have hend := List.takeWhile_append_dropWhile (p := isBlank) (l := (trimStart cs).reverse)
  refine ⟨cs.takeWhile isBlank, ((trimStart cs).reverse.takeWhile isBlank).reverse, ?_, ?_, ?_⟩
  · intro c hc
    exact List.mem_takeWhile_imp hc
  · intro c hc
    exact List.mem_takeWhile_imp (List.mem_reverse.mp hc)
  · have htrim : trim cs ++ ((trimStart cs).reverse.takeWhile isBlank).reverse = trimStart cs := by
      rw [trim, ← trimStart_reverse, ← List.reverse_append]
      exact (congrArg List.reverse hend).trans (List.reverse_reverse _)
    rw [List.append_assoc, htrim]
    exact hstart

/-- Blanks at the start of a text belong to the blanks that it is written with. -/
lemma exists_of_gap_append {c : Char} {front line rest : List Char}
    (hgap : ∀ c ∈ gap, isBlank c = true) (hc : isBlank c = false)
    (h : gap ++ line = front ++ c :: rest) :
    ∃ front', front = gap ++ front' ∧ line = front' ++ c :: rest := by
  rcases List.append_eq_append_iff.mp h with ⟨more, hmore, hline⟩ | ⟨more, hmore, hrest⟩
  · exact ⟨more, hmore, hline⟩
  · -- the character that is no blank does not stand among the blanks
    cases more with
    | nil => exact ⟨[], by simpa using hmore.symm, hrest.symm⟩
    | cons d ds =>
      obtain ⟨rfl, -⟩ := List.cons.inj hrest
      have hd := hgap c (hmore ▸ List.mem_append_right front List.mem_cons_self)
      rw [hc] at hd
      exact Bool.noConfusion hd

/-- Blanks at the end of a text stand behind its last character that is no blank. -/
lemma exists_of_append_back {c : Char} {front line rest : List Char}
    (hback : ∀ c ∈ back, isBlank c = true) (hc : isBlank c = false)
    (h : line ++ back = front ++ [c] ++ rest) :
    ∃ rest', rest = rest' ++ back ∧ line = front ++ [c] ++ rest' := by
  rcases List.append_eq_append_iff.mp h with ⟨more, hmore, hrest⟩ | ⟨more, hmore, hrest⟩
  · rcases List.eq_nil_or_concat more with rfl | ⟨init, d, rfl⟩
    · exact ⟨[], by simpa using hrest.symm, by simpa using hmore.symm⟩
    · -- here the character would be one of the blanks
      rw [List.concat_eq_append, ← List.append_assoc] at hmore
      obtain ⟨-, hlast⟩ := List.append_inj' hmore rfl
      obtain rfl := List.singleton_inj.mp hlast
      have hd := hback c (by rw [hrest]; simp)
      rw [hc] at hd
      exact Bool.noConfusion hd
  · exact ⟨more, hrest, hmore⟩

/-! ## Lines of a text -/

lemma mem_of_mem_lines {l : List Char} (hl : l ∈ lines cs) {c : Char} (hc : c ∈ l) : c ∈ cs := by
  fun_induction lines cs generalizing l with
  | case1 => exact absurd hl List.not_mem_nil
  | case2 cs ih =>
    rcases List.mem_cons.mp hl with rfl | hl
    · exact absurd hc List.not_mem_nil
    · exact List.mem_cons_of_mem _ (ih hl hc)
  | case3 cs ih =>
    rcases List.mem_cons.mp hl with rfl | hl
    · exact absurd hc List.not_mem_nil
    · exact List.mem_cons_of_mem _ (List.mem_cons_of_mem _ (ih hl hc))
  | case4 d cs _ _ _ ih =>
    obtain rfl := List.mem_singleton.mp hl
    obtain rfl := List.mem_singleton.mp hc
    exact List.mem_cons_self
  | case5 d cs _ _ k ks hk ih =>
    rcases List.mem_cons.mp hl with rfl | hl
    · rcases List.mem_cons.mp hc with rfl | hc
      · exact List.mem_cons_self
      · exact List.mem_cons_of_mem _ (ih (hk ▸ List.mem_cons_self) hc)
    · exact List.mem_cons_of_mem _ (ih (hk ▸ List.mem_cons_of_mem _ hl) hc)

/-- In a text of blanks, no line is left when it is trimmed. -/
lemma trim_eq_nil_of_mem_lines (h : ∀ c ∈ cs, isBlank c = true) {l : List Char}
    (hl : l ∈ lines cs) : trim l = [] :=
  trim_eq_nil fun _ hc => h _ (mem_of_mem_lines hl hc)

/-- What stands before a line feed is a line, apart from a carriage return at its end. -/
lemma exists_lines_append {line : List Char} (h : '\n' ∉ line) (rest : List Char) :
    ∃ l, lines (line ++ '\n' :: rest) = l :: lines rest ∧ (l = line ∨ line = l ++ ['\r']) := by
  induction line with
  | nil => exact ⟨[], rfl, Or.inl rfl⟩
  | cons c cs ih =>
    have hc : c ≠ '\n' := (List.ne_of_not_mem_cons h).symm
    have hcs := List.not_mem_of_not_mem_cons h
    by_cases hr : c = '\r' ∧ cs = []
    · obtain ⟨rfl, rfl⟩ := hr
      exact ⟨[], rfl, Or.inr rfl⟩
    · have hhead : c = '\r' → (cs ++ '\n' :: rest).head? ≠ some '\n' := by
        intro hcr
        cases cs with
        | nil => exact absurd ⟨hcr, rfl⟩ hr
        | cons d ds =>
          intro hd
          obtain rfl := Option.some.inj hd
          exact hcs List.mem_cons_self
      obtain ⟨l, hl, hline⟩ := ih hcs
      refine ⟨c :: l, ?_, ?_⟩
      · rw [List.cons_append, lines_cons hc hhead, hl]
      · rcases hline with rfl | rfl
        · exact Or.inl rfl
        · exact Or.inr rfl

/-- Trimmed, it is the line. -/
lemma exists_lines_trim {line : List Char} (h : '\n' ∉ line) (rest : List Char) :
    ∃ l, lines (line ++ '\n' :: rest) = l :: lines rest ∧ trim l = trim line := by
  obtain ⟨l, hl, hline⟩ := exists_lines_append h rest
  refine ⟨l, hl, ?_⟩
  rcases hline with rfl | rfl
  · rfl
  · have hreturn : ∀ c ∈ ['\r'], isBlank c = true := List.forall_mem_singleton.mpr rfl
    exact (trim_append hreturn l).symm

lemma lines_of_not_mem {line : List Char} (hne : line ≠ []) (h : '\n' ∉ line) :
    lines line = [line] := by
  induction line with
  | nil => exact absurd rfl hne
  | cons c cs ih =>
    have hc : c ≠ '\n' := (List.ne_of_not_mem_cons h).symm
    have hcs := List.not_mem_of_not_mem_cons h
    have hhead : cs.head? ≠ some '\n' := fun hd => hcs (List.mem_of_mem_head? hd)
    rw [lines_cons hc fun _ => hhead]
    cases cs with
    | nil => rfl
    | cons d ds => rw [ih (List.cons_ne_nil d ds) hcs]

/-- Behind a last line there may be any blanks: they belong to it, or to lines of blanks. -/
lemma exists_lines_below {line below : List Char} (hne : line ≠ []) (h : '\n' ∉ line)
    (hbelow : ∀ c ∈ below, isBlank c = true) :
    ∃ l ls, lines (line ++ below) = l :: ls ∧ trim l = trim line ∧ ∀ k ∈ ls, trim k = [] := by
  by_cases hfeed : '\n' ∈ below
  · obtain ⟨front, rest, rfl, hfront⟩ := List.eq_append_cons_of_mem hfeed
    have hblank : ∀ c ∈ front, isBlank c = true :=
      fun c hc => hbelow c (List.mem_append_left _ hc)
    have hline : '\n' ∉ line ++ front := by simp [h, hfront]
    obtain ⟨l, hl, htrim⟩ := exists_lines_trim hline rest
    rw [← List.append_assoc]
    refine ⟨l, lines rest, hl, ?_, ?_⟩
    · rw [htrim]
      exact trim_append hblank line
    · intro k hk
      refine trim_eq_nil_of_mem_lines (fun c hc => hbelow c ?_) hk
      exact List.mem_append_right _ (List.mem_cons_of_mem _ hc)
  · have hall : '\n' ∉ line ++ below := by simp [h, hfeed]
    refine ⟨line ++ below, [], lines_of_not_mem (by simp [hne]) hall, ?_, by simp⟩
    exact trim_append hbelow line

/-! ## Layouts -/

/-- Blanks that break no line. -/
structure Gap where
  text : List Char
  isBlank_text : ∀ c ∈ text, isBlank c = true
  lineFeed_not_mem : '\n' ∉ text

/-- What is put around a line: lines of blanks above it, and blanks before and behind it.  The lines
above may end in a carriage return and a line feed, too, since a carriage return is a blank. -/
structure LineLayout where
  above : List Gap
  before : Gap
  behind : Gap

/-- What is put around each line of a text, by the numbers of the lines from 1 on, and blanks and lines
of blanks behind the last line. -/
structure Layout where
  line : ℕ → LineLayout
  below : List Char
  isBlank_below : ∀ c ∈ below, isBlank c = true

/-- The lines of blanks above a line. -/
def LineLayout.aboveText (y : LineLayout) : List Char := y.above.flatMap fun g => g.text ++ ['\n']

/-- The line with what is put around it. -/
def LineLayout.around (y : LineLayout) (line : List Char) : List Char :=
  y.aboveText ++ (y.before.text ++ line ++ y.behind.text)

/-- The lines of a text, each with the line break that ends it.  The last one may have none. -/
def brokenLines : List Char → List (List Char × List Char)
  | [] => []
  | '\n' :: cs => ([], ['\n']) :: brokenLines cs
  | '\r' :: '\n' :: cs => ([], ['\r', '\n']) :: brokenLines cs
  | c :: cs =>
    match brokenLines cs with
    | [] => [([c], [])]
    | (l, lineBreak) :: ls => (c :: l, lineBreak) :: ls

/-- Lines with their breaks, the first of which has the number `n`, with what is put around them. -/
def Layout.textFrom (y : Layout) : ℕ → List (List Char × List Char) → List Char
  | _, [] => y.below
  | n, (l, lineBreak) :: rest => (y.line n).around l ++ lineBreak ++ y.textFrom (n + 1) rest

/-- The text in the layout. -/
def Layout.relaid (y : Layout) (cs : List Char) : List Char := y.textFrom 1 (brokenLines cs)

/-- The number that a line gets in the layout: the lines above it and above those before it are put
in. -/
def Layout.place (y : Layout) (n : ℕ) : ℕ := n + ∑ k ∈ Finset.Icc 1 n, (y.line k).above.length

/-- Lines with their breaks, where only the last line may have none. -/
inductive AreBroken : List (List Char × List Char) → Prop
  | nil : AreBroken []
  | last {l : List Char} (ne_nil : l ≠ []) (h : '\n' ∉ l) : AreBroken [(l, [])]
  | feed {l : List Char} {rest : List (List Char × List Char)} (h : '\n' ∉ l)
      (others : AreBroken rest) : AreBroken ((l, ['\n']) :: rest)
  | returnFeed {l : List Char} {rest : List (List Char × List Char)} (h : '\n' ∉ l)
      (others : AreBroken rest) : AreBroken ((l, ['\r', '\n']) :: rest)

/-- A line may start with one more character. -/
lemma AreBroken.cons {c : Char} {l lineBreak : List Char} {rest : List (List Char × List Char)}
    (hc : c ≠ '\n') (h : AreBroken ((l, lineBreak) :: rest)) :
    AreBroken ((c :: l, lineBreak) :: rest) := by
  have hmem : '\n' ∉ l → '\n' ∉ c :: l := by
    intro hl hcl
    rcases List.mem_cons.mp hcl with heq | hl'
    · exact hc heq.symm
    · exact hl hl'
  cases h with
  | last _ h => exact .last (List.cons_ne_nil c l) (hmem h)
  | feed h others => exact .feed (hmem h) others
  | returnFeed h others => exact .returnFeed (hmem h) others

lemma areBroken_brokenLines (cs : List Char) : AreBroken (brokenLines cs) := by
  fun_induction brokenLines cs with
  | case1 => exact .nil
  | case2 cs ih => exact .feed List.not_mem_nil ih
  | case3 cs ih => exact .returnFeed List.not_mem_nil ih
  | case4 c cs hn _ hnone _ => exact .last (by simp) (by simpa using fun h => hn h.symm)
  | case5 c cs hn _ l lineBreak ls hsome ih => exact (hsome ▸ ih).cons hn

/-- Without their breaks, these are the lines of the text. -/
lemma map_fst_brokenLines (cs : List Char) : (brokenLines cs).map (·.1) = lines cs := by
  fun_induction brokenLines cs with
  | case1 => rfl
  | case2 cs ih => rw [List.map_cons, ih, lines]
  | case3 cs ih => rw [List.map_cons, ih, lines]
  | case4 c cs hn hr hnone ih =>
    rw [lines.eq_4 c cs hn hr, ← ih, hnone]
    rfl
  | case5 c cs hn hr l lineBreak ls hsome ih =>
    rw [lines.eq_4 c cs hn hr, ← ih, hsome]
    rfl

/-- With their breaks, they are the text. -/
lemma flatMap_brokenLines (cs : List Char) : (brokenLines cs).flatMap (fun l => l.1 ++ l.2) = cs := by
  fun_induction brokenLines cs with
  | case1 => rfl
  | case2 cs ih => rw [List.flatMap_cons, ih]; rfl
  | case3 cs ih => rw [List.flatMap_cons, ih]; rfl
  | case4 c cs hn hr hnone ih =>
    rw [hnone] at ih
    rw [← ih]
    rfl
  | case5 c cs hn hr l lineBreak ls hsome ih =>
    rw [hsome, List.flatMap_cons] at ih
    rw [List.flatMap_cons, ← ih]
    rfl

namespace Layout

variable (y : Layout)

lemma place_succ (n : ℕ) : y.place (n + 1) = y.place n + (y.line (n + 1)).above.length + 1 := by
  rw [place, place, Finset.sum_Icc_succ_top (Nat.le_add_left 1 n)]
  omega

/-- Where nothing is put above any line, the lines keep their numbers. -/
lemma place_of_above_eq_nil (h : ∀ n, (y.line n).above = []) (n : ℕ) : y.place n = n := by
  simp [place, h]

end Layout

/-- Each line of blanks above a line is one line of the text. -/
lemma LineLayout.exists_lines_aboveText (y : LineLayout) (rest : List Char) :
    ∃ ls, lines (y.aboveText ++ rest) = ls ++ lines rest ∧ ls.length = y.above.length ∧
      ∀ l ∈ ls, trim l = [] := by
  rw [aboveText]
  induction y.above with
  | nil => exact ⟨[], rfl, rfl, by simp⟩
  | cons g gs ih =>
    obtain ⟨ls, hls, hlength, hblank⟩ := ih
    obtain ⟨l, hl, htrim⟩ := exists_lines_trim g.lineFeed_not_mem
      (gs.flatMap (fun g => g.text ++ ['\n']) ++ rest)
    refine ⟨l :: ls, ?_, by simp [hlength], ?_⟩
    · rw [List.flatMap_cons, List.append_assoc, List.append_assoc, List.singleton_append, hl, hls]
      rfl
    · rw [trim_eq_nil g.isBlank_text] at htrim
      exact List.forall_mem_cons.mpr ⟨htrim, hblank⟩

/-- With what is put around it, a line has become lines of blanks and one line that is the same when
it is trimmed.  It is followed by a line break, of which `start` is what comes before the line
feed. -/
lemma LineLayout.exists_lines_around (y : LineLayout) {l : List Char} (h : '\n' ∉ l)
    {start : List Char} (hstart : start ∈ [[], ['\r']]) (rest : List Char) :
    ∃ above k, lines (y.around l ++ (start ++ ['\n']) ++ rest) = above ++ k :: lines rest ∧
      above.length = y.above.length ∧ (∀ l ∈ above, trim l = []) ∧ trim k = trim l := by
  have hblank : ∀ c ∈ y.behind.text ++ start, isBlank c = true := by
    intro c hc
    rcases List.mem_append.mp hc with hc | hc
    · exact y.behind.isBlank_text c hc
    · rcases List.mem_pair.mp hstart with rfl | rfl
      · exact absurd hc List.not_mem_nil
      · obtain rfl := List.mem_singleton.mp hc
        rfl
  have hmem : '\n' ∉ y.before.text ++ l ++ (y.behind.text ++ start) := by
    rcases List.mem_pair.mp hstart with rfl | rfl <;>
      simp [y.before.lineFeed_not_mem, h, y.behind.lineFeed_not_mem]
  obtain ⟨k, hk, htrim⟩ := exists_lines_trim hmem rest
  obtain ⟨above, habove, hlength, hnone⟩ := y.exists_lines_aboveText
    (y.before.text ++ l ++ (y.behind.text ++ start) ++ '\n' :: rest)
  refine ⟨above, k, ?_, hlength, hnone, ?_⟩
  · rw [← hk, ← habove, around]
    simp only [List.append_assoc, List.singleton_append]
  · rw [htrim]
    exact trim_padded y.before.isBlank_text hblank l

/-- The same holds for a last line without a line break, with lines of blanks below it. -/
lemma LineLayout.exists_lines_last (y : LineLayout) {l : List Char} (hne : l ≠ []) (h : '\n' ∉ l)
    {below : List Char} (hbelow : ∀ c ∈ below, isBlank c = true) :
    ∃ above k later, lines (y.around l ++ below) = above ++ k :: later ∧
      above.length = y.above.length ∧ (∀ l ∈ above, trim l = []) ∧ trim k = trim l ∧
        ∀ l ∈ later, trim l = [] := by
  have hmem : '\n' ∉ y.before.text ++ l ++ y.behind.text := by
    simp [y.before.lineFeed_not_mem, h, y.behind.lineFeed_not_mem]
  obtain ⟨k, later, hk, htrim, hlater⟩ := exists_lines_below (by simp [hne]) hmem hbelow
  obtain ⟨above, habove, hlength, hnone⟩ :=
    y.exists_lines_aboveText (y.before.text ++ l ++ y.behind.text ++ below)
  refine ⟨above, k, later, ?_, hlength, hnone, ?_, hlater⟩
  · rw [← hk, ← habove, around, List.append_assoc]
  · rw [htrim]
    exact trim_padded y.before.isBlank_text y.behind.isBlank_text l

end CoverageEstimate.Text

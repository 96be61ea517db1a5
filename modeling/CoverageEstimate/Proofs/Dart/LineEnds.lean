/-
# Line ends do not matter

A Dart source or test may end its lines with a line feed or with a carriage return and a line feed;
the line scanner finds the same in both.  For sources this is a matter of the lines, which are the
same.  Tests are not cut into lines: the patterns of calls and titles run over the whole text, with
line ends among the blanks that they pass over, so that their matches stand elsewhere and are of
other lengths.

The two runs of a pattern are kept in step by `stretched`, which counts what some characters of one
text become in the other: where one run has so many characters of a match still to pass over, the
other one has those that they have become.
-/
import CoverageEstimate.Analyzers
import CoverageEstimate.Pairing.Project
import CoverageEstimate.Proofs.Dart.Substring

namespace CoverageEstimate

namespace Text

/-- The text with a carriage return before each line feed. -/
def withReturns (cs : List Char) : List Char :=
  cs.flatMap fun c => if c = '\n' then ['\r', '\n'] else [c]

@[simp] lemma withReturns_nil : withReturns [] = [] := rfl

@[simp] lemma withReturns_lineFeed (cs : List Char) :
    withReturns ('\n' :: cs) = '\r' :: '\n' :: withReturns cs := rfl

lemma withReturns_cons {c : Char} (h : c ≠ '\n') (cs : List Char) :
    withReturns (c :: cs) = c :: withReturns cs := by
  rw [withReturns, List.flatMap_cons, if_neg h]
  rfl

@[simp] lemma withReturns_append (front back : List Char) :
    withReturns (front ++ back) = withReturns front ++ withReturns back := List.flatMap_append

/-- An induction along a text with a case of its own for line feeds. -/
@[elab_as_elim]
lemma lineFeedInduction {motive : List Char → Prop} (nil : motive [])
    (lineFeed : ∀ cs, motive cs → motive ('\n' :: cs))
    (cons : ∀ c cs, c ≠ '\n' → motive cs → motive (c :: cs)) (cs : List Char) : motive cs := by
  induction cs with
  | nil => exact nil
  | cons c rest ih =>
    by_cases hn : c = '\n'
    · subst hn
      exact lineFeed rest ih
    · exact cons c rest hn ih

/-- On one line, nothing changes. -/
lemma withReturns_of_not_mem {cs : List Char} (h : '\n' ∉ cs) : withReturns cs = cs := by
  induction cs with
  | nil => rfl
  | cons c rest ih =>
    have hc : c ≠ '\n' := (List.ne_of_not_mem_cons h).symm
    rw [withReturns_cons hc, ih (List.not_mem_of_not_mem_cons h)]

/-! ## Lines -/

/-- The lines of a text are the same with either line end. -/
lemma lines_withReturns {cs : List Char} (h : '\r' ∉ cs) : lines (withReturns cs) = lines cs := by
  induction cs using lineFeedInduction with
  | nil => rfl
  | lineFeed rest ih =>
    rw [withReturns_lineFeed, lines, lines, ih (List.not_mem_of_not_mem_cons h)]
  | cons c rest hn ih =>
    have hr : c ≠ '\r' := (List.ne_of_not_mem_cons h).symm
    rw [withReturns_cons hn, lines_cons hn (absurd · hr), lines_cons hn (absurd · hr),
      ih (List.not_mem_of_not_mem_cons h)]

/-! ## Runs of characters -/

section Runs

variable {q : Char → Bool}

/-- A class of characters that has both characters of a line end or none of them ends its runs at
the same places. -/
lemma takeWhile_withReturns (hq : q '\r' = q '\n') (cs : List Char) :
    (withReturns cs).takeWhile q = withReturns (cs.takeWhile q) := by
  induction cs using lineFeedInduction with
  | nil => rfl
  | lineFeed rest ih =>
    rw [withReturns_lineFeed, List.takeWhile_cons, List.takeWhile_cons, hq, ih,
      List.takeWhile_cons]
    split <;> rfl
  | cons c rest hn ih =>
    rw [withReturns_cons hn, List.takeWhile_cons, ih, List.takeWhile_cons]
    split
    · rw [withReturns_cons hn]
    · rfl

lemma dropWhile_withReturns (hq : q '\r' = q '\n') (cs : List Char) :
    (withReturns cs).dropWhile q = withReturns (cs.dropWhile q) := by
  induction cs using lineFeedInduction with
  | nil => rfl
  | lineFeed rest ih =>
    rw [withReturns_lineFeed, List.dropWhile_cons, List.dropWhile_cons, hq, ih,
      List.dropWhile_cons]
    split <;> rfl
  | cons c rest hn ih =>
    rw [withReturns_cons hn, List.dropWhile_cons, ih, List.dropWhile_cons]
    split
    · rfl
    · rw [withReturns_cons hn]

lemma filter_withReturns (hr : q '\r' = false) (hn : q '\n' = false) (cs : List Char) :
    (withReturns cs).filter q = cs.filter q := by
  induction cs using lineFeedInduction with
  | nil => rfl
  | lineFeed rest ih => simp [hr, hn, ih]
  | cons c rest h ih => rw [withReturns_cons h, List.filter_cons, List.filter_cons, ih]

/-- What is left of a text without the blanks at its end ends in the last of its characters that is
no blank. -/
lemma getLast?_trimEnd (cs : List Char) :
    (trimEnd cs).getLast? = (cs.filter fun c => !isBlank c).getLast? := by
  rw [trimEnd, List.getLast?_reverse, ← List.reverse_reverse (cs.filter _), List.getLast?_reverse,
    ← List.filter_reverse, List.head?_filter, List.find?_not_eq_head?_dropWhile]

lemma getLast?_trimEnd_withReturns (cs : List Char) :
    (trimEnd (withReturns cs)).getLast? = (trimEnd cs).getLast? := by
  rw [getLast?_trimEnd, getLast?_trimEnd, filter_withReturns (by decide) (by decide)]

end Runs

/-! ## Pieces -/

/-- A word on one line starts both texts or none of them. -/
lemma prefix_withReturns_iff {word : List Char} (hn : '\n' ∉ word) (hr : '\r' ∉ word)
    {cs : List Char} : word <+: withReturns cs ↔ word <+: cs := by
  induction word generalizing cs with
  | nil => simp
  | cons c rest ih =>
    have hcn : '\n' ≠ c := List.ne_of_not_mem_cons hn
    have hcr : '\r' ≠ c := List.ne_of_not_mem_cons hr
    cases cs using lineFeedInduction with
    | nil => rfl
    | lineFeed ds => simp [List.cons_prefix_cons, hcn.symm, hcr.symm]
    | cons d ds h =>
      rw [withReturns_cons h, List.cons_prefix_cons, List.cons_prefix_cons,
        ih (List.not_mem_of_not_mem_cons hn) (List.not_mem_of_not_mem_cons hr)]

/-- Without its carriage returns, a text is as it was. -/
lemma filter_ne_return_withReturns {cs : List Char} (h : '\r' ∉ cs) :
    (withReturns cs).filter (· ≠ '\r') = cs := by
  induction cs using lineFeedInduction with
  | nil => rfl
  | lineFeed rest ih =>
    rw [withReturns_lineFeed, List.filter_cons_of_neg (by decide),
      List.filter_cons_of_pos (by decide), ih (List.not_mem_of_not_mem_cons h)]
  | cons c rest hn ih =>
    have hr : c ≠ '\r' := (List.ne_of_not_mem_cons h).symm
    rw [withReturns_cons hn, List.filter_cons_of_pos (by simpa using hr),
      ih (List.not_mem_of_not_mem_cons h)]

/-- A word on one line stands in both texts or in none of them. -/
lemma infix_withReturns_iff {word cs : List Char} (hn : '\n' ∉ word) (hr : '\r' ∉ word)
    (hcs : '\r' ∉ cs) : word <:+: withReturns cs ↔ word <:+: cs := by
  constructor
  · intro h
    have hfilter := h.filter (· ≠ '\r')
    have hword := filter_ne_return_withReturns hr
    rw [withReturns_of_not_mem hn] at hword
    rwa [hword, filter_ne_return_withReturns hcs] at hfilter
  · rintro ⟨front, back, rfl⟩
    refine ⟨withReturns front, withReturns back, ?_⟩
    rw [withReturns_append, withReturns_append, withReturns_of_not_mem hn]

lemma head?_withReturns_eq_iff {c : Char} (hn : c ≠ '\n') (hr : c ≠ '\r') {cs : List Char} :
    (withReturns cs).head? = some c ↔ cs.head? = some c := by
  cases cs using lineFeedInduction with
  | nil => rfl
  | lineFeed ds => simp [hn.symm, hr.symm]
  | cons d ds h => rw [withReturns_cons h, List.head?_cons, List.head?_cons]

/-! ## Patterns -/

/-- How many characters the first `n` characters of a text become. -/
def stretched (cs : List Char) (n : ℕ) : ℕ := (withReturns (cs.take n)).length

@[simp] lemma stretched_zero (cs : List Char) : stretched cs 0 = 0 := rfl

lemma stretched_lineFeed (cs : List Char) (n : ℕ) :
    stretched ('\n' :: cs) (n + 1) = stretched cs n + 2 := rfl

lemma stretched_cons {c : Char} (h : c ≠ '\n') (cs : List Char) (n : ℕ) :
    stretched (c :: cs) (n + 1) = stretched cs n + 1 := by
  rw [stretched, List.take_succ_cons, withReturns_cons h, List.length_cons, stretched]

lemma stretched_append (front back : List Char) (n : ℕ) :
    stretched (front ++ back) (front.length + n) =
      (withReturns front).length + stretched back n := by
  rw [stretched, List.take_length_add_append, withReturns_append, List.length_append, stretched]

/-- The first characters may be two runs, with a character of the same line behind each. -/
lemma stretched_runs {c d : Char} (hc : c ≠ '\n') (hd : d ≠ '\n') (front middle back : List Char)
    (n : ℕ) :
    stretched (front ++ c :: (middle ++ d :: back)) (front.length + 1 + middle.length + 1 + n) =
      (withReturns front).length + 1 + (withReturns middle).length + 1 + stretched back n := by
  have hlen : front.length + 1 + middle.length + 1 + n =
      front.length + (middle.length + (n + 1) + 1) := by omega
  rw [hlen, stretched_append, stretched_cons hc, stretched_append, stretched_cons hd]
  omega

/-- A pattern reads the same with either line end, in a match that has become so much longer. -/
def Pattern.IgnoresReturns {α : Type} (p : Pattern α) : Prop :=
  ∀ before cs, p before (withReturns cs) = (p before cs).map fun m => (m.1, stretched cs m.2)

/-- **Both runs of a pattern** read the same, if it ignores returns and does not start at a line
end. -/
lemma Pattern.IgnoresReturns.occurrencesFrom_eq {α : Type} {p : Pattern α} (hp : p.IgnoresReturns)
    (hline : ∀ before cs, p before ('\n' :: cs) = none) (skip : ℕ) (before : Option Char)
    (cs : List Char) :
    p.occurrencesFrom (stretched cs skip) before (withReturns cs) =
      p.occurrencesFrom skip before cs := by
  induction cs using lineFeedInduction generalizing skip before with
  | nil => simp [Pattern.occurrencesFrom]
  | lineFeed rest ih =>
    cases skip with
    | succ skip =>
      rw [withReturns_lineFeed, stretched_lineFeed, Pattern.occurrencesFrom,
        Pattern.occurrencesFrom, Pattern.occurrencesFrom]
      exact ih skip (some '\n')
    | zero =>
      -- there is no match at the carriage return either, since that is where the line ends
      have hreturn : p before ('\r' :: '\n' :: withReturns rest) = none := by
        rw [← withReturns_lineFeed, hp, hline]
        rfl
      rw [withReturns_lineFeed, stretched_zero, Pattern.occurrencesFrom, hreturn,
        Pattern.occurrencesFrom, hline, Pattern.occurrencesFrom, hline]
      exact ih 0 (some '\n')
  | cons c rest hn ih =>
    cases skip with
    | succ skip =>
      rw [withReturns_cons hn, stretched_cons hn, Pattern.occurrencesFrom,
        Pattern.occurrencesFrom]
      exact ih skip (some c)
    | zero =>
      have hmatch := hp before (c :: rest)
      rw [withReturns_cons hn] at hmatch
      rw [withReturns_cons hn, stretched_zero, Pattern.occurrencesFrom, hmatch,
        Pattern.occurrencesFrom]
      cases p before (c :: rest) with
      | none => exact ih 0 (some c)
      | some m =>
        obtain ⟨a, len⟩ := m
        -- behind the first character, the match goes on for as much longer
        have hlen : stretched (c :: rest) len - 1 = stretched rest (len - 1) := by
          cases len with
          | zero => rfl
          | succ len => rw [stretched_cons hn, Nat.add_sub_cancel, Nat.add_sub_cancel]
        simp only [Option.map_some, hlen, ih]

lemma Pattern.IgnoresReturns.occurrences_eq {α : Type} {p : Pattern α} (hp : p.IgnoresReturns)
    (hline : ∀ before cs, p before ('\n' :: cs) = none) (cs : List Char) :
    p.occurrences (withReturns cs) = p.occurrences cs :=
  hp.occurrencesFrom_eq hline 0 none cs

end Text

namespace Dart

open Text

/-! ## Calls -/

/-- The arguments of a call open behind the same characters. -/
lemma argumentsOpenAt?_withReturns (cs : List Char) :
    argumentsOpenAt? (withReturns cs) = (argumentsOpenAt? cs).map (stretched cs) := by
  have hcs : cs.takeWhile isBlank ++ cs.dropWhile isBlank = cs := List.takeWhile_append_dropWhile
  rw [argumentsOpenAt?, argumentsOpenAt?, takeWhile_withReturns rfl, dropWhile_withReturns rfl]
  generalize cs.takeWhile isBlank = blanks at hcs ⊢
  generalize cs.dropWhile isBlank = back at hcs ⊢
  subst hcs
  cases back using lineFeedInduction with
  | nil => rfl
  | lineFeed rest => rfl
  | cons c rest hn =>
    by_cases hopen : c = '('
    · subst hopen
      rw [withReturns_cons hn]
      simp [stretched_append, stretched_cons]
    by_cases hless : c = '<'
    · subst hless
      have hrest : rest.takeWhile isTypeArgumentChar ++ rest.dropWhile isTypeArgumentChar = rest :=
        List.takeWhile_append_dropWhile
      have hline : isTypeArgumentChar '\r' = isTypeArgumentChar '\n' := rfl
      rw [withReturns_cons hn]
      simp only [takeWhile_withReturns hline, dropWhile_withReturns hline,
        getLast?_trimEnd_withReturns]
      generalize rest.takeWhile isTypeArgumentChar = arguments at hrest ⊢
      generalize rest.dropWhile isTypeArgumentChar = after at hrest ⊢
      subst hrest
      by_cases hafter : after.head? = some '('
      · obtain ⟨tail, rfl⟩ := List.head?_eq_some_iff.mp hafter
        have hlen := stretched_runs hn (by decide : '(' ≠ '\n') blanks arguments tail 0
        rw [withReturns_cons (by decide), List.head?_cons, List.head?_cons]
        split
        · rw [Option.map_some, ← Nat.add_zero (_ + _ + _ + 1), hlen]
          rfl
        · rfl
      · have hafter' : (withReturns after).head? ≠ some '(' := by
          rwa [Ne, head?_withReturns_eq_iff (by decide) (by decide)]
        simp [hafter, hafter']
    · -- nothing but a parenthesis or an angle bracket follows a callee
      rw [withReturns_cons hn]
      split <;> split <;> simp_all

/-- A name has no line end in it. -/
lemma takeWhile_isNameChar_withReturns (cs : List Char) :
    (withReturns cs).takeWhile isNameChar = cs.takeWhile isNameChar := by
  rw [takeWhile_withReturns rfl, withReturns_of_not_mem]
  intro h
  exact absurd (List.mem_takeWhile_imp h) (by decide)

lemma callPattern_ignoresReturns : callPattern.IgnoresReturns := by
  intro before cs
  cases cs using lineFeedInduction with
  | nil => rfl
  | lineFeed cs => rfl
  | cons c cs hn =>
    have htake := takeWhile_isNameChar_withReturns cs
    rw [withReturns_cons hn, callPattern, callPattern, htake, dropWhile_withReturns rfl,
      argumentsOpenAt?_withReturns]
    split
    · cases argumentsOpenAt? (cs.dropWhile isNameChar) with
      | none => rfl
      | some n =>
        have hlen : stretched (c :: cs) ((c :: cs.takeWhile isNameChar).length + n) =
            (c :: cs.takeWhile isNameChar).length + stretched (cs.dropWhile isNameChar) n := by
          have hcs := stretched_append (c :: cs.takeWhile isNameChar) (cs.dropWhile isNameChar) n
          rw [withReturns_cons hn, ← takeWhile_withReturns rfl, htake, List.cons_append,
            List.takeWhile_append_dropWhile] at hcs
          exact hcs
        dsimp only [Option.map_some]
        rw [hlen]
    · rfl

lemma callPattern_lineFeed (before : Option Char) (cs : List Char) :
    callPattern before ('\n' :: cs) = none := rfl

/-- The calls are the same with either line end. -/
lemma callNames_withReturns (text : List Char) : callNames (withReturns text) = callNames text := by
  rw [callNames, callNames, callPattern_ignoresReturns.occurrences_eq callPattern_lineFeed]

/-! ## Titles -/

/-- A title ends at the closing quote, and there is none if the line ends before it. -/
lemma titleUntil?_cons (quote c : Char) (cs : List Char) :
    titleUntil? quote (c :: cs) =
      if c = quote then some ([], 1)
      else if c = '\n' then none
      else (titleUntil? quote cs).map fun t => (c :: t.1, t.2 + 1) := by
  rw [titleUntil?, titleUntil?]
  by_cases hquote : c = quote
  · simp [hquote]
  by_cases hn : c = '\n'
  · subst hn
    simp [hquote]
  · rw [List.takeWhile_cons_of_pos (by simp [hquote, hn]), if_neg hquote, if_neg hn,
      List.length_cons, List.drop_succ_cons]
    split <;> rfl

lemma titleUntil?_withReturns {quote : Char} (hn : quote ≠ '\n') (hr : quote ≠ '\r')
    (cs : List Char) :
    titleUntil? quote (withReturns cs) =
      (titleUntil? quote cs).map fun t => (t.1, stretched cs t.2) := by
  induction cs using lineFeedInduction with
  | nil => rfl
  | lineFeed cs => simp [titleUntil?_cons, hn.symm, hr.symm]
  | cons c cs hc ih =>
    rw [withReturns_cons hc, titleUntil?_cons, titleUntil?_cons, ih, if_neg hc, if_neg hc]
    split
    · simp [stretched_cons hc]
    · simp [stretched_cons hc, Function.comp_def]

/-- The title of a declaration is the same, with all that stands before it and in it. -/
lemma titleAfterWord?_withReturns (cs : List Char) :
    titleAfterWord? (withReturns cs) =
      (titleAfterWord? cs).map fun t => (t.1, stretched cs t.2) := by
  have hcs : cs.takeWhile isBlank ++ cs.dropWhile isBlank = cs := List.takeWhile_append_dropWhile
  have hline : isBlank '\r' = isBlank '\n' := rfl
  rw [titleAfterWord?, titleAfterWord?, takeWhile_withReturns hline, dropWhile_withReturns hline]
  generalize cs.takeWhile isBlank = blanks at hcs ⊢
  generalize cs.dropWhile isBlank = back at hcs ⊢
  subst hcs
  cases back using lineFeedInduction with
  | nil => rfl
  | lineFeed rest => rfl
  | cons c rest hn =>
    by_cases hopen : c = '('
    · subst hopen
      have hrest : rest.takeWhile isBlank ++ rest.dropWhile isBlank = rest :=
        List.takeWhile_append_dropWhile
      rw [withReturns_cons hn]
      simp only [takeWhile_withReturns hline, dropWhile_withReturns hline]
      generalize rest.takeWhile isBlank = inner at hrest ⊢
      generalize rest.dropWhile isBlank = after at hrest ⊢
      subst hrest
      cases after using lineFeedInduction with
      | nil => rfl
      | lineFeed body => rfl
      | cons d body hd =>
        have hlen := stretched_runs hn hd blanks inner body
        rw [withReturns_cons hd]
        by_cases hsingle : d = '\''
        · subst hsingle
          simp [titleUntil?_withReturns, Function.comp_def, hlen]
        by_cases hdouble : d = '"'
        · subst hdouble
          simp [titleUntil?_withReturns, Function.comp_def, hlen]
        · -- no other character opens a title
          split <;> split <;> simp_all
    · rw [withReturns_cons hn]
      split <;> split <;> simp_all

/-- A search depends on what it finds in the members of the list only. -/
lemma findSome?_congr {α β : Type} {f g : α → Option β} {l : List α} (h : ∀ a ∈ l, f a = g a) :
    l.findSome? f = l.findSome? g := by
  induction l with
  | nil => rfl
  | cons a rest ih =>
    rw [List.findSome?_cons, List.findSome?_cons, h a List.mem_cons_self,
      ih fun b hb => h b (List.mem_cons_of_mem _ hb)]

lemma titlePattern_ignoresReturns : titlePattern.IgnoresReturns := by
  intro before cs
  rw [titlePattern, titlePattern]
  split
  · rfl
  have hlines : ∀ word ∈ declarationWords, '\n' ∉ word ∧ '\r' ∉ word := by decide
  have hword : ∀ word ∈ declarationWords,
      (if word.isPrefixOf (withReturns cs) then
        (titleAfterWord? ((withReturns cs).drop word.length)).map fun t => (t.1, word.length + t.2)
      else none) =
      (if word.isPrefixOf cs then
        (titleAfterWord? (cs.drop word.length)).map fun t => (t.1, word.length + t.2)
      else none).map fun m => (m.1, stretched cs m.2) := by
    intro word hword
    obtain ⟨hn, hr⟩ := hlines word hword
    simp only [List.isPrefixOf_iff_prefix, prefix_withReturns_iff hn hr]
    by_cases hcs : word <+: cs
    · obtain ⟨rest, rfl⟩ := hcs
      have hlen := stretched_append word rest
      rw [withReturns_of_not_mem hn] at hlen
      rw [withReturns_append, withReturns_of_not_mem hn, List.drop_left, List.drop_left,
        titleAfterWord?_withReturns]
      simp [Function.comp_def, hlen]
    · simp [hcs]
  rw [List.map_findSome?]
  exact findSome?_congr hword

lemma titlePattern_lineFeed (before : Option Char) (cs : List Char) :
    titlePattern before ('\n' :: cs) = none := by
  rw [titlePattern]
  split
  · rfl
  · simp [declarationWords]

/-- The titles are the same with either line end. -/
lemma titles_withReturns (text : List Char) : titles (withReturns text) = titles text := by
  rw [titles, titles, titlePattern_ignoresReturns.occurrences_eq titlePattern_lineFeed]

lemma signals_withReturns (text : List Char) : signals (withReturns text) = signals text := by
  rw [signals, signals, callNames_withReturns, titles_withReturns]

/-! ## Functions and their scores -/

lemma functions_withReturns {source : List Char} (h : '\r' ∉ source) :
    functions (withReturns source) = functions source := by
  rw [functions, functions, lines_withReturns h]

/-- A function that is found has the same evidence in a test with either line end: its name stands
on one line. -/
lemma scoreFunction_withReturns {source test : List Char} (htest : '\r' ∉ test)
    {d : FunctionDefinition} (hd : d ∈ functions source) :
    scoreFunction d.name (signals (withReturns test)) (withReturns test) =
      scoreFunction d.name (signals test) test := by
  obtain ⟨before, hbefore⟩ := (functions_found source).exists_declaredName? d hd
  have hword := (isWord_of_declaredName? hbefore).2
  have hn : '\n' ∉ d.name.toList := fun h => absurd (hword _ h) (by decide)
  have hr : '\r' ∉ d.name.toList := fun h => absurd (hword _ h) (by decide)
  have hoccurs : occursIn d.name.toList (withReturns test) = occursIn d.name.toList test := by
    rw [Bool.eq_iff_iff, occursIn_iff, occursIn_iff, infix_withReturns_iff hn hr htest]
  rw [scoreFunction, scoreFunction, signals_withReturns, hoccurs]

end Dart

/-! ## Files -/

namespace Text

/-- The text with a carriage return before each line feed, if there are to be any. -/
def withEnds (returns : Bool) (cs : List Char) : List Char :=
  if returns then withReturns cs else cs

end Text

namespace Project

open Text

variable {p : Project} {r : FileRecord} {source test text : List Char}

/-- The file holds the text, and the line scanner reads it. -/
structure ReadsDart (p : Project) (r : FileRecord) (text : List Char) : Prop where
  readText : p.readText (p.pathOf r) = .ok (String.ofList text)
  analyzer : Analyzer.forPath? p.analyzers (p.pathOf r) = some (Analyzer.dartLines p.readText)

lemma ReadsDart.evidence_eq (h : p.ReadsDart r text) :
    (p.evidence r).result =
      if p.isCancelled then none else some ⟨Dart.signals text, String.ofList text⟩ := by
  have hknown : sourceText p.readText (some (String.ofList text)) (p.pathOf r) =
      .ok (String.ofList text) := by
    rw [sourceText]
    split
    · rw [sourceText.read, h.readText]
    · rfl
  rw [evidence]
  split
  · rfl
  · simp only [h.readText, h.analyzer, Analyzer.dartLines, hknown, Except.map,
      String.toList_ofList]

lemma ReadsDart.fileCoverage_eq (h : p.ReadsDart r text) (test : Option (String × TestEvidence)) :
    (p.fileCoverage r test).result =
      if p.isCancelled ∨ Dart.functions text = [] then none
      else some (coverageOf r .dart test (Dart.functions text)) := by
  rw [fileCoverage]
  by_cases hcancelled : p.isCancelled
  · simp [hcancelled]
  · simp only [hcancelled, h.readText, h.analyzer, Analyzer.dartLines, sourceText, sourceText.read,
      Except.map, String.toList_ofList]
    cases Dart.functions text with
    | nil => rfl
    | cons d ds => rfl

/-- **Line ends do not matter** for Dart.  A source and a test without carriage returns may have one
before each of their line feeds, in the source, in the test or in both: the source has the same
functions, the test gives the same signals, each function has the same evidence and score, and the
coverage of the source is the same, without a test and against this one, whatever else differs
between the projects that the files are in. -/
theorem fileCoverage_withEnds (hsource : '\r' ∉ source) (htest : '\r' ∉ test)
    (inSource inTest : Bool) :
    Dart.functions (withEnds inSource source) = Dart.functions source ∧
      Dart.signals (withEnds inTest test) = Dart.signals test ∧
      (∀ d ∈ Dart.functions source,
        scoreFunction d.name (Dart.signals (withEnds inTest test)) (withEnds inTest test) =
          scoreFunction d.name (Dart.signals test) test) ∧
      ∀ {p q : Project} {r s : FileRecord}, p.isCancelled = q.isCancelled →
        p.ReadsDart r source → q.ReadsDart s (withEnds inSource source) →
        r.relativePath = s.relativePath →
        (p.fileCoverage r none).result = (q.fileCoverage s none).result ∧
          ∀ {t u : FileRecord}, p.ReadsDart t test → q.ReadsDart u (withEnds inTest test) →
            t.relativePath = u.relativePath →
            (p.fileCoverage r ((p.evidence t).result.map fun e => (t.relativePath, e))).result =
              (q.fileCoverage s
                ((q.evidence u).result.map fun e => (u.relativePath, e))).result := by
  have hfunctions : Dart.functions (withEnds inSource source) = Dart.functions source := by
    cases inSource with
    | false => rfl
    | true => exact Dart.functions_withReturns hsource
  have hsignals : Dart.signals (withEnds inTest test) = Dart.signals test := by
    cases inTest with
    | false => rfl
    | true => exact Dart.signals_withReturns test
  have hscore : ∀ d ∈ Dart.functions source,
      scoreFunction d.name (Dart.signals (withEnds inTest test)) (withEnds inTest test) =
        scoreFunction d.name (Dart.signals test) test := by
    intro d hd
    cases inTest with
    | false => rfl
    | true => exact Dart.scoreFunction_withReturns htest hd
  refine ⟨hfunctions, hsignals, hscore, ?_⟩
  intro p q r s hcancelled hr hs hrs
  constructor
  · rw [hr.fileCoverage_eq, hs.fileCoverage_eq, hfunctions, hcancelled, coverageOf, coverageOf, hrs]
  intro t u ht hu htu
  have hcovered : (Dart.functions source).map (functionCoverage
      (some ⟨Dart.signals test, String.ofList test⟩)) =
      (Dart.functions source).map (functionCoverage
        (some ⟨Dart.signals test, String.ofList (withEnds inTest test)⟩)) := by
    refine List.map_congr_left fun d hd => ?_
    have hd := hscore d hd
    rw [hsignals] at hd
    simp only [functionCoverage, String.toList_ofList, hd]
  rw [hr.fileCoverage_eq, hs.fileCoverage_eq, ht.evidence_eq, hu.evidence_eq, hfunctions,
    hcancelled, hsignals, htu]
  cases q.isCancelled with
  | true => rfl
  | false => simp only [coverageOf, hrs, Option.map_some, if_neg Bool.false_ne_true, hcovered]

/-- A source of one function on several lines. -/
def brokenSource : List Char := "int load() \x7b\n  return 1;\n\x7d\n".toList

/-- A test with line ends before its title and in its call. -/
def brokenTest : List Char := "test(\n  'load works', () => load\n  ());\n".toList

/-- A project of one source and one test. -/
def ofTexts (source test : List Char) : Project :=
  let readText path :=
    .ok (String.ofList (if path = "/app/lib/a.dart" then source else test))
  { root := "/app"
    readText := readText
    analyzers := Analyzer.builtIn readText TypeScript.parse none
    isCancelled := false }

lemma forPath?_ofTexts (source test : List Char) {path : String}
    (h : Path.extension? path = some "dart") :
    Analyzer.forPath? (ofTexts source test).analyzers path =
      some (Analyzer.dartLines (ofTexts source test).readText) := by
  rw [Analyzer.forPath?, h]
  rfl

/-- The source of the sample. -/
def brokenSourceFile : FileRecord := ⟨"lib/a.dart", brokenSource.length, ".dart"⟩

/-- The test of the sample. -/
def brokenTestFile : FileRecord := ⟨"test/a_test.dart", brokenTest.length, ".dart"⟩

/-- The project has both files of the sample, with the texts that are given for them. -/
lemma readsDart_ofTexts (source test : List Char) :
    (ofTexts source test).ReadsDart brokenSourceFile source ∧
      (ofTexts source test).ReadsDart brokenTestFile test := by
  have hsource : (ofTexts source test).pathOf brokenSourceFile = "/app/lib/a.dart" :=
    (by decide : Path.join "/app" "lib/a.dart" = "/app/lib/a.dart")
  have htest : (ofTexts source test).pathOf brokenTestFile = "/app/test/a_test.dart" :=
    (by decide : Path.join "/app" "test/a_test.dart" = "/app/test/a_test.dart")
  refine ⟨⟨?_, ?_⟩, ⟨?_, ?_⟩⟩
  · rw [hsource]
    rfl
  · exact hsource ▸ forPath?_ofTexts source test (by decide)
  · rw [htest]
    rfl
  · exact htest ▸ forPath?_ofTexts source test (by decide)

/-- The function of the sample is called and mentioned with either line end. -/
theorem fileCoverage_brokenTest :
    '\r' ∉ brokenSource ∧ '\r' ∉ brokenTest ∧
      Dart.functions (withReturns brokenSource) = Dart.functions brokenSource ∧
      (scoreFunction "load" (Dart.signals (withReturns brokenTest))
        (withReturns brokenTest)).score = 80 ∧
      ∃ p q : Project, p.ReadsDart brokenSourceFile brokenSource ∧
        p.ReadsDart brokenTestFile brokenTest ∧
        q.ReadsDart brokenSourceFile (withReturns brokenSource) ∧
        q.ReadsDart brokenTestFile (withReturns brokenTest) ∧
        (p.fileCoverage brokenSourceFile ((p.evidence brokenTestFile).result.map fun e =>
            (brokenTestFile.relativePath, e))).result =
          (q.fileCoverage brokenSourceFile ((q.evidence brokenTestFile).result.map fun e =>
            (brokenTestFile.relativePath, e))).result := by
  have hsource : '\r' ∉ brokenSource := by decide
  have htest : '\r' ∉ brokenTest := by decide
  obtain ⟨hr, ht⟩ := readsDart_ofTexts brokenSource brokenTest
  obtain ⟨hs, hu⟩ := readsDart_ofTexts (withReturns brokenSource) (withReturns brokenTest)
  obtain ⟨hfunctions, -, hscore, hcoverage⟩ := fileCoverage_withEnds hsource htest true true
  have hfound : ⟨"load", 1, 3, "int load() \x7b", .function, none⟩ ∈
      Dart.functions brokenSource := by decide +kernel
  have hload : (scoreFunction "load" (Dart.signals brokenTest) brokenTest).score = 80 := by
    decide +kernel
  refine ⟨hsource, htest, hfunctions, ?_, _, _, hr, ht, hs, hu, ?_⟩
  · rw [← hload]
    exact congrArg Evidence.score (hscore _ hfound)
  · have hcancelled : (ofTexts brokenSource brokenTest).isCancelled =
        (ofTexts (withReturns brokenSource) (withReturns brokenTest)).isCancelled := rfl
    exact (hcoverage hcancelled hr hs rfl).2 ht hu rfl

end Project

end CoverageEstimate

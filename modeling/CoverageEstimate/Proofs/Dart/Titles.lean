/-
# The titles of a Dart test

A title stands between two quotes of the same kind, on one line, behind a declaring word and its
parenthesis.  It is read up to the first quote: a backslash escapes nothing, so that a title which
has to be written with a backslash is not read as it was meant.  One with a quote in it is cut
there, and one with a backslash keeps both of those that stand for it.

As with calls, a declaration can be lost to an earlier match only.  It starts with a word, which can
stand nowhere but in the title of that match; so an earlier title was still open in front of it,
such as one that is only named in a comment on the same line.
-/
import CoverageEstimate.Proofs.Dart.HeaderGrammar
import CoverageEstimate.Proofs.Signals.Findings
import CoverageEstimate.Proofs.Text.Matches
import CoverageEstimate.Dart.Signals

namespace CoverageEstimate.Dart

open Text

/-! ## The parts of a declaration -/

/-- What stands between a declaring word and its title: the parenthesis and the opening quote, with
blanks before each of them. -/
structure TitleLead where
  gap : List Char
  inner : List Char
  quote : Char
  isBlank_gap : ∀ c ∈ gap, isBlank c = true
  isBlank_inner : ∀ c ∈ inner, isBlank c = true
  quote_mem : quote ∈ ['\'', '"']

def TitleLead.text (l : TitleLead) : List Char := l.gap ++ '(' :: (l.inner ++ [l.quote])

/-- Whether a text can stand between two quotes as a title. -/
def IsTitle (quote : Char) (title : List Char) : Prop := ∀ c ∈ title, c ≠ quote ∧ c ≠ '\n'

lemma titleUntil?_eq_some_iff {quote : Char} {cs title : List Char} {n : ℕ} :
    titleUntil? quote cs = some (title, n) ↔
      IsTitle quote title ∧ ∃ rest, cs = title ++ quote :: rest ∧ n = title.length + 1 := by
  have hclass : ∀ c, (c != quote && c != '\n') = true ↔ c ≠ quote ∧ c ≠ '\n' := by simp
  constructor
  · intro h
    rw [titleUntil?] at h
    split at h
    · rename_i hquote
      obtain ⟨rfl, rfl⟩ := Prod.mk.inj (Option.some.inj h)
      rw [beq_iff_eq] at hquote
      obtain ⟨rest, hrest⟩ := List.head?_eq_some_iff.mp hquote
      have htitle : IsTitle quote (cs.takeWhile fun c => c != quote && c != '\n') := fun c hc =>
        (hclass c).mp (List.mem_takeWhile_imp (p := fun c => c != quote && c != '\n') hc)
      refine ⟨htitle, rest, ?_, rfl⟩
      rw [← hrest]
      exact (List.prefix_iff_eq_append.mp (List.takeWhile_prefix _)).symm
    · exact absurd h (by simp)
  · rintro ⟨htitle, rest, rfl, rfl⟩
    have hrun : (title ++ quote :: rest).takeWhile (fun c => c != quote && c != '\n') = title :=
      takeWhile_run (fun c hc => (hclass c).mpr (htitle c hc)) (by simp)
    rw [titleUntil?, hrun]
    simp

/-- Where a title is read behind a declaring word, a parenthesis and two quotes stand around it. -/
lemma exists_of_titleAfterWord? {cs title : List Char} {n : ℕ}
    (h : titleAfterWord? cs = some (title, n)) :
    ∃ (lead : TitleLead) (rest : List Char), IsTitle lead.quote title ∧
      cs = lead.text ++ (title ++ lead.quote :: rest) ∧
      n = lead.text.length + (title.length + 1) := by
  have hblank : ∀ cs : List Char, ∀ c ∈ cs.takeWhile isBlank, isBlank c = true :=
    fun cs c hc => List.mem_takeWhile_imp hc
  rw [titleAfterWord?] at h
  dsimp only at h
  split at h
  · rename_i rest hrest
    -- both kinds of quotes are treated alike
    have key : ∀ quote ∈ ['\'', '"'], ∀ body, rest.dropWhile isBlank = quote :: body →
        (titleUntil? quote body).map (fun t =>
            (t.1, (cs.takeWhile isBlank).length + 1 + (rest.takeWhile isBlank).length + 1 + t.2)) =
          some (title, n) →
        ∃ (lead : TitleLead) (rest : List Char), IsTitle lead.quote title ∧
          cs = lead.text ++ (title ++ lead.quote :: rest) ∧
          n = lead.text.length + (title.length + 1) := by
      intro quote hquote body hbody h
      obtain ⟨⟨t, m⟩, ht, heq⟩ := Option.map_eq_some_iff.mp h
      obtain ⟨rfl, rfl⟩ := Prod.mk.inj heq
      obtain ⟨htitle, back, rfl, rfl⟩ := titleUntil?_eq_some_iff.mp ht
      refine ⟨⟨cs.takeWhile isBlank, rest.takeWhile isBlank, quote, hblank cs, hblank rest,
        hquote⟩, back, htitle, ?_, ?_⟩
      · calc
          cs = cs.takeWhile isBlank ++ '(' :: rest := by
            rw [← hrest, List.takeWhile_append_dropWhile]
          _ = cs.takeWhile isBlank ++ '(' :: (rest.takeWhile isBlank ++
                quote :: (t ++ quote :: back)) := by
            rw [← hbody, List.takeWhile_append_dropWhile]
          _ = _ := by simp [TitleLead.text]
      · simp only [TitleLead.text, List.length_append, List.length_cons, List.length_nil]
        omega
    split at h
    · rename_i body hbody
      exact key '\'' (by simp) body hbody h
    · rename_i body hbody
      exact key '"' (by simp) body hbody h
    · exact absurd h (by simp)
  · exact absurd h (by simp)

lemma TitleLead.titleAfterWord?_text (lead : TitleLead) {title : List Char}
    (htitle : IsTitle lead.quote title) (rest : List Char) :
    titleAfterWord? (lead.text ++ (title ++ lead.quote :: rest)) =
      some (title, lead.text.length + (title.length + 1)) := by
  obtain ⟨gap, inner, quote, hgap, hinner, hquote⟩ := lead
  have hparen : ∀ cs : List Char, ∀ c ∈ ('(' :: cs).head?, isBlank c = false := by simp; decide
  have hstop : ∀ cs : List Char, ∀ c ∈ (quote :: cs).head?, isBlank c = false := by
    rcases List.mem_pair.mp hquote with rfl | rfl
    · simp; decide
    · simp; decide
  have htext : TitleLead.text ⟨gap, inner, quote, hgap, hinner, hquote⟩ ++
      (title ++ quote :: rest) = gap ++ '(' :: (inner ++ quote :: (title ++ quote :: rest)) := by
    simp [TitleLead.text]
  have huntil : titleUntil? quote (title ++ quote :: rest) = some (title, title.length + 1) :=
    titleUntil?_eq_some_iff.mpr ⟨htitle, rest, rfl, rfl⟩
  have hlength : (TitleLead.text ⟨gap, inner, quote, hgap, hinner, hquote⟩).length +
      (title.length + 1) = gap.length + 1 + inner.length + 1 + (title.length + 1) := by
    simp only [TitleLead.text, List.length_append, List.length_cons, List.length_nil]
    omega
  rw [titleAfterWord?, htext, takeWhile_run hgap (hparen _), dropWhile_run hgap (hparen _), hlength]
  rcases List.mem_pair.mp hquote with rfl | rfl <;>
    simp only [takeWhile_run hinner (hstop _), dropWhile_run hinner (hstop _), huntil,
      Option.map_some]

lemma titleAfterWord?_eq_some_iff {cs title : List Char} {n : ℕ} :
    titleAfterWord? cs = some (title, n) ↔
      ∃ (lead : TitleLead) (rest : List Char), IsTitle lead.quote title ∧
        cs = lead.text ++ (title ++ lead.quote :: rest) ∧
        n = lead.text.length + (title.length + 1) := by
  constructor
  · exact exists_of_titleAfterWord?
  · rintro ⟨lead, rest, htitle, rfl, rfl⟩
    exact lead.titleAfterWord?_text htitle rest

/-! ## Declaring words -/

lemma isWord_of_mem_declarationWords {word : List Char} (h : word ∈ declarationWords) :
    ∀ c ∈ word, isWord c = true := by
  have hall : (declarationWords.all fun word => word.all isWord) = true := by decide
  exact List.all_eq_true.mp (List.all_eq_true.mp hall word h)

lemma ne_nil_of_mem_declarationWords {word : List Char} (h : word ∈ declarationWords) :
    word ≠ [] := by
  have hall : ∀ word ∈ declarationWords, word ≠ [] := by decide
  exact hall word h

/-- Nothing between a declaring word and its title belongs to a word. -/
lemma TitleLead.isWord_eq_false_of_mem_text (l : TitleLead) : ∀ c ∈ l.text, isWord c = false := by
  intro c hc
  simp only [TitleLead.text, List.mem_append, List.mem_cons, List.not_mem_nil, or_false] at hc
  rcases hc with hc | rfl | hc | rfl
  · exact isWord_eq_false_of_isBlank (l.isBlank_gap c hc)
  · decide
  · exact isWord_eq_false_of_isBlank (l.isBlank_inner c hc)
  · rcases List.mem_pair.mp l.quote_mem with h | h <;> rw [h] <;> decide

lemma TitleLead.takeWhile_isWord (l : TitleLead) {word : List Char} (h : word ∈ declarationWords)
    (back : List Char) : (word ++ (l.text ++ back)).takeWhile isWord = word := by
  refine takeWhile_run (isWord_of_mem_declarationWords h) fun c hc => ?_
  have htext : l.text ≠ [] := by simp [TitleLead.text]
  rw [List.head?_append_of_ne_nil _ htext] at hc
  exact l.isWord_eq_false_of_mem_text c (List.mem_of_head? hc)

lemma titleBehind_eq_some_iff {word cs title : List Char} {n : ℕ} :
    (if word.isPrefixOf cs then
      (titleAfterWord? (cs.drop word.length)).map fun t => (t.1, word.length + t.2) else none) =
        some (title, n) ↔
      ∃ (lead : TitleLead) (rest : List Char), IsTitle lead.quote title ∧
        cs = word ++ (lead.text ++ (title ++ lead.quote :: rest)) ∧
        n = word.length + (lead.text.length + (title.length + 1)) := by
  constructor
  · intro h
    split at h
    · rename_i hprefix
      obtain ⟨back, rfl⟩ := List.isPrefixOf_iff_prefix.mp hprefix
      rw [List.drop_left] at h
      obtain ⟨⟨t, m⟩, ht, heq⟩ := Option.map_eq_some_iff.mp h
      obtain ⟨rfl, rfl⟩ := Prod.mk.inj heq
      obtain ⟨lead, rest, htitle, rfl, rfl⟩ := titleAfterWord?_eq_some_iff.mp ht
      exact ⟨lead, rest, htitle, rfl, rfl⟩
    · exact absurd h (by simp)
  · rintro ⟨lead, rest, htitle, rfl, rfl⟩
    rw [if_pos (List.isPrefixOf_iff_prefix.mpr (List.prefix_append _ _)), List.drop_left,
      titleAfterWord?_eq_some_iff.mpr ⟨lead, rest, htitle, rfl, rfl⟩]
    rfl

/-- The pattern of titles matches a declaring word at the start of a word, what stands before the
title, the title and its closing quote. -/
lemma titlePattern_eq_some_iff {before : Option Char} {cs title : List Char} {n : ℕ} :
    titlePattern before cs = some (title, n) ↔
      (∀ c ∈ before, isWord c = false) ∧ ∃ word ∈ declarationWords,
        ∃ (lead : TitleLead) (rest : List Char), IsTitle lead.quote title ∧
          cs = word ++ (lead.text ++ (title ++ lead.quote :: rest)) ∧
          n = word.length + (lead.text.length + (title.length + 1)) := by
  have hbefore : before.any isWord = false ↔ ∀ c ∈ before, isWord c = false := by
    cases before <;> simp
  rw [titlePattern, ← hbefore]
  constructor
  · intro h
    split at h
    · exact absurd h (by simp)
    · rename_i hnone
      obtain ⟨word, hword, h⟩ := List.exists_of_findSome?_eq_some h
      exact ⟨by simpa using hnone, word, hword, titleBehind_eq_some_iff.mp h⟩
  · rintro ⟨hnone, word, hword, h⟩
    rw [if_neg (by simp [hnone])]
    have hown := titleBehind_eq_some_iff.mpr h
    cases hfirst : declarationWords.findSome? fun word => if word.isPrefixOf cs then
        (titleAfterWord? (cs.drop word.length)).map fun t => (t.1, word.length + t.2) else none with
    | none =>
      rw [List.findSome?_eq_none_iff.mp hfirst word hword] at hown
      exact absurd hown (by simp)
    | some found =>
      -- the word that is found first is the one that the text starts with
      obtain ⟨word', hword', h'⟩ := List.exists_of_findSome?_eq_some hfirst
      obtain ⟨lead, rest, -, hcs, -⟩ := h
      obtain ⟨lead', rest', -, hcs', -⟩ := titleBehind_eq_some_iff.mp h'
      have hsame : word' = word := by
        rw [← lead.takeWhile_isWord hword, ← hcs, hcs', lead'.takeWhile_isWord hword']
      rw [← h', hsame, hown]

/-! ## Declarations that are reached -/

/-- A title is open at the end of the text: behind a declaring word, its parenthesis and a quote,
the text goes on as a title does. -/
def IsOpenTitle (text : List Char) : Prop :=
  ∃ outside, ∃ word ∈ declarationWords, ∃ (lead : TitleLead) (inside : List Char),
    text = outside ++ (word ++ (lead.text ++ inside)) ∧
    (∀ c ∈ outside.getLast?, isWord c = false) ∧ IsTitle lead.quote inside

/-- No title is open behind a line that has had no quotes yet. -/
lemma not_isOpenTitle_of_line {text : List Char}
    (h : (text.reverse.takeWhile (· != '\n')).all (· ∉ ['\'', '"']) = true) :
    ¬IsOpenTitle text := by
  rintro ⟨outside, word, -, lead, inside, rfl, -, hinside⟩
  refine of_decide_eq_true (List.all_eq_true.mp h lead.quote ?_) lead.quote_mem
  have hreverse : (outside ++ (word ++ (lead.text ++ inside))).reverse =
      inside.reverse ++ lead.quote ::
        ((lead.gap ++ '(' :: lead.inner).reverse ++ (word.reverse ++ outside.reverse)) := by
    simp [TitleLead.text]
  have hrun : ∀ c ∈ inside.reverse, (c != '\n') = true := fun c hc => by
    simpa using (hinside c (List.mem_reverse.mp hc)).2
  have hquote : (lead.quote != '\n') = true :=
    bne_iff_ne.mpr (ne_of_mem_of_not_mem lead.quote_mem (by decide))
  rw [hreverse, List.takeWhile_append_of_pos hrun,
    List.takeWhile_cons_of_pos (p := (· != '\n')) hquote]
  simp

/-- A match that starts earlier and reaches over the start of a word has it in its title. -/
lemma isOpenTitle_of_reached {outside inside title back : List Char} {c : Char} {n : ℕ}
    (hc : isWord c = true) (hne : inside ≠ []) (hlast : ∀ d ∈ inside.getLast?, isWord d = false)
    (hmatch : titlePattern outside.getLast? (inside ++ c :: back) = some (title, n))
    (hn : inside.length < n) : IsOpenTitle (outside ++ inside) := by
  obtain ⟨hbefore, word, hword, lead, rest, htitle, heq, rfl⟩ := titlePattern_eq_some_iff.mp hmatch
  -- the word does not start in the declaring word, nor between that and the title
  obtain ⟨t, rfl⟩ : word <+: inside :=
    prefix_of_run ⟨_, heq.symm⟩ ⟨_, rfl⟩ (isWord_of_mem_declarationWords hword) hne hlast
  rw [List.append_assoc] at heq
  have hlead := List.append_cancel_left heq
  obtain ⟨u, rfl⟩ : lead.text <+: t :=
    prefix_of_not_mem ⟨_, hlead.symm⟩ ⟨back, by simp⟩ fun hmem =>
      ne_of_isIn hc (lead.isWord_eq_false_of_mem_text c hmem) rfl
  rw [List.append_assoc] at hlead
  have hu : u <+: title := by
    refine List.prefix_of_prefix_length_le ⟨_, List.append_cancel_left hlead⟩ ⟨_, rfl⟩ ?_
    simp only [List.length_append] at hn
    omega
  exact ⟨outside, word, hword, lead, u, by simp, hbefore, fun d hd => htitle d (hu.subset hd)⟩

/-! ## Titles that are written with escapes -/

/-- How a title is written between quotes: with a backslash before each backslash and each quote. -/
def escaped (quote : Char) (title : List Char) : List Char :=
  title.flatMap fun c => if c = '\\' ∨ c = quote then ['\\', c] else [c]

/-- The title that is read where `title` is written. -/
def titleRead (quote : Char) (title : List Char) : List Char :=
  (escaped quote title).takeWhile (· != quote)

lemma escaped_cons (quote c : Char) (cs : List Char) :
    escaped quote (c :: cs) =
      (if c = '\\' ∨ c = quote then ['\\', c] else [c]) ++ escaped quote cs := rfl

lemma mem_escaped_iff {quote c : Char} (hc : c ≠ '\\') {title : List Char} :
    c ∈ escaped quote title ↔ c ∈ title := by
  induction title with
  | nil => rfl
  | cons d ds ih =>
    rw [escaped_cons, List.mem_append, ih, List.mem_cons]
    split <;> simp [hc]

lemma length_escaped (quote : Char) (title : List Char) :
    (escaped quote title).length =
      title.length + title.countP fun c => c = '\\' ∨ c = quote := by
  induction title with
  | nil => rfl
  | cons c cs ih =>
    rw [escaped_cons, List.length_append, ih, List.countP_cons, List.length_cons]
    by_cases hc : c = '\\' ∨ c = quote
    · simp [hc]
      omega
    · simp [hc]
      omega

/-- What is read is the title itself just when nothing in it has to be escaped. -/
lemma titleRead_eq_self_iff {quote : Char} (hquote : quote ≠ '\\') {title : List Char} :
    titleRead quote title = title ↔ '\\' ∉ title ∧ quote ∉ title := by
  constructor
  · intro h
    have hnone : quote ∉ title := by
      intro hmem
      rw [← h] at hmem
      simpa using List.mem_takeWhile_imp hmem
    have hall : titleRead quote title = escaped quote title := by
      refine List.takeWhile_eq_self_iff.mpr fun c hc => ?_
      have hne : c ≠ quote := fun heq => hnone ((mem_escaped_iff hquote).mp (heq ▸ hc))
      simpa using hne
    -- without a quote nothing is cut, so the backslashes would make the title longer
    have hlength := length_escaped quote title
    rw [← hall, h] at hlength
    have hcount : title.countP (fun c => c = '\\' ∨ c = quote) = 0 := by omega
    refine ⟨fun hmem => ?_, hnone⟩
    exact List.countP_eq_zero.mp hcount _ hmem (by simp)
  · rintro ⟨hslash, hnone⟩
    have hescaped : escaped quote title = title := by
      calc
        escaped quote title = title.flatMap fun c => [c] := List.flatMap_congr fun c hc => by
          have hc : ¬(c = '\\' ∨ c = quote) := by
            rintro (rfl | rfl)
            · exact hslash hc
            · exact hnone hc
          rw [if_neg hc]
        _ = title := List.flatMap_singleton' title
    rw [titleRead, hescaped]
    refine List.takeWhile_eq_self_iff.mpr fun c hc => ?_
    have hne : c ≠ quote := fun heq => hnone (heq ▸ hc)
    simpa using hne

/-- The title that is read ends at a quote. -/
lemma exists_eq_titleRead_append (quote : Char) (title rest : List Char) :
    ∃ back, escaped quote title ++ quote :: rest = titleRead quote title ++ quote :: back := by
  have hcut : titleRead quote title ++ (escaped quote title).dropWhile (· != quote) =
      escaped quote title := List.takeWhile_append_dropWhile
  have hhead := List.head?_dropWhile_not (· != quote) (escaped quote title)
  cases hdrop : (escaped quote title).dropWhile (· != quote) with
  | nil =>
    rw [hdrop, List.append_nil] at hcut
    exact ⟨rest, by rw [hcut]⟩
  | cons c cs =>
    rw [hdrop] at hcut hhead
    obtain rfl : c = quote := by simpa using hhead
    exact ⟨cs ++ c :: rest, by rw [← hcut]; simp⟩

/-- A title is mentioned, and so is each of its words. -/
def MentionsTitle (s : Signals) (title : List Char) : Prop :=
  String.ofList title ∈ s.mentions ∧ ∀ word ∈ tokens title, String.ofList word ∈ s.mentions

lemma mentionsTitle_of_mem_occurrences {text title : List Char}
    (h : title ∈ titlePattern.occurrences text) : MentionsTitle (signals text) title := by
  have hmem : String.ofList title ∈ titles text := List.mem_map_of_mem h
  refine ⟨Signals.mem_mentions_ofLists.mpr ⟨_, hmem, Or.inl rfl⟩, fun word hword => ?_⟩
  refine Signals.mem_mentions_ofLists.mpr ⟨_, hmem, Or.inr ?_⟩
  rwa [Signals.mem_titleWords_iff, String.toList_ofList, String.toList_ofList]

/-- **The title of a declaration** that no earlier title reaches is mentioned as it is read, up to
the first quote.  That is the title as it was meant just when nothing in it had to be escaped. -/
theorem mentionsTitle_of_declaration {front word title : List Char} (lead : TitleLead)
    (rest : List Char) (hword : word ∈ declarationWords)
    (hbefore : ∀ c ∈ front.getLast?, isWord c = false) (hline : '\n' ∉ title)
    (hopen : ¬IsOpenTitle front) :
    MentionsTitle (signals (front ++ (word ++ (lead.text ++
      (escaped lead.quote title ++ lead.quote :: rest))))) (titleRead lead.quote title) ∧
    (titleRead lead.quote title = title ↔ '\\' ∉ title ∧ lead.quote ∉ title) := by
  have hquote : lead.quote ≠ '\\' := ne_of_mem_of_not_mem lead.quote_mem (by decide)
  refine ⟨mentionsTitle_of_mem_occurrences ?_, titleRead_eq_self_iff hquote⟩
  obtain ⟨back, hback⟩ := exists_eq_titleRead_append lead.quote title rest
  rw [hback]
  have htitle : IsTitle lead.quote (titleRead lead.quote title) := by
    intro c hc
    refine ⟨by simpa using List.mem_takeWhile_imp hc, ?_⟩
    rintro rfl
    have hmem := (List.takeWhile_prefix (· != lead.quote)).subset hc
    exact hline ((mem_escaped_iff (by decide)).mp hmem)
  have hmatch := titlePattern_eq_some_iff.mpr ⟨hbefore, word, hword, lead, back, htitle, rfl, rfl⟩
  obtain ⟨c, cs, rfl⟩ := List.exists_cons_of_ne_nil (ne_nil_of_mem_declarationWords hword)
  have hc : isWord c = true := isWord_of_mem_declarationWords hword c List.mem_cons_self
  rcases Pattern.mem_occurrences_or_reached (by simp) hmatch with
    hfound | ⟨outside, inside, other, n, rfl, hne, hearlier, hn, -⟩
  · exact hfound
  · rw [List.getLast?_append_of_ne_nil outside hne] at hbefore
    exact absurd (isOpenTitle_of_reached hc hne hbefore hearlier hn) hopen

/-- What stands before a test in a group. -/
def groupFront : List Char := "group('all', () \x7b\n  ".toList

/-- The parenthesis and the quote of the test in the group, over two lines. -/
def groupLead : TitleLead where
  gap := []
  inner := "\n    ".toList
  quote := '"'
  isBlank_gap := by simp
  isBlank_inner := by simp; decide
  quote_mem := by decide

/-- The title of the test in the group is mentioned, with the quote of the other kind in it. -/
theorem mentionsTitle_groupFront :
    "test".toList ∈ declarationWords ∧ (∀ c ∈ groupFront.getLast?, isWord c = false) ∧
      '\n' ∉ "it's two".toList ∧ ¬IsOpenTitle groupFront ∧
      MentionsTitle (signals (groupFront ++ ("test".toList ++ (groupLead.text ++
        (escaped '"' "it's two".toList ++ '"' :: ", run);".toList))))) "it's two".toList := by
  have hword : "test".toList ∈ declarationWords := by decide
  have hlast : groupFront.getLast? = some ' ' := by decide
  have hbefore : ∀ c ∈ groupFront.getLast?, isWord c = false := by simp [hlast]; decide
  have hline : '\n' ∉ "it's two".toList := by decide
  have hopen : ¬IsOpenTitle groupFront := not_isOpenTitle_of_line (by decide +kernel)
  obtain ⟨hmentions, hread⟩ :=
    mentionsTitle_of_declaration groupLead ", run);".toList hword hbefore hline hopen
  rw [hread.mpr (by decide)] at hmentions
  exact ⟨hword, hbefore, hline, hopen, hmentions⟩

/-- A test whose title has an escaped quote. -/
def escapedQuote : List Char := "test('it\\'s', run);".toList

/-- The parenthesis and the quote of that test. -/
def plainLead : TitleLead where
  gap := []
  inner := []
  quote := '\''
  isBlank_gap := by simp
  isBlank_inner := by simp
  quote_mem := by decide

/-- The title is cut at the escaped quote, so it is not mentioned as it was meant. -/
theorem its_not_mem_mentions :
    "test".toList ∈ declarationWords ∧ '\n' ∉ "it's".toList ∧ '$' ∉ "it's".toList ∧
      escapedQuote = [] ++ ("test".toList ++ (plainLead.text ++
        (escaped '\'' "it's".toList ++ '\'' :: ", run);".toList))) ∧
      "it's" ∉ (signals escapedQuote).mentions := by
  refine ⟨by decide, by decide, by decide, by decide +kernel, ?_⟩
  rw [signals, Signals.mem_mentions_ofLists]
  decide +kernel

end CoverageEstimate.Dart

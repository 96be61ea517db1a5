/-
# Dart tests that grow

More text behind a Dart test takes no evidence away from it.  New text can complete a match that
starts in the old one, and that match could pass over others.  It does not: up to the place where a
call is completed there is no parenthesis, and up to the place where a title is completed there is
no quote if the old text ends in a line end, since no title goes on over one.  So from the start of
such a match on, the old text has no matches of its own.

The points for a mere occurrence are withdrawn when there is better evidence, which is worth more.
-/
import CoverageEstimate.Proofs.Dart.Substring

namespace CoverageEstimate

/-! ## Evidence and points -/

/-- There is all the evidence of `a` in `b`, for at least as many points. -/
structure Evidence.IsWithin (a b : Evidence) : Prop where
  isCalled : a.isCalled = true → b.isCalled = true
  isMentioned : a.isMentioned = true → b.isMentioned = true
  isTextMatch : a.isTextMatch = true → b.isTextMatch = true
  score_le : a.score ≤ b.score

/-- More evidence is worth at least as much. -/
lemma Evidence.points_mono : ∀ {a b c a' b' c' : Bool}, (a = true → a' = true) →
    (b = true → b' = true) → (c = true → c' = true) → points a b c ≤ points a' b' c' := by
  decide

/-- More signals in a longer text are no weaker evidence. -/
lemma isWithin_scoreFunction {s s' : Signals} {text text' : List Char}
    (hcalls : ∀ n ∈ s.calls, n ∈ s'.calls) (hmentions : ∀ n ∈ s.mentions, n ∈ s'.mentions)
    (htext : text <:+: text') (name : String) :
    (scoreFunction name s text).IsWithin (scoreFunction name s' text') := by
  have hcalled : (scoreFunction name s text).isCalled = true →
      (scoreFunction name s' text').isCalled = true := by
    intro h
    exact Signals.isCalled_iff.mpr (hcalls name (Signals.isCalled_iff.mp h))
  have hmentioned : (scoreFunction name s text).isMentioned = true →
      (scoreFunction name s' text').isMentioned = true := by
    intro h
    exact Signals.isMentioned_iff.mpr (hmentions name (Signals.isMentioned_iff.mp h))
  have hmatch : (scoreFunction name s text).isTextMatch = true →
      (scoreFunction name s' text').isTextMatch = true := by
    intro h
    obtain ⟨hne, hoccurs⟩ := Bool.and_eq_true_iff.mp h
    have hmore : occursIn name.toList text' = true :=
      occursIn_iff.mpr ((occursIn_iff.mp hoccurs).trans htext)
    exact Bool.and_eq_true_iff.mpr ⟨hne, hmore⟩
  exact ⟨hcalled, hmentioned, hmatch, Evidence.points_mono hcalled hmentioned hmatch⟩

namespace Dart

open Text

/-! ## Calls -/

lemma paren_mem_of_callPattern {before : Option Char} {cs name : List Char} {n : ℕ}
    (h : callPattern before cs = some (name, n)) : '(' ∈ cs := by
  obtain ⟨-, lead, rest, rfl, -⟩ := callPattern_eq_some_iff.mp h
  simp

/-- A call is completed by its parenthesis, so what it starts with has none. -/
lemma callPattern_isStable (text more : List Char) : callPattern.IsStable text more where
  kept := by
    rintro before cs ⟨name, n⟩ h
    obtain ⟨hname, lead, rest, rfl, rfl⟩ := callPattern_eq_some_iff.mp h
    exact callPattern_eq_some_iff.mpr ⟨hname, lead, rest ++ more, by simp, rfl⟩
  late := by
    intro before cs _ hnone hmore before' back hback
    have hparen : '(' ∉ cs := by
      intro hmem
      obtain ⟨⟨name, n⟩, hmatch⟩ := Option.ne_none_iff_exists'.mp hmore
      obtain ⟨hname, lead, rest, heq, rfl⟩ := callPattern_eq_some_iff.mp hmatch
      obtain ⟨front, behind, rfl, hfront⟩ := List.eq_append_cons_of_mem hmem
      have hlead : '(' ∉ name ++ lead.text :=
        List.not_mem_append hname.paren_not_mem lead.paren_not_mem_text
      have heq : front ++ '(' :: (behind ++ more) = [] ++ (name ++ lead.text ++ '(' :: rest) := by
        simpa using heq
      -- the first parenthesis of the text is that of the match
      obtain rfl := eq_append_of_paren hlead hfront heq (Nat.zero_le _)
      rw [callPattern_eq_some_iff.mpr ⟨hname, lead, behind, by simp, rfl⟩] at hnone
      exact absurd hnone (by simp)
    cases hmatch : callPattern before' back with
    | none => rfl
    | some m => exact absurd (hback.subset (paren_mem_of_callPattern hmatch)) hparen

/-! ## Titles -/

/-- The two quotes that a title may stand between. -/
def quotes : List Char := ['\'', '"']

lemma exists_quote_mem_of_titlePattern {before : Option Char} {cs title : List Char} {n : ℕ}
    (h : titlePattern before cs = some (title, n)) : ∃ c ∈ cs, c ∈ quotes := by
  obtain ⟨-, word, -, lead, rest, -, rfl, -⟩ := titlePattern_eq_some_iff.mp h
  exact ⟨lead.quote, by simp, lead.quote_mem⟩

/-- There is no quote in front of the one that opens a title. -/
lemma not_mem_quotes_of_mem_front {word : List Char} (hword : word ∈ declarationWords)
    (lead : TitleLead) : ∀ c ∈ word ++ (lead.gap ++ '(' :: lead.inner), c ∉ quotes := by
  have hneither : ∀ c ∈ quotes, isWord c = false ∧ isBlank c = false := by
    intro c hc
    rcases List.mem_pair.mp hc with rfl | rfl <;> exact ⟨by decide, by decide⟩
  intro c hc hquote
  rw [List.mem_append, List.mem_append, List.mem_cons] at hc
  rcases hc with hc | hc | rfl | hc
  · exact ne_of_isIn (isWord_of_mem_declarationWords hword c hc) (hneither c hquote).1 rfl
  · exact ne_of_isIn (lead.isBlank_gap c hc) (hneither c hquote).2 rfl
  · exact absurd hquote (by decide)
  · exact ne_of_isIn (lead.isBlank_inner c hc) (hneither c hquote).2 rfl

/-- A title is completed by its closing quote, on the line on which it starts; so if the text ends
in a line end, what the title starts with has no quote. -/
lemma titlePattern_isStable {text : List Char} (hend : ∀ c ∈ text.getLast?, c = '\n')
    (more : List Char) : titlePattern.IsStable text more where
  kept := by
    rintro before cs ⟨title, n⟩ h
    obtain ⟨hbefore, word, hword, lead, rest, htitle, rfl, rfl⟩ := titlePattern_eq_some_iff.mp h
    exact titlePattern_eq_some_iff.mpr
      ⟨hbefore, word, hword, lead, rest ++ more, htitle, by simp, rfl⟩
  late := by
    intro before cs hcs hnone hmore before' back hback
    have hquotes : ∀ c ∈ cs, c ∉ quotes := by
      obtain ⟨⟨title, n⟩, hmatch⟩ := Option.ne_none_iff_exists'.mp hmore
      obtain ⟨hbefore, word, hword, lead, rest, htitle, heq, rfl⟩ :=
        titlePattern_eq_some_iff.mp hmatch
      have hfront := not_mem_quotes_of_mem_front hword lead
      have heq : cs ++ more = (word ++ (lead.gap ++ '(' :: lead.inner)) ++
          (lead.quote :: (title ++ [lead.quote]) ++ rest) := by
        simpa [TitleLead.text] using heq
      rcases List.prefix_or_prefix_of_prefix ⟨_, heq⟩ ⟨_, rfl⟩ with hle | ⟨y, rfl⟩
      · exact fun c hc => hfront c (hle.subset hc)
      rcases List.eq_nil_or_concat' y with rfl | ⟨y, c, rfl⟩
      · rwa [List.append_nil]
      -- the text reaches into the title, and there is a line end behind that
      obtain rfl : c = '\n' := by
        obtain ⟨outside, rfl⟩ := hcs
        refine hend c ?_
        rw [← List.append_assoc, ← List.append_assoc, List.getLast?_concat]
        rfl
      rw [List.append_assoc] at heq
      have htail := List.append_cancel_left heq
      have hline : '\n' ∉ lead.quote :: (title ++ [lead.quote]) := by
        have hquote : '\n' ≠ lead.quote := (ne_of_mem_of_not_mem lead.quote_mem (by decide)).symm
        have htitle : '\n' ∉ title := fun hmem => (htitle _ hmem).2 rfl
        simp [hquote, htitle]
      obtain ⟨z, rfl⟩ := prefix_of_not_mem ⟨rest, htail.symm⟩ ⟨more, rfl⟩ hline
      rw [titlePattern_eq_some_iff.mpr ⟨hbefore, word, hword, lead, z ++ ['\n'], htitle,
        by simp [TitleLead.text], rfl⟩] at hnone
      exact absurd hnone (by simp)
    cases hmatch : titlePattern before' back with
    | none => rfl
    | some m =>
      obtain ⟨c, hc, hquote⟩ := exists_quote_mem_of_titlePattern hmatch
      exact absurd hquote (hquotes c (hback.subset hc))

/-! ## Signals and scores -/

/-- The calls of a test are calls of one that goes on behind it. -/
lemma mem_calls_append {text : List Char} {name : String} (h : name ∈ (signals text).calls)
    (more : List Char) : name ∈ (signals (text ++ more)).calls := by
  obtain ⟨cs, rfl⟩ : ∃ cs, name = String.ofList cs := ⟨name.toList, by simp⟩
  obtain ⟨hfound, hkeyword⟩ := mem_calls_signals_iff.mp h
  have hmore := (callPattern_isStable text more).prefix_occurrences.subset hfound
  exact mem_calls_signals_iff.mpr ⟨hmore, hkeyword⟩

/-- The mentions of a test that ends in a line end are mentions of one that goes on behind it. -/
lemma mem_mentions_append {text : List Char} (hend : ∀ c ∈ text.getLast?, c = '\n')
    {name : String} (h : name ∈ (signals text).mentions) (more : List Char) :
    name ∈ (signals (text ++ more)).mentions := by
  obtain ⟨title, htitle, hname⟩ := Signals.mem_mentions_ofLists.mp h
  have hmore : title ∈ titles (text ++ more) :=
    ((titlePattern_isStable hend more).prefix_occurrences.map String.ofList).subset htitle
  exact Signals.mem_mentions_ofLists.mpr ⟨title, hmore, hname⟩

/-- **A Dart test that grows** keeps its evidence.  If the test is empty or ends in a line end, then
whatever follows it, its calls and mentions stay, every name has at least the evidence that it had,
and its score is no less. -/
theorem signals_append {text : List Char} (hend : ∀ c ∈ text.getLast?, c = '\n')
    (more : List Char) (name : String) :
    (∀ n ∈ (signals text).calls, n ∈ (signals (text ++ more)).calls) ∧
      (∀ n ∈ (signals text).mentions, n ∈ (signals (text ++ more)).mentions) ∧
      (scoreFunction name (signals text) text).IsWithin
        (scoreFunction name (signals (text ++ more)) (text ++ more)) := by
  have hcalls : ∀ n ∈ (signals text).calls, n ∈ (signals (text ++ more)).calls :=
    fun n hn => mem_calls_append hn more
  have hmentions : ∀ n ∈ (signals text).mentions, n ∈ (signals (text ++ more)).mentions :=
    fun n hn => mem_mentions_append hend hn more
  have htext : text <:+: text ++ more := (List.prefix_append text more).isInfix
  exact ⟨hcalls, hmentions, isWithin_scoreFunction hcalls hmentions htext name⟩

/-- The first lines of a test: a comment, and the start of a declaration and of a comparison. -/
def startedTest : List Char := "// count\ntest(\n".toList

/-- What follows them completes the declaration. -/
def testRest : List Char := "'count', () => count<int>(1));\n".toList

/-- The name in the comment is worth less than the call and the title that follow. -/
theorem signals_startedTest :
    (∀ c ∈ startedTest.getLast?, c = '\n') ∧
      (scoreFunction "count" (signals startedTest) startedTest).IsWithin
        (scoreFunction "count" (signals (startedTest ++ testRest)) (startedTest ++ testRest)) ∧
      (scoreFunction "count" (signals startedTest) startedTest).score = 10 ∧
      (scoreFunction "count" (signals (startedTest ++ testRest))
        (startedTest ++ testRest)).score = 80 := by
  have hend : ∀ c ∈ startedTest.getLast?, c = '\n' := by
    have hlast : startedTest.getLast? = some '\n' := by decide
    simp [hlast]
  have hwithin := (signals_append hend testRest "count").2.2
  exact ⟨hend, hwithin, by decide +kernel, by decide +kernel⟩

/-- On a line that goes on, a title can be taken away. -/
example : "b" ∈ (signals "test('a group(\"b\")".toList).mentions ∧
    "b" ∉ (signals ("test('a group(\"b\")".toList ++ "', run);".toList)).mentions := by
  decide +kernel

end Dart

end CoverageEstimate

/-
# Where a pattern matches

The search for a pattern goes through a text from left to right and goes on behind each match.  Two
facts say what it finds, without the count of the characters that are still passed over.

* Whatever is found stands at some place of the text (`Pattern.exists_of_mem_occurrences`).
* Where the pattern matches, the match is found or the search passes over the place.  In the second
  case a match was found that starts before the place and reaches over it
  (`Pattern.mem_occurrences_or_reached`).

So a match can be lost to an earlier one only, and what is left to show of a pattern is how far its
matches reach.  A match is a row of pieces; the two lemmas on prefixes at the end say when a piece
at the start of a text ends before a place of the text.

A third fact is about texts that go on (`Pattern.IsStable.prefix_occurrences`).  What follows a text
can take a match away from it only by completing one that starts earlier; if there is no such match,
the search over the longer text finds what it found before, and then what is new.
-/
import CoverageEstimate.Text.Occurrence
import Mathlib.Data.List.Basic

namespace CoverageEstimate.Text

/-! ## What is found -/

section Matches

variable {α : Type} {p : Pattern α} {a : α}

lemma Pattern.exists_of_mem_occurrencesFrom {skip : ℕ} {before : Option Char} {text : List Char}
    (h : a ∈ p.occurrencesFrom skip before text) :
    ∃ front back n, text = front ++ back ∧ p (front.getLast?.or before) back = some (a, n) := by
  induction text generalizing skip before with
  | nil => simp [Pattern.occurrencesFrom] at h
  | cons c cs ih =>
    -- behind the first character, it is the one that the pattern sees before a place
    have later : ∀ {skip}, a ∈ p.occurrencesFrom skip (some c) cs →
        ∃ front back n, c :: cs = front ++ back ∧
          p (front.getLast?.or before) back = some (a, n) := by
      intro skip h
      obtain ⟨front, back, n, rfl, hmatch⟩ := ih h
      refine ⟨c :: front, back, n, rfl, ?_⟩
      rw [List.getLast?_cons, Option.some_or, ← Option.or_some]
      exact hmatch
    cases skip with
    | succ skip =>
      rw [Pattern.occurrencesFrom] at h
      exact later h
    | zero =>
      rw [Pattern.occurrencesFrom] at h
      split at h
      · rename_i found len hfound
        rcases List.mem_cons.mp h with rfl | h
        · exact ⟨[], c :: cs, len, rfl, hfound⟩
        · exact later h
      · exact later h

/-- What the search finds is matched at some place of the text. -/
lemma Pattern.exists_of_mem_occurrences {text : List Char} (h : a ∈ p.occurrences text) :
    ∃ front back n, text = front ++ back ∧ p front.getLast? back = some (a, n) := by
  obtain ⟨front, back, n, htext, hmatch⟩ := Pattern.exists_of_mem_occurrencesFrom h
  rw [Option.or_none] at hmatch
  exact ⟨front, back, n, htext, hmatch⟩

/-- A match is lost at the place between `front` and `back`: one that is found starts in front of
the place and reaches over it. -/
def Pattern.IsReached (p : Pattern α) (before : Option Char) (front back : List Char)
    (found : List α) : Prop :=
  ∃ outside inside a n, front = outside ++ inside ∧ inside ≠ [] ∧
    p (outside.getLast?.or before) (inside ++ back) = some (a, n) ∧ inside.length < n ∧ a ∈ found

/-- A longer text in front makes no difference, and neither do more matches. -/
lemma Pattern.IsReached.cons {before : Option Char} {c : Char} {front back : List Char}
    {found more : List α} (h : p.IsReached (some c) front back found)
    (hmore : ∀ a ∈ found, a ∈ more) : p.IsReached before (c :: front) back more := by
  obtain ⟨outside, inside, a, n, rfl, hne, hmatch, hn, ha⟩ := h
  refine ⟨c :: outside, inside, a, n, rfl, hne, ?_, hn, hmore a ha⟩
  rw [List.getLast?_cons, Option.some_or, ← Option.or_some]
  exact hmatch

lemma Pattern.mem_occurrencesFrom_or_reached {skip : ℕ} {before : Option Char}
    {front back : List Char} {n : ℕ} (hback : back ≠ []) (hskip : skip ≤ front.length)
    (h : p (front.getLast?.or before) back = some (a, n)) :
    a ∈ p.occurrencesFrom skip before (front ++ back) ∨
      p.IsReached before front back (p.occurrencesFrom skip before (front ++ back)) := by
  induction front generalizing skip before with
  | nil =>
    obtain rfl : skip = 0 := Nat.le_zero.mp hskip
    obtain ⟨c, cs, rfl⟩ := List.exists_cons_of_ne_nil hback
    have h : p before (c :: cs) = some (a, n) := h
    left
    rw [List.nil_append, Pattern.occurrencesFrom, h]
    exact List.mem_cons_self
  | cons c rest ih =>
    rw [List.getLast?_cons, Option.some_or, ← Option.or_some] at h
    rw [List.cons_append]
    cases skip with
    | succ skip =>
      rw [Pattern.occurrencesFrom]
      exact (ih (Nat.le_of_succ_le_succ hskip) h).imp_right fun hr => hr.cons fun _ hb => hb
    | zero =>
      rw [Pattern.occurrencesFrom]
      cases hfirst : p before (c :: (rest ++ back)) with
      | none => exact (ih (Nat.zero_le _) h).imp_right fun hr => hr.cons fun _ hb => hb
      | some m =>
        obtain ⟨b, len⟩ := m
        dsimp only
        by_cases hlen : len - 1 ≤ rest.length
        · exact (ih hlen h).imp (List.mem_cons_of_mem b) fun hr =>
            hr.cons fun _ => List.mem_cons_of_mem b
        · -- the match at the first character is the one that reaches over the place
          refine Or.inr ⟨[], c :: rest, b, len, rfl, List.cons_ne_nil c rest, hfirst, ?_,
            List.mem_cons_self⟩
          rw [List.length_cons]
          omega

/-- **Where a pattern matches**, the match is found, unless one that is found starts earlier and
reaches over the place. -/
lemma Pattern.mem_occurrences_or_reached {front back : List Char} {n : ℕ} (hback : back ≠ [])
    (h : p front.getLast? back = some (a, n)) :
    a ∈ p.occurrences (front ++ back) ∨
      ∃ outside inside b m, front = outside ++ inside ∧ inside ≠ [] ∧
        p outside.getLast? (inside ++ back) = some (b, m) ∧ inside.length < m ∧
        b ∈ p.occurrences (front ++ back) := by
  rw [← Option.or_none (o := front.getLast?)] at h
  refine (Pattern.mem_occurrencesFrom_or_reached hback (Nat.zero_le _) h).imp_right ?_
  rintro ⟨outside, inside, b, m, hfront, hne, hmatch, hm, hb⟩
  rw [Option.or_none] at hmatch
  exact ⟨outside, inside, b, m, hfront, hne, hmatch, hm, hb⟩

/-- Where the pattern matches nowhere, nothing is found. -/
lemma Pattern.occurrencesFrom_eq_nil {skip : ℕ} {before : Option Char} {text : List Char}
    (h : ∀ before back, back <:+ text → p before back = none) :
    p.occurrencesFrom skip before text = [] := by
  induction text generalizing skip before with
  | nil => cases skip <;> rfl
  | cons c cs ih =>
    have hcs : ∀ before back, back <:+ cs → p before back = none :=
      fun before back hback => h before back (hback.trans (List.suffix_cons c cs))
    cases skip with
    | succ skip =>
      rw [Pattern.occurrencesFrom]
      exact ih hcs
    | zero =>
      rw [Pattern.occurrencesFrom, h before (c :: cs) List.suffix_rfl]
      exact ih hcs

/-- The matches of a text stay what they are when more follows. -/
structure Pattern.IsStable (p : Pattern α) (text more : List Char) : Prop where
  kept : ∀ before cs m, p before cs = some m → p before (cs ++ more) = some m
  /-- Where a match needs what follows, the text has no matches of its own from there on. -/
  late : ∀ before cs, cs <:+ text → p before cs = none → p before (cs ++ more) ≠ none →
    ∀ before back, back <:+ cs → p before back = none

lemma Pattern.IsStable.tail {c : Char} {cs more : List Char} (h : p.IsStable (c :: cs) more) :
    p.IsStable cs more where
  kept := h.kept
  late before back hback := h.late before back (hback.trans (List.suffix_cons c cs))

lemma Pattern.IsStable.prefix_occurrencesFrom {skip : ℕ} {before : Option Char}
    {text more : List Char} (h : p.IsStable text more) :
    p.occurrencesFrom skip before text <+: p.occurrencesFrom skip before (text ++ more) := by
  induction text generalizing skip before with
  | nil => cases skip <;> exact List.nil_prefix
  | cons c cs ih =>
    have ih : ∀ skip, p.occurrencesFrom skip (some c) cs <+:
        p.occurrencesFrom skip (some c) (cs ++ more) := fun _ => ih h.tail
    rw [List.cons_append]
    cases skip with
    | succ skip =>
      rw [Pattern.occurrencesFrom, Pattern.occurrencesFrom]
      exact ih skip
    | zero =>
      cases hfirst : p before (c :: cs) with
      | some m =>
        have hmore := h.kept before (c :: cs) m hfirst
        rw [List.cons_append] at hmore
        rw [Pattern.occurrencesFrom, hfirst, Pattern.occurrencesFrom, hmore]
        exact List.cons_prefix_cons.mpr ⟨rfl, ih _⟩
      | none =>
        by_cases hmore : p before (c :: (cs ++ more)) = none
        · rw [Pattern.occurrencesFrom, hfirst, Pattern.occurrencesFrom, hmore]
          exact ih 0
        · -- from here on, the text has no match that the new one could take away
          have hnone := h.late before (c :: cs) List.suffix_rfl hfirst hmore
          rw [Pattern.occurrencesFrom_eq_nil hnone]
          exact List.nil_prefix

/-- **Texts that go on.**  The matches of a text come first among those of a longer one. -/
lemma Pattern.IsStable.prefix_occurrences {text more : List Char} (h : p.IsStable text more) :
    p.occurrences text <+: p.occurrences (text ++ more) := h.prefix_occurrencesFrom

end Matches

/-! ## Pieces before a place -/

variable {text piece inside : List Char}

/-- A piece without a character ends before the place of that character. -/
lemma prefix_of_not_mem {c : Char} (hpiece : piece <+: text) (hplace : inside ++ [c] <+: text)
    (hc : c ∉ piece) : piece <+: inside := by
  rcases List.prefix_or_prefix_of_prefix hpiece hplace with h | h
  · rcases List.prefix_concat_iff.mp h with rfl | h
    · exact absurd (by simp) hc
    · exact h
  · exact absurd (h.subset (by simp)) hc

/-- A run of a class of characters ends before a place where the character in front is not of the
class. -/
lemma prefix_of_run {q : Char → Bool} (hpiece : piece <+: text) (hplace : inside <+: text)
    (hrun : ∀ c ∈ piece, q c = true) (hne : inside ≠ [])
    (hlast : ∀ c ∈ inside.getLast?, q c = false) : piece <+: inside := by
  rcases List.prefix_or_prefix_of_prefix hpiece hplace with h | h
  · exact h
  · have hlast := hlast _ (List.getLast?_eq_some_getLast hne)
    rw [hrun _ (h.subset (List.getLast_mem hne))] at hlast
    exact Bool.noConfusion hlast

end CoverageEstimate.Text

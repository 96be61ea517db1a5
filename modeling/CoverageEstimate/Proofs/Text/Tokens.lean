/-
# The tokens of a text

A text is cut into its runs of characters that are not blank.  They are the pieces of it without a
blank that blanks or the ends of the text enclose, and no other ones (`mem_tokens_iff`).  A text may
be cut at any place behind a blank without a token being cut.

A run of any class of characters is what the first characters of a text are, up to one that is not
of the class.
-/
import CoverageEstimate.Text.Blank
import Mathlib.Data.List.Basic
import Mathlib.Data.List.TakeWhile

namespace CoverageEstimate.Text

/-! ## Runs -/

section Runs

variable {q : Char → Bool} {run rest : List Char}

lemma takeWhile_run (hrun : ∀ c ∈ run, q c = true) (hstop : ∀ c ∈ rest.head?, q c = false) :
    (run ++ rest).takeWhile q = run := by
  rw [List.takeWhile_append_of_pos hrun]
  cases rest with
  | nil => rw [List.takeWhile_nil, List.append_nil]
  | cons c cs =>
    have hc : q c = false := hstop c rfl
    rw [List.takeWhile_cons_of_neg (by simp [hc]), List.append_nil]

lemma dropWhile_run (hrun : ∀ c ∈ run, q c = true) (hstop : ∀ c ∈ rest.head?, q c = false) :
    (run ++ rest).dropWhile q = rest := by
  have happend := List.takeWhile_append_dropWhile (p := q) (l := run ++ rest)
  rw [takeWhile_run hrun hstop] at happend
  exact List.append_cancel_left happend

/-- The first `c` of a text ends what stands before it. -/
lemma takeWhile_ne {c : Char} (h : c ∉ run) (rest : List Char) :
    (run ++ c :: rest).takeWhile (· != c) = run :=
  takeWhile_run (fun d hd => bne_iff_ne.mpr (ne_of_mem_of_not_mem hd h)) (by simp)

lemma dropWhile_ne {c : Char} (h : c ∉ run) (rest : List Char) :
    (run ++ c :: rest).dropWhile (· != c) = c :: rest :=
  dropWhile_run (fun d hd => bne_iff_ne.mpr (ne_of_mem_of_not_mem hd h)) (by simp)

/-- The last character of a text before the blanks at its end. -/
lemma getLast?_trimEnd_eq_some_iff {cs : List Char} {c : Char} :
    (trimEnd cs).getLast? = some c ↔
      ∃ front gap, cs = front ++ c :: gap ∧ isBlank c = false ∧ ∀ d ∈ gap, isBlank d = true := by
  have hcut : cs.reverse.takeWhile isBlank ++ cs.reverse.dropWhile isBlank = cs.reverse :=
    List.takeWhile_append_dropWhile
  rw [trimEnd, List.getLast?_reverse]
  constructor
  · intro h
    obtain ⟨ds, hds⟩ := List.head?_eq_some_iff.mp h
    rw [hds] at hcut
    refine ⟨ds.reverse, (cs.reverse.takeWhile isBlank).reverse, ?_, ?_, fun d hd => ?_⟩
    · calc
        cs = cs.reverse.reverse := (List.reverse_reverse cs).symm
        _ = (cs.reverse.takeWhile isBlank ++ c :: ds).reverse := by rw [hcut]
        _ = ds.reverse ++ c :: (cs.reverse.takeWhile isBlank).reverse := by simp
    · have hhead := List.head?_dropWhile_not isBlank cs.reverse
      rw [h] at hhead
      simpa using hhead
    · exact List.mem_takeWhile_imp (List.mem_reverse.mp hd)
  · rintro ⟨front, gap, rfl, hc, hgap⟩
    have hreverse : (front ++ c :: gap).reverse = gap.reverse ++ c :: front.reverse := by simp
    rw [hreverse, dropWhile_run (fun d hd => hgap d (List.mem_reverse.mp hd)) (by simpa using hc)]
    rfl

end Runs

/-! ## Tokens -/

lemma tokens_cons_of_isBlank {c : Char} (h : isBlank c = true) (cs : List Char) :
    tokens (c :: cs) = tokens cs := by
  rw [tokens.eq_def]
  simp only [h, if_true]

/-- There is nothing in blanks alone. -/
lemma tokens_eq_nil_of_blank {gap : List Char} (h : ∀ c ∈ gap, isBlank c = true) :
    tokens gap = [] := by
  induction gap with
  | nil => rfl
  | cons c cs ih =>
    rw [tokens_cons_of_isBlank (h c List.mem_cons_self)]
    exact ih fun d hd => h d (List.mem_cons_of_mem c hd)

lemma tokens_singleton {c : Char} (hc : isBlank c = false) : tokens [c] = [[c]] := by
  rw [tokens.eq_def]
  simp only [hc, Bool.false_eq_true, if_false]

/-- A blank ends the token before it. -/
lemma tokens_cons_cons_of_isBlank {c d : Char} (hc : isBlank c = false) (hd : isBlank d = true)
    (cs : List Char) : tokens (c :: d :: cs) = [c] :: tokens (d :: cs) := by
  rw [tokens.eq_def]
  simp only [hc, hd, Bool.false_eq_true, if_false, if_true]

/-- A character before a token makes it longer. -/
lemma tokens_cons_of_tokens_eq {c d : Char} (hc : isBlank c = false) (hd : isBlank d = false)
    {cs t : List Char} {ts : List (List Char)} (h : tokens (d :: cs) = t :: ts) :
    tokens (c :: d :: cs) = (c :: t) :: ts := by
  rw [tokens.eq_def]
  simp only [hc, hd, h, Bool.false_eq_true, if_false]

/-- A character that is not blank starts the first token. -/
lemma exists_tokens_cons {c : Char} (hc : isBlank c = false) (cs : List Char) :
    ∃ t ts, tokens (c :: cs) = (c :: t) :: ts := by
  induction cs generalizing c with
  | nil => exact ⟨[], [], tokens_singleton hc⟩
  | cons d rest ih =>
    by_cases hd : isBlank d = true
    · exact ⟨[], tokens (d :: rest), tokens_cons_cons_of_isBlank hc hd rest⟩
    · have hd : isBlank d = false := by simpa using hd
      obtain ⟨t, ts, heq⟩ := ih hd
      exact ⟨d :: t, ts, tokens_cons_of_tokens_eq hc hd heq⟩

/-- Behind a text that ends in a blank, a new token starts. -/
lemma tokens_append {front : List Char} (h : ∀ c, front.getLast? = some c → isBlank c = true)
    (back : List Char) : tokens (front ++ back) = tokens front ++ tokens back := by
  induction front with
  | nil => rfl
  | cons c cs ih =>
    by_cases hc : isBlank c = true
    · rw [List.cons_append, tokens_cons_of_isBlank hc, tokens_cons_of_isBlank hc]
      cases cs with
      | nil => rfl
      | cons d ds => exact ih fun x hx => h x (by rwa [List.getLast?_cons_cons])
    · have hc : isBlank c = false := by simpa using hc
      cases cs with
      | nil =>
        have hlast := h c rfl
        rw [hc] at hlast
        exact Bool.noConfusion hlast
      | cons d ds =>
        have ih := ih fun x hx => h x (by rwa [List.getLast?_cons_cons])
        by_cases hd : isBlank d = true
        · calc
            tokens (c :: d :: ds ++ back) = [c] :: tokens (d :: ds ++ back) :=
              tokens_cons_cons_of_isBlank hc hd _
            _ = [c] :: (tokens (d :: ds) ++ tokens back) := by rw [ih]
            _ = tokens (c :: d :: ds) ++ tokens back := by
              rw [tokens_cons_cons_of_isBlank hc hd, List.cons_append]
        · have hd : isBlank d = false := by simpa using hd
          obtain ⟨t, ts, heq⟩ := exists_tokens_cons hd ds
          rw [tokens_cons_of_tokens_eq hc hd heq]
          rw [heq, List.cons_append, List.cons_append] at ih
          exact tokens_cons_of_tokens_eq hc hd ih

/-- A word is a token, and the others stand behind it. -/
lemma tokens_word_append {word back : List Char} (hne : word ≠ [])
    (hword : ∀ c ∈ word, isBlank c = false) (hback : ∀ c ∈ back.head?, isBlank c = true) :
    tokens (word ++ back) = word :: tokens back := by
  induction word with
  | nil => exact absurd rfl hne
  | cons c cs ih =>
    have hc := hword c List.mem_cons_self
    cases cs with
    | nil =>
      cases back with
      | nil => exact tokens_singleton hc
      | cons b bs => exact tokens_cons_cons_of_isBlank hc (hback b rfl) bs
    | cons d ds =>
      have hd := hword d (by simp)
      have ih := ih (by simp) fun x hx => hword x (List.mem_cons_of_mem c hx)
      exact tokens_cons_of_tokens_eq hc hd ih

/-- A word with blanks behind it is one token. -/
lemma tokens_word {word gap : List Char} (hne : word ≠ []) (hword : ∀ c ∈ word, isBlank c = false)
    (hgap : ∀ c ∈ gap, isBlank c = true) : tokens (word ++ gap) = [word] := by
  have hback : ∀ c ∈ gap.head?, isBlank c = true := fun c hc => hgap c (List.mem_of_head? hc)
  rw [tokens_word_append hne hword hback, tokens_eq_nil_of_blank hgap]

/-! ## Which pieces are tokens -/

/-- A token of a text: a piece of it that is not empty and has no blank in it, with a blank or an
end of the text on each of its sides. -/
structure IsTokenOf (token text : List Char) : Prop where
  ne_nil : token ≠ []
  not_isBlank : ∀ c ∈ token, isBlank c = false
  exists_sides : ∃ front back, text = front ++ (token ++ back) ∧
    (∀ c ∈ front.getLast?, isBlank c = true) ∧ ∀ c ∈ back.head?, isBlank c = true

/-- The first token stands behind blanks, and the others are the tokens of what follows it. -/
lemma exists_of_tokens_eq_cons {cs t : List Char} {ts : List (List Char)}
    (h : tokens cs = t :: ts) :
    ∃ gap back, cs = gap ++ (t ++ back) ∧ (∀ c ∈ gap, isBlank c = true) ∧
      (∀ c ∈ back.head?, isBlank c = true) ∧ tokens back = ts := by
  induction cs generalizing t with
  | nil => exact absurd h (List.cons_ne_nil t ts).symm
  | cons c cs ih =>
    by_cases hc : isBlank c = true
    · rw [tokens_cons_of_isBlank hc] at h
      obtain ⟨gap, back, rfl, hgap, hback, hts⟩ := ih h
      refine ⟨c :: gap, back, rfl, ?_, hback, hts⟩
      simpa using ⟨hc, hgap⟩
    · have hc : isBlank c = false := by simpa using hc
      cases cs with
      | nil =>
        rw [tokens_singleton hc, List.cons.injEq] at h
        obtain ⟨rfl, rfl⟩ := h
        exact ⟨[], [], rfl, by simp, by simp, rfl⟩
      | cons d ds =>
        by_cases hd : isBlank d = true
        · rw [tokens_cons_cons_of_isBlank hc hd, List.cons.injEq] at h
          obtain ⟨rfl, rfl⟩ := h
          exact ⟨[], d :: ds, rfl, by simp, by simpa using hd, rfl⟩
        · -- the first token of `d :: ds` starts with `d`, and so nothing stands before it
          have hd : isBlank d = false := by simpa using hd
          obtain ⟨u, us, hu⟩ := exists_tokens_cons hd ds
          rw [tokens_cons_of_tokens_eq hc hd hu, List.cons.injEq] at h
          obtain ⟨rfl, rfl⟩ := h
          obtain ⟨gap, back, hcut, hgap, hback, hts⟩ := ih hu
          cases gap with
          | nil => exact ⟨[], back, by simp [hcut], by simp, hback, hts⟩
          | cons b bs =>
            obtain rfl : d = b := (List.cons.inj hcut).1
            rw [hgap d List.mem_cons_self] at hd
            exact Bool.noConfusion hd

lemma isTokenOf_of_mem_tokens {cs t : List Char} (ht : t ∈ tokens cs) : IsTokenOf t cs := by
  refine ⟨ne_nil_of_mem_tokens ht, not_isBlank_of_mem_tokens ht, ?_⟩
  generalize hts : tokens cs = ts at ht
  induction ts generalizing cs with
  | nil => exact absurd ht List.not_mem_nil
  | cons u us ih =>
    obtain ⟨gap, back, rfl, hgap, hback, hus⟩ := exists_of_tokens_eq_cons hts
    rcases List.mem_cons.mp ht with rfl | ht
    · exact ⟨gap, back, rfl, fun c hc => hgap c (List.mem_of_getLast? hc), hback⟩
    · obtain ⟨front, rest, rfl, hfront, hrest⟩ := ih hus ht
      have ht : t ∈ tokens (front ++ (t ++ rest)) := hus ▸ ht
      -- what follows the first token starts with a blank, and so `t` does not start there
      have hne : front ≠ [] := by
        rintro rfl
        obtain ⟨c, cs, rfl⟩ := List.exists_cons_of_ne_nil (ne_nil_of_mem_tokens ht)
        have hblank : isBlank c = true := hback c rfl
        rw [not_isBlank_of_mem_tokens ht c List.mem_cons_self] at hblank
        exact Bool.noConfusion hblank
      refine ⟨gap ++ (u ++ front), rest, by simp, ?_, hrest⟩
      rw [← List.append_assoc, List.getLast?_append_of_ne_nil _ hne]
      exact hfront

/-- **The tokens of a text** are the pieces without a blank that blanks or its ends enclose. -/
lemma mem_tokens_iff {cs t : List Char} : t ∈ tokens cs ↔ IsTokenOf t cs := by
  constructor
  · exact isTokenOf_of_mem_tokens
  · rintro ⟨hne, hword, front, back, rfl, hfront, hback⟩
    rw [tokens_append hfront, tokens_word_append hne hword hback]
    exact List.mem_append_right _ List.mem_cons_self

/-- A token is a piece of the text that it is cut from. -/
lemma infix_of_mem_tokens {cs t : List Char} (ht : t ∈ tokens cs) : t <:+: cs := by
  obtain ⟨front, back, rfl, -, -⟩ := (mem_tokens_iff.mp ht).exists_sides
  exact List.infix_append' front t back

/-- A token is the only token of itself. -/
lemma tokens_of_mem_tokens {cs t : List Char} (ht : t ∈ tokens cs) : tokens t = [t] := by
  have hword : tokens (t ++ []) = [t] :=
    tokens_word (ne_nil_of_mem_tokens ht) (not_isBlank_of_mem_tokens ht) (by simp)
  rwa [List.append_nil] at hword

end CoverageEstimate.Text

/-
# The grammar of function headers in Dart

The name of a header is found by reading backwards from the first opening parenthesis of the line.
Here a header is said by its parts from left to right instead: blanks, type words with blanks behind
them, the name, an optional list of type parameters, the arguments between parentheses, an optional
marker of asynchrony, and the start of a body, with anything behind it.  A line is a header just when
it can be written in this way (`shapedName?_eq_some_iff`).

A line can be written so in many ways, since the arguments may end at any of several parentheses and
the type words may be cut differently.  All of them agree on what stands before the first opening
parenthesis, and that determines the name.
-/
import CoverageEstimate.Dart.Header
import CoverageEstimate.Proofs.Text.Tokens
import Mathlib.Data.List.TakeWhile

namespace CoverageEstimate.Dart

open Text

/-! ## The parts of a header -/

/-- A type word with the blanks behind it. -/
structure TypeWord where
  word : List Char
  gap : List Char
  word_ne_nil : word ≠ []
  isTypeChar_word : ∀ c ∈ word, isTypeChar c = true
  gap_ne_nil : gap ≠ []
  isBlank_gap : ∀ c ∈ gap, isBlank c = true

/-- A list of type parameters, by what stands between its angle brackets. -/
structure TypeParameters where
  inside : List Char
  isPlain : ∀ c ∈ inside, c ≠ '(' ∧ c ≠ ')' ∧ c ≠ '<' ∧ c ≠ '>'

/-- A marker of asynchrony with the blanks behind it. -/
structure Marker where
  word : List Char
  star : List Char
  gap : List Char
  word_mem : word ∈ ["async".toList, "sync".toList]
  star_mem : star ∈ [[], ['*']]
  isBlank_gap : ∀ c ∈ gap, isBlank c = true

def TypeWord.text (w : TypeWord) : List Char := w.word ++ w.gap

def TypeParameters.text (t : TypeParameters) : List Char := '<' :: (t.inside ++ ['>'])

def Marker.text (m : Marker) : List Char := m.word ++ m.star ++ m.gap

/-- What a body starts with: an arrow or an opening brace. -/
def openings : List (List Char) := [['=', '>'], ['\x7b']]

/-- A way to write a header line. -/
structure HeaderParts where
  indent : List Char
  words : List TypeWord
  name : List Char
  /-- The blanks behind the name. -/
  nameGap : List Char
  parameters : Option TypeParameters
  /-- The blanks before the opening parenthesis. -/
  openGap : List Char
  arguments : List Char
  /-- The blanks behind the closing parenthesis. -/
  closeGap : List Char
  marker : Option Marker
  opening : List Char
  rest : List Char
  isBlank_indent : ∀ c ∈ indent, isBlank c = true
  name_ne_nil : name ≠ []
  isWord_name : ∀ c ∈ name, isWord c = true
  isBlank_nameGap : ∀ c ∈ nameGap, isBlank c = true
  isBlank_openGap : ∀ c ∈ openGap, isBlank c = true
  isBlank_closeGap : ∀ c ∈ closeGap, isBlank c = true
  opening_mem : opening ∈ openings

namespace HeaderParts

/-- What stands before the name. -/
def lead (p : HeaderParts) : List Char := p.indent ++ p.words.flatMap TypeWord.text

/-- The line up to the list of type parameters, or up to the opening parenthesis if there is none. -/
def declaration (p : HeaderParts) : List Char := p.lead ++ p.name ++ p.nameGap

/-- The line up to the opening parenthesis. -/
def front (p : HeaderParts) : List Char :=
  p.declaration ++ p.parameters.elim [] TypeParameters.text ++ p.openGap

/-- The line behind the opening parenthesis. -/
def back (p : HeaderParts) : List Char :=
  p.arguments ++ ')' ::
    (p.closeGap ++ (p.marker.elim [] Marker.text ++ (p.opening ++ p.rest)))

/-- The line that is written. -/
def text (p : HeaderParts) : List Char := p.front ++ '(' :: p.back

end HeaderParts

/-! ## Characters -/

/-- No blank stands inside a word. -/
lemma isWord_eq_false_of_isBlank {c : Char} (h : isBlank c = true) : isWord c = false := by
  have hcode : c.toNat ∈ List.range' 9 5 ++ List.range' 0x2000 11 ++
      [0x20, 0x85, 0xA0, 0x1680, 0x2028, 0x2029, 0x202F, 0x205F, 0x3000] := by
    simp only [isBlank, Bool.or_eq_true, Bool.and_eq_true, decide_eq_true_eq, beq_iff_eq] at h
    simp only [List.mem_append, List.mem_range'_1, List.mem_cons, List.not_mem_nil]
    omega
  have hall : ∀ n ∈ List.range' 9 5 ++ List.range' 0x2000 11 ++
      [0x20, 0x85, 0xA0, 0x1680, 0x2028, 0x2029, 0x202F, 0x205F, 0x3000],
      isWord (Char.ofNat n) = false := by decide +kernel
  have hword := hall c.toNat hcode
  rwa [Char.ofNat_toNat] at hword

lemma isBlank_eq_false_of_isWord {c : Char} (h : isWord c = true) : isBlank c = false := by
  cases hb : isBlank c with
  | false => rfl
  | true => simp [isWord_eq_false_of_isBlank hb] at h

/-- A character of a class is none that is not in it. -/
lemma ne_of_isIn {isIn : Char → Bool} {c d : Char} (h : isIn c = true) (hd : isIn d = false) :
    c ≠ d := by
  rintro rfl
  rw [hd] at h
  exact Bool.noConfusion h

lemma trimStart_append {front : List Char} (h : ∀ c ∈ front, isBlank c = true) (back : List Char) :
    trimStart (front ++ back) = trimStart back :=
  List.dropWhile_append_of_pos h

lemma trimStart_cons {c : Char} (h : isBlank c = false) (cs : List Char) :
    trimStart (c :: cs) = c :: cs := by
  rw [trimStart, List.dropWhile_cons_of_neg (by simp [h])]

/-- A text is the blanks that it starts with and what is left without them. -/
lemma exists_eq_append_trimStart (cs : List Char) :
    ∃ gap, (∀ c ∈ gap, isBlank c = true) ∧ cs = gap ++ trimStart cs :=
  ⟨cs.takeWhile isBlank, fun _ h => List.mem_takeWhile_imp h,
    List.takeWhile_append_dropWhile.symm⟩

/-! ## Type words -/

/-- Reading backwards, the text before a name is made of type words if it has only blanks and
characters of types, and a blank next to the name. -/
lemma isTypeWords_reverse_iff {lead : List Char} :
    isTypeWords lead.reverse = true ↔
      (∀ c ∈ lead, isBlank c = true ∨ isTypeChar c = true) ∧
        ∀ c, lead.getLast? = some c → isBlank c = true := by
  rcases List.eq_nil_or_concat lead with rfl | ⟨init, c, rfl⟩
  · simp [isTypeWords]
  · simp only [List.concat_eq_append, List.reverse_append, List.reverse_cons, List.reverse_nil,
      List.nil_append, List.singleton_append, isTypeWords, Bool.and_eq_true, List.all_eq_true,
      List.mem_reverse, Bool.or_eq_true, List.mem_append, List.mem_singleton,
      List.getLast?_append, List.getLast?_singleton, Option.some_or, Option.some.injEq,
      forall_eq']
    constructor
    · rintro ⟨hc, hinit⟩
      refine ⟨?_, hc⟩
      rintro d (hd | rfl)
      · exact hinit d hd
      · exact Or.inl hc
    · rintro ⟨hall, hc⟩
      exact ⟨hc, fun d hd => hall d (Or.inl hd)⟩

/-- A text of blanks and characters of types that ends in a blank can be cut into an indentation and
type words. -/
lemma exists_typeWords {lead : List Char}
    (hchars : ∀ c ∈ lead, isBlank c = true ∨ isTypeChar c = true)
    (hlast : ∀ c, lead.getLast? = some c → isBlank c = true) :
    ∃ (indent : List Char) (words : List TypeWord), (∀ c ∈ indent, isBlank c = true) ∧
      lead = indent ++ words.flatMap TypeWord.text := by
  induction lead with
  | nil => exact ⟨[], [], by simp, rfl⟩
  | cons c cs ih =>
    by_cases hcs : cs = []
    · subst hcs
      exact ⟨[c], [], by simpa using hlast c rfl, rfl⟩
    · obtain ⟨indent, words, hindent, rfl⟩ := ih
        (fun d hd => hchars d (List.mem_cons_of_mem c hd))
        (fun d hd => hlast d (by rw [List.getLast?_cons_of_ne_nil hcs, hd]))
      rcases hchars c List.mem_cons_self with hc | hc
      · -- one more blank of the indentation
        refine ⟨c :: indent, words, ?_, rfl⟩
        rintro d hd
        rcases List.mem_cons.mp hd with rfl | hd
        · exact hc
        · exact hindent d hd
      · cases indent with
        | cons b bs =>
          -- a new word of one character, with the indentation behind it
          exact ⟨[], ⟨[c], b :: bs, by simp, by simpa using hc, by simp, hindent⟩ :: words,
            by simp, by simp [TypeWord.text]⟩
        | nil =>
          cases words with
          | nil => exact absurd rfl hcs
          | cons w ws =>
            -- the first word is one character longer
            have hword : ∀ d ∈ c :: w.word, isTypeChar d = true := by
              intro d hd
              rcases List.mem_cons.mp hd with rfl | hd
              · exact hc
              · exact w.isTypeChar_word d hd
            exact ⟨[], ⟨c :: w.word, w.gap, by simp, hword, w.gap_ne_nil, w.isBlank_gap⟩ :: ws,
              by simp, by simp [TypeWord.text]⟩

namespace HeaderParts

variable (p : HeaderParts)

lemma isBlank_or_isTypeChar_of_mem_lead :
    ∀ c ∈ p.lead, isBlank c = true ∨ isTypeChar c = true := by
  intro c hc
  rcases List.mem_append.mp hc with hc | hc
  · exact Or.inl (p.isBlank_indent c hc)
  · obtain ⟨w, -, hc⟩ := List.mem_flatMap.mp hc
    rcases List.mem_append.mp hc with hc | hc
    · exact Or.inr (w.isTypeChar_word c hc)
    · exact Or.inl (w.isBlank_gap c hc)

lemma isBlank_of_getLast?_lead : ∀ c, p.lead.getLast? = some c → isBlank c = true := by
  intro c hc
  rcases List.eq_nil_or_concat p.words with hwords | ⟨init, w, hwords⟩
  · rw [lead, hwords, List.flatMap_nil, List.append_nil] at hc
    exact p.isBlank_indent c (List.mem_of_getLast? hc)
  · -- the line up to the name ends in the blanks behind the last word
    have hlead : p.lead = p.indent ++ init.flatMap TypeWord.text ++ w.word ++ w.gap := by
      rw [lead, hwords]
      simp [TypeWord.text]
    rw [hlead, List.getLast?_append_of_ne_nil _ w.gap_ne_nil] at hc
    exact w.isBlank_gap c (List.mem_of_getLast? hc)

lemma isTypeWords_lead : isTypeWords p.lead.reverse = true :=
  isTypeWords_reverse_iff.mpr ⟨p.isBlank_or_isTypeChar_of_mem_lead, p.isBlank_of_getLast?_lead⟩

end HeaderParts

/-! ## The line before the parenthesis -/

/-- The characters that a list of type parameters cannot have inside. -/
lemma TypeParameters.dropWhile_reverse (t : TypeParameters) (cs : List Char) :
    (t.inside.reverse ++ '<' :: cs).dropWhile
      (fun c => !(c == '(' || c == ')' || c == '<' || c == '>')) = '<' :: cs := by
  rw [List.dropWhile_append_of_pos]
  · rfl
  · intro c hc
    obtain ⟨h1, h2, h3, h4⟩ := t.isPlain c (List.mem_reverse.mp hc)
    simp [h1, h2, h3, h4]

/-- A list of type parameters before the parenthesis is passed over. -/
lemma beforeTypeParameters?_text (parameters : Option TypeParameters) {gap cs : List Char}
    (hgap : ∀ c ∈ gap, isBlank c = true) {c : Char} (hc : isWord c = true) :
    beforeTypeParameters? (trimStart
      ((parameters.elim [] TypeParameters.text).reverse ++ (gap ++ c :: cs))) = some (c :: cs) := by
  have htrim : trimStart (gap ++ c :: cs) = c :: cs := by
    rw [trimStart_append hgap, trimStart_cons (isBlank_eq_false_of_isWord hc)]
  cases parameters with
  | none =>
    rw [Option.elim_none, List.reverse_nil, List.nil_append, htrim]
    exact beforeTypeParameters?.eq_2 _ fun _ h =>
      ne_of_isIn hc (by decide) (List.cons.inj h).1
  | some t =>
    have htext : (Option.elim (some t) [] TypeParameters.text).reverse ++ (gap ++ c :: cs) =
        '>' :: (t.inside.reverse ++ '<' :: (gap ++ c :: cs)) := by
      simp [TypeParameters.text]
    rw [htext, trimStart_cons (by decide), beforeTypeParameters?, t.dropWhile_reverse]
    simp only [htrim]

/-- What is found before a list of type parameters stands before one, or before nothing. -/
lemma exists_of_beforeTypeParameters? {cs before : List Char}
    (h : beforeTypeParameters? cs = some before) :
    ∃ (parameters : Option TypeParameters) (gap : List Char), (∀ c ∈ gap, isBlank c = true) ∧
      cs = (parameters.elim [] TypeParameters.text).reverse ++ (gap ++ before) := by
  rw [beforeTypeParameters?.eq_def] at h
  split at h
  · rename_i cs
    split at h
    · rename_i rest hrest
      obtain rfl := Option.some.inj h
      obtain ⟨gap, hgap, heq⟩ := exists_eq_append_trimStart rest
      -- what is passed over has none of the four characters
      have hinside := List.takeWhile_append_dropWhile
        (p := fun c => !(c == '(' || c == ')' || c == '<' || c == '>')) (l := cs)
      rw [hrest] at hinside
      refine ⟨some ⟨(cs.takeWhile
        (fun c => !(c == '(' || c == ')' || c == '<' || c == '>'))).reverse, ?_⟩, gap, hgap, ?_⟩
      · intro c hc
        have hplain := List.mem_takeWhile_imp (List.mem_reverse.mp hc)
        simpa [and_assoc] using hplain
      · rw [← heq]
        simpa [TypeParameters.text] using hinside.symm
    · exact absurd h (by simp)
  · obtain rfl := Option.some.inj h
    exact ⟨none, [], by simp, by simp⟩

/-- **The name of a header** is what is found before the parenthesis. -/
lemma HeaderParts.declaredName?_front (p : HeaderParts) : declaredName? p.front = some p.name := by
  obtain ⟨c, cs, hname⟩ := List.exists_cons_of_ne_nil
    (List.reverse_ne_nil_iff.mpr p.name_ne_nil)
  have hword : ∀ d ∈ p.name.reverse, isWord d = true :=
    fun d hd => p.isWord_name d (List.mem_reverse.mp hd)
  have hc : isWord c = true := hword c (hname ▸ List.mem_cons_self)
  have hbefore : beforeTypeParameters? (trimStart p.front.reverse) =
      some (p.name.reverse ++ p.lead.reverse) := by
    have hreverse : p.front.reverse = p.openGap.reverse ++
        ((p.parameters.elim [] TypeParameters.text).reverse ++
          (p.nameGap.reverse ++ (c :: (cs ++ p.lead.reverse)))) := by
      rw [← List.cons_append, ← hname]
      simp [HeaderParts.front, HeaderParts.declaration]
    rw [hreverse, trimStart_append fun d hd => p.isBlank_openGap d (List.mem_reverse.mp hd),
      beforeTypeParameters?_text _ (fun d hd => p.isBlank_nameGap d (List.mem_reverse.mp hd)) hc,
      hname, List.cons_append]
  -- the name is a whole word: what stands before it ends in a blank
  have hstop : ∀ d ∈ p.lead.reverse.head?, isWord d = false := by
    intro d hd
    rw [List.head?_reverse] at hd
    exact isWord_eq_false_of_isBlank (p.isBlank_of_getLast?_lead d hd)
  rw [declaredName?, hbefore]
  simp [takeWhile_run hword hstop, dropWhile_run hword hstop, p.isTypeWords_lead, p.name_ne_nil]

/-- A name that is found before the parenthesis stands behind type words and before blanks and an
optional list of type parameters. -/
lemma exists_of_declaredName? {front name : List Char} (h : declaredName? front = some name) :
    ∃ (indent : List Char) (words : List TypeWord) (nameGap : List Char)
      (parameters : Option TypeParameters) (openGap : List Char),
      (∀ c ∈ indent, isBlank c = true) ∧ (∀ c ∈ nameGap, isBlank c = true) ∧
      (∀ c ∈ openGap, isBlank c = true) ∧ name ≠ [] ∧ (∀ c ∈ name, isWord c = true) ∧
      front = indent ++ words.flatMap TypeWord.text ++ name ++ nameGap ++
        parameters.elim [] TypeParameters.text ++ openGap := by
  rw [declaredName?] at h
  split at h
  · exact absurd h (by simp)
  · rename_i before hbefore
    dsimp only at h
    split at h
    · exact absurd h (by simp)
    · rename_i hne
      split at h
      · rename_i hwords
        obtain rfl := Option.some.inj h
        obtain ⟨openGap, hopen, hfront⟩ := exists_eq_append_trimStart front.reverse
        obtain ⟨parameters, nameGap, hgap, htrim⟩ := exists_of_beforeTypeParameters? hbefore
        rw [← List.reverse_reverse (before.dropWhile isWord)] at hwords
        obtain ⟨hchars, hlast⟩ := isTypeWords_reverse_iff.mp hwords
        obtain ⟨indent, words, hindent, hlead⟩ := exists_typeWords hchars hlast
        refine ⟨indent, words, nameGap.reverse, parameters, openGap.reverse, hindent,
          fun c hc => hgap c (List.mem_reverse.mp hc), fun c hc => hopen c (List.mem_reverse.mp hc),
          by simpa using hne, fun c hc => List.mem_takeWhile_imp (List.mem_reverse.mp hc), ?_⟩
        have hcut := List.takeWhile_append_dropWhile (p := isWord) (l := before)
        rw [htrim, ← hcut] at hfront
        rw [← hlead, ← List.reverse_reverse front, hfront]
        simp only [List.reverse_append, List.reverse_reverse, List.append_assoc]
      · exact absurd h (by simp)

/-! ## The line behind the parenthesis -/

lemma startsBody_iff {cs : List Char} :
    startsBody cs = true ↔ ∃ opening ∈ openings, ∃ rest, cs = opening ++ rest := by
  constructor
  · intro h
    rw [startsBody.eq_def] at h
    split at h
    · exact ⟨_, List.mem_cons_self, _, rfl⟩
    · exact ⟨_, List.mem_cons_of_mem _ List.mem_cons_self, _, rfl⟩
    · exact absurd h (by simp)
  · rintro ⟨opening, hopening, rest, rfl⟩
    rcases List.mem_pair.mp hopening with rfl | rfl <;> rfl

/-- The start of a body is neither blank nor a part of a marker. -/
lemma exists_cons_of_mem_openings {opening : List Char} (h : opening ∈ openings) :
    ∃ c cs, opening = c :: cs ∧ isBlank c = false ∧ c ≠ '*' ∧ c ≠ 'a' ∧ c ≠ 's' := by
  rcases List.mem_pair.mp h with rfl | rfl
  · exact ⟨_, _, rfl, by decide⟩
  · exact ⟨_, _, rfl, by decide⟩

lemma exists_skipStar (cs : List Char) :
    ∃ star ∈ [[], ['*']], ∃ gap, (∀ c ∈ gap, isBlank c = true) ∧
      cs = star ++ gap ++ skipStar cs := by
  rw [skipStar.eq_def]
  split
  · rename_i cs
    obtain ⟨gap, hgap, heq⟩ := exists_eq_append_trimStart cs
    exact ⟨['*'], by simp, gap, hgap, by simpa using heq⟩
  · obtain ⟨gap, hgap, heq⟩ := exists_eq_append_trimStart cs
    exact ⟨[], by simp, gap, hgap, by simpa using heq⟩

/-- A text is an optional marker and what is found behind it. -/
lemma exists_skipMarker (cs : List Char) :
    ∃ marker : Option Marker, cs = marker.elim [] Marker.text ++ skipMarker cs := by
  rw [skipMarker.eq_def]
  split
  · rename_i cs
    obtain ⟨star, hstar, gap, hgap, heq⟩ := exists_skipStar cs
    refine ⟨some ⟨"async".toList, star, gap, by simp, hstar, hgap⟩, ?_⟩
    simpa [Marker.text] using heq
  · rename_i cs
    obtain ⟨star, hstar, gap, hgap, heq⟩ := exists_skipStar cs
    refine ⟨some ⟨"sync".toList, star, gap, by simp, hstar, hgap⟩, ?_⟩
    simpa [Marker.text] using heq
  · exact ⟨none, by simp⟩

lemma skipStar_append {star gap : List Char} (hstar : star ∈ [[], ['*']])
    (hgap : ∀ c ∈ gap, isBlank c = true) {c : Char} (hc : isBlank c = false) (hne : c ≠ '*')
    (cs : List Char) : skipStar (star ++ gap ++ c :: cs) = c :: cs := by
  have htrim : trimStart (gap ++ c :: cs) = c :: cs := by
    rw [trimStart_append hgap, trimStart_cons hc]
  rcases List.mem_pair.mp hstar with rfl | rfl
  · rw [List.nil_append, skipStar.eq_2, htrim]
    -- without a star, the text starts with a blank or with the body
    cases gap with
    | nil => exact fun _ h => hne (List.cons.inj h).1
    | cons d ds =>
      exact fun _ h => ne_of_isIn (hgap d List.mem_cons_self) (by decide) (List.cons.inj h).1
  · rw [List.append_assoc, List.singleton_append, skipStar, htrim]

lemma skipMarker_append (marker : Option Marker) {c : Char} (hc : isBlank c = false)
    (hstar : c ≠ '*') (ha : c ≠ 'a') (hs : c ≠ 's') (cs : List Char) :
    skipMarker (marker.elim [] Marker.text ++ c :: cs) = c :: cs := by
  cases marker with
  | none =>
    exact skipMarker.eq_3 _ (fun _ h => ha (List.cons.inj h).1) fun _ h => hs (List.cons.inj h).1
  | some m =>
    have hskip := skipStar_append m.star_mem m.isBlank_gap hc hstar cs
    rcases List.mem_pair.mp m.word_mem with hword | hword
    · simpa [Marker.text, hword, skipMarker] using hskip
    · simpa [Marker.text, hword, skipMarker] using hskip

/-- A body starts in a text, behind blanks and an optional marker. -/
lemma startsBody_skipMarker_iff {cs : List Char} :
    startsBody (skipMarker (trimStart cs)) = true ↔
      ∃ (gap : List Char) (marker : Option Marker), (∀ c ∈ gap, isBlank c = true) ∧
        ∃ opening ∈ openings, ∃ rest,
          cs = gap ++ (marker.elim [] Marker.text ++ (opening ++ rest)) := by
  rw [startsBody_iff]
  constructor
  · rintro ⟨opening, hopening, rest, hrest⟩
    obtain ⟨gap, hgap, hcs⟩ := exists_eq_append_trimStart cs
    obtain ⟨marker, hmarker⟩ := exists_skipMarker (trimStart cs)
    rw [hrest] at hmarker
    exact ⟨gap, marker, hgap, opening, hopening, rest, hmarker ▸ hcs⟩
  · rintro ⟨gap, marker, hgap, opening, hopening, rest, rfl⟩
    refine ⟨opening, hopening, rest, ?_⟩
    obtain ⟨c, ds, rfl, hc, hstar, ha, hs⟩ := exists_cons_of_mem_openings hopening
    rw [trimStart_append hgap]
    have hskip := skipMarker_append marker hc hstar ha hs (ds ++ rest)
    -- nothing blank is left at the start, with or without a marker
    have htrim : trimStart (marker.elim [] Marker.text ++ (c :: (ds ++ rest))) =
        marker.elim [] Marker.text ++ (c :: (ds ++ rest)) := by
      cases marker with
      | none => exact trimStart_cons hc _
      | some m =>
        rcases List.mem_pair.mp m.word_mem with hword | hword
        · simp only [Option.elim_some, Marker.text, hword]
          exact trimStart_cons (by decide) _
        · simp only [Option.elim_some, Marker.text, hword]
          exact trimStart_cons (by decide) _
    rw [List.cons_append, htrim, hskip]

lemma closesIntoBody_iff {cs : List Char} :
    closesIntoBody cs = true ↔
      ∃ arguments tail, cs = arguments ++ ')' :: tail ∧
        startsBody (skipMarker (trimStart tail)) = true := by
  induction cs with
  | nil => simp [closesIntoBody]
  | cons c cs ih =>
    rw [closesIntoBody, Bool.or_eq_true, Bool.and_eq_true, beq_iff_eq, ih]
    constructor
    · rintro (⟨rfl, hbody⟩ | ⟨arguments, tail, rfl, hbody⟩)
      · exact ⟨[], cs, rfl, hbody⟩
      · exact ⟨c :: arguments, tail, rfl, hbody⟩
    · rintro ⟨arguments, tail, heq, hbody⟩
      cases arguments with
      | nil =>
        obtain ⟨rfl, rfl⟩ := List.cons.inj heq
        exact Or.inl ⟨rfl, hbody⟩
      | cons d ds =>
        obtain ⟨rfl, rfl⟩ := List.cons.inj heq
        exact Or.inr ⟨ds, tail, rfl, hbody⟩

/-! ## Header lines -/

namespace HeaderParts

variable (p : HeaderParts)

lemma closesIntoBody_back : closesIntoBody p.back = true :=
  closesIntoBody_iff.mpr ⟨_, _, rfl, startsBody_skipMarker_iff.mpr
    ⟨_, _, p.isBlank_closeGap, _, p.opening_mem, _, rfl⟩⟩

/-- Nothing before the arguments has an opening parenthesis. -/
lemma paren_not_mem_front : '(' ∉ p.front := by
  intro h
  simp only [front, declaration, List.mem_append] at h
  rcases h with (((hlead | hname) | hnameGap) | hparameters) | hopenGap
  · rcases p.isBlank_or_isTypeChar_of_mem_lead _ hlead with h | h
    · exact ne_of_isIn h (by decide) rfl
    · exact ne_of_isIn h (by decide) rfl
  · exact ne_of_isIn (p.isWord_name _ hname) (by decide) rfl
  · exact ne_of_isIn (p.isBlank_nameGap _ hnameGap) (by decide) rfl
  · cases hp : p.parameters with
    | none => simp [hp] at hparameters
    | some t =>
      have hinside : '(' ∈ t.inside := by simpa [hp, TypeParameters.text] using hparameters
      exact (t.isPlain _ hinside).1 rfl
  · exact ne_of_isIn (p.isBlank_openGap _ hopenGap) (by decide) rfl

lemma takeWhile_text : p.text.takeWhile (· != '(') = p.front :=
  takeWhile_ne p.paren_not_mem_front p.back

lemma dropWhile_text : p.text.dropWhile (· != '(') = '(' :: p.back :=
  dropWhile_ne p.paren_not_mem_front p.back

lemma shapedName?_text : shapedName? p.text = some p.name := by
  simp [shapedName?, p.dropWhile_text, p.takeWhile_text, p.closesIntoBody_back,
    p.declaredName?_front]

end HeaderParts

/-- **The lines with the shape of a header** are the ones that can be written as one, and the name is
the one that is written. -/
lemma shapedName?_eq_some_iff {line name : List Char} :
    shapedName? line = some name ↔ ∃ p : HeaderParts, p.text = line ∧ p.name = name := by
  constructor
  · intro h
    rw [shapedName?] at h
    split at h
    · exact absurd h (by simp)
    · rename_i c after hdrop
      split at h
      · rename_i hcloses
        obtain ⟨indent, words, nameGap, parameters, openGap, hindent, hgap, hopen, hne, hword,
          hfront⟩ := exists_of_declaredName? h
        obtain ⟨arguments, tail, rfl, hbody⟩ := closesIntoBody_iff.mp hcloses
        obtain ⟨closeGap, marker, hclose, opening, hopening, rest, rfl⟩ :=
          startsBody_skipMarker_iff.mp hbody
        -- the first character that is no longer passed over is the parenthesis
        have hc : c = '(' := by
          have hhead := List.head?_dropWhile_not (· != '(') line
          rw [hdrop] at hhead
          simpa using hhead
        refine ⟨⟨indent, words, name, nameGap, parameters, openGap, arguments, closeGap, marker,
          opening, rest, hindent, hne, hword, hgap, hopen, hclose, hopening⟩, ?_, rfl⟩
        have hcut := List.takeWhile_append_dropWhile (p := (· != '(')) (l := line)
        rw [hdrop, hfront, hc] at hcut
        exact hcut
      · exact absurd h (by simp)
  · rintro ⟨p, rfl, rfl⟩
    exact p.shapedName?_text

/-- The name is the last of the words, delimited by blanks, that stand before the list of type
parameters or the parenthesis. -/
lemma HeaderParts.getLast?_tokens_declaration (p : HeaderParts) :
    (tokens p.declaration).getLast? = some p.name := by
  have hword : tokens (p.name ++ p.nameGap) = [p.name] :=
    tokens_word p.name_ne_nil (fun c hc => isBlank_eq_false_of_isWord (p.isWord_name c hc))
      p.isBlank_nameGap
  rw [declaration, List.append_assoc, tokens_append p.isBlank_of_getLast?_lead, hword,
    List.getLast?_append, List.getLast?_singleton, Option.some_or]

/-- **The name of a header line** is accepted just when the line can be written as a header with that
name, and the name is neither private nor one of those that are denied.  In every way to write the
line the parenthesis before the arguments is the first one of the line, and the name is the last word
before it, or before the list of type parameters if there is one; so all ways have the same name. -/
theorem headerName?_eq_some_iff (line name : List Char) :
    (headerName? line = some name ↔
      name.head? ≠ some '_' ∧ String.ofList name ∉ deniedNames ∧
        ∃ p : HeaderParts, p.text = line ∧ p.name = name) ∧
    ∀ p : HeaderParts, p.text = line →
      line = p.front ++ '(' :: p.back ∧ '(' ∉ p.front ∧
      (tokens p.declaration).getLast? = some p.name ∧
      ∀ q : HeaderParts, q.text = line → q.name = p.name := by
  constructor
  · rw [← shapedName?_eq_some_iff, headerName?]
    cases hshaped : shapedName? line with
    | none => simp
    | some found =>
      have hskipped : isSkippedName found = false ↔
          found.head? ≠ some '_' ∧ String.ofList found ∉ deniedNames := by
        simp [isSkippedName]
      dsimp only
      split
      · rename_i hskip
        simp only [reduceCtorEq, Option.some.injEq, false_iff]
        rintro ⟨hprivate, hdenied, rfl⟩
        rw [hskipped.mpr ⟨hprivate, hdenied⟩] at hskip
        exact Bool.noConfusion hskip
      · rename_i hkept
        obtain ⟨hprivate, hdenied⟩ := hskipped.mp (by simpa using hkept)
        simp only [Option.some.injEq]
        constructor
        · rintro rfl
          exact ⟨hprivate, hdenied, rfl⟩
        · rintro ⟨-, -, rfl⟩
          rfl
  · rintro p rfl
    refine ⟨rfl, p.paren_not_mem_front, p.getLast?_tokens_declaration, fun q hq => ?_⟩
    have hname := q.shapedName?_text
    rw [hq, p.shapedName?_text] at hname
    exact (Option.some.inj hname).symm

/-- Type parameters stand between the name and the parenthesis, and the arguments have more
parentheses. -/
example : headerName? "  Map<K, V> fill<K, V>(V Function(K) f) async* => \x7b\x7d".toList =
    some "fill".toList := by
  decide +kernel

end CoverageEstimate.Dart

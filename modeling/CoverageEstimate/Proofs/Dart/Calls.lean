/-
# The calls of a Dart test

A call is found by a pattern that is tried all over the text: a callee at a word boundary, and then
its parenthesis, with blanks and a list of type arguments between the two.  The list is taken
loosely, as any characters of type arguments between angle brackets.

A match has one parenthesis, its last character.  So where a call stands in the text, an earlier
match that reaches over its callee ends at the same parenthesis, and there is only one way for it to
do so: its own list of type arguments is still open where the callee stands.  A call without type
arguments ends in a name and cannot be the end of such a list.  One with type arguments can, and
then the callee of the earlier bracket is what is found.
-/
import CoverageEstimate.Proofs.Dart.HeaderGrammar
import CoverageEstimate.Proofs.Signals.Findings
import CoverageEstimate.Proofs.Text.Matches
import CoverageEstimate.Dart.Signals

namespace CoverageEstimate.Dart

open Text

/-! ## The parts of a call -/

/-- A list of type arguments, by what stands between its outer angle brackets. -/
structure TypeArguments where
  inside : List Char
  isTypeArgumentChar_inside : ∀ c ∈ inside, isTypeArgumentChar c = true

/-- What stands between the callee of a call and its parenthesis. -/
structure CallLead where
  gap : List Char
  arguments : Option TypeArguments
  /-- The blanks before the parenthesis. -/
  openGap : List Char
  isBlank_gap : ∀ c ∈ gap, isBlank c = true
  isBlank_openGap : ∀ c ∈ openGap, isBlank c = true

def TypeArguments.text (t : TypeArguments) : List Char := '<' :: (t.inside ++ ['>'])

def CallLead.text (l : CallLead) : List Char :=
  l.gap ++ (l.arguments.elim [] TypeArguments.text ++ l.openGap)

/-- A name that may be called, behind the character `before`. -/
def IsCallee (before : Option Char) : List Char → Prop
  | [] => False
  | c :: cs => isNameStart c = true ∧ atBoundary before c = true ∧ ∀ d ∈ cs, isNameChar d = true

/-! ## Characters -/

/-- Letters and digits, as identifiers have them, are those of ASCII. -/
lemma toNat_lt_of_isAlphanum {c : Char} (h : c.isAlphanum = true) : c.toNat < 128 := by
  have hlast : c.val ≤ 'Z'.val ∨ c.val ≤ 'z'.val ∨ c.val ≤ '9'.val := by
    rcases Bool.or_eq_true_iff.mp h with h | h
    · rcases Bool.or_eq_true_iff.mp h with h | h
      · exact Or.inl (of_decide_eq_true h).2
      · exact Or.inr (Or.inl (of_decide_eq_true (Bool.and_eq_true_iff.mp h).2))
    · exact Or.inr (Or.inr (of_decide_eq_true (Bool.and_eq_true_iff.mp h).2))
  simp only [UInt32.le_iff_toNat_le, Char.toNat_val, Char.reduceToNat] at hlast
  omega

lemma isWord_of_isAlphanum {c : Char} (h : c.isAlphanum = true) : isWord c = true := by
  simp [isWord, toNat_lt_of_isAlphanum h, h]

lemma isWord_of_isAlpha {c : Char} (h : c.isAlpha = true) : isWord c = true :=
  isWord_of_isAlphanum (by rw [Char.isAlphanum, h, Bool.true_or])

lemma isNameChar_of_isNameStart {c : Char} (h : isNameStart c = true) : isNameChar c = true := by
  simp only [isNameStart, Bool.or_eq_true, beq_iff_eq] at h
  rcases h with (h | rfl) | rfl
  · rw [isNameChar, isWord_of_isAlpha h, Bool.true_or]
  · decide
  · decide

lemma isBlank_eq_false_of_isNameChar {c : Char} (h : isNameChar c = true) : isBlank c = false := by
  rcases Bool.or_eq_true_iff.mp h with h | h
  · exact isBlank_eq_false_of_isWord h
  · obtain rfl := beq_iff_eq.mp h
    decide

lemma isNameChar_eq_false_of_isBlank {c : Char} (h : isBlank c = true) : isNameChar c = false := by
  cases hn : isNameChar c with
  | false => rfl
  | true => simp [isBlank_eq_false_of_isNameChar hn] at h

lemma isTypeArgumentChar_of_isWord {c : Char} (h : isWord c = true) :
    isTypeArgumentChar c = true := by
  simp [isTypeArgumentChar, h]

lemma isTypeArgumentChar_of_isBlank {c : Char} (h : isBlank c = true) :
    isTypeArgumentChar c = true := by
  simp [isTypeArgumentChar, h]

namespace CallLead

variable (l : CallLead)

lemma isTypeArgumentChar_of_mem_text : ∀ c ∈ l.text, isTypeArgumentChar c = true := by
  intro c hc
  simp only [text, List.mem_append] at hc
  rcases hc with hc | hc | hc
  · exact isTypeArgumentChar_of_isBlank (l.isBlank_gap c hc)
  · cases ha : l.arguments with
    | none => simp [ha] at hc
    | some t =>
      rw [ha, Option.elim_some, TypeArguments.text] at hc
      simp only [List.mem_cons, List.mem_append, List.not_mem_nil, or_false] at hc
      rcases hc with rfl | hc | rfl
      · decide
      · exact t.isTypeArgumentChar_inside c hc
      · decide
  · exact isTypeArgumentChar_of_isBlank (l.isBlank_openGap c hc)

lemma paren_not_mem_text : '(' ∉ l.text :=
  fun h => ne_of_isIn (l.isTypeArgumentChar_of_mem_text _ h) (by decide) rfl

/-- What follows a callee does not go on with its name. -/
lemma isNameChar_eq_false_of_head? (rest : List Char) :
    ∀ c ∈ (l.text ++ '(' :: rest).head?, isNameChar c = false := by
  have hblank : ∀ {cs : List Char}, (∀ c ∈ cs, isBlank c = true) →
      ∀ back : List Char, (∀ c ∈ back.head?, isNameChar c = false) →
        ∀ c ∈ (cs ++ back).head?, isNameChar c = false := by
    intro cs hcs back hback c hc
    cases cs with
    | nil => exact hback c hc
    | cons d ds =>
      obtain rfl : d = c := Option.some.inj hc
      exact isNameChar_eq_false_of_isBlank (hcs d List.mem_cons_self)
  rw [text, List.append_assoc, List.append_assoc]
  refine hblank l.isBlank_gap _ ?_
  cases l.arguments with
  | none => exact hblank l.isBlank_openGap _ (by simp; decide)
  | some t => exact fun c hc => by obtain rfl := Option.some.inj hc; decide

end CallLead

/-- Where the arguments of a call open, blanks and an optional list of type arguments stand before
them. -/
lemma exists_of_argumentsOpenAt? {cs : List Char} {n : ℕ} (h : argumentsOpenAt? cs = some n) :
    ∃ (lead : CallLead) (rest : List Char), cs = lead.text ++ '(' :: rest ∧
      n = lead.text.length + 1 := by
  have hcut : cs.takeWhile isBlank ++ cs.dropWhile isBlank = cs := List.takeWhile_append_dropWhile
  have hblank : ∀ c ∈ cs.takeWhile isBlank, isBlank c = true := fun _ h => List.mem_takeWhile_imp h
  rw [argumentsOpenAt?] at h
  dsimp only at h
  split at h
  · rename_i rest hrest
    rw [hrest] at hcut
    refine ⟨⟨cs.takeWhile isBlank, none, [], hblank, by simp⟩, rest, ?_, ?_⟩
    · simpa [CallLead.text] using hcut.symm
    · simpa [CallLead.text] using (Option.some.inj h).symm
  · rename_i rest hrest
    split at h
    · rename_i hopen
      rw [Bool.and_eq_true, beq_iff_eq, beq_iff_eq] at hopen
      obtain ⟨back, hback⟩ := List.head?_eq_some_iff.mp hopen.1
      -- the last bracket of the run is the one that closes the list
      obtain ⟨inside, openGap, hrun, -, hgap⟩ := getLast?_trimEnd_eq_some_iff.mp hopen.2
      have hinside : ∀ c ∈ inside, isTypeArgumentChar c = true := fun c hc =>
        List.mem_takeWhile_imp (hrun ▸ List.mem_append_left _ hc)
      have hsplit := List.takeWhile_append_dropWhile (p := isTypeArgumentChar) (l := rest)
      rw [hrun, hback] at hsplit
      rw [hrest, ← hsplit] at hcut
      refine ⟨⟨cs.takeWhile isBlank, some ⟨inside, hinside⟩, openGap, hblank, hgap⟩, back, ?_, ?_⟩
      · simpa [CallLead.text, TypeArguments.text] using hcut.symm
      · rw [← Option.some.inj h, hrun]
        simp only [CallLead.text, Option.elim_some, TypeArguments.text, List.length_append,
          List.length_cons, List.length_nil]
        omega
    · exact absurd h (by simp)
  · exact absurd h (by simp)

lemma CallLead.argumentsOpenAt?_text (lead : CallLead) (rest : List Char) :
    argumentsOpenAt? (lead.text ++ '(' :: rest) = some (lead.text.length + 1) := by
  obtain ⟨gap, arguments, openGap, hgap, hopenGap⟩ := lead
  cases arguments with
  | none =>
    have hblank : ∀ c ∈ gap ++ openGap, isBlank c = true := by
      simpa [or_imp, forall_and] using ⟨hgap, hopenGap⟩
    have htext : CallLead.text ⟨gap, none, openGap, hgap, hopenGap⟩ = gap ++ openGap := rfl
    have hstop : ∀ c ∈ ('(' :: rest).head?, isBlank c = false := by simp; decide
    rw [argumentsOpenAt?, htext, takeWhile_run hblank hstop, dropWhile_run hblank hstop]
    rfl
  | some t =>
    have htext : CallLead.text ⟨gap, some t, openGap, hgap, hopenGap⟩ =
        gap ++ '<' :: (t.inside ++ '>' :: openGap) := by
      simp [CallLead.text, TypeArguments.text]
    have hstop : ∀ cs : List Char, ∀ c ∈ ('<' :: cs).head?, isBlank c = false := by simp; decide
    have hrun : ∀ c ∈ t.inside ++ '>' :: openGap, isTypeArgumentChar c = true := by
      intro c hc
      rcases List.mem_append.mp hc with hc | hc
      · exact t.isTypeArgumentChar_inside c hc
      · rcases List.mem_cons.mp hc with rfl | hc
        · decide
        · exact isTypeArgumentChar_of_isBlank (hopenGap c hc)
    have hparen : ∀ c ∈ ('(' :: rest).head?, isTypeArgumentChar c = false := by simp; decide
    have hlast : (trimEnd (t.inside ++ '>' :: openGap)).getLast? = some '>' :=
      getLast?_trimEnd_eq_some_iff.mpr ⟨t.inside, openGap, rfl, by decide, hopenGap⟩
    rw [argumentsOpenAt?, htext, List.append_assoc, List.cons_append,
      takeWhile_run hgap (hstop _), dropWhile_run hgap (hstop _)]
    simp only [takeWhile_run hrun hparen, dropWhile_run hrun hparen, hlast, List.head?_cons,
      beq_self_eq_true, Bool.and_self, if_true, List.length_append, List.length_cons]
    rw [Nat.add_assoc gap.length, Nat.add_comm 1]

/-- The pattern of calls matches a callee, what stands before its parenthesis, and the
parenthesis. -/
lemma callPattern_eq_some_iff {before : Option Char} {cs name : List Char} {n : ℕ} :
    callPattern before cs = some (name, n) ↔
      IsCallee before name ∧ ∃ (lead : CallLead) (rest : List Char),
        cs = name ++ (lead.text ++ '(' :: rest) ∧ n = name.length + (lead.text.length + 1) := by
  constructor
  · intro h
    cases cs with
    | nil => exact absurd h (by simp [callPattern])
    | cons c cs =>
      rw [callPattern] at h
      split at h
      · rename_i hstart
        rw [Bool.and_eq_true] at hstart
        split at h
        · rename_i m hm
          obtain ⟨lead, rest, hlead, rfl⟩ := exists_of_argumentsOpenAt? hm
          obtain ⟨rfl, rfl⟩ := Prod.mk.inj (Option.some.inj h)
          refine ⟨⟨hstart.1, hstart.2, fun d hd => List.mem_takeWhile_imp hd⟩, lead, rest, ?_, rfl⟩
          rw [← hlead, List.cons_append, List.takeWhile_append_dropWhile]
        · exact absurd h (by simp)
      · exact absurd h (by simp)
  · rintro ⟨hname, lead, rest, rfl, rfl⟩
    cases name with
    | nil => exact hname.elim
    | cons c cs =>
      obtain ⟨hstart, hboundary, hcs⟩ := hname
      have hstop := lead.isNameChar_eq_false_of_head? rest
      rw [List.cons_append, callPattern, if_pos (by rw [hstart, hboundary, Bool.and_self]),
        takeWhile_run hcs hstop, dropWhile_run hcs hstop, lead.argumentsOpenAt?_text]

/-! ## Calls that reach over a callee -/

/-- A list of type arguments of `callee` is open at the end of the text: behind the callee and its
bracket, there are only characters of type arguments. -/
def IsOpenBracket (callee text : List Char) : Prop :=
  ∃ outside gap inside, text = outside ++ (callee ++ (gap ++ '<' :: inside)) ∧
    IsCallee outside.getLast? callee ∧ (∀ c ∈ gap, isBlank c = true) ∧
    ∀ c ∈ inside, isTypeArgumentChar c = true

/-- A list of type arguments is open in the last run of their characters only. -/
lemma not_isOpenBracket_of_run {callee text : List Char}
    (h : '<' ∉ text.reverse.takeWhile isTypeArgumentChar) : ¬IsOpenBracket callee text := by
  rintro ⟨outside, gap, inside, rfl, -, -, hinside⟩
  have hreverse : (outside ++ (callee ++ (gap ++ '<' :: inside))).reverse =
      inside.reverse ++ '<' :: (outside ++ (callee ++ gap)).reverse := by simp
  rw [hreverse, List.takeWhile_append_of_pos fun c hc => hinside c (List.mem_reverse.mp hc),
    List.takeWhile_cons_of_pos (by decide)] at h
  exact h (by simp)

/-- Two pieces of a text that end at a parenthesis, with none before it, end at the same one. -/
lemma eq_append_of_paren {inside front front' rest rest' : List Char} (h : '(' ∉ front)
    (h' : '(' ∉ front') (heq : front' ++ '(' :: rest' = inside ++ (front ++ '(' :: rest))
    (hle : inside.length ≤ front'.length) : front' = inside ++ front := by
  obtain ⟨t, rfl⟩ : inside <+: front' := List.prefix_of_prefix_length_le ⟨_, rfl⟩ ⟨_, heq⟩ hle
  have ht : '(' ∉ t := fun ht => h' (List.mem_append_right _ ht)
  rw [List.append_assoc] at heq
  have heq := List.append_cancel_left heq
  calc
    inside ++ t = inside ++ (t ++ '(' :: rest').takeWhile (· != '(') := by rw [takeWhile_ne ht]
    _ = inside ++ (front ++ '(' :: rest).takeWhile (· != '(') := by rw [heq]
    _ = inside ++ front := by rw [takeWhile_ne h]

namespace IsCallee

variable {before : Option Char} {name : List Char}

lemma isNameChar_of_mem (h : IsCallee before name) : ∀ c ∈ name, isNameChar c = true := by
  cases name with
  | nil => exact h.elim
  | cons c cs =>
    intro d hd
    rcases List.mem_cons.mp hd with rfl | hd
    · exact isNameChar_of_isNameStart h.1
    · exact h.2.2 d hd

lemma paren_not_mem (h : IsCallee before name) : '(' ∉ name :=
  fun hmem => ne_of_isIn (h.isNameChar_of_mem _ hmem) (by decide) rfl

lemma ne_nil (h : IsCallee before name) : name ≠ [] := by
  rintro rfl
  exact h

end IsCallee

/-- Where a word stands in what a call has before its parenthesis, but not in the callee, the list
of type arguments of the call is open, and nothing else follows up to the parenthesis. -/
lemma IsCallee.isOpenBracket {outside inside callee back : List Char} {c : Char} {lead : CallLead}
    (hcallee : IsCallee outside.getLast? callee) (hc : isWord c = true) (hne : inside ≠ [])
    (hlast : ∀ d ∈ inside.getLast?, isNameChar d = false)
    (heq : callee ++ lead.text = inside ++ c :: back) :
    lead.arguments.isSome = true ∧ IsOpenBracket callee (outside ++ inside) ∧
      ∀ d ∈ c :: back, isTypeArgumentChar d = true := by
  have hblank : ∀ {cs : List Char}, (∀ d ∈ cs, isBlank d = true) → c ∉ cs := fun hcs hmem =>
    ne_of_isIn (hcs c hmem) (isBlank_eq_false_of_isWord hc) rfl
  -- the last character in front of the word does not belong to the callee
  obtain ⟨t, rfl⟩ : callee <+: inside :=
    prefix_of_run ⟨_, rfl⟩ ⟨_, heq.symm⟩ hcallee.isNameChar_of_mem hne hlast
  have hlead : lead.text = t ++ c :: back := by
    rw [List.append_assoc] at heq
    exact List.append_cancel_left heq
  -- and the word does not start among the blanks
  obtain ⟨u, rfl⟩ : lead.gap <+: t := by
    have hgap : lead.gap <+: lead.text := ⟨_, rfl⟩
    exact prefix_of_not_mem hgap ⟨back, by rw [hlead]; simp⟩ (hblank lead.isBlank_gap)
  have hback : lead.arguments.elim [] TypeArguments.text ++ lead.openGap = u ++ c :: back := by
    rw [CallLead.text, List.append_assoc] at hlead
    exact List.append_cancel_left hlead
  cases ha : lead.arguments with
  | none =>
    have hmem : c ∈ lead.openGap := by
      rw [ha, Option.elim_none, List.nil_append] at hback
      rw [hback]
      simp
    exact absurd hmem (hblank lead.isBlank_openGap)
  | some a =>
    rw [ha, Option.elim_some, TypeArguments.text, List.cons_append] at hback
    cases u with
    | nil =>
      have hless : c ≠ '<' := ne_of_isIn hc (by decide)
      exact absurd (List.cons.inj hback).1.symm hless
    | cons d x =>
      obtain ⟨rfl, hx⟩ := List.cons.inj hback
      have hx : a.inside ++ ['>'] ++ lead.openGap = x ++ c :: back := hx
      have htypes : ∀ d ∈ x ++ c :: back, isTypeArgumentChar d = true := by
        rw [← hx]
        intro d hd
        simp only [List.mem_append, List.mem_singleton] at hd
        rcases hd with (hd | rfl) | hd
        · exact a.isTypeArgumentChar_inside d hd
        · decide
        · exact isTypeArgumentChar_of_isBlank (lead.isBlank_openGap d hd)
      rw [List.forall_mem_append] at htypes
      exact ⟨rfl, ⟨outside, lead.gap, x, rfl, hcallee, lead.isBlank_gap, htypes.1⟩, htypes.2⟩

/-! ## Calls in a text -/

/-- An identifier: a letter or an underscore, and then letters, digits, underscores and dollar
signs. -/
def isIdentifier : List Char → Bool
  | [] => false
  | c :: cs => (c.isAlpha || c == '_') && cs.all fun d => d.isAlphanum || d == '_' || d == '$'

/-- Whether a text, with so many brackets open before it, goes on as a list of type arguments up to
the end of all of them: words, blanks, commas, question marks, and brackets that are properly
nested. -/
def closesTypes (depth : ℕ) : List Char → Bool
  | [] => depth == 0
  | '<' :: cs => closesTypes (depth + 1) cs
  | '>' :: cs => depth != 0 && closesTypes (depth - 1) cs
  | c :: cs => (isWord c || isBlank c || c == ',' || c == '?') && closesTypes depth cs

lemma isTypeArgumentChar_of_closesTypes {depth : ℕ} {cs : List Char}
    (h : closesTypes depth cs = true) : ∀ c ∈ cs, isTypeArgumentChar c = true := by
  fun_induction closesTypes depth cs with
  | case1 => simp
  | case2 depth cs ih =>
    exact List.forall_mem_cons.mpr ⟨by decide, ih h⟩
  | case3 depth cs ih =>
    rw [Bool.and_eq_true] at h
    exact List.forall_mem_cons.mpr ⟨by decide, ih h.2⟩
  | case4 depth c cs _ _ ih =>
    rw [Bool.and_eq_true] at h
    refine List.forall_mem_cons.mpr ⟨?_, ih h.2⟩
    have hc := h.1
    simp only [Bool.or_eq_true] at hc
    rcases hc with ((hc | hc) | hc) | hc <;> simp [isTypeArgumentChar, hc]

lemma exists_cons_of_isIdentifier {name : List Char} (h : isIdentifier name = true) :
    ∃ c cs, name = c :: cs ∧ isNameStart c = true ∧ isWord c = true ∧
      ∀ d ∈ cs, isNameChar d = true := by
  cases name with
  | nil => exact absurd h (by simp [isIdentifier])
  | cons c cs =>
    rw [isIdentifier, Bool.and_eq_true, List.all_eq_true] at h
    refine ⟨c, cs, rfl, ?_, ?_, fun d hd => ?_⟩
    · rw [isNameStart, h.1, Bool.true_or]
    · rcases Bool.or_eq_true_iff.mp h.1 with hc | hc
      · exact isWord_of_isAlpha hc
      · obtain rfl := beq_iff_eq.mp hc
        decide
    · have hd := h.2 d hd
      rw [Bool.or_eq_true, Bool.or_eq_true, beq_iff_eq, beq_iff_eq] at hd
      rcases hd with (hd | rfl) | rfl
      · rw [isNameChar, isWord_of_isAlphanum hd, Bool.true_or]
      · decide
      · decide

/-- An identifier that is not a piece of a longer one may be called. -/
lemma isCallee_of_isIdentifier {front name : List Char} (h : isIdentifier name = true)
    (hbefore : ∀ c ∈ front.getLast?, isNameChar c = false) : IsCallee front.getLast? name := by
  obtain ⟨c, cs, rfl, hstart, hword, hcs⟩ := exists_cons_of_isIdentifier h
  refine ⟨hstart, ?_, hcs⟩
  have hany : front.getLast?.any isWord = false := by
    cases hlast : front.getLast? with
    | none => rfl
    | some d =>
      have hd := hbefore d hlast
      rw [isNameChar, Bool.or_eq_false_iff] at hd
      exact hd.1
  rw [atBoundary, hany, hword]
  rfl

/-- The names of a test's calls are those that the pattern reads, without the words that are no
callees. -/
lemma mem_calls_signals_iff {text name : List Char} :
    String.ofList name ∈ (signals text).calls ↔
      name ∈ callPattern.occurrences text ∧ String.ofList name ∉ callKeywords := by
  have hkept : String.ofList name ∈ callNames text ↔
      name ∈ callPattern.occurrences text ∧ String.ofList name ∉ callKeywords := by
    rw [callNames, List.mem_filter,
      List.mem_map_of_injective fun _ _ h => String.ofList_injective h]
    simp
  rw [signals, Signals.mem_calls_ofLists, hkept, and_iff_left_of_imp]
  rintro ⟨hmem, -⟩ hempty
  obtain ⟨front, back, n, -, hmatch⟩ := Pattern.exists_of_mem_occurrences hmem
  exact (callPattern_eq_some_iff.mp hmatch).1.ne_nil (String.ofList_injective hempty)

/-- A match that starts earlier and reaches over the callee of another one ends with it. -/
lemma eq_append_of_reached {before before' : Option Char}
    {inside callee callee' rest rest' : List Char} {lead lead' : CallLead}
    (h : IsCallee before callee) (h' : IsCallee before' callee')
    (heq : callee' ++ (lead'.text ++ '(' :: rest') =
      inside ++ (callee ++ (lead.text ++ '(' :: rest)))
    (hlt : inside.length < callee'.length + (lead'.text.length + 1)) :
    callee' ++ lead'.text = inside ++ (callee ++ lead.text) := by
  have hparen : ∀ {before : Option Char} {name : List Char} {lead : CallLead},
      IsCallee before name → '(' ∉ name ++ lead.text := by
    intro before name lead h hmem
    rcases List.mem_append.mp hmem with hmem | hmem
    · exact h.paren_not_mem hmem
    · exact lead.paren_not_mem_text hmem
  have heq : callee' ++ lead'.text ++ '(' :: rest' =
      inside ++ (callee ++ lead.text ++ '(' :: rest) := by simpa using heq
  refine eq_append_of_paren (hparen h) (hparen h') heq ?_
  rw [List.length_append]
  omega

/-- What a match that starts earlier has to be in order to reach over a call of an identifier: it
ends with that call, inside of a list of type arguments. -/
lemma isOpenBracket_of_reached {outside inside name callee rest : List Char} {lead : CallLead}
    {n : ℕ} (hname : isIdentifier name = true) (hne : inside ≠ [])
    (hbefore : ∀ c ∈ inside.getLast?, isNameChar c = false)
    (hmatch : callPattern outside.getLast? (inside ++ (name ++ (lead.text ++ '(' :: rest))) =
      some (callee, n)) (hn : inside.length < n) :
    ∃ lead' : CallLead, callee ++ lead'.text = inside ++ (name ++ lead.text) ∧
      lead'.arguments.isSome = true ∧ IsOpenBracket callee (outside ++ inside) ∧
      ∀ d ∈ name ++ lead.text, isTypeArgumentChar d = true := by
  obtain ⟨hcallee, lead', rest', heq, rfl⟩ := callPattern_eq_some_iff.mp hmatch
  have hsame : callee ++ lead'.text = inside ++ (name ++ lead.text) :=
    eq_append_of_reached (isCallee_of_isIdentifier hname hbefore) hcallee heq.symm hn
  obtain ⟨c, cs, rfl, -, hword, -⟩ := exists_cons_of_isIdentifier hname
  exact ⟨lead', hsame, hcallee.isOpenBracket hword hne hbefore hsame⟩

/-- A list of type arguments ends in a bracket, with blanks behind it. -/
lemma CallLead.getLast?_trimEnd {lead : CallLead} (h : lead.arguments.isSome = true)
    (front : List Char) : (trimEnd (front ++ lead.text)).getLast? = some '>' := by
  obtain ⟨t, ht⟩ := Option.isSome_iff_exists.mp h
  refine getLast?_trimEnd_eq_some_iff.mpr
    ⟨front ++ (lead.gap ++ '<' :: t.inside), lead.openGap, ?_, by decide, lead.isBlank_openGap⟩
  rw [CallLead.text, ht]
  simp [TypeArguments.text]

/-- A call of an identifier is found, unless a list of type arguments is open in front of it: that
of a call that ends with this one. -/
lemma mem_occurrences_or_isOpenBracket {front name : List Char} (hname : isIdentifier name = true)
    (hbefore : ∀ c ∈ front.getLast?, isNameChar c = false) (lead : CallLead) (rest : List Char) :
    name ∈ callPattern.occurrences (front ++ (name ++ (lead.text ++ '(' :: rest))) ∨
      ∃ (inside callee : List Char) (lead' : CallLead),
        callee ++ lead'.text = inside ++ (name ++ lead.text) ∧ lead'.arguments.isSome = true ∧
        IsOpenBracket callee front ∧ ∀ d ∈ name ++ lead.text, isTypeArgumentChar d = true := by
  have hmatch : callPattern front.getLast? (name ++ (lead.text ++ '(' :: rest)) =
      some (name, name.length + (lead.text.length + 1)) :=
    callPattern_eq_some_iff.mpr ⟨isCallee_of_isIdentifier hname hbefore, lead, rest, rfl, rfl⟩
  rcases Pattern.mem_occurrences_or_reached (by simp) hmatch with
    hfound | ⟨outside, inside, callee, n, rfl, hne, hearlier, hn, -⟩
  · exact Or.inl hfound
  · rw [List.getLast?_append_of_ne_nil outside hne] at hbefore
    exact Or.inr ⟨inside, callee, isOpenBracket_of_reached hname hne hbefore hearlier hn⟩

/-- **Direct calls are found.**  An identifier that is no keyword, stands alone, and has its
parenthesis behind it with nothing but blanks between, is called, whatever stands around it. -/
theorem mem_calls_of_direct {front name gap rest : List Char} (hname : isIdentifier name = true)
    (hkeyword : String.ofList name ∉ callKeywords)
    (hbefore : ∀ c ∈ front.getLast?, isNameChar c = false)
    (hgap : ∀ c ∈ gap, isBlank c = true) :
    String.ofList name ∈ (signals (front ++ (name ++ (gap ++ '(' :: rest)))).calls := by
  let lead : CallLead := ⟨gap, none, [], hgap, by simp⟩
  have hlead : lead.text = gap := by simp [lead, CallLead.text]
  rw [← hlead]
  refine mem_calls_signals_iff.mpr ⟨?_, hkeyword⟩
  rcases mem_occurrences_or_isOpenBracket hname hbefore lead rest with
    hfound | ⟨inside, callee, lead', hsame, hsome, -, -⟩
  · exact hfound
  · -- the earlier match ends in a bracket, but the call in a name
    have hcallee : IsCallee front.getLast? name := isCallee_of_isIdentifier hname hbefore
    obtain ⟨init, d, rfl⟩ := (List.eq_nil_or_concat' name).resolve_left hcallee.ne_nil
    have hd : isNameChar d = true := hcallee.isNameChar_of_mem d (by simp)
    have hlast : (trimEnd (inside ++ (init ++ [d] ++ lead.text))).getLast? = some d :=
      getLast?_trimEnd_eq_some_iff.mpr
        ⟨inside ++ init, gap, by simp [hlead], isBlank_eq_false_of_isNameChar hd, hgap⟩
    rw [← hsame, CallLead.getLast?_trimEnd hsome] at hlast
    exact absurd (Option.some.inj hlast).symm (ne_of_isIn hd (by decide))

/-- Behind a comparison, and over a line break, a call is found. -/
theorem load_mem_calls :
    isIdentifier "load".toList = true ∧ String.ofList "load".toList ∉ callKeywords ∧
      (∀ c ∈ "run(a < b, ".toList.getLast?, isNameChar c = false) ∧
      (∀ c ∈ "\n  ".toList, isBlank c = true) ∧
      String.ofList "load".toList ∈
        (signals ("run(a < b, ".toList ++ ("load".toList ++ ("\n  ".toList ++
          '(' :: "x) > c);".toList)))).calls := by
  have hname : isIdentifier "load".toList = true := by decide
  have hkeyword : String.ofList "load".toList ∉ callKeywords := by decide
  have hbefore : ∀ c ∈ "run(a < b, ".toList.getLast?, isNameChar c = false := by simp; decide
  have hgap : ∀ c ∈ "\n  ".toList, isBlank c = true := by simp; decide
  exact ⟨hname, hkeyword, hbefore, hgap, mem_calls_of_direct hname hkeyword hbefore hgap⟩

/-- A list of type arguments that is open is closed by the last bracket of the characters that
follow it, if they are of its kind. -/
lemma IsOpenBracket.exists_lead {callee front cs : List Char} (h : IsOpenBracket callee front)
    (hcs : ∀ c ∈ cs, isTypeArgumentChar c = true) (hlast : (trimEnd cs).getLast? = some '>') :
    ∃ (outside inside : List Char) (whole : CallLead), front = outside ++ (callee ++ inside) ∧
      IsCallee outside.getLast? callee ∧ whole.text = inside ++ cs := by
  obtain ⟨outside, gap, inside, rfl, hcallee, hgap, hinside⟩ := h
  obtain ⟨types, openGap, rfl, -, hopenGap⟩ := getLast?_trimEnd_eq_some_iff.mp hlast
  have htypes : ∀ c ∈ types, isTypeArgumentChar c = true :=
    fun c hc => hcs c (List.mem_append_left _ hc)
  let whole : CallLead := ⟨gap,
    some ⟨inside ++ types, List.forall_mem_append.mpr ⟨hinside, htypes⟩⟩, openGap, hgap, hopenGap⟩
  have hwhole : whole.text = gap ++ '<' :: inside ++ (types ++ '>' :: openGap) := by
    simp [whole, CallLead.text, TypeArguments.text]
  exact ⟨outside, gap ++ '<' :: inside, whole, rfl, hcallee, hwhole⟩

/-- Where a list of type arguments is open in front of a generic call, the search finds the callee
of such a list. -/
lemma IsOpenBracket.exists_mem_occurrences {callee front name : List Char}
    (h : IsOpenBracket callee front) (lead : CallLead) (rest : List Char)
    (hname : isIdentifier name = true) (hbefore : ∀ c ∈ front.getLast?, isNameChar c = false)
    (hdollar : '$' ∉ name) (hlead : lead.arguments.isSome = true) :
    ∃ found ∈ callPattern.occurrences (front ++ (name ++ (lead.text ++ '(' :: rest))),
      IsOpenBracket found front := by
  have hchars : ∀ c ∈ name ++ lead.text, isTypeArgumentChar c = true := by
    refine List.forall_mem_append.mpr ⟨fun c hc => ?_, lead.isTypeArgumentChar_of_mem_text⟩
    rcases Bool.or_eq_true_iff.mp ((isCallee_of_isIdentifier hname hbefore).isNameChar_of_mem c hc)
      with h | h
    · exact isTypeArgumentChar_of_isWord h
    · exact absurd (beq_iff_eq.mp h ▸ hc) hdollar
  obtain ⟨outside, inside, whole, rfl, hcallee, hwhole⟩ :=
    h.exists_lead hchars (CallLead.getLast?_trimEnd hlead name)
  have htext : callee ++ (whole.text ++ '(' :: rest) =
      callee ++ inside ++ (name ++ (lead.text ++ '(' :: rest)) := by
    rw [hwhole]
    simp
  have hmatch : callPattern outside.getLast? (callee ++ (whole.text ++ '(' :: rest)) =
      some (callee, callee.length + (whole.text.length + 1)) :=
    callPattern_eq_some_iff.mpr ⟨hcallee, whole, rest, rfl, rfl⟩
  rw [List.append_assoc outside, ← htext]
  rcases Pattern.mem_occurrences_or_reached (by simp) hmatch with
    hfound | ⟨outside', inside', found, n, rfl, hne, hearlier, hn, hfound⟩
  · exact ⟨callee, hfound, h⟩
  · -- what reaches over the callee reaches over the call as well
    obtain ⟨hearly, lead', rest', heq, rfl⟩ := callPattern_eq_some_iff.mp hearlier
    have hn' : (inside' ++ (callee ++ inside)).length < found.length + (lead'.text.length + 1) := by
      have hsame := congrArg List.length (eq_append_of_reached hcallee hearly heq.symm hn)
      rw [hwhole] at hsame
      simp only [List.length_append] at hsame ⊢
      omega
    have hne' : inside' ++ (callee ++ inside) ≠ [] := by simp [hne]
    rw [List.append_assoc outside', List.getLast?_append_of_ne_nil outside' hne'] at hbefore
    rw [htext, ← List.append_assoc inside'] at hearlier
    obtain ⟨-, -, -, hbracket, -⟩ := isOpenBracket_of_reached hname hne' hbefore hearlier hn'
    exact ⟨found, hfound, by rwa [List.append_assoc outside']⟩

/-- **Generic calls are found** where no list of type arguments is open in front of them.  Where one
is open, as it seems to be behind a comparison, the callee of such a list is what is found at the
parenthesis, unless it is a keyword; only a dollar sign in the name keeps the list from reaching
over the call. -/
theorem mem_calls_of_generic {text front name types gap rest : List Char}
    (htext : text = front ++ (name ++ ('<' :: (types ++ '>' :: (gap ++ '(' :: rest)))))
    (hname : isIdentifier name = true) (hkeyword : String.ofList name ∉ callKeywords)
    (hbefore : ∀ c ∈ front.getLast?, isNameChar c = false)
    (htypes : closesTypes 0 types = true) (hgap : ∀ c ∈ gap, isBlank c = true) :
    ('$' ∈ name ∨ (¬∃ callee, IsOpenBracket callee front) →
      String.ofList name ∈ (signals text).calls) ∧
    ('$' ∉ name → (∃ callee, IsOpenBracket callee front) → ∃ callee, IsOpenBracket callee front ∧
      (String.ofList callee ∈ callKeywords ∨ String.ofList callee ∈ (signals text).calls)) := by
  let lead : CallLead :=
    ⟨[], some ⟨types, isTypeArgumentChar_of_closesTypes htypes⟩, gap, by simp, hgap⟩
  have htext : text = front ++ (name ++ (lead.text ++ '(' :: rest)) := by
    simp [htext, lead, CallLead.text, TypeArguments.text]
  subst htext
  constructor
  · intro hopen
    refine mem_calls_signals_iff.mpr ⟨?_, hkeyword⟩
    rcases mem_occurrences_or_isOpenBracket hname hbefore lead rest with
      hfound | ⟨-, callee, -, -, -, hbracket, hchars⟩
    · exact hfound
    · rcases hopen with hdollar | hopen
      · exact absurd (hchars '$' (List.mem_append_left _ hdollar)) (by decide)
      · exact absurd ⟨callee, hbracket⟩ hopen
  · rintro hdollar ⟨callee, hbracket⟩
    obtain ⟨found, hfound, hbracket⟩ :=
      hbracket.exists_mem_occurrences lead rest hname hbefore hdollar rfl
    refine ⟨found, hbracket, ?_⟩
    by_cases hk : String.ofList found ∈ callKeywords
    · exact Or.inl hk
    · exact Or.inr (mem_calls_signals_iff.mpr ⟨hfound, hk⟩)

/-- A test with a generic call behind a comparison that has come to its end. -/
def guardedCall : List Char := "if (a < b && items<List<int>> (x))".toList

/-- The generic call is found there. -/
theorem items_mem_calls_guardedCall :
    guardedCall = "if (a < b && ".toList ++ ("items".toList ++
      ('<' :: ("List<int>".toList ++ '>' :: (" ".toList ++ '(' :: "x))".toList)))) ∧
    isIdentifier "items".toList = true ∧ String.ofList "items".toList ∉ callKeywords ∧
    (∀ c ∈ "if (a < b && ".toList.getLast?, isNameChar c = false) ∧
    closesTypes 0 "List<int>".toList = true ∧ (∀ c ∈ " ".toList, isBlank c = true) ∧
    (¬∃ callee, IsOpenBracket callee "if (a < b && ".toList) ∧
    String.ofList "items".toList ∈ (signals guardedCall).calls := by
  have htext : guardedCall = "if (a < b && ".toList ++ ("items".toList ++
      ('<' :: ("List<int>".toList ++ '>' :: (" ".toList ++ '(' :: "x))".toList)))) := by decide
  have hname : isIdentifier "items".toList = true := by decide
  have hkeyword : String.ofList "items".toList ∉ callKeywords := by decide
  have hbefore : ∀ c ∈ "if (a < b && ".toList.getLast?, isNameChar c = false := by simp; decide
  have htypes : closesTypes 0 "List<int>".toList = true := by decide +kernel
  have hgap : ∀ c ∈ " ".toList, isBlank c = true := by simp; decide
  have hopen : ¬∃ callee, IsOpenBracket callee "if (a < b && ".toList := by
    rintro ⟨callee, h⟩
    exact not_isOpenBracket_of_run (by decide +kernel) h
  refine ⟨htext, hname, hkeyword, hbefore, htypes, hgap, hopen, ?_⟩
  exact (mem_calls_of_generic htext hname hkeyword hbefore htypes hgap).1 (Or.inr hopen)

/-- A test that compares a number with the result of a generic call. -/
def comparedCall : List Char := "count < items<int>(x)".toList

/-- The generic call behind a comparison is lost: the bracket of the comparison passes for that of a
list of type arguments, and what is compared for the callee. -/
theorem items_not_mem_calls :
    isIdentifier "items".toList = true ∧ String.ofList "items".toList ∉ callKeywords ∧
      (∀ c ∈ "count < ".toList.getLast?, isNameChar c = false) ∧
      closesTypes 0 "int".toList = true ∧
      comparedCall = "count < ".toList ++ ("items".toList ++
        ('<' :: ("int".toList ++ '>' :: ([] ++ '(' :: "x)".toList)))) ∧
      String.ofList "items".toList ∉ (signals comparedCall).calls := by
  refine ⟨by decide, by decide, by simp; decide, by decide +kernel, by decide, ?_⟩
  rw [mem_calls_signals_iff]
  decide +kernel

/-- In front of a callee stands nothing that goes on to it, or a dollar sign stands there, or the
callee starts with one. -/
lemma IsCallee.seam {before : Option Char} {name : List Char} (h : IsCallee before name) :
    (∀ c ∈ before, isNameChar c = false) ∨ before = some '$' ∨
      (∃ c ∈ before, isWord c = true) ∧ name.head? = some '$' := by
  cases name with
  | nil => exact h.elim
  | cons c cs =>
    obtain ⟨hstart, hboundary, -⟩ := h
    cases before with
    | none => exact Or.inl (by simp)
    | some d =>
      rw [atBoundary, Option.any_some, bne_iff_ne] at hboundary
      by_cases hd : isWord d = true
      · refine Or.inr (Or.inr ⟨⟨d, rfl, hd⟩, ?_⟩)
        -- of the characters that a name may start with, only the dollar sign is none of words
        rw [isNameStart, Bool.or_eq_true, Bool.or_eq_true, beq_iff_eq, beq_iff_eq] at hstart
        rcases hstart with (hc | rfl) | rfl
        · exact absurd (hd.trans (isWord_of_isAlpha hc).symm) hboundary
        · exact absurd (hd.trans (by decide)) hboundary
        · rfl
      · by_cases hdollar : d = '$'
        · exact Or.inr (Or.inl (by rw [hdollar]))
        · left
          intro e he
          obtain rfl : d = e := Option.some.inj he
          simp [isNameChar, hd, hdollar]

/-- **Calls are sound** but for dollar signs.  A name that is called is no keyword and stands
somewhere in the text with its parenthesis behind it, after blanks and an optional list of type
arguments.  The name ends there, and it starts there as well, unless a dollar sign stands in front
of it or is its first character. -/
theorem exists_call_of_mem_calls {text : List Char} {name : String}
    (h : name ∈ (signals text).calls) :
    name ∉ callKeywords ∧ ∃ (front : List Char) (lead : CallLead) (rest : List Char),
      text = front ++ (name.toList ++ (lead.text ++ '(' :: rest)) ∧
      (∀ c ∈ (lead.text ++ '(' :: rest).head?, isNameChar c = false) ∧
      ((∀ c ∈ front.getLast?, isNameChar c = false) ∨ front.getLast? = some '$' ∨
        (∃ c ∈ front.getLast?, isWord c = true) ∧ name.toList.head? = some '$') := by
  obtain ⟨cs, rfl⟩ : ∃ cs, name = String.ofList cs := ⟨name.toList, by simp⟩
  obtain ⟨hfound, hkeyword⟩ := mem_calls_signals_iff.mp h
  obtain ⟨front, back, n, rfl, hmatch⟩ := Pattern.exists_of_mem_occurrences hfound
  obtain ⟨hcallee, lead, rest, rfl, -⟩ := callPattern_eq_some_iff.mp hmatch
  rw [String.toList_ofList]
  exact ⟨hkeyword, front, lead, rest, rfl, lead.isNameChar_eq_false_of_head? rest, hcallee.seam⟩

/-- In a test without dollar signs, what is called starts behind something else. -/
theorem exists_call_build :
    "build" ∈ (signals "tester.build<Row> (x)".toList).calls ∧
      ∃ (front : List Char) (lead : CallLead) (rest : List Char),
        "tester.build<Row> (x)".toList = front ++ ("build".toList ++ (lead.text ++ '(' :: rest)) ∧
        ∀ c ∈ front.getLast?, isNameChar c = false := by
  have hmem : "build" ∈ (signals "tester.build<Row> (x)".toList).calls := by
    have hfound : String.ofList "build".toList ∈ (signals "tester.build<Row> (x)".toList).calls :=
      mem_calls_signals_iff.mpr (by decide +kernel)
    exact hfound
  obtain ⟨-, front, lead, rest, htext, -, hseam⟩ := exists_call_of_mem_calls hmem
  refine ⟨hmem, front, lead, rest, htext, ?_⟩
  rcases hseam with hwhole | hdollar | ⟨-, hdollar⟩
  · exact hwhole
  · have hmem : '$' ∈ "tester.build<Row> (x)".toList := by
      rw [htext]
      exact List.mem_append_left _ (List.mem_of_getLast? hdollar)
    exact absurd hmem (by decide)
  · exact absurd hdollar (by decide)

/-- A test that calls a function whose name starts with a dollar sign. -/
def dollarCall : List Char := "$load();".toList

/-- The end of the name is what is called, though it stands nowhere as a name of its own. -/
theorem load_mem_calls_dollarCall :
    "load" ∈ (signals dollarCall).calls ∧
      ∀ front back, dollarCall = front ++ ("load".toList ++ back) →
        ∃ c ∈ front.getLast?, isNameChar c = true := by
  constructor
  · have hload : String.ofList "load".toList ∈ (signals dollarCall).calls :=
      mem_calls_signals_iff.mpr (by decide +kernel)
    exact hload
  · intro front back h
    have hplaces : ∀ n < 9, "load".toList <+: dollarCall.drop n →
        (dollarCall.take n).getLast?.any isNameChar = true := by
      decide +kernel
    have hlength : front.length < 9 := by
      have := congrArg List.length h
      have hd : dollarCall.length = 8 := by decide
      simp only [List.length_append] at this
      omega
    have hlast := hplaces front.length hlength (by rw [h]; simp)
    rw [h, List.take_left] at hlast
    exact (Option.any_eq_true _ _).mp hlast

end CoverageEstimate.Dart

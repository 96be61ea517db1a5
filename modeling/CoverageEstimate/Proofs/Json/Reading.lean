/-
# Reading documents in any form

A reader reads a text as something (`Reads`) when it finds that and stops behind the text, whatever
space stands before it and whatever comes behind it.  The lists and objects of a document are read
item by item and member by member; the lemmas on these leave open what reads the items and the
values, since the readers by shapes go through the same steps.

`reads_value` puts them together: a value is read in every way of writing it.
-/
import CoverageEstimate.Json.Shape
import CoverageEstimate.Proofs.Json.Spelling

namespace CoverageEstimate.Json

/-! ## Reading containers -/

/-- The reader reads the text as `a`, whatever space stands before it and whatever comes behind. -/
def Reads {α : Type} (read : Reader α) (text : List Char) (a : α) : Prop :=
  ∀ space rest, AreSpaces space → Ends rest →
    read (pieces (space ++ text) ++ rest) = .ok (a, rest)

section Items

variable {α : Type} {item : Reader α} {space : List Char}

/-- The next item starts behind the space before it, and behind a comma if it is not the first. -/
lemma nextItem_joined (first : Bool) {p : Padded} (blank : AreSpaces space) (proper : p.IsProper)
    (others : List Padded) (rest : Input) :
    nextItem first (pieces space ++ (pieces (joined first (p :: others)) ++ rest)) =
      .ok (some (pieces p.text ++ (pieces p.after ++ (pieces (joined false others) ++ rest)))) := by
  obtain ⟨c, cs, htext, hc⟩ := proper.starts
  have hskip := skipSpace_start proper.before proper.starts
    (pieces p.after ++ (pieces (joined false others) ++ rest))
  rw [pieces_append, List.append_assoc] at hskip
  rw [htext, pieces_cons, List.cons_append] at hskip ⊢
  cases first with
  | true =>
    rw [joined, Padded.whole, htext, nextItem, skipSpace_append blank]
    simp only [pieces_append, pieces_cons, List.append_assoc, List.cons_append, hskip]
    split
    · rename_i heq
      exact absurd heq (by simp)
    · rename_i heq
      exact absurd (Text.Piece.char.inj (List.cons.inj heq).1) hc.not_bracket
    · rename_i heq
      exact absurd (Text.Piece.char.inj (List.cons.inj heq).1) hc.not_comma
    · rfl
  | false =>
    rw [joined, pieces_cons, List.cons_append, nextItem, skipSpace_before blank (by decide)]
    simp only [Bool.false_eq_true, if_false, Padded.whole, htext, pieces_append, pieces_cons,
      List.append_assoc, List.cons_append, hskip]
    split
    · rename_i heq
      exact absurd heq (by simp)
    · rename_i heq
      exact absurd (Text.Piece.char.inj (List.cons.inj heq).1) hc.not_bracket
    · rfl

lemma nextItem_end (first : Bool) (blank : AreSpaces space) (rest : Input) :
    nextItem first (pieces space ++ .char ']' :: rest) = .ok none := by
  rw [nextItem, skipSpace_before blank (by decide)]
  rfl

lemma closeList_end (blank : AreSpaces space) (rest : Input) :
    closeList (pieces space ++ .char ']' :: rest) = .ok rest := by
  rw [closeList, skipSpace_before blank (by decide)]
  rfl

/-- **Reading items.**  The items of a list are read up to the space before its closing bracket. -/
lemma readItems_joined {items : List (α × Padded)} (proper : ∀ e ∈ items, e.2.IsProper)
    (each : ∀ e ∈ items, Reads item e.2.text e.1) (first : Bool) (blank : AreSpaces space)
    {fuel : Nat} (enough : items.length < fuel) (rest : Input) :
    ∃ behind, AreSpaces behind ∧
      readItems item fuel first
          (pieces space ++ (pieces (joined first (items.map (·.2))) ++ .char ']' :: rest)) =
        .ok (items.map (·.1), pieces behind ++ .char ']' :: rest) := by
  induction items generalizing first space fuel with
  | nil =>
    obtain ⟨fuel, rfl⟩ := Nat.exists_eq_succ_of_ne_zero (Nat.ne_of_gt enough)
    refine ⟨space, blank, ?_⟩
    have hend := nextItem_end first blank rest
    simp only [List.map_nil, joined, pieces_nil, List.nil_append, readItems, hend, bind,
      Except.bind, pure, Except.pure]
  | cons e items ih =>
    obtain ⟨fuel, rfl⟩ := Nat.exists_eq_succ_of_ne_zero (Nat.ne_of_gt (Nat.zero_lt_of_lt enough))
    obtain ⟨hproper, hothers⟩ := List.forall_mem_cons.mp proper
    obtain ⟨hreads, heach⟩ := List.forall_mem_cons.mp each
    obtain ⟨behind, hbehind, hread⟩ :=
      ih hothers heach false hproper.after (Nat.lt_of_succ_lt_succ enough)
    refine ⟨behind, hbehind, ?_⟩
    have hnext := nextItem_joined first blank hproper (items.map (·.2)) (.char ']' :: rest)
    have hitem := hreads [] (pieces e.2.after ++
        (pieces (joined false (items.map (·.2))) ++ .char ']' :: rest)) areSpaces_nil
      (ends_append hproper.after (ends_joined _ (.inl rfl)))
    rw [List.nil_append] at hitem
    simp only [List.map_cons, readItems, hnext, hitem, hread, bind, Except.bind, pure, Except.pure]

end Items

section Members

variable {space : List Char}

/-- The next member starts behind the quote before its name, and behind a comma if it is not the
first. -/
lemma nextMember_joined (first : Bool) {m : MemberText} (blank : AreSpaces space)
    (spaced : m.IsSpaced) (others : List Padded) (rest : Input) :
    nextMember first (pieces space ++ (pieces (joined first (m.padded :: others)) ++ rest)) =
      .ok (some (pieces m.behindQuote ++
        (pieces m.after ++ (pieces (joined false others) ++ rest)))) := by
  have hskip := skipSpace_before spaced.before (c := '"') (by decide)
    (pieces m.behindQuote ++ (pieces m.after ++ (pieces (joined false others) ++ rest)))
  cases first with
  | true =>
    rw [joined, Padded.whole, MemberText.padded, nextMember, skipSpace_append blank]
    simp only [pieces_append, pieces_cons, List.append_assoc, List.cons_append, hskip]
    rfl
  | false =>
    rw [joined, pieces_cons, List.cons_append, nextMember, skipSpace_before blank (by decide)]
    simp only [Bool.false_eq_true, if_false, Padded.whole, MemberText.padded, pieces_append,
      pieces_cons, List.append_assoc, List.cons_append, hskip]

lemma nextMember_end (first : Bool) (blank : AreSpaces space) (rest : Input) :
    nextMember first (pieces space ++ .char '\x7d' :: rest) = .ok none := by
  rw [nextMember, skipSpace_before blank (by decide)]
  rfl

lemma closeObject_end (blank : AreSpaces space) (rest : Input) :
    closeObject (pieces space ++ .char '\x7d' :: rest) = .ok rest := by
  rw [closeObject, skipSpace_before blank (by decide)]
  rfl

lemma readColon_append (blank : AreSpaces space) (rest : Input) :
    readColon (pieces space ++ .char ':' :: rest) = .ok rest := by
  rw [readColon, skipSpace_before blank (by decide)]
  rfl

/-- The name of a member is read from behind its opening quote to behind its closing one. -/
lemma readText_behindQuote {m : MemberText} {name : String} (h : SpellsText name.toList m.name)
    (rest : Input) :
    readText (pieces m.behindQuote ++ rest) =
      .ok (name, pieces m.beforeColon ++
        .char ':' :: (pieces (m.behindColon ++ m.value) ++ rest)) := by
  have hread := readText_append h
    (pieces m.beforeColon ++ .char ':' :: (pieces (m.behindColon ++ m.value) ++ rest))
  rw [MemberText.behindQuote]
  simpa only [pieces_append, pieces_cons, List.append_assoc, List.cons_append] using hread

/-- **Reading members.**  The members of an object are read up to the space before its closing
brace. -/
lemma readMembers_joined {value : Reader Value} {members : List ((String × Value) × MemberText)}
    (spaced : ∀ e ∈ members, e.2.IsSpaced)
    (names : ∀ e ∈ members, SpellsText e.1.1.toList e.2.name)
    (values : ∀ e ∈ members, Reads value e.2.value e.1.2) (first : Bool) (blank : AreSpaces space)
    {fuel : Nat} (enough : members.length < fuel) (rest : Input) :
    ∃ behind, AreSpaces behind ∧
      readMembers value fuel first (pieces space ++
          (pieces (joined first (members.map (·.2.padded))) ++ .char '\x7d' :: rest)) =
        .ok (members.map (·.1), pieces behind ++ .char '\x7d' :: rest) := by
  induction members generalizing first space fuel with
  | nil =>
    obtain ⟨fuel, rfl⟩ := Nat.exists_eq_succ_of_ne_zero (Nat.ne_of_gt enough)
    refine ⟨space, blank, ?_⟩
    have hend := nextMember_end first blank rest
    simp only [List.map_nil, joined, pieces_nil, List.nil_append, readMembers, hend, bind,
      Except.bind, pure, Except.pure]
  | cons e members ih =>
    obtain ⟨fuel, rfl⟩ := Nat.exists_eq_succ_of_ne_zero (Nat.ne_of_gt (Nat.zero_lt_of_lt enough))
    obtain ⟨hspaced, hothers⟩ := List.forall_mem_cons.mp spaced
    obtain ⟨hname, hnames⟩ := List.forall_mem_cons.mp names
    obtain ⟨hvalue, hvalues⟩ := List.forall_mem_cons.mp values
    obtain ⟨behind, hbehind, hread⟩ :=
      ih hothers hnames hvalues false hspaced.after (Nat.lt_of_succ_lt_succ enough)
    refine ⟨behind, hbehind, ?_⟩
    have hnext := nextMember_joined first blank hspaced (members.map (·.2.padded))
      (.char '\x7d' :: rest)
    have hvalue := hvalue e.2.behindColon (pieces e.2.after ++
        (pieces (joined false (members.map (·.2.padded))) ++ .char '\x7d' :: rest))
      hspaced.behindColon (ends_append hspaced.after (ends_joined _ (.inr rfl)))
    simp only [List.map_cons, readMembers, hnext, readText_behindQuote hname,
      readColon_append hspaced.beforeColon, hvalue, hread, bind, Except.bind, pure, Except.pure]

end Members

/-! ## Reading values -/

/-- A number is read from its sign or its first digit on. -/
lemma readValue_numeral {n : Numeral} (proper : n.IsProper) {k : Number} (value : n.value? = some k)
    {rest : Input} (ends : Ends rest) {input : Input}
    (h : skipSpace input = pieces n.text ++ rest) (depth : Nat) :
    readValue depth input = .ok (.number k, rest) := by
  have hread := readNumber_unsignedText proper value ends
  rw [readValue, h, Numeral.text]
  cases hsign : n.negative with
  | true =>
    rw [hsign] at hread
    simp only [if_true, pieces_cons, List.cons_append, hread, bind, Except.bind, pure, Except.pure]
  | false =>
    obtain ⟨d, hd, cs, hcs⟩ := proper.exists_digit
    rw [hsign, hcs, pieces_cons, List.cons_append] at hread
    simp only [Bool.false_eq_true, if_false, hcs, pieces_cons, List.cons_append]
    -- a digit is none of the characters that start other values
    have hother {c : Char} (hc : c.isDigit = false) {more rest : Input}
        (heq : .char (Nat.digitChar d) :: more = Text.Piece.char c :: rest) : False :=
      digitChar_ne hd hc (Text.Piece.char.inj (List.cons.inj heq).1)
    split
    any_goals
      rename_i heq
      exact (hother (by decide) heq).elim
    · rename_i heq
      exact absurd heq (by simp)
    · rename_i heq
      obtain ⟨rfl, rfl⟩ := List.cons.inj heq
      simp only [digitValue?_digitChar hd, Option.isSome_some, if_true, hread, bind, Except.bind,
        pure, Except.pure]

/-- The fuel for the items of a list is enough. -/
lemma enough_listed {α : Type} {items : List (α × Padded)} (proper : ∀ e ∈ items, e.2.IsProper)
    (space : List Char) (rest : Input) :
    items.length <
      (pieces (space ++ (joined true (items.map (·.2)) ++ [']'])) ++ rest).length + 1 := by
  have hproper : ∀ p ∈ items.map (·.2), p.IsProper := List.forall_mem_map.mpr proper
  have hparts := length_le_length_joined true hproper
  rw [List.length_map] at hparts
  simp only [pieces, List.length_append, List.length_map]
  omega

/-- The fuel for the members of an object is enough. -/
lemma enough_members {α : Type} {members : List (α × MemberText)}
    (spaced : ∀ e ∈ members, e.2.IsSpaced) (space : List Char) (rest : Input) :
    members.length < (pieces (space ++ (joined true (members.map (·.2.padded)) ++ ['\x7d'])) ++
      rest).length + 1 := by
  have hproper : ∀ p ∈ members.map (·.2.padded), p.IsProper :=
    List.forall_mem_map.mpr fun e he => (spaced e he).isProper
  have hparts := length_le_length_joined true hproper
  rw [List.length_map] at hparts
  simp only [pieces, List.length_append, List.length_map]
  omega

/-- **Reading values.**  A value is read in every way of writing it, if it is not nested too far. -/
lemma reads_value {v : Value} {text : List Char} (h : Spells v text) {depth : Nat}
    (deep : v.depth ≤ depth) : Reads (readValue depth) text v := by
  induction h generalizing depth with
  | null =>
    intro space rest blank ends
    rw [readValue, skipSpace_start blank Spells.null.starts]
    rfl
  | yes =>
    intro space rest blank ends
    rw [readValue, skipSpace_start blank Spells.yes.starts]
    rfl
  | no =>
    intro space rest blank ends
    rw [readValue, skipSpace_start blank Spells.no.starts]
    rfl
  | number proper value =>
    intro space rest blank ends
    exact readValue_numeral proper value ends
      (skipSpace_start blank (Spells.number proper value).starts rest) depth
  | text h =>
    intro space rest blank ends
    have hread := readText_append h rest
    rw [readValue, skipSpace_start blank (Spells.text h).starts]
    simp only [pieces_cons, pieces_append, pieces_nil, List.cons_append, List.append_assoc,
      List.nil_append, hread, bind, Except.bind, pure, Except.pure]
  | @list inner items hblank proper each ih =>
    intro space rest blank ends
    obtain ⟨depth, rfl⟩ : ∃ n, depth = n + 1 := Nat.exists_eq_succ_of_ne_zero (by
      rw [Value.depth] at deep
      omega)
    have hitems : ∀ e ∈ items, Reads (readValue depth) e.2.text e.1 := fun e he => ih e he <|
      Nat.le_trans (Value.depth_le_itemsDepth (List.mem_map_of_mem he))
        (Nat.le_of_succ_le_succ deep)
    obtain ⟨behind, hbehind, hread⟩ := readItems_joined proper hitems true hblank
      (enough_listed proper inner rest) rest
    rw [readValue, skipSpace_start blank (Spells.list hblank proper each).starts]
    simp only [pieces_cons, pieces_append, pieces_nil, List.cons_append, List.append_assoc,
      List.nil_append] at hread ⊢
    simp only [hread, closeList_end hbehind, bind, Except.bind, pure, Except.pure]
  | @object inner members hblank spaced names values ih =>
    intro space rest blank ends
    obtain ⟨depth, rfl⟩ : ∃ n, depth = n + 1 := Nat.exists_eq_succ_of_ne_zero (by
      rw [Value.depth] at deep
      omega)
    have hvalues : ∀ e ∈ members, Reads (readValue depth) e.2.value e.1.2 := fun e he => ih e he <|
      Nat.le_trans (Value.depth_le_membersDepth (List.mem_map_of_mem he))
        (Nat.le_of_succ_le_succ deep)
    obtain ⟨behind, hbehind, hread⟩ := readMembers_joined spaced names hvalues true hblank
      (enough_members spaced inner rest) rest
    rw [readValue, skipSpace_start blank (Spells.object hblank spaced names values).starts]
    simp only [pieces_cons, pieces_append, pieces_nil, List.cons_append, List.append_assoc,
      List.nil_append] at hread ⊢
    simp only [hread, closeObject_end hbehind, bind, Except.bind, pure, Except.pure]

/-! ## Whole documents -/

lemma readEnd_append {space : List Char} (h : AreSpaces space) :
    readEnd (pieces space) = .ok () := by
  have hskip := skipSpace_append h []
  rw [List.append_nil] at hskip
  rw [readEnd, hskip]
  rfl

/-- A document that is read up to the space at its end is read as a whole. -/
lemma IsDocument.readEnd_of_reads {v : Value} {document : List Char} (h : IsDocument v document)
    {α : Type} {read : Reader α} {a : α}
    (reads : ∀ text, Spells v text → Reads read text a) :
    ∃ rest, read (pieces document) = .ok (a, rest) ∧ readEnd rest = .ok () := by
  obtain ⟨before, text, after, hbefore, htext, hafter, rfl⟩ := h
  have hread := reads text htext before (pieces after) hbefore (by
    simpa using ends_append hafter ends_nil)
  refine ⟨pieces after, ?_, readEnd_append hafter⟩
  rwa [← List.append_assoc, pieces_append]

/-- **Reading documents.**  A document of a value is read as that value, if this is not nested too
far. -/
lemma readDocument_of_isDocument {v : Value} {document : List Char} (h : IsDocument v document)
    (deep : v.depth ≤ greatestDepth) : readDocument (pieces document) = .ok v := by
  obtain ⟨rest, hread, hend⟩ := h.readEnd_of_reads fun text htext => reads_value htext deep
  simp only [readDocument, hread, hend, bind, Except.bind, pure, Except.pure]

end CoverageEstimate.Json

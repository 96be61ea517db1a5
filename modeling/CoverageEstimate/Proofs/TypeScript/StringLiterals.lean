/-
# Values of string literals

The value of a string literal is the text that the literal denotes in UTF-16, for all ways to write
a text, unless

* an escape by number gives one half of a character beyond the first plane, or
* a line or paragraph separator stands right behind an escaped carriage return, where the lexer takes
  the two for one line end.

In the first case the escape is left in the value as it is written, so the value has a backslash too
many; in the second case the separator is missing.
-/
import CoverageEstimate.Proofs.TypeScript.StringElements
import Mathlib.Data.List.Flatten

namespace CoverageEstimate.TypeScript

open Text (utf16 codeUnits IsSurrogate)
open StringElement

variable {src : Source} {pos stop fuel : ℕ} {quote c : Char} {rest : List Char}
  {d e : StringElement} {es : List StringElement}

/-! ## The elements that are kept -/

/-- The escape takes along the separator behind it. -/
def StringElement.Absorbs (d e : StringElement) : Prop :=
  d = continuation ['\r'] ∧ (e = plain '\u2028' ∨ e = plain '\u2029')

instance : DecidableRel StringElement.Absorbs := fun d e =>
  inferInstanceAs (Decidable (d = _ ∧ (e = _ ∨ e = _)))

/-- The elements without the separators that an escape before them takes along. -/
def kept : List StringElement → List StringElement
  | d :: e :: es => if d.Absorbs e then d :: kept es else d :: kept (e :: es)
  | [e] => [e]
  | [] => []

lemma kept_cons_of_not (h : ∀ e ∈ es.head?, ¬d.Absorbs e) : kept (d :: es) = d :: kept es := by
  cases es with
  | nil => rfl
  | cons e es => rw [kept, if_neg (h e rfl)]

lemma kept_cons_of_absorbs (h : d.Absorbs e) : kept (d :: e :: es) = d :: kept es := by
  rw [kept, if_pos h]

lemma not_absorbs_of_ne (h : d ≠ continuation ['\r']) : ∀ e ∈ es.head?, ¬d.Absorbs e :=
  fun _ _ habsorbs => h habsorbs.1

lemma kept_plain_append (cs : List Char) (es : List StringElement) :
    kept (cs.map plain ++ es) = cs.map plain ++ kept es := by
  induction cs with
  | nil => rfl
  | cons c cs ih =>
    rw [List.map_cons, List.cons_append, kept_cons_of_not (not_absorbs_of_ne (by simp)), ih,
      List.cons_append]

/-! ## The parts of a literal -/

lemma IsLiteral.of_append (front : List StringElement) {back : List StringElement}
    (h : IsLiteral quote (front ++ back)) : IsLiteral quote back where
  proper e he := h.proper e (List.mem_append_right front he)
  no_octal := h.no_octal.right_of_append

lemma IsLiteral.of_cons (h : IsLiteral quote (e :: es)) : IsLiteral quote es :=
  IsLiteral.of_append [e] h

@[simp] lemma literalText_nil : literalText [] = [] := rfl

@[simp] lemma literalText_cons (e : StringElement) (es : List StringElement) :
    literalText (e :: es) = e.text ++ literalText es := List.flatMap_cons

@[simp] lemma literalText_append (front back : List StringElement) :
    literalText (front ++ back) = literalText front ++ literalText back := List.flatMap_append

@[simp] lemma literalText_plain (cs : List Char) : literalText (cs.map plain) = cs := by
  induction cs with
  | nil => rfl
  | cons c cs ih => rw [List.map_cons, literalText_cons, ih]; rfl

@[simp] lemma flatMap_read_plain (cs : List Char) : (cs.map plain).flatMap read = cs := by
  induction cs with
  | nil => rfl
  | cons c cs ih => rw [List.map_cons, List.flatMap_cons, ih, read_of_code? rfl]; rfl

/-- The character stands for itself between the quotes. -/
def isPlain (quote c : Char) : Bool := c != quote && c != '\\' && c != '\n' && c != '\r'

lemma isPlain_iff : isPlain quote c = true ↔ (plain c).IsProper quote := by
  simp [isPlain, IsProper, and_assoc]

/-- Every element that does not stand for itself starts with a backslash. -/
lemma exists_text_eq_cons (hescape : ∀ c, e ≠ plain c) : ∃ text, e.text = '\\' :: text := by
  cases e with
  | plain c => exact absurd rfl (hescape c)
  | _ => exact ⟨_, rfl⟩

/-- What stands at the head of the rest of a literal. -/
lemma mem_head?_literalText (h : c ∈ (literalText es ++ quote :: rest).head?) :
    c = quote ∨ c = '\\' ∨ ∃ more, es = plain c :: more := by
  cases es with
  | nil => exact .inl (Option.some.inj h).symm
  | cons e es =>
    by_cases hplain : ∃ d, e = plain d
    · obtain ⟨d, rfl⟩ := hplain
      obtain rfl := Option.some.inj h
      exact .inr (.inr ⟨es, rfl⟩)
    · obtain ⟨text, htext⟩ := exists_text_eq_cons (not_exists.mp hplain)
      rw [literalText_cons, htext] at h
      exact .inr (.inl (Option.some.inj h).symm)

/-- A literal starts with a longest run of characters that stand for themselves. -/
lemma exists_plain_run (h : IsLiteral quote es) (rest : List Char) :
    ∃ (cs : List Char) (back : List StringElement), es = cs.map plain ++ back ∧
      (∀ c ∈ cs, isPlain quote c = true) ∧
        ∀ c ∈ (literalText back ++ quote :: rest).head?, isPlain quote c = false := by
  induction es with
  | nil =>
    refine ⟨[], [], rfl, by simp, ?_⟩
    intro c hc
    obtain rfl := Option.some.inj hc
    simp [isPlain]
  | cons e es ih =>
    by_cases hplain : ∃ c, e = plain c
    · obtain ⟨c, rfl⟩ := hplain
      obtain ⟨cs, back, rfl, hall, hstop⟩ := ih h.of_cons
      have hc := isPlain_iff.mpr (h.proper _ List.mem_cons_self)
      exact ⟨c :: cs, back, rfl, List.forall_mem_cons.mpr ⟨hc, hall⟩, hstop⟩
    · obtain ⟨text, htext⟩ := exists_text_eq_cons (not_exists.mp hplain)
      refine ⟨[], e :: es, rfl, by simp, ?_⟩
      intro c hc
      rw [literalText_cons, htext] at hc
      obtain rfl := Option.some.inj hc
      simp [isPlain]

/-- The value of the nodes of a literal. -/
def readNodes (src : Source) (nodes : List Node) : List Char :=
  (nodes.filter (·.kind.isNamed)).flatMap fun n => partValue n.kind (n.text src)

lemma readNodes_cons {kind : Kind} {nodes : List Node} {text : List Char}
    (hkind : kind.isNamed = true) (h : slice src pos stop = text) :
    readNodes src (.mk kind none pos stop [] :: nodes) =
      partValue kind text ++ readNodes src nodes := by
  subst h
  have hnamed : (Node.mk kind none pos stop []).kind.isNamed = true := hkind
  rw [readNodes, List.filter_cons, if_pos hnamed, List.flatMap_cons]
  rfl

/-! ### One part -/

lemma stringParts?_close (h : src[pos]? = some quote) :
    stringParts? src quote (fuel + 1) pos = some ([], pos) := by
  rw [stringParts?, h]
  simp

lemma stringParts?_fragment (fuel : ℕ) (h : src[pos]? = some c) (hc : isPlain quote c = true) :
    stringParts? src quote (fuel + 1) pos =
      (stringParts? src quote fuel (spanEnd (isPlain quote) src pos)).map fun r =>
        (.mk .stringFragment none pos (spanEnd (isPlain quote) src pos) [] :: r.1, r.2) := by
  obtain ⟨hquote, hslash, hfeed, hreturn⟩ := isPlain_iff.mp hc
  have hend : ¬(c == '\n' || c == '\r') = true := by simp [hfeed, hreturn]
  rw [stringParts?, h]
  simp only [beq_iff_eq, if_neg hquote, if_neg hslash, if_neg hend]
  rfl

lemma stringParts?_escape (h : src[pos]? = some '\\') (hquote : quote ≠ '\\')
    (hend : escapeEnd? src pos = some stop) :
    stringParts? src quote (fuel + 1) pos =
      (stringParts? src quote fuel stop).map fun r =>
        (.mk .escapeSequence none pos stop [] :: r.1, r.2) := by
  rw [stringParts?, h]
  simp only [beq_iff_eq, hquote.symm, if_false, if_true, hend]
  rfl

/-! ### All parts -/

/-- The parts from an offset on end where the elements do, and their value is that of the kept
elements. -/
def HasParts (src : Source) (quote : Char) (fuel pos : ℕ) (es : List StringElement) : Prop :=
  ∃ parts, stringParts? src quote fuel pos = some (parts, pos + (literalText es).length) ∧
    readNodes src parts = (kept es).flatMap read

variable {back : List StringElement}

/-- One more part covers some more elements. -/
lemma HasParts.extend (kind : Kind) (front : List StringElement)
    (h : HasParts src quote fuel (pos + (literalText front).length) back)
    (hkind : kind.isNamed = true) (hat : remaining src pos = literalText front ++ rest)
    (hpart : stringParts? src quote (fuel + 1) pos =
      (stringParts? src quote fuel (pos + (literalText front).length)).map fun r =>
        (.mk kind none pos (pos + (literalText front).length) [] :: r.1, r.2))
    (hvalue : partValue kind (literalText front) ++ (kept back).flatMap read =
      (kept (front ++ back)).flatMap read) :
    HasParts src quote (fuel + 1) pos (front ++ back) := by
  obtain ⟨parts, hparts, hread⟩ := h
  let part : Node := .mk kind none pos (pos + (literalText front).length) []
  refine ⟨part :: parts, hpart.trans ?_, ?_⟩
  · rw [hparts, literalText_append, List.length_append, Option.map_some, Nat.add_assoc]
  · rw [readNodes_cons hkind (slice_of_remaining hat), hread, hvalue]

/-- A run of characters that stand for themselves is one part. -/
lemma hasParts_run {cs : List Char} (hne : cs ≠ [])
    (hat : remaining src pos = cs ++ (literalText back ++ quote :: rest))
    (hall : ∀ c ∈ cs, isPlain quote c = true)
    (hstop : ∀ c ∈ (literalText back ++ quote :: rest).head?, isPlain quote c = false)
    (h : HasParts src quote fuel (pos + cs.length) back) :
    HasParts src quote (fuel + 1) pos (cs.map plain ++ back) := by
  obtain ⟨c, more, rfl⟩ := List.exists_cons_of_ne_nil hne
  have hspan := spanEnd_of_remaining hat hall hstop
  have hpart := stringParts?_fragment fuel (getElem?_of_remaining hat)
    (hall c List.mem_cons_self)
  rw [hspan] at hpart
  rw [← literalText_plain (c :: more)] at hat h hpart
  refine h.extend .stringFragment _ rfl hat hpart ?_
  rw [literalText_plain, kept_plain_append, List.flatMap_append, flatMap_read_plain]
  rfl

/-- An escape that takes nothing along is one part. -/
lemma hasParts_escape (hquote : quote ≠ '\\') (hes : e.IsProper quote) (hescape : ∀ c, e ≠ plain c)
    (hat : remaining src pos = e.text ++ rest)
    (hend : escapeEnd? src pos = some (pos + e.text.length))
    (hkept : ∀ d ∈ back.head?, ¬e.Absorbs d)
    (h : HasParts src quote fuel (pos + e.text.length) back) :
    HasParts src quote (fuel + 1) pos (e :: back) := by
  obtain ⟨text, htext⟩ := exists_text_eq_cons hescape
  have hfirst : src[pos]? = some '\\' := by
    rw [htext] at hat
    exact getElem?_of_remaining hat
  have hsingle : literalText [e] = e.text := List.append_nil _
  rw [← hsingle] at hat h hend
  refine h.extend .escapeSequence [e] rfl hat (stringParts?_escape hfirst hquote hend) ?_
  rw [hsingle, partValue_text hes hescape, List.singleton_append, kept_cons_of_not hkept]
  rfl

/-- An escape with the separator that it takes along is one part.  Only behind a carriage return does
this change the value. -/
lemma hasParts_taken (hquote : quote ≠ '\\') (he : e = continuation ['\r'] ∨ e = single '?')
    (hc : c = '\u2028' ∨ c = '\u2029')
    (hat : remaining src pos = e.text ++ c :: rest)
    (h : HasParts src quote fuel (pos + 3) back) :
    HasParts src quote (fuel + 1) pos (e :: plain c :: back) := by
  have hline : isLineEnd c = true := by rcases hc with rfl | rfl <;> rfl
  have hlength : (literalText [e, plain c]).length = 3 := by rcases he with rfl | rfl <;> rfl
  have hend : src[pos]? = some '\\' ∧ escapeEnd? src pos = some (pos + 3) := by
    rcases he with rfl | rfl
    · exact ⟨getElem?_of_remaining hat, escapeEnd?_taken hat (.inl rfl) hline⟩
    · exact ⟨getElem?_of_remaining hat, escapeEnd?_taken hat (.inr rfl) hline⟩
  have htext : literalText [e, plain c] ++ rest = e.text ++ c :: rest := by simp [text]
  rw [← htext] at hat
  rw [← hlength] at h hend
  refine h.extend .escapeSequence [e, plain c] rfl hat (stringParts?_escape hend.1 hquote hend.2) ?_
  rcases he with rfl | rfl
  · have habsorbs : (continuation ['\r']).Absorbs (plain c) := by
      rcases hc with rfl | rfl <;> decide
    rw [List.cons_append, List.singleton_append, kept_cons_of_absorbs habsorbs]
    rfl
  · have hrun : kept (plain c :: back) = plain c :: kept back := kept_plain_append [c] back
    rw [List.cons_append, List.singleton_append, kept_cons_of_not (not_absorbs_of_ne (by simp)),
      hrun, List.flatMap_cons, List.flatMap_cons, read_of_code? rfl, read_of_code? rfl]
    rfl

/-- A line end that stands in a literal for itself is a separator. -/
lemma exists_separator_of_isLineEnd (hes : IsLiteral quote es) (hquote : isLineEnd quote = false)
    (hc : c ∈ (literalText es ++ quote :: rest).head?) (hline : isLineEnd c = true) :
    ∃ back, es = plain c :: back ∧ (c = '\u2028' ∨ c = '\u2029') := by
  rcases mem_head?_literalText hc with rfl | rfl | ⟨back, rfl⟩
  · exact absurd hline (by simp [hquote])
  · exact absurd hline (by decide)
  · have hfeed := (hes.proper _ List.mem_cons_self).2.2.1
    exact ⟨back, rfl, by simpa [isLineEnd, hfeed] using hline⟩

/-- No digit stands behind a zero. -/
lemma isDigit_head_of_null (hes : IsLiteral quote (null :: es)) (hquote : quote.isDigit = false)
    (hc : c ∈ (literalText es ++ quote :: rest).head?) : c.isDigit = false := by
  rcases mem_head?_literalText hc with rfl | rfl | ⟨back, rfl⟩
  · exact hquote
  · rfl
  · have hchain := (List.isChain_cons_cons.mp hes.no_octal).1
    by_contra hdigit
    exact hchain ⟨rfl, Bool.eq_true_of_not_eq_false hdigit⟩

/-- The parts of a literal are found up to its closing quote. -/
lemma hasParts_of_isLiteral (hquote : quote = '"' ∨ quote = '\'') (hes : IsLiteral quote es)
    (hat : remaining src pos = literalText es ++ quote :: rest) (hfuel : es.length < fuel) :
    HasParts src quote fuel pos es := by
  have hslash : quote ≠ '\\' := by rcases hquote with rfl | rfl <;> decide
  have hdigit : quote.isDigit = false := by rcases hquote with rfl | rfl <;> decide
  have hlineEnd : isLineEnd quote = false := by rcases hquote with rfl | rfl <;> decide
  -- every part takes at least one element, so the fuel lasts
  induction fuel generalizing pos es with
  | zero => exact absurd hfuel (Nat.not_lt_zero _)
  | succ fuel ih =>
    rcases es with _ | ⟨e, es⟩
    · exact ⟨[], stringParts?_close (getElem?_of_remaining hat), rfl⟩
    by_cases hplain : ∃ c, e = plain c
    · obtain ⟨c, rfl⟩ := hplain
      obtain ⟨cs, back, hsplit, hall, hstop⟩ := exists_plain_run hes rest
      have hne : cs ≠ [] := by
        rintro rfl
        obtain rfl : plain c :: es = back := hsplit
        have hc := isPlain_iff.mpr (hes.proper _ List.mem_cons_self)
        exact absurd hc (by simp [hstop c rfl])
      have hlength : 0 < cs.length := List.length_pos_iff.mpr hne
      rw [hsplit] at hes hfuel hat ⊢
      rw [List.length_append, List.length_map] at hfuel
      rw [literalText_append, literalText_plain, List.append_assoc] at hat
      exact hasParts_run hne hat hall hstop (ih (hes.of_append _) (remaining_add _ hat) (by omega))
    have hescape := not_exists.mp hplain
    rw [literalText_cons, List.append_assoc] at hat
    rw [List.length_cons] at hfuel
    by_cases htaken : (e = continuation ['\r'] ∨ e = single '?') ∧
        ∃ c ∈ (literalText es ++ quote :: rest).head?, isLineEnd c = true
    · obtain ⟨he, c, hc, hline⟩ := htaken
      obtain ⟨back, rfl, hsep⟩ := exists_separator_of_isLineEnd hes.of_cons hlineEnd hc hline
      have hbehind : remaining src (pos + 3) = literalText back ++ quote :: rest := by
        have hnext := remaining_succ (remaining_add _ hat)
        rcases he with rfl | rfl <;> exact hnext
      rw [List.length_cons] at hfuel
      exact hasParts_taken hslash he hsep hat (ih hes.of_cons.of_cons hbehind (by omega))
    · have hproper := hes.proper e List.mem_cons_self
      have hline : e = continuation ['\r'] ∨ e = single '?' →
          ∀ c ∈ (literalText es ++ quote :: rest).head?, isLineEnd c = false := by
        intro he c hc
        by_contra hline
        exact htaken ⟨he, c, hc, Bool.eq_true_of_not_eq_false hline⟩
      have hkept : ∀ d ∈ es.head?, ¬e.Absorbs d := by
        rintro d hd ⟨rfl, hsep⟩
        obtain ⟨back, rfl⟩ := List.head?_eq_some_iff.mp hd
        rcases hsep with rfl | rfl
        · exact absurd (hline (.inl rfl) _ rfl) (by decide)
        · exact absurd (hline (.inl rfl) _ rfl) (by decide)
      have hoctal : e = null →
          ∀ c ∈ (literalText es ++ quote :: rest).head?, c.isDigit = false := by
        rintro rfl c hc
        exact isDigit_head_of_null hes hdigit hc
      have hend := escapeEnd?_of_remaining hproper hescape hat hoctal hline
      exact hasParts_escape hslash hproper hescape hat hend hkept
        (ih hes.of_cons (remaining_add _ hat) (by omega))

/-! ## What is read and what is denoted -/

namespace StringElement

lemma units_of_code? {n : ℕ} (h : e.code? = some n) : e.units = codeUnits n := by
  rw [units, h]
  rfl

/-- An element that gives no half is read as what it denotes. -/
lemma utf16_read (h : e.IsProper quote) (hhalf : ¬e.IsHalf) : utf16 e.read = e.units := by
  cases hcode : e.code? with
  | none => rw [read, units, hcode]; rfl
  | some n =>
    have hvalid : n.isValidChar :=
      (Text.isValidChar_iff (code_le h hcode)).mpr fun hsurrogate => hhalf ⟨n, hcode, hsurrogate⟩
    have hchar : e.code? = some (Char.ofNat n).toNat := by
      rw [hcode, Char.ofNat, dif_pos hvalid]
      rfl
    rw [read_of_code? hchar, units_of_code? hchar, Text.utf16_cons, Text.utf16_nil,
      List.append_nil]

/-- A half is an escape, since no character is one. -/
lemma IsHalf.ne_plain (h : e.IsHalf) : ∀ c, e ≠ plain c := by
  rintro c rfl
  obtain ⟨n, hn, hsurrogate⟩ := h
  obtain rfl := Option.some.inj hn
  exact Text.not_isSurrogate c hsurrogate

/-- A half is read as it is written, with its backslash, which it does not denote. -/
lemma count_units_lt (h : e.IsProper quote) (hhalf : e.IsHalf) :
    e.units.count ('\\').toNat < (utf16 e.read).count ('\\').toNat := by
  obtain ⟨text, htext⟩ := exists_text_eq_cons hhalf.ne_plain
  obtain ⟨n, hcode, hsurrogate⟩ := hhalf
  have hvalid : ¬n.isValidChar := fun hvalid =>
    (Text.isValidChar_iff (code_le h hcode)).mp hvalid hsurrogate
  have hread : e.read = e.text := by
    rw [read, hcode]
    exact if_neg hvalid
  have hbackslash : '\\' ∈ e.read := by
    rw [hread, htext]
    exact List.mem_cons_self
  have hnone : e.units.count ('\\').toNat = 0 := by
    rw [IsSurrogate] at hsurrogate
    rw [units_of_code? hcode, Text.codeUnits_of_lt (by omega), List.count_eq_zero,
      List.mem_singleton]
    intro heq
    have hsmall : ('\\').toNat < 0xD800 := by decide
    omega
  rw [hnone]
  exact List.count_pos_iff.mpr (Text.mem_utf16_of_mem hbackslash (by decide))

lemma count_units_le (h : e.IsProper quote) :
    e.units.count ('\\').toNat ≤ (utf16 e.read).count ('\\').toNat := by
  by_cases hhalf : e.IsHalf
  · exact (count_units_lt h hhalf).le
  · rw [utf16_read h hhalf]

end StringElement

@[simp] lemma literalUnits_cons (e : StringElement) (es : List StringElement) :
    literalUnits (e :: es) = e.units ++ literalUnits es := List.flatMap_cons

lemma utf16_flatMap_read (h : ∀ e ∈ es, e.IsProper quote) (hhalf : ∀ e ∈ es, ¬e.IsHalf) :
    utf16 (es.flatMap read) = literalUnits es := by
  induction es with
  | nil => rfl
  | cons e es ih =>
    rw [List.forall_mem_cons] at h hhalf
    rw [List.flatMap_cons, Text.utf16_append, utf16_read h.1 hhalf.1, ih h.2 hhalf.2,
      literalUnits_cons]

lemma count_literalUnits_le (h : ∀ e ∈ es, e.IsProper quote) :
    (literalUnits es).count ('\\').toNat ≤ (utf16 (es.flatMap read)).count ('\\').toNat := by
  induction es with
  | nil => exact Nat.le_refl _
  | cons e es ih =>
    rw [List.forall_mem_cons] at h
    rw [List.flatMap_cons, Text.utf16_append, literalUnits_cons, List.count_append,
      List.count_append]
    exact Nat.add_le_add (count_units_le h.1) (ih h.2)

/-- Where a half is written, more backslashes are read than denoted. -/
lemma count_literalUnits_lt (h : ∀ e ∈ es, e.IsProper quote) (hhalf : ∃ e ∈ es, e.IsHalf) :
    (literalUnits es).count ('\\').toNat < (utf16 (es.flatMap read)).count ('\\').toNat := by
  obtain ⟨e, he, hhalf⟩ := hhalf
  obtain ⟨front, back, rfl⟩ := List.append_of_mem he
  rw [List.forall_mem_append, List.forall_mem_cons] at h
  have hfront := count_literalUnits_le h.1
  have hback := count_literalUnits_le h.2.2
  have hlt := count_units_lt h.2.1 hhalf
  simp only [literalUnits, List.flatMap_append, List.flatMap_cons, Text.utf16_append,
    List.count_append] at hfront hback ⊢
  omega

/-! ### What is kept -/

lemma kept_sublist (es : List StringElement) : (kept es).Sublist es := by
  induction es using kept.induct with
  | case1 d e es habsorbs ih =>
    rw [kept_cons_of_absorbs habsorbs]
    exact (ih.cons e).cons_cons d
  | case2 d e es habsorbs ih =>
    rw [kept, if_neg habsorbs]
    exact ih.cons_cons d
  | case3 e => exact List.Sublist.refl _
  | case4 => exact List.Sublist.refl _

lemma proper_kept (h : ∀ e ∈ es, e.IsProper quote) : ∀ e ∈ kept es, e.IsProper quote :=
  fun e he => h e ((kept_sublist es).subset he)

/-- Only characters that stand for themselves are lost. -/
lemma mem_kept (hescape : ∀ c, e ≠ plain c) (h : e ∈ es) : e ∈ kept es := by
  induction es using kept.induct with
  | case1 d f es habsorbs ih =>
    rw [kept_cons_of_absorbs habsorbs]
    rcases List.mem_cons.mp h with rfl | h
    · exact List.mem_cons_self
    · rcases List.mem_cons.mp h with rfl | h
      · rcases habsorbs.2 with hf | hf <;> exact absurd hf (hescape _)
      · exact List.mem_cons_of_mem d (ih h)
  | case2 d f es habsorbs ih =>
    rw [kept, if_neg habsorbs]
    rcases List.mem_cons.mp h with rfl | h
    · exact List.mem_cons_self
    · exact List.mem_cons_of_mem d (ih h)
  | case3 f => exact h
  | case4 => exact h

/-- What is lost is one code unit, and no backslash. -/
lemma units_of_absorbs (h : d.Absorbs e) : ∃ u, e.units = [u] ∧ u ≠ ('\\').toNat := by
  rcases h.2 with rfl | rfl
  · exact ⟨0x2028, rfl, by decide⟩
  · exact ⟨0x2029, rfl, by decide⟩

lemma count_literalUnits_kept (es : List StringElement) :
    (literalUnits (kept es)).count ('\\').toNat = (literalUnits es).count ('\\').toNat := by
  induction es using kept.induct with
  | case1 d e es habsorbs ih =>
    obtain ⟨u, hunits, hne⟩ := units_of_absorbs habsorbs
    rw [kept_cons_of_absorbs habsorbs, literalUnits_cons, literalUnits_cons, literalUnits_cons,
      hunits, List.count_append, List.count_append, List.singleton_append,
      List.count_cons_of_ne hne, ih]
  | case2 d e es habsorbs ih =>
    rw [kept, if_neg habsorbs, literalUnits_cons, literalUnits_cons d, List.count_append,
      List.count_append, ih]
  | case3 e => rfl
  | case4 => rfl

/-- Nothing is lost exactly when no escape takes a separator along. -/
lemma literalUnits_kept_eq_iff :
    literalUnits (kept es) = literalUnits es ↔ es.IsChain fun d e => ¬d.Absorbs e := by
  induction es using kept.induct with
  | case1 d e es habsorbs ih =>
    obtain ⟨u, hunits, -⟩ := units_of_absorbs habsorbs
    have hshort := ((kept_sublist es).flatMap units).length_le
    refine iff_of_false ?_ fun hchain => (List.isChain_cons_cons.mp hchain).1 habsorbs
    intro heq
    have hlength := congrArg List.length heq
    rw [kept_cons_of_absorbs habsorbs] at hlength
    simp only [literalUnits, List.flatMap_cons, hunits, List.length_append,
      List.length_singleton] at hlength hshort
    omega
  | case2 d e es habsorbs ih =>
    rw [kept, if_neg habsorbs, literalUnits_cons, literalUnits_cons d, List.append_cancel_left_eq,
      ih, List.isChain_cons_cons, and_iff_right habsorbs]
  | case3 e => exact iff_of_true rfl (List.isChain_singleton e)
  | case4 => exact iff_of_true rfl List.isChain_nil

/-- What is read for the kept elements is the text that the elements denote exactly when no element
is a half and nothing is lost. -/
lemma flatMap_read_kept_eq_iff {s : List Char} (h : ∀ e ∈ es, e.IsProper quote)
    (hs : literalUnits es = utf16 s) :
    (kept es).flatMap read = s ↔
      (∀ e ∈ es, ¬e.IsHalf) ∧ es.IsChain fun d e => ¬d.Absorbs e := by
  have hproper := proper_kept h
  rw [← literalUnits_kept_eq_iff, hs]
  constructor
  · intro heq
    have hnone : ∀ e ∈ es, ¬e.IsHalf := by
      intro e he hhalf
      have hlt := count_literalUnits_lt hproper ⟨e, mem_kept hhalf.ne_plain he, hhalf⟩
      rw [count_literalUnits_kept, heq, hs] at hlt
      exact Nat.lt_irrefl _ hlt
    refine ⟨hnone, ?_⟩
    rw [← utf16_flatMap_read hproper fun e he => hnone e ((kept_sublist es).subset he), heq]
  · rintro ⟨hnone, hlost⟩
    refine Text.utf16_injective ?_
    rw [utf16_flatMap_read hproper fun e he => hnone e ((kept_sublist es).subset he), hlost]

/-! ## The value of a literal -/

/-- Where each escape gives one code unit, the halves are those of the characters beyond the first
plane. -/
lemma exists_isHalf_iff {s : List Char} (h : ∀ e ∈ es, e.IsProper quote)
    (hs : literalUnits es = utf16 s) (hunit : ∀ e ∈ es, ∃ digits, e = unit digits) :
    (∃ e ∈ es, e.IsHalf) ↔ ∃ c ∈ s, 0x10000 ≤ c.toNat := by
  have hunits : ∀ e ∈ es, ∃ n, e.code? = some n ∧ e.units = [n] := by
    intro e he
    obtain ⟨digits, rfl⟩ := hunit e he
    obtain ⟨hlength, hdigits⟩ := h _ he
    have hlt := hexNumber_lt hdigits
    rw [hlength] at hlt
    exact ⟨hexNumber digits, rfl, Text.codeUnits_of_lt hlt⟩
  rw [← Text.exists_surrogate_mem_utf16_iff, ← hs]
  constructor
  · rintro ⟨e, he, n, hn, hsurrogate⟩
    obtain ⟨m, hm, hsingle⟩ := hunits e he
    obtain rfl : m = n := Option.some.inj (hm.symm.trans hn)
    exact ⟨m, List.mem_flatMap.mpr ⟨e, he, hsingle ▸ List.mem_singleton_self m⟩, hsurrogate⟩
  · rintro ⟨u, hu, hsurrogate⟩
    obtain ⟨e, he, hmem⟩ := List.mem_flatMap.mp hu
    obtain ⟨n, hn, hsingle⟩ := hunits e he
    obtain rfl : u = n := List.mem_singleton.mp (hsingle ▸ hmem)
    exact ⟨e, he, u, hn, hsurrogate⟩

lemma length_le_literalText (es : List StringElement) : es.length ≤ (literalText es).length := by
  induction es with
  | nil => exact Nat.le_refl _
  | cons e es ih =>
    have htext : 0 < e.text.length := by cases e <;> exact Nat.succ_pos _
    rw [literalText_cons, List.length_cons, List.length_append]
    omega

/-- The node of a string that starts at `pos` and has its closing quote at `close`. -/
def stringNode (quote : Char) (pos close : ℕ) (parts : List Node) : Node :=
  let mark (p : ℕ) : Node := .mk (.token (String.singleton quote)) none p (p + 1) []
  .mk .string none pos (close + 1) (mark pos :: parts ++ [mark close])

/-- The quotes of a string add nothing to its value. -/
lemma stringValue_stringNode {close : ℕ} {parts : List Node} :
    stringValue src (stringNode quote pos close parts) = readNodes src parts := by
  simp [stringValue, stringNode, readNodes, Node.namedChildren, Node.children, Node.kind,
    Kind.isNamed]

lemma stringAt?_eq (hquote : quote = '"' ∨ quote = '\'') (h : src[pos]? = some quote) :
    stringAt? src pos = (stringParts? src quote (src.size - pos) (pos + 1)).map fun r =>
      stringNode quote pos r.2 r.1 := by
  have hmark : (quote == '"' || quote == '\'') = true := by rcases hquote with rfl | rfl <;> rfl
  rw [stringAt?, h]
  simp only [hmark, if_true]
  rfl

/-- A literal is lexed as one string, whose value is what is read for the kept elements. -/
lemma stringAt?_literal (hquote : quote = '"' ∨ quote = '\'') (hes : IsLiteral quote es)
    (hat : remaining src pos = quote :: (literalText es ++ quote :: rest)) :
    ∃ n, stringAt? src pos = some n ∧ n.start = pos ∧
      n.stop = pos + (literalText es).length + 2 ∧ stringValue src n = (kept es).flatMap read := by
  have hfuel : es.length < src.size - pos := by
    have hsize := congrArg List.length hat
    have hshort := length_le_literalText es
    rw [length_remaining, List.length_cons, List.length_append, List.length_cons] at hsize
    omega
  obtain ⟨parts, hparts, hread⟩ := hasParts_of_isLiteral hquote hes (remaining_succ hat) hfuel
  refine ⟨stringNode quote pos (pos + 1 + (literalText es).length) parts, ?_, rfl, ?_, ?_⟩
  · rw [stringAt?_eq hquote (getElem?_of_remaining hat), hparts, Option.map_some]
  · rw [stringNode, Node.stop]
    omega
  · rw [stringValue_stringNode, hread]

/-- **The value of a string literal is the text that the literal denotes, exactly when no escape
gives one half of a character and none takes a separator along.**  In particular, the literal that
writes each code unit of a text has the text as its value exactly when the text does not go beyond
the first plane. -/
theorem stringValue_eq_iff {s : List Char} (hquote : quote = '"' ∨ quote = '\'')
    (hes : IsLiteral quote es) (hs : literalUnits es = utf16 s)
    (hat : remaining src pos = quote :: (literalText es ++ quote :: rest)) :
    ∃ n, stringAt? src pos = some n ∧ n.start = pos ∧
      n.stop = pos + (literalText es).length + 2 ∧
      (stringValue src n = s ↔
        (∀ e ∈ es, ¬e.IsHalf) ∧ es.IsChain fun d e => ¬d.Absorbs e) ∧
      ((∀ e ∈ es, ∃ digits, e = unit digits) →
        (stringValue src n = s ↔ ∀ c ∈ s, c.toNat < 0x10000)) := by
  obtain ⟨n, hn, hstart, hstop, hvalue⟩ := stringAt?_literal hquote hes hat
  have hiff := flatMap_read_kept_eq_iff hes.proper hs
  rw [← hvalue] at hiff
  refine ⟨n, hn, hstart, hstop, hiff, fun hunit => ?_⟩
  have hchain : es.IsChain fun d e => ¬d.Absorbs e := by
    refine (List.pairwise_of_forall_mem_list ?_).isChain
    rintro d hd e - ⟨rfl, -⟩
    obtain ⟨digits, hdigits⟩ := hunit _ hd
    exact StringElement.noConfusion hdigits
  rw [hiff, and_iff_left hchain]
  have hhalf := exists_isHalf_iff hes.proper hs hunit
  constructor
  · intro hnone c hc
    by_contra hplane
    obtain ⟨e, he, hhalf⟩ := hhalf.mpr ⟨c, hc, by omega⟩
    exact hnone e he hhalf
  · intro hplane e he hhalfe
    obtain ⟨c, hc, hbeyond⟩ := hhalf.mp ⟨e, he, hhalfe⟩
    have := hplane c hc
    omega

/-- A literal with escapes of each sort. -/
def mixedLiteral : List StringElement :=
  [unit "0041".toList, byte "6C".toList, codePoint "1F600".toList, null, plain ' ', plain '\u2028',
    single '\'', single '"', continuation ['\r', '\n'], single 'n']

/-- A call whose title is that literal. -/
def mixedSource : Source := ("it(\"".toList ++ literalText mixedLiteral ++ "\", f);".toList).toArray

theorem stringValue_mixedLiteral :
    IsLiteral '"' mixedLiteral ∧ literalUnits mixedLiteral = utf16 "Al😀\x00 \u2028'\"\n".toList ∧
      ∃ n, stringAt? mixedSource 3 = some n ∧ n.stop = 37 ∧
        stringValue mixedSource n = "Al😀\x00 \u2028'\"\n".toList := by
  have hliteral : IsLiteral '"' mixedLiteral := ⟨by decide, by decide⟩
  have hunits : literalUnits mixedLiteral = utf16 "Al😀\x00 \u2028'\"\n".toList := by decide
  have hat : remaining mixedSource 3 = '"' :: (literalText mixedLiteral ++ '"' :: ", f);".toList) :=
    by decide
  obtain ⟨n, hn, -, hstop, hvalue, -⟩ :=
    stringValue_eq_iff (.inl rfl) hliteral hunits hat
  refine ⟨hliteral, hunits, n, hn, hstop, hvalue.mpr ⟨by decide, by decide⟩⟩

/-- A character beyond the first plane, as the two escapes of its halves. -/
def pairLiteral : List StringElement := [unit "D83D".toList, unit "DE00".toList]

/-- That literal alone. -/
def pairSource : Source := ("'".toList ++ literalText pairLiteral ++ "'".toList).toArray

theorem stringValue_pairLiteral_ne :
    IsLiteral '\'' pairLiteral ∧ literalUnits pairLiteral = utf16 ['😀'] ∧
      ∃ n, stringAt? pairSource 0 = some n ∧ stringValue pairSource n ≠ ['😀'] := by
  refine ⟨⟨by decide, by decide⟩, by decide, _, rfl, by decide⟩

end CoverageEstimate.TypeScript

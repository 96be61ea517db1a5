/-
# Elements of string literals

A string literal is a sequence of characters that stand for themselves and of escapes, and denotes a
sequence of code units in UTF-16: two escapes by number may together denote one character.

The reader takes each escape for itself.  So one element is looked at here: what the reader finds for
it (`StringElement.partValue_text`), and when the lexer ends an escape where the element ends
(`escapeEnd?_of_remaining`).
-/
import CoverageEstimate.Proofs.Text.Utf16
import CoverageEstimate.Proofs.TypeScript.Remaining
import CoverageEstimate.TypeScript.Literal
import Mathlib.Data.List.Chain
import Mathlib.Data.Nat.Digits.Defs

namespace CoverageEstimate.TypeScript

open Text (utf16 codeUnits IsSurrogate)

/-! ## What a literal denotes -/

/-- The digits of hexadecimal numbers. -/
def hexDigits : List Char := "0123456789abcdefABCDEF".toList

/-- The number of some hexadecimal digits, the first of which counts most. -/
def hexNumber (digits : List Char) : ℕ :=
  Nat.ofDigits 16 (digits.reverse.map fun c => hexDigits.idxOf c.toLower)

/-- The characters that end a line. -/
def lineEnds : List Char := ['\n', '\r', '\u2028', '\u2029']

/-- The character of an escape with one letter.  Most letters stand for themselves. -/
def singleEscape : Char → Char
  | 'b' => '\x08'
  | 't' => '\t'
  | 'n' => '\n'
  | 'v' => '\x0b'
  | 'f' => '\x0c'
  | 'r' => '\r'
  | c => c

/-- One piece of a string literal. -/
inductive StringElement where
  /-- A character that stands for itself. -/
  | plain (c : Char)
  /-- An escape with one letter. -/
  | single (c : Char)
  /-- The escape for the first character of all. -/
  | null
  /-- An escape by a number of two digits. -/
  | byte (digits : List Char)
  /-- An escape by a code unit, of four digits. -/
  | unit (digits : List Char)
  /-- An escape by a number between braces. -/
  | codePoint (digits : List Char)
  /-- An escaped line end, which denotes nothing. -/
  | continuation (lineEnd : List Char)
  deriving DecidableEq

namespace StringElement

/-- How the element is written. -/
def text : StringElement → List Char
  | plain c => [c]
  | single c => ['\\', c]
  | null => ['\\', '0']
  | byte digits => '\\' :: 'x' :: digits
  | unit digits => '\\' :: 'u' :: digits
  | codePoint digits => '\\' :: 'u' :: '\x7b' :: (digits ++ ['\x7d'])
  | continuation lineEnd => '\\' :: lineEnd

/-- The code point that the element denotes, if it denotes anything. -/
def code? : StringElement → Option ℕ
  | plain c => some c.toNat
  | single c => some (singleEscape c).toNat
  | null => some 0
  | byte digits | unit digits | codePoint digits => some (hexNumber digits)
  | continuation _ => none

/-- The element may stand in a literal with the quote. -/
def IsProper (quote : Char) : StringElement → Prop
  | plain c => c ≠ quote ∧ c ≠ '\\' ∧ c ≠ '\n' ∧ c ≠ '\r'
  | single c => c ≠ 'x' ∧ c ≠ 'u' ∧ c.isDigit = false ∧ c ∉ lineEnds
  | null => True
  | byte digits => digits.length = 2 ∧ digits ⊆ hexDigits
  | unit digits => digits.length = 4 ∧ digits ⊆ hexDigits
  | codePoint digits => digits ≠ [] ∧ digits ⊆ hexDigits ∧ hexNumber digits ≤ 0x10FFFF
  | continuation lineEnd => lineEnd = ['\r', '\n'] ∨ ∃ c ∈ lineEnds, lineEnd = [c]

instance (quote : Char) : DecidablePred (IsProper quote)
  | plain _ | single _ | byte _ | unit _ | codePoint _ => inferInstanceAs (Decidable (_ ∧ _))
  | null => inferInstanceAs (Decidable True)
  | continuation _ => inferInstanceAs (Decidable (_ ∨ _))

/-- The element is a digit that stands for itself. -/
def isDigit : StringElement → Bool
  | plain c => c.isDigit
  | _ => false

/-- The code units that the element denotes. -/
def units (e : StringElement) : List ℕ := e.code?.elim [] codeUnits

/-- The element gives one half of a character beyond the first plane. -/
def IsHalf (e : StringElement) : Prop := ∃ n ∈ e.code?, IsSurrogate n

instance : DecidablePred IsHalf := fun e => inferInstanceAs (Decidable (∃ n ∈ e.code?, _))

end StringElement

open StringElement

/-- How the elements are written. -/
def literalText (es : List StringElement) : List Char := es.flatMap text

/-- The code units that the elements denote. -/
def literalUnits (es : List StringElement) : List ℕ := es.flatMap units

/-- The elements may stand between two quotes.  No digit follows a zero, since the two would be an
escape by an octal number. -/
structure IsLiteral (quote : Char) (es : List StringElement) : Prop where
  proper : ∀ e ∈ es, e.IsProper quote
  no_octal : es.IsChain fun d e => ¬(d = null ∧ e.isDigit = true)

variable {src : Source} {pos : ℕ} {quote : Char} {e : StringElement} {es : List StringElement}

/-! ## What the reader finds for each element -/

namespace StringElement

/-- What the reader finds for an element: the character that the element denotes, or the element as
it is written where that is no character. -/
def read (e : StringElement) : List Char :=
  match e.code? with
  | none => []
  | some n => if n.isValidChar then [Char.ofNat n] else e.text

end StringElement

/-! ### Numbers -/

lemma hexDigits_spec : ∀ c ∈ hexDigits,
    isHexDigit c = true ∧ hexDigitValue? c = some (hexDigits.idxOf c.toLower) ∧
      hexDigits.idxOf c.toLower < 16 ∧ c ≠ '\x7b' ∧ c ≠ '\x7d' := by
  rw [← List.forall_iff_forall_mem]
  decide

lemma hexNumber_lt {digits : List Char} (h : digits ⊆ hexDigits) :
    hexNumber digits < 16 ^ digits.length := by
  have hdigits : ∀ d ∈ digits.reverse.map fun c => hexDigits.idxOf c.toLower, d < 16 := by
    intro d hd
    obtain ⟨c, hc, rfl⟩ := List.mem_map.mp hd
    exact (hexDigits_spec c (h (List.mem_reverse.mp hc))).2.2.1
  have hlt := Nat.ofDigits_lt_base_pow_length (by omega) hdigits
  rwa [List.length_map, List.length_reverse] at hlt

lemma hexValue?_eq {digits : List Char} (h : digits ⊆ hexDigits) (hne : digits ≠ [])
    (hlast : hexNumber digits ≤ 0x10FFFF) : hexValue? digits = some (hexNumber digits) := by
  have hvalues : digits.mapM hexDigitValue? =
      some (digits.map fun c => hexDigits.idxOf c.toLower) := by
    clear hne hlast
    induction digits with
    | nil => rfl
    | cons c digits ih =>
      obtain ⟨hc, hdigits⟩ := List.cons_subset.mp h
      rw [List.mapM_cons, (hexDigits_spec c hc).2.1, ih hdigits]
      rfl
  have hfold : (digits.map fun c => hexDigits.idxOf c.toLower).foldl (fun n d => n * 16 + d) 0 =
      hexNumber digits := by
    rw [hexNumber, Nat.ofDigits_eq_foldr, List.map_reverse, List.foldr_reverse]
    congr 1
    funext n d
    rw [Nat.cast_id]
    omega
  have hsmall : hexNumber digits < Nat.pow 2 32 := Nat.lt_of_le_of_lt hlast (by decide)
  rw [hexValue?, if_neg (by simpa using hne), hvalues]
  simp only [hfold, if_pos hsmall]

/-- The braces around digits are taken off. -/
lemma withoutBraces_append {front digits back : List Char} (hfront : ∀ c ∈ front, c = '\x7b')
    (hback : ∀ c ∈ back, c = '\x7d') (h : digits ⊆ hexDigits) (hne : digits ≠ []) :
    withoutBraces (front ++ (digits ++ back)) = digits := by
  have hopen : (front ++ (digits ++ back)).dropWhile (· == '\x7b') = digits ++ back := by
    rw [List.dropWhile_append_of_pos (by simpa using hfront)]
    obtain ⟨c, more, rfl⟩ := List.exists_cons_of_ne_nil hne
    have hc := (hexDigits_spec c (h List.mem_cons_self)).2.2.2.1
    exact List.dropWhile_cons_of_neg (by simpa using hc)
  have hclose : (digits ++ back).reverse.dropWhile (· == '\x7d') = digits.reverse := by
    rw [List.reverse_append, List.dropWhile_append_of_pos (by simpa using hback)]
    obtain ⟨front, c, rfl⟩ := List.eq_nil_or_concat digits |>.resolve_left hne
    have hc := (hexDigits_spec c (h (by simp))).2.2.2.2
    rw [List.concat_eq_append, List.reverse_append]
    exact List.dropWhile_cons_of_neg (by simpa using hc)
  rw [withoutBraces, hopen, hclose, List.reverse_reverse]

/-- An escape by number stands for the character with the number, or for itself. -/
lemma escapeValue_number {letter : Char} {digits : List Char} (front back : List Char)
    (hletter : letter = 'x' ∨ letter = 'u') (hfront : ∀ c ∈ front, c = '\x7b')
    (hback : ∀ c ∈ back, c = '\x7d') (h : digits ⊆ hexDigits) (hne : digits ≠ [])
    (hlast : hexNumber digits ≤ 0x10FFFF) :
    escapeValue (letter :: (front ++ (digits ++ back))) =
      if (hexNumber digits).isValidChar then [Char.ofNat (hexNumber digits)]
      else '\\' :: letter :: (front ++ (digits ++ back)) := by
  have hvalue : (hexValue? (withoutBraces (front ++ (digits ++ back)))).bind charOfCode? =
      if (hexNumber digits).isValidChar then some (Char.ofNat (hexNumber digits)) else none := by
    rw [withoutBraces_append hfront hback h hne, hexValue?_eq h hne hlast]
    rfl
  split_ifs at hvalue ⊢ with hvalid
  · rcases hletter with rfl | rfl <;> simp [escapeValue, hvalue]
  · rcases hletter with rfl | rfl <;> simp [escapeValue, hvalue]

/-! ### Escapes -/

lemma singleEscape_spec {c : Char} (hproper : (single c).IsProper quote) :
    escapeValue [c] = [singleEscape c] := by
  obtain ⟨hx, hu, hdigit, hline⟩ := hproper
  simp only [lineEnds, List.mem_cons, List.not_mem_nil, or_false, not_or] at hline
  have hzero : c ≠ '0' := by
    rintro rfl
    exact absurd hdigit (by decide)
  unfold singleEscape
  split <;> simp_all [escapeValue]

namespace StringElement

lemma read_of_code? {c : Char} (h : e.code? = some c.toNat) : e.read = [c] := by
  have hvalid : c.toNat.isValidChar := c.valid
  rw [read, h]
  simp only [if_pos hvalid, Char.ofNat_toNat]

/-- Nothing denotes more than the last code point. -/
lemma code_le {n : ℕ} (h : e.IsProper quote) (hn : e.code? = some n) : n ≤ 0x10FFFF := by
  have hchar (c : Char) : c.toNat ≤ 0x10FFFF := by
    have := Text.bounds_of_char c
    omega
  cases e with
  | plain c => exact Option.some.inj hn ▸ hchar c
  | single c => exact Option.some.inj hn ▸ hchar _
  | null => exact Option.some.inj hn ▸ Nat.zero_le _
  | byte digits =>
    have hlt := hexNumber_lt h.2
    rw [h.1] at hlt
    exact Option.some.inj hn ▸ by omega
  | unit digits =>
    have hlt := hexNumber_lt h.2
    rw [h.1] at hlt
    exact Option.some.inj hn ▸ by omega
  | codePoint digits => exact Option.some.inj hn ▸ h.2.2
  | continuation lineEnd => exact absurd hn (by simp [code?])

/-- An escape that the lexer finds for itself is read as what it denotes. -/
lemma partValue_text (h : e.IsProper quote) (hescape : ∀ c, e ≠ plain c) :
    partValue .escapeSequence e.text = e.read := by
  have hnumber {letter : Char} {digits : List Char} (hletter : letter = 'x' ∨ letter = 'u')
      (hdigits : digits ⊆ hexDigits) (hne : digits ≠ []) (hlast : hexNumber digits ≤ 0x10FFFF) :
      escapeValue (letter :: digits) =
        if (hexNumber digits).isValidChar then [Char.ofNat (hexNumber digits)]
        else '\\' :: letter :: digits := by
    have hplain := escapeValue_number [] [] hletter (by simp) (by simp)
      hdigits hne hlast
    simpa using hplain
  cases e with
  | plain c => exact absurd rfl (hescape c)
  | single c => exact (singleEscape_spec h).trans (read_of_code? rfl).symm
  | null => rfl
  | byte digits =>
    have hne : digits ≠ [] := List.ne_nil_of_length_pos (h.1 ▸ Nat.zero_lt_two)
    exact hnumber (.inl rfl) h.2 hne (code_le h rfl)
  | unit digits =>
    have hne : digits ≠ [] := List.ne_nil_of_length_pos (h.1 ▸ Nat.zero_lt_succ 3)
    exact hnumber (.inr rfl) h.2 hne (code_le h rfl)
  | codePoint digits =>
    exact escapeValue_number ['\x7b'] ['\x7d'] (.inr rfl) (by simp) (by simp)
      h.2.1 h.1 h.2.2
  | continuation lineEnd =>
    rcases h with rfl | ⟨c, hc, rfl⟩
    · rfl
    · have hnothing : ∀ c ∈ lineEnds, escapeValue [c] = [] := by simp [lineEnds, escapeValue]
      exact hnothing c hc

end StringElement

/-! ## Where the lexer ends an escape -/

variable {c d : Char} {digits rest : List Char}

lemma isHexDigit_of_subset (h : digits ⊆ hexDigits) : ∀ c ∈ digits, isHexDigit c = true :=
  fun c hc => (hexDigits_spec c (h hc)).1

lemma not_octal_of_not_digit (h : c.isDigit = false) : ('0' ≤ c && c ≤ '7') = false := by
  by_contra hoctal
  rw [Bool.not_eq_false, Bool.and_eq_true, decide_eq_true_eq, decide_eq_true_eq] at hoctal
  have hlast : '7' ≤ '9' := by decide
  have hdigit : c.isDigit = true := by
    rw [Char.isDigit, Bool.and_eq_true, decide_eq_true_eq, decide_eq_true_eq]
    exact ⟨hoctal.1, Char.le_trans hoctal.2 hlast⟩
  exact absurd hdigit (by simp [h])

lemma wordEscapeEnd?_unit (hat : remaining src pos = '\\' :: 'u' :: (digits ++ rest))
    (hlength : digits.length = 4) (h : digits ⊆ hexDigits) :
    wordEscapeEnd? src pos = some (pos + 6) := by
  obtain ⟨c, more, rfl⟩ := List.exists_cons_of_length_eq_add_one hlength
  have hbrace := (hexDigits_spec c (h List.mem_cons_self)).2.2.2.1
  have hopen : ¬standsAt src ['\\', 'u', '\x7b'] pos = true := by
    rw [standsAt_iff, hat]
    simpa [List.cons_prefix_cons] using hbrace.symm
  have hletter : standsAt src ['\\', 'u'] pos = true := by
    rw [standsAt_iff, hat]
    simp [List.cons_prefix_cons]
  have hbehind : remaining src (pos + 2) = c :: more ++ rest :=
    remaining_add ['\\', 'u'] hat
  rw [wordEscapeEnd?, if_neg hopen, if_pos hletter, ← hlength,
    takeExactly?_of_remaining hbehind (isHexDigit_of_subset h), hlength]

lemma wordEscapeEnd?_codePoint
    (hat : remaining src pos = '\\' :: 'u' :: '\x7b' :: (digits ++ '\x7d' :: rest))
    (hne : digits ≠ []) (h : digits ⊆ hexDigits) :
    wordEscapeEnd? src pos = some (pos + 3 + digits.length + 1) := by
  have hopen : standsAt src ['\\', 'u', '\x7b'] pos = true := by
    rw [standsAt_iff, hat]
    simp [List.cons_prefix_cons]
  have hbehind : remaining src (pos + 3) = digits ++ '\x7d' :: rest :=
    remaining_add ['\\', 'u', '\x7b'] hat
  have hspan : spanEnd isHexDigit src (pos + 3) = pos + 3 + digits.length :=
    spanEnd_of_remaining hbehind (isHexDigit_of_subset h) (by simp; decide)
  have hclose : src[pos + 3 + digits.length]? = some '\x7d' :=
    getElem?_of_remaining (remaining_add _ hbehind)
  have hlength : 0 < digits.length := List.length_pos_iff.mpr hne
  have hmore : pos + 3 < pos + 3 + digits.length := Nat.lt_add_of_pos_right hlength
  rw [wordEscapeEnd?, if_pos hopen, hspan]
  simp only [hclose, hmore, decide_true, beq_self_eq_true, Bool.and_true, if_true]

/-- An escape is a backslash with a letter when the letter starts no number and takes no line end
along. -/
lemma escapeEnd?_letter (hat : remaining src pos = '\\' :: c :: rest) (hx : c ≠ 'x') (hu : c ≠ 'u')
    (hdigit : c.isDigit = false)
    (hline : c = '\r' ∨ c = '?' → ∀ d ∈ rest.head?, isLineEnd d = false) :
    escapeEnd? src pos = some (pos + 2) := by
  have hbehind := remaining_succ hat
  have hnext : src[pos + 2]? = rest.head? := by
    rw [getElem?_eq_head?_remaining, remaining_succ hbehind]
  have hoctal : ¬('0' ≤ c && c ≤ '7') = true := by simp [not_octal_of_not_digit hdigit]
  have hbreak : ¬((c == '\r' || c == '?') && rest.head?.any isLineEnd) = true := by
    simp only [Bool.and_eq_true, Bool.or_eq_true, beq_iff_eq, Option.any_eq_true]
    rintro ⟨hc, d, hd, hend⟩
    exact absurd hend (by simp [hline hc d hd])
  simp only [escapeEnd?, getElem?_of_remaining hbehind, hnext, beq_iff_eq, if_neg hx, if_neg hu,
    if_neg hoctal, if_neg hbreak]

/-- A line end behind an escaped carriage return or question mark is taken along. -/
lemma escapeEnd?_taken (hat : remaining src pos = '\\' :: c :: d :: rest)
    (hc : c = '\r' ∨ c = '?') (hd : isLineEnd d = true) : escapeEnd? src pos = some (pos + 3) := by
  have hbehind := remaining_succ hat
  have hnext := getElem?_of_remaining (remaining_succ hbehind)
  rw [escapeEnd?, getElem?_of_remaining hbehind, hnext]
  rcases hc with rfl | rfl <;> simp [hd]

/-- The lexer ends an escape where the element ends, when what stands behind it does not continue an
octal number or a line end. -/
lemma escapeEnd?_of_remaining (h : e.IsProper quote) (hescape : ∀ c, e ≠ plain c)
    (hat : remaining src pos = e.text ++ rest)
    (hoctal : e = null → ∀ d ∈ rest.head?, d.isDigit = false)
    (hline : e = continuation ['\r'] ∨ e = single '?' → ∀ d ∈ rest.head?, isLineEnd d = false) :
    escapeEnd? src pos = some (pos + e.text.length) := by
  cases e with
  | plain c => exact absurd rfl (hescape c)
  | single c =>
    obtain ⟨hx, hu, hdigit, hend⟩ := h
    refine escapeEnd?_letter hat hx hu hdigit ?_
    rintro (rfl | rfl)
    · exact absurd hend (by decide)
    · exact hline (.inr rfl)
  | null =>
    have hbehind : remaining src (pos + 1) = ['0'] ++ rest := remaining_succ hat
    have hspan : spanEnd (fun d => '0' ≤ d && d ≤ '7') src (pos + 1) = pos + 1 + 1 :=
      spanEnd_of_remaining hbehind (by simp) fun d hd => not_octal_of_not_digit (hoctal rfl d hd)
    rw [escapeEnd?, getElem?_of_remaining hbehind]
    simp [hspan, text]
  | byte digits =>
    have hbehind : remaining src (pos + 1) = 'x' :: (digits ++ rest) := remaining_succ hat
    have hdigits : remaining src (pos + 2) = digits ++ rest := remaining_succ hbehind
    have htake := takeExactly?_of_remaining hdigits (isHexDigit_of_subset h.2)
    rw [h.1] at htake
    rw [escapeEnd?, getElem?_of_remaining hbehind]
    simpa [text, h.1] using htake
  | unit digits =>
    have hbehind : remaining src (pos + 1) = 'u' :: (digits ++ rest) := remaining_succ hat
    have hword := wordEscapeEnd?_unit hat h.1 h.2
    rw [escapeEnd?, getElem?_of_remaining hbehind]
    simpa [text, h.1] using hword
  | codePoint digits =>
    obtain ⟨hne, hdigits, -⟩ := h
    rw [text, List.cons_append, List.cons_append, List.cons_append, List.append_assoc] at hat
    have hword := wordEscapeEnd?_codePoint hat hne hdigits
    rw [escapeEnd?, getElem?_of_remaining (remaining_succ hat)]
    simpa [text, Nat.add_assoc, Nat.add_comm, Nat.add_left_comm] using hword
  | continuation lineEnd =>
    rcases h with rfl | ⟨c, hc, rfl⟩
    · exact escapeEnd?_taken hat (.inl rfl) rfl
    · have hletter : ∀ c ∈ lineEnds, c ≠ 'x' ∧ c ≠ 'u' ∧ c.isDigit = false ∧ c ≠ '?' := by
        simp [lineEnds]
      obtain ⟨hx, hu, hdigit, hmark⟩ := hletter c hc
      refine escapeEnd?_letter hat hx hu hdigit ?_
      rintro (rfl | rfl)
      · exact hline (.inl rfl)
      · exact absurd rfl hmark

end CoverageEstimate.TypeScript

/-
# Numerals

A numeral is a number as a document writes it: digits that do not start with a needless zero, with a
sign, a fraction and an exponent where it has them.  `Numeral.value?` is the number that it stands
for, if it is within the limits of documents, and by `readNumber_unsignedText` the reader finds that
number, whatever comes behind it.

The numerals of whole numbers stand for these, exactly as long as they are in range.
-/
import CoverageEstimate.Json.Printer
import CoverageEstimate.Json.Reader
import Mathlib.Tactic.Lemma

namespace CoverageEstimate.Json

/-- The characters as pieces of a document. -/
def pieces (text : List Char) : Input := text.map Text.Piece.char

@[simp] lemma pieces_nil : pieces [] = [] := rfl

@[simp] lemma pieces_cons (c : Char) (text : List Char) :
    pieces (c :: text) = .char c :: pieces text := rfl

@[simp] lemma pieces_append (front back : List Char) :
    pieces (front ++ back) = pieces front ++ pieces back := List.map_append

/-- A value may end before the rest: it is over, or goes on with space, a comma or a closing
bracket. -/
def Ends (rest : Input) : Prop :=
  ∀ p ∈ rest.head?, isSpace p = true ∨ p = .char ',' ∨ p = .char ']' ∨ p = .char '\x7d'

lemma ends_nil : Ends [] := by simp [Ends]

/-! ## Digits -/

/-- The digits of a list as characters. -/
def digitText (ds : List Nat) : List Char := ds.map Nat.digitChar

/-- The list has digits, and each of its members is one. -/
structure AreDigits (ds : List Nat) : Prop where
  ne_nil : ds ≠ []
  lt_ten : ∀ d ∈ ds, d < 10

lemma digitValue?_digitChar {d : Nat} (h : d < 10) :
    digitValue? (.char (Nat.digitChar d)) = some d := by
  have hd : (Nat.digitChar d).toNat - '0'.toNat = d := Nat.toNat_digitChar_sub_48_of_lt_ten h
  rw [digitValue?, if_pos (by simpa using h), hd]

/-- A digit is no other character. -/
lemma digitChar_ne {d : Nat} (h : d < 10) {c : Char} (hc : c.isDigit = false) :
    Nat.digitChar d ≠ c := by
  rintro rfl
  simp [h] at hc

/-- The rest does not go on with a digit. -/
def NoDigit (rest : Input) : Prop := ∀ p ∈ rest.head?, digitValue? p = none

lemma takeDigits_of_noDigit {rest : Input} (h : NoDigit rest) : takeDigits rest = ([], rest) := by
  cases rest with
  | nil => rfl
  | cons p rest => rw [takeDigits, h p rfl]

/-- The digits at the start are taken, all of them. -/
lemma takeDigits_append {ds : List Nat} (hd : ∀ d ∈ ds, d < 10) {rest : Input} (h : NoDigit rest) :
    takeDigits (pieces (digitText ds) ++ rest) = (ds, rest) := by
  induction ds with
  | nil => exact takeDigits_of_noDigit h
  | cons d ds ih =>
    obtain ⟨hfirst, hothers⟩ := List.forall_mem_cons.mp hd
    have hcons : pieces (digitText (d :: ds)) ++ rest =
        .char (Nat.digitChar d) :: (pieces (digitText ds) ++ rest) := rfl
    rw [hcons, takeDigits, digitValue?_digitChar hfirst, ih hothers]

/-- No value ends before a character that would continue a numeral. -/
lemma not_ends_cons {c : Char} (h : c = '.' ∨ c = 'e' ∨ c = 'E') (rest : Input) :
    ¬Ends (.char c :: rest) := by
  rcases h with rfl | rfl | rfl <;> simp [Ends, isSpace]

lemma noDigit_of_ends {rest : Input} (h : Ends rest) : NoDigit rest := by
  intro p hp
  rcases h p hp with hs | rfl | rfl | rfl
  · cases p with
    | malformed => simp [isSpace] at hs
    | char c =>
      simp only [isSpace, Bool.or_eq_true, beq_iff_eq] at hs
      rcases hs with ((rfl | rfl) | rfl) | rfl <;> decide
  · decide
  · decide
  · decide

/-! ## Numerals -/

/-- The exponent part of a numeral. -/
structure ExponentPart where
  /-- Whether its mark is the capital letter. -/
  capital : Bool
  /-- Its sign, if it has one, and whether that is the minus sign. -/
  sign : Option Bool
  digits : List Nat

/-- A number as it is written. -/
structure Numeral where
  negative : Bool
  whole : List Nat
  fraction : Option (List Nat)
  exponent : Option ExponentPart

namespace ExponentPart

/-- The sign as it is written. -/
def signText (e : ExponentPart) : List Char :=
  match e.sign with
  | none => []
  | some true => ['-']
  | some false => ['+']

/-- The exponent part as it is written. -/
def text (e : ExponentPart) : List Char :=
  (if e.capital then 'E' else 'e') :: (e.signText ++ digitText e.digits)

/-- Whether the exponent is negative. -/
def isDown (e : ExponentPart) : Bool := e.sign == some true

end ExponentPart

/-- The double of a significand and a power of ten, unless it is too large. -/
def realOf? (negative : Bool) (significand : Nat) (exponent : Int) : Option Number :=
  (assemble? significand exponent).map fun x => .real (withSign negative x)

/-- The number of a significand, a power of ten and an exponent part.  An exponent that is too large
to be added up makes the number too large, unless it is negative or there is nothing to be
multiplied. -/
def ExponentPart.value? (e : ExponentPart) (negative : Bool) (significand : Nat) (start : Int) :
    Option Number :=
  let exponent := digitsValue e.digits
  if greatestExponent < exponent then
    if significand != 0 && !e.isDown then none else some (.real (withSign negative 0))
  else realOf? negative significand (if e.isDown then start - exponent else start + exponent)

/-- The number of a significand and a power of ten with the exponent part, if there is one. -/
def scaledValue? (negative : Bool) (significand : Nat) (start : Int) :
    Option ExponentPart → Option Number
  | none => realOf? negative significand start
  | some e => e.value? negative significand start

namespace Numeral

/-- The numeral without its sign, as it is written. -/
def unsignedText (n : Numeral) : List Char :=
  digitText n.whole ++ (n.fraction.elim [] fun ds => '.' :: digitText ds) ++
    n.exponent.elim [] ExponentPart.text

/-- The numeral as it is written. -/
def text (n : Numeral) : List Char := if n.negative then '-' :: n.unsignedText else n.unsignedText

/-- The digits are digits, there are some wherever there may be some, and a zero stands first only
when it stands alone before the point. -/
structure IsProper (n : Numeral) : Prop where
  whole : AreDigits n.whole
  no_zero_first : ∀ d ds, n.whole ≠ 0 :: d :: ds
  fraction : ∀ ds ∈ n.fraction, AreDigits ds
  exponent : ∀ e ∈ n.exponent, AreDigits e.digits

/-- The number that the numeral stands for, unless it is too large.  Digits that do not fit into
the significand count as zeros. -/
def value? (n : Numeral) : Option Number :=
  let (significand, left) := appendDigits 0 n.whole
  match n.fraction with
  | none =>
    if n.exponent.isNone && left == 0 then some (wholeNumber n.negative significand)
    else scaledValue? n.negative significand left n.exponent
  | some ds =>
    let (extended, dropped) := appendDigits significand ds
    scaledValue? n.negative extended (left - ((ds.length - dropped : Nat) : Int)) n.exponent

end Numeral

/-- Behind its sign, a numeral is written from a digit on. -/
lemma Numeral.IsProper.exists_digit {n : Numeral} (proper : n.IsProper) :
    ∃ d < 10, ∃ cs, n.unsignedText = Nat.digitChar d :: cs := by
  obtain ⟨d, ds, hds⟩ := List.exists_cons_of_ne_nil proper.whole.ne_nil
  refine ⟨d, proper.whole.lt_ten d (by simp [hds]), ?_⟩
  rw [Numeral.unsignedText, hds]
  exact ⟨_, rfl⟩

/-! ## Reading numerals -/

lemma finishReal_of_realOf? {negative : Bool} {significand : Nat} {exponent : Int} {k : Number}
    (h : realOf? negative significand exponent = some k) (rest : Input) :
    finishReal negative significand exponent rest = .ok (k, rest) := by
  obtain ⟨x, hx, rfl⟩ := Option.map_eq_some_iff.mp h
  rw [finishReal, hx]

lemma takeSign_append {e : ExponentPart} (hd : AreDigits e.digits) (rest : Input) :
    takeSign (pieces (e.signText ++ digitText e.digits) ++ rest) =
      (e.isDown, pieces (digitText e.digits) ++ rest) := by
  obtain ⟨d, ds, hds⟩ := List.exists_cons_of_ne_nil hd.ne_nil
  have hfirst := hd.lt_ten d (by simp [hds])
  have hplus : Nat.digitChar d ≠ '+' := digitChar_ne hfirst (by decide)
  have hminus : Nat.digitChar d ≠ '-' := digitChar_ne hfirst (by decide)
  rw [ExponentPart.signText, ExponentPart.isDown]
  cases e.sign with
  | none =>
    rw [hds, List.nil_append, digitText, List.map_cons, pieces_cons, List.cons_append, takeSign]
    · rfl
    · intro more heq
      exact hplus (Text.Piece.char.inj (List.cons.inj heq).1)
    · intro more heq
      exact hminus (Text.Piece.char.inj (List.cons.inj heq).1)
  | some down => cases down <;> rfl

/-- The exponent part is read from behind its mark on. -/
lemma readExponent_append {e : ExponentPart} (hd : AreDigits e.digits) {negative : Bool}
    {significand : Nat} {start : Int} {k : Number}
    (h : e.value? negative significand start = some k) {rest : Input} (ends : NoDigit rest) :
    readExponent negative significand start
      (pieces (e.signText ++ digitText e.digits) ++ rest) = .ok (k, rest) := by
  have htake := takeDigits_append hd.lt_ten ends
  obtain ⟨d, ds, hds⟩ := List.exists_cons_of_ne_nil hd.ne_nil
  rw [readExponent, takeSign_append hd]
  rw [ExponentPart.value?] at h
  rw [hds] at htake h ⊢
  simp only [digitText, List.map_cons, pieces_cons, List.cons_append] at htake ⊢
  rw [htake]
  simp only at h ⊢
  split at h
  · rename_i hlarge
    rw [if_pos hlarge]
    split at h
    · simp at h
    · rename_i hzero
      rw [if_neg hzero, Option.some.inj h]
  · rename_i hsmall
    rw [if_neg hsmall]
    exact finishReal_of_realOf? h rest

lemma noDigit_exponent {exponent : Option ExponentPart} {rest : Input} (ends : Ends rest) :
    NoDigit (pieces (exponent.elim [] ExponentPart.text) ++ rest) := by
  cases exponent with
  | none => exact noDigit_of_ends ends
  | some e =>
    intro p hp
    obtain rfl := Option.some.inj hp
    cases e.capital <;> decide

/-- The fraction is read from behind its point on, with the exponent part that may follow. -/
lemma readFraction_append {ds : List Nat} (hd : AreDigits ds) {exponent : Option ExponentPart}
    (he : ∀ e ∈ exponent, AreDigits e.digits) {negative : Bool} {significand : Nat} {start : Int}
    {k : Number}
    (h : scaledValue? negative (appendDigits significand ds).1
      (start - ((ds.length - (appendDigits significand ds).2 : Nat) : Int)) exponent = some k)
    {rest : Input} (ends : Ends rest) :
    readFraction negative significand start
      (pieces (digitText ds ++ exponent.elim [] ExponentPart.text) ++ rest) = .ok (k, rest) := by
  have hempty : ds.isEmpty = false := by simpa using hd.ne_nil
  rw [readFraction, pieces_append, List.append_assoc,
    takeDigits_append hd.lt_ten (noDigit_exponent ends)]
  simp only [hempty, Bool.false_eq_true, if_false]
  cases exponent with
  | none =>
    simp only [Option.elim_none, pieces_nil, List.nil_append]
    split
    · exact absurd ends (not_ends_cons (by simp) _)
    · exact absurd ends (not_ends_cons (by simp) _)
    · exact finishReal_of_realOf? h rest
  | some e =>
    have hread := readExponent_append (he e rfl) h (noDigit_of_ends ends)
    rw [Option.elim_some, ExponentPart.text]
    cases e.capital <;> exact hread

/-- **Reading numerals.**  The reader finds the number of a numeral behind its sign. -/
lemma readNumber_unsignedText {n : Numeral} (proper : n.IsProper) {k : Number}
    (h : n.value? = some k) {rest : Input} (ends : Ends rest) :
    readNumber n.negative (pieces n.unsignedText ++ rest) = .ok (k, rest) := by
  obtain ⟨d, ds, hds⟩ := List.exists_cons_of_ne_nil proper.whole.ne_nil
  have hbehind : NoDigit (pieces (n.fraction.elim [] fun ds => '.' :: digitText ds) ++
      (pieces (n.exponent.elim [] ExponentPart.text) ++ rest)) := by
    cases n.fraction with
    | none => exact noDigit_exponent ends
    | some fs =>
      intro p hp
      obtain rfl := Option.some.inj hp
      decide
  have htake := takeDigits_append proper.whole.lt_ten hbehind
  have hcons : ∀ behind, pieces (digitText n.whole) ++ behind =
      .char (Nat.digitChar d) :: (pieces (digitText ds) ++ behind) := by
    intro behind
    rw [hds]
    rfl
  rw [Numeral.unsignedText, pieces_append, pieces_append, List.append_assoc, List.append_assoc,
    hcons, readNumber]
  rw [hcons] at htake
  rw [htake]
  split
  · rename_i heq
    simp [hds] at heq
  · rename_i heq
    exact absurd (Prod.mk.inj heq).1 (proper.no_zero_first _ _)
  · rename_i ds' behind hzero heq
    obtain ⟨rfl, rfl⟩ := Prod.mk.inj heq
    rw [Numeral.value?] at h
    cases hf : n.fraction with
    | some fs =>
      simp only [hf] at h
      rw [Option.elim_some, pieces_cons, List.cons_append, ← List.append_assoc, ← pieces_append]
      exact readFraction_append (proper.fraction fs hf) proper.exponent h ends
    | none =>
      simp only [hf, Option.elim_none, pieces_nil, List.nil_append] at h ⊢
      cases hx : n.exponent with
      | some e =>
        simp only [hx, Option.isNone_some, Bool.false_and, Bool.false_eq_true, if_false] at h
        have hread := readExponent_append (proper.exponent e hx) h (noDigit_of_ends ends)
        rw [Option.elim_some, ExponentPart.text]
        cases e.capital <;> exact hread
      | none =>
        simp only [hx, Option.isNone_none, Bool.true_and, Option.elim_none, pieces_nil,
          List.nil_append] at h ⊢
        split
        · exact absurd ends (not_ends_cons (by simp) _)
        · exact absurd ends (not_ends_cons (by simp) _)
        · exact absurd ends (not_ends_cons (by simp) _)
        · split at h
          · rename_i hleft
            rw [if_pos hleft, Option.some.inj h]
          · rename_i hleft
            rw [if_neg hleft]
            exact finishReal_of_realOf? h rest

/-! ## Numerals of whole numbers -/

/-- The decimal digits of a natural number. -/
def decimalDigits (n : Nat) : List Nat := (Decimal.digits n).map fun c => c.toNat - '0'.toNat

lemma toNat_of_isDigit {c : Char} (h : c.isDigit = true) : 48 ≤ c.toNat ∧ c.toNat ≤ 57 := by
  obtain ⟨hlow, hhigh⟩ : 48 ≤ c.val ∧ c.val ≤ 57 := by simpa [Char.isDigit] using h
  exact ⟨UInt32.le_iff_toNat_le.mp hlow, UInt32.le_iff_toNat_le.mp hhigh⟩

lemma digitChar_of_isDigit {c : Char} (h : c.isDigit = true) :
    Nat.digitChar (c.toNat - '0'.toNat) = c := by
  have hbounds := toNat_of_isDigit h
  have hzero : '0'.toNat = 48 := rfl
  refine Char.toNat_inj.mp ?_
  rw [hzero, Nat.toNat_digitChar_of_lt_ten (by omega)]
  omega

lemma isDigit_of_mem_digits {n : Nat} {c : Char} (h : c ∈ Decimal.digits n) : c.isDigit = true :=
  Nat.isDigit_of_mem_toDigits (by decide) (by decide) h

lemma digitText_decimalDigits (n : Nat) : digitText (decimalDigits n) = Decimal.digits n := by
  rw [digitText, decimalDigits, List.map_map, List.map_congr_left, List.map_id]
  exact fun c hc => digitChar_of_isDigit (isDigit_of_mem_digits hc)

lemma areDigits_decimalDigits (n : Nat) : AreDigits (decimalDigits n) where
  ne_nil h := Nat.toDigits_ne_nil (List.map_eq_nil_iff.mp h)
  lt_ten := by
    intro d hd
    obtain ⟨c, hc, rfl⟩ := List.mem_map.mp hd
    have hbounds := toNat_of_isDigit (isDigit_of_mem_digits hc)
    have hzero : '0'.toNat = 48 := rfl
    omega

/-- The first digit of a positive number is positive. -/
lemma digits_ne_zero_cons {n : Nat} (h : 0 < n) (cs : List Char) :
    Decimal.digits n ≠ '0' :: cs := by
  induction n using Nat.strongRecOn generalizing cs with
  | ind n ih =>
    rw [Decimal.digits, Nat.toDigits_eq_if (by decide)]
    split
    · intro heq
      have hzero : n = 0 := Nat.digitChar_eq_zero.mp (List.cons.inj heq).1
      omega
    · intro heq
      rcases List.append_eq_cons_iff.mp heq with ⟨hnil, -⟩ | ⟨cs', hcons, -⟩
      · exact Nat.toDigits_ne_nil hnil
      · exact ih (n / 10) (by omega) (by omega) cs' hcons

lemma decimalDigits_ne_zero_cons_cons (n d : Nat) (ds : List Nat) :
    decimalDigits n ≠ 0 :: d :: ds := by
  intro h
  have htext := digitText_decimalDigits n
  rw [h] at htext
  rcases Nat.eq_zero_or_pos n with rfl | hpos
  · have hlength := congrArg List.length htext
    simp [digitText, Decimal.digits] at hlength
  · exact digits_ne_zero_cons hpos _ htext.symm

lemma digitsValue_decimalDigits (n : Nat) : digitsValue (decimalDigits n) = n := by
  have h := Nat.ofDigitChars_ten_toDigits (n := n)
  rw [Nat.ofDigitChars_eq_foldl] at h
  rw [digitsValue, decimalDigits, List.foldl_map, Decimal.digits]
  simpa only [Nat.mul_comm] using h

lemma le_foldl_digits (n : Nat) (ds : List Nat) : n ≤ ds.foldl (fun n d => n * 10 + d) n := by
  induction ds generalizing n with
  | nil => exact Nat.le_refl n
  | cons d ds ih =>
    have hnext := ih (n * 10 + d)
    rw [List.foldl_cons]
    omega

/-- All digits are appended as long as the number stays within the limit. -/
lemma appendDigits_of_le {n : Nat} {ds : List Nat}
    (h : ds.foldl (fun n d => n * 10 + d) n ≤ greatestNatural) :
    appendDigits n ds = (ds.foldl (fun n d => n * 10 + d) n, 0) := by
  induction ds generalizing n with
  | nil => rfl
  | cons d ds ih =>
    have hnext := le_foldl_digits (n * 10 + d) ds
    rw [List.foldl_cons] at h ⊢
    rw [appendDigits, if_neg (by omega), ih h]

namespace Numeral

/-- The numeral of a natural number, or of its negative. -/
def ofNatural (negative : Bool) (n : Nat) : Numeral := ⟨negative, decimalDigits n, none, none⟩

lemma isProper_ofNatural (negative : Bool) (n : Nat) : (ofNatural negative n).IsProper where
  whole := areDigits_decimalDigits n
  no_zero_first := decimalDigits_ne_zero_cons_cons n
  fraction := by simp [ofNatural]
  exponent := by simp [ofNatural]

lemma unsignedText_ofNatural (negative : Bool) (n : Nat) :
    (ofNatural negative n).unsignedText = Decimal.digits n := by
  simp [unsignedText, ofNatural, digitText_decimalDigits]

lemma value?_ofNatural (negative : Bool) {n : Nat} (h : n ≤ greatestNatural) :
    (ofNatural negative n).value? = some (wholeNumber negative n) := by
  have hvalue := digitsValue_decimalDigits n
  rw [digitsValue] at hvalue
  have happend : appendDigits 0 (decimalDigits n) = (n, 0) := by
    rw [appendDigits_of_le (by rwa [hvalue]), hvalue]
  simp [value?, ofNatural, happend]

end Numeral

end CoverageEstimate.Json

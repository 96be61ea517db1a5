/-
# Strings as they are written

A character of a string may be written as it is, unless it is a quote, a backslash or a control
character, by a short escape, or by its number: in one escape, or in two for the characters beyond
the first plane.  `SpellsText` holds these ways of writing together.  The reader finds the string in
each of them (`readText_append`), and the printer uses one of them (`spellsText_write`).
-/
import CoverageEstimate.Proofs.Json.Numeral

namespace CoverageEstimate.Json

/-- The characters are the four hexadecimal digits of a number. -/
inductive SpellsHex : Nat → List Char → Prop
  | digits {a b c d : Char} {i j k l : Nat} (ha : hexValue? a = some i) (hb : hexValue? b = some j)
      (hc : hexValue? c = some k) (hd : hexValue? d = some l) :
      SpellsHex (((i * 16 + j) * 16 + k) * 16 + l) [a, b, c, d]

/-- The characters are a way to write a character in a string. -/
inductive SpellsChar : Char → List Char → Prop
  | plain {c : Char} (visible : 32 ≤ c.toNat) (no_quote : c ≠ '"') (no_backslash : c ≠ '\\') :
      SpellsChar c [c]
  | short {letter c : Char} (h : shortEscape? letter = some c) : SpellsChar c ['\\', letter]
  | numbered {c : Char} {digits : List Char} (h : SpellsHex c.toNat digits) :
      SpellsChar c ('\\' :: 'u' :: digits)
  | surrogates {c : Char} {high low : Nat} {ds es : List Char} (hhigh : SpellsHex high ds)
      (hlow : SpellsHex low es) (highRange : 0xD800 ≤ high ∧ high < 0xDC00)
      (lowRange : 0xDC00 ≤ low ∧ low ≤ 0xDFFF)
      (h : c.toNat = (high - 0xD800) * 0x400 + (low - 0xDC00) + 0x10000) :
      SpellsChar c ('\\' :: 'u' :: (ds ++ '\\' :: 'u' :: es))

/-- The characters are a way to write some characters in a string, one after another. -/
inductive SpellsText : List Char → List Char → Prop
  | nil : SpellsText [] []
  | cons {c : Char} {cs text rest : List Char} (first : SpellsChar c text)
      (others : SpellsText cs rest) : SpellsText (c :: cs) (text ++ rest)

/-! ## Reading escapes -/

lemma SpellsHex.length_eq {n : Nat} {ds : List Char} (h : SpellsHex n ds) : ds.length = 4 := by
  cases h
  rfl

lemma readHex4_append {n : Nat} {ds : List Char} (h : SpellsHex n ds) (rest : Input) :
    readHex4 (pieces ds ++ rest) = .ok n := by
  cases h with
  | @digits a b c d i j k l ha hb hc hd =>
    have hcons : pieces [a, b, c, d] ++ rest =
        .char a :: .char b :: .char c :: .char d :: rest := rfl
    have hsize : ¬byteSize (.char a :: .char b :: .char c :: .char d :: rest) < 4 := by
      have hpa := a.utf8Size_pos
      have hpb := b.utf8Size_pos
      have hpc := c.utf8Size_pos
      have hpd := d.utf8Size_pos
      simp only [byteSize, Text.Piece.byteSize]
      omega
    rw [hcons, readHex4, if_neg hsize]
    simp only [ha, hb, hc, hd]

/-- No character has the number of a surrogate. -/
lemma not_surrogate (c : Char) : c.toNat < 0xD800 ∨ 0xDFFF < c.toNat := by
  rcases c.valid with h | ⟨h, -⟩
  · exact .inl h
  · exact .inr h

lemma readNumbered_single {c : Char} {ds : List Char} (h : SpellsHex c.toNat ds) (rest : Input) :
    readNumbered (pieces ds ++ rest) = .ok (c, 4) := by
  have hrange : (decide (c.toNat < 0xD800) || decide (0xDFFF < c.toNat)) = true := by
    simpa using not_surrogate c
  rw [readNumbered, readHex4_append h]
  simp only [Except.bind, bind, hrange, if_true, Char.ofNat_toNat, pure, Except.pure]

lemma readNumbered_pair {c : Char} {high low : Nat} {ds es : List Char} (hhigh : SpellsHex high ds)
    (hlow : SpellsHex low es) (highRange : 0xD800 ≤ high ∧ high < 0xDC00)
    (lowRange : 0xDC00 ≤ low ∧ low ≤ 0xDFFF)
    (h : c.toNat = (high - 0xD800) * 0x400 + (low - 0xDC00) + 0x10000) (rest : Input) :
    readNumbered (pieces (ds ++ '\\' :: 'u' :: es) ++ rest) = .ok (c, 10) := by
  have hfirst : (decide (high < 0xD800) || decide (0xDFFF < high)) = false := by
    simp
    omega
  have hsecond : (decide (low < 0xDC00) || decide (0xDFFF < low)) = false := by
    simp
    omega
  have hdrop : (pieces ds ++ (.char '\\' :: .char 'u' :: pieces es ++ rest)).drop 4 =
      .char '\\' :: .char 'u' :: (pieces es ++ rest) := by
    have hlength : (pieces ds).length = 4 := by rw [pieces, List.length_map, hhigh.length_eq]
    rw [← hlength, List.drop_left]
    rfl
  have hnot : ¬0xDC00 ≤ high := by omega
  rw [pieces_append, pieces_cons, pieces_cons, List.append_assoc, readNumbered,
    readHex4_append hhigh]
  simp only [Except.bind, bind, hfirst, Bool.false_eq_true, if_false, hnot, hdrop,
    readHex4_append hlow, hsecond, ← h, Char.ofNat_toNat, pure, Except.pure]

/-- The letter of a short escape is not the one of an escape by number. -/
lemma ne_u_of_shortEscape? {letter c : Char} (h : shortEscape? letter = some c) : letter ≠ 'u' := by
  rintro rfl
  simp [shortEscape?] at h

/-- Behind the backslash, the reader finds the character of an escape and how long the escape is. -/
lemma readEscape_append {c : Char} {text : List Char} (h : SpellsChar c ('\\' :: text))
    (rest : Input) : readEscape (pieces text ++ rest) = .ok (c, text.length) := by
  generalize htext : '\\' :: text = whole at h
  cases h with
  | plain _ _ no_backslash => exact absurd (List.cons.inj htext).1.symm no_backslash
  | @short letter _ hshort =>
    obtain rfl := (List.cons.inj htext).2
    rw [pieces_cons, pieces_nil, List.cons_append, List.nil_append, readEscape, hshort]
    · rfl
    · exact ne_u_of_shortEscape? hshort
  | @numbered _ digits hhex =>
    obtain rfl := (List.cons.inj htext).2
    rw [pieces_cons, List.cons_append, readEscape, readNumbered_single hhex, List.length_cons,
      hhex.length_eq]
    rfl
  | @surrogates _ high low ds es hhigh hlow highRange lowRange hc =>
    obtain rfl := (List.cons.inj htext).2
    rw [pieces_cons, List.cons_append, readEscape,
      readNumbered_pair hhigh hlow highRange lowRange hc]
    simp [Except.map, hhigh.length_eq, hlow.length_eq]

/-! ## Reading strings -/

/-- The pieces of an escape are skipped. -/
lemma readPieces_skip (front input : Input) :
    readPieces front.length (front ++ input) = readPieces 0 input := by
  induction front with
  | nil => rfl
  | cons p front ih => rw [List.length_cons, List.cons_append, readPieces, ih]

/-- A character that is written in any way is read as one piece. -/
lemma readPieces_append {c : Char} {text : List Char} (h : SpellsChar c text) (input : Input) :
    readPieces 0 (pieces text ++ input) =
      (readPieces 0 input).map fun r => (.char c :: r.1, r.2) := by
  have hescape : ∀ more, SpellsChar c ('\\' :: more) →
      readPieces 0 (pieces ('\\' :: more) ++ input) =
        (readPieces 0 input).map fun r => (.char c :: r.1, r.2) := by
    intro more h
    have hskip := readPieces_skip (pieces more) input
    rw [pieces, List.length_map, ← pieces] at hskip
    have hquote : ((Text.Piece.char '\\') == .char '"') = false := by decide
    have hbackslash : ((Text.Piece.char '\\') == .char '\\') = true := by decide
    rw [pieces_cons, List.cons_append, readPieces, hquote, hbackslash, readEscape_append h]
    simp only [Bool.false_eq_true, if_false, if_true, bind, Except.bind, hskip]
    cases readPieces 0 input <;> rfl
  cases h with
  | plain visible no_quote no_backslash =>
    have hquote : ((Text.Piece.char c) == .char '"') = false := by simpa using no_quote
    have hbackslash : ((Text.Piece.char c) == .char '\\') = false := by simpa using no_backslash
    have hcontrol : isControl (.char c) = false := by simpa [isControl] using visible
    rw [pieces_cons, pieces_nil, List.cons_append, List.nil_append, readPieces, hquote, hbackslash,
      hcontrol]
    simp only [Bool.false_eq_true, if_false, bind, Except.bind]
    cases readPieces 0 input <;> rfl
  | short h => exact hescape _ (.short h)
  | numbered h => exact hescape _ (.numbered h)
  | surrogates hhigh hlow highRange lowRange h =>
    exact hescape _ (.surrogates hhigh hlow highRange lowRange h)

lemma readPieces_spelled {cs text : List Char} (h : SpellsText cs text) (rest : Input) :
    readPieces 0 (pieces text ++ .char '"' :: rest) = .ok (cs.map .char, rest) := by
  induction h with
  | nil => rfl
  | cons first others ih =>
    rw [pieces_append, List.append_assoc, readPieces_append first, ih]
    rfl

/-- **Reading strings.**  The reader finds a string in every way of writing it, from behind the
opening quote to behind the closing one. -/
lemma readText_append {s : String} {text : List Char} (h : SpellsText s.toList text)
    (rest : Input) :
    readText (pieces text ++ .char '"' :: rest) = .ok (s, rest) := by
  have hchars : (s.toList.map Text.Piece.char).mapM Text.Piece.char? = some s.toList := by
    induction s.toList with
    | nil => rfl
    | cons c cs ih => simp [List.mapM_cons, Text.Piece.char?, ih]
  rw [readText, readPieces_spelled h]
  simp only [bind, Except.bind, hchars, String.ofList_toList, pure, Except.pure]

/-! ## Writing strings -/

lemma hexValue?_digitChar : ∀ d < 16, hexValue? (Nat.digitChar d) = some d := by decide

lemma spellsHex_hexDigits4 {n : Nat} (h : n < 65536) : SpellsHex n (hexDigits4 n) := by
  have hn : n = (((n / 4096 % 16) * 16 + n / 256 % 16) * 16 + n / 16 % 16) * 16 + n % 16 := by omega
  rw [hexDigits4]
  have hdigit (k : Nat) : hexValue? (Nat.digitChar (k % 16)) = some (k % 16) :=
    hexValue?_digitChar _ (Nat.mod_lt _ (by decide))
  have hspells :=
    SpellsHex.digits (hdigit (n / 4096)) (hdigit (n / 256)) (hdigit (n / 16)) (hdigit n)
  rwa [← hn] at hspells

/-- The printer escapes what it must, by a short escape where there is one. -/
lemma spellsChar_writeChar (c : Char) : SpellsChar c (writeChar c) := by
  have hshort (letter d : Char) (hd : c.toNat = d.toNat)
      (h : shortEscape? letter = some d) : SpellsChar c ['\\', letter] := by
    obtain rfl := Char.toNat_inj.mp hd
    exact .short h
  simp only [writeChar, beq_iff_eq]
  by_cases hquote : c = '"'
  · rw [if_pos hquote]
    exact hshort '"' '"' (by rw [hquote]) rfl
  by_cases hbackslash : c = '\\'
  · rw [if_neg hquote, if_pos hbackslash]
    exact hshort '\\' '\\' (by rw [hbackslash]) rfl
  rw [if_neg hquote, if_neg hbackslash]
  split
  · rename_i h
    exact hshort 'n' '\n' (by rw [h]) rfl
  split
  · rename_i h
    exact hshort 'r' '\r' (by rw [h]) rfl
  split
  · rename_i h
    exact hshort 't' '\t' (by rw [h]) rfl
  split
  · rename_i h
    exact hshort 'b' '\x08' h rfl
  split
  · rename_i h
    exact hshort 'f' '\x0c' h rfl
  split
  · exact .numbered (spellsHex_hexDigits4 (by omega))
  · exact .plain (by omega) hquote hbackslash

/-- The printer writes a string in one of the ways. -/
lemma spellsText_write (cs : List Char) : SpellsText cs (cs.flatMap writeChar) := by
  induction cs with
  | nil => exact .nil
  | cons c cs ih =>
    rw [List.flatMap_cons]
    exact .cons (spellsChar_writeChar c) ih

end CoverageEstimate.Json

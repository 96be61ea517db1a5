/-
# Texts in UTF-16

A character of the first plane is one code unit, and every other character is two: a high surrogate
and a low one.  No character has the number of a surrogate, so a text can be told from its code
units.
-/
import CoverageEstimate.Proofs.Text.Utf8
import Mathlib.Data.Nat.Notation
import Mathlib.Logic.Function.Basic
import Mathlib.Tactic.ByContra
import Mathlib.Tactic.SplitIfs

namespace CoverageEstimate.Text

/-- The number belongs to one of the two halves of a character beyond the first plane. -/
def IsSurrogate (n : ℕ) : Prop := 0xD800 ≤ n ∧ n ≤ 0xDFFF

instance : DecidablePred IsSurrogate := fun n =>
  inferInstanceAs (Decidable (0xD800 ≤ n ∧ n ≤ 0xDFFF))

/-- The code units of a code point. -/
def codeUnits (n : ℕ) : List ℕ :=
  if n < 0x10000 then [n]
  else [0xD800 + (n - 0x10000) / 0x400, 0xDC00 + (n - 0x10000) % 0x400]

/-- The code units of a text. -/
def utf16 (text : List Char) : List ℕ := text.flatMap fun c => codeUnits c.toNat

variable {m n : ℕ}

lemma codeUnits_of_lt (h : n < 0x10000) : codeUnits n = [n] := if_pos h

lemma codeUnits_ne_nil (n : ℕ) : codeUnits n ≠ [] := by
  rw [codeUnits]
  split <;> exact List.cons_ne_nil _ _

@[simp] lemma utf16_nil : utf16 [] = [] := rfl

@[simp] lemma utf16_cons (c : Char) (text : List Char) :
    utf16 (c :: text) = codeUnits c.toNat ++ utf16 text := List.flatMap_cons

@[simp] lemma utf16_append (text more : List Char) :
    utf16 (text ++ more) = utf16 text ++ utf16 more := List.flatMap_append

lemma not_isSurrogate (c : Char) : ¬IsSurrogate c.toNat := by
  have hbounds := bounds_of_char c
  rw [IsSurrogate]
  omega

/-- A number that is no surrogate and not beyond the last character is the number of one. -/
lemma isValidChar_iff (h : n ≤ 0x10FFFF) : n.isValidChar ↔ ¬IsSurrogate n := by
  rw [Nat.isValidChar, IsSurrogate]
  omega

/-- The first code point of a text and the code units behind it are known from the code units. -/
lemma codeUnits_append_inj {rest more : List ℕ} (hm : ¬IsSurrogate m) (hn : ¬IsSurrogate n)
    (hmlast : m ≤ 0x10FFFF) (hnlast : n ≤ 0x10FFFF)
    (h : codeUnits m ++ rest = codeUnits n ++ more) : m = n ∧ rest = more := by
  rw [IsSurrogate] at hm hn
  rw [codeUnits, codeUnits] at h
  split_ifs at h with hmshort hnshort hnshort
  · simpa using h
  · -- one unit that is no surrogate, and a high surrogate
    have hhead := (List.cons.inj h).1
    omega
  · have hhead := (List.cons.inj h).1
    omega
  · simp only [List.cons_append, List.nil_append, List.cons.injEq] at h
    obtain ⟨hhigh, hlow, hrest⟩ := h
    exact ⟨by omega, hrest⟩

/-- Texts with the same code units are the same. -/
lemma utf16_injective : Function.Injective utf16 := by
  intro text
  induction text with
  | nil =>
    intro more h
    cases more with
    | nil => rfl
    | cons c more => exact absurd (List.append_eq_nil_iff.mp h.symm).1 (codeUnits_ne_nil _)
  | cons c text ih =>
    intro more h
    cases more with
    | nil => exact absurd (List.append_eq_nil_iff.mp h).1 (codeUnits_ne_nil _)
    | cons d more =>
      have hc := bounds_of_char c
      have hd := bounds_of_char d
      obtain ⟨hnumber, hrest⟩ := codeUnits_append_inj (not_isSurrogate c) (not_isSurrogate d)
        (by omega) (by omega) h
      rw [Char.toNat_inj.mp hnumber, ih hrest]

/-- A character of the first plane is found among the code units by its number. -/
lemma mem_utf16_of_mem {c : Char} {text : List Char} (h : c ∈ text) (hplane : c.toNat < 0x10000) :
    c.toNat ∈ utf16 text :=
  List.mem_flatMap.mpr ⟨c, h, by rw [codeUnits_of_lt hplane]; exact List.mem_singleton_self _⟩

/-- A text has a surrogate among its code units exactly when it goes beyond the first plane. -/
lemma exists_surrogate_mem_utf16_iff {text : List Char} :
    (∃ u ∈ utf16 text, IsSurrogate u) ↔ ∃ c ∈ text, 0x10000 ≤ c.toNat := by
  constructor
  · rintro ⟨u, hu, hsurrogate⟩
    obtain ⟨c, hc, hunit⟩ := List.mem_flatMap.mp hu
    refine ⟨c, hc, ?_⟩
    by_contra hplane
    rw [codeUnits_of_lt (by omega), List.mem_singleton] at hunit
    exact not_isSurrogate c (hunit ▸ hsurrogate)
  · rintro ⟨c, hc, hplane⟩
    have hbounds := bounds_of_char c
    refine ⟨0xD800 + (c.toNat - 0x10000) / 0x400, List.mem_flatMap.mpr ⟨c, hc, ?_⟩, ?_⟩
    · rw [codeUnits, if_neg (by omega)]
      exact List.mem_cons_self
    · rw [IsSurrogate]
      omega

end CoverageEstimate.Text

/-
# Lexing what remains of a source

The lexemes are looked for by offset.  To say which lexeme a given text is, it is easier to look at
the characters that remain from an offset on: where a text stands at the head of them, the character
at the offset, the span of a run of characters and the slice up to the end of the text are all read
off the text.
-/
import CoverageEstimate.TypeScript.Lexeme
import Mathlib.Data.List.TakeWhile
import Mathlib.Data.Nat.Notation
import Mathlib.Tactic.Lemma

namespace CoverageEstimate.TypeScript

variable {src : Source} {pos : ℕ} {c : Char} {text rest : List Char} {p : Char → Bool}

/-- The characters of a source from an offset on. -/
def remaining (src : Source) (pos : ℕ) : List Char := src.toList.drop pos

lemma length_remaining (src : Source) (pos : ℕ) : (remaining src pos).length = src.size - pos := by
  rw [remaining, List.length_drop, Array.length_toList]

lemma getElem?_eq_head?_remaining (src : Source) (pos : ℕ) :
    src[pos]? = (remaining src pos).head? := by
  rw [remaining, List.head?_drop, Array.getElem?_toList]

lemma getElem?_of_remaining (h : remaining src pos = c :: rest) : src[pos]? = some c := by
  rw [getElem?_eq_head?_remaining, h, List.head?_cons]

/-- Behind a text remains what stands behind it. -/
lemma remaining_add (text : List Char) (h : remaining src pos = text ++ rest) :
    remaining src (pos + text.length) = rest := by
  rw [remaining] at h ⊢
  rw [← List.drop_drop, h, List.drop_left]

lemma remaining_succ (h : remaining src pos = c :: rest) : remaining src (pos + 1) = rest :=
  remaining_add [c] h

lemma slice_of_remaining (h : remaining src pos = text ++ rest) :
    slice src pos (pos + text.length) = text := by
  rw [slice, Array.toList_extract, List.extract_eq_take_drop, ← remaining, h,
    Nat.add_sub_cancel_left, List.take_left]

/-! ## Looking for characters -/

/-- A text stands at an offset when what remains starts with it. -/
lemma standsAt_iff : standsAt src text pos = true ↔ text <+: remaining src pos := by
  induction text generalizing pos with
  | nil => simp [standsAt]
  | cons c text ih =>
    rw [standsAt, getElem?_eq_head?_remaining, Bool.and_eq_true, ih]
    cases hremaining : remaining src pos with
    | nil => simp
    | cons d rest =>
      rw [remaining_succ hremaining, List.cons_prefix_cons, List.head?_cons, beq_iff_eq,
        Option.some.injEq, eq_comm]

lemma skipWhile_eq (p : Char → Bool) {fuel : ℕ} (h : (remaining src pos).length ≤ fuel) :
    skipWhile p src fuel pos = pos + ((remaining src pos).takeWhile p).length := by
  induction fuel generalizing pos with
  | zero =>
    rw [skipWhile, List.eq_nil_of_length_eq_zero (Nat.le_zero.mp h)]
    rfl
  | succ fuel ih =>
    rw [skipWhile, getElem?_eq_head?_remaining]
    cases hremaining : remaining src pos with
    | nil => rfl
    | cons c rest =>
      have hnext := remaining_succ hremaining
      rw [hremaining, List.length_cons] at h
      simp only [List.head?_cons, List.takeWhile_cons]
      split
      · rw [ih (by rw [hnext]; omega), hnext, List.length_cons]
        omega
      · rfl

/-- A span is as long as the run of matching characters with which the rest of the source starts. -/
lemma spanEnd_eq (p : Char → Bool) (src : Source) (pos : ℕ) :
    spanEnd p src pos = pos + ((remaining src pos).takeWhile p).length :=
  skipWhile_eq p (length_remaining src pos).le

/-- A run of matching characters is spanned when no further one stands behind it. -/
lemma spanEnd_of_remaining (h : remaining src pos = text ++ rest) (hall : ∀ c ∈ text, p c = true)
    (hstop : ∀ c ∈ rest.head?, p c = false) : spanEnd p src pos = pos + text.length := by
  have hrest : rest.takeWhile p = [] := by
    cases rest with
    | nil => rfl
    | cons c rest => exact List.takeWhile_cons_of_neg (by simp [hstop c rfl])
  rw [spanEnd_eq, h, List.takeWhile_append_of_pos hall, hrest, List.append_nil]

lemma takeExactly?_of_remaining (h : remaining src pos = text ++ rest)
    (hall : ∀ c ∈ text, p c = true) :
    takeExactly? p src text.length pos = some (pos + text.length) := by
  induction text generalizing pos with
  | nil => rfl
  | cons c text ih =>
    rw [List.cons_append] at h
    have hfirst := hall c List.mem_cons_self
    have hothers := ih (remaining_succ h) fun d hd => hall d (List.mem_cons_of_mem c hd)
    rw [List.length_cons, takeExactly?, getElem?_of_remaining h, Option.any_some, if_pos hfirst,
      hothers, Nat.add_right_comm, Nat.add_assoc]

end CoverageEstimate.TypeScript

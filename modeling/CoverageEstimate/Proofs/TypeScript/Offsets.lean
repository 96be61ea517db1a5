/-
# Lexemes stop behind their starts

A lexeme is asked for at the offset where it starts, and the answer is the offset where it stops.
No lexeme stops before its start, whatever the source holds and however much fuel there is.
-/
import CoverageEstimate.TypeScript.Lexeme
import Mathlib.Data.Nat.Notation
import Mathlib.Tactic.Lemma
import Mathlib.Tactic.SplitIfs

namespace CoverageEstimate.TypeScript

variable {src : Source} {pos stop : ℕ}

/-! ## Runs of characters -/

lemma le_skipWhile (p : Char → Bool) (src : Source) (fuel pos : ℕ) :
    pos ≤ skipWhile p src fuel pos := by
  induction fuel generalizing pos with
  | zero => exact Nat.le_refl pos
  | succ fuel ih =>
    rw [skipWhile]
    split
    · split
      · have hrest := ih (pos + 1)
        omega
      · exact Nat.le_refl pos
    · exact Nat.le_refl pos

lemma le_spanEnd (p : Char → Bool) (src : Source) (pos : ℕ) : pos ≤ spanEnd p src pos :=
  le_skipWhile p src _ pos

lemma le_takeExactly? {p : Char → Bool} {count : ℕ}
    (h : takeExactly? p src count pos = some stop) : pos ≤ stop := by
  induction count generalizing pos with
  | zero =>
    obtain rfl := Option.some.inj h
    exact Nat.le_refl pos
  | succ count ih =>
    rw [takeExactly?] at h
    split at h
    · have hrest := ih h
      omega
    · simp at h

/-! ## Space and comments -/

lemma le_blockCommentEnd (src : Source) (fuel pos : ℕ) : pos ≤ blockCommentEnd src fuel pos := by
  induction fuel generalizing pos with
  | zero => exact Nat.le_refl pos
  | succ fuel ih =>
    rw [blockCommentEnd]
    split
    · omega
    · split
      · have hrest := ih (pos + 1)
        omega
      · exact Nat.le_refl pos

lemma le_commentEnd? (h : commentEnd? src pos = some stop) : pos ≤ stop := by
  rw [commentEnd?] at h
  split at h
  · obtain rfl := Option.some.inj h
    exact le_spanEnd _ src pos
  · split at h
    · obtain rfl := Option.some.inj h
      have hend := le_blockCommentEnd src (src.size - pos) (pos + 2)
      omega
    · simp at h

/-! ## Words -/

lemma le_wordEscapeEnd? (h : wordEscapeEnd? src pos = some stop) : pos ≤ stop := by
  rw [wordEscapeEnd?] at h
  split at h
  · simp only at h
    split at h
    · obtain rfl := Option.some.inj h
      have hdigits := le_spanEnd isHexDigit src (pos + 3)
      omega
    · simp at h
  · split at h
    · have hdigits := le_takeExactly? h
      omega
    · simp at h

lemma le_wordRestEnd (src : Source) (fuel pos : ℕ) : pos ≤ wordRestEnd src fuel pos := by
  induction fuel generalizing pos with
  | zero => exact Nat.le_refl pos
  | succ fuel ih =>
    rw [wordRestEnd]
    have hspan := le_spanEnd isWordChar src pos
    split
    · rename_i next hnext
      have hescape := le_wordEscapeEnd? hnext
      have hrest := ih next
      omega
    · exact hspan

lemma le_wordEnd? (h : wordEnd? src pos = some stop) : pos ≤ stop := by
  rw [wordEnd?] at h
  split at h
  · obtain rfl := Option.some.inj h
    have hrest := le_wordRestEnd src (src.size - pos) (pos + 1)
    omega
  · split at h
    · rename_i next hnext
      obtain rfl := Option.some.inj h
      have hescape := le_wordEscapeEnd? hnext
      have hrest := le_wordRestEnd src (src.size - pos) next
      omega
    · simp at h

/-! ## Numbers and regular expressions -/

lemma le_exponentEnd (src : Source) (pos : ℕ) : pos ≤ exponentEnd src pos := by
  rw [exponentEnd]
  simp only
  split_ifs
  · -- the digits start behind the sign
    have hdigits := le_spanEnd isDecimalChar src (pos + 1 + 1)
    omega
  · exact Nat.le_refl pos
  · have hdigits := le_spanEnd isDecimalChar src (pos + 1)
    omega
  · exact Nat.le_refl pos
  · exact Nat.le_refl pos

lemma le_numberEnd? (h : numberEnd? src pos = some stop) : pos ≤ stop := by
  rw [numberEnd?] at h
  simp only at h
  split at h
  · obtain rfl := Option.some.inj h
    exact le_spanEnd _ src pos
  · split at h
    · have hwhole := le_spanEnd isDecimalChar src pos
      split at h
      · obtain rfl := Option.some.inj h
        omega
      · split at h
        · obtain rfl := Option.some.inj h
          have hpart := le_spanEnd isDecimalChar src (spanEnd isDecimalChar src pos + 1)
          have hend := le_exponentEnd src
            (spanEnd isDecimalChar src (spanEnd isDecimalChar src pos + 1))
          omega
        · obtain rfl := Option.some.inj h
          have hend := le_exponentEnd src (spanEnd isDecimalChar src pos)
          omega
    · split at h
      · obtain rfl := Option.some.inj h
        have hpart := le_spanEnd isDecimalChar src (pos + 1)
        have hend := le_exponentEnd src (spanEnd isDecimalChar src (pos + 1))
        omega
      · simp at h

lemma le_regexBodyEnd? {fuel : ℕ} {inClass : Bool}
    (h : regexBodyEnd? src fuel inClass pos = some stop) : pos ≤ stop := by
  induction fuel generalizing inClass pos with
  | zero => simp [regexBodyEnd?] at h
  | succ fuel ih =>
    rw [regexBodyEnd?] at h
    split at h
    · simp at h
    · split_ifs at h
      · have hrest := ih h
        omega
      · have hrest := ih h
        omega
      · have hrest := ih h
        omega
      · obtain rfl := Option.some.inj h
        omega
      · have hrest := ih h
        omega

lemma le_regexEnd? (h : regexEnd? src pos = some stop) : pos ≤ stop := by
  rw [regexEnd?] at h
  split at h
  · obtain ⟨body, hbody, rfl⟩ := Option.map_eq_some_iff.mp h
    have hclosed := le_regexBodyEnd? hbody
    have hflags := le_spanEnd Char.isAlpha src body
    omega
  · simp at h

/-! ## Escapes -/

lemma le_escapeEnd? (h : escapeEnd? src pos = some stop) : pos ≤ stop := by
  rw [escapeEnd?] at h
  split at h
  · simp at h
  · split_ifs at h
    · have hdigits := le_takeExactly? h
      omega
    · exact le_wordEscapeEnd? h
    · obtain rfl := Option.some.inj h
      have hdigits := le_spanEnd (fun d => '0' ≤ d && d ≤ '7') src (pos + 1)
      omega
    · obtain rfl := Option.some.inj h
      omega
    · obtain rfl := Option.some.inj h
      omega

end CoverageEstimate.TypeScript

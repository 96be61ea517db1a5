/-
# Occurrences of a pattern

A pattern is tried at every position of a text, from left to right.  Where it matches, the search
goes on behind the match, so matches never overlap; the pattern sees the character before its
position even when that character belongs to the match before it.
-/
namespace CoverageEstimate.Text

/-- A pattern tried at one position: given the character before the position, if there is one,
and the text from the position on, it answers with what it read and how many characters long the
match is. -/
abbrev Pattern (α : Type) := Option Char → List Char → Option (α × Nat)

/-- The values read by the successive matches of a pattern.  The first `skip` characters belong
to the last match and start no match of their own. -/
def Pattern.occurrencesFrom {α : Type} (p : Pattern α) :
    (skip : Nat) → (before : Option Char) → List Char → List α
  | _, _, [] => []
  | skip + 1, _, c :: cs => p.occurrencesFrom skip (some c) cs
  | 0, before, c :: cs =>
    match p before (c :: cs) with
    | some (a, len) => a :: p.occurrencesFrom (len - 1) (some c) cs
    | none => p.occurrencesFrom 0 (some c) cs

/-- The values read by the successive matches of a pattern in a whole text. -/
def Pattern.occurrences {α : Type} (p : Pattern α) (text : List Char) : List α :=
  p.occurrencesFrom 0 none text

end CoverageEstimate.Text

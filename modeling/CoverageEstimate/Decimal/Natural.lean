/-
# Reading natural numbers

A natural number is written in digits, with a plus sign before them at most, and must stay below a
bound.  It is read from the left: the first digit that cannot be taken decides what is wrong.
-/
namespace CoverageEstimate.Decimal

/-- Why a text is no natural number below a bound. -/
inductive NaturalFault where
  /-- There is no text. -/
  | empty
  /-- There is a character that is no digit, or there are no digits. -/
  | badDigit
  /-- The number is too large. -/
  | tooLarge
  deriving DecidableEq, Repr, Inhabited

/-- The message for a text that is no natural number. -/
def NaturalFault.message : NaturalFault → String
  | empty => "cannot parse integer from empty string"
  | badDigit => "invalid digit found in string"
  | tooLarge => "number too large to fit in target type"

/-- The number that some digits continue. -/
def continueNatural (bound : Nat) : (start : Nat) → List Char → Except NaturalFault Nat
  | n, [] => .ok n
  | n, c :: rest =>
    if c.isDigit then
      let next := n * 10 + (c.toNat - '0'.toNat)
      if bound ≤ next then .error .tooLarge else continueNatural bound next rest
    else .error .badDigit

/-- The natural number below `bound` that a text is. -/
def readNatural (bound : Nat) : List Char → Except NaturalFault Nat
  | [] => .error .empty
  | ['+'] => .error .badDigit
  | '+' :: digits => continueNatural bound 0 digits
  | digits => continueNatural bound 0 digits

/-- The first number that does not fit into 64 bits. -/
def wordBound : Nat := Nat.pow 2 64

/-- A number that is read stays below the bound. -/
theorem lt_of_continueNatural {bound start n : Nat} {text : List Char} (h : start < bound)
    (hn : continueNatural bound start text = .ok n) : n < bound := by
  induction text generalizing start with
  | nil => simp only [continueNatural, Except.ok.injEq] at hn; omega
  | cons c rest ih =>
    unfold continueNatural at hn
    split at hn
    · dsimp only at hn
      split at hn
      · cases hn
      · exact ih (by omega) hn
    · cases hn

end CoverageEstimate.Decimal

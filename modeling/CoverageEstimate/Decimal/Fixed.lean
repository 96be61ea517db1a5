/-
# Two decimal places

Percentages for people are shown with two decimal places, rounded from the exact value of the
double; a tie goes to the even neighbour.
-/
import CoverageEstimate.Decimal.Shortest

namespace CoverageEstimate.Decimal

/-- A number of hundredths with its point. -/
def hundredths (n : Nat) : List Char :=
  let low := n % 100
  digits (n / 100) ++ '.' :: Nat.digitChar (low / 10) :: [Nat.digitChar (low % 10)]

/-- A double with two decimal places. -/
def fixedText (x : Float) : String :=
  match Class.ofFloat x with
  | .notANumber => "NaN"
  | .infinite negative => String.ofList (signed negative "inf".toList)
  | .finite b =>
    let (num, den) := b.fraction
    String.ofList (signed b.negative (hundredths (roundHalfEven (num * 100) den)))

end CoverageEstimate.Decimal

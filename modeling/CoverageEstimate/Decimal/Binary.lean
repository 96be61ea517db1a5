/-
# The exact value of a double

A finite double is a signed natural number times a power of two.  Printing and rounding start
from that exact value and stay in exact arithmetic.
-/
namespace CoverageEstimate.Decimal

/-- The exact value of a finite double, `± mantissa · 2 ^ exponent`, with what its neighbours need:
whether the next smaller magnitude is only half as far away as the next larger one. -/
structure Binary where
  /-- Whether the sign bit is set. -/
  negative : Bool
  /-- The magnitude's natural number. -/
  mantissa : Nat
  /-- The magnitude's power of two. -/
  exponent : Int
  /-- Whether the magnitude is the least of its power of two, and not of the least power. -/
  atBoundary : Bool
  deriving DecidableEq, Repr, Inhabited

/-- The three kinds of doubles. -/
inductive Class where
  | finite (value : Binary)
  | infinite (negative : Bool)
  | notANumber
  deriving DecidableEq, Repr, Inhabited

/-- The kind of the double with the given 64 bits: a sign, eleven bits of exponent and fifty-two
of fraction. -/
def Class.ofBits (bits : Nat) : Class :=
  let negative := bits / Nat.pow 2 63 % 2 == 1
  let exponent : Nat := bits / Nat.pow 2 52 % Nat.pow 2 11
  let fraction : Nat := bits % Nat.pow 2 52
  if exponent == 2047 then if fraction == 0 then .infinite negative else .notANumber
  else if exponent == 0 then .finite ⟨negative, fraction, -1074, false⟩
  else
    .finite ⟨negative, Nat.pow 2 52 + fraction, (exponent : Int) - 1075,
      fraction == 0 && exponent > 1⟩

/-- The kind of a double. -/
def Class.ofFloat (x : Float) : Class := Class.ofBits x.toBits.toNat

/-- The magnitude as a fraction of two natural numbers. -/
def Binary.fraction (b : Binary) : Nat × Nat :=
  if 0 ≤ b.exponent then (b.mantissa * Nat.pow 2 b.exponent.toNat, 1)
  else (b.mantissa, Nat.pow 2 (-b.exponent).toNat)

/-- The nearest natural number to `num / den`, with a half going up. -/
def roundHalfUp (num den : Nat) : Nat := (2 * num + den) / (2 * den)

/-- The nearest natural number to `num / den`, with a half going to the even neighbour. -/
def roundHalfEven (num den : Nat) : Nat :=
  let q := num / den
  let r := num % den
  if 2 * r < den then q
  else if den < 2 * r then q + 1
  else if q % 2 == 0 then q else q + 1

/-- The nearest whole number to a double, as a double; a half goes away from zero, the sign is
kept, and what has no fraction is itself. -/
def roundAwayFromZero (x : Float) : Float :=
  match Class.ofFloat x with
  | .finite b =>
    if 0 ≤ b.exponent then x
    else
      let (num, den) := b.fraction
      let magnitude := Float.ofNat (roundHalfUp num den)
      if b.negative then -magnitude else magnitude
  | _ => x

/-- A double rounded to two decimal places: a hundred times as much, rounded to a whole number and
divided by a hundred, each step in double arithmetic. -/
def roundToHundredths (x : Float) : Float := roundAwayFromZero (x * 100) / 100

end CoverageEstimate.Decimal

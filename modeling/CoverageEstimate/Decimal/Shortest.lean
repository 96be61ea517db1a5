/-
# The fewest digits that read back

A double is printed with the fewest decimal digits that identify it: among all decimals that
round to the double, those with the fewest digits, and among those the nearest one.
-/
import CoverageEstimate.Decimal.Binary

namespace CoverageEstimate.Decimal

/-- The decimal digits of a natural number, at least one. -/
def digits (n : Nat) : List Char := Nat.toDigits 10 n

/-- A positive decimal, `digits · 10 ^ exponent`, whose last digit is not zero. -/
structure Scientific where
  /-- The natural number that the digits write. -/
  digits : Nat
  /-- The power of ten that it is multiplied by. -/
  exponent : Int
  deriving DecidableEq, Repr, Inhabited

/-- The number of decimal digits of a natural number. -/
def digitCount (n : Nat) : Nat := (digits n).length

/-- The exponent of the leading digit of `num / den`, which is positive: the greatest `e` with
`10 ^ e ≤ num / den`. -/
def leadingExponent (num den : Nat) : Int :=
  if den ≤ num then (digitCount (num / den) : Int) - 1
  else
    let inverse := (den + num - 1) / num
    Int.negOfNat (digitCount (inverse - 1))

/-- The fraction `num / den` divided by a power of ten. -/
def scale (num den : Nat) (exponent : Int) : Nat × Nat :=
  if 0 ≤ exponent then (num, den * Nat.pow 10 exponent.toNat)
  else (num * Nat.pow 10 (-exponent).toNat, den)

/-- The decimals that round to a given double, as an interval of fractions of one denominator. -/
structure Interval where
  /-- The least decimal, times the denominator. -/
  low : Nat
  /-- The double itself, times the denominator. -/
  middle : Nat
  /-- The greatest decimal, times the denominator. -/
  high : Nat
  /-- The common denominator. -/
  den : Nat
  /-- Whether the two ends belong to the interval. -/
  closed : Bool
  deriving DecidableEq, Repr

/-- The decimals that round to the double: all that are nearer to it than to its neighbours, and
those half way when its mantissa is even. -/
def Binary.interval (b : Binary) : Interval :=
  let (num, den) := ({ b with mantissa := 1 } : Binary).fraction
  let unit := num
  let m := 4 * b.mantissa
  let below := if b.atBoundary then 1 else 2
  ⟨(m - below) * unit, m * unit, (m + 2) * unit, 4 * den, b.mantissa % 2 == 0⟩

/-- Whether `d · 10 ^ exponent` lies in the interval. -/
def Interval.holds (i : Interval) (d : Nat) (exponent : Int) : Bool :=
  let (low, lowDen) := scale i.low i.den exponent
  let (high, highDen) := scale i.high i.den exponent
  if i.closed then low ≤ d * lowDen && d * highDen ≤ high
  else low < d * lowDen && d * highDen < high

/-- The multiple of `10 ^ exponent` to print for the interval, if one of the two around its middle
lies in it: the nearer one, and the even one of two that are equally near. -/
def Interval.onGrid? (i : Interval) (exponent : Int) : Option Nat :=
  let (num, den) := scale i.middle i.den exponent
  let near := roundHalfEven num den
  let other := if near == num / den then near + 1 else num / den
  if 0 < near && i.holds near exponent then some near
  else if 0 < other && i.holds other exponent then some other
  else none

/-- Digits without the zeros they end in, which go into the exponent. -/
def Scientific.normalize : (fuel : Nat) → Nat → Int → Scientific
  | 0, d, e => ⟨d, e⟩
  | fuel + 1, d, e => if d % 10 == 0 then normalize fuel (d / 10) (e + 1) else ⟨d, e⟩

/-- The fewest digits that identify a finite double other than zero.  Seventeen always do. -/
def Binary.shortest (b : Binary) : Scientific :=
  let i := b.interval
  let lead := leadingExponent i.middle i.den
  let found := (List.range 17).findSome? fun (n : Nat) =>
    let exponent := lead - n
    (i.onGrid? exponent).map fun d => Scientific.normalize (digitCount d) d exponent
  found.getD ⟨b.mantissa, b.exponent⟩

/-- The exponent of the leading digit. -/
def Scientific.lead (s : Scientific) : Int := s.exponent + (digitCount s.digits : Int) - 1

/-- The decimal in positional notation, with a zero before a point that would stand first. -/
def Scientific.positional (s : Scientific) : List Char :=
  let ds := Decimal.digits s.digits
  if 0 ≤ s.exponent then ds ++ List.replicate s.exponent.toNat '0'
  else
    let places := (-s.exponent).toNat
    if ds.length ≤ places then '0' :: '.' :: List.replicate (places - ds.length) '0' ++ ds
    else ds.take (ds.length - places) ++ '.' :: ds.drop (ds.length - places)

/-- The decimal with its leading digit before the point and a power of ten with its sign. -/
def Scientific.exponential (s : Scientific) : List Char :=
  let power :=
    if 0 ≤ s.lead then '+' :: Decimal.digits s.lead.toNat else '-' :: Decimal.digits (-s.lead).toNat
  match Decimal.digits s.digits with
  | d :: e :: ds => d :: '.' :: e :: ds ++ 'e' :: power
  | ds => ds ++ 'e' :: power

/-- Text with a minus sign in front if asked for. -/
def signed (negative : Bool) (text : List Char) : List Char :=
  if negative then '-' :: text else text

/-- A double in a document: the fewest digits that read back, always with a point or an exponent.
The exponent is used for magnitudes from `10 ^ 16` on and below `10 ^ (-5)`. -/
def documentText (x : Float) : String :=
  match Class.ofFloat x with
  | .notANumber => "NaN"
  | .infinite negative => String.ofList (signed negative "inf".toList)
  | .finite b =>
    if b.mantissa == 0 then String.ofList (signed b.negative "0.0".toList)
    else
      let s := b.shortest
      let text :=
        if -5 ≤ s.lead && s.lead < 16 then
          if 0 ≤ s.exponent then s.positional ++ ".0".toList else s.positional
        else s.exponential
      String.ofList (signed b.negative text)

/-- A double in a sentence: the fewest digits that read back, in positional notation throughout,
and without a point when there is nothing behind it. -/
def plainText (x : Float) : String :=
  match Class.ofFloat x with
  | .notANumber => "NaN"
  | .infinite negative => String.ofList (signed negative "inf".toList)
  | .finite b =>
    if b.mantissa == 0 then String.ofList (signed b.negative ['0'])
    else String.ofList (signed b.negative b.shortest.positional)

end CoverageEstimate.Decimal

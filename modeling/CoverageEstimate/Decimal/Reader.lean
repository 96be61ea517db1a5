/-
# Reading doubles

A decimal is read as the double that is nearest to it.  It has digits before a point, behind it or
both, and may have an exponent; words for infinity and for what is no number are read in any letter
case.
-/
namespace CoverageEstimate.Decimal

/-- The number of decimal digits. -/
def digitsValue (ds : List Char) : Nat := ds.foldl (fun n d => n * 10 + (d.toNat - '0'.toNat)) 0

/-- The double nearest to `n · 10 ^ exponent`, for a number `n` of at most `count` digits. -/
def nearest (n count : Nat) (exponent : Int) : Float :=
  if n = 0 then 0
  else if 400 < (count : Int) + exponent then 1.0 / 0.0
  else if (count : Int) + exponent < -400 then 0
  else Float.ofScientific n (exponent < 0) exponent.natAbs

/-- The exponent that a text is, which may be empty. -/
def exponent? : List Char → Option Int
  | [] => some 0
  | e :: rest =>
    if e = 'e' ∨ e = 'E' then
      let (negative, ds) := match rest with
        | '-' :: ds => (true, ds)
        | '+' :: ds => (false, ds)
        | ds => (false, ds)
      if ds.isEmpty || !ds.all Char.isDigit then none
      else
        let n : Int := digitsValue ds
        some (if negative then -n else n)
    else none

/-- The double that a text without a sign is. -/
def unsignedReal? (text : List Char) : Option Float :=
  let lower := String.ofList (text.map Char.toLower)
  if lower = "inf" ∨ lower = "infinity" then some (1.0 / 0.0)
  else if lower = "nan" then some (0.0 / 0.0)
  else
    let whole := text.takeWhile Char.isDigit
    let (part, rest) := match text.drop whole.length with
      | '.' :: rest => (rest.takeWhile Char.isDigit, rest.dropWhile Char.isDigit)
      | rest => ([], rest)
    if whole.isEmpty && part.isEmpty then none
    else
      (exponent? rest).map fun e =>
        let ds := (whole ++ part).dropWhile (· == '0')
        nearest (digitsValue ds) ds.length (e - part.length)

/-- The double that a text is. -/
def real? : List Char → Option Float
  | '-' :: rest => (unsignedReal? rest).map Neg.neg
  | '+' :: rest => unsignedReal? rest
  | text => unsignedReal? text

end CoverageEstimate.Decimal

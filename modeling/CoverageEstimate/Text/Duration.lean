/-
# Durations

A duration is written in seconds if it has any, and otherwise in milliseconds.
-/
namespace CoverageEstimate.Text

/-- The thousandths of a second as they stand behind the point, without zeros at the end. -/
def thousandthsText (ms : Nat) : String :=
  let digits := (toString (1000 + ms)).toList.drop 1
  String.ofList (digits.reverse.dropWhile (· == '0')).reverse

/-- The text of a duration that is given in milliseconds. -/
def durationText (ms : Nat) : String :=
  if ms = 0 then "0ns"
  else if ms < 1000 then toString ms ++ "ms"
  else if ms % 1000 = 0 then toString (ms / 1000) ++ "s"
  else toString (ms / 1000) ++ "." ++ thousandthsText (ms % 1000) ++ "s"

end CoverageEstimate.Text

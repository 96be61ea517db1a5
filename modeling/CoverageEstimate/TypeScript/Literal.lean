/-
# The value of a string literal

A string literal denotes the characters of its runs as they are, and for each escape the character
that the escape stands for.
-/
import CoverageEstimate.TypeScript.Tree

namespace CoverageEstimate.TypeScript

/-- The value of a hexadecimal digit. -/
def hexDigitValue? (c : Char) : Option Nat :=
  if '0' ≤ c && c ≤ '9' then some (c.toNat - '0'.toNat)
  else if 'a' ≤ c && c ≤ 'f' then some (c.toNat - 'a'.toNat + 10)
  else if 'A' ≤ c && c ≤ 'F' then some (c.toNat - 'A'.toNat + 10)
  else none

/-- The number of some hexadecimal digits, below `2 ^ 32`; there must be at least one digit. -/
def hexValue? (cs : List Char) : Option Nat :=
  if cs.isEmpty then none
  else
    match cs.mapM hexDigitValue? with
    | some ds =>
      let n := ds.foldl (fun n d => n * 16 + d) 0
      if n < Nat.pow 2 32 then some n else none
    | none => none

/-- The character of a code point, if it is one. -/
def charOfCode? (n : Nat) : Option Char := if n.isValidChar then some (Char.ofNat n) else none

/-- The digits of an escape by number, without the braces around them. -/
def withoutBraces (cs : List Char) : List Char :=
  ((cs.dropWhile (· == '\x7b')).reverse.dropWhile (· == '\x7d')).reverse

/-- What an escape stands for, from behind its backslash on.  An escape by number that gives no
character stands for itself, with its backslash. -/
def escapeValue : List Char → List Char
  | [] => []
  | c :: rest =>
    if c == 'n' then ['\n']
    else if c == 't' then ['\t']
    else if c == 'r' then ['\r']
    else if c == 'b' then ['\x08']
    else if c == 'f' then ['\x0c']
    else if c == 'v' then ['\x0b']
    else if c == '0' && rest.isEmpty then ['\x00']
    else if c == '\n' || c == '\r' || c == '\u2028' || c == '\u2029' then []
    else if c == 'x' || c == 'u' then
      match (hexValue? (withoutBraces rest)).bind charOfCode? with
      | some d => [d]
      | none => '\\' :: c :: rest
    else c :: rest

/-- What a part of a string literal stands for, given its text. -/
def partValue (kind : Kind) (text : List Char) : List Char :=
  match kind, text with
  | .escapeSequence, '\\' :: rest => escapeValue rest
  | _, _ => text

/-- The value of a string literal. -/
def stringValue (source : Array Char) (n : Node) : List Char :=
  n.namedChildren.flatMap fun c => partValue c.kind (c.text source)

end CoverageEstimate.TypeScript

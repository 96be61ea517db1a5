/-
# Written documents

A document is written with one item or member on each line, indented by two blanks for each
container around it; an empty container stands on one line.
-/
import CoverageEstimate.Decimal.Shortest
import CoverageEstimate.Json.Value

namespace CoverageEstimate.Json

/-- The four hexadecimal digits of a number below `2 ^ 16`, in lower case. -/
def hexDigits4 (n : Nat) : List Char :=
  [Nat.digitChar (n / 4096 % 16), Nat.digitChar (n / 256 % 16), Nat.digitChar (n / 16 % 16),
    Nat.digitChar (n % 16)]

/-- One character of a string.  Quotes, backslashes and control characters are escaped, with the
short escape where there is one. -/
def writeChar (c : Char) : List Char :=
  if c == '"' then ['\\', '"']
  else if c == '\\' then ['\\', '\\']
  else if c == '\n' then ['\\', 'n']
  else if c == '\r' then ['\\', 'r']
  else if c == '\t' then ['\\', 't']
  else if c.toNat == 8 then ['\\', 'b']
  else if c.toNat == 12 then ['\\', 'f']
  else if c.toNat < 32 then '\\' :: 'u' :: hexDigits4 c.toNat
  else [c]

/-- A string between its quotes. -/
def writeText (s : String) : List Char := '"' :: s.toList.flatMap writeChar ++ ['"']

/-- A number.  A double that is not finite has no number to stand for it. -/
def Number.write : Number → List Char
  | natural n => Decimal.digits n
  | negative n => '-' :: Decimal.digits n
  | real x =>
    match Decimal.Class.ofFloat x with
    | .finite _ => (Decimal.documentText x).toList
    | _ => "null".toList

/-- A line break and the blanks before a line inside so many containers. -/
def newLine (depth : Nat) : List Char := '\n' :: List.replicate (2 * depth) ' '

namespace Value

mutual

/-- A value inside so many containers. -/
def write (depth : Nat) : Value → List Char
  | null => "null".toList
  | flag b => if b then "true".toList else "false".toList
  | number n => n.write
  | text s => writeText s
  | list [] => ['[', ']']
  | list (v :: rest) =>
    '[' :: newLine (depth + 1) ++ write (depth + 1) v ++ writeItems (depth + 1) rest ++
      newLine depth ++ [']']
  | object [] => ['\x7b', '\x7d']
  | object ((n, v) :: rest) =>
    '\x7b' :: newLine (depth + 1) ++ writeText n ++ [':', ' '] ++ write (depth + 1) v ++
      writeMembers (depth + 1) rest ++ newLine depth ++ ['\x7d']

/-- The items of a list after the first one. -/
def writeItems (depth : Nat) : List Value → List Char
  | [] => []
  | v :: rest => ',' :: newLine depth ++ write depth v ++ writeItems depth rest

/-- The members of an object after the first one. -/
def writeMembers (depth : Nat) : List (String × Value) → List Char
  | [] => []
  | (n, v) :: rest =>
    ',' :: newLine depth ++ writeText n ++ [':', ' '] ++ write depth v ++ writeMembers depth rest

end

/-- The document of a value. -/
def print (v : Value) : String := String.ofList (v.write 0)

end Value

end CoverageEstimate.Json

/-
# Functions of a Dart source

The lines of a source are read once, from top to bottom.  A header starts a function; the
function ends on its own line when its body is an arrow expression ended there, and otherwise on
the first line where the braces opened since the header line are balanced and the line has a
closing brace or a semicolon.  Braces are counted wherever they stand, in strings and comments
too.
-/
import CoverageEstimate.Definition
import CoverageEstimate.Dart.Header
import CoverageEstimate.Text.Lines

namespace CoverageEstimate.Dart

open Text

/-- The number of opening braces less the number of closing braces. -/
def braceBalance : List Char → Int
  | [] => 0
  | c :: cs =>
    if c == '\x7b' then braceBalance cs + 1
    else if c == '\x7d' then braceBalance cs - 1
    else braceBalance cs

/-- Whether the text holds an arrow. -/
def hasArrow : List Char → Bool
  | [] => false
  | c :: cs => (c == '=' && cs.head? == some '>') || hasArrow cs

/-- Whether the header line is a whole function: an arrow body that a semicolon ends. -/
def isOneLine (line : List Char) : Bool :=
  hasArrow line && (trim line).getLast? == some ';'

/-- Whether a line can be the last of a body. -/
def hasCloser (line : List Char) : Bool := line.contains '\x7d' || line.contains ';'

/-- The definition that a header line starts, as long as that line is all of it. -/
def definitionAt (name : List Char) (number : Nat) (line : List Char) : FunctionDefinition :=
  { name := String.ofList name
    startLine := number
    endLine := number
    signature := String.ofList (trim line)
    kind := .function
    enclosingType := none }

/-- Where the reading of a source stands between two lines. -/
inductive Reading where
  /-- Outside of any function. -/
  | searching
  /-- In the body of a function, with so many braces open. -/
  | inBody (pending : FunctionDefinition) (depth : Int)
  deriving DecidableEq, Repr, Inhabited

namespace Reading

/-- One line of a body: the function ends on it, or its body goes on. -/
def continueBody (pending : FunctionDefinition) (depth : Int) (number : Nat) (line : List Char) :
    Reading × List FunctionDefinition :=
  let now := depth + braceBalance line
  if now == 0 && hasCloser line then (searching, [{ pending with endLine := number }])
  else (inBody pending now, [])

/-- One line of a source: where the reading stands after it, and the functions that it ends. -/
def step (r : Reading) (number : Nat) (line : List Char) : Reading × List FunctionDefinition :=
  match r with
  | searching =>
    match headerName? line with
    | none => (searching, [])
    | some name =>
      let here := definitionAt name number line
      if isOneLine line then (searching, [here]) else continueBody here 0 number line
  | inBody pending depth => continueBody pending depth number line

/-- All lines from the one with the given number on: where the reading stands in the end, and the
functions that ended on the way. -/
def run (r : Reading) (number : Nat) : List (List Char) → Reading × List FunctionDefinition
  | [] => (r, [])
  | line :: rest =>
    let (next, found) := r.step number line
    let (final, more) := next.run (number + 1) rest
    (final, found ++ more)

/-- Reading some lines and then others is reading all of them, with the numbers going on. -/
theorem run_append (r : Reading) (number : Nat) (front back : List (List Char)) :
    r.run number (front ++ back) =
      (((r.run number front).1.run (number + front.length) back).1,
        (r.run number front).2 ++ ((r.run number front).1.run (number + front.length) back).2) := by
  induction front generalizing r number with
  | nil => simp [run]
  | cons line rest ih =>
    simp only [List.cons_append, run, ih, List.length_cons, List.append_assoc]
    have h : number + 1 + rest.length = number + (rest.length + 1) := by omega
    rw [h]

end Reading

/-- The functions of a Dart source, in the order of their lines.  A function whose body does not
end before the source does is left out. -/
def functions (source : List Char) : List FunctionDefinition :=
  (Reading.searching.run 1 (lines source)).2

end CoverageEstimate.Dart

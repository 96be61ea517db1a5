/-
# Function headers in Dart

A line opens a function when it consists of type words, a name, an optional list of type
parameters, a parameter list, an optional marker of asynchrony, and the start of a body.  None of
the parts before the parameter list can hold an opening parenthesis, so the first one of the line
ends the name, and the name is found by reading backwards from there.
-/
import CoverageEstimate.Text.Blank
import CoverageEstimate.Text.Word

namespace CoverageEstimate.Dart

open Text

/-- Names that look like a header and never are one. -/
def deniedNames : List String := ["if", "for", "while", "switch", "catch", "factory", "main"]

/-- Whether the character may stand in a word before the name: a word character, or one of the
characters that types are written with. -/
def isTypeChar (c : Char) : Bool :=
  isWord c || c == '<' || c == '>' || c == '[' || c == ']' || c == '?' || c == ','

/-- Whether the text starts with a body: an arrow or an opening brace. -/
def startsBody : List Char → Bool
  | '=' :: '>' :: _ => true
  | '\x7b' :: _ => true
  | _ => false

/-- The text behind a star and the blanks after it; the star may be missing. -/
def skipStar : List Char → List Char
  | '*' :: cs => trimStart cs
  | cs => trimStart cs

/-- The text behind an optional marker of asynchrony, `async` or `sync` with an optional star. -/
def skipMarker : List Char → List Char
  | 'a' :: 's' :: 'y' :: 'n' :: 'c' :: cs => skipStar cs
  | 's' :: 'y' :: 'n' :: 'c' :: cs => skipStar cs
  | cs => cs

/-- Whether a body follows somewhere behind a closing parenthesis of the text, with at most a
marker of asynchrony between them. -/
def closesIntoBody : List Char → Bool
  | [] => false
  | c :: cs => (c == ')' && startsBody (skipMarker (trimStart cs))) || closesIntoBody cs

/-- The text before an optional list of type parameters, both read backwards.  The list holds
neither parentheses nor angle brackets. -/
def beforeTypeParameters? : List Char → Option (List Char)
  | '>' :: cs =>
    match cs.dropWhile (fun c => !(c == '(' || c == ')' || c == '<' || c == '>')) with
    | '<' :: rest => some (trimStart rest)
    | _ => none
  | cs => some cs

/-- Whether the text before a name, read backwards, is made of type words: it is empty or has a
blank next to the name, and holds only characters of types between its blanks. -/
def isTypeWords : List Char → Bool
  | [] => true
  | c :: cs => isBlank c && cs.all fun d => isBlank d || isTypeChar d

/-- The name that ends a text, when what stands before it is made of type words. -/
def declaredName? (before : List Char) : Option (List Char) :=
  match beforeTypeParameters? (trimStart before.reverse) with
  | none => none
  | some back =>
    let name := (back.takeWhile isWord).reverse
    if name.isEmpty then none
    else if isTypeWords (back.dropWhile isWord) then some name
    else none

/-- The name in a line of the shape of a header, whatever the name is. -/
def shapedName? (line : List Char) : Option (List Char) :=
  match line.dropWhile (· != '(') with
  | [] => none
  | _ :: after =>
    if closesIntoBody after then declaredName? (line.takeWhile (· != '(')) else none

/-- Whether a name of a header is left out of the report: private names start with an underscore,
and some words only look like names. -/
def isSkippedName (name : List Char) : Bool :=
  name.head? == some '_' || deniedNames.contains (String.ofList name)

/-- The name of the function that the line opens, if it opens one that is reported. -/
def headerName? (line : List Char) : Option (List Char) :=
  match shapedName? line with
  | some name => if isSkippedName name then none else some name
  | none => none

end CoverageEstimate.Dart

/-
# Signals of a Dart test file

Calls and titles are found by two patterns that are tried all over the text, without regard to
strings and comments.
-/
import CoverageEstimate.Signals
import CoverageEstimate.Text.Occurrence
import CoverageEstimate.Text.Word

namespace CoverageEstimate.Dart

open Text

/-- Words that stand before a parenthesis without being a call. -/
def callKeywords : List String := ["if", "for", "while", "switch", "catch", "return"]

/-- Whether an identifier may start with the character. -/
def isNameStart (c : Char) : Bool := c.isAlpha || c == '_' || c == '$'

/-- Whether an identifier may go on with the character. -/
def isNameChar (c : Char) : Bool := isWord c || c == '$'

/-- Whether the character may stand in the type arguments of a call. -/
def isTypeArgumentChar (c : Char) : Bool :=
  isWord c || isBlank c || c == '<' || c == '>' || c == ',' || c == '?'

/-- Whether a word boundary lies before the character `c`: it is a word character and the one
before it is not, or the other way round.  The ends of the text count as non-word characters. -/
def atBoundary (before : Option Char) (c : Char) : Bool := before.any isWord != isWord c

/-- How many characters there are up to and including the parenthesis that opens the arguments of
a call, from the end of the callee on: blanks and an optional list of type arguments may come
before it.  The type arguments reach to the last character before the parenthesis. -/
def argumentsOpenAt? (cs : List Char) : Option Nat :=
  let blanks := (cs.takeWhile isBlank).length
  match cs.dropWhile isBlank with
  | '(' :: _ => some (blanks + 1)
  | '<' :: rest =>
    let arguments := rest.takeWhile isTypeArgumentChar
    if (rest.dropWhile isTypeArgumentChar).head? == some '(' &&
        (trimEnd arguments).getLast? == some '>' then
      some (blanks + 1 + arguments.length + 1)
    else none
  | _ => none

/-- A call: an identifier at a word boundary, with the arguments opened behind it. -/
def callPattern : Pattern (List Char)
  | _, [] => none
  | before, c :: cs =>
    if isNameStart c && atBoundary before c then
      let name := c :: cs.takeWhile isNameChar
      match argumentsOpenAt? (cs.dropWhile isNameChar) with
      | some n => some (name, name.length + n)
      | none => none
    else none

/-- The words that declare a test or a group of tests. -/
def declarationWords : List (List Char) :=
  ["testWidgets".toList, "test".toList, "group".toList]

/-- A title in the quotes `quote`, from behind the opening one on, with its length and that of
the closing quote.  A title stands on one line, and no character in it is escaped. -/
def titleUntil? (quote : Char) (cs : List Char) : Option (List Char × Nat) :=
  let title := cs.takeWhile fun c => c != quote && c != '\n'
  if (cs.drop title.length).head? == some quote then some (title, title.length + 1) else none

/-- A title that opens the arguments of a declaration, from the end of the declaring word on. -/
def titleAfterWord? (cs : List Char) : Option (List Char × Nat) :=
  let blanks := (cs.takeWhile isBlank).length
  match cs.dropWhile isBlank with
  | '(' :: rest =>
    let inner := (rest.takeWhile isBlank).length
    match rest.dropWhile isBlank with
    | '\'' :: body => (titleUntil? '\'' body).map fun t => (t.1, blanks + 1 + inner + 1 + t.2)
    | '"' :: body => (titleUntil? '"' body).map fun t => (t.1, blanks + 1 + inner + 1 + t.2)
    | _ => none
  | _ => none

/-- A test declaration with a literal title: a declaring word at a word boundary, a parenthesis
and a string. -/
def titlePattern : Pattern (List Char) := fun before cs =>
  if before.any isWord then none
  else
    declarationWords.findSome? fun word =>
      if word.isPrefixOf cs then
        (titleAfterWord? (cs.drop word.length)).map fun t => (t.1, word.length + t.2)
      else none

/-- The names of a test file's calls, in the order of their places. -/
def callNames (text : List Char) : List String :=
  ((callPattern.occurrences text).map String.ofList).filter fun n => !callKeywords.contains n

/-- The titles of a test file's declarations, in the order of their places. -/
def titles (text : List Char) : List String :=
  (titlePattern.occurrences text).map String.ofList

/-- The signals of a Dart test file. -/
def signals (text : List Char) : Signals := Signals.ofLists (callNames text) (titles text)

end CoverageEstimate.Dart

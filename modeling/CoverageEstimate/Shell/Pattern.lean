/-
# Shell patterns

In the pattern of a case, a star stands for any text, a question mark for any character, and
brackets for one of several characters, unless they are quoted.
-/
namespace CoverageEstimate.Shell

/-- A character together with whether it was quoted. -/
abbrev MarkedChar := Char × Bool

/-- A part of a pattern. -/
inductive PatternItem where
  /-- The character itself. -/
  | literal (c : Char)
  /-- Any character. -/
  | anyChar
  /-- Any text. -/
  | anyText
  /-- A character in one of the ranges, or in none of them if `negated`. -/
  | oneOf (negated : Bool) (ranges : List (Char × Char))
  deriving DecidableEq, Repr, Inhabited

/-- The ranges of characters that a text between brackets lists. -/
def rangesOf : List Char → List (Char × Char)
  | a :: '-' :: b :: rest => (a, b) :: rangesOf rest
  | a :: rest => (a, a) :: rangesOf rest
  | [] => []

/-- The items of a pattern.  `inside` holds what has been read of the text between brackets. -/
def patternItems : (inside : Option (List Char)) → List MarkedChar → List PatternItem
  | none, [] => []
  | some cs, [] => .literal '[' :: cs.map .literal
  | none, (c, true) :: rest => .literal c :: patternItems none rest
  | none, (c, false) :: rest =>
    if c = '*' then .anyText :: patternItems none rest
    else if c = '?' then .anyChar :: patternItems none rest
    else if c = '[' then patternItems (some []) rest
    else .literal c :: patternItems none rest
  | some cs, (c, isQuoted) :: rest =>
    if c = ']' ∧ !isQuoted ∧ !cs.isEmpty then
      let item := match cs with
        | '!' :: others => PatternItem.oneOf true (rangesOf others)
        | '^' :: others => PatternItem.oneOf true (rangesOf others)
        | others => PatternItem.oneOf false (rangesOf others)
      item :: patternItems none rest
    else patternItems (some (cs ++ [c])) rest

/-- All ends of a text, from the text itself to the empty one. -/
def textEnds : List Char → List (List Char)
  | [] => [[]]
  | c :: rest => (c :: rest) :: textEnds rest

/-- Whether the items match the whole text. -/
def itemsMatch : List PatternItem → List Char → Bool
  | [], text => text.isEmpty
  | .literal c :: items, d :: rest => c == d && itemsMatch items rest
  | .anyChar :: items, _ :: rest => itemsMatch items rest
  | .oneOf negated ranges :: items, d :: rest =>
    ((ranges.any fun r => r.1 ≤ d && d ≤ r.2) != negated) && itemsMatch items rest
  | .anyText :: items, text => (textEnds text).any (itemsMatch items)
  | _ :: _, [] => false

/-- Whether a pattern matches the whole text. -/
def patternMatches (pattern : List MarkedChar) (text : List Char) : Bool :=
  itemsMatch (patternItems none pattern) text

/-- The text without a piece at its front that matches the pattern, the longest or the shortest
one. -/
def withoutFront (longest : Bool) (pattern text : List Char) : List Char :=
  let pattern := pattern.map fun c => (c, false)
  let cuts := (List.range (text.length + 1)).filter fun n => patternMatches pattern (text.take n)
  match if longest then cuts.getLast? else cuts.head? with
  | some n => text.drop n
  | none => text

/-- The text without a piece at its back that matches the pattern, the longest or the shortest
one. -/
def withoutBack (longest : Bool) (pattern text : List Char) : List Char :=
  let pattern := pattern.map fun c => (c, false)
  let cuts := (List.range (text.length + 1)).filter fun n => patternMatches pattern (text.drop n)
  match if longest then cuts.head? else cuts.getLast? with
  | some n => text.take n
  | none => text

end CoverageEstimate.Shell

/-
# Lexemes of TypeScript

The smallest parts of a source text: words, marks, literals, and the space and comments between
them.  What a character sequence is depends on its surroundings, so a lexeme is always asked for:
the question is whether a lexeme of some sort starts at an offset, and where it stops.
-/
import CoverageEstimate.TypeScript.Tree

namespace CoverageEstimate.TypeScript

/-- A source text.  Offsets count its characters. -/
abbrev Source := Array Char

/-- The first offset from `pos` on whose character does not satisfy the condition.  The fuel is the
number of characters that are left. -/
def skipWhile (p : Char → Bool) (src : Source) : (fuel : Nat) → (pos : Nat) → Nat
  | 0, pos => pos
  | fuel + 1, pos =>
    match src[pos]? with
    | some c => if p c then skipWhile p src fuel (pos + 1) else pos
    | none => pos

/-- The first offset from `pos` on whose character does not satisfy the condition. -/
def spanEnd (p : Char → Bool) (src : Source) (pos : Nat) : Nat :=
  skipWhile p src (src.size - pos) pos

/-- Whether the text stands at the offset. -/
def standsAt (src : Source) : List Char → (pos : Nat) → Bool
  | [], _ => true
  | c :: cs, pos => src[pos]? == some c && standsAt src cs (pos + 1)

/-! ## Space and comments -/

/-- Whether the character separates lexemes: blanks, line breaks and the invisible characters that
count as blanks. -/
def isSpaceChar (c : Char) : Bool :=
  let n := c.toNat
  (9 ≤ n && n ≤ 13) || n == 32 || n == 0xA0 || n == 0x1680 || (0x2000 ≤ n && n ≤ 0x200B) ||
    n == 0x2028 || n == 0x2029 || n == 0x202F || n == 0x205F || n == 0x2060 || n == 0x3000 ||
    n == 0xFEFF

/-- Whether the character ends a line. -/
def isLineEnd (c : Char) : Bool := c == '\n' || c == '\u2028' || c == '\u2029'

/-- The offset behind the end of a block comment, from behind its start on. -/
def blockCommentEnd (src : Source) : (fuel : Nat) → (pos : Nat) → Nat
  | 0, pos => pos
  | fuel + 1, pos =>
    if standsAt src ['*', '/'] pos then pos + 2
    else if pos < src.size then blockCommentEnd src fuel (pos + 1)
    else pos

/-- The offset behind the comment that starts at `pos`, if one does. -/
def commentEnd? (src : Source) (pos : Nat) : Option Nat :=
  if standsAt src ['/', '/'] pos then
    some (spanEnd (fun c => !(isLineEnd c || c == '\r')) src pos)
  else if standsAt src ['/', '*'] pos then some (blockCommentEnd src (src.size - pos) (pos + 2))
  else none

/-- What stands between two lexemes. -/
structure Gap where
  /-- The comments, from left to right. -/
  comments : List Node
  /-- Whether a line ends outside of comments. -/
  hasLineEnd : Bool
  /-- The offset of the next lexeme. -/
  stop : Nat

/-- The gap that starts at an offset.  The fuel is more than the number of its comments. -/
def gapFrom (src : Source) : (fuel : Nat) → (pos : Nat) → Gap
  | 0, pos => ⟨[], false, pos⟩
  | fuel + 1, pos =>
    let next := spanEnd isSpaceChar src pos
    let ended := (slice src pos next).any isLineEnd
    match commentEnd? src next with
    | none => ⟨[], ended, next⟩
    | some stop =>
      let gap := gapFrom src fuel stop
      ⟨.mk .comment none next stop [] :: gap.comments, ended || gap.hasLineEnd, gap.stop⟩

/-- The gap that starts at an offset. -/
def gapAt (src : Source) (pos : Nat) : Gap := gapFrom src (src.size - pos + 1) pos

/-! ## Words -/

/-- The characters that are marks of their own and stand in no word. -/
def wordBreakers : List Char :=
  [':', ';', '\x60', '"', '\'', '@', '#', '.', ',', '|', '^', '&', '<', '=', '>', '+', '-', '*',
    '/', '\\', '%', '?', '!', '~', '(', ')', '[', ']', '\x7b', '\x7d']

/-- Whether the character may stand in a word, be it as its first character or behind it. -/
def isWordChar (c : Char) : Bool :=
  32 ≤ c.toNat && !isSpaceChar c && !wordBreakers.contains c

/-- Whether a word may start with the character. -/
def isWordStart (c : Char) : Bool := isWordChar c && !c.isDigit

/-- Whether the character is a hexadecimal digit. -/
def isHexDigit (c : Char) : Bool :=
  c.isDigit || ('a' ≤ c && c ≤ 'f') || ('A' ≤ c && c ≤ 'F')

/-- The offset behind exactly `count` characters that satisfy the condition. -/
def takeExactly? (p : Char → Bool) (src : Source) : (count pos : Nat) → Option Nat
  | 0, pos => some pos
  | count + 1, pos => if (src[pos]?).any p then takeExactly? p src count (pos + 1) else none

/-- The offset behind a character that a word writes by its number, from its backslash on. -/
def wordEscapeEnd? (src : Source) (pos : Nat) : Option Nat :=
  if standsAt src ['\\', 'u', '\x7b'] pos then
    let stop := spanEnd isHexDigit src (pos + 3)
    if pos + 3 < stop && src[stop]? == some '\x7d' then some (stop + 1) else none
  else if standsAt src ['\\', 'u'] pos then takeExactly? isHexDigit src 4 (pos + 2)
  else none

/-- The offset behind the rest of a word. -/
def wordRestEnd (src : Source) : (fuel : Nat) → (pos : Nat) → Nat
  | 0, pos => pos
  | fuel + 1, pos =>
    let stop := spanEnd isWordChar src pos
    match wordEscapeEnd? src stop with
    | some next => wordRestEnd src fuel next
    | none => stop

/-- The offset behind the word that starts at `pos`, if one does. -/
def wordEnd? (src : Source) (pos : Nat) : Option Nat :=
  if (src[pos]?).any isWordStart then some (wordRestEnd src (src.size - pos) (pos + 1))
  else
    match wordEscapeEnd? src pos with
    | some next => some (wordRestEnd src (src.size - pos) next)
    | none => none

/-- The words that are no names of variables. -/
def reservedWords : List String :=
  ["await", "break", "case", "catch", "class", "const", "continue", "debugger", "default", "delete",
    "do", "else", "enum", "extends", "false", "finally", "for", "function", "if", "import", "in",
    "instanceof", "new", "null", "return", "super", "switch", "this", "throw", "true", "try",
    "typeof", "undefined", "var", "void", "while", "with", "yield"]

/-! ## Marks -/

/-- All marks of the language, the longer ones before their beginnings. -/
def marks : List (List Char) :=
  [">>>=", "...", "===", "!==", "**=", "<<=", ">>=", ">>>", "&&=", "||=", "??=", "=>", "==", "!=",
    "<=", ">=", "&&", "||", "??", "?.", "++", "--", "+=", "-=", "*=", "/=", "%=", "&=", "|=", "^=",
    "<<", ">>", "**", "\x7b", "\x7d", "(", ")", "[", "]", ";", ",", "<", ">", "+", "-", "*", "/",
    "%", "&", "|", "^", "!", "~", "?", ":", "=", ".", "@", "#", "\x60"].map String.toList

/-- The longest mark at an offset.  A question mark before a point with a digit behind it is a mark
alone, because the point belongs to the number. -/
def markAt? (src : Source) (pos : Nat) : Option (List Char) :=
  match marks.find? fun m => standsAt src m pos with
  | some ['?', '.'] => if (src[pos + 2]?).any Char.isDigit then some ['?'] else some ['?', '.']
  | m => m

/-! ## Numbers and regular expressions -/

/-- Whether the character may stand among the digits of a number of any base, or in its suffix. -/
def isNumberChar (c : Char) : Bool := c.isAlphanum || c == '_'

/-- Whether the character may stand among decimal digits. -/
def isDecimalChar (c : Char) : Bool := c.isDigit || c == '_'

/-- The offset behind an exponent at `pos`, or `pos` if there is none. -/
def exponentEnd (src : Source) (pos : Nat) : Nat :=
  if src[pos]? == some 'e' || src[pos]? == some 'E' then
    let sign := pos + 1
    let first := if src[sign]? == some '+' || src[sign]? == some '-' then sign + 1 else sign
    if (src[first]?).any Char.isDigit then spanEnd isDecimalChar src first else pos
  else pos

/-- The offset behind the number that starts at `pos`, if one does. -/
def numberEnd? (src : Source) (pos : Nat) : Option Nat :=
  let isBase (c : Char) := c == 'x' || c == 'X' || c == 'o' || c == 'O' || c == 'b' || c == 'B'
  if src[pos]? == some '0' && (src[pos + 1]?).any isBase then some (spanEnd isNumberChar src pos)
  else if (src[pos]?).any Char.isDigit then
    let whole := spanEnd isDecimalChar src pos
    if src[whole]? == some 'n' then some (whole + 1)
    else if src[whole]? == some '.' then
      some (exponentEnd src (spanEnd isDecimalChar src (whole + 1)))
    else some (exponentEnd src whole)
  else if src[pos]? == some '.' && (src[pos + 1]?).any Char.isDigit then
    some (exponentEnd src (spanEnd isDecimalChar src (pos + 1)))
  else none

/-- The offset behind the closing slash of a regular expression, from inside it on.  A slash between
brackets closes nothing. -/
def regexBodyEnd? (src : Source) : (fuel : Nat) → (inClass : Bool) → (pos : Nat) → Option Nat
  | 0, _, _ => none
  | fuel + 1, inClass, pos =>
    match src[pos]? with
    | none => none
    | some c =>
      if c == '\n' then none
      else if c == '\\' then regexBodyEnd? src fuel inClass (pos + 2)
      else if c == '[' then regexBodyEnd? src fuel true (pos + 1)
      else if c == ']' then regexBodyEnd? src fuel false (pos + 1)
      else if c == '/' && !inClass then some (pos + 1)
      else regexBodyEnd? src fuel inClass (pos + 1)

/-- The offset behind the regular expression that starts at `pos`, if one does. -/
def regexEnd? (src : Source) (pos : Nat) : Option Nat :=
  if src[pos]? == some '/' && src[pos + 1]? != some '/' && src[pos + 1]? != some '*' then
    (regexBodyEnd? src (src.size - pos) false (pos + 1)).map (spanEnd Char.isAlpha src)
  else none

/-! ## Strings and templates -/

/-- The offset behind the escape whose backslash is at `pos`, if it is one. -/
def escapeEnd? (src : Source) (pos : Nat) : Option Nat :=
  match src[pos + 1]? with
  | none => none
  | some c =>
    if c == 'x' then takeExactly? isHexDigit src 2 (pos + 2)
    else if c == 'u' then wordEscapeEnd? src pos
    else if '0' ≤ c && c ≤ '7' then
      let isOctal (d : Char) : Bool := '0' ≤ d && d ≤ '7'
      some (min (spanEnd isOctal src (pos + 1)) (pos + 4))
    else if (c == '\r' || c == '?') && (src[pos + 2]?).any isLineEnd then some (pos + 3)
    else some (pos + 2)

/-- The parts of a string from an offset inside it on, and the offset of its closing quote: runs of
characters that stand for themselves, and escapes.  A string ends on the line it starts on, unless
the line break is escaped. -/
def stringParts? (src : Source) (quote : Char) :
    (fuel : Nat) → (pos : Nat) → Option (List Node × Nat)
  | 0, _ => none
  | fuel + 1, pos =>
    match src[pos]? with
    | none => none
    | some c =>
      if c == quote then some ([], pos)
      else if c == '\n' || c == '\r' then none
      else
        let part? : Option (Kind × Nat) :=
          if c == '\\' then (escapeEnd? src pos).map fun stop => (Kind.escapeSequence, stop)
          else
            let plain (d : Char) := d != quote && d != '\\' && d != '\n' && d != '\r'
            some (.stringFragment, spanEnd plain src pos)
        match part? with
        | none => none
        | some (kind, stop) =>
          (stringParts? src quote fuel stop).map fun r => (.mk kind none pos stop [] :: r.1, r.2)

/-- The string that starts at `pos`, if one does. -/
def stringAt? (src : Source) (pos : Nat) : Option Node :=
  match src[pos]? with
  | none => none
  | some quote =>
    if quote == '"' || quote == '\'' then
      let mark (p : Nat) : Node := .mk (.token (String.singleton quote)) none p (p + 1) []
      (stringParts? src quote (src.size - pos) (pos + 1)).map fun r =>
        .mk .string none pos (r.2 + 1) (mark pos :: r.1 ++ [mark r.2])
    else none

/-- The offset behind the characters of a template that stand for themselves, and behind its
escapes. -/
def templateCharsEnd (src : Source) : (fuel : Nat) → (pos : Nat) → Nat
  | 0, pos => pos
  | fuel + 1, pos =>
    match src[pos]? with
    | none => pos
    | some c =>
      if c == '\x60' then pos
      else if c == '$' && src[pos + 1]? == some '\x7b' then pos
      else if c == '\\' then templateCharsEnd src fuel (min (pos + 2) src.size)
      else templateCharsEnd src fuel (pos + 1)

/-! ## Brackets that are not looked into -/

/-- The closing bracket for an opening one. -/
def closerOf? (c : Char) : Option Char :=
  if c == '(' then some ')'
  else if c == '[' then some ']'
  else if c == '\x7b' then some '\x7d'
  else none

/-- The offset behind the bracket that closes the last of the open ones, with strings, templates and
comments on the way passed over.  In `pending` stand the closing brackets that are waited for, from the
inside out; a backtick waits for the end of a template. -/
def bracketsEnd? (src : Source) : (fuel : Nat) → (pending : List Char) → (pos : Nat) → Option Nat
  | 0, _, _ => none
  | _ + 1, [], pos => some pos
  | fuel + 1, wanted :: around, pos =>
    match src[pos]? with
    | none => none
    | some c =>
      if wanted == '\x60' then
        if c == '\x60' then bracketsEnd? src fuel around (pos + 1)
        else if c == '\\' then bracketsEnd? src fuel (wanted :: around) (pos + 2)
        else if c == '$' && src[pos + 1]? == some '\x7b' then
          bracketsEnd? src fuel ('\x7d' :: wanted :: around) (pos + 2)
        else bracketsEnd? src fuel (wanted :: around) (pos + 1)
      else if c == wanted then bracketsEnd? src fuel around (pos + 1)
      else if c == '\x60' then bracketsEnd? src fuel ('\x60' :: wanted :: around) (pos + 1)
      else
        match closerOf? c, stringAt? src pos, commentEnd? src pos with
        | some closer, _, _ => bracketsEnd? src fuel (closer :: wanted :: around) (pos + 1)
        | none, some s, _ => bracketsEnd? src fuel (wanted :: around) s.stop
        | none, none, some stop => bracketsEnd? src fuel (wanted :: around) stop
        | none, none, none =>
          if c == ')' || c == ']' || c == '\x7d' then none
          else bracketsEnd? src fuel (wanted :: around) (pos + 1)

/-- The offset behind a bracketed text that starts at `pos` with the given bracket or backtick. -/
def bracketedEnd? (src : Source) (opener : Char) (pos : Nat) : Option Nat :=
  if src[pos]? == some opener then
    bracketsEnd? src (src.size - pos + 1) [(closerOf? opener).getD opener] (pos + 1)
  else none

end CoverageEstimate.TypeScript

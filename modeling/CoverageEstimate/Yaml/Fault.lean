/-
# Malformed YAML

A text that is no YAML has a fault at a place, and often a context: what was being read when the
fault was found, and where that began.
-/
namespace CoverageEstimate.Yaml

/-- A place in a text, counted from zero. -/
structure Mark where
  /-- The number of characters before it. -/
  index : Nat
  /-- The number of lines before it. -/
  line : Nat
  /-- The number of characters before it on its line. -/
  column : Nat
  deriving DecidableEq, Repr, Inhabited

namespace Mark

/-- The start of a text. -/
def start : Mark := ⟨0, 0, 0⟩

/-- Whether the mark is the first one of the first line, which messages do not name. -/
def isFirst (m : Mark) : Bool := m.line == 0 && m.column == 0

/-- The text of a mark. -/
def text (m : Mark) : String :=
  if m.isFirst then "position " ++ toString m.index
  else "line " ++ toString (m.line + 1) ++ " column " ++ toString (m.column + 1)

end Mark

/-- What is wrong with a text. -/
inductive Problem where
  | badTokenStart
  | noColon
  | entryNotAllowed
  | keyNotAllowed
  | valueNotAllowed
  | unknownDirective
  | noLineEnd
  | noDirectiveName
  | badDirectiveName
  | noVersionPoint
  | longVersion
  | noVersionNumber
  | noBlank
  | noBlankOrLineEnd
  | noAnchorName
  | noClosingAngle
  | noExclamationMark
  | noTagUri
  | noEscapedOctet
  | badLeadingOctet
  | badTrailingOctet
  | zeroIndentation
  | tabForSpace
  | documentMark
  | endOfStream
  | unknownEscape
  | noHexDigit
  | badCharacterCode
  | unexpectedColon
  | tabInIndentation
  | noDocumentStart
  | undefinedHandle
  | noContent
  | noEntry
  | noKey
  | noNextItem
  | noNextMember
  | secondVersion
  | otherVersion
  | secondTagDirective
  | controlCharacter
  deriving DecidableEq, Repr, Inhabited

/-- The text of a problem. -/
def Problem.text : Problem → String
  | badTokenStart => "found character that cannot start any token"
  | noColon => "could not find expected ':'"
  | entryNotAllowed => "block sequence entries are not allowed in this context"
  | keyNotAllowed => "mapping keys are not allowed in this context"
  | valueNotAllowed => "mapping values are not allowed in this context"
  | unknownDirective => "found unknown directive name"
  | noLineEnd => "did not find expected comment or line break"
  | noDirectiveName => "could not find expected directive name"
  | badDirectiveName => "found unexpected non-alphabetical character"
  | noVersionPoint => "did not find expected digit or '.' character"
  | longVersion => "found extremely long version number"
  | noVersionNumber => "did not find expected version number"
  | noBlank => "did not find expected whitespace"
  | noBlankOrLineEnd => "did not find expected whitespace or line break"
  | noAnchorName => "did not find expected alphabetic or numeric character"
  | noClosingAngle => "did not find the expected '>'"
  | noExclamationMark => "did not find expected '!'"
  | noTagUri => "did not find expected tag URI"
  | noEscapedOctet => "did not find URI escaped octet"
  | badLeadingOctet => "found an incorrect leading UTF-8 octet"
  | badTrailingOctet => "found an incorrect trailing UTF-8 octet"
  | zeroIndentation => "found an indentation indicator equal to 0"
  | tabForSpace => "found a tab character where an indentation space is expected"
  | documentMark => "found unexpected document indicator"
  | endOfStream => "found unexpected end of stream"
  | unknownEscape => "found unknown escape character"
  | noHexDigit => "did not find expected hexdecimal number"
  | badCharacterCode => "found invalid Unicode character escape code"
  | unexpectedColon => "found unexpected ':'"
  | tabInIndentation => "found a tab character that violates indentation"
  | noDocumentStart => "did not find expected <document start>"
  | undefinedHandle => "found undefined tag handle"
  | noContent => "did not find expected node content"
  | noEntry => "did not find expected '-' indicator"
  | noKey => "did not find expected key"
  | noNextItem => "did not find expected ',' or ']'"
  | noNextMember => "did not find expected ',' or '\x7d'"
  | secondVersion => "found duplicate %YAML directive"
  | otherVersion => "found incompatible YAML document"
  | secondTagDirective => "found duplicate %TAG directive"
  | controlCharacter => "control characters are not allowed"

/-- What was being read when a problem was found. -/
inductive Context where
  | nextToken
  | simpleKey
  | directive
  | versionDirective
  | tagDirective
  | tagDirectiveHandle
  | tagDirectiveUri
  | anchor
  | reference
  | tag
  | tagUri
  | blockScalar
  | quotedScalar
  | escape
  | plainScalar
  | node
  | blockNode
  | flowNode
  | blockSequence
  | blockMapping
  | flowSequence
  | flowMapping
  deriving DecidableEq, Repr, Inhabited

/-- The text of a context. -/
def Context.text : Context → String
  | nextToken => "while scanning for the next token"
  | simpleKey => "while scanning a simple key"
  | directive => "while scanning a directive"
  | versionDirective => "while scanning a %YAML directive"
  | tagDirective => "while scanning a %TAG directive"
  | tagDirectiveHandle => "while parsing a tag directive"
  | tagDirectiveUri => "while parsing a %TAG directive"
  | anchor => "while scanning an anchor"
  | reference => "while scanning an alias"
  | tag => "while scanning a tag"
  | tagUri => "while parsing a tag"
  | blockScalar => "while scanning a block scalar"
  | quotedScalar => "while scanning a quoted scalar"
  | escape => "while parsing a quoted scalar"
  | plainScalar => "while scanning a plain scalar"
  | node => "while parsing a node"
  | blockNode => "while parsing a block node"
  | flowNode => "while parsing a flow node"
  | blockSequence => "while parsing a block collection"
  | blockMapping => "while parsing a block mapping"
  | flowSequence => "while parsing a flow sequence"
  | flowMapping => "while parsing a flow mapping"

/-- A fault of a text. -/
structure Fault where
  problem : Problem
  /-- Where it is. -/
  place : Mark
  /-- What was being read, and where that began. -/
  context : Option (Context × Mark)
  /-- The number of bytes before it, for a fault that is found before lines are told apart. -/
  offset : Nat
  deriving DecidableEq, Repr, Inhabited

/-- The message for a fault.  The place where the context began is left out when it is the one of
the problem or the start of the text. -/
def Fault.message (f : Fault) : String :=
  let place :=
    if !f.place.isFirst then " at " ++ f.place.text
    else if f.offset != 0 then " at position " ++ toString f.offset
    else ""
  let context :=
    match f.context with
    | none => ""
    | some (c, m) =>
      ", " ++ c.text ++
        (if !m.isFirst && (m.line != f.place.line || m.column != f.place.column)
          then " at " ++ m.text else "")
  f.problem.text ++ place ++ context

end CoverageEstimate.Yaml

/-
# Reading globs

In a glob a question mark stands for one byte and a star for any number of them.  A double star
that is alone between slashes, or between a slash and an end, stands for directories.  Brackets hold
characters and ranges of them, with an exclamation mark or a circumflex in front for all others;
braces hold alternatives between commas; and a backslash takes the special meaning from the
character behind it.
-/
import CoverageEstimate.Glob.Basic
import CoverageEstimate.Text.Quoted

namespace CoverageEstimate

/-- Why a text is no glob. -/
inductive GlobFault where
  /-- A bracket is opened and not closed. -/
  | unclosedBracket
  /-- A range ends before it starts. -/
  | reversedRange (first last : Char)
  /-- A brace is closed that was not opened. -/
  | unopenedBrace
  /-- A brace is opened and not closed. -/
  | unclosedBrace
  /-- The text ends in a backslash that nothing follows. -/
  | nothingEscaped
  deriving DecidableEq, Repr, Inhabited

/-- The text that messages give for the fault. -/
def GlobFault.reason : GlobFault → String
  | unclosedBracket => "unclosed character class; missing ']'"
  | reversedRange first last =>
    "invalid range; '" ++ String.singleton first ++ "' > '" ++ String.singleton last ++ "'"
  | unopenedBrace => "unopened alternate group; missing '\x7b' (maybe escape '\x7d' with '[\x7d]'?)"
  | unclosedBrace => "unclosed alternate group; missing '\x7d' (maybe escape '\x7b' with '[\x7b]'?)"
  | nothingEscaped => "dangling '\\'"

/-- The message for a text that is no glob. -/
def GlobFault.message (fault : GlobFault) (text : String) : String :=
  "error parsing glob '" ++ text ++ "': " ++ fault.reason

namespace Glob

/-- A brace that is open: the tokens before it, the last one first, and its finished branches. -/
structure OpenBrace where
  before : List GlobToken
  branches : List (List GlobToken)
  deriving Inhabited

/-- What has been read of a bracket: whether it is negated, whether its first character is still to
come, whether a dash waits for the end of its range, and the ranges so far, the last one first. -/
structure OpenBracket where
  negated : Bool
  isAtStart : Bool
  hasDash : Bool
  ranges : List (Char × Char)
  deriving Inhabited

/-- What has been read of a glob: the braces that are open, the innermost one first, the tokens of
the current branch, the last one first, and the character read last. -/
structure Reading where
  braces : List OpenBrace
  tokens : List GlobToken
  previous : Option Char
  deriving Inhabited

namespace Reading

/-- The reading with one more token, which ends in the character `last`. -/
def add (r : Reading) (token : GlobToken) (last : Char) : Reading :=
  { r with tokens := token :: r.tokens, previous := some last }

/-- Two tokens for a double star that is not alone. -/
def addTwoStars (r : Reading) : Reading := (r.add .anyBytes '*').add .anyBytes '*'

/-- The reading with its last token replaced by the one for a double star, which absorbs the slash
before it, unless that is a double star itself. -/
def absorbSlash (r : Reading) (token : GlobToken) (last : Char) : Reading :=
  match r.tokens with
  | .leadingDirectories :: _ => { r with previous := some last }
  | .trailingPath :: _ => { r with previous := some last }
  | _ :: rest => { r with tokens := token :: rest, previous := some last }
  | [] => r

/-- Whether a double star may follow the tokens so far as one that is alone. -/
def allowsDirectories (r : Reading) : Bool :=
  r.previous == some '/' ||
    (!r.braces.isEmpty && (r.previous == some ',' || r.previous == some '\x7b'))

/-- The reading with the current brace closed. -/
def closeBrace (r : Reading) : Except GlobFault Reading :=
  match r.braces with
  | [] => .error .unopenedBrace
  | brace :: outer =>
    .ok ⟨outer, .alternates (brace.branches ++ [r.tokens.reverse]) :: brace.before, some '\x7d'⟩

/-- The reading with a comma, which starts another branch of the innermost brace. -/
def addComma (r : Reading) : Reading :=
  match r.braces with
  | [] => r.add (.literal ',') ','
  | brace :: outer =>
    ⟨{ brace with branches := brace.branches ++ [r.tokens.reverse] } :: outer, [], some ','⟩

/-- The reading with a brace opened. -/
def openBrace (r : Reading) : Reading := ⟨⟨r.tokens, []⟩ :: r.braces, [], some '\x7b'⟩

/-- The tokens of a finished reading. -/
def finish (r : Reading) : Except GlobFault Glob :=
  if r.braces.isEmpty then .ok r.tokens.reverse else .error .unclosedBrace

end Reading

namespace OpenBracket

/-- The bracket with one more character. -/
def add (b : OpenBracket) (c : Char) : Except GlobFault OpenBracket :=
  if c = '-' ∧ !b.isAtStart ∧ !b.hasDash then .ok { b with hasDash := true }
  else if b.hasDash then
    match b.ranges with
    | (first, _) :: rest =>
      if c < first then .error (.reversedRange first c)
      else .ok { b with hasDash := false, isAtStart := false, ranges := (first, c) :: rest }
    | [] => .ok b
  else .ok { b with isAtStart := false, ranges := (c, c) :: b.ranges }

/-- The token for a bracket that is closed.  A dash at its end stands for itself. -/
def token (b : OpenBracket) : GlobToken :=
  .byteIn b.negated (if b.hasDash then ('-', '-') :: b.ranges else b.ranges).reverse

end OpenBracket

/-- The glob of a text, of which a part has been read and, inside a bracket, a part of that. -/
def readFrom : Reading → Option OpenBracket → List Char → Except GlobFault Glob
  | r, none, [] => r.finish
  | _, some _, [] => .error .unclosedBracket
  | r, some b, c :: rest =>
    if c = ']' ∧ !b.isAtStart then readFrom (r.add b.token ']') none rest
    else
      match b.add c with
      | .ok more => readFrom r (some more) rest
      | .error fault => .error fault
  | r, none, '*' :: '*' :: rest =>
    if r.tokens.isEmpty then
      match rest with
      | [] => readFrom (r.add .leadingDirectories '*') none []
      | '/' :: others => readFrom (r.add .leadingDirectories '/') none others
      | c :: others => readFrom r.addTwoStars none (c :: others)
    else if r.allowsDirectories then
      match rest with
      | [] => readFrom (r.absorbSlash .trailingPath '*') none []
      | c :: others =>
        if c = '/' then readFrom (r.absorbSlash .innerDirectories '/') none others
        else if (c = ',' ∨ c = '\x7d') ∧ !r.braces.isEmpty then
          readFrom (r.absorbSlash .trailingPath '*') none (c :: others)
        else readFrom r.addTwoStars none (c :: others)
    else readFrom r.addTwoStars none rest
  | r, none, '\\' :: rest =>
    match rest with
    | [] => .error .nothingEscaped
    | c :: others => readFrom (r.add (.literal c) c) none others
  | r, none, '[' :: rest =>
    match rest with
    | '!' :: others => readFrom r (some ⟨true, true, false, []⟩) others
    | '^' :: others => readFrom r (some ⟨true, true, false, []⟩) others
    | others => readFrom r (some ⟨false, true, false, []⟩) others
  | r, none, '*' :: rest => readFrom (r.add .anyBytes '*') none rest
  | r, none, '?' :: rest => readFrom (r.add .anyByte '?') none rest
  | r, none, ',' :: rest => readFrom r.addComma none rest
  | r, none, c :: rest =>
    if c = '\x7b' then readFrom r.openBrace none rest
    else if c = '\x7d' then
      match r.closeBrace with
      | .ok outer => readFrom outer none rest
      | .error fault => .error fault
    else readFrom (r.add (.literal c) c) none rest

/-- The glob of a text. -/
def ofText (text : String) : Except GlobFault Glob :=
  readFrom ⟨[], [], none⟩ none text.toList

end Glob

/-- What a project leaves out of a scan: the paths that match one of some globs. -/
abbrev Exclusions := List Glob

namespace Exclusions

/-- A pattern that is no glob. -/
structure Fault where
  pattern : String
  fault : GlobFault
  deriving DecidableEq, Repr, Inhabited

/-- The exclusions of some patterns, or the first pattern that is no glob. -/
def ofPatterns : List String → Except Fault Exclusions
  | [] => .ok []
  | pattern :: rest =>
    match Glob.ofText pattern with
    | .error fault => .error ⟨pattern, fault⟩
    | .ok glob =>
      match ofPatterns rest with
      | .error fault => .error fault
      | .ok globs => .ok (glob :: globs)

/-- The message for a pattern that is no glob. -/
def Fault.message (f : Fault) : String :=
  "invalid exclusion pattern " ++ Text.quoted f.pattern ++ ": " ++ f.fault.message f.pattern

/-- Whether a path is left out. -/
def excludes (exclusions : Exclusions) (path : String) : Bool :=
  exclusions.any fun glob => glob.isMatch path

end Exclusions

end CoverageEstimate

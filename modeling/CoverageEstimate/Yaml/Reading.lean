/-
# The state of reading YAML

A text is read character by character into tokens, which wait in a queue until they are taken.  A
key is known for one only at the colon behind it; until then its place in the queue is remembered,
because other tokens go before it.
-/
import CoverageEstimate.Yaml.Fault

namespace CoverageEstimate.Yaml

/-- What a token is. -/
inductive TokenKind where
  | streamStart
  | streamEnd
  | versionDirective (major minor : Nat)
  | tagDirective (handle beginning : String)
  | documentStart
  | documentEnd
  | blockSequenceStart
  | blockMappingStart
  | blockEnd
  | flowSequenceStart
  | flowSequenceEnd
  | flowMappingStart
  | flowMappingEnd
  | blockEntry
  | flowEntry
  | key
  | value
  | reference (name : String)
  | anchor (name : String)
  | tag (handle rest : String)
  | scalar (text : String) (isPlain : Bool)
  deriving DecidableEq, Repr, Inhabited

/-- A token with its first place and the place behind it. -/
structure Token where
  kind : TokenKind
  start : Mark
  stop : Mark
  deriving DecidableEq, Repr, Inhabited

/-- What may turn out to be a key. -/
structure SimpleKey where
  /-- Whether there is such a thing. -/
  isPossible : Bool
  /-- Whether nothing but a key may stand there. -/
  isRequired : Bool
  /-- The number of tokens before it. -/
  number : Nat
  mark : Mark
  deriving DecidableEq, Repr, Inhabited

/-- The state of reading. -/
structure Reading where
  /-- What has not been read. -/
  rest : List Char
  /-- Where that starts. -/
  mark : Mark
  /-- The tokens that have not been taken. -/
  queue : List Token
  /-- The number of tokens that have been taken. -/
  taken : Nat
  /-- The column of the innermost block, or -1 outside all blocks. -/
  indent : Int
  /-- The columns of the blocks around it. -/
  outerIndents : List Int
  /-- Whether a key may start here. -/
  isKeyAllowed : Bool
  /-- The possible key of each open bracket, the innermost one first, and of the text outside. -/
  keys : List SimpleKey
  /-- How many brackets are open. -/
  flowDepth : Nat
  /-- Whether the first token has been read. -/
  isStarted : Bool
  deriving Inhabited

/-- Reading that may find a fault; what has been read before it stays. -/
abbrev Scan := ExceptT Fault (StateM Reading)

/-- Finds a problem at the current place. -/
def fail (problem : Problem) (context : Option (Context × Mark)) : Scan α := do
  throw ⟨problem, (← get).mark, context, 0⟩

/-! ## Characters -/

/-- Whether a character ends a line. -/
def isBreak (c : Char) : Bool :=
  c == '\n' || c == '\r' || c == '\u0085' || c == '\u2028' || c == '\u2029'

/-- Whether a character is a blank on its line. -/
def isGap (c : Char) : Bool := c == ' ' || c == '\t'

/-- Whether a text starts with a blank or an end of a line, or is empty. -/
def startsBlank : List Char → Bool
  | [] => true
  | c :: _ => isGap c || isBreak c

/-- Whether a character may stand in the name of an anchor. -/
def isNameChar (c : Char) : Bool := c.isAlphanum || c == '_' || c == '-'

/-- The mark some characters further on the same line. -/
def Mark.advance (m : Mark) (count : Nat) : Mark :=
  { m with index := m.index + count, column := m.column + count }

/-- Passes over some characters of a line. -/
def advance (count : Nat) : Scan Unit :=
  modify fun r => { r with rest := r.rest.drop count, mark := r.mark.advance count }

/-- Passes over characters of a kind, and gives them. -/
def takeWhile (p : Char → Bool) : Scan (List Char) := do
  let text := (← get).rest.takeWhile p
  advance text.length
  return text

/-- The next character. -/
def peek? : Scan (Option Char) := return (← get).rest.head?

/-- Whether the next character is the given one. -/
def isNext (c : Char) : Scan Bool := return (← peek?) == some c

/-- Whether the text goes on with a blank, ends its line or ends. -/
def isBlankNext : Scan Bool := return startsBlank (← get).rest

/-- Passes over the end of a line, if there is one, and gives the character it stands for. -/
def takeBreak : Scan (List Char) := do
  let r ← get
  let next (width : Nat) (text : List Char) : Scan (List Char) := do
    set { r with
      rest := r.rest.drop width
      mark := ⟨r.mark.index + width, r.mark.line + 1, 0⟩ }
    return text
  match r.rest with
  | '\r' :: '\n' :: _ => next 2 ['\n']
  | c :: _ =>
    if !isBreak c then return []
    else if c == '\u2028' || c == '\u2029' then next 1 [c]
    else next 1 ['\n']
  | [] => return []

/-- Whether the end of the text or of a line comes next. -/
def isLineEndNext : Scan Bool := return (← get).rest.head?.all isBreak

/-- Passes over blanks and a comment. -/
def skipComment : Scan Unit := do
  let _ ← takeWhile isGap
  if ← isNext '#' then
    let _ ← takeWhile fun c => !isBreak c

/-- Whether a mark of a document's start or end stands at the start of the line. -/
def Reading.isAtDocumentMark (r : Reading) : Bool :=
  r.mark.column == 0 &&
    (r.rest.take 3 == ['-', '-', '-'] || r.rest.take 3 == ['.', '.', '.']) &&
    startsBlank (r.rest.drop 3)

/-! ## Keys and blocks -/

/-- Puts a token at the end of the queue. -/
def enqueue (t : Token) : Scan Unit := modify fun r => { r with queue := r.queue ++ [t] }

/-- Reads a token of some characters. -/
def enqueueChars (kind : TokenKind) (count : Nat) : Scan Unit := do
  let start := (← get).mark
  advance count
  enqueue ⟨kind, start, (← get).mark⟩

/-- The key that is possible here. -/
def Reading.possibleKey (r : Reading) : SimpleKey := r.keys.headD default

/-- The state with another possible key. -/
def Reading.withKey (r : Reading) (k : SimpleKey) : Reading := { r with keys := k :: r.keys.tail }

/-- Gives up the possible key, which must not be required. -/
def removeKey : Scan Unit := do
  let k := (← get).possibleKey
  if k.isPossible && k.isRequired then fail .noColon (some (.simpleKey, k.mark))
  modify fun r => r.withKey { k with isPossible := false }

/-- Gives up the possible keys that are on another line or too far away. -/
def removeStaleKeys : Scan Unit := do
  let r ← get
  let isStale (k : SimpleKey) : Bool :=
    k.isPossible && (k.mark.line < r.mark.line || k.mark.index + 1024 < r.mark.index)
  match r.keys.reverse.find? fun k => isStale k && k.isRequired with
  | some k => fail .noColon (some (.simpleKey, k.mark))
  | none =>
    set { r with
      keys := r.keys.map fun k => if isStale k then { k with isPossible := false } else k }

/-- Remembers that what comes next may be a key. -/
def saveKey : Scan Unit := do
  let r ← get
  if r.isKeyAllowed then
    let k : SimpleKey :=
      { isPossible := true
        isRequired := r.flowDepth == 0 && r.indent == r.mark.column
        number := r.taken + r.queue.length
        mark := r.mark }
    removeKey
    modify fun r => r.withKey k

/-- Sets whether a key may start here. -/
def allowKey (isAllowed : Bool) : Scan Unit := modify fun r => { r with isKeyAllowed := isAllowed }

/-- Puts a token into the queue behind the first `number` tokens of the text. -/
def insertToken (number : Nat) (t : Token) : Scan Unit :=
  modify fun r =>
    let place := number - r.taken
    { r with queue := r.queue.take place ++ t :: r.queue.drop place }

/-- Opens a block at a column, unless one is open there; `number` tokens go before it. -/
def openBlock (column : Nat) (number : Option Nat) (kind : TokenKind) (mark : Mark) :
    Scan Unit := do
  let r ← get
  if r.flowDepth == 0 && r.indent < column then
    set { r with indent := column, outerIndents := r.indent :: r.outerIndents }
    match number with
    | some n => insertToken n ⟨kind, mark, mark⟩
    | none => enqueue ⟨kind, mark, mark⟩

/-- Closes the blocks that are further in than a column. -/
def closeBlocks (column : Int) : Scan Unit :=
  modify fun r =>
    if r.flowDepth != 0 then r
    else
      let all := r.indent :: r.outerIndents
      let closed := (all.takeWhile fun i => column < i).length
      { r with
        queue := r.queue ++ List.replicate closed ⟨.blockEnd, r.mark, r.mark⟩
        indent := (all.drop closed).headD (-1)
        outerIndents := (all.drop closed).tail }

end CoverageEstimate.Yaml

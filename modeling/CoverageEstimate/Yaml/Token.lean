/-
# Tokens of YAML

What the next token is shows in its first characters, and in whether brackets are open and a key
may start.  A token is taken from the queue only when no key can come before it any more.
-/
import CoverageEstimate.Yaml.Tag

namespace CoverageEstimate.Yaml

/-- Passes over blanks, comments and ends of lines.  Tabs count for blanks only where no key may
start. -/
def skipToToken : (fuel : Nat) → Scan Unit
  | 0 => return
  | fuel + 1 => do
    let r ← get
    if r.mark.index == 0 && r.rest.head? == some '\uFEFF' then advance 1
    let _ ← takeWhile fun c => c == ' ' || ((r.flowDepth != 0 || !r.isKeyAllowed) && c == '\t')
    if ← isNext '#' then
      let _ ← takeWhile fun c => !isBreak c
    if (← peek?).any isBreak then
      let _ ← takeBreak
      if r.flowDepth == 0 then allowKey true
      skipToToken fuel

/-- Reads the end of the text. -/
def readStreamEnd : Scan Unit := do
  modify fun r =>
    if r.mark.column == 0 then r
    else { r with mark := { r.mark with line := r.mark.line + 1, column := 0 } }
  closeBlocks (-1)
  removeKey
  allowKey false
  enqueueChars .streamEnd 0

/-- Reads a mark of a document's start or end. -/
def readDocumentMark (kind : TokenKind) : Scan Unit := do
  closeBlocks (-1)
  removeKey
  allowKey false
  enqueueChars kind 3

/-- Reads an opening bracket. -/
def readOpening (kind : TokenKind) : Scan Unit := do
  saveKey
  modify fun r => { r with keys := default :: r.keys, flowDepth := r.flowDepth + 1 }
  allowKey true
  enqueueChars kind 1

/-- Reads a closing bracket. -/
def readClosing (kind : TokenKind) : Scan Unit := do
  removeKey
  modify fun r =>
    if r.flowDepth == 0 then r
    else { r with keys := r.keys.tail, flowDepth := r.flowDepth - 1 }
  allowKey false
  enqueueChars kind 1

/-- Reads the sign of an entry of a block. -/
def readBlockEntry : Scan Unit := do
  let r ← get
  if r.flowDepth == 0 then
    if !r.isKeyAllowed then fail .entryNotAllowed none
    openBlock r.mark.column none .blockSequenceStart r.mark
  removeKey
  allowKey true
  enqueueChars .blockEntry 1

/-- Reads the sign of a key. -/
def readKeySign : Scan Unit := do
  let r ← get
  if r.flowDepth == 0 then
    if !r.isKeyAllowed then fail .keyNotAllowed none
    openBlock r.mark.column none .blockMappingStart r.mark
  removeKey
  allowKey (r.flowDepth == 0)
  enqueueChars .key 1

/-- Reads the sign of a value.  What was possibly a key is one. -/
def readValueSign : Scan Unit := do
  let r ← get
  let k := r.possibleKey
  if k.isPossible then
    insertToken k.number ⟨.key, k.mark, k.mark⟩
    openBlock k.mark.column (some k.number) .blockMappingStart k.mark
    modify fun r => r.withKey { k with isPossible := false }
    allowKey false
  else
    if r.flowDepth == 0 then
      if !r.isKeyAllowed then fail .valueNotAllowed none
      openBlock r.mark.column none .blockMappingStart r.mark
    allowKey (r.flowDepth == 0)
  enqueueChars .value 1

/-- Whether a plain scalar may start with the text. -/
def startsPlain (inFlow : Bool) : List Char → Bool
  | [] => false
  | c :: rest =>
    !(isGap c || isBreak c || "-?:,[]\x7b\x7d#&*!|>'\"%@\x60".toList.contains c) ||
      (c == '-' && !rest.head?.any isGap) ||
      (!inFlow && (c == '?' || c == ':') && !startsBlank rest)

/-- Reads what starts at the current place, which is no blank. -/
def readToken : Scan Unit := do
  let r ← get
  let inFlow := r.flowDepth != 0
  match r.rest with
  | [] => readStreamEnd
  | c :: rest =>
    let isAlone := startsBlank rest
    if r.mark.column == 0 && c == '%' then readDirective
    else if r.isAtDocumentMark then
      readDocumentMark (if c == '-' then .documentStart else .documentEnd)
    else if c == '[' then readOpening .flowSequenceStart
    else if c == '\x7b' then readOpening .flowMappingStart
    else if c == ']' then readClosing .flowSequenceEnd
    else if c == '\x7d' then readClosing .flowMappingEnd
    else if c == ',' then
      removeKey
      allowKey true
      enqueueChars .flowEntry 1
    else if c == '-' && isAlone then readBlockEntry
    else if c == '?' && (inFlow || isAlone) then readKeySign
    else if c == ':' && (inFlow || isAlone) then readValueSign
    else if c == '*' then readAnchor true
    else if c == '&' then readAnchor false
    else if c == '!' then readTag
    else if c == '|' && !inFlow then readBlock false
    else if c == '>' && !inFlow then readBlock true
    else if c == '\'' then readQuoted true
    else if c == '"' then readQuoted false
    else if startsPlain inFlow r.rest then readPlain
    else fail .badTokenStart (some (.nextToken, r.mark))

/-- Reads one more token into the queue, or several. -/
def readNext : Scan Unit := do
  let r ← get
  if !r.isStarted then
    set { r with isStarted := true, keys := [default], isKeyAllowed := true, indent := -1 }
    enqueueChars .streamStart 0
  else
    skipToToken (r.rest.length + 1)
    removeStaleKeys
    closeBlocks (← get).mark.column
    readToken

/-- Reads until the first token of the queue has its final place. -/
def fillQueue : (fuel : Nat) → Scan Unit
  | 0 => fail .endOfStream none
  | fuel + 1 => do
    if (← get).queue.isEmpty then
      readNext
      fillQueue fuel
    else
      removeStaleKeys
      let r ← get
      if r.keys.any fun k => k.isPossible && k.number == r.taken then
        readNext
        fillQueue fuel

/-- The next token. -/
def nextToken : Scan Token := do
  fillQueue ((← get).rest.length + 3)
  return (← get).queue.headD ⟨.streamEnd, (← get).mark, (← get).mark⟩

/-- Takes the next token. -/
def dropToken : Scan Unit :=
  modify fun r => { r with queue := r.queue.tail, taken := r.taken + 1 }

/-- The state before a text is read. -/
def Reading.ofText (text : List Char) : Reading where
  rest := text
  mark := .start
  queue := []
  taken := 0
  indent := -1
  outerIndents := []
  isKeyAllowed := false
  keys := []
  flowDepth := 0
  isStarted := false

end CoverageEstimate.Yaml

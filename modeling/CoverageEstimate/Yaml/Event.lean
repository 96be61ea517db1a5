/-
# Events of YAML

The tokens of a text give events: the starts and ends of documents, lists and maps, and the scalars
and aliases in them.  A node that is left out is an empty scalar.
-/
import CoverageEstimate.Yaml.Token

namespace CoverageEstimate.Yaml

/-- What an event is. -/
inductive EventKind where
  | documentStart
  | documentEnd
  | reference (name : String)
  | scalar (anchor tag : Option String) (text : String) (isPlain : Bool)
  | sequenceStart (anchor tag : Option String)
  | sequenceEnd
  | mappingStart (anchor tag : Option String)
  | mappingEnd
  deriving DecidableEq, Repr, Inhabited

/-- An event with its first place. -/
structure Event where
  kind : EventKind
  mark : Mark
  deriving DecidableEq, Repr, Inhabited

/-- The state of a parse. -/
structure ParseState where
  /-- What has been read of the text. -/
  reading : Reading
  /-- The events so far, the last one first. -/
  events : List Event
  /-- The handles of tags with their beginnings. -/
  handles : List (String × String)
  deriving Inhabited

/-- Reading that gives events; those before a fault stay. -/
abbrev Parse := ExceptT Fault (StateM ParseState)

/-- Reads with the state of a parse. -/
def scan (action : Scan α) : Parse α := fun state =>
  let (result, reading) := action.run.run state.reading
  (result, { state with reading })

/-- Gives an event. -/
def emit (kind : EventKind) (mark : Mark) : Parse Unit :=
  modify fun state => { state with events := ⟨kind, mark⟩ :: state.events }

/-- Finds a problem at a token. -/
def failAt (problem : Problem) (place : Mark) (context : Option (Context × Mark)) : Parse α :=
  throw ⟨problem, place, context, 0⟩

/-- The next token. -/
def next : Parse Token := scan nextToken

/-- Takes the next token. -/
def drop : Parse Unit := scan dropToken

/-- The kind of the token behind the next one, which is taken. -/
def dropAndNext : Parse Token := do
  drop
  next

/-- Gives an empty scalar. -/
def emitEmpty (mark : Mark) : Parse Unit := emit (.scalar none none "" true) mark

/-- The beginnings that handles have by the standard. -/
def standardHandles : List (String × String) := [("!", "!"), ("!!", "tag:yaml.org,2002:")]

/-- The full text of a tag. -/
def fullTag (handle rest : String) (start mark : Mark) : Parse String := do
  if handle == "" then return rest
  match (← get).handles.find? fun h => h.1 == handle with
  | some (_, beginning) => return beginning ++ rest
  | none => failAt .undefinedHandle mark (some (.node, start))

/-- The anchor and the tag in front of a node, and where the first of them starts. -/
def readProperties : Parse (Option String × Option String × Option Mark) := do
  let first ← next
  match first.kind with
  | .anchor name =>
    let second ← dropAndNext
    match second.kind with
    | .tag handle rest =>
      drop
      let _ ← next
      return (some name, some (← fullTag handle rest first.start second.start), some first.start)
    | _ => return (some name, none, some first.start)
  | .tag handle rest =>
    let second ← dropAndNext
    match second.kind with
    | .anchor name =>
      drop
      let _ ← next
      return (some name, some (← fullTag handle rest first.start first.start), some first.start)
    | _ => return (none, some (← fullTag handle rest first.start first.start), some first.start)
  | _ => return (none, none, none)

/-- Whether a token ends the entry of a block that stands before it. -/
def TokenKind.endsBlockEntry (k : TokenKind) : Bool := k == .blockEntry || k == .blockEnd

/-- Whether a token comes behind a key or value that has been left out. -/
def TokenKind.endsBlockMember (k : TokenKind) : Bool :=
  k == .key || k == .value || k == .blockEnd

mutual

/-- A node, in a block or within brackets.  A list whose entries are not further in than the map
around it may follow where `indentless` says so. -/
def parseNode : (fuel : Nat) → (block indentless : Bool) → Parse Unit
  | 0, _, _ => do failAt .endOfStream (← next).start none
  | fuel + 1, block, indentless => do
    let first ← next
    match first.kind with
    | .reference name =>
      drop
      emit (.reference name) first.start
    | _ =>
      let (anchor, tag, begun) ← readProperties
      let token ← next
      let start := begun.getD token.start
      if indentless && token.kind == .blockEntry then
        emit (.sequenceStart anchor tag) start
        parseIndentless fuel
      else
        match token.kind with
        | .scalar text isPlain =>
          drop
          if tag == some "!" then emit (.scalar anchor none text isPlain) start
          else emit (.scalar anchor tag text isPlain) start
        | .flowSequenceStart =>
          emit (.sequenceStart anchor tag) start
          drop
          parseFlowSequence fuel token.start true
        | .flowMappingStart =>
          emit (.mappingStart anchor tag) start
          drop
          parseFlowMapping fuel token.start true
        | kind =>
          if block && kind == .blockSequenceStart then
            emit (.sequenceStart anchor tag) start
            drop
            parseBlockSequence fuel token.start
          else if block && kind == .blockMappingStart then
            emit (.mappingStart anchor tag) start
            drop
            parseBlockMapping fuel token.start
          else if anchor.isSome || tag.isSome then emit (.scalar anchor tag "" true) start
          else failAt .noContent token.start (some (if block then .blockNode else .flowNode, start))

/-- The entries of a list in a block. -/
def parseBlockSequence : (fuel : Nat) → Mark → Parse Unit
  | 0, start => failAt .endOfStream start none
  | fuel + 1, start => do
    let token ← next
    match token.kind with
    | .blockEntry =>
      let inner ← dropAndNext
      if inner.kind.endsBlockEntry then emitEmpty token.stop else parseNode fuel true false
      parseBlockSequence fuel start
    | .blockEnd =>
      emit .sequenceEnd token.start
      drop
    | _ => failAt .noEntry token.start (some (.blockSequence, start))

/-- The entries of a list that are not further in than the map around it. -/
def parseIndentless : (fuel : Nat) → Parse Unit
  | 0 => do failAt .endOfStream (← next).start none
  | fuel + 1 => do
    let token ← next
    if token.kind == .blockEntry then
      let inner ← dropAndNext
      if inner.kind.endsBlockEntry || inner.kind.endsBlockMember then emitEmpty token.stop
      else parseNode fuel true false
      parseIndentless fuel
    else emit .sequenceEnd token.start

/-- The members of a map in a block. -/
def parseBlockMapping : (fuel : Nat) → Mark → Parse Unit
  | 0, start => failAt .endOfStream start none
  | fuel + 1, start => do
    let token ← next
    match token.kind with
    | .key =>
      let inner ← dropAndNext
      if inner.kind.endsBlockMember then emitEmpty token.stop else parseNode fuel true true
      let sign ← next
      if sign.kind == .value then
        let inner ← dropAndNext
        if inner.kind.endsBlockMember then emitEmpty sign.stop else parseNode fuel true true
      else emitEmpty sign.start
      parseBlockMapping fuel start
    | .blockEnd =>
      emit .mappingEnd token.start
      drop
    | _ => failAt .noKey token.start (some (.blockMapping, start))

/-- The items of a list within brackets. -/
def parseFlowSequence : (fuel : Nat) → Mark → (isFirst : Bool) → Parse Unit
  | 0, start, _ => failAt .endOfStream start none
  | fuel + 1, start, isFirst => do
    let token ← next
    let finish (last : Token) : Parse Unit := do
      emit .sequenceEnd last.start
      drop
    if token.kind == .flowSequenceEnd then finish token
    else
      let token ←
        if isFirst then pure token
        else if token.kind == .flowEntry then dropAndNext
        else failAt .noNextItem token.start (some (.flowSequence, start))
      if token.kind == .key then
        emit (.mappingStart none none) token.start
        let inner ← dropAndNext
        if inner.kind == .value || inner.kind == .flowEntry || inner.kind == .flowSequenceEnd then
          drop
          emitEmpty inner.stop
        else parseNode fuel false false
        let sign ← next
        if sign.kind == .value then
          let inner ← dropAndNext
          if inner.kind == .flowEntry || inner.kind == .flowSequenceEnd then emitEmpty inner.start
          else parseNode fuel false false
        else emitEmpty sign.start
        emit .mappingEnd (← next).start
        parseFlowSequence fuel start false
      else if token.kind == .flowSequenceEnd then finish token
      else
        parseNode fuel false false
        parseFlowSequence fuel start false

/-- The members of a map within brackets. -/
def parseFlowMapping : (fuel : Nat) → Mark → (isFirst : Bool) → Parse Unit
  | 0, start, _ => failAt .endOfStream start none
  | fuel + 1, start, isFirst => do
    let token ← next
    let finish (last : Token) : Parse Unit := do
      emit .mappingEnd last.start
      drop
    let endsMember (k : TokenKind) : Bool := k == .flowEntry || k == .flowMappingEnd
    if token.kind == .flowMappingEnd then finish token
    else
      let token ←
        if isFirst then pure token
        else if token.kind == .flowEntry then dropAndNext
        else failAt .noNextMember token.start (some (.flowMapping, start))
      if token.kind == .key then
        let inner ← dropAndNext
        if inner.kind == .value || endsMember inner.kind then emitEmpty inner.start
        else parseNode fuel false false
        let sign ← next
        if sign.kind == .value then
          let inner ← dropAndNext
          if endsMember inner.kind then emitEmpty inner.start else parseNode fuel false false
        else emitEmpty sign.start
        parseFlowMapping fuel start false
      else if token.kind == .flowMappingEnd then finish token
      else
        parseNode fuel false false
        emitEmpty (← next).start
        parseFlowMapping fuel start false

end

/-- The directives before a document. -/
def parseDirectives : (fuel : Nat) → (hasVersion : Bool) → List (String × String) → Parse Unit
  | 0, _, _ => do failAt .endOfStream (← next).start none
  | fuel + 1, hasVersion, handles => do
    let token ← next
    match token.kind with
    | .versionDirective major minor =>
      if hasVersion then failAt .secondVersion token.start none
      if major != 1 || (minor != 1 && minor != 2) then failAt .otherVersion token.start none
      drop
      parseDirectives fuel true handles
    | .tagDirective handle beginning =>
      if handles.any fun h => h.1 == handle then failAt .secondTagDirective token.start none
      drop
      parseDirectives fuel hasVersion (handles ++ [(handle, beginning)])
    | _ => modify fun e => { e with handles := handles ++ standardHandles }

/-- Takes the marks of documents' ends that come next. -/
def dropDocumentEnds : (fuel : Nat) → Parse Unit
  | 0 => return
  | fuel + 1 => do
    if (← next).kind == .documentEnd then
      drop
      dropDocumentEnds fuel

/-- The next document, unless the text ends.  Only the first document may start without a mark.
Tells whether there was a document. -/
def parseDocument (fuel : Nat) (isFirst : Bool) : Parse Bool := do
  if !isFirst then dropDocumentEnds fuel
  let token ← next
  let isExplicit : Bool := match token.kind with
    | .versionDirective _ _ => true
    | .tagDirective _ _ => true
    | .documentStart => true
    | _ => false
  if token.kind == .streamEnd then return false
  else if isFirst && !isExplicit then
    parseDirectives fuel false []
    emit .documentStart token.start
    parseNode fuel true false
  else
    parseDirectives fuel false []
    let mark ← next
    if mark.kind != .documentStart then failAt .noDocumentStart mark.start none
    emit .documentStart token.start
    let content ← dropAndNext
    let isEmpty : Bool := match content.kind with
      | .versionDirective _ _ => true
      | .tagDirective _ _ => true
      | .documentStart => true
      | .documentEnd => true
      | .streamEnd => true
      | _ => false
    if isEmpty then emitEmpty content.start else parseNode fuel true false
  let last ← next
  if last.kind == .documentEnd then drop
  emit .documentEnd last.start
  return true

/-- The first document of a text, and the next one if there is one. -/
def parseStream (fuel : Nat) : Parse Unit := do
  let _ ← next
  drop
  if ← parseDocument fuel true then
    let _ ← parseDocument fuel false

/-- Whether a character may stand in a text. -/
def isAllowed (c : Char) : Bool :=
  c == '\t' || c == '\n' || c == '\r' || (' ' ≤ c && c ≤ '~') || c == '\u0085' ||
    ('\u00a0' ≤ c && c ≤ '\ufffd') || '\uffff' < c

/-- The number of bytes before the first character that may not stand in a text. -/
def disallowedOffset? (offset : Nat) : List Char → Option Nat
  | [] => none
  | c :: rest =>
    if isAllowed c then disallowedOffset? (offset + c.utf8Size) rest else some offset

/-- The events of the first document and of what follows it, up to the fault if there is one. -/
def events (text : String) : List Event × Option Fault :=
  match disallowedOffset? 0 text.toList with
  | some offset => ([], some ⟨.controlCharacter, .start, none, offset⟩)
  | none =>
    let chars := match text.toList with
      | '\uFEFF' :: rest => rest
      | all => all
    let fuel := 8 * (chars.length + 8)
    match (parseStream fuel).run.run ⟨Reading.ofText chars, [], []⟩ with
    | (.ok _, state) => (state.events.reverse, none)
    | (.error f, state) => (state.events.reverse, some f)

end CoverageEstimate.Yaml

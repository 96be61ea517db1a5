/-
# Scalars of YAML

A scalar is plain, quoted or a block.  Within plain and quoted scalars the end of a line counts for
a space, and each empty line behind it for the end of a line; blocks keep the ends of lines or fold
them in the same way.
-/
import CoverageEstimate.Yaml.Reading

namespace CoverageEstimate.Yaml

/-- The blanks and ends of lines between two pieces of a scalar. -/
structure Gap where
  /-- Whether there is an end of a line in it. -/
  hasBreak : Bool
  /-- The blanks before the first end of a line. -/
  blanks : List Char
  /-- The first end of a line. -/
  first : List Char
  /-- The other ends of lines. -/
  others : List Char
  deriving Inhabited

namespace Gap

/-- No gap. -/
def none : Gap := ⟨false, [], [], []⟩

/-- What a gap counts for. -/
def text (g : Gap) : List Char :=
  if !g.hasBreak then g.blanks
  else if g.first == ['\n'] then (if g.others.isEmpty then [' '] else g.others)
  else g.first ++ g.others

end Gap

/-- Reads a gap.  `limit` is the start of a plain scalar and the column before which no tab may
stand in it. -/
def readGap (limit : Option (Mark × Int)) : (fuel : Nat) → Gap → Scan Gap
  | 0, g => return g
  | fuel + 1, g => do
    let r ← get
    match r.rest with
    | [] => return g
    | c :: _ =>
      if isGap c then
        match limit with
        | some (start, column) =>
          if g.hasBreak && decide ((r.mark.column : Int) < column) && c == '\t' then
            fail .tabInIndentation (some (.plainScalar, start))
        | Option.none => pure ()
        advance 1
        readGap limit fuel (if g.hasBreak then g else { g with blanks := g.blanks ++ [c] })
      else if isBreak c then
        let ended ← takeBreak
        readGap limit fuel <|
          if g.hasBreak then { g with others := g.others ++ ended }
          else { g with hasBreak := true, blanks := [], first := ended }
      else return g

/-! ## Plain scalars -/

/-- Where a run of a plain scalar ends. -/
inductive RunEnd where
  /-- Before a blank, an end of a line or the end of the text. -/
  | blank
  /-- Before a character that ends the scalar. -/
  | indicator
  /-- Before a colon that may not stand there. -/
  | colon
  deriving DecidableEq, Repr, Inhabited

/-- The characters in front that belong to a plain scalar, and where they end. -/
def plainRun (inFlow : Bool) : List Char → List Char × RunEnd
  | [] => ([], .blank)
  | c :: rest =>
    if isGap c || isBreak c then ([], .blank)
    else if inFlow && c == ':' && rest.head?.any fun d => ",?[]\x7b\x7d".toList.contains d then
      ([], .colon)
    else if c == ':' && startsBlank rest then ([], .indicator)
    else if inFlow && ",[]\x7b\x7d".toList.contains c then ([], .indicator)
    else
      let (run, last) := plainRun inFlow rest
      (c :: run, last)

/-- Reads the rest of a plain scalar that starts at `start`, behind the text `text` that ends at
`stop` and the gap `gap`. -/
def readPlainRest (start : Mark) : (fuel : Nat) → List Char → Mark → Gap → Scan Unit
  | 0, _, _, _ => return
  | fuel + 1, text, stop, gap => do
    let r ← get
    let inFlow := r.flowDepth != 0
    let finish (text : List Char) (stop : Mark) (gap : Gap) : Scan Unit := do
      enqueue ⟨.scalar (String.ofList text) true, start, stop⟩
      if gap.hasBreak then allowKey true
    if r.isAtDocumentMark || r.rest.head? == some '#' then finish text stop gap
    else
      let (run, last) := plainRun inFlow r.rest
      advance run.length
      if last == .colon then fail .unexpectedColon (some (.plainScalar, start))
      let (text, stop, gap) ←
        if run.isEmpty then pure (text, stop, gap)
        else pure (text ++ gap.text ++ run, (← get).mark, Gap.none)
      let next ← peek?
      if next.any fun c => isGap c || isBreak c then
        let gap ← readGap (some (start, r.indent + 1)) (r.rest.length + 1) gap
        if !inFlow && decide (((← get).mark.column : Int) < r.indent + 1) then
          finish text stop gap
        else readPlainRest start fuel text stop gap
      else finish text stop gap

/-- Reads a plain scalar. -/
def readPlain : Scan Unit := do
  saveKey
  allowKey false
  let r ← get
  readPlainRest r.mark (r.rest.length + 1) [] r.mark .none

/-! ## Quoted scalars -/

/-- The character that a letter behind a backslash stands for. -/
def escapedChar? : Char → Option Char
  | '0' => some '\x00'
  | 'a' => some '\x07'
  | 'b' => some '\x08'
  | 't' => some '\t'
  | '\t' => some '\t'
  | 'n' => some '\n'
  | 'v' => some '\x0b'
  | 'f' => some '\x0c'
  | 'r' => some '\r'
  | 'e' => some '\x1b'
  | ' ' => some ' '
  | '"' => some '"'
  | '/' => some '/'
  | '\\' => some '\\'
  | 'N' => some '\u0085'
  | '_' => some '\u00a0'
  | 'L' => some '\u2028'
  | 'P' => some '\u2029'
  | _ => none

/-- How many digits follow a letter behind a backslash. -/
def codeLength? : Char → Option Nat
  | 'x' => some 2
  | 'u' => some 4
  | 'U' => some 8
  | _ => none

/-- The value of a hexadecimal digit. -/
def hexDigit? (c : Char) : Option Nat :=
  if c.isDigit then some (c.toNat - '0'.toNat)
  else if 'a' ≤ c ∧ c ≤ 'f' then some (c.toNat - 'a'.toNat + 10)
  else if 'A' ≤ c ∧ c ≤ 'F' then some (c.toNat - 'A'.toNat + 10)
  else none

/-- The number that hexadecimal digits stand for. -/
def hexNumber? (digits : List Char) : Option Nat :=
  digits.foldl (fun n c => do return (← n) * 16 + (← hexDigit? c)) (some 0)

/-- Reads an escape sequence of a quoted scalar that starts at `start`. -/
def readEscape (start : Mark) : Scan Char := do
  let context := some (Context.escape, start)
  match (← get).rest.drop 1 with
  | [] => fail .unknownEscape context
  | c :: _ =>
    match escapedChar? c, codeLength? c with
    | some d, _ =>
      advance 2
      return d
    | none, some length =>
      advance 2
      let digits := (← get).rest.take length
      if digits.length < length then fail .noHexDigit context
      match hexNumber? digits with
      | none => fail .noHexDigit context
      | some n =>
        if h : n.isValidChar then
          advance length
          return Char.ofNatAux n h
        else fail .badCharacterCode context
    | none, none => fail .unknownEscape context

/-- Reads the characters of a quoted scalar up to a blank, an end of a line or the closing quote, and
tells whether they end with an end of a line that is escaped. -/
def readQuotedRun (single : Bool) (start : Mark) :
    (fuel : Nat) → List Char → Scan (List Char × Bool)
  | 0, text => return (text, false)
  | fuel + 1, text => do
    let r ← get
    match r.rest with
    | [] => return (text, false)
    | c :: rest =>
      if isGap c || isBreak c then return (text, false)
      else if single && c == '\'' && rest.head? == some '\'' then
        advance 2
        readQuotedRun single start fuel (text ++ ['\''])
      else if c == (if single then '\'' else '"') then return (text, false)
      else if !single && c == '\\' then
        if rest.head?.any isBreak then
          advance 1
          let _ ← takeBreak
          return (text, true)
        else
          let d ← readEscape start
          readQuotedRun single start fuel (text ++ [d])
      else
        advance 1
        readQuotedRun single start fuel (text ++ [c])

/-- Reads the rest of a quoted scalar that starts at `start`. -/
def readQuotedRest (single : Bool) (start : Mark) : (fuel : Nat) → List Char → Scan (List Char)
  | 0, _ => fail .endOfStream (some (.quotedScalar, start))
  | fuel + 1, text => do
    let r ← get
    let context := some (Context.quotedScalar, start)
    if r.isAtDocumentMark then fail .documentMark context
    if r.rest.isEmpty then fail .endOfStream context
    let (run, isEscaped) ← readQuotedRun single start (r.rest.length + 1) []
    let text := text ++ run
    if ← isNext (if single then '\'' else '"') then
      advance 1
      return text
    let gap ← readGap none (r.rest.length + 1) { Gap.none with hasBreak := isEscaped }
    readQuotedRest single start fuel (text ++ gap.text)

/-- Reads a quoted scalar. -/
def readQuoted (single : Bool) : Scan Unit := do
  saveKey
  allowKey false
  let r ← get
  advance 1
  let text ← readQuotedRest single r.mark (r.rest.length + 1) []
  enqueue ⟨.scalar (String.ofList text) false, r.mark, (← get).mark⟩

/-! ## Blocks -/

/-- What becomes of the ends of lines at the end of a block. -/
inductive Chomping where
  /-- None of them is kept. -/
  | strip
  /-- The first one is kept. -/
  | clip
  /-- All of them are kept. -/
  | keep
  deriving DecidableEq, Repr, Inhabited

/-- The chomping that a sign in the header of a block asks for. -/
def chomping? : Char → Option Chomping
  | '+' => some .keep
  | '-' => some .strip
  | _ => none

/-- Reads the number in the header of a block that starts at `start`, if there is one. -/
def readIncrement (start : Mark) : Scan (Option Nat) := do
  match ← peek? with
  | some c =>
    if c.isDigit then
      if c == '0' then fail .zeroIndentation (some (.blockScalar, start))
      advance 1
      return some (c.toNat - '0'.toNat)
    else return none
  | none => return none

/-- Reads the sign in the header of a block, if there is one. -/
def readChomping : Scan (Option Chomping) := do
  match (← peek?).bind chomping? with
  | some c =>
    advance 1
    return some c
  | none => return none

/-- Reads spaces in front of a line of a block, up to the column if it is known, and empty lines
before it.  Gives the ends of lines, the place behind the last one, and the greatest column on the
way. -/
def readBlockBreaks (start : Mark) (indent : Option Nat) :
    (fuel : Nat) → List Char → Mark → (deepest : Nat) → Scan (List Char × Mark × Nat)
  | 0, breaks, stop, deepest => return (breaks, stop, deepest)
  | fuel + 1, breaks, stop, deepest => do
    let r ← get
    let spaces := (r.rest.takeWhile (· == ' ')).length
    advance (match indent with
      | some column => min spaces (column - r.mark.column)
      | none => spaces)
    let column := (← get).mark.column
    let deepest := max deepest column
    if (indent.all fun i => column < i) && (← isNext '\t') then
      fail .tabForSpace (some (.blockScalar, start))
    if (← peek?).any isBreak then
      let ended ← takeBreak
      readBlockBreaks start indent fuel (breaks ++ ended) (← get).mark deepest
    else return (breaks, stop, deepest)

/-- Reads the lines of a block at a column.  `text` is what has been read, `ended` the end of its last
line, `breaks` the empty lines behind it, and `wasBlank` tells whether that line started with a
blank.  Gives the text, the ends of lines behind it and the place where the block stops. -/
def readBlockLines (start : Mark) (folded : Bool) (column : Nat) : (fuel : Nat) →
    (text ended breaks : List Char) → (wasBlank : Bool) → (stop : Mark) →
    Scan (List Char × List Char × List Char × Mark)
  | 0, text, ended, breaks, _, stop => return (text, ended, breaks, stop)
  | fuel + 1, text, ended, breaks, wasBlank, stop => do
    let r ← get
    if r.mark.column != column || r.rest.isEmpty then return (text, ended, breaks, stop)
    else
      let isBlank := r.rest.head?.any isGap
      let text :=
        if folded && ended == ['\n'] && !wasBlank && !isBlank then
          if breaks.isEmpty then text ++ [' '] else text ++ breaks
        else text ++ ended ++ breaks
      let line ← takeWhile fun c => !isBreak c
      let ended ← takeBreak
      let (breaks, stop, _) ←
        readBlockBreaks start (some column) (r.rest.length + 1) [] (← get).mark 0
      readBlockLines start folded column fuel (text ++ line) ended breaks isBlank stop

/-- Reads a block. -/
def readBlock (folded : Bool) : Scan Unit := do
  removeKey
  allowKey true
  let r ← get
  let start := r.mark
  advance 1
  let (chomping, increment) ←
    match ← readChomping with
    | some c => pure (some c, ← readIncrement start)
    | none =>
      match ← readIncrement start with
      | some n => pure (← readChomping, some n)
      | none => pure (none, none)
  skipComment
  if !(← isLineEndNext) then fail .noLineEnd (some (.blockScalar, start))
  let _ ← takeBreak
  let known := increment.map fun n => (max r.indent 0).toNat + n
  let fuel := r.rest.length + 1
  let (breaks, stop, deepest) ← readBlockBreaks start known fuel [] (← get).mark 0
  let column := known.getD (max (max deepest (r.indent + 1).toNat) 1)
  let (text, ended, breaks, stop) ←
    readBlockLines start folded column fuel [] [] breaks false stop
  let text := match chomping with
    | some .strip => text
    | some .keep => text ++ ended ++ breaks
    | _ => text ++ ended
  enqueue ⟨.scalar (String.ofList text) false, start, stop⟩

end CoverageEstimate.Yaml

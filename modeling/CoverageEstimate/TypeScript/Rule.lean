/-
# Grammar rules

A grammar is written as data: a rule says which lexemes follow each other and which nodes they
make up.  Rules are tried in order and the first one that matches is taken, so a text has at most
one parse tree.  Comments become nodes inside the node whose lexemes stand around them.
-/
import CoverageEstimate.TypeScript.Lexeme

namespace CoverageEstimate.TypeScript

/-- A sort of lexeme, or a condition on the place between two lexemes. -/
inductive Terminal where
  /-- A fixed word. -/
  | word (w : String)
  /-- A fixed mark.  The longest mark at the place must be this one. -/
  | mark (m : String)
  /-- The mark that closes type arguments, even when it is the start of a longer mark. -/
  | closingAngle
  /-- A word that is no reserved one. -/
  | identifier
  /-- Any word. -/
  | anyName
  /-- A word behind a number sign. -/
  | privateName
  | number
  | string
  | regex
  /-- The characters of a template up to its end or its next substitution. -/
  | templateChars
  /-- The backtick that ends a template. -/
  | templateEnd
  /-- The start of a substitution in a template. -/
  | substitutionStart
  /-- A name in markup, which may hold hyphens. -/
  | markupName
  /-- A string in markup, in which nothing is escaped. -/
  | markupString
  /-- Text in markup. -/
  | markupText
  /-- A bracketed text or a template that is not looked into. -/
  | bracketed (opener : Char)
  /-- The first line of a script, when it names an interpreter. -/
  | interpreterLine
  /-- Any one lexeme, to be passed over after a fault; a closing brace only if asked for. -/
  | faulty (closingBrace : Bool)
  /-- A node without text, for a name that is missing. -/
  | missingName
  /-- No line ends before the next lexeme. -/
  | sameLine
  /-- A statement may end here without a semicolon. -/
  | impliedSemicolon
  /-- Nothing follows. -/
  | endOfSource
  /-- Markup is allowed. -/
  | markupAllowed
  /-- Markup is not allowed. -/
  | markupForbidden
  deriving Repr

/-- Rules over a type of names for them. -/
inductive Rule (N : Type) where
  /-- Nothing at all. -/
  | nothing
  /-- A lexeme, or a condition. -/
  | lex (t : Terminal)
  /-- The one rule and then the other. -/
  | seq (a b : Rule N)
  /-- The first of two rules that matches. -/
  | alt (a b : Rule N)
  /-- The rule as often as it matches. -/
  | many (a : Rule N)
  /-- What the rule matches makes up a node. -/
  | node (k : Kind) (a : Rule N)
  /-- What the rule matches plays a part in the node around it. -/
  | part (f : Field) (a : Rule N)
  /-- The rule of the name. -/
  | ref (n : N)
  /-- The rule would match here. -/
  | ahead (a : Rule N)
  /-- The rule would not match here. -/
  | absent (a : Rule N)
  /-- The one rule, whose node is then extended as often as the other rule matches. -/
  | chain (a step : Rule N)
  /-- The node before is extended as often as the rule matches. -/
  | extend (step : Rule N)
  /-- The node before and what the rule matches make up a node, in which the node before may play a
  part. -/
  | wrap (k : Kind) (f : Option Field) (a : Rule N)

/-- What a parse depends on besides the rules. -/
structure Setting where
  source : Source
  /-- Whether markup is part of the language. -/
  markup : Bool

/-- What a rule matches: nodes, and the offset behind them. -/
abbrev Parsed := Option (List Node × Nat)

/-- A node without children. -/
def leaf (k : Kind) (start stop : Nat) : Node := .mk k none start stop []

/-- Whether the characters between two offsets are one of the reserved words. -/
def isReserved (src : Source) (start stop : Nat) : Bool :=
  reservedWords.contains (String.ofList (slice src start stop))

/-- Whether a semicolon is implied before the lexeme at an offset, at which a line starts.  A line
that starts like the rest of an expression goes on with the one before. -/
def impliesSemicolon (src : Source) (pos : Nat) : Bool :=
  match src[pos]? with
  | none => true
  | some c =>
    if c == '+' || c == '-' then src[pos + 1]? == some c
    else if c == '!' then src[pos + 1]? != some '='
    else if c == 'i' then
      match wordEnd? src pos with
      | some stop =>
        let word := slice src pos stop
        word != "in".toList && word != "instanceof".toList
      | none => true
    else !(['\x60', ',', '.', ';', '*', '%', '>', '<', '=', '?', '^', '|', '&', '/', ':'].contains c)

namespace Terminal

/-- Whether space and comments may stand before the lexeme. -/
def skipsGap : Terminal → Bool
  | templateChars | templateEnd | substitutionStart | markupText | interpreterLine => false
  | missingName | sameLine | impliedSemicolon | markupAllowed | markupForbidden => false
  | _ => true

/-- The lexeme at an offset where no gap is left: a node, if the lexeme makes one, and the offset
behind it. -/
def matchAt (s : Setting) (pos : Nat) (t : Terminal) : Parsed :=
  let src := s.source
  let one (k : Kind) (stop : Nat) : Parsed := some ([leaf k pos stop], stop)
  let check (b : Bool) : Parsed := if b then some ([], pos) else none
  match t with
  | word w =>
    match wordEnd? src pos with
    | some stop => if slice src pos stop == w.toList then one (.token w) stop else none
    | none => none
  | mark m =>
    match markAt? src pos with
    | some found => if found == m.toList then one (.token m) (pos + found.length) else none
    | none => none
  | closingAngle => if src[pos]? == some '>' then one (.token ">") (pos + 1) else none
  | identifier =>
    match wordEnd? src pos with
    | some stop => if isReserved src pos stop then none else one .identifier stop
    | none => none
  | anyName =>
    match wordEnd? src pos with
    | some stop => one .propertyIdentifier stop
    | none => none
  | privateName =>
    if src[pos]? == some '#' then
      match wordEnd? src (pos + 1) with
      | some stop => one .propertyIdentifier stop
      | none => none
    else none
  | number =>
    match numberEnd? src pos with
    | some stop => one .other stop
    | none => none
  | string => (stringAt? src pos).map fun n => ([n], n.stop)
  | regex =>
    match regexEnd? src pos with
    | some stop => one .other stop
    | none => none
  | templateChars =>
    let stop := templateCharsEnd src (src.size - pos) pos
    if pos < stop then one .stringFragment stop else none
  | templateEnd => if src[pos]? == some '\x60' then one (.token "\x60") (pos + 1) else none
  | substitutionStart =>
    if standsAt src ['$', '\x7b'] pos then one (.token "$\x7b") (pos + 2) else none
  | markupName =>
    if (src[pos]?).any isWordStart then
      one .identifier (spanEnd (fun c => isWordChar c || c == '-') src pos)
    else none
  | markupString =>
    match src[pos]? with
    | some quote =>
      if quote == '"' || quote == '\'' then
        let stop := spanEnd (· != quote) src (pos + 1)
        if stop < src.size then one .string (stop + 1) else none
      else none
    | none => none
  | markupText =>
    let stop := spanEnd (fun c => c != '<' && c != '>' && c != '\x7b' && c != '\x7d') src pos
    if pos < stop then one .other stop else none
  | bracketed opener =>
    match bracketedEnd? src opener pos with
    | some stop => one .other stop
    | none => none
  | interpreterLine =>
    if pos == 0 && standsAt src ['#', '!'] 0 then
      some ([], spanEnd (fun c => !isLineEnd c && c != '\r') src 0)
    else none
  | faulty closingBrace =>
    match src[pos]? with
    | none => none
    | some c =>
      if c == '\x7d' && !closingBrace then none
      else
        match wordEnd? src pos, stringAt? src pos, numberEnd? src pos, markAt? src pos with
        | some stop, _, _, _ => some ([], stop)
        | none, some n, _, _ => some ([], n.stop)
        | none, none, some stop, _ => some ([], stop)
        | none, none, none, some m => some ([], pos + m.length)
        | none, none, none, none => some ([], pos + 1)
  | missingName => one .propertyIdentifier pos
  | sameLine => check (!(gapAt src pos).hasLineEnd)
  | impliedSemicolon =>
    let gap := gapAt src pos
    check (gap.stop == src.size || src[gap.stop]? == some '\x7d' ||
      (gap.hasLineEnd && impliesSemicolon src gap.stop))
  | endOfSource => check (pos == src.size)
  | markupAllowed => check s.markup
  | markupForbidden => check (!s.markup)

/-- The lexeme behind the gap at an offset, with the comments of the gap. -/
def read (s : Setting) (pos : Nat) (t : Terminal) : Parsed :=
  if t.skipsGap then
    let gap := gapAt s.source pos
    (t.matchAt s gap.stop).map fun r => (gap.comments ++ r.1, r.2)
  else t.matchAt s pos

end Terminal

/-- The offset behind the last of some nodes, which start at `pos` or behind it. -/
def lastStop (pos : Nat) (nodes : List Node) : Nat := (nodes.getLast?.map Node.stop).getD pos

/-- Nodes that make up a node.  Comments before the first lexeme stay outside of it. -/
def enclose (k : Kind) (pos : Nat) (nodes : List Node) : List Node :=
  let before := nodes.takeWhile Node.isComment
  let inside := nodes.dropWhile Node.isComment
  let start := (inside.head?.map Node.start).getD (lastStop pos before)
  before ++ [.mk k none start (lastStop start inside) inside]

/-- A node before and the nodes behind it make up a node. -/
def encloseWith (k : Kind) (f : Option Field) (left : Node) (nodes : List Node) : Node :=
  let first := match f with
    | some f => left.withField f
    | none => left
  .mk k none left.start (lastStop left.stop nodes) (first :: nodes)

/-- Nodes of which the ones that are no comments play a part. -/
def inPart (f : Field) (nodes : List Node) : List Node :=
  nodes.map fun n => if n.isComment then n else n.withField f

/-- What a rule matches at an offset.  `left` is the node that the rule may extend.  The fuel bounds
the depth of the parse; without any left, nothing matches. -/
def Rule.parse {N : Type} (s : Setting) (rules : N → Rule N) :
    (fuel : Nat) → (left : Option Node) → Rule N → (pos : Nat) → Parsed
  | 0, _, _, _ => none
  | fuel + 1, left, rule, pos =>
    match rule with
    | nothing => some ([], pos)
    | lex t => t.read s pos
    | seq a b =>
      match parse s rules fuel left a pos with
      | none => none
      | some (front, middle) =>
        match parse s rules fuel left b middle with
        | none => none
        | some (back, stop) => some (front ++ back, stop)
    | alt a b =>
      match parse s rules fuel left a pos with
      | none => parse s rules fuel left b pos
      | some r => some r
    | many a =>
      match parse s rules fuel left a pos with
      | none => some ([], pos)
      | some (front, middle) =>
        if middle ≤ pos then some ([], pos)
        else
          match parse s rules fuel left (many a) middle with
          | none => some (front, middle)
          | some (back, stop) => some (front ++ back, stop)
    | node k a => (parse s rules fuel none a pos).map fun r => (enclose k pos r.1, r.2)
    | part f a => (parse s rules fuel left a pos).map fun r => (inPart f r.1, r.2)
    | ref n => parse s rules fuel none (rules n) pos
    | ahead a => (parse s rules fuel left a pos).map fun _ => ([], pos)
    | absent a =>
      match parse s rules fuel left a pos with
      | none => some ([], pos)
      | some _ => none
    | chain a step =>
      match parse s rules fuel none a pos with
      | none => none
      | some (nodes, middle) =>
        match nodes.getLast? with
        | none => some (nodes, middle)
        | some last =>
          match parse s rules fuel (some last) (extend step) middle with
          | none => some (nodes, middle)
          | some (extended, stop) => some (nodes.dropLast ++ extended, stop)
    | extend step =>
      match left with
      | none => none
      | some before =>
        match parse s rules fuel left step pos with
        | none => some ([before], pos)
        | some (nodes, middle) =>
          match nodes with
          | [after] => parse s rules fuel (some after) (extend step) middle
          | _ => some ([before], pos)
    | wrap k f a =>
      match left with
      | none => none
      | some before =>
        (parse s rules fuel none a pos).map fun r => ([encloseWith k f before r.1], r.2)

end CoverageEstimate.TypeScript

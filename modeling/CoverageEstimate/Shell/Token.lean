/-
# Tokens of shell scripts

A script is a sequence of words, operators and signs for redirections.  Blanks separate words;
within quotes they belong to them.
-/
import CoverageEstimate.Shell.Command

namespace CoverageEstimate.Shell

/-- The sign for a redirection. -/
inductive RedirectionSign where
  | toStream
  | toFile
  | fromFile
  deriving DecidableEq, Repr, Inhabited

/-- A token of a script. -/
inductive Token where
  /-- A word. -/
  | word (w : Word)
  /-- An operator between commands; the end of a line is one, too. -/
  | operator (text : String)
  /-- The sign for a redirection of a stream. -/
  | redirect (stream : Nat) (sign : RedirectionSign)
  deriving DecidableEq, Repr, Inhabited

/-- Whether a character may stand in the name of a variable. -/
def isNameChar (c : Char) : Bool := c.isAlphanum || c == '_'

/-- Whether a character ends a word outside quotes. -/
def endsWord (c : Char) : Bool := " \t\n;&|<>()".toList.contains c

/-- The text up to the parenthesis that closes the innermost of `depth` open ones, and the rest.
`quote` is the quote that is open. -/
def untilClosed : (depth : Nat) → (quote : Option Char) → List Char →
    Option (List Char × List Char)
  | _, _, [] => none
  | depth, some q, c :: rest =>
    (untilClosed depth (if c = q then none else some q) rest).map fun r => (c :: r.1, r.2)
  | depth, none, c :: rest =>
    if c = ')' then
      match depth with
      | 0 => some ([], rest)
      | d + 1 => (untilClosed d none rest).map fun r => (c :: r.1, r.2)
    else
      let depth := if c = '(' then depth + 1 else depth
      let quote := if c = '\'' ∨ c = '"' then some c else none
      (untilClosed depth quote rest).map fun r => (c :: r.1, r.2)

/-- The parameter with the given text between braces. -/
def bracedParameter (text : List Char) (isQuoted : Bool) : WordPart :=
  let special := text.take 1 |>.filter fun c => !isNameChar c
  let name := if special.isEmpty then text.takeWhile isNameChar else special
  let adjustment : Adjustment :=
    match text.drop name.length with
    | '#' :: '#' :: pattern => .cutFront true pattern
    | '#' :: pattern => .cutFront false pattern
    | '%' :: '%' :: pattern => .cutBack true pattern
    | '%' :: pattern => .cutBack false pattern
    | ':' :: '-' :: other => .orElse other
    | '-' :: other => .orElse other
    | _ => .keep
  .parameter (String.ofList name) adjustment isQuoted

/-- The part of a word that starts with a dollar sign, which has been read, and the rest. -/
def dollarPart (isQuoted : Bool) : List Char → Option (WordPart × List Char)
  | '(' :: '(' :: rest =>
    match untilClosed 0 none rest with
    | some (text, ')' :: behind) =>
      (Arithmetic.ofText? text).map fun e => (.number e, behind)
    | _ => none
  | '(' :: rest => (untilClosed 0 none rest).map fun r => (.outputOf r.1 isQuoted, r.2)
  | c :: rest =>
    if c = '\x7b' then
      let text := rest.takeWhile (· != '\x7d')
      match rest.drop text.length with
      | _ :: behind => some (bracedParameter text isQuoted, behind)
      | [] => none
    else if c.isDigit || "#?$!@*".toList.contains c then
      some (.parameter (String.singleton c) .keep isQuoted, rest)
    else if isNameChar c then
      let name := (c :: rest).takeWhile isNameChar
      some (.parameter (String.ofList name) .keep isQuoted, (c :: rest).drop name.length)
    else some (.char '$' isQuoted, c :: rest)
  | [] => some (.char '$' isQuoted, [])

/-- The parts up to the closing double quote, and the rest behind it. -/
def doubleQuoted : (fuel : Nat) → List Char → Option (Word × List Char)
  | 0, _ => none
  | _, [] => none
  | fuel + 1, c :: rest =>
    let more (p : WordPart) (rest : List Char) :=
      (doubleQuoted fuel rest).map fun r => (p :: r.1, r.2)
    if c = '"' then some ([], rest)
    else if c = '\\' then
      match rest with
      | '\n' :: others => doubleQuoted fuel others
      | d :: others =>
        if d = '$' ∨ d = '"' ∨ d = '\\' ∨ d = '\x60' then more (.char d true) others
        else more (.char '\\' true) rest
      | [] => none
    else if c = '$' then (dollarPart true rest).bind fun r => more r.1 r.2
    else if c = '\x60' then
      let script := rest.takeWhile (· != '\x60')
      more (.outputOf script true) (rest.drop (script.length + 1))
    else more (.char c true) rest

/-- The parts of the word that starts the text, and the rest behind it. -/
def wordParts : (fuel : Nat) → List Char → Option (Word × List Char)
  | 0, _ => none
  | _, [] => some ([], [])
  | fuel + 1, c :: rest =>
    let more (ps : Word) (rest : List Char) :=
      (wordParts fuel rest).map fun r => (ps ++ r.1, r.2)
    if endsWord c then some ([], c :: rest)
    else if c = '\\' then
      match rest with
      | '\n' :: others => wordParts fuel others
      | d :: others => more [.char d true] others
      | [] => more [.char '\\' true] []
    else if c = '\'' then
      let text := rest.takeWhile (· != '\'')
      match rest.drop text.length with
      | _ :: behind =>
        more (if text.isEmpty then [.emptyQuotes] else text.map fun c => .char c true) behind
      | [] => none
    else if c = '"' then
      (doubleQuoted fuel rest).bind fun r =>
        more (if r.1.isEmpty then [.emptyQuotes] else r.1) r.2
    else if c = '$' then (dollarPart false rest).bind fun r => more [r.1] r.2
    else if c = '\x60' then
      let script := rest.takeWhile (· != '\x60')
      more [.outputOf script false] (rest.drop (script.length + 1))
    else more [.char c false] rest

/-- The operators, longer ones before those they start with. -/
def operators : List String := ["&&", "||", ";;", ";", "&", "|", "(", ")", "\n"]

/-- The redirection that starts the text, and the rest behind its sign. -/
def redirection? (text : List Char) : Option (Token × List Char) :=
  let digits := text.takeWhile Char.isDigit
  let stream := match digits with
    | [d] => some (d.toNat - '0'.toNat)
    | _ => none
  match text.drop digits.length with
  | '>' :: '&' :: rest =>
    if digits.length ≤ 1 then some (.redirect (stream.getD 1) .toStream, rest) else none
  | '>' :: '>' :: rest =>
    if digits.length ≤ 1 then some (.redirect (stream.getD 1) .toFile, rest) else none
  | '>' :: rest =>
    if digits.length ≤ 1 then some (.redirect (stream.getD 1) .toFile, rest) else none
  | '<' :: rest =>
    if digits.length ≤ 1 then some (.redirect (stream.getD 0) .fromFile, rest) else none
  | _ => none

/-- The tokens of a script, or nothing if a quote or parenthesis is left open. -/
def tokensIn : (fuel : Nat) → List Char → Option (List Token)
  | 0, _ => none
  | _, [] => some []
  | fuel + 1, c :: rest =>
    if c = ' ' ∨ c = '\t' then tokensIn fuel rest
    else if c = '\\' ∧ rest.head? = some '\n' then tokensIn fuel rest.tail
    else if c = '#' then tokensIn fuel (rest.dropWhile (· != '\n'))
    else
      match redirection? (c :: rest) with
      | some (token, behind) => (tokensIn fuel behind).map (token :: ·)
      | none =>
        match operators.find? fun o => o.toList.isPrefixOf (c :: rest) with
        | some o => (tokensIn fuel ((c :: rest).drop o.length)).map (.operator o :: ·)
        | none =>
          match wordParts (rest.length + 2) (c :: rest) with
          | some (word, behind) => (tokensIn fuel behind).map (.word word :: ·)
          | none => none

/-- The tokens of a script. -/
def tokens? (script : List Char) : Option (List Token) := tokensIn (script.length + 1) script

end CoverageEstimate.Shell

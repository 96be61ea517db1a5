/-
# Reading shell scripts

The commands of a script are read from its tokens by descent.  A word that is a keyword is one
only where a command may start.  Every function takes fuel, which bounds how deep commands are
nested and how many there are.  Each level of nesting takes at least two tokens and uses at most
five steps, so that four steps a token and a few more are enough.
-/
import CoverageEstimate.Shell.Token

namespace CoverageEstimate.Shell

/-- The text of a word that has no quotes and no parameters. -/
def plainText? : Word → Option (List Char)
  | [] => some []
  | .char c false :: rest => (plainText? rest).map (c :: ·)
  | _ => none

/-- The keyword that a token is. -/
def keyword? : Token → Option String
  | .word w => (plainText? w).map String.ofList
  | _ => none

/-- Whether a token is the given keyword. -/
def Token.isKeyword (t : Token) (k : String) : Bool := keyword? t == some k

/-- The keywords before which a list of commands ends. -/
def closingKeywords : List String :=
  ["then", "else", "elif", "fi", "do", "done", "esac", "\x7d"]

/-- Whether a list of commands ends before the tokens. -/
def endsList : List Token → Bool
  | [] => true
  | .operator o :: _ => o == ")" || o == ";;"
  | t :: _ => (keyword? t).any closingKeywords.contains

/-- The tokens without ends of lines in front. -/
def skipLineEnds (ts : List Token) : List Token := ts.dropWhile (· == .operator "\n")

/-- The assignment that a word is: a name, an equals sign and a value. -/
def assignment? (w : Word) : Option (String × Word) :=
  let nameChars := w.takeWhile fun
    | .char c false => isNameChar c
    | _ => false
  match plainText? nameChars, w.drop nameChars.length with
  | some (c :: cs), .char '=' false :: value =>
    if c.isDigit then none else some (String.ofList (c :: cs), value)
  | _, _ => none

/-- The redirections in front of the tokens, and the rest. -/
def redirections : (fuel : Nat) → List Token → List Redirection × List Token
  | fuel + 1, .redirect stream sign :: .word w :: rest =>
    let (others, behind) := redirections fuel rest
    let one : Redirection := match sign with
      | .fromFile => .fromFile w
      | .toFile => .toFile stream w
      | .toStream =>
        match plainText? w with
        | some [d] => .toStream stream (d.toNat - '0'.toNat)
        | _ => .toFile stream w
    (one :: others, behind)
  | _, ts => ([], ts)

/-- The assignments, words and redirections of a simple command, and the rest. -/
def simpleParts : (fuel : Nat) → List (String × Word) → List Word → List Redirection →
    List Token → Command × List Token
  | fuel + 1, assigned, words, redirected, .word w :: rest =>
    match if words.isEmpty then assignment? w else none with
    | some a => simpleParts fuel (assigned ++ [a]) words redirected rest
    | none => simpleParts fuel assigned (words ++ [w]) redirected rest
  | fuel + 1, assigned, words, redirected, .redirect stream sign :: rest =>
    match redirections 1 (.redirect stream sign :: rest) with
    | ([], _) => (.simple assigned words redirected, .redirect stream sign :: rest)
    | (more, behind) => simpleParts fuel assigned words (redirected ++ more) behind
  | _, assigned, words, redirected, ts => (.simple assigned words redirected, ts)

/-- The words in front of the tokens, and the rest. -/
def leadingWords : List Token → List Word × List Token
  | .word w :: rest => let (ws, behind) := leadingWords rest; (w :: ws, behind)
  | ts => ([], ts)

/-- The patterns of a case up to the closing parenthesis, and the rest behind it. -/
def casePatterns : List Token → Option (List Word × List Token)
  | .word w :: .operator "|" :: rest => (casePatterns rest).map fun r => (w :: r.1, r.2)
  | .word w :: .operator ")" :: rest => some ([w], rest)
  | _ => none

/-- The tokens behind the given keyword, if they start with it. -/
def behind? (k : String) : List Token → Option (List Token)
  | t :: rest => if t.isKeyword k then some rest else none
  | [] => none

mutual

/-- The commands up to a token that ends a list, and that token and the rest. -/
def readList : (fuel : Nat) → List Token → Option (Command × List Token)
  | 0, _ => none
  | fuel + 1, ts =>
    let ts := skipLineEnds ts
    if endsList ts then some (.nothing, ts)
    else
      match readAndOr fuel ts with
      | none => none
      | some (first, rest) =>
        match rest with
        | .operator o :: behind =>
          if o = ";" ∨ o = "\n" then
            (readList fuel behind).map fun r => (.sequence first r.1, r.2)
          else if o = "&" then
            (readList fuel behind).map fun r => (.sequence (.background first) r.1, r.2)
          else if endsList rest then some (first, rest)
          else none
        | _ => if endsList rest then some (first, rest) else none

/-- Commands joined by the operators for success and failure, from left to right. -/
def readAndOr : (fuel : Nat) → List Token → Option (Command × List Token)
  | 0, _ => none
  | fuel + 1, ts =>
    match readPipe fuel ts with
    | none => none
    | some (first, rest) => readJoined fuel first rest

/-- A command with those that are joined to it. -/
def readJoined : (fuel : Nat) → Command → List Token → Option (Command × List Token)
  | 0, _, _ => none
  | fuel + 1, first, .operator o :: rest =>
    if o = "&&" ∨ o = "||" then
      match readPipe fuel (skipLineEnds rest) with
      | none => none
      | some (second, behind) =>
        readJoined fuel (if o = "&&" then .ifSuccess first second else .ifFailure first second)
          behind
    else some (first, .operator o :: rest)
  | _, first, ts => some (first, ts)

/-- Commands joined by pipes. -/
def readPipe : (fuel : Nat) → List Token → Option (Command × List Token)
  | 0, _ => none
  | fuel + 1, ts =>
    match behind? "!" ts with
    | some rest => (readPipe fuel rest).map fun r => (.negation r.1, r.2)
    | none =>
      match readCommand fuel ts with
      | none => none
      | some (first, .operator "|" :: rest) =>
        (readPipe fuel (skipLineEnds rest)).map fun r => (.pipe first r.1, r.2)
      | some result => some result

/-- The rest of a choice, behind the keyword that its condition follows. -/
def readChoice : (fuel : Nat) → List Token → Option (Command × List Token)
  | 0, _ => none
  | fuel + 1, ts => do
    let (condition, ts) ← readList fuel ts
    let ts ← behind? "then" ts
    let (yes, ts) ← readList fuel ts
    match behind? "elif" ts with
    | some ts =>
      let (no, ts) ← readChoice fuel ts
      return (.choice condition yes no, ts)
    | none =>
      match behind? "else" ts with
      | some ts =>
        let (no, ts) ← readList fuel ts
        return (.choice condition yes no, ← behind? "fi" ts)
      | none => return (.choice condition yes .nothing, ← behind? "fi" ts)

/-- The cases up to the keyword that ends them, and the rest behind it. -/
def readCases : (fuel : Nat) → List Token → Option (List (List Word × Command) × List Token)
  | 0, _ => none
  | fuel + 1, ts =>
    let ts := skipLineEnds ts
    match behind? "esac" ts with
    | some rest => some ([], rest)
    | none => do
      let ts := if ts.head? = some (.operator "(") then ts.tail else ts
      let (patterns, ts) ← casePatterns ts
      let (body, ts) ← readList fuel ts
      let ts := if ts.head? = some (.operator ";;") then ts.tail else ts
      let (others, ts) ← readCases fuel ts
      return ((patterns, body) :: others, ts)

/-- One command, with the redirections behind it. -/
def readCommand : (fuel : Nat) → List Token → Option (Command × List Token)
  | 0, _ => none
  | fuel + 1, ts =>
    let redirected (isolated : Bool) (body : Command) (rest : List Token) :=
      let (changes, behind) := redirections rest.length rest
      if !isolated && changes.isEmpty then some (body, behind)
      else some (.group isolated body changes, behind)
    match ts with
    | .operator "(" :: rest =>
      match readList fuel rest with
      | some (body, .operator ")" :: behind) => redirected true body behind
      | _ => none
    | .operator _ :: _ => none
    | [] => none
    | .redirect stream sign :: rest =>
      some (simpleParts (rest.length + 1) [] [] [] (.redirect stream sign :: rest))
    | .word w :: rest =>
      let simple := some (simpleParts (rest.length + 2) [] [] [] (.word w :: rest))
      match keyword? (.word w) with
      | some "if" => (readChoice fuel rest).bind fun r => redirected false r.1 r.2
      | some "while" => readLoop fuel false rest
      | some "until" => readLoop fuel true rest
      | some "for" =>
        match rest with
        | .word name :: ts => do
          let name ← plainText? name
          let ts := skipLineEnds ts
          let (words, ts) :=
            match behind? "in" ts with
            | some ts => leadingWords ts
            | none => ([[.parameter "@" .keep true]], ts)
          let ts := if ts.head? = some (.operator ";") then ts.tail else ts
          let ts ← behind? "do" (skipLineEnds ts)
          let (body, ts) ← readList fuel ts
          redirected false (.forEach (String.ofList name) words body) (← behind? "done" ts)
        | _ => none
      | some "case" =>
        match rest with
        | .word subject :: ts => do
          let ts ← behind? "in" (skipLineEnds ts)
          let (cases, ts) ← readCases fuel ts
          redirected false (.select subject cases) ts
        | _ => none
      | some k =>
        if k = "\x7b" then
          match readList fuel rest with
          | some (body, ts) => (behind? "\x7d" ts).bind (redirected false body)
          | none => none
        else if closingKeywords.contains k then none
        else simple
      | none => simple

/-- The rest of a repetition, behind its keyword. -/
def readLoop : (fuel : Nat) → Bool → List Token → Option (Command × List Token)
  | 0, _, _ => none
  | fuel + 1, untilSuccess, ts => do
    let (condition, ts) ← readList fuel ts
    let ts ← behind? "do" ts
    let (body, ts) ← readList fuel ts
    let ts ← behind? "done" ts
    let (changes, ts) := redirections ts.length ts
    let loop := Command.repetition untilSuccess condition body
    return (if changes.isEmpty then loop else .group false loop changes, ts)

end

/-- The command that a script is, or nothing if it is malformed. -/
def readScript (script : List Char) : Option Command := do
  let ts ← tokens? script
  let (command, rest) ← readList (4 * ts.length + 8) ts
  if rest.isEmpty then some command else none

end CoverageEstimate.Shell

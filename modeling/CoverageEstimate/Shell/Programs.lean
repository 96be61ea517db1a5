/-
# Small programs

What the programs do that scripts use most: writing texts, with and without a format, and testing
texts, numbers and files.
-/
import CoverageEstimate.FileSystem.Basic
import CoverageEstimate.Text.Blank

namespace CoverageEstimate.Shell

/-- The value of an octal digit. -/
def octalDigit? (c : Char) : Option Nat :=
  if '0' ≤ c ∧ c ≤ '7' then some (c.toNat - '0'.toNat) else none

/-- The number of the octal digits in front, at most `limit`, and the rest. -/
def octalNumber : (limit : Nat) → Nat → List Char → Nat × List Char
  | limit + 1, n, c :: rest =>
    match octalDigit? c with
    | some d => octalNumber limit (n * 8 + d) rest
    | none => (n, c :: rest)
  | _, n, cs => (n, cs)

/-- The character that a letter behind a backslash stands for. -/
def escapedLetter? : Char → Option UInt8
  | 'a' => some 7
  | 'b' => some 8
  | 'f' => some 12
  | 'n' => some 10
  | 'r' => some 13
  | 't' => some 9
  | 'v' => some 11
  | '\\' => some 92
  | _ => none

/-- The bytes of a character. -/
def charBytes (c : Char) : List UInt8 := String.utf8EncodeChar c

/-- What a text behind a backslash stands for, and the rest.  Octal digits stand for a byte;
`zeroFirst` tells whether a zero comes in front of them. -/
def escapeSequence (zeroFirst : Bool) : List Char → List UInt8 × List Char
  | [] => ([92], [])
  | c :: rest =>
    match escapedLetter? c with
    | some b => ([b], rest)
    | none =>
      if zeroFirst then
        if c = '0' then
          let (n, behind) := octalNumber 3 0 rest
          ([UInt8.ofNat n], behind)
        else (92 :: charBytes c, rest)
      else
        match octalDigit? c with
        | some d =>
          let (n, behind) := octalNumber 2 d rest
          ([UInt8.ofNat n], behind)
        | none => (92 :: charBytes c, rest)

/-- The bytes of a text whose escape sequences have been replaced; nothing behind the sequence that
ends the output, and whether there was one. -/
def unescaped : (fuel : Nat) → List Char → List UInt8 × Bool
  | 0, _ => ([], false)
  | _, [] => ([], false)
  | fuel + 1, c :: rest =>
    if c = '\\' then
      if rest.head? = some 'c' then ([], true)
      else
        let (bytes, behind) := escapeSequence true rest
        let (more, isEnded) := unescaped fuel behind
        (bytes ++ more, isEnded)
    else
      let (more, isEnded) := unescaped fuel rest
      (charBytes c ++ more, isEnded)

/-- What is written for some words: the words with a space between them and the end of a line
behind them, which the option in front leaves out. -/
def echoOutput (withEscapes : Bool) (words : List String) : List UInt8 :=
  let (isOpen, words) :=
    match words with
    | "-n" :: rest => (true, rest)
    | _ => (false, words)
  let text := (" ".intercalate words).toList
  let (bytes, isEnded) :=
    if withEscapes then unescaped (text.length + 1) text else (text.flatMap charBytes, false)
  if isOpen || isEnded then bytes else bytes ++ [10]

/-- What is written for one pass through a format, the words that are left, and whether the format
has used a word. -/
def formatPass : (fuel : Nat) → List Char → List String → List UInt8 × List String × Bool
  | 0, _, words => ([], words, false)
  | _, [], words => ([], words, false)
  | fuel + 1, c :: rest, words =>
    let prepend (bytes : List UInt8) (result : List UInt8 × List String × Bool) :=
      (bytes ++ result.1, result.2)
    if c = '\\' then
      let (bytes, behind) := escapeSequence false rest
      prepend bytes (formatPass fuel behind words)
    else if c = '%' then
      match rest with
      | '%' :: behind => prepend [37] (formatPass fuel behind words)
      | d :: behind =>
        let word := words.headD ""
        let bytes :=
          if d = 'b' then (unescaped (word.length + 1) word.toList).1
          else if d = 'c' then (word.toList.take 1).flatMap charBytes
          else if (d = 'd' ∨ d = 'i' ∨ d = 'u') ∧ word = "" then [48]
          else word.toList.flatMap charBytes
        let result := formatPass fuel behind words.tail
        (bytes ++ result.1, result.2.1, true)
      | [] => ([37], words, false)
    else prepend (charBytes c) (formatPass fuel rest words)

/-- What is written for a format and some words.  The format is used again as long as there are
words that it takes. -/
def formatOutput (format : String) : (fuel : Nat) → List String → List UInt8
  | 0, _ => []
  | fuel + 1, words =>
    let (bytes, left, hasUsed) := formatPass (format.length + 1) format.toList words
    if hasUsed && !left.isEmpty then bytes ++ formatOutput format fuel left else bytes

/-- The number that a word is. -/
def integer? (w : String) : Option Int := (String.ofList (Text.trim w.toList)).toInt?

/-- The answer to a question about one word, if it is one that can be asked. -/
def answerOne? (files : FileSystem) (question word : String) : Option Bool :=
  match question with
  | "-n" => some (word != "")
  | "-z" => some (word == "")
  | "-e" => some (files.exists? word)
  | "-f" => some (files.isFile word)
  | "-d" => some (files.isDirectory word)
  | "-r" => some (files.exists? word)
  | "-w" => some (files.exists? word)
  | "-x" => some (files.isDirectory word)
  | "-s" => some (match files.readBytes word with
    | .ok bytes => !bytes.isEmpty
    | .error e => e == .isDirectory)
  | _ => none

/-- The answer to a question about two words, if it is one that can be asked. -/
def answerTwo? (a question b : String) : Option Bool :=
  let numbers (holds : Int → Int → Bool) : Option Bool :=
    match integer? a, integer? b with
    | some x, some y => some (holds x y)
    | _, _ => none
  match question with
  | "=" => some (a == b)
  | "==" => some (a == b)
  | "!=" => some (a != b)
  | "-eq" => numbers (· == ·)
  | "-ne" => numbers (· != ·)
  | "-lt" => numbers fun x y => decide (x < y)
  | "-le" => numbers fun x y => decide (x ≤ y)
  | "-gt" => numbers fun x y => decide (y < x)
  | "-ge" => numbers fun x y => decide (y ≤ x)
  | _ => none

/-- The answer to the question that some words ask, if they ask one. -/
def answer? (files : FileSystem) : List String → Option Bool
  | [] => some false
  | [w] => some (w != "")
  | ["!", w] => some (w == "")
  | [question, w] => answerOne? files question w
  | "!" :: rest => (answer? files rest).map (!·)
  | [a, question, b] => answerTwo? a question b
  | _ => none

end CoverageEstimate.Shell

/-
# What is given on a command line

The words of a command line are read from the left.  A word of two hyphens and a name is an option,
with a value behind an equals sign or, if it takes one, in the next word.  Behind a single hyphen
stand the letters of options; the first that takes a value takes the rest of the word, or the next
word if nothing is left.  Two hyphens alone say that no options follow, and every other word is a
value.  Reading stops at a word for which there is no place.
-/
import CoverageEstimate.CommandLine.Parameter

namespace CoverageEstimate.CommandLine

/-- A word of a command line by its looks. -/
inductive Word where
  /-- Two hyphens. -/
  | escape
  /-- A long name, with a value behind an equals sign. -/
  | long (name : String) (value : Option String)
  /-- Letters behind a hyphen. -/
  | letters (cs : List Char)
  /-- A value. -/
  | plain
  deriving DecidableEq, Repr, Inhabited

/-- The looks of a word. -/
def Word.ofText (text : String) : Word :=
  match text.toList with
  | ['-', '-'] => .escape
  | '-' :: '-' :: rest =>
    .long (String.ofList (rest.takeWhile (· != '='))) <|
      match rest.dropWhile (· != '=') with
      | [] => none
      | _ :: value => some (String.ofList value)
  | '-' :: c :: cs => .letters (c :: cs)
  | _ => .plain

/-- A parameter that is given. -/
structure Occurrence where
  parameter : Parameter
  /-- Its value, if it has one. -/
  value : Option String
  /-- Whether the value is, or would have to be, a word of its own. -/
  isApart : Bool
  deriving DecidableEq, Repr, Inhabited

/-- Why reading stops before the end. -/
inductive Stop where
  /-- There is no place for a word or for an option. -/
  | unknown (text : String)
  /-- An option is given a value that it does not take. -/
  | surplusValue (parameter : Parameter) (value : String)
  deriving DecidableEq, Repr, Inhabited

/-- What is given up to the end, or up to the word at which reading stops. -/
structure Reading where
  occurrences : List Occurrence
  stop : Option Stop
  deriving DecidableEq, Repr, Inhabited

namespace Reading

/-- A reading that starts with one more occurrence. -/
def after (o : Occurrence) (r : Reading) : Reading := { r with occurrences := o :: r.occurrences }

/-- A reading before which an option waits for its value in vain. -/
def afterWaiting : Option Parameter → Reading → Reading
  | some p, r => r.after ⟨p, none, true⟩
  | none, r => r

/-- The reading that stops at once. -/
def stopped (s : Stop) : Reading := ⟨[], some s⟩

end Reading

/-- The options that letters stand for: the occurrences, the option that takes its value from the
next word, and the reason to stop. -/
def readLetters (options : List Parameter) :
    List Char → List Occurrence × Option Parameter × Option Stop
  | [] => ([], none, none)
  | c :: rest =>
    match options.find? fun p => p.letter? == some c with
    | none => ([], none, some (.unknown (String.ofList ['-', c])))
    | some p =>
      if p.kind.takesValue then
        match rest with
        | [] => ([], some p, none)
        | '=' :: value => ([⟨p, some (String.ofList value), false⟩], none, none)
        | value => ([⟨p, some (String.ofList value), false⟩], none, none)
      else
        let (occurrences, waiting, stop) := readLetters options rest
        (⟨p, none, false⟩ :: occurrences, waiting, stop)

/-- Reads words.  `left` are the parameters whose values stand alone and that have none yet,
`waiting` is the option that takes its value from the next word, and no word is an option once
`isEscaped`. -/
def readWords (options : List Parameter) :
    (left : List Parameter) → (waiting : Option Parameter) → (isEscaped : Bool) → List String →
      Reading
  | _, waiting, _, [] => Reading.afterWaiting waiting ⟨[], none⟩
  | left, waiting, isEscaped, text :: rest =>
    match if isEscaped then .plain else Word.ofText text with
    | .escape => Reading.afterWaiting waiting (readWords options left none true rest)
    | .long name value =>
      Reading.afterWaiting waiting <|
        match options.find? fun p => p.name == name with
        | none => Reading.stopped (.unknown ("--" ++ name))
        | some p =>
          match value with
          | some v =>
            if p.kind.takesValue then
              (readWords options left none false rest).after ⟨p, some v, false⟩
            else Reading.stopped (.surplusValue p v)
          | none =>
            if p.kind.takesValue then readWords options left (some p) false rest
            else (readWords options left none false rest).after ⟨p, none, false⟩
    | .letters cs =>
      Reading.afterWaiting waiting <|
        match readLetters options cs with
        | (occurrences, _, some stop) => ⟨occurrences, some stop⟩
        | (occurrences, next, none) =>
          occurrences.foldr (fun o r => r.after o) (readWords options left next false rest)
    | .plain =>
      match waiting with
      | some p => (readWords options left none isEscaped rest).after ⟨p, some text, true⟩
      | none =>
        match left with
        | p :: others => (readWords options others none isEscaped rest).after ⟨p, some text, true⟩
        | [] => Reading.stopped (.unknown text)

/-- What is given to a command. -/
def Command.read (c : Command) (words : List String) : Reading :=
  readWords c.options c.positionals none false words

end CoverageEstimate.CommandLine

/-
# Requests

A request says what the program is asked for.  The parameters that are given on the command line
are checked one after the other, and the first fault counts.  A value in a word of its own is
checked only when what follows it has its place, so that a word without one is the fault to report.
-/
import CoverageEstimate.CommandLine.Occurrence

namespace CoverageEstimate.CommandLine

/-- What a help text is about. -/
inductive Topic where
  /-- The program. -/
  | program
  /-- A command. -/
  | command (c : Command)
  /-- The help itself. -/
  | help
  deriving DecidableEq, Repr, Inhabited

/-- Why there is no request on a command line. -/
inductive Fault where
  /-- Help is asked for. -/
  | help (topic : Topic)
  /-- Nothing is asked for. -/
  | nothing
  /-- The version of the program is asked for. -/
  | version
  /-- A word where a command is expected is none. -/
  | unknownCommand (text : String)
  /-- There is no place for a word or for an option. -/
  | unknownWord (text : String)
  /-- An option is given a value that it does not take. -/
  | surplusValue (parameter : Parameter) (value : String)
  /-- A parameter is given twice. -/
  | repeated (parameter : Parameter)
  /-- A value does not suit its parameter. -/
  | badValue (parameter : Parameter) (value : String) (fault : ValueFault)
  /-- A parameter that is required is missing. -/
  | required (parameters : List Parameter)
  deriving DecidableEq, Repr, Inhabited

/-- The parameters that are given, each with its value; a switch has an empty one. -/
abbrev Given := List (Parameter × String)

namespace Given

/-- Whether a parameter is given. -/
def has (given : Given) (p : Parameter) : Bool := given.any fun g => g.1 == p

/-- The value of a parameter. -/
def value? (given : Given) (p : Parameter) : Option String :=
  (given.find? fun g => g.1 == p).map (·.2)

/-- The natural number that is given for a parameter. -/
def natural? (given : Given) (p : Parameter) : Option Nat :=
  (given.value? p).bind fun v => (Decimal.readNatural Decimal.wordBound v.toList).toOption

/-- The number that is given for a parameter. -/
def real? (given : Given) (p : Parameter) : Option Float :=
  (given.value? p).bind fun v => Decimal.real? v.toList

/-- What is given with a value for one more parameter. -/
def add (given : Given) (p : Parameter) (value : String) : Except Fault Given :=
  match p.kind.check value with
  | .ok _ => .ok ((p, value) :: given)
  | .error fault => .error (.badValue p value fault)

/-- What is given with one more occurrence, in the parameters of a command. -/
def accept (c : Command) (given : Given) (o : Occurrence) : Except Fault Given :=
  let p := o.parameter
  if p = .help then .error (.help (.command c))
  else if p = .version then .error .version
  else
    match p.kind.takesValue, o.value with
    | true, none => .error (.badValue p "" .missing)
    | _, value => if given.has p then .error (.repeated p) else given.add p (value.getD "")

theorem has_cons {given : Given} {p q : Parameter} {value : String} :
    Given.has ((p, value) :: given) q = (p == q || given.has q) := by
  simp [Given.has]

theorem value?_cons_self {given : Given} {p : Parameter} {value : String} :
    Given.value? ((p, value) :: given) p = some value := by
  simp [Given.value?]

end Given

namespace Reading

/-- The occurrences that are checked.  A value in a word of its own at which reading stops does not
count. -/
def checked (r : Reading) : List Occurrence :=
  match r.stop, r.occurrences.getLast? with
  | some _, some o => if o.isApart then r.occurrences.dropLast else r.occurrences
  | _, _ => r.occurrences

/-- The fault of a reading that stops. -/
def stopFault : Stop → Fault
  | .unknown text => .unknownWord text
  | .surplusValue p value => .surplusValue p value

/-- The parameters of a command that a reading gives. -/
def given (c : Command) (r : Reading) : Except Fault Given :=
  match r.checked.foldlM (Given.accept c) [] with
  | .error fault => .error fault
  | .ok given =>
    match r.stop with
    | some s => .error (stopFault s)
    | none => .ok given

end Reading

/-- A request to analyze a project. -/
structure AnalyzeRequest where
  /-- The path of the project. -/
  path : String
  /-- The word for how the report is written. -/
  format : String
  /-- The path of the configuration. -/
  config : Option String
  /-- The program of the external parser for Dart. -/
  dartParser : Option String
  /-- How many seconds it has for a file. -/
  parserTimeout : Option Nat
  /-- How many files are worked on at a time. -/
  jobs : Option Nat
  /-- The coverage that is asked for, in percent. -/
  minimumCoverage : Option Float
  /-- Whether functions are listed. -/
  isVerbose : Bool
  deriving Inhabited

/-- What the program is asked for. -/
inductive Request where
  /-- To analyze a project. -/
  | analyze (r : AnalyzeRequest)
  /-- To make a configuration at a path. -/
  | init (output : String)
  deriving Inhabited

/-- The format where none is asked for. -/
def defaultFormat : String := "pretty"

/-- The file that is made where none is asked for. -/
def defaultOutput : String := "sentinel.yaml"

namespace Command

/-- What is given to a command together with the external parser that the environment names, which
counts where the command line names none. -/
def withEnvironment (c : Command) (parser : Option String) (given : Given) : Except Fault Given :=
  match parser with
  | some program =>
    if c.options.contains .dartParser && !given.has .dartParser then given.add .dartParser program
    else .ok given
  | none => .ok given

/-- The request for a command to which parameters are given. -/
def requestOf (given : Given) : Command → Request
  | analyze =>
    .analyze
      { path := (given.value? .path).getD ""
        format := (given.value? .format).getD defaultFormat
        config := given.value? .config
        dartParser := given.value? .dartParser
        parserTimeout := given.natural? .parserTimeout
        jobs := given.natural? .jobs
        minimumCoverage := given.real? .minimumCoverage
        isVerbose := given.has .verbose }
  | init => .init ((given.value? .output).getD defaultOutput)

/-- The request of the words behind a command. -/
def request (c : Command) (parser : Option String) (words : List String) :
    Except Fault Request :=
  match (c.read words).given c with
  | .error fault => .error fault
  | .ok written =>
    match c.withEnvironment parser written with
    | .error fault => .error fault
    | .ok given =>
      match c.positionals.filter fun p => !given.has p with
      | [] => .ok (c.requestOf given)
      | missing => .error (.required missing)

end Command

namespace Request

/-- The word that asks for help on the commands behind it. -/
def helpWord : String := "help"

/-- The help that some words ask for.  Each of them names a command of the one before it. -/
def helpFault : Topic → List String → Fault
  | topic, [] => .help topic
  | .program, word :: rest =>
    match Command.ofName? word with
    | some c => helpFault (.command c) rest
    | none => if word = helpWord then helpFault .help rest else .unknownCommand word
  | _, word :: _ => .unknownCommand word

/-- Whether a word names a command, the help included. -/
def isCommandWord (word : String) : Bool := (Command.ofName? word).isSome || word == helpWord

/-- The fault at the first word where it names no command.  The program itself has no options but
those that ask for help or for its version. -/
def firstFault (word : String) (rest : List String) : Fault :=
  match Word.ofText word with
  | .escape =>
    match rest with
    | [] => .nothing
    | next :: _ => if isCommandWord next then .unknownWord next else .unknownCommand next
  | .long name value =>
    match [Parameter.help, .version].find? fun p => p.name == name, value with
    | none, _ => .unknownWord ("--" ++ name)
    | some p, some v => .surplusValue p v
    | some .help, none => .help .program
    | some _, none => .version
  | .letters (c :: _) =>
    match [Parameter.help, .version].find? fun p => p.letter? == some c with
    | none => .unknownWord (String.ofList ['-', c])
    | some .help => .help .program
    | some _ => .version
  | _ => .unknownCommand word

/-- The request on a command line.  `parser` is the external parser that the environment names. -/
def ofWords (parser : Option String) : List String → Except Fault Request
  | [] => .error .nothing
  | word :: rest =>
    match Command.ofName? word with
    | some c => c.request parser rest
    | none =>
      .error (if word = helpWord then helpFault .program rest else firstFault word rest)

end Request

end CoverageEstimate.CommandLine

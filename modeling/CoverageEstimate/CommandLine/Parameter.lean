/-
# Commands and their parameters

The program has two commands: one analyzes a project, the other makes a configuration.  A command
is given parameters: values that stand alone, and options, which are known by a long name behind
two hyphens and mostly by a letter behind one hyphen as well.
-/
import CoverageEstimate.Decimal.Natural
import CoverageEstimate.Decimal.Reader

namespace CoverageEstimate.CommandLine

/-- What is given with a parameter. -/
inductive Kind where
  /-- Nothing: the parameter itself says all. -/
  | switch
  /-- Any text. -/
  | text
  /-- A path, which has at least one character. -/
  | path
  /-- A natural number below `2 ^ 64`. -/
  | natural
  /-- A double. -/
  | real
  deriving DecidableEq, Repr, Inhabited

/-- Why a value does not suit a parameter. -/
inductive ValueFault where
  /-- A value is needed and there is none. -/
  | missing
  /-- The value is no natural number. -/
  | notNatural (fault : Decimal.NaturalFault)
  /-- The value is no number. -/
  | notReal
  /-- A number is needed and the value is empty. -/
  | emptyReal
  deriving DecidableEq, Repr, Inhabited

/-- Whether a parameter of this kind takes a value. -/
def Kind.takesValue : Kind → Bool
  | switch => false
  | text | path | natural | real => true

/-- Checks a value of a kind. -/
def Kind.check : Kind → String → Except ValueFault Unit
  | path, value => if value = "" then .error .missing else .ok ()
  | natural, value =>
    match Decimal.readNatural Decimal.wordBound value.toList with
    | .ok _ => .ok ()
    | .error fault => .error (.notNatural fault)
  | real, value =>
    if value = "" then .error .emptyReal
    else if (Decimal.real? value.toList).isSome then .ok ()
    else .error .notReal
  | _, _ => .ok ()

/-- A parameter of some command. -/
inductive Parameter where
  /-- The directory of the project. -/
  | path
  /-- How the report is written. -/
  | format
  /-- The file of the configuration. -/
  | config
  /-- The external parser for Dart. -/
  | dartParser
  /-- How many seconds the external parser has for a file. -/
  | parserTimeout
  /-- How many files are worked on at a time. -/
  | jobs
  /-- The coverage that is asked for. -/
  | minimumCoverage
  /-- Whether functions are listed. -/
  | verbose
  /-- The file that is made. -/
  | output
  /-- Whether help is asked for. -/
  | help
  /-- Whether the version of the program is asked for. -/
  | version
  deriving DecidableEq, Repr, Inhabited

namespace Parameter

/-- What is given with the parameter. -/
def kind : Parameter → Kind
  | path | config | dartParser | output => .path
  | format => .text
  | parserTimeout | jobs => .natural
  | minimumCoverage => .real
  | verbose | help | version => .switch

/-- The name of the parameter. -/
def name : Parameter → String
  | path => "path"
  | format => "format"
  | config => "config"
  | dartParser => "dart-parser"
  | parserTimeout => "parser-timeout"
  | jobs => "jobs"
  | minimumCoverage => "min-coverage"
  | verbose => "verbose"
  | output => "output"
  | help => "help"
  | version => "version"

/-- The letter of the parameter. -/
def letter? : Parameter → Option Char
  | format => some 'f'
  | config => some 'c'
  | jobs => some 'j'
  | minimumCoverage => some 'm'
  | verbose => some 'v'
  | output => some 'o'
  | help => some 'h'
  | version => some 'V'
  | path | dartParser | parserTimeout => none

/-- Whether the value of the parameter stands alone. -/
def isPositional (p : Parameter) : Bool := p == .path

/-- What stands for the value of the parameter in messages. -/
def placeholder (p : Parameter) : String :=
  "<" ++ String.ofList (p.name.toList.map fun c => if c = '-' then '_' else c.toUpper) ++ ">"

/-- The parameter in messages. -/
def shown (p : Parameter) : String :=
  if p.isPositional then p.placeholder
  else if p.kind.takesValue then "--" ++ p.name ++ " " ++ p.placeholder
  else "--" ++ p.name

end Parameter

/-- A command of the program. -/
inductive Command where
  /-- Analyzes a project. -/
  | analyze
  /-- Makes a configuration. -/
  | init
  deriving DecidableEq, Repr, Inhabited

namespace Command

/-- The commands, in the order of the help. -/
def all : List Command := [analyze, init]

/-- The names of a command, the usual one first. -/
def names : Command → List String
  | analyze => ["analyze", "scan"]
  | init => ["init"]

/-- The command of a name. -/
def ofName? (name : String) : Option Command := all.find? fun c => c.names.contains name

/-- The parameters of a command whose values stand alone, in their order.  All of them are
required. -/
def positionals : Command → List Parameter
  | analyze => [.path]
  | init => []

/-- The options of a command, in the order of the help. -/
def options : Command → List Parameter
  | analyze =>
    [.format, .config, .dartParser, .parserTimeout, .jobs, .minimumCoverage, .verbose, .help]
  | init => [.output, .help]

end Command

end CoverageEstimate.CommandLine

/-
# Help and messages

The help on a command says what it is for, how it is written and what can be given with it.  A
fault on the command line is told in one sentence, followed by how the command is written.
-/
import CoverageEstimate.CommandLine.Request
import CoverageEstimate.Report.Pretty

namespace CoverageEstimate.CommandLine

/-- What a command is for. -/
def Command.purpose : Command → String
  | analyze => "Estimate test coverage for a project"
  | init => "Create a sentinel config file from the default template"

/-- What a parameter is for. -/
def Parameter.purpose : Parameter → String
  | path => "Project root directory"
  | format => "Output format: pretty or json [default: " ++ defaultFormat ++ "]"
  | config => "Path to config YAML file (default: auto-discover)"
  | dartParser => "External Dart parser executable [env: SENTINEL_DART_PARSER]"
  | parserTimeout => "Seconds to wait for the external parser per file"
  | jobs => "Number of worker threads"
  | minimumCoverage => "Minimum overall coverage percentage (exit non-zero if below)"
  | verbose => "List per-function scores"
  | output => "Output file path [default: " ++ defaultOutput ++ "]"
  | help => "Print help"
  | version => "Print version"

namespace Topic

/-- What the topic is, in one line. -/
def purpose : Topic → String
  | program => "Heuristic test coverage estimator for Dart and TypeScript projects"
  | command c => c.purpose
  | help => "Print this message or the help of the given subcommand(s)"

/-- How the topic is written on a command line. -/
def usage : Topic → String
  | program => programName ++ " <COMMAND>"
  | command c =>
    " ".intercalate ([programName, c.names.headD "", "[OPTIONS]"] ++
      c.positionals.map Parameter.shown)
  | help => programName ++ " help [COMMAND]..."

/-- The entries of a part of a help text, with the explanations below each other. -/
def entriesText (title : String) (entries : List (String × String)) : String :=
  if entries.isEmpty then ""
  else
    let width := (entries.map fun e => e.1.length).foldl max 0
    "\n" ++ title ++ ":\n" ++
      String.join (entries.map fun e => "  " ++ Text.padRight width e.1 ++ "  " ++ e.2 ++ "\n")

/-- The entry of a positional parameter. -/
def positionalEntry (p : Parameter) : String × String := (p.shown, p.purpose)

/-- The entry of an option. -/
def optionEntry (p : Parameter) : String × String :=
  let letter := match p.letter? with
    | some c => String.ofList ['-', c, ',', ' ']
    | none => "    "
  (letter ++ p.shown, p.purpose)

/-- The entry of a command. -/
def commandEntry (c : Command) : String × String :=
  let others := c.names.drop 1
  (c.names.headD "",
    c.purpose ++ if others.isEmpty then "" else " [aliases: " ++ ", ".intercalate others ++ "]")

/-- The help text. -/
def text (t : Topic) : String :=
  t.purpose ++ "\n\nUsage: " ++ t.usage ++ "\n" ++
    match t with
    | program =>
      entriesText "Commands"
        (Command.all.map commandEntry ++ [(Request.helpWord, Topic.help.purpose)]) ++
      entriesText "Options" ([Parameter.help, .version].map optionEntry)
    | command c =>
      entriesText "Arguments" (c.positionals.map positionalEntry) ++
      entriesText "Options" (c.options.map optionEntry)
    | help => ""

end Topic

/-- The message for a value that does not suit a parameter. -/
def ValueFault.message (p : Parameter) (value : String) : ValueFault → String
  | missing => "a value is required for '" ++ p.shown ++ "' but none was supplied"
  | notNatural fault =>
    "invalid value '" ++ value ++ "' for '" ++ p.shown ++ "': " ++ fault.message
  | notReal => "invalid value '" ++ value ++ "' for '" ++ p.shown ++ "': invalid float literal"
  | emptyReal =>
    "invalid value '" ++ value ++ "' for '" ++ p.shown ++ "': cannot parse float from empty string"

namespace Fault

/-- What is printed when there is no request: the text that is asked for, or what is wrong. -/
def message : Fault → String
  | help topic => topic.text
  | nothing => Topic.program.text
  | version => programName ++ " " ++ programVersion ++ "\n"
  | unknownCommand text => "error: unrecognized subcommand '" ++ text ++ "'\n"
  | unknownWord text => "error: unexpected argument '" ++ text ++ "' found\n"
  | surplusValue p value =>
    "error: unexpected value '" ++ value ++ "' for '" ++ p.shown ++
      "' found; no more were expected\n"
  | repeated p => "error: the argument '" ++ p.shown ++ "' cannot be used multiple times\n"
  | badValue p value fault => "error: " ++ fault.message p value ++ "\n"
  | required parameters =>
    "error: the following required arguments were not provided:\n" ++
      String.join (parameters.map fun p => "  " ++ p.shown ++ "\n")

/-- Whether a text is printed that was asked for. -/
def isAskedFor : Fault → Bool
  | help _ | version => true
  | _ => false

end Fault

end CoverageEstimate.CommandLine

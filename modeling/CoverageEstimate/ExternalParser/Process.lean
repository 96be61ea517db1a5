/-
# Parser processes

What starting a program gives: the bytes that it writes and how it ends, or the reason why it does
not start.  The programs that can be started are the shell, with the scripts it is given, and some
small ones beside it.
-/
import CoverageEstimate.ExternalParser.Supervision
import CoverageEstimate.Shell.Run

namespace CoverageEstimate

namespace ExitStatus

/-- The name of a signal in parentheses, with a space before it. -/
def signalName (n : Nat) : String :=
  match Shell.signals.find? fun s => s.2 == n with
  | some (name, _) => " (SIG" ++ name ++ ")"
  | none => ""

/-- The text of a status. -/
def message : ExitStatus → String
  | code n => "exit status: " ++ toString n
  | signal n => "signal: " ++ toString n ++ signalName n

end ExitStatus

/-- A process that has been started. -/
structure ParserProcess where
  /-- What it writes to its standard output. -/
  output : List UInt8
  /-- What it writes to its standard error. -/
  errors : List UInt8
  /-- How many milliseconds it takes. -/
  duration : Nat
  /-- How it ends, unless it is still running at the deadline. -/
  status : Option ExitStatus
  deriving Inhabited

namespace ParserProcess

/-- The word of a text that is taken as it is. -/
def quotedWord (text : String) : Shell.Word :=
  if text = "" then [.emptyQuotes] else text.toList.map fun c => .char c true

/-- The process of a program that can be started. -/
def ofProgram (files : FileSystem) (deadline : Nat) (program : String) (arguments : List String) :
    ParserProcess :=
  let setting : Shell.Setting :=
    { files, scriptName := program, deadline, output := .output, errors := .errors, input := [],
      isBackground := false }
  let command := .simple [] (("exec" :: program :: arguments).map quotedWord) []
  let (flow, state) := Shell.run Shell.runFuel setting command default
  { output := state.output.reverse
    errors := state.errors.reverse
    duration := state.time + 1
    status := match flow with
      | .next => some (.code state.status)
      | .exit n => some (.code n)
      | .killed n => some (.signal n)
      | .running | .writing => none }

/-- The process of a program and its arguments, or why the program does not start.  A program whose
name has no slash is looked for among the usual ones. -/
def start (files : FileSystem) (deadline : Nat) (program : String) (arguments : List String) :
    Except String ParserProcess :=
  if (program :: arguments).any fun w => w.toList.contains '\x00' then
    .error "nul byte found in provided data"
  else if Shell.startable.contains (Shell.baseProgram program) then
    .ok (ofProgram files deadline program arguments)
  else if program.toList.contains '/' then
    match files.entry program with
    | .ok _ => .error FileError.permissionDenied.message
    | .error e => .error e.message
  else .error FileError.notFound.message

end ParserProcess

end CoverageEstimate

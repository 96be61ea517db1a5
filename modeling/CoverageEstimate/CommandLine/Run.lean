/-
# Running the program

The program reads its request from the command line and carries it out.
-/
import CoverageEstimate.CommandLine.Analyze
import CoverageEstimate.CommandLine.Help
import CoverageEstimate.CommandLine.Init

namespace CoverageEstimate.CommandLine

/-- The outcome of a request. -/
def Request.run : Request → Surroundings → Outcome
  | analyze r, s => r.run s
  | init path, s => Init.run path s

/-- The outcome when there is no request. -/
def Fault.run (f : Fault) (s : Surroundings) : Outcome :=
  if f.isAskedFor then ⟨.success, f.message, "", [], s.files⟩
  else ⟨.error, "", f.message, [], s.files⟩

/-- The outcome of a command line.  `parser` is the external parser that the environment names. -/
def run (parser : Option String) (words : List String) (s : Surroundings) : Outcome :=
  match Request.ofWords parser words with
  | .ok request => request.run s
  | .error fault => fault.run s

end CoverageEstimate.CommandLine

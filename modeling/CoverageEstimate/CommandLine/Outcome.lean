/-
# Outcomes

What a command does shows in what it prints, in its exit status and in the file system it leaves.
-/
import CoverageEstimate.FileSystem.Basic

namespace CoverageEstimate.CommandLine

/-- What surrounds a command. -/
structure Surroundings where
  files : FileSystem
  /-- The path of the configuration of the user, if users have one. -/
  userConfig : Option String
  /-- Whether styles show in what is printed. -/
  showsStyles : Bool

/-- How a command ends. -/
inductive Status where
  /-- It has done what it was asked for. -/
  | success
  /-- The coverage that is asked for is not reached. -/
  | insufficient
  /-- It could not do what it was asked for. -/
  | error
  deriving DecidableEq, Repr, Inhabited

/-- The exit code of a status. -/
def Status.code : Status → Nat
  | success => 0
  | insufficient => 1
  | error => 2

/-- What a command does. -/
structure Outcome where
  status : Status
  /-- What it prints. -/
  output : String
  /-- What it prints about errors. -/
  errors : String
  /-- The warnings it logs. -/
  warnings : List String
  /-- The file system it leaves. -/
  files : FileSystem
  deriving Inhabited

/-- The outcome of a command that fails for a reason. -/
def Outcome.failure (files : FileSystem) (reason : String) : Outcome :=
  ⟨.error, "", "Error: " ++ reason ++ "\n", [], files⟩

end CoverageEstimate.CommandLine

/-
# Configurations

A configuration says what a scan leaves out, which external parser reads Dart files, how many files
are worked on at a time and which coverage is asked for.  Everything in it may be left out.
-/
import CoverageEstimate.ExternalParser.Run
import CoverageEstimate.Glob.Parser

namespace CoverageEstimate

/-- The part of a configuration about Dart files. -/
structure DartConfig where
  /-- The program of the external parser. -/
  parser : Option String
  /-- Its arguments before the path of a file. -/
  arguments : List String
  /-- How many seconds it may take for one file. -/
  timeoutSeconds : Option Nat
  deriving DecidableEq, Repr, Inhabited

/-- A configuration. -/
structure Config where
  /-- The globs of what a scan leaves out. -/
  excludedPaths : List String
  dart : DartConfig
  /-- How many files are worked on at a time.  The result does not depend on it. -/
  jobs : Option Nat
  /-- The least overall coverage that is asked for, in percent. -/
  minimumCoverage : Option Float
  deriving Inhabited

/-- Why a configuration cannot be used. -/
inductive ConfigFault where
  /-- A pattern is no glob. -/
  | badPattern (pattern : String) (fault : GlobFault)
  /-- The external parser is given no time. -/
  | noTime
  /-- No file may be worked on. -/
  | noJobs
  /-- The coverage that is asked for is no percentage. -/
  | badMinimum (minimum : Float)

/-- The message for a configuration that cannot be used. -/
def ConfigFault.message : ConfigFault → String
  | badPattern pattern fault =>
    "invalid excluded_paths pattern " ++ Text.quoted pattern ++ ": " ++ fault.message pattern
  | noTime => "dart.timeout_secs must be greater than zero"
  | noJobs => "jobs must be greater than zero"
  | badMinimum minimum =>
    "min_coverage must be between 0 and 100, got " ++ Decimal.plainText minimum

namespace Config

/-- The configuration in which everything is left out. -/
def empty : Config := ⟨[], ⟨none, [], none⟩, none, none⟩

/-- Whether a coverage that is asked for is a percentage. -/
def isPercentage (x : Float) : Bool := 0 ≤ x && x ≤ 100

/-- Checks that patterns are globs: the first one that is none counts. -/
def checkPatterns : List String → Except ConfigFault Unit
  | [] => .ok ()
  | pattern :: rest =>
    match Glob.ofText pattern with
    | .error fault => .error (.badPattern pattern fault)
    | .ok _ => checkPatterns rest

/-- Checks the parts of a configuration one after the other: the first fault counts. -/
def validate (c : Config) : Except ConfigFault Unit :=
  match checkPatterns c.excludedPaths with
  | .error fault => .error fault
  | .ok () =>
    if c.dart.timeoutSeconds = some 0 then .error .noTime
    else if c.jobs = some 0 then .error .noJobs
    else
      match c.minimumCoverage with
      | some minimum => if isPercentage minimum then .ok () else .error (.badMinimum minimum)
      | none => .ok ()

/-- What a scan leaves out. -/
def exclusions (c : Config) : Except Exclusions.Fault Exclusions :=
  Exclusions.ofPatterns c.excludedPaths

/-- How long the external parser may take for one file, in milliseconds. -/
def parserLimit (c : Config) : Nat :=
  match c.dart.timeoutSeconds with
  | some seconds => seconds * 1000
  | none => ExternalParser.defaultLimit

/-- The external parser, if there is one. -/
def externalParser? (c : Config) : Option ExternalParser :=
  c.dart.parser.map fun program => ⟨program, c.dart.arguments, c.parserLimit⟩

end Config

end CoverageEstimate

/-
# Analyzing a project on request

The configuration of the project is found, what the command line says replaces what it says, and
the project is scanned and reported on.  The outcome is a success if the coverage that is asked for
is reached.
-/
import CoverageEstimate.Analyzers
import CoverageEstimate.CommandLine.Outcome
import CoverageEstimate.CommandLine.Request
import CoverageEstimate.Config.Reader
import CoverageEstimate.Pairing.Project
import CoverageEstimate.Report.Pretty
import CoverageEstimate.Scan

namespace CoverageEstimate.CommandLine

/-- How a report is written. -/
inductive Format where
  /-- For a reader. -/
  | pretty
  /-- As a JSON document. -/
  | json
  deriving DecidableEq, Repr, Inhabited

/-- The format of a word. -/
def Format.ofWord? (word : String) : Option Format :=
  if word = "pretty" then some .pretty
  else if word = "json" then some .json
  else none

/-- Why a request is refused before anything is analyzed. -/
inductive AnalyzeFault where
  /-- There is no such format. -/
  | unknownFormat (word : String)
  /-- The path leads nowhere. -/
  | inaccessible (path : String) (error : FileError)
  /-- The path leads to something that is no directory. -/
  | notDirectory (path : String)
  /-- There is no configuration where one is expected. -/
  | noConfig (fault : Config.LoadFault)
  /-- The configuration cannot be used. -/
  | badConfig (fault : ConfigFault)

/-- The message for a request that is refused. -/
def AnalyzeFault.message : AnalyzeFault → String
  | unknownFormat word => "invalid format " ++ Text.quoted word ++ ", must be 'pretty' or 'json'"
  | inaccessible path error => "cannot access path " ++ Text.quoted path ++ ": " ++ error.message
  | notDirectory path => path ++ " is not a directory"
  | noConfig fault => fault.message
  | badConfig fault => "invalid config: " ++ fault.message

/-- Why an analysis fails for which everything has been found in order. -/
inductive AnalyzeFailure where
  /-- A pattern of the configuration is no glob. -/
  | badPattern (fault : Exclusions.Fault)
  /-- The project cannot be scanned. -/
  | noScan (fault : Scan.Fault)

/-- The message for an analysis that fails. -/
def AnalyzeFailure.message : AnalyzeFailure → String
  | badPattern fault => fault.message
  | noScan fault => fault.message

/-- What an analysis works with. -/
structure AnalyzePlan where
  /-- The absolute path of the project. -/
  root : String
  /-- The configuration that holds. -/
  config : Config
  /-- The path of its file, if it has one. -/
  configPath : Option String
  deriving Inhabited

namespace AnalyzeRequest

/-- The configuration in which what the command line says counts first. -/
def override (r : AnalyzeRequest) (c : Config) : Config :=
  { c with
    dart :=
      { c.dart with
        parser := r.dartParser.or c.dart.parser
        timeoutSeconds := r.parserTimeout.or c.dart.timeoutSeconds }
    jobs := r.jobs.or c.jobs
    minimumCoverage := r.minimumCoverage.or c.minimumCoverage }

/-- The absolute path of the project. -/
def projectRoot (files : FileSystem) (r : AnalyzeRequest) : Except AnalyzeFault String :=
  match files.realPlace r.path with
  | .error e => .error (.inaccessible r.path e)
  | .ok place =>
    let root := FileSystem.pathOf place
    if files.isDirectory root then .ok root else .error (.notDirectory r.path)

/-- The project that a configuration describes. -/
def project (files : FileSystem) (root : String) (c : Config) : Project where
  root
  readText := files.readText
  analyzers := Analyzer.all files false c.externalParser?
  isCancelled := false

/-- The plan of the analysis that is asked for.  `user` is the path of the configuration of the user.
The configuration is checked with what the command line says in it. -/
def plan (files : FileSystem) (user : Option String) (r : AnalyzeRequest) :
    Except AnalyzeFault AnalyzePlan :=
  match r.projectRoot files with
  | .error fault => .error fault
  | .ok root =>
    match Config.load files user r.config root with
    | .error fault => .error (.noConfig fault)
    | .ok (c, path) =>
      let effective := r.override c
      match effective.validate with
      | .error fault => .error (.badConfig fault)
      | .ok () => .ok ⟨root, effective, path⟩

/-- The report that a plan leads to. -/
def report (files : FileSystem) (p : AnalyzePlan) : Except AnalyzeFailure (Warned Report) :=
  match p.config.exclusions with
  | .error fault => .error (.badPattern fault)
  | .ok exclusions =>
    match (project files p.root p.config).run files exclusions with
    | .error fault => .error (.noScan fault)
    | .ok report => .ok report

/-- What a report for a reader is about. -/
def heading (r : AnalyzeRequest) (p : AnalyzePlan) : ReportHeading where
  path := r.path
  configPath := p.configPath
  isVerbose := r.isVerbose
  minimum := p.config.minimumCoverage

/-- What is printed about a project that has been analyzed. -/
def output (r : AnalyzeRequest) (showsStyles : Bool) (p : AnalyzePlan) (report : Report) :
    Format → String
  | .json => report.toJson ++ "\n"
  | .pretty => report.pretty (r.heading p) showsStyles

/-- The outcome of the request, unless the analysis fails. -/
def attempt (r : AnalyzeRequest) (s : Surroundings) : Except AnalyzeFailure Outcome :=
  match Format.ofWord? r.format with
  | none => .ok (.failure s.files (AnalyzeFault.unknownFormat r.format).message)
  | some format =>
    match r.plan s.files s.userConfig with
    | .error fault => .ok (.failure s.files fault.message)
    | .ok p =>
      match report s.files p with
      | .error failure => .error failure
      | .ok warned =>
        .ok
          { status :=
              if warned.result.meets p.config.minimumCoverage then .success else .insufficient
            output := r.output s.showsStyles p warned.result format
            errors := ""
            warnings := warned.warnings
            files := s.files }

/-- The outcome of the request. -/
def run (r : AnalyzeRequest) (s : Surroundings) : Outcome :=
  match r.attempt s with
  | .ok outcome => outcome
  | .error failure => .failure s.files failure.message

end AnalyzeRequest

end CoverageEstimate.CommandLine

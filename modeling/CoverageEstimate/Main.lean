/-
# The program

The program takes the part of the file system that its request is about, runs the request on it,
and carries out what comes of it.
-/
import CoverageEstimate.CommandLine.Run
import CoverageEstimate.FileSystem.Difference

namespace CoverageEstimate.CommandLine.Main

/-- An entry of a directory on the disk, with all that is below it.  What no scan enters is left
empty, and so is what cannot be read. -/
partial def readEntry (e : IO.FS.DirEntry) : IO Entry := do
  let name := e.fileName
  try
    match (← e.path.symlinkMetadata).type with
    | .dir =>
      if Scan.isClosedDirectory name then return .directory name []
      else return .directory name (← (← e.path.readDir).toList.mapM readEntry)
    | .symlink => return .link name (toString (← IO.FS.realPath e.path))
    | _ => return .file name (← IO.FS.readBinFile e.path).toList
  catch _ => return .link name ""

/-- A file system that has what the disk has in the directory at an absolute path. -/
def addDirectory (files : FileSystem) (path : String) : IO FileSystem := do
  try
    let real ← IO.FS.realPath path
    let entries ← (← real.readDir).toList.mapM readEntry
    let made := (files.makeDirectories (toString real)).1
    match made.realPlace (toString real) with
    | .ok place =>
      return { made with
        entries := (Entry.changeAt (fun _ => entries) place made.root).entries }
    | .error _ => return made
  catch _ => return files

/-- A file system that has the file at a path, if the disk has it. -/
def addFile (files : FileSystem) (path : String) : IO FileSystem := do
  try
    let content ← IO.FS.readBinFile path
    let around := (Path.parent? path).getD "."
    let made := (files.makeDirectories (if around = "" then "." else around)).1
    match made.write path content.toList with
    | .ok written => return written
    | .error _ => return made
  catch _ => return files

/-- The paths of the directories and of the files that a request is about. -/
def concerns : Request → List String × List String
  | .analyze r => ([".", r.path], r.config.toList)
  | .init output => ([".", (Init.directoryAround? output).getD "."], [output])

/-- The path of the configuration of the user. -/
def userConfig : IO (Option String) := do
  let base ← match ← IO.getEnv "XDG_CONFIG_HOME" with
    | some path => if Path.isAbsolute path then pure (some path) else pure none
    | none => pure none
  let home ← IO.getEnv "HOME"
  return (base.or (home.map (Path.join · ".config"))).map (Path.join · "sentinel/config.yaml")

/-- What surrounds a request. -/
def surroundings (request : Request) : IO Surroundings := do
  let here := toString (← IO.currentDir)
  let user ← userConfig
  let (directories, single) := concerns request
  let mut files : FileSystem := ((⟨[], here⟩ : FileSystem).makeDirectories here).1
  for d in directories do
    files ← addDirectory files (Path.join here d)
  for f in single ++ user.toList do
    files ← addFile files f
  let isPlain := (← IO.getEnv "NO_COLOR").isSome
  let isTerminal ← (← IO.getStdout).isTty
  return ⟨files, user, isTerminal && !isPlain⟩

/-- Makes on the disk what a request has made. -/
def carryOut : List Addition → IO Unit
  | [] => pure ()
  | .directory path :: rest => do
    IO.FS.createDirAll path
    carryOut rest
  | .file path content :: rest => do
    IO.FS.writeBinFile path ⟨content.toArray⟩
    carryOut rest

/-- Prints the outcome of a run and returns its exit code. -/
def finish (o : Outcome) : IO UInt32 := do
  for warning in o.warnings do
    IO.eprintln (" WARN " ++ warning)
  IO.print o.output
  IO.eprint o.errors
  return UInt32.ofNat o.status.code

/-- Runs the program on the words of a command line. -/
def runWords (words : List String) : IO UInt32 := do
  let parser ← IO.getEnv "SENTINEL_DART_PARSER"
  match Request.ofWords parser words with
  | .error fault => finish (fault.run ⟨default, none, false⟩)
  | .ok request =>
    let around ← surroundings request
    let outcome := request.run around
    carryOut (around.files.additions outcome.files)
    finish outcome

end CoverageEstimate.CommandLine.Main

/-- Runs the program. -/
def main (words : List String) : IO UInt32 := CoverageEstimate.CommandLine.Main.runWords words

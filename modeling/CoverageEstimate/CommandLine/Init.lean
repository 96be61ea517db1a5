/-
# Making a configuration

A new configuration holds the template.  Nothing that is there is replaced, and directories on the
way to the new file are made where they are missing.
-/
import CoverageEstimate.CommandLine.Outcome
import CoverageEstimate.Config.Template
import CoverageEstimate.FileSystem.Change

namespace CoverageEstimate.CommandLine

/-- Why no configuration is made. -/
inductive InitFault where
  /-- Something is there. -/
  | taken (path : String)
  /-- The directory for the file cannot be made. -/
  | noDirectory (error : FileError)
  /-- The file cannot be written. -/
  | unwritable (error : FileError)
  deriving DecidableEq, Repr, Inhabited

/-- The message when no configuration is made. -/
def InitFault.message : InitFault → String
  | taken path =>
    "file already exists: " ++ path ++
      "\nRemove it or use --output to specify a different path"
  | noDirectory error => "failed to create directory: " ++ error.message
  | unwritable error => "failed to write config: " ++ error.message

namespace Init

/-- The directory around the file at a path, if it has to be named. -/
def directoryAround? (path : String) : Option String :=
  (Path.parent? path).filter fun d => d != "" && d != "."

/-- The file system after the directories on the way to a file are made, with the reason if one of
them cannot be. -/
def prepare (files : FileSystem) (path : String) : FileSystem × Option FileError :=
  match directoryAround? path with
  | some d => files.makeDirectories d
  | none => (files, none)

/-- The file system after the attempt to make a configuration at a path, with the reason if it
fails. -/
def create (files : FileSystem) (path : String) : FileSystem × Option InitFault :=
  if files.exists? path then (files, some (.taken path))
  else
    match prepare files path with
    | (prepared, some e) => (prepared, some (.noDirectory e))
    | (prepared, none) =>
      match prepared.write path (Text.bytesOf Config.template) with
      | .ok written => (written, none)
      | .error e => (prepared, some (.unwritable e))

/-- What is printed about a configuration that has been made. -/
def successText (path : String) : String :=
  "Created " ++ path ++ "\n\nNext steps:\n  1. Edit " ++ path ++
    " to customize for your project\n  2. Run: sentinel analyze . --config " ++ path ++ "\n"

/-- The outcome of making a configuration at a path. -/
def run (path : String) (s : Surroundings) : Outcome :=
  match create s.files path with
  | (files, none) => ⟨.success, successText path, "", [], files⟩
  | (files, some fault) => .failure files fault.message

/-- Nothing changes where something is there. -/
theorem create_of_exists {files : FileSystem} {path : String}
    (h : files.exists? path = true) : Init.create files path = (files, some (.taken path)) := by
  simp [Init.create, h]

end Init

end CoverageEstimate.CommandLine

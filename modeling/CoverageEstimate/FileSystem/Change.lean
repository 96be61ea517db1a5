/-
# Changes to a file system

A file is written where its path leads: over the file that is there, or as a new file in a
directory that exists.  A directory is made where nothing is, on request with the directories
around it, which stay when the attempt fails further down.
-/
import CoverageEstimate.FileSystem.Basic

namespace CoverageEstimate.FileSystem

/-- The file system with an entry put into the directory at a place. -/
def putAt (fs : FileSystem) (directory : List String) (new : Entry) : FileSystem :=
  { fs with entries := (Entry.changeAt (Entry.put new) directory fs.root).entries }

/-- The file system with a file written to a path. -/
def write (fs : FileSystem) (path : String) (content : List UInt8) :
    Except FileError FileSystem :=
  match fs.locate path with
  | .ok (.free directory name) => .ok (fs.putAt directory (.file name content))
  | .ok (.slashed _) => .error .isDirectory
  | .ok (.found place) =>
    match fs.root.at? place with
    | some (.file name _) => .ok (fs.putAt place.dropLast (.file name content))
    | _ => .error .isDirectory
  | .error e => .error e

/-- The steps of a path, without the slash at its end. -/
def stepsOfDirectory (path : String) : List Step := (steps path).filter (· != .slash)

/-- The file system with an empty directory made at a path.  A link that leads nowhere counts for
something that is there. -/
def makeDirectory (fs : FileSystem) (path : String) : Except FileError FileSystem :=
  if path = "" then .error .notFound
  else if path.toList.contains '\x00' then .error .endInside
  else if pathLimit < path.utf8ByteSize then .error .nameTooLong
  else
    let way := stepsOfDirectory (Path.join fs.workingDirectory path)
    match fs.walk linkLimit [] way.dropLast with
    | .error e => .error e
    | .ok (.found place) =>
      match fs.root.at? place with
      | some (.directory _ es) =>
        match way.getLast? with
        | some (.into name) =>
          if nameLimit < name.utf8ByteSize then .error .nameTooLong
          else if (Entry.named? name es).isSome then .error .alreadyExists
          else .ok (fs.putAt place (.directory name []))
        | _ => .error .alreadyExists
      | _ => .error .notDirectory
    | .ok _ => .error .notFound

/-- The file system after the attempt to make a directory at a path and the directories around it
that are missing, with the reason if it fails.  Directories made before the failure stay.  `depth`
bounds how many directories are made. -/
def makeDirectoriesIn (fs : FileSystem) :
    (depth : Nat) → String → FileSystem × Option FileError
  | 0, _ => (fs, some .notFound)
  | depth + 1, path =>
    if path = "" then (fs, none)
    else
      match fs.makeDirectory path with
      | .ok made => (made, none)
      | .error .notFound =>
        match Path.parent? path with
        | none => (fs, some .notFound)
        | some around =>
          match makeDirectoriesIn fs depth around with
          | (made, some e) => (made, some e)
          | (made, none) =>
            match made.makeDirectory path with
            | .ok result => (result, none)
            | .error e => if made.isDirectory path then (made, none) else (made, some e)
      | .error e => if fs.isDirectory path then (fs, none) else (fs, some e)

/-- The file system after the attempt to make a directory at a path and the directories around it
that are missing, with the reason if it fails. -/
def makeDirectories (fs : FileSystem) (path : String) : FileSystem × Option FileError :=
  fs.makeDirectoriesIn ((Path.components path).length + 1) path

end CoverageEstimate.FileSystem

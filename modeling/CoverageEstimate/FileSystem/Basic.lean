/-
# File systems

A file system is a tree of entries together with the directory that relative paths start from.  A
path is followed name by name; a link on the way is replaced by the path it leads to, for at most
`linkLimit` links in all.  Where the way ends, it has found something, or it has found that the
last name is free in a directory that exists.
-/
import CoverageEstimate.FileSystem.Entry
import CoverageEstimate.FileSystem.FileError
import CoverageEstimate.Path
import CoverageEstimate.Text.Bytes

namespace CoverageEstimate

/-- A tree of entries with a working directory. -/
structure FileSystem where
  /-- What the root directory holds. -/
  entries : List Entry
  /-- The absolute path that relative paths start from. -/
  workingDirectory : String
  deriving Inhabited

namespace FileSystem

/-- The root directory. -/
def root (fs : FileSystem) : Entry := .directory "" fs.entries

/-- One step on the way along a path. -/
inductive Step where
  /-- To the entry of a name. -/
  | into (name : String)
  /-- To the directory around. -/
  | up
  /-- Nowhere, which only a directory allows. -/
  | stay
  /-- The slash at the end of a path, which stands for a directory. -/
  | slash
  deriving DecidableEq, Repr, Inhabited

/-- The step for a text between slashes, if it is one. -/
def step? (segment : String) : Option Step :=
  if segment = "" then none
  else if segment = "." then some .stay
  else if segment = ".." then some .up
  else some (.into segment)

/-- The steps of a path. -/
def steps (path : String) : List Step :=
  (Path.segments path).filterMap step? ++
    (if path.toList.getLast? == some '/' then [.slash] else [])

/-- Where the way along a path ends. -/
inductive Place where
  /-- Something is there. -/
  | found (place : List String)
  /-- The directory is there but does not have the name. -/
  | free (directory : List String) (name : String)
  /-- The path ends in a slash but leads to no directory: to something else if `taken`, and
  otherwise to nothing. -/
  | slashed (taken : Bool)
  deriving DecidableEq, Repr, Inhabited

/-- The number of links that a path may lead through. -/
def linkLimit : Nat := 40

/-- The number of bytes that a name may have. -/
def nameLimit : Nat := 255

/-- The number of bytes that a path may have. -/
def pathLimit : Nat := 4095

/-- Where some steps lead from a place, through at most `links` links. -/
def walk (fs : FileSystem) : Nat → List String → List Step → Except FileError Place
  | _, here, [] => .ok (.found here)
  | links, here, step :: rest =>
    match fs.root.at? here with
    | some (.directory _ es) =>
      match step with
      | .stay => walk fs links here rest
      | .slash => walk fs links here rest
      | .up => walk fs links here.dropLast rest
      | .into n =>
        if nameLimit < n.utf8ByteSize then .error .nameTooLong
        else
          match Entry.named? n es with
          | some (.link _ target) =>
            match links with
            | 0 => .error .tooManyLinks
            | left + 1 =>
              if target = "" then .error .notFound
              else
                walk fs left (if Path.isAbsolute target then [] else here) (steps target ++ rest)
          | some _ => walk fs links (here ++ [n]) rest
          | none =>
            match rest with
            | [] => .ok (.free here n)
            | [.slash] => .ok (.slashed false)
            | _ => .error .notFound
    | some _ => if step = .slash ∧ rest = [] then .ok (.slashed true) else .error .notDirectory
    | none => .error .notFound
termination_by links _ todo => (links, todo.length)

/-- Where a path leads. -/
def locate (fs : FileSystem) (path : String) : Except FileError Place :=
  if path = "" then .error .notFound
  else if path.toList.contains '\x00' then .error .endInside
  else if pathLimit < path.utf8ByteSize then .error .nameTooLong
  else fs.walk linkLimit [] (steps (Path.join fs.workingDirectory path))

/-- The place of what a path leads to, without links. -/
def realPlace (fs : FileSystem) (path : String) : Except FileError (List String) :=
  match fs.locate path with
  | .ok (.found place) => .ok place
  | .ok (.free _ _) => .error .notFound
  | .ok (.slashed true) => .error .notDirectory
  | .ok (.slashed false) => .error .notFound
  | .error e => .error e

/-- The absolute path of a place. -/
def pathOf (place : List String) : String := "/" ++ "/".intercalate place

/-- What a path leads to. -/
def entry (fs : FileSystem) (path : String) : Except FileError Entry :=
  match fs.realPlace path with
  | .ok place =>
    match fs.root.at? place with
    | some e => .ok e
    | none => .error .notFound
  | .error e => .error e

/-- Whether a path leads to something. -/
def exists? (fs : FileSystem) (path : String) : Bool := (fs.entry path).isOk

/-- Whether a path leads to a directory. -/
def isDirectory (fs : FileSystem) (path : String) : Bool :=
  match fs.entry path with
  | .ok e => e.isDirectory
  | .error _ => false

/-- Whether a path leads to a regular file. -/
def isFile (fs : FileSystem) (path : String) : Bool :=
  match fs.entry path with
  | .ok e => e.isFile
  | .error _ => false

/-- The bytes of the file that a path leads to. -/
def readBytes (fs : FileSystem) (path : String) : Except FileError (List UInt8) :=
  match fs.entry path with
  | .ok (.file _ content) => .ok content
  | .ok (.directory _ _) => .error .isDirectory
  | .ok (.link _ _) => .error .tooManyLinks
  | .error e => .error e

/-- The text of the file that a path leads to. -/
def readText (fs : FileSystem) (path : String) : Except FileError String :=
  match fs.readBytes path with
  | .ok content =>
    match Text.ofBytes? content with
    | some text => .ok text
    | none => .error .notText
  | .error e => .error e

end FileSystem

end CoverageEstimate

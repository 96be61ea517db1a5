/-
# What a file system has more than another

A command that makes files and directories is known by what the file system has afterwards and
lacked before.
-/
import CoverageEstimate.FileSystem.Basic

namespace CoverageEstimate

/-- Something that is there afterwards and was not there before. -/
inductive Addition where
  /-- A directory. -/
  | directory (path : String)
  /-- A file, or what it holds now. -/
  | file (path : String) (content : List UInt8)
  deriving DecidableEq, Repr, Inhabited

namespace Entry

mutual

/-- What an entry of a directory, and what is below it, adds to the entries that were in the
directory.  `around` is the path of the directory, with a slash at its end. -/
def additionsOf (before : List Entry) (around : String) : Entry → List Addition
  | file n content =>
    match named? n before with
    | some (file _ old) => if old = content then [] else [.file (around ++ n) content]
    | _ => [.file (around ++ n) content]
  | link _ _ => []
  | directory n es =>
    match named? n before with
    | some (directory _ old) => additionsOfAll old (around ++ n ++ "/") es
    | _ => .directory (around ++ n) :: additionsOfAll [] (around ++ n ++ "/") es

/-- What some entries of a directory add to the entries that were in it. -/
def additionsOfAll (before : List Entry) (around : String) : List Entry → List Addition
  | [] => []
  | e :: rest => additionsOf before around e ++ additionsOfAll before around rest

end

end Entry

/-- What a file system has more than the one before, directories before what they hold. -/
def FileSystem.additions (before after : FileSystem) : List Addition :=
  Entry.additionsOfAll before.entries "/" after.entries

end CoverageEstimate

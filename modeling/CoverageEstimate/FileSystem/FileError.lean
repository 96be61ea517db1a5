/-
# Failures of file access

The reasons for which a path cannot be followed, read or written, each with the text that messages
give for it.
-/
namespace CoverageEstimate

/-- Why access to a path fails. -/
inductive FileError where
  /-- Nothing is there. -/
  | notFound
  /-- There is something already. -/
  | alreadyExists
  /-- The path leads through something that is no directory. -/
  | notDirectory
  /-- A directory stands where a file is asked for. -/
  | isDirectory
  /-- The file may not be used in this way. -/
  | permissionDenied
  /-- A name or the whole path is too long. -/
  | nameTooLong
  /-- The path leads through too many links. -/
  | tooManyLinks
  /-- The path contains the character that ends paths. -/
  | endInside
  /-- The bytes of the file are no text. -/
  | notText
  deriving DecidableEq, Repr, Inhabited

namespace FileError

/-- The text of a system failure with its number. -/
def numbered (text : String) (number : Nat) : String :=
  text ++ " (os error " ++ toString number ++ ")"

/-- The text that messages give for a failure. -/
def message : FileError → String
  | notFound => numbered "No such file or directory" 2
  | permissionDenied => numbered "Permission denied" 13
  | alreadyExists => numbered "File exists" 17
  | notDirectory => numbered "Not a directory" 20
  | isDirectory => numbered "Is a directory" 21
  | nameTooLong => numbered "File name too long" 36
  | tooManyLinks => numbered "Too many levels of symbolic links" 40
  | endInside => "file name contained an unexpected NUL byte"
  | notText => "stream did not contain valid UTF-8"

end FileError

end CoverageEstimate

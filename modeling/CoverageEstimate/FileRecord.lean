/-
# Files of a project

The files that a scan finds, each known by its path below the scanned directory.
-/
import CoverageEstimate.Language

namespace CoverageEstimate

/-- A file that a scan has found. -/
structure FileRecord where
  /-- The path below the scanned directory, with slashes between its names. -/
  relativePath : String
  /-- The size of the file. -/
  sizeBytes : Nat
  /-- The extension, with its dot. -/
  extension : String
  deriving DecidableEq, Repr, Inhabited

namespace FileRecord

/-- The names of the path. -/
def names (r : FileRecord) : List String := Path.segments r.relativePath

/-- The last name of the path. -/
def fileName (r : FileRecord) : String := r.names.getLastD ""

/-- The names of the directories around the file, the outermost one first. -/
def parentDirs (r : FileRecord) : List String := r.names.dropLast

/-- The language of the file. -/
def language? (r : FileRecord) : Option Language := Language.ofExtension? r.extension

end FileRecord

/-- The names of directories that hold nothing but tests, in lower case. -/
def testDirectories : List String := ["test", "tests", "__tests__"]

/-- Whether a path names a test: a directory on it holds only tests, or its file name is one of a
test of the language. -/
def isTestPath (path : String) (l : Language) : Bool :=
  let names := Path.segments path
  (names.dropLast.any fun dir => testDirectories.contains (String.ofList (Language.lowered dir))) ||
    l.isTestFileName (names.getLastD "")

/-- What a scan finds: source files and test files. -/
structure ScanResult where
  sourceFiles : List FileRecord
  testFiles : List FileRecord
  deriving DecidableEq, Repr, Inhabited

end CoverageEstimate

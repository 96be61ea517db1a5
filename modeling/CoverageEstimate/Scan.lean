/-
# Scanning a project

A scan finds the files of supported languages below a directory and splits them into sources and
tests.  It does not enter directories that hold dependencies, build output or the scaffold of a
platform, nor hidden ones, and it leaves out type declarations and everything that an exclusion
matches.  The directory that is scanned counts whatever its name is, and links below it are not
followed.
-/
import CoverageEstimate.FileRecord
import CoverageEstimate.FileSystem.Basic
import CoverageEstimate.Glob.Parser

namespace CoverageEstimate

namespace Scan

/-- The names of directories that no scan enters. -/
def closedDirectories : List String :=
  ["node_modules", "build", "dist", "ios", "android", "web", "linux", "macos", "windows"]

/-- Whether a directory of this name is not entered. -/
def isClosedDirectory (name : String) : Bool :=
  name.toList.head? == some '.' || closedDirectories.contains name

/-- Whether a file of this name holds nothing but the declarations of types. -/
def isTypeDeclaration (name : String) : Bool :=
  ".d.ts".toList.isSuffixOf (Language.lowered name)

/-- Whether an entry below the scanned directory is left out, with all it holds.  `path` is its
path below that directory. -/
def isLeftOut (exclusions : Exclusions) (path : String) (e : Entry) : Bool :=
  (if e.isDirectory then isClosedDirectory e.name else isTypeDeclaration e.name) ||
    exclusions.excludes path

/-- The path of an entry in a directory with the given path. -/
def pathIn (directory name : String) : String :=
  if directory = "" then name else directory ++ "/" ++ name

/-- The record of a file, if its name has the extension of a supported language. -/
def record? (path : String) (content : List UInt8) : Option FileRecord :=
  match Path.extension? path with
  | some extension =>
    if (Language.ofPath? path).isSome then some ⟨path, content.length, "." ++ extension⟩ else none
  | none => none

mutual

/-- The records of the files at or below an entry of a directory. -/
def recordsOf (exclusions : Exclusions) (directory : String) : Entry → List FileRecord
  | .file name content =>
    let path := pathIn directory name
    if isLeftOut exclusions path (.file name content) then [] else (record? path content).toList
  | .link _ _ => []
  | .directory name es =>
    let path := pathIn directory name
    if isLeftOut exclusions path (.directory name es) then [] else recordsOfAll exclusions path es

/-- The records of the files at or below the entries of a directory. -/
def recordsOfAll (exclusions : Exclusions) (directory : String) : List Entry → List FileRecord
  | [] => []
  | e :: rest => recordsOf exclusions directory e ++ recordsOfAll exclusions directory rest

end

/-- The records in the order of their paths. -/
def sorted (records : List FileRecord) : List FileRecord :=
  records.mergeSort fun a b => decide (a.relativePath ≤ b.relativePath)

/-- Whether a record names a test. -/
def isTest (r : FileRecord) : Bool :=
  match Language.ofPath? r.relativePath with
  | some language => isTestPath r.relativePath language
  | none => false

/-- The result of a scan that has found some records. -/
def resultOf (records : List FileRecord) : ScanResult where
  sourceFiles := sorted (records.filter fun r => !isTest r)
  testFiles := sorted (records.filter isTest)

/-- The result of scanning what a directory holds. -/
def entries (exclusions : Exclusions) (es : List Entry) : ScanResult :=
  resultOf (recordsOfAll exclusions "" es)

/-- Why a directory cannot be scanned. -/
inductive Fault where
  /-- The path leads nowhere. -/
  | inaccessible (path : String) (error : FileError)
  /-- The path leads to something that is no directory. -/
  | notDirectory (path : String)
  deriving DecidableEq, Repr, Inhabited

/-- The message for a directory that cannot be scanned. -/
def Fault.message : Fault → String
  | inaccessible path error => "cannot access " ++ path ++ ": " ++ error.message
  | notDirectory path => path ++ " is not a directory"

theorem mem_sorted {records : List FileRecord} {r : FileRecord} :
    r ∈ sorted records ↔ r ∈ records := by
  simp [sorted]

theorem mem_sourceFiles_resultOf {records : List FileRecord} {r : FileRecord} :
    r ∈ (resultOf records).sourceFiles ↔ r ∈ records ∧ isTest r = false := by
  simp [resultOf, mem_sorted]

theorem mem_testFiles_resultOf {records : List FileRecord} {r : FileRecord} :
    r ∈ (resultOf records).testFiles ↔ r ∈ records ∧ isTest r = true := by
  simp [resultOf, mem_sorted]

end Scan

/-- The result of scanning the directory at a path. -/
def FileSystem.scan (fs : FileSystem) (exclusions : Exclusions) (path : String) :
    Except Scan.Fault ScanResult :=
  match fs.entry path with
  | .error e => .error (.inaccessible path e)
  | .ok (.directory _ es) => .ok (Scan.entries exclusions es)
  | .ok _ => .error (.notDirectory path)

end CoverageEstimate

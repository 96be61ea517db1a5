/-
# Languages

The languages that are analyzed, and how their projects name source and test files.
-/
import CoverageEstimate.Path

namespace CoverageEstimate

/-- A language that is analyzed. -/
inductive Language where
  | dart
  | typeScript
  deriving DecidableEq, Repr, Inhabited

namespace Language

/-- All languages.  The first one that has an extension handles it. -/
def all : List Language := [dart, typeScript]

/-- The word for the language in documents. -/
def word : Language → String
  | dart => "dart"
  | typeScript => "typescript"

/-- The name of the language in reports. -/
def displayName : Language → String
  | dart => "Dart"
  | typeScript => "TypeScript"

/-- The extensions of the language's files, without dots. -/
def extensions : Language → List String
  | dart => ["dart"]
  | typeScript => ["ts", "tsx"]

/-- The text without a dot in front. -/
def withoutDot (extension : String) : String :=
  match extension.toList with
  | '.' :: rest => String.ofList rest
  | _ => extension

/-- The language of an extension, which may be given with its dot. -/
def ofExtension? (extension : String) : Option Language :=
  all.find? fun l => l.extensions.contains (withoutDot extension)

/-- The language of a file. -/
def ofPath? (path : String) : Option Language := (Path.extension? path).bind ofExtension?

/-- What the name of a test file ends in, in lower case. -/
def testSuffixes : Language → List String
  | dart => ["_test.dart"]
  | typeScript => [".spec.ts", ".test.ts", ".spec.tsx", ".test.tsx"]

/-- A name with its ASCII letters in lower case.  The patterns that names are compared with have
only ASCII letters, and none of them is the lower case of another character, so the other letters
of a name may stay as they are. -/
def lowered (name : String) : List Char := name.toList.map Char.toLower

/-- Whether a file name is one of a test, in any letter case. -/
def isTestFileName (l : Language) (name : String) : Bool :=
  l.testSuffixes.any fun suffix => suffix.toList.isSuffixOf (lowered name)

/-- The names of the tests that belong to the source file `stem.extension`. -/
def testFileNames (l : Language) (stem extension : String) : List String :=
  match l with
  | dart => [stem ++ "_test." ++ withoutDot extension]
  | typeScript =>
    [stem ++ ".spec." ++ withoutDot extension, stem ++ ".test." ++ withoutDot extension]

end Language

end CoverageEstimate

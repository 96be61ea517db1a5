/-
# Which test belongs to a source

A source file belongs to at most one test, which carries one of the names that the language expects
for it.  Among several tests of such a name, the one wins that shares the longest run of parent
directories with the source, counted from the file upwards, and of equal runs the first in the
order of the scan.  The tests are grouped by their names once, so that a source looks only at
tests of the names it expects.
-/
import CoverageEstimate.FileRecord

namespace CoverageEstimate

/-- A test with its position in the scan. -/
abbrev RankedTest := Nat × FileRecord

/-- Tests grouped by their names, each group in the order of the scan. -/
structure TestIndex where
  groups : List (String × List RankedTest)
  deriving DecidableEq, Repr, Inhabited

namespace TestIndex

/-- A test put at the end of the group of its name. -/
def addTo (name : String) (test : RankedTest) :
    List (String × List RankedTest) → List (String × List RankedTest)
  | [] => [(name, [test])]
  | (n, tests) :: rest =>
    if n = name then (n, tests ++ [test]) :: rest else (n, tests) :: addTo name test rest

/-- The groups with the tests of a list added, the first of which has the given position. -/
def addAll (groups : List (String × List RankedTest)) (position : Nat) :
    List FileRecord → List (String × List RankedTest)
  | [] => groups
  | test :: rest => addAll (addTo test.fileName (position, test) groups) (position + 1) rest

/-- The index of the tests of a scan. -/
def ofTests (tests : List FileRecord) : TestIndex := ⟨addAll [] 0 tests⟩

/-- The tests of a name. -/
def named (index : TestIndex) (name : String) : List RankedTest :=
  ((index.groups.find? fun g => g.1 = name).map (·.2)).getD []

/-- A test comes to the end of the group of its name, and of no other. -/
theorem named_addTo (name n : String) (test : RankedTest)
    (groups : List (String × List RankedTest)) :
    (TestIndex.mk (addTo name test groups)).named n =
      if n = name then (TestIndex.mk groups).named n ++ [test]
      else (TestIndex.mk groups).named n := by
  induction groups with
  | nil =>
    by_cases h : n = name
    · simp [addTo, named, h]
    · simp [addTo, named, h, Ne.symm h]
  | cons g rest ih =>
    unfold addTo
    split
    · rename_i hg
      by_cases h : n = name
      · simp [named, h, hg]
      · simp [named, h, hg, Ne.symm h]
    · rename_i hg
      by_cases hn : g.1 = n
      · have : n ≠ name := fun h => hg (hn.trans h)
        simp [named, hn, this]
      · simpa [named, hn] using ih

end TestIndex

/-- The length of the longest common run of two lists, counted from their ends. -/
def sharedTrailing (a b : List String) : Nat :=
  ((a.reverse.zip b.reverse).takeWhile fun p => p.1 == p.2).length

/-- Whether the test `b` is to be preferred to `a`: its run is longer, or it is as long and `b`
comes first. -/
def isBetterTest (dirs : List String) (a b : RankedTest) : Bool :=
  let runA := sharedTrailing dirs a.2.parentDirs
  let runB := sharedTrailing dirs b.2.parentDirs
  runA < runB || (runA == runB && b.1 < a.1)

/-- The best of some tests for a source in the given directories. -/
def bestTest? (dirs : List String) : List RankedTest → Option RankedTest
  | [] => none
  | test :: rest =>
    match bestTest? dirs rest with
    | none => some test
    | some other => if isBetterTest dirs test other then some other else some test

/-- The name of a source file without its extension, if it ends in that. -/
def stem? (source : FileRecord) : Option String :=
  let name := source.fileName.toList
  let extension := source.extension.toList
  if extension.isSuffixOf name then some (String.ofList (name.take (name.length - extension.length)))
  else none

/-- The names that tests of a source are expected to have. -/
def expectedTestNames (source : FileRecord) : List String :=
  match source.language?, stem? source with
  | some language, some stem => language.testFileNames stem source.extension
  | _, _ => []

/-- The test that belongs to a source, if there is one. -/
def TestIndex.find? (index : TestIndex) (source : FileRecord) : Option FileRecord :=
  let candidates := (expectedTestNames source).flatMap index.named
  (bestTest? source.parentDirs candidates).map (·.2)

end CoverageEstimate

/-
# Scores

A function is scored by the evidence for it in the test file of its source file: a call counts
most, a title that mentions it less, and its mere name in the text least, and that only when
there is nothing better.  A function is covered when its score is positive.
-/
import CoverageEstimate.Decimal.Binary
import CoverageEstimate.Definition
import CoverageEstimate.Signals

namespace CoverageEstimate

/-- The points for a call. -/
def callPoints : Int := 50

/-- The points for a mention in a title. -/
def mentionPoints : Int := 30

/-- The points for the name somewhere in the text. -/
def textPoints : Int := 10

/-- The evidence for one function, and its score. -/
structure Evidence where
  /-- A test calls the function. -/
  isCalled : Bool
  /-- A title mentions it. -/
  isMentioned : Bool
  /-- Its name occurs in the text of the test file. -/
  isTextMatch : Bool
  /-- The points that all this is worth. -/
  score : Int
  deriving DecidableEq, Repr, Inhabited

namespace Evidence

/-- No evidence at all. -/
def uncovered : Evidence := ⟨false, false, false, 0⟩

/-- The points for calls, mentions and occurrences. -/
def points (isCalled isMentioned isTextMatch : Bool) : Int :=
  (if isCalled then callPoints else 0) + (if isMentioned then mentionPoints else 0) +
    (if isTextMatch && !isCalled && !isMentioned then textPoints else 0)

/-- There are points for every kind of evidence. -/
theorem points_pos_iff {a b c : Bool} : 0 < points a b c ↔ a || b || c := by
  cases a <;> cases b <;> cases c <;> decide

end Evidence

/-- Whether the text holds the name. -/
def occursIn (name : List Char) : List Char → Bool
  | [] => name.isEmpty
  | c :: cs => name.isPrefixOf (c :: cs) || occursIn name cs

/-- A text holds a name when the name is a piece of it. -/
theorem occursIn_iff {name text : List Char} : occursIn name text = true ↔ name <:+: text := by
  induction text with
  | nil => simp [occursIn]
  | cons c cs ih =>
    rw [occursIn, Bool.or_eq_true, ih, List.infix_cons_iff, List.isPrefixOf_iff_prefix]

/-- The evidence for a function in a test file of the given signals and text. -/
def scoreFunction (name : String) (signals : Signals) (text : List Char) : Evidence :=
  let isCalled := signals.isCalled name
  let isMentioned := signals.isMentioned name
  let isTextMatch := name != "" && occursIn name.toList text
  ⟨isCalled, isMentioned, isTextMatch, Evidence.points isCalled isMentioned isTextMatch⟩

/-- The coverage of one function. -/
structure FunctionCoverage where
  functionName : String
  startLine : Nat
  endLine : Nat
  kind : FunctionKind
  className : Option String
  evidence : Evidence
  /-- Whether the score is positive. -/
  covered : Bool
  deriving DecidableEq, Repr, Inhabited

/-- The coverage of a definition with some evidence for it. -/
def FunctionCoverage.ofDefinition (d : FunctionDefinition) (e : Evidence) : FunctionCoverage where
  functionName := d.name
  startLine := d.startLine
  endLine := d.endLine
  kind := d.kind
  className := d.enclosingType
  evidence := e
  covered := 0 < e.score

/-- The coverage of one source file. -/
structure FileCoverage where
  /-- The path of the source file below the project. -/
  file : String
  /-- The path of its test file, if it has one. -/
  pairedTestFile : Option String
  functions : List FunctionCoverage
  coveragePercentage : Float
  /-- The name of its language in reports. -/
  language : String
  deriving Inhabited

/-- How many functions are covered. -/
def coveredCount (functions : List FunctionCoverage) : Nat := functions.countP (·.covered)

/-- The percentage of functions that are covered, with two decimal places; nothing is covered when
there are no functions. -/
def coveragePercentage (functions : List FunctionCoverage) : Float :=
  if functions.isEmpty then 0
  else
    Decimal.roundToHundredths
      (Float.ofNat (coveredCount functions) / Float.ofNat functions.length * 100)

/-- The mean of the percentages, with two decimal places; zero when there are none.  They are added
from left to right. -/
def meanPercentage (percentages : List Float) : Float :=
  if percentages.isEmpty then 0
  else
    Decimal.roundToHundredths (percentages.foldl (· + ·) (-0.0) / Float.ofNat percentages.length)

/-- The mean of the percentages of all files. -/
def overallCoverage (files : List FileCoverage) : Float :=
  meanPercentage (files.map (·.coveragePercentage))

end CoverageEstimate

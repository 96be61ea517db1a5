/-
# Signals of a TypeScript test file

A test file calls the functions whose names stand before the arguments of its calls, alone or
behind a dot.  Its titles are the strings that come first among the arguments of the functions that
declare tests.  Both are found by one query, whose patterns may match at the same call.
-/
import CoverageEstimate.Signals
import CoverageEstimate.TypeScript.Literal
import CoverageEstimate.TypeScript.Query

namespace CoverageEstimate.TypeScript

/-- The functions that declare a test or a group of tests. -/
def declaringNames : List String := ["describe", "it", "test"]

/-- What a node of a match is to its call. -/
inductive CallRole where
  /-- The variable that is called. -/
  | callee
  /-- The name of the member that is called. -/
  | memberCallee
  /-- The variable that is called with a title, which may declare a test. -/
  | declaration
  | title
  deriving DecidableEq, Repr, Inhabited

/-- The calls of variables, the calls of members, and the calls of variables whose first argument is
a string. -/
def callQuery : List (NodePattern CallRole) :=
  [.node (some .callExpression) none
      (.cons ⟨some .function, false⟩ (.node (some .identifier) (some .callee) .nil) .nil),
    .node (some .callExpression) none
      (.cons ⟨some .function, false⟩
        (.node (some .memberExpression) none
          (.cons ⟨some .property, false⟩ (.node none (some .memberCallee) .nil) .nil))
        .nil),
    .node (some .callExpression) none
      (.cons ⟨some .function, false⟩ (.node (some .identifier) (some .declaration) .nil)
        (.cons ⟨some .arguments, false⟩
          (.node (some .arguments) none
            (.cons ⟨none, true⟩ (.node (some .string) (some .title) .nil) .nil))
          .nil))]

/-- What the labels of a match have told so far. -/
structure CallReading where
  signals : Signals
  /-- The name of the variable that may declare a test. -/
  declaration : Option String
  /-- The value of the string that may be a title. -/
  title : Option String

namespace CallReading

/-- One more node of a match is read: a callee is a signal right away, the others are kept. -/
def read (source : Array Char) (r : CallReading) : CallRole × Node → CallReading
  | (.callee, n) | (.memberCallee, n) =>
    { r with signals := r.signals.addCall (String.ofList (n.text source)) }
  | (.declaration, n) => { r with declaration := some (String.ofList (n.text source)) }
  | (.title, n) => { r with title := some (String.ofList (stringValue source n)) }

/-- The signals after a match, with the title if the call declares a test. -/
def finish (r : CallReading) : Signals :=
  match r.declaration, r.title with
  | some name, some title =>
    if declaringNames.contains name then r.signals.addMention title else r.signals
  | _, _ => r.signals

end CallReading

/-- The signals with those of one more match. -/
def addMatch (source : Array Char) (s : Signals) (found : Captures CallRole) : Signals :=
  (found.foldl (CallReading.read source) ⟨s, none, none⟩).finish

/-- The signals of a test file with the given parse tree. -/
def signals (source : Array Char) (tree : Node) : Signals :=
  (capturesIn callQuery tree).foldl (addMatch source) ∅

end CoverageEstimate.TypeScript

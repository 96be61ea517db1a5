/-
# Function definitions

The facts an analysis extracts from a source file: which functions it defines, where they stand
and what kind they are.
-/
namespace CoverageEstimate

/-- What kind of callable a definition introduces. -/
inductive FunctionKind where
  | function
  | method
  | getter
  | setter
  deriving DecidableEq, Repr, Inhabited

namespace FunctionKind

/-- All kinds, in the order in which messages list them. -/
def all : List FunctionKind := [function, method, getter, setter]

/-- The word for the kind in documents and reports. -/
def word : FunctionKind → String
  | function => "function"
  | method => "method"
  | getter => "getter"
  | setter => "setter"

/-- The kind that a word names. -/
def ofWord? (w : String) : Option FunctionKind := all.find? (·.word == w)

theorem ofWord?_word (k : FunctionKind) : ofWord? k.word = some k := by
  cases k <;> decide

end FunctionKind

/-- A function or method extracted from one file.  Lines are counted from 1 and both ends of the
span belong to the definition. -/
structure FunctionDefinition where
  /-- The name the definition introduces. -/
  name : String
  /-- The line its first character is on. -/
  startLine : Nat
  /-- The line its last character is on. -/
  endLine : Nat
  /-- The header as it is written. -/
  signature : String
  /-- The kind of callable. -/
  kind : FunctionKind
  /-- The class that encloses it, if there is one. -/
  enclosingType : Option String
  deriving DecidableEq, Repr, Inhabited

namespace FunctionDefinition

/-- Whether the span names lines that can exist: `1 ≤ startLine ≤ endLine`. -/
def hasValidSpan (d : FunctionDefinition) : Bool :=
  decide (1 ≤ d.startLine) && decide (d.startLine ≤ d.endLine)

end FunctionDefinition

end CoverageEstimate

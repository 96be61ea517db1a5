/-
# Parse trees of TypeScript

A parse tree covers a source text with nodes.  A node knows what it is, where it starts and stops,
and which part it plays in the node around it.  Only the nodes that the analysis looks at have
kinds of their own; all others are of one kind.
-/
namespace CoverageEstimate.TypeScript

/-- What a node is. -/
inductive Kind where
  /-- A fixed word or mark of the language, such as `class` or `(`. -/
  | token (text : String)
  /-- A comment, which may stand between any two tokens. -/
  | comment
  | identifier
  /-- A name behind a dot, or of a member. -/
  | propertyIdentifier
  | functionDeclaration
  | generatorDeclaration
  | classDeclaration
  | abstractClassDeclaration
  /-- A method with its body, in a class or an object. -/
  | methodDefinition
  | variableDeclarator
  | arrowFunction
  | functionExpression
  | generatorFunction
  | callExpression
  | memberExpression
  /-- The parenthesized arguments of a call. -/
  | arguments
  /-- A string in single or double quotes. -/
  | string
  /-- A run of characters of a string that stand for themselves. -/
  | stringFragment
  /-- An escape in a string, with its backslash. -/
  | escapeSequence
  /-- Anything else. -/
  | other
  deriving DecidableEq, Repr, Inhabited

/-- Whether nodes of the kind are more than fixed words and marks. -/
def Kind.isNamed : Kind → Bool
  | token _ => false
  | _ => true

/-- The part that a node plays in the node around it. -/
inductive Field where
  | name
  | body
  | value
  | function
  | property
  | arguments
  deriving DecidableEq, Repr, Inhabited

/-- A node: its kind, its part, the offsets of its first character and of the one behind its last
character, and the nodes inside it from left to right. -/
inductive Node where
  | mk (kind : Kind) (field : Option Field) (start stop : Nat) (children : List Node)
  deriving Inhabited

namespace Node

/-- What the node is. -/
def kind : Node → Kind
  | mk k _ _ _ _ => k

/-- The part that the node plays. -/
def field : Node → Option Field
  | mk _ f _ _ _ => f

/-- The offset of the first character. -/
def start : Node → Nat
  | mk _ _ s _ _ => s

/-- The offset behind the last character. -/
def stop : Node → Nat
  | mk _ _ _ e _ => e

/-- The nodes inside. -/
def children : Node → List Node
  | mk _ _ _ _ cs => cs

/-- The node in another part. -/
def withField (f : Field) : Node → Node
  | mk k _ s e cs => mk k (some f) s e cs

/-- The first child that plays the part. -/
def child? (n : Node) (f : Field) : Option Node := n.children.find? fun c => c.field == some f

/-- The children that are more than fixed words and marks. -/
def namedChildren (n : Node) : List Node := n.children.filter fun c => c.kind.isNamed

/-- Whether the node is a comment. -/
def isComment (n : Node) : Bool := n.kind == .comment

end Node

/-- The characters of a source from one offset up to another. -/
def slice (source : Array Char) (start stop : Nat) : List Char := (source.extract start stop).toList

/-- The text that a node covers. -/
def Node.text (source : Array Char) (n : Node) : List Char := slice source n.start n.stop

/-- The line of an offset, counted from 0: the number of line feeds before it. -/
def rowAt (source : Array Char) (offset : Nat) : Nat := (slice source 0 offset).count '\n'

end CoverageEstimate.TypeScript

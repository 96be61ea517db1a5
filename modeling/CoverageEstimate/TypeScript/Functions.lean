/-
# Functions of a TypeScript source

The functions of a source are the function declarations, the methods of classes with a name, and
the variables whose initial value is a function, wherever in the source they stand.  They are
reported in the order in which they start.
-/
import CoverageEstimate.Definition
import CoverageEstimate.Text.Blank
import CoverageEstimate.TypeScript.Tree

namespace CoverageEstimate.TypeScript

/-- Whether a variable with an initial value of the kind is a function.  The word `function` alone
counts, too: that is how a function expression may be called. -/
def Kind.isFunctionValue : Kind → Bool
  | arrowFunction | functionExpression | generatorFunction => true
  | token text => text == "function"
  | _ => false

/-- The text without an arrow that it ends in, and without the blanks before it. -/
def withoutArrow (text : List Char) : List Char :=
  match text.reverse with
  | '>' :: '=' :: rest => Text.trimEnd rest.reverse
  | _ => text

/-- The header of a function: its text up to the body, or up to the first opening brace when it has
no body. -/
def signature (source : Array Char) (n : Node) : List Char :=
  let header :=
    match n.child? .body with
    | some body => slice source n.start body.start
    | none => (n.text source).takeWhile (· != '\x7b')
  withoutArrow (Text.trim header)

/-- A definition with the start of its node. -/
abbrev Located := Nat × FunctionDefinition

/-- The definition of a node with the given name. -/
def definitionOf (source : Array Char) (n : Node) (name : List Char) (kind : FunctionKind)
    (owner : Option String) : Located :=
  (n.start,
    { name := String.ofList name
      startLine := rowAt source n.start + 1
      endLine := rowAt source n.stop + 1
      signature := String.ofList (signature source n)
      kind := kind
      enclosingType := owner })

/-- The kind of a method: the words before its name say whether it is an accessor. -/
def accessorKind : List Node → FunctionKind
  | [] => .method
  | c :: rest =>
    if c.field == some .name then .method
    else if c.kind == .token "get" then .getter
    else if c.kind == .token "set" then .setter
    else accessorKind rest

/-- The definition of a member of the class `owner`.  Constructors are no functions of their own. -/
def memberDefinition? (source : Array Char) (owner : String) (member : Node) : Option Located :=
  match member.kind, member.child? .name with
  | .methodDefinition, some name =>
    let text := name.text source
    if text == "constructor".toList then none
    else some (definitionOf source member text (accessorKind member.children) (some owner))
  | _, _ => none

/-- The definitions that a node introduces itself: a function declaration its function, a class
declaration its methods, a variable its initial value if that is a function. -/
def ownDefinitions (source : Array Char) (n : Node) : List Located :=
  match n.kind with
  | .functionDeclaration | .generatorDeclaration =>
    match n.child? .name with
    | some name => [definitionOf source n (name.text source) .function none]
    | none => []
  | .classDeclaration | .abstractClassDeclaration =>
    match n.child? .name, n.child? .body with
    | some name, some body =>
      body.namedChildren.filterMap
        (memberDefinition? source (String.ofList (name.text source)))
    | _, _ => []
  | .variableDeclarator =>
    match n.child? .name, n.child? .value with
    | some name, some value =>
      if name.kind == .identifier && value.kind.isFunctionValue then
        [definitionOf source value (name.text source) .function none]
      else []
    | _, _ => []
  | _ => []

theorem sizeOf_append_nodes (front back : List Node) :
    sizeOf (front ++ back) + 1 = sizeOf front + sizeOf back := by
  induction front with
  | nil => simp [Nat.add_comm]
  | cons n rest ih =>
    simp only [List.cons_append, List.cons.sizeOf_spec]
    omega

/-- The definitions of the nodes on a stack and of all nodes inside them, behind those that have
been found.  The first node of the stack is visited, and its children take its place. -/
def collectDefinitions (source : Array Char) (found : Array Located) : List Node → Array Located
  | [] => found
  | .mk k f s e cs :: stack =>
    collectDefinitions source (found ++ ownDefinitions source (.mk k f s e cs)) (cs ++ stack)
termination_by stack => sizeOf stack
decreasing_by
  have h := sizeOf_append_nodes cs stack
  simp only [List.cons.sizeOf_spec, Node.mk.sizeOf_spec]
  omega

/-- The functions of a source with the given parse tree, in the order in which they start. -/
def functions (source : Array Char) (tree : Node) : List FunctionDefinition :=
  ((collectDefinitions source #[] [tree]).toList.mergeSort fun a b => a.1 ≤ b.1).map (·.2)

end CoverageEstimate.TypeScript

/-
# Queries of parse trees

A query looks for nodes by their kinds and by what stands inside them.  It is a list of patterns, and
each of them is tried at every node of a tree.  A match gives labels to some of the nodes that it
is about; a node may fit a pattern in several ways, and each of them is a match of its own.

Patterns are about nodes that are more than fixed words and marks.
-/
import CoverageEstimate.TypeScript.Tree

namespace CoverageEstimate.TypeScript

/-- Which child of a node a pattern is for. -/
structure Slot where
  /-- The part that the child plays, if that matters. -/
  field : Option Field
  /-- Whether it has to be the first of the children that are more than words and marks. -/
  isFirst : Bool

mutual

/-- A pattern of a node: its kind, if that matters, the label that a match gives to it, and patterns
of children. -/
inductive NodePattern (α : Type) where
  | node (kind : Option Kind) (label : Option α) (inside : ChildPatterns α)

/-- Patterns of children that stand one behind the other, with any nodes between them. -/
inductive ChildPatterns (α : Type) where
  | nil
  | cons (slot : Slot) (child : NodePattern α) (rest : ChildPatterns α)

end

/-- The nodes of a match that have labels. -/
abbrev Captures (α : Type) := List (α × Node)

/-- Each of the nodes with the nodes behind it. -/
def withRests : List Node → List (Node × List Node)
  | [] => []
  | n :: rest => (n, rest) :: withRests rest

/-- The nodes that a slot may be for, each with the nodes behind it. -/
def Slot.candidates (s : Slot) (nodes : List Node) : List (Node × List Node) :=
  let admitted :=
    if s.isFirst then ((withRests nodes).find? fun c => c.1.kind.isNamed).toList
    else withRests nodes
  admitted.filter fun c => s.field.all fun f => c.1.field == some f

mutual

/-- The matches of a pattern at a node. -/
def NodePattern.capturesAt {α : Type} : NodePattern α → Node → List (Captures α)
  | .node kind label inside, n =>
    if n.kind.isNamed && kind.all (· == n.kind) then
      (inside.capturesAmong n.children).map fun found =>
        (label.map fun l => (l, n)).toList ++ found
    else []

/-- The matches of patterns of children among some nodes. -/
def ChildPatterns.capturesAmong {α : Type} : ChildPatterns α → List Node → List (Captures α)
  | .nil, _ => [[]]
  | .cons slot child rest, nodes =>
    (slot.candidates nodes).flatMap fun c =>
      (child.capturesAt c.1).flatMap fun found => (rest.capturesAmong c.2).map (found ++ ·)

end

mutual

/-- A node and all nodes inside it. -/
def nodesIn : Node → List Node
  | .mk k f s e cs => .mk k f s e cs :: nodesInAll cs

/-- Some nodes and all nodes inside them. -/
def nodesInAll : List Node → List Node
  | [] => []
  | n :: rest => nodesIn n ++ nodesInAll rest

end

/-- The matches of a query in a tree. -/
def capturesIn {α : Type} (query : List (NodePattern α)) (tree : Node) : List (Captures α) :=
  (nodesIn tree).flatMap fun n => query.flatMap (·.capturesAt n)

end CoverageEstimate.TypeScript

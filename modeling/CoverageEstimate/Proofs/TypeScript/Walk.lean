/-
# The walk through a parse tree

The definitions of a source are collected with a stack of nodes that are still to be visited.  This
file says what the walk comes to: every place of the tree is visited once, a node before the nodes
inside it and those from left to right, and what has been collected in the end are the definitions
of all nodes in this order.

A place is the list of the numbers of the children that lead to a node.  The same node may stand at
several places of a tree, so nodes are told apart by their places.
-/
import CoverageEstimate.TypeScript.Functions
import CoverageEstimate.TypeScript.Signals
import Mathlib.Data.List.Nodup
import Mathlib.Data.Nat.Notation
import Mathlib.Tactic.Lemma

namespace CoverageEstimate.TypeScript

/-- What holds of a node if it holds of its children holds of all nodes. -/
@[elab_as_elim]
lemma Node.induction {motive : Node → Prop}
    (mk : ∀ k f start stop children, (∀ c ∈ children, motive c) →
      motive (.mk k f start stop children)) : ∀ n, motive n
  | .mk k f start stop children => mk k f start stop children fun c hc =>
    have : sizeOf c < sizeOf children := List.sizeOf_lt_of_mem hc
    Node.induction mk c
termination_by n => sizeOf n

lemma Node.mem_of_child? {n c : Node} {f : Field} (h : n.child? f = some c) : c ∈ n.children :=
  List.mem_of_find?_eq_some h

/-! ## Places -/

/-- The node at a place. -/
def Node.at? : Node → List ℕ → Option Node
  | n, [] => some n
  | n, i :: below =>
    match n.children[i]? with
    | some c => c.at? below
    | none => none

@[simp] lemma Node.at?_nil (n : Node) : n.at? [] = some n := by rw [at?]

lemma Node.at?_cons (n : Node) (i : ℕ) (below : List ℕ) :
    n.at? (i :: below) = n.children[i]?.bind (·.at? below) := by
  rw [at?]
  cases n.children[i]? <;> rfl

/-- A place inside a node is reached through the place of the node. -/
lemma Node.at?_append (n : Node) (front back : List ℕ) :
    n.at? (front ++ back) = (n.at? front).bind (·.at? back) := by
  induction front generalizing n with
  | nil => rw [List.nil_append, at?_nil, Option.bind_some]
  | cons i below ih =>
    rw [List.cons_append, at?_cons, at?_cons, Option.bind_assoc]
    exact Option.bind_congr fun c _ => ih c

mutual

/-- A node and all nodes inside it, with their places. -/
def placed : Node → List (List ℕ × Node)
  | .mk k f s e cs => ([], .mk k f s e cs) :: placedAll 0 cs

/-- Nodes next to each other and all nodes inside them, with their places in the node around them,
where the first one is child number `i`. -/
def placedAll : ℕ → List Node → List (List ℕ × Node)
  | _, [] => []
  | i, n :: rest => (placed n).map (fun p => (i :: p.1, p.2)) ++ placedAll (i + 1) rest

end

lemma placedAll_eq_flatMap (i : ℕ) (nodes : List Node) :
    placedAll i nodes =
      (nodes.zipIdx i).flatMap fun c => (placed c.1).map fun p => (c.2 :: p.1, p.2) := by
  induction nodes generalizing i with
  | nil => rw [placedAll, List.zipIdx_nil, List.flatMap_nil]
  | cons n rest ih => rw [placedAll, ih, List.zipIdx_cons, List.flatMap_cons]

lemma mem_placedAll_zero_iff {nodes : List Node} {place : List ℕ} {m : Node} :
    (place, m) ∈ placedAll 0 nodes ↔
      ∃ i below c, place = i :: below ∧ nodes[i]? = some c ∧ (below, m) ∈ placed c := by
  rw [placedAll_eq_flatMap, List.mem_flatMap]
  constructor
  · rintro ⟨⟨c, i⟩, hc, hmem⟩
    obtain ⟨⟨below, n⟩, hbelow, heq⟩ := List.mem_map.mp hmem
    obtain ⟨rfl, rfl⟩ := Prod.mk.inj heq
    exact ⟨i, below, c, rfl, List.mk_mem_zipIdx_iff_getElem?.mp hc, hbelow⟩
  · rintro ⟨i, below, c, rfl, hc, hmem⟩
    exact ⟨(c, i), List.mk_mem_zipIdx_iff_getElem?.mpr hc, List.mem_map.mpr ⟨_, hmem, rfl⟩⟩

/-- **The places of a tree** are listed with the nodes that stand there. -/
lemma mem_placed_iff {n m : Node} {place : List ℕ} :
    (place, m) ∈ placed n ↔ n.at? place = some m := by
  induction n using Node.induction generalizing place with
  | mk k f start stop children ih =>
    rw [placed, List.mem_cons, mem_placedAll_zero_iff]
    cases place with
    | nil => simp [eq_comm]
    | cons i below =>
      rw [Node.at?_cons, Option.bind_eq_some_iff]
      constructor
      · rintro (h | ⟨j, rest, c, heq, hc, hmem⟩)
        · simp at h
        · obtain ⟨rfl, rfl⟩ := List.cons.inj heq
          exact ⟨c, hc, (ih c (List.mem_of_getElem? hc)).mp hmem⟩
      · rintro ⟨c, hc, hat⟩
        exact Or.inr ⟨i, below, c, rfl, hc, (ih c (List.mem_of_getElem? hc)).mpr hat⟩

/-- The numbers of nodes next to each other are all different. -/
lemma pairwise_zipIdx_ne (nodes : List Node) : nodes.zipIdx.Pairwise fun c d => c.2 ≠ d.2 := by
  refine List.pairwise_map.mp ?_
  rw [List.zipIdx_map_snd]
  exact List.nodup_range'

/-- No place is listed twice. -/
lemma nodup_places (n : Node) : ((placed n).map (·.1)).Nodup := by
  induction n using Node.induction with
  | mk k f start stop children ih =>
    rw [placed, List.map_cons, List.nodup_cons]
    constructor
    · -- the places of other nodes lead through some child
      intro h
      obtain ⟨⟨place, m⟩, hmem, rfl⟩ := List.mem_map.mp h
      obtain ⟨i, below, c, heq, -⟩ := mem_placedAll_zero_iff.mp hmem
      simp at heq
    · rw [placedAll_eq_flatMap, List.map_flatMap, List.nodup_flatMap]
      constructor
      · rintro ⟨c, i⟩ hc
        have hnodup := ih c (List.mem_of_getElem? (List.mk_mem_zipIdx_iff_getElem?.mp hc))
        have hcons := hnodup.map (List.cons_injective (a := i))
        simpa only [List.map_map, Function.comp_def] using hcons
      · refine (pairwise_zipIdx_ne children).imp fun {c d} hne place hc hd => ?_
        simp only [List.map_map, List.mem_map, Function.comp_def] at hc hd
        obtain ⟨p, -, rfl⟩ := hc
        obtain ⟨q, -, heq⟩ := hd
        exact hne (List.cons.inj heq).1.symm

/-- Without their places, these are the nodes. -/
lemma map_snd_placed (n : Node) : (placed n).map (·.2) = nodesIn n := by
  induction n using Node.induction with
  | mk k f start stop children ih =>
    have hall : ∀ i, (placedAll i children).map (·.2) = nodesInAll children := by
      induction children with
      | nil => exact fun _ => rfl
      | cons c rest ihr =>
        intro i
        have hrest := ihr (fun d hd => ih d (List.mem_cons_of_mem _ hd)) (i + 1)
        rw [placedAll, nodesInAll, List.map_append, List.map_map, hrest]
        exact congrArg (· ++ nodesInAll rest) (ih c List.mem_cons_self)
    rw [placed, nodesIn, List.map_cons, hall]

/-! ## The stack -/

lemma nodesInAll_eq_flatMap (nodes : List Node) : nodesInAll nodes = nodes.flatMap nodesIn := by
  induction nodes with
  | nil => rfl
  | cons n rest ih => rw [nodesInAll, ih, List.flatMap_cons]

/-- The nodes of a tree are the tree itself and the nodes of the trees inside it. -/
lemma nodesIn_eq (n : Node) : nodesIn n = n :: n.children.flatMap nodesIn := by
  cases n
  rw [nodesIn, nodesInAll_eq_flatMap]
  rfl

/-- **The walk with a stack** adds the definitions of all nodes that are on the stack or inside a
node on it. -/
lemma toList_collectDefinitions (src : Array Char) (found : Array Located) (stack : List Node) :
    (collectDefinitions src found stack).toList =
      found.toList ++ (stack.flatMap nodesIn).flatMap (ownDefinitions src) := by
  fun_induction collectDefinitions src found stack with
  | case1 found => simp
  | case2 found k f s e cs stack ih =>
    rw [ih, List.flatMap_append, List.flatMap_cons, nodesIn, nodesInAll_eq_flatMap]
    simp

/-- What is collected from a tree are the definitions of all its nodes. -/
lemma toList_collectDefinitions_tree (src : Array Char) (tree : Node) :
    (collectDefinitions src #[] [tree]).toList = (nodesIn tree).flatMap (ownDefinitions src) := by
  rw [toList_collectDefinitions, List.flatMap_singleton, Array.toList_empty, List.nil_append]

end CoverageEstimate.TypeScript

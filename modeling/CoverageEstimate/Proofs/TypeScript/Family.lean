/-
# Functions inside functions

A function of a source may stand inside another one.  What is reported of the two are lines, and a
function may start on the line on which another one ends; but no function goes on behind the end of
one that it starts in.

The functions are not found in the order in which they are reported.  A method is found with its
class, before everything else in the body of that class, and sorting by where functions start puts
it into its place.  Only where two functions start together does it matter which of them is found
first, and then that must be the outer one.  This is why the body of a class must not be a function
itself.
-/
import CoverageEstimate.Proofs.TypeScript.Bodies
import CoverageEstimate.Proofs.TypeScript.ParseTree
import CoverageEstimate.Proofs.TypeScript.Spans

namespace CoverageEstimate

namespace FunctionDefinition

/-- The definitions are in order: the second one does not start before the first one, and it lies
within that or starts no earlier than on the line on which that ends. -/
structure Precedes (a b : FunctionDefinition) : Prop where
  starts : a.startLine ≤ b.startLine
  apart : b.endLine ≤ a.endLine ∨ a.endLine ≤ b.startLine

/-- The first definition starts before the second one, and ends inside it. -/
def PartlyOverlaps (a b : FunctionDefinition) : Prop :=
  a.startLine < b.startLine ∧ b.startLine < a.endLine ∧ a.endLine < b.endLine

lemma Precedes.not_partlyOverlaps {a b : FunctionDefinition} (h : a.Precedes b) :
    ¬a.PartlyOverlaps b ∧ ¬b.PartlyOverlaps a := by
  obtain ⟨starts, apart⟩ := h
  constructor
  · rintro ⟨-, hinside, hbehind⟩
    omega
  · rintro ⟨hstart, -, -⟩
    omega

end FunctionDefinition

namespace TypeScript

open FunctionDefinition (HasSpan Precedes PartlyOverlaps)

variable {src : Source} {lo hi : ℕ} {nodes : List Node} {a b n : Node} {x y : Located}

/-! ## Spans of nodes -/

/-- The definition starts where the node does, and has its lines. -/
structure SpansNode (src : Source) (x : Located) (n : Node) : Prop where
  start : x.1 = n.start
  startLine : x.2.startLine = rowAt src n.start + 1
  endLine : x.2.endLine = rowAt src n.stop + 1

/-- The definition spans a node within the node. -/
def SpansWithin (src : Source) (x : Located) (n : Node) : Prop :=
  ∃ m, SpansNode src x m ∧ n.start ≤ m.start ∧ m.start ≤ m.stop ∧ m.stop ≤ n.stop

/-- Sorting by where they start puts the definitions in order, if the first one is found first. -/
def Sortable (x y : Located) : Prop :=
  (x.1 ≤ y.1 → Precedes x.2 y.2) ∧ (y.1 < x.1 → Precedes y.2 x.2)

lemma spansNode_definitionOf (n : Node) (name : List Char) (kind : FunctionKind)
    (owner : Option String) : SpansNode src (definitionOf src n name kind owner) n := ⟨rfl, rfl, rfl⟩

lemma SpansNode.within (h : SpansNode src x n) (hn : n.start ≤ n.stop) : SpansWithin src x n :=
  ⟨n, h, Nat.le_refl _, hn, Nat.le_refl _⟩

lemma SpansWithin.of_child {c : Node} (h : SpansWithin src x c) (hn : n.IsNested)
    (hc : c ∈ n.children) : SpansWithin src x n := by
  obtain ⟨m, hspan, hstart, hm, hstop⟩ := h
  obtain ⟨hfrom, -, hto⟩ := hn.ordered.of_mem hc
  exact ⟨m, hspan, Nat.le_trans hfrom hstart, hm, Nat.le_trans hstop hto⟩

lemma SpansNode.precedes (hx : SpansNode src x a) (hy : SpansNode src y b)
    (hstart : a.start ≤ b.start) (h : b.stop ≤ a.stop ∨ a.stop ≤ b.start) :
    Precedes x.2 y.2 := by
  constructor
  · rw [hx.startLine, hy.startLine]
    exact Nat.succ_le_succ (rowAt_mono src hstart)
  · rw [hx.endLine, hy.endLine, hy.startLine]
    exact h.imp (fun h => Nat.succ_le_succ (rowAt_mono src h))
      fun h => Nat.succ_le_succ (rowAt_mono src h)

/-- An outer function may be found before an inner one. -/
lemma SpansNode.sortable (hx : SpansNode src x n) (hy : SpansWithin src y n) : Sortable x y := by
  obtain ⟨m, hspan, hstart, -, hstop⟩ := hy
  constructor
  · intro _
    exact hx.precedes hspan hstart (.inl hstop)
  · intro hlt
    rw [hx.start, hspan.start] at hlt
    omega

/-- Of two functions that stand apart, each may be found first. -/
lemma SpansWithin.sortable (hx : SpansWithin src x a) (hy : SpansWithin src y b)
    (h : a.stop ≤ b.start ∨ b.stop ≤ a.start) : Sortable x y := by
  obtain ⟨m, hxm, hma, hm, hstop⟩ := hx
  obtain ⟨l, hyl, hlb, hl, hlast⟩ := hy
  constructor
  · intro hle
    rw [hxm.start, hyl.start] at hle
    exact hxm.precedes hyl hle (by omega)
  · intro hlt
    rw [hxm.start, hyl.start] at hlt
    exact hyl.precedes hxm (Nat.le_of_lt hlt) (by omega)

/-- A function that is one of the nodes may be found before those within any of them. -/
lemma SpansNode.sortable_of_mem (h : InOrder lo nodes hi) (ha : a ∈ nodes) (hb : b ∈ nodes)
    (hx : SpansNode src x a) (hy : SpansWithin src y b) : Sortable x y := by
  by_cases heq : a = b
  · rw [heq] at hx
    exact hx.sortable hy
  · exact (hx.within (h.of_mem ha).2.1).sortable hy (h.apart ha hb heq)

/-! ## What a node introduces -/

lemma spansNode_of_memberDefinition? {owner : String} (h : memberDefinition? src owner n = some x) :
    SpansNode src x n := by
  obtain ⟨_, -, -, -, rfl⟩ := memberDefinition?_eq_some_iff.mp h
  exact spansNode_definitionOf n _ _ _

/-- What a node introduces is the node, a node in it, or a node in the body of a class. -/
lemma spansNode_of_mem_ownDefinitions (h : x ∈ ownDefinitions src n) :
    (n.kind.IsFunctionDeclaration ∧ SpansNode src x n) ∨ (∃ c ∈ n.children, SpansNode src x c) ∨
      (n.IsClass ∧ ∃ body, n.child? .body = some body ∧
        ∃ m ∈ body.children, SpansNode src x m) := by
  by_cases hclass : n.IsClass
  · refine .inr (.inr ⟨hclass, ?_⟩)
    rw [ownDefinitions_class hclass] at h
    split at h
    · rename_i name body _ hbody
      obtain ⟨m, hm, hx⟩ := List.mem_filterMap.mp h
      exact ⟨body, hbody, m, hm, spansNode_of_memberDefinition? hx⟩
    · simp at h
  · obtain ⟨_, hkind, -, rfl⟩ | ⟨_, value, -, -, -, hvalue, -, rfl⟩ :=
      (mem_ownDefinitions_iff hclass).mp h
    · exact .inl ⟨hkind, spansNode_definitionOf n _ _ _⟩
    · exact .inr (.inl ⟨value, Node.mem_of_child? hvalue, spansNode_definitionOf value _ _ _⟩)

/-- The members of a class may be found in the order in which they stand. -/
lemma pairwise_ownDefinitions (hn : n.IsNested) :
    (ownDefinitions src n).Pairwise Sortable := by
  by_cases hclass : n.IsClass
  · rw [ownDefinitions_class hclass]
    split
    · rename_i name body _ hbody
      have hordered := (hn.of_mem (Node.mem_of_child? hbody)).ordered
      rw [List.pairwise_filterMap]
      refine hordered.pairwise.imp_of_mem ?_
      intro a b ha hb _ x hx y hy
      have hspan := spansNode_of_memberDefinition? hy
      have hwithin := hspan.within (hordered.of_mem hb).2.1
      exact (spansNode_of_memberDefinition? hx).sortable_of_mem hordered ha hb hwithin
    · exact .nil
  · have hlength : (ownDefinitions src n).length ≤ 1 := length_ownDefinitions_le hclass
    match hown : ownDefinitions src n with
    | [] => exact .nil
    | [x] => exact List.pairwise_singleton _ x
    | _ :: _ :: _ => simp [hown] at hlength

/-! ## What is found in a tree -/

/-- What the nodes of a tree introduce, in the order in which it is found. -/
def definitionsIn (src : Source) (tree : Node) : List Located :=
  (nodesIn tree).flatMap (ownDefinitions src)

lemma definitionsIn_eq (n : Node) :
    definitionsIn src n = ownDefinitions src n ++ n.children.flatMap (definitionsIn src) := by
  rw [definitionsIn, nodesIn_eq, List.flatMap_cons, List.flatMap_assoc]
  rfl

lemma Node.HasPlainBodies.of_mem {c : Node} (h : n.HasPlainBodies) (hc : c ∈ n.children) :
    c.HasPlainBodies := by
  intro m hm
  refine h m ?_
  rw [nodesIn_eq]
  exact List.mem_cons_of_mem _ (List.mem_flatMap.mpr ⟨c, hc, hm⟩)

/-- What is found in a node is the node, if that is a function declaration, or lies within a node
in it. -/
lemma spans_of_mem_definitionsIn (hn : n.IsNested) (hx : x ∈ definitionsIn src n) :
    (n.kind.IsFunctionDeclaration ∧ SpansNode src x n) ∨ ∃ c ∈ n.children, SpansWithin src x c := by
  induction n using Node.induction with
  | mk k f start stop children ih =>
    rw [definitionsIn_eq, List.mem_append] at hx
    rcases hx with hx | hx
    · obtain h | ⟨c, hc, hspan⟩ | ⟨-, body, hbody, m, hm, hspan⟩ :=
        spansNode_of_mem_ownDefinitions hx
      · exact .inl h
      · exact .inr ⟨c, hc, hspan.within (hn.ordered.of_mem hc).2.1⟩
      · have hmem := Node.mem_of_child? hbody
        have hnested := hn.of_mem hmem
        have hwithin := hspan.within (hnested.ordered.of_mem hm).2.1
        exact .inr ⟨body, hmem, hwithin.of_child hnested hm⟩
    · obtain ⟨c, hc, hx⟩ := List.mem_flatMap.mp hx
      have hnested := hn.of_mem hc
      refine .inr ⟨c, hc, ?_⟩
      obtain ⟨-, hspan⟩ | ⟨d, hd, hwithin⟩ := ih c hc hnested hx
      · exact hspan.within hnested.start_le_stop
      · exact hwithin.of_child hnested hd

lemma spansWithin_of_mem (hn : n.IsNested) (hx : x ∈ definitionsIn src n) :
    SpansWithin src x n := by
  obtain ⟨-, hspan⟩ | ⟨c, hc, hwithin⟩ := spans_of_mem_definitionsIn hn hx
  · exact hspan.within hn.start_le_stop
  · exact hwithin.of_child hn hc

/-- What a node introduces may be found before what is found in the nodes inside it. -/
lemma sortable_of_mem_ownDefinitions (hn : n.IsNested) (hb : n.HasPlainBodies)
    (hx : x ∈ ownDefinitions src n) {c : Node} (hc : c ∈ n.children)
    (hy : y ∈ definitionsIn src c) : Sortable x y := by
  have hwithin := spansWithin_of_mem (hn.of_mem hc) hy
  obtain ⟨-, hspan⟩ | ⟨d, hd, hspan⟩ | ⟨hclass, body, hbody, m, hm, hspan⟩ :=
    spansNode_of_mem_ownDefinitions hx
  · exact hspan.sortable (hwithin.of_child hn hc)
  · exact hspan.sortable_of_mem hn.ordered hd hc hwithin
  · have hmem := Node.mem_of_child? hbody
    have hnested := hn.of_mem hmem
    by_cases heq : body = c
    · -- the body itself is no function that starts where a method does
      subst heq
      have hplain := hb n (nodesIn_eq n ▸ List.mem_cons_self) hclass body hbody
      obtain ⟨hdeclares, -⟩ | ⟨d, hd, hinside⟩ := spans_of_mem_definitionsIn hnested hy
      · exact absurd hdeclares hplain
      · exact hspan.sortable_of_mem hnested.ordered hm hd hinside
    · have hmember := (hspan.within (hnested.ordered.of_mem hm).2.1).of_child hnested hm
      exact hmember.sortable hwithin (hn.ordered.apart hmem hc heq)

/-- **What is found in a tree** can be sorted by where it starts. -/
lemma pairwise_definitionsIn (hn : n.IsNested) (hb : n.HasPlainBodies) :
    (definitionsIn src n).Pairwise Sortable := by
  induction n using Node.induction with
  | mk k f start stop children ih =>
    rw [definitionsIn_eq, List.pairwise_append, List.pairwise_flatMap]
    refine ⟨pairwise_ownDefinitions hn, ⟨?_, ?_⟩, ?_⟩
    · -- inside one child
      intro c hc
      exact ih c hc (hn.of_mem hc) (hb.of_mem hc)
    · -- inside one child and inside a later one
      refine hn.ordered.pairwise.imp_of_mem ?_
      intro a b ha hb hle x hx y hy
      have hfront := spansWithin_of_mem (hn.of_mem ha) hx
      have hback := spansWithin_of_mem (hn.of_mem hb) hy
      exact hfront.sortable hback (.inl hle)
    · -- by the node itself and inside a child
      intro x hx y hy
      obtain ⟨c, hc, hy⟩ := List.mem_flatMap.mp hy
      exact sortable_of_mem_ownDefinitions hn hb hx hc hy

/-- **The functions of a source** span lines that exist, and those of any two of them are in order,
so that they never overlap in part.  This holds of all nested trees whose classes have no function
declarations for their bodies, and so of the parse tree of every source. -/
theorem functions_precede (src : Source) :
    (∀ tree : Node, tree.IsNested → tree.HasPlainBodies →
      (∀ d ∈ functions src tree, HasSpan d) ∧
      (functions src tree).Pairwise Precedes ∧
      ∀ d ∈ functions src tree, ∀ e ∈ functions src tree, ¬d.PartlyOverlaps e) ∧
    ∀ markup, (parse markup src).IsNested ∧ (parse markup src).HasPlainBodies := by
  constructor
  · intro tree hn hb
    have hordered : (functions src tree).Pairwise Precedes := by
      rw [functions, toList_collectDefinitions_tree, List.pairwise_map]
      exact Sorting.pairwise_mergeSort_of_pairwise (fun d : Located => d.1)
        (pairwise_definitionsIn hn hb)
    refine ⟨fun d hd => hasSpan_functions hn.isForward hd, hordered, ?_⟩
    intro d hd e he
    have hfront := hordered.imp fun h => h.not_partlyOverlaps.1
    have hback := hordered.imp fun h => h.not_partlyOverlaps.2
    have hself : ∀ d ∈ functions src tree, ¬d.PartlyOverlaps d := by
      rintro d - ⟨hlt, -⟩
      exact absurd hlt (Nat.lt_irrefl _)
    exact hfront.forall_of_forall_of_flip hself hback hd he
  · intro markup
    exact ⟨parse_isNested markup src, parse_hasPlainBodies markup src⟩

/-- A class with a method that has a function in it. -/
def classSource : Source := "class A \x7b\nm() \x7b\nvar f = () => 1 \x7d \x7d".toList.toArray

/-- The nodes of this source that introduce functions, and the ones around them. -/
def classTree : Node :=
  .mk .other none 0 35 [.mk .classDeclaration none 0 35 [
    .mk .identifier (some .name) 6 7 [],
    .mk .other (some .body) 8 35 [.mk .methodDefinition none 10 33 [
      .mk .propertyIdentifier (some .name) 10 11 [],
      .mk .other (some .body) 14 33 [.mk .variableDeclarator none 20 31 [
        .mk .identifier (some .name) 20 21 [],
        .mk .arrowFunction (some .value) 24 31 []]]]]]]

theorem functions_precede_classSource :
    classTree.IsNested ∧ classTree.HasPlainBodies ∧
      (functions classSource classTree).map (fun d => (d.name, d.startLine, d.endLine)) =
        [("m", 2, 3), ("f", 3, 3)] ∧
      (functions classSource classTree).Pairwise Precedes := by
  have hn : classTree.IsNested := by
    simp [classTree, isNested_mk_iff, InOrder, Node.start, Node.stop]
  have hb : classTree.HasPlainBodies := by
    refine Node.IsPlain.hasPlainBodies ?_
    simp [classTree, isPlain_mk_iff, Kind.IsFunctionDeclaration]
  refine ⟨hn, hb, ?_, ((functions_precede classSource).1 classTree hn hb).2.1⟩
  rw [functions, toList_collectDefinitions_tree, List.mergeSort_of_pairwise (by decide)]
  decide

end TypeScript

end CoverageEstimate

/-
# Spans of functions

A function of a source reaches from the line on which its node starts to the line on which that
stops.  So where no node of a parse tree ends before it starts, no function does.
-/
import CoverageEstimate.Proofs.TypeScript.Introductions
import CoverageEstimate.Proofs.TypeScript.Nesting

namespace CoverageEstimate

namespace FunctionDefinition

/-- The lines of the definition exist and are in order. -/
def HasSpan (d : FunctionDefinition) : Prop := 1 ≤ d.startLine ∧ d.startLine ≤ d.endLine

lemma hasValidSpan_iff {d : FunctionDefinition} : d.hasValidSpan = true ↔ d.HasSpan := by
  simp [hasValidSpan, HasSpan]

end FunctionDefinition

namespace TypeScript

open FunctionDefinition (HasSpan)

variable {src : Source}

/-- Lines do not decrease with offsets. -/
lemma rowAt_mono (src : Source) {a b : ℕ} (h : a ≤ b) : rowAt src a ≤ rowAt src b := by
  refine List.Sublist.count_le '\n' ?_
  rw [slice, slice, Array.toList_extract, Array.toList_extract]
  exact (List.take_prefix_take_left (by omega)).sublist

lemma Node.IsForward.start_le_stop {n : Node} (h : n.IsForward) : n.start ≤ n.stop := by
  cases h with
  | mk k f le forward => exact le

lemma Node.IsForward.of_mem {n c : Node} (h : n.IsForward) (hc : c ∈ n.children) :
    c.IsForward := by
  cases h with
  | mk k f le forward => exact forward c hc

lemma Node.IsForward.of_child? {n c : Node} {f : Field} (h : n.IsForward)
    (hc : n.child? f = some c) : c.IsForward := h.of_mem (Node.mem_of_child? hc)

lemma hasSpan_definitionOf {n : Node} (h : n.IsForward) (name : List Char) (kind : FunctionKind)
    (owner : Option String) : HasSpan (definitionOf src n name kind owner).2 :=
  ⟨Nat.le_add_left 1 _, Nat.succ_le_succ (rowAt_mono src h.start_le_stop)⟩

lemma Node.IsForward.of_at? {n m : Node} (h : n.IsForward) {place : List ℕ}
    (hm : n.at? place = some m) : m.IsForward := by
  induction place generalizing n with
  | nil =>
    obtain rfl := Option.some.inj (n.at?_nil.symm.trans hm)
    exact h
  | cons i below ih =>
    rw [Node.at?_cons, Option.bind_eq_some_iff] at hm
    obtain ⟨c, hc, hm⟩ := hm
    exact ih (h.of_mem (List.mem_of_getElem? hc)) hm

/-- What a node introduces spans lines that exist. -/
lemma Introduces.hasSpan {tree : Node} (h : tree.IsForward) {place : List ℕ} {d : Located}
    (hd : Introduces src tree place d) : HasSpan d.2 := by
  cases hd with
  | function found => exact hasSpan_definitionOf (h.of_at? found) _ _ _
  | method found _ _ inBody inside =>
    have hbody := (h.of_at? found).of_child? inBody.child?_eq
    exact hasSpan_definitionOf (hbody.of_mem (List.mem_of_getElem? inside)) _ _ _
  | value found _ _ _ hasValue =>
    exact hasSpan_definitionOf ((h.of_at? found).of_child? hasValue) _ _ _

/-- **The functions of a source** span lines that exist, if no node of its parse tree ends before it
starts. -/
theorem hasSpan_functions {tree : Node} (h : tree.IsForward) {d : FunctionDefinition}
    (hd : d ∈ functions src tree) : HasSpan d := by
  obtain ⟨located, hmem, rfl⟩ := List.mem_map.mp hd
  rw [List.mem_mergeSort, toList_collectDefinitions_eq] at hmem
  obtain ⟨⟨place, found⟩, hfound, rfl⟩ := List.mem_map.mp hmem
  exact (mem_collected_iff.mp hfound).hasSpan h

end TypeScript

end CoverageEstimate

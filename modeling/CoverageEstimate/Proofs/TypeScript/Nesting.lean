/-
# Nested nodes

The nodes inside a node stand one behind the other, from where that node starts to where it stops.
This file says what that means, and that it is kept when nodes are put into a node or behind one.
-/
import CoverageEstimate.TypeScript.Rule
import Mathlib.Data.List.Pairwise
import Mathlib.Data.Nat.Notation
import Mathlib.Tactic.Lemma

namespace CoverageEstimate.TypeScript

/-! ## Nodes in order -/

/-- The nodes stand one behind the other between two offsets, and none of them ends before it
starts. -/
def InOrder : ℕ → List Node → ℕ → Prop
  | lo, [], hi => lo ≤ hi
  | lo, n :: rest, hi => lo ≤ n.start ∧ n.start ≤ n.stop ∧ InOrder n.stop rest hi

/-- The nodes inside the node are in order from its start to its stop, and the same holds for all
nodes inside it. -/
inductive Node.IsNested : Node → Prop
  | mk (k : Kind) (f : Option Field) {start stop : ℕ} {children : List Node}
      (ordered : InOrder start children stop) (nested : ∀ c ∈ children, IsNested c) :
      IsNested (.mk k f start stop children)

/-- The node does not end before it starts, and the same holds for all nodes inside it. -/
inductive Node.IsForward : Node → Prop
  | mk (k : Kind) (f : Option Field) {start stop : ℕ} {children : List Node} (le : start ≤ stop)
      (forward : ∀ c ∈ children, IsForward c) : IsForward (.mk k f start stop children)

/-- Nested nodes that are in order between two offsets. -/
structure FitBetween (lo : ℕ) (nodes : List Node) (hi : ℕ) : Prop where
  ordered : InOrder lo nodes hi
  nested : ∀ n ∈ nodes, n.IsNested

variable {lo hi pos stop : ℕ} {nodes : List Node}

lemma InOrder.le (h : InOrder lo nodes hi) : lo ≤ hi := by
  induction nodes generalizing lo with
  | nil => exact h
  | cons n rest ih =>
    obtain ⟨hlo, hn, hrest⟩ := h
    have hle := ih hrest
    omega

lemma InOrder.of_le {low : ℕ} (h : InOrder lo nodes hi) (hlow : low ≤ lo) :
    InOrder low nodes hi := by
  cases nodes with
  | nil => exact Nat.le_trans hlow h
  | cons n rest => exact ⟨Nat.le_trans hlow h.1, h.2⟩

lemma inOrder_append_iff {front back : List Node} :
    InOrder lo (front ++ back) hi ↔ ∃ middle, InOrder lo front middle ∧ InOrder middle back hi := by
  induction front generalizing lo with
  | nil =>
    constructor
    · intro h
      exact ⟨lo, Nat.le_refl lo, h⟩
    · rintro ⟨middle, hle, h⟩
      exact h.of_le hle
  | cons n rest ih =>
    simp only [List.cons_append, InOrder, ih]
    constructor
    · rintro ⟨hlo, hn, middle, hrest, hback⟩
      exact ⟨middle, ⟨hlo, hn, hrest⟩, hback⟩
    · rintro ⟨middle, ⟨hlo, hn, hrest⟩, hback⟩
      exact ⟨hlo, hn, middle, hrest, hback⟩

/-- Nodes stay in order when they change in other respects than where they stand. -/
lemma inOrder_map_iff {g : Node → Node} (start : ∀ n, (g n).start = n.start)
    (stop : ∀ n, (g n).stop = n.stop) : InOrder lo (nodes.map g) hi ↔ InOrder lo nodes hi := by
  induction nodes generalizing lo with
  | nil => exact Iff.rfl
  | cons n rest ih => rw [List.map_cons, InOrder, InOrder, start, stop, ih]

lemma lastStop_cons (n : Node) (rest : List Node) :
    lastStop lo (n :: rest) = lastStop n.stop rest := by
  cases rest with
  | nil => rfl
  | cons m ms => simp [lastStop, List.getLast?_cons]

/-- Nodes in order reach from where they may start to where the last of them stops. -/
lemma InOrder.lastStop (h : InOrder lo nodes hi) :
    InOrder lo nodes (lastStop lo nodes) ∧ lastStop lo nodes ≤ hi := by
  induction nodes generalizing lo with
  | nil => exact ⟨Nat.le_refl lo, h⟩
  | cons n rest ih =>
    rw [lastStop_cons]
    obtain ⟨hrest, hle⟩ := ih h.2.2
    exact ⟨⟨h.1, h.2.1, hrest⟩, hle⟩

lemma InOrder.of_mem (h : InOrder lo nodes hi) {n : Node} (hn : n ∈ nodes) :
    lo ≤ n.start ∧ n.start ≤ n.stop ∧ n.stop ≤ hi := by
  obtain ⟨front, back, rfl⟩ := List.append_of_mem hn
  obtain ⟨middle, hfront, hback⟩ := inOrder_append_iff.mp h
  have hle := hback.2.2.le
  exact ⟨Nat.le_trans hfront.le hback.1, hback.2.1, hle⟩

lemma InOrder.pairwise (h : InOrder lo nodes hi) :
    nodes.Pairwise fun a b => a.stop ≤ b.start := by
  induction nodes generalizing lo with
  | nil => exact .nil
  | cons n rest ih =>
    obtain ⟨-, -, hrest⟩ := h
    exact .cons (fun m hm => (hrest.of_mem hm).1) (ih hrest)

/-- Of two nodes in order, one stands behind the other, unless they are the same. -/
lemma InOrder.apart (h : InOrder lo nodes hi) {a b : Node} (ha : a ∈ nodes) (hb : b ∈ nodes)
    (hne : a ≠ b) : a.stop ≤ b.start ∨ b.stop ≤ a.start := by
  have hfront : nodes.Pairwise fun a b => a ≠ b → a.stop ≤ b.start ∨ b.stop ≤ a.start :=
    h.pairwise.imp fun hle _ => .inl hle
  have hback : nodes.Pairwise fun a b => b ≠ a → b.stop ≤ a.start ∨ a.stop ≤ b.start :=
    h.pairwise.imp fun hle _ => .inr hle
  exact hfront.forall_of_forall_of_flip (fun a _ hself => absurd rfl hself) hback ha hb hne

lemma isNested_mk_iff {k : Kind} {f : Option Field} {start : ℕ} :
    (Node.mk k f start stop nodes).IsNested ↔
      InOrder start nodes stop ∧ ∀ c ∈ nodes, c.IsNested := by
  constructor
  · rintro ⟨_, _, ordered, nested⟩
    exact ⟨ordered, nested⟩
  · rintro ⟨ordered, nested⟩
    exact .mk k f ordered nested

lemma Node.IsNested.of_mem {n c : Node} (h : n.IsNested) (hc : c ∈ n.children) : c.IsNested := by
  cases h with
  | mk k f ordered nested => exact nested c hc

lemma Node.IsNested.ordered {n : Node} (h : n.IsNested) : InOrder n.start n.children n.stop := by
  cases h with
  | mk k f ordered nested => exact ordered

lemma Node.IsNested.start_le_stop {n : Node} (h : n.IsNested) : n.start ≤ n.stop := h.ordered.le

/-- In a nested tree no node ends before it starts. -/
lemma Node.IsNested.isForward {n : Node} (h : n.IsNested) : n.IsForward := by
  induction h with
  | mk k f ordered nested ih => exact .mk k f ordered.le ih

/-! ## Nested nodes -/

lemma fitBetween_nil (h : lo ≤ hi) : FitBetween lo [] hi := ⟨h, by simp⟩

lemma FitBetween.cons {n : Node} (hn : n.IsNested) (hlo : lo ≤ n.start)
    (h : FitBetween n.stop nodes hi) : FitBetween lo (n :: nodes) hi where
  ordered := ⟨hlo, hn.start_le_stop, h.ordered⟩
  nested := List.forall_mem_cons.mpr ⟨hn, h.nested⟩

lemma FitBetween.append {front back : List Node} {middle : ℕ} (hf : FitBetween lo front middle)
    (hb : FitBetween middle back hi) : FitBetween lo (front ++ back) hi where
  ordered := inOrder_append_iff.mpr ⟨middle, hf.ordered, hb.ordered⟩
  nested n hn := (List.mem_append.mp hn).elim (hf.nested n) (hb.nested n)

lemma FitBetween.isNested (h : FitBetween lo nodes hi) (k : Kind) (f : Option Field) :
    (Node.mk k f lo hi nodes).IsNested := .mk k f h.ordered h.nested

lemma isNested_leaf {k : Kind} (h : pos ≤ stop) : (leaf k pos stop).IsNested :=
  (fitBetween_nil h).isNested k none

lemma fitBetween_leaf {k : Kind} (h : pos ≤ stop) : FitBetween pos [leaf k pos stop] stop :=
  .cons (isNested_leaf h) (Nat.le_refl pos) (fitBetween_nil (Nat.le_refl stop))

@[simp] lemma Node.start_withField (f : Field) (n : Node) : (n.withField f).start = n.start := by
  cases n
  rfl

@[simp] lemma Node.stop_withField (f : Field) (n : Node) : (n.withField f).stop = n.stop := by
  cases n
  rfl

lemma Node.IsNested.withField {n : Node} (h : n.IsNested) (f : Field) :
    (n.withField f).IsNested := by
  cases h with
  | mk k _ ordered nested => exact .mk k (some f) ordered nested

lemma FitBetween.enclose (h : FitBetween pos nodes stop) (k : Kind) :
    FitBetween pos (enclose k pos nodes) stop := by
  have hsplit := List.takeWhile_append_dropWhile (p := Node.isComment) (l := nodes)
  rw [TypeScript.enclose]
  obtain ⟨ordered, nested⟩ := h
  rw [← hsplit] at ordered nested
  generalize nodes.takeWhile Node.isComment = before at *
  generalize nodes.dropWhile Node.isComment = inside at *
  obtain ⟨middle, hbefore, hinside⟩ := inOrder_append_iff.mp ordered
  obtain ⟨hfront, hle⟩ := hbefore.lastStop
  have hback := hinside.of_le hle
  refine .append ⟨hfront, fun n hn => nested n (List.mem_append_left _ hn)⟩ ?_
  have hnested : ∀ n ∈ inside, n.IsNested := fun n hn => nested n (List.mem_append_right _ hn)
  -- the node starts where the first node inside it does, if there is one
  cases inside with
  | nil =>
    refine .cons (isNested_leaf (Nat.le_refl _)) (Nat.le_refl _) (fitBetween_nil hback)
  | cons n rest =>
    have hfrom : InOrder n.start (n :: rest) stop := ⟨Nat.le_refl _, hback.2⟩
    obtain ⟨hspan, hstop⟩ := hfrom.lastStop
    exact .cons (.mk k none hspan hnested) hback.1 (fitBetween_nil hstop)

/-- A node before and nested nodes behind it make up a nested node. -/
lemma isNested_encloseWith {before : Node} (hb : before.IsNested) (hle : before.stop ≤ pos)
    (h : FitBetween pos nodes stop) (k : Kind) (f : Option Field) :
    (encloseWith k f before nodes).IsNested := by
  have hspan := (h.ordered.of_le hle).lastStop.1
  unfold encloseWith
  cases f with
  | none => exact (FitBetween.cons hb (Nat.le_refl _) ⟨hspan, h.nested⟩).isNested k none
  | some f =>
    refine (FitBetween.cons (hb.withField f) (by simp) ⟨?_, h.nested⟩).isNested k none
    rw [Node.stop_withField]
    exact hspan

end CoverageEstimate.TypeScript

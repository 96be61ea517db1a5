/-
# Sorting by keys

Files are sorted by their paths, and functions by where they start.  Where the keys are texts that
are all different, the sorted list is strictly increasing, and there is only one such order.
Functions may start at the same offset, and then they stay in the order in which they were found.
-/
import Mathlib.Data.List.Nodup
import Mathlib.Data.List.Pairwise
import Mathlib.Tactic.Lemma

namespace CoverageEstimate.Sorting

lemma pairwise_le_mergeSort {α κ : Type} [LE κ] [DecidableLE κ] [Std.IsLinearPreorder κ]
    (key : α → κ) (xs : List α) :
    (xs.mergeSort fun a b => decide (key a ≤ key b)).Pairwise fun a b => key a ≤ key b := by
  have h : (xs.mergeSort fun a b => decide (key a ≤ key b)).Pairwise
      fun a b => decide (key a ≤ key b) = true := by
    refine List.pairwise_mergeSort (fun a b c hab hbc => ?_) (fun a b => ?_) xs
    · rw [decide_eq_true_eq] at hab hbc ⊢
      exact Std.le_trans hab hbc
    · rw [Bool.or_eq_true, decide_eq_true_eq, decide_eq_true_eq]
      exact Std.le_total
  exact h.imp fun hab => of_decide_eq_true hab

section Stable

variable {α : Type} (key : α → ℕ)

/-- Members with the same key stay in their order. -/
lemma filter_mergeSort (xs : List α) (k : ℕ) :
    (xs.mergeSort fun a b => key a ≤ key b).filter (key · = k) = xs.filter (key · = k) := by
  have hequal : (xs.filter (key · = k)).Pairwise fun a b => decide (key a ≤ key b) = true := by
    refine List.pairwise_of_forall_mem_list ?_
    intro a ha b hb
    simp only [List.mem_filter, decide_eq_true_eq] at ha hb ⊢
    omega
  have hsub : (xs.filter (key · = k)).Sublist (xs.mergeSort fun a b => key a ≤ key b) := by
    refine List.sublist_mergeSort ?_ ?_ hequal List.filter_sublist
    · intro a b c hab hbc
      simp only [decide_eq_true_eq] at hab hbc ⊢
      exact Nat.le_trans hab hbc
    · intro a b
      simpa using Nat.le_total (key a) (key b)
  have hfilter := hsub.filter (key · = k)
  simp only [List.filter_filter, Bool.and_self] at hfilter
  have hperm := (List.mergeSort_perm xs fun a b => key a ≤ key b).filter (key · = k)
  exact (hfilter.eq_of_length hperm.length_eq.symm).symm

/-- A relation between members of a list holds behind a stable sort, if it holds between any two of
them in the order of their keys. -/
lemma pairwise_mergeSort_of_pairwise {R : α → α → Prop} {xs : List α}
    (h : xs.Pairwise fun a b => (key a ≤ key b → R a b) ∧ (key b < key a → R b a)) :
    (xs.mergeSort fun a b => key a ≤ key b).Pairwise R := by
  have hsorted := pairwise_le_mergeSort key xs
  rw [List.pairwise_iff_forall_sublist] at hsorted ⊢
  intro a b hab
  rcases Nat.lt_or_eq_of_le (hsorted hab) with hlt | heq
  · -- where the keys differ, it does not matter which of the two comes first
    have hfront : xs.Pairwise fun a b => key a < key b → R a b :=
      h.imp fun hab hlt => hab.1 (Nat.le_of_lt hlt)
    have hback : xs.Pairwise fun a b => key b < key a → R b a := h.imp fun hab => hab.2
    have hself : ∀ a ∈ xs, key a < key a → R a a := fun a _ hlt => absurd hlt (Nat.lt_irrefl _)
    have ha : a ∈ xs := List.mem_mergeSort.mp (hab.subset (by simp))
    have hb : b ∈ xs := List.mem_mergeSort.mp (hab.subset (by simp))
    exact hfront.forall_of_forall_of_flip hself hback ha hb hlt
  · have hboth := hab.filter (key · = key b)
    simp only [heq, decide_true, List.filter_cons_of_pos, List.filter_nil] at hboth
    rw [filter_mergeSort] at hboth
    exact (List.pairwise_iff_forall_sublist.mp h (hboth.trans List.filter_sublist)).1 (hsorted hab)

end Stable

variable {α : Type} (key : α → String)

/-- Sorting by keys that are all different gives a strictly increasing list. -/
lemma pairwise_lt_mergeSort {xs : List α} (h : (xs.map key).Nodup) :
    (xs.mergeSort fun a b => decide (key a ≤ key b)).Pairwise fun a b => key a < key b := by
  have hperm := List.mergeSort_perm xs fun a b => decide (key a ≤ key b)
  have hne := List.pairwise_map.mp ((hperm.map key).nodup_iff.mpr h)
  refine (pairwise_le_mergeSort key xs).imp₂ (fun a b hab hne => ?_) hne
  exact String.not_le.mp fun hba => hne (String.le_antisymm hab hba)

/-- Two strictly increasing lists of the same members are the same. -/
lemma eq_of_perm_of_pairwise_lt {xs ys : List α} (h : xs.Perm ys)
    (hx : xs.Pairwise fun a b => key a < key b) (hy : ys.Pairwise fun a b => key a < key b) :
    xs = ys := by
  refine List.Perm.eq_of_pairwise (fun a b _ _ hab hba => ?_) hx hy h
  exact absurd (String.lt_trans hab hba) (String.lt_irrefl _)

lemma nodup_of_pairwise_lt {xs : List α} (h : xs.Pairwise fun a b => key a < key b) :
    (xs.map key).Nodup :=
  List.pairwise_map.mpr (h.imp fun hab => String.ne_of_lt hab)

/-- Strictly increasing lists with the same members are the same. -/
lemma eq_of_pairwise_lt {xs ys : List α} (hx : xs.Pairwise fun a b => key a < key b)
    (hy : ys.Pairwise fun a b => key a < key b) (h : ∀ x, x ∈ xs ↔ x ∈ ys) : xs = ys := by
  have hnx : xs.Nodup := hx.imp fun hab => ne_of_apply_ne key (String.ne_of_lt hab)
  have hny : ys.Nodup := hy.imp fun hab => ne_of_apply_ne key (String.ne_of_lt hab)
  exact eq_of_perm_of_pairwise_lt key ((List.perm_ext_iff_of_nodup hnx hny).mpr h) hx hy

/-- Two strictly increasing lists that have the same members of a kind have them in the same
order. -/
lemma filter_eq_of_pairwise_lt {xs ys : List α} (hx : xs.Pairwise fun a b => key a < key b)
    (hy : ys.Pairwise fun a b => key a < key b) {keep : α → Bool}
    (h : ∀ x, keep x = true → (x ∈ xs ↔ x ∈ ys)) : xs.filter keep = ys.filter keep := by
  refine eq_of_pairwise_lt key (hx.filter keep) (hy.filter keep) ?_
  intro x
  rw [List.mem_filter, List.mem_filter]
  exact and_congr_left (h x)

/-- A strictly increasing list of the members that two others have in common keeps the order of the
first one. -/
lemma eq_filter_of_pairwise_lt [DecidableEq α] {xs ys zs : List α}
    (hx : xs.Pairwise fun a b => key a < key b) (hy : ys.Pairwise fun a b => key a < key b)
    (h : ∀ x, x ∈ xs ↔ x ∈ ys ∧ x ∈ zs) : xs = ys.filter (· ∈ zs) := by
  have hself : xs.filter (· ∈ zs) = xs := by
    refine List.filter_eq_self.mpr ?_
    intro x hmem
    exact decide_eq_true ((h x).mp hmem).2
  rw [← hself]
  refine filter_eq_of_pairwise_lt key hx hy ?_
  intro x hkeep
  rw [h]
  exact and_iff_left (of_decide_eq_true hkeep)

/-- Where the keys are all different, what is looked up by a key is the one member that has it. -/
lemma find?_eq_some_iff {xs : List α} (h : (xs.map key).Nodup) {k : String} {x : α} :
    (xs.find? fun y => key y == k) = some x ↔ x ∈ xs ∧ key x = k := by
  constructor
  · intro hx
    exact ⟨List.mem_of_find?_eq_some hx, by simpa using List.find?_some hx⟩
  · rintro ⟨hx, rfl⟩
    have hsome : (xs.find? fun y => key y == key x).isSome :=
      List.find?_isSome.mpr ⟨x, hx, by simp⟩
    obtain ⟨y, hy⟩ := Option.isSome_iff_exists.mp hsome
    have hkey : key y = key x := by simpa using List.find?_some hy
    rw [hy, List.inj_on_of_nodup_map h (List.mem_of_find?_eq_some hy) hx hkey]

end CoverageEstimate.Sorting

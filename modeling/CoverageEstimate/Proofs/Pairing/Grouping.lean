/-
# Tests by their names

The index of some tests keeps, under each name, the tests that have it, in the order of the scan and
with their positions there.  So the test that is found for a source is one of them.
-/
import CoverageEstimate.Pairing.Index
import Mathlib.Data.Nat.Notation
import Mathlib.Tactic.Lemma

namespace CoverageEstimate

namespace TestIndex

/-- Tests with their positions, the first of which is given. -/
def ranked (position : ℕ) (tests : List FileRecord) : List RankedTest :=
  (tests.zipIdx position).map Prod.swap

/-- Adding tests puts those of a name behind the tests that already have it. -/
lemma named_addAll (groups : List (String × List RankedTest)) (position : ℕ)
    (tests : List FileRecord) (n : String) :
    (TestIndex.mk (addAll groups position tests)).named n =
      (TestIndex.mk groups).named n ++ (ranked position tests).filter (·.2.fileName = n) := by
  induction tests generalizing groups position with
  | nil => simp [addAll, ranked]
  | cons test rest ih =>
    rw [addAll, ih, named_addTo]
    by_cases h : n = test.fileName
    · subst h
      simp [ranked]
    · simp [ranked, h, Ne.symm h]

/-- **The tests of a name** are those that have it, in their order. -/
lemma named_ofTests (tests : List FileRecord) (n : String) :
    (ofTests tests).named n = (ranked 0 tests).filter (·.2.fileName = n) := by
  rw [ofTests, named_addAll]
  rfl

lemma mem_of_mem_ranked {position : ℕ} {tests : List FileRecord} {t : RankedTest}
    (h : t ∈ ranked position tests) : t.2 ∈ tests := by
  obtain ⟨⟨test, i⟩, hmem, rfl⟩ := List.mem_map.mp h
  exact List.fst_mem_of_mem_zipIdx hmem

end TestIndex

/-- The best of some tests is one of them. -/
lemma mem_of_bestTest? {dirs : List String} {tests : List RankedTest} {best : RankedTest}
    (h : bestTest? dirs tests = some best) : best ∈ tests := by
  induction tests generalizing best with
  | nil => simp [bestTest?] at h
  | cons test rest ih =>
    rw [bestTest?] at h
    split at h
    · obtain rfl := Option.some.inj h
      exact List.mem_cons_self
    · rename_i other hother
      split at h
      · obtain rfl := Option.some.inj h
        exact List.mem_cons_of_mem _ (ih hother)
      · obtain rfl := Option.some.inj h
        exact List.mem_cons_self

/-- The test of a source is one of the tests of the scan. -/
lemma mem_of_find? {tests : List FileRecord} {source test : FileRecord}
    (h : (TestIndex.ofTests tests).find? source = some test) : test ∈ tests := by
  rw [TestIndex.find?] at h
  obtain ⟨best, hbest, rfl⟩ := Option.map_eq_some_iff.mp h
  obtain ⟨n, -, hmem⟩ := List.mem_flatMap.mp (mem_of_bestTest? hbest)
  rw [TestIndex.named_ofTests] at hmem
  exact TestIndex.mem_of_mem_ranked (List.mem_filter.mp hmem).1

end CoverageEstimate

/-
# The test of a source, without positions

The test of a source is looked for by names, in several groups of an index, and positions in the
scan break the ties.  None of that shows in what is found: it is the first test of the longest run
among the tests of the scan that have one of the expected names (`find?_eq_firstLongest`).

So the tests of other names do not matter at all, not even by the positions that they take up.

The best of some tests is characterised first: no other is better, and two such tests are the same
because positions are different.  It follows that the order in which the groups are searched does
not matter.
-/
import CoverageEstimate.Proofs.Pairing.Grouping
import Mathlib.Data.List.Nodup

namespace CoverageEstimate

/-- The first of the tests that share the longest run of directories. -/
def firstLongest (dirs : List String) : List FileRecord → Option FileRecord
  | [] => none
  | test :: rest =>
    match firstLongest dirs rest with
    | none => some test
    | some other =>
      if sharedTrailing dirs test.parentDirs < sharedTrailing dirs other.parentDirs then some other
      else some test

lemma mem_of_firstLongest {dirs : List String} {tests : List FileRecord} {test : FileRecord}
    (h : firstLongest dirs tests = some test) : test ∈ tests := by
  induction tests generalizing test with
  | nil => simp [firstLongest] at h
  | cons first rest ih =>
    rw [firstLongest] at h
    split at h
    · obtain rfl := Option.some.inj h
      exact List.mem_cons_self
    · rename_i other hother
      split at h
      · obtain rfl := Option.some.inj h
        exact List.mem_cons_of_mem _ (ih hother)
      · obtain rfl := Option.some.inj h
        exact List.mem_cons_self

/-! ## The best of some tests -/

section Best

variable {dirs : List String} {tests others : List RankedTest} {a b c : RankedTest}

lemma isBetterTest_iff : isBetterTest dirs a b = true ↔
    sharedTrailing dirs a.2.parentDirs < sharedTrailing dirs b.2.parentDirs ∨
      sharedTrailing dirs a.2.parentDirs = sharedTrailing dirs b.2.parentDirs ∧ b.1 < a.1 := by
  simp [isBetterTest]

lemma bestTest?_eq_none_iff : bestTest? dirs tests = none ↔ tests = [] := by
  cases tests with
  | nil => simp [bestTest?]
  | cons test rest =>
    rw [bestTest?]
    split
    · simp
    · split <;> simp

/-- No test is better than the best one. -/
lemma not_isBetterTest_of_bestTest? (h : bestTest? dirs tests = some b) :
    ∀ c ∈ tests, ¬isBetterTest dirs b c = true := by
  induction tests generalizing b with
  | nil => simp
  | cons test rest ih =>
    rw [bestTest?] at h
    split at h
    · rename_i hrest
      obtain rfl := Option.some.inj h
      rw [bestTest?_eq_none_iff.mp hrest]
      simp [isBetterTest_iff]
    · rename_i other hother
      have ih := ih hother
      split at h
      · rename_i hbetter
        obtain rfl := Option.some.inj h
        intro c hc
        rcases List.mem_cons.mp hc with rfl | hc
        · rw [isBetterTest_iff] at hbetter ⊢
          omega
        · exact ih c hc
      · rename_i hworse
        obtain rfl := Option.some.inj h
        intro c hc
        rcases List.mem_cons.mp hc with rfl | hc
        · rw [isBetterTest_iff]
          omega
        · -- what is not better than the best of the rest is not better than this one
          have hc := ih c hc
          rw [isBetterTest_iff] at hworse hc ⊢
          omega

/-- Of two tests of which neither is better, both have the same position. -/
lemma fst_eq_of_not_isBetterTest (hab : ¬isBetterTest dirs a b = true)
    (hba : ¬isBetterTest dirs b a = true) : a.1 = b.1 := by
  rw [isBetterTest_iff] at hab hba
  omega

/-- The best of some tests depends on which tests there are, and not on their order. -/
lemma bestTest?_congr (same : ∀ t, t ∈ tests ↔ t ∈ others)
    (positions : ∀ a ∈ tests, ∀ b ∈ tests, a.1 = b.1 → a = b) :
    bestTest? dirs tests = bestTest? dirs others := by
  cases ht : bestTest? dirs tests with
  | none =>
    rw [bestTest?_eq_none_iff] at ht
    subst ht
    have hothers : others = [] := List.eq_nil_iff_forall_not_mem.mpr fun t h => by
      simpa using (same t).mpr h
    exact (bestTest?_eq_none_iff.mpr hothers).symm
  | some a =>
    have ha := mem_of_bestTest? ht
    cases ho : bestTest? dirs others with
    | none =>
      rw [bestTest?_eq_none_iff] at ho
      subst ho
      simpa using (same a).mp ha
    | some b =>
      have hb := (same b).mpr (mem_of_bestTest? ho)
      have hab := not_isBetterTest_of_bestTest? ht b hb
      have hba := not_isBetterTest_of_bestTest? ho a ((same a).mp ha)
      rw [positions a ha b hb (fst_eq_of_not_isBetterTest hab hba)]

/-- Among tests in the order of their positions, the best one is the first of the longest run. -/
lemma map_bestTest?_eq_firstLongest (increasing : tests.Pairwise fun a b => a.1 < b.1) :
    (bestTest? dirs tests).map (·.2) = firstLongest dirs (tests.map (·.2)) := by
  induction tests with
  | nil => rfl
  | cons test rest ih =>
    obtain ⟨hfirst, hrest⟩ := List.pairwise_cons.mp increasing
    rw [List.map_cons, firstLongest, bestTest?, ← ih hrest]
    cases hother : bestTest? dirs rest with
    | none => rfl
    | some other =>
      -- the position of the other one is greater, so only a longer run makes it better
      have hlt := hfirst other (mem_of_bestTest? hother)
      have hiff : isBetterTest dirs test other = true ↔
          sharedTrailing dirs test.2.parentDirs < sharedTrailing dirs other.2.parentDirs := by
        rw [isBetterTest_iff]
        omega
      simp only [Option.map_some, hiff]
      split <;> rfl

end Best

/-! ## The index -/

/-- Taking the extension off a file name that ends in it leaves what stands before it. -/
lemma stem?_eq_of_fileName_eq {source : FileRecord} {stem : String}
    (h : source.fileName = stem ++ source.extension) : stem? source = some stem := by
  have hname : source.fileName.toList = stem.toList ++ source.extension.toList := by
    rw [h, String.toList_append]
  have hsuffix : source.extension.toList.isSuffixOf source.fileName.toList = true := by
    rw [List.isSuffixOf_iff_suffix, hname]
    exact List.suffix_append _ _
  simp only [stem?, hsuffix, if_true]
  rw [hname, List.length_append, Nat.add_sub_cancel, List.take_left, String.ofList_toList]

namespace TestIndex

lemma pairwise_ranked (position : ℕ) (tests : List FileRecord) :
    (ranked position tests).Pairwise fun a b => a.1 < b.1 := by
  induction tests generalizing position with
  | nil => exact .nil
  | cons test rest ih =>
    refine List.pairwise_cons.mpr ⟨fun t ht => ?_, ih (position + 1)⟩
    obtain ⟨⟨r, i⟩, hmem, rfl⟩ := List.mem_map.mp ht
    exact List.le_snd_of_mem_zipIdx hmem

lemma map_snd_ranked (position : ℕ) (tests : List FileRecord) :
    (ranked position tests).map (·.2) = tests := by
  simp [ranked, Function.comp_def]

/-- **The test of a source** is the first one of the longest run among those that have an expected
name. -/
lemma find?_eq_firstLongest (tests : List FileRecord) (source : FileRecord) :
    (ofTests tests).find? source =
      firstLongest source.parentDirs
        (tests.filter fun t => t.fileName ∈ expectedTestNames source) := by
  have hincreasing := (pairwise_ranked 0 tests).filter
    fun t => t.2.fileName ∈ expectedTestNames source
  have hkept :
      ((ranked 0 tests).filter fun t => t.2.fileName ∈ expectedTestNames source).map (·.2) =
      tests.filter fun t => t.fileName ∈ expectedTestNames source := by
    have hmap := congrArg (List.filter fun t => t.fileName ∈ expectedTestNames source)
      (map_snd_ranked 0 tests)
    rw [List.filter_map] at hmap
    exact hmap
  -- the groups together hold the tests that are kept, in some order
  have hsame : ∀ t, t ∈ (ranked 0 tests).filter (fun t => t.2.fileName ∈ expectedTestNames source) ↔
      t ∈ (expectedTestNames source).flatMap (ofTests tests).named := by
    intro t
    simp only [List.mem_flatMap, named_ofTests, List.mem_filter, decide_eq_true_eq]
    constructor
    · rintro ⟨hmem, hn⟩
      exact ⟨_, hn, hmem, rfl⟩
    · rintro ⟨n, hn, hmem, rfl⟩
      exact ⟨hmem, hn⟩
  have hpositions := List.inj_on_of_nodup_map
    (List.pairwise_map.mpr (hincreasing.imp fun h => Nat.ne_of_lt h))
  rw [find?, ← hkept, ← map_bestTest?_eq_firstLongest hincreasing]
  exact congrArg _ (bestTest?_congr hsame fun a ha b hb => hpositions ha hb).symm

end TestIndex

end CoverageEstimate

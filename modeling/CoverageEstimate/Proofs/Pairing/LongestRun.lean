/-
# The test of a source, by exhaustive search

The test of a source is looked for in an index, group by group.  Here all tests of a scan are gone
through instead, and what the index finds is said of the list alone: it is the candidate whose
directories end in the longest common run with those of the source, and of equal runs the one at the
smallest position, whichever of the expected names it has; and nothing is found just when no test
has an expected name.

A run of two lists of directories is taken as a list that both of them end in, so the lengths of the
runs that are compared are those of the longest ones (`isLongestRun_iff`).
-/
import CoverageEstimate.Proofs.Pairing.Selection
import Mathlib.Order.Bounds.Basic

namespace CoverageEstimate

/-! ## Common runs -/

/-- The longest list that both lists end in has `n` names. -/
def IsLongestRun (a b : List String) (n : ℕ) : Prop :=
  IsGreatest {n | ∃ run : List String, run.length = n ∧ run <:+ a ∧ run <:+ b} n

/-- Counting the pairs of equal names from the front gives the longest list that both lists start
with. -/
lemma isGreatest_takeWhile_zip (a b : List String) :
    IsGreatest {n | ∃ run : List String, run.length = n ∧ run <+: a ∧ run <+: b}
      ((a.zip b).takeWhile fun p => p.1 == p.2).length := by
  induction a generalizing b with
  | nil =>
    refine ⟨⟨[], rfl, List.prefix_rfl, List.nil_prefix⟩, ?_⟩
    rintro n ⟨run, rfl, hrun, -⟩
    simp [List.prefix_nil.mp hrun]
  | cons x xs ih =>
    cases b with
    | nil =>
      refine ⟨⟨[], rfl, List.nil_prefix, List.prefix_rfl⟩, ?_⟩
      rintro n ⟨run, rfl, -, hrun⟩
      simp [List.prefix_nil.mp hrun]
    | cons y ys =>
      obtain ⟨⟨rest, hlength, hxs, hys⟩, hgreatest⟩ := ih ys
      by_cases h : x = y
      · subst h
        have hcount : (((x :: xs).zip (x :: ys)).takeWhile fun p => p.1 == p.2).length =
            ((xs.zip ys).takeWhile fun p => p.1 == p.2).length + 1 := by
          simp
        rw [hcount]
        refine ⟨⟨x :: rest, by simp [hlength], ?_, ?_⟩, ?_⟩
        · exact (List.prefix_cons_inj x).mpr hxs
        · exact (List.prefix_cons_inj x).mpr hys
        · rintro n ⟨run, rfl, hx, hy⟩
          cases run with
          | nil => simp
          | cons z zs =>
            have hle := hgreatest ⟨zs, rfl, (List.cons_prefix_cons.mp hx).2,
              (List.cons_prefix_cons.mp hy).2⟩
            simpa using hle
      · have hcount : (((x :: xs).zip (y :: ys)).takeWhile fun p => p.1 == p.2).length = 0 := by
          simp [h]
        rw [hcount]
        refine ⟨⟨[], rfl, List.nil_prefix, List.nil_prefix⟩, ?_⟩
        rintro n ⟨run, rfl, hx, hy⟩
        cases run with
        | nil => exact le_rfl
        | cons z zs =>
          -- both lists would start with `z`
          have hzx := (List.cons_prefix_cons.mp hx).1
          have hzy := (List.cons_prefix_cons.mp hy).1
          exact absurd (hzx.symm.trans hzy) h

lemma isGreatest_sharedTrailing (a b : List String) : IsLongestRun a b (sharedTrailing a b) := by
  obtain ⟨⟨run, hlength, ha, hb⟩, hgreatest⟩ := isGreatest_takeWhile_zip a.reverse b.reverse
  refine ⟨⟨run.reverse, by rw [List.length_reverse, hlength, sharedTrailing], ?_, ?_⟩, ?_⟩
  · rwa [← List.reverse_prefix, List.reverse_reverse]
  · rwa [← List.reverse_prefix, List.reverse_reverse]
  · rintro n ⟨tail, rfl, htail, htail'⟩
    exact hgreatest ⟨tail.reverse, List.length_reverse, List.reverse_prefix.mpr htail,
      List.reverse_prefix.mpr htail'⟩

/-- Going through two lists from their ends as long as the names are equal gives the length of the
longest run. -/
lemma isLongestRun_iff {a b : List String} {n : ℕ} : IsLongestRun a b n ↔ n = sharedTrailing a b := by
  constructor
  · intro h
    exact h.unique (isGreatest_sharedTrailing a b)
  · rintro rfl
    exact isGreatest_sharedTrailing a b

/-! ## The test that wins -/

/-- Among the tests that have one of some names, the one at position `i` wins for a source in the
given directories: no other has a longer run in common with them, and none before it has one as
long. -/
structure IsWinner (tests : List FileRecord) (names dirs : List String) (i : ℕ)
    (test : FileRecord) : Prop where
  at_position : tests[i]? = some test
  name_mem : test.fileName ∈ names
  longest : ∀ other ∈ tests, other.fileName ∈ names → ∀ m n,
    IsLongestRun dirs other.parentDirs m → IsLongestRun dirs test.parentDirs n → m ≤ n
  first : ∀ (j : ℕ) (other : FileRecord), tests[j]? = some other → other.fileName ∈ names → ∀ n,
    IsLongestRun dirs other.parentDirs n → IsLongestRun dirs test.parentDirs n → i ≤ j

section Candidates

variable {tests : List FileRecord} {names dirs : List String}

lemma TestIndex.mem_ranked_iff {t : RankedTest} :
    t ∈ ranked 0 tests ↔ tests[t.1]? = some t.2 := by
  constructor
  · intro h
    obtain ⟨⟨test, i⟩, hmem, rfl⟩ := List.mem_map.mp h
    exact List.mem_zipIdx_iff_getElem?.mp hmem
  · intro h
    exact List.mem_map.mpr ⟨(t.2, t.1), List.mem_zipIdx_iff_getElem?.mpr h, rfl⟩

/-- The groups of some names together hold the tests that have one of them, with their positions in
the whole list. -/
lemma TestIndex.mem_flatMap_named_iff {t : RankedTest} :
    t ∈ names.flatMap (ofTests tests).named ↔ tests[t.1]? = some t.2 ∧ t.2.fileName ∈ names := by
  rw [List.mem_flatMap, ← mem_ranked_iff]
  simp only [named_ofTests, List.mem_filter, decide_eq_true_eq]
  constructor
  · rintro ⟨n, hn, hmem, rfl⟩
    exact ⟨hmem, hn⟩
  · rintro ⟨hmem, hn⟩
    exact ⟨_, hn, hmem, rfl⟩

/-- A test with its position wins just when it is a candidate and none is better. -/
lemma isWinner_iff {t : RankedTest} :
    IsWinner tests names dirs t.1 t.2 ↔
      t ∈ names.flatMap (TestIndex.ofTests tests).named ∧
        ∀ c ∈ names.flatMap (TestIndex.ofTests tests).named, ¬isBetterTest dirs t c = true := by
  simp only [TestIndex.mem_flatMap_named_iff, isBetterTest_iff]
  constructor
  · intro h
    refine ⟨⟨h.at_position, h.name_mem⟩, ?_⟩
    rintro c ⟨hc, hname⟩ (hlonger | ⟨hequal, hbefore⟩)
    · have := h.longest c.2 (List.mem_of_getElem? hc) hname _ _
        (isGreatest_sharedTrailing _ _) (isGreatest_sharedTrailing _ _)
      omega
    · have := h.first c.1 c.2 hc hname _ (isLongestRun_iff.mpr hequal)
        (isGreatest_sharedTrailing _ _)
      omega
  · rintro ⟨⟨hat, hname⟩, hbest⟩
    refine ⟨hat, hname, ?_, ?_⟩
    · intro other hother hn m n hm hn'
      obtain ⟨j, hj⟩ := List.mem_iff_getElem?.mp hother
      have hworse := hbest (j, other) ⟨hj, hn⟩
      rw [isLongestRun_iff] at hm hn'
      subst hm hn'
      by_contra hlt
      exact hworse (Or.inl (Nat.lt_of_not_le hlt))
    · intro j other hj hn n hother htest
      have hworse := hbest (j, other) ⟨hj, hn⟩
      rw [isLongestRun_iff] at hother htest
      by_contra hlt
      exact hworse (Or.inr ⟨htest.symm.trans hother, Nat.lt_of_not_le hlt⟩)

/-- The best of the candidates is the one that wins. -/
lemma bestTest?_eq_some_iff {t : RankedTest} :
    bestTest? dirs (names.flatMap (TestIndex.ofTests tests).named) = some t ↔
      IsWinner tests names dirs t.1 t.2 := by
  rw [isWinner_iff]
  constructor
  · intro h
    exact ⟨mem_of_bestTest? h, not_isBetterTest_of_bestTest? h⟩
  · rintro ⟨hmem, hbest⟩
    cases hb : bestTest? dirs (names.flatMap (TestIndex.ofTests tests).named) with
    | none =>
      rw [bestTest?_eq_none_iff.mp hb] at hmem
      exact absurd hmem List.not_mem_nil
    | some b =>
      -- neither of the two is better, so they stand at the same position of the list
      have hbmem := mem_of_bestTest? hb
      have hposition : t.1 = b.1 :=
        fst_eq_of_not_isBetterTest (hbest b hbmem) (not_isBetterTest_of_bestTest? hb t hmem)
      have hat := (TestIndex.mem_flatMap_named_iff.mp hmem).1
      have hat' := (TestIndex.mem_flatMap_named_iff.mp hbmem).1
      rw [hposition, hat'] at hat
      exact congrArg some (Prod.ext hposition.symm (Option.some.inj hat))

end Candidates

/-- **The index agrees with a search through all tests.**  For a source of a language whose file
name ends in its extension, it finds nothing just when no test has a name that the language expects,
and it finds a test just when that wins among those that have one of these names. -/
theorem find?_iff_isWinner (tests : List FileRecord) {source : FileRecord} {l : Language}
    {stem : String} (language : source.language? = some l)
    (name : source.fileName = stem ++ source.extension) :
    ((TestIndex.ofTests tests).find? source = none ↔
      ∀ test ∈ tests, test.fileName ∉ l.testFileNames stem source.extension) ∧
    ∀ test, (TestIndex.ofTests tests).find? source = some test ↔
      ∃ i, IsWinner tests (l.testFileNames stem source.extension) source.parentDirs i test := by
  have hnames : expectedTestNames source = l.testFileNames stem source.extension := by
    rw [expectedTestNames, language, stem?_eq_of_fileName_eq name]
  simp only [TestIndex.find?, hnames, Option.map_eq_none_iff, Option.map_eq_some_iff,
    bestTest?_eq_none_iff, bestTest?_eq_some_iff]
  constructor
  · rw [List.eq_nil_iff_forall_not_mem]
    simp only [TestIndex.mem_flatMap_named_iff, not_and]
    constructor
    · intro h test htest
      obtain ⟨i, hi⟩ := List.mem_iff_getElem?.mp htest
      exact h (i, test) hi
    · intro h t ht
      exact h t.2 (List.mem_of_getElem? ht)
  · intro test
    constructor
    · rintro ⟨t, ht, rfl⟩
      exact ⟨t.1, ht⟩
    · rintro ⟨i, hi⟩
      exact ⟨(i, test), hi, rfl⟩

/-- Tests of one source in several places, under both names that it expects.  The second and the third
of them are as near to it as each other. -/
def scatteredTests : List FileRecord :=
  [⟨"a/user.spec.ts", 1, ".ts"⟩, ⟨"test/models/user.test.ts", 1, ".ts"⟩,
    ⟨"spec/models/user.spec.ts", 1, ".ts"⟩, ⟨"lib/models/api/user.spec.ts", 1, ".ts"⟩,
    ⟨"lib/models/other.spec.ts", 1, ".ts"⟩]

/-- A test of the second name wins by its position against one of the first name. -/
theorem find?_scatteredTests :
    let source : FileRecord := ⟨"lib/models/user.ts", 1, ".ts"⟩
    let winner : FileRecord := ⟨"test/models/user.test.ts", 1, ".ts"⟩
    source.language? = some .typeScript ∧ source.fileName = "user" ++ source.extension ∧
      (TestIndex.ofTests scatteredTests).find? source = some winner ∧
      ∃ i, IsWinner scatteredTests (Language.typeScript.testFileNames "user" ".ts")
        source.parentDirs i winner := by
  have hfound : (TestIndex.ofTests scatteredTests).find? ⟨"lib/models/user.ts", 1, ".ts"⟩ =
      some ⟨"test/models/user.test.ts", 1, ".ts"⟩ := by decide
  exact ⟨by decide, by decide, hfound,
    ((find?_iff_isWinner scatteredTests (by decide) (by decide)).2 _).mp hfound⟩

end CoverageEstimate

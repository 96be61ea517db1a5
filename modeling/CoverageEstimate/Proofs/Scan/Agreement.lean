/-
# Scans of trees that agree but for one file

Two trees that agree on everything but one file have the same files elsewhere.  So a scan of one
finds the same records as a scan of the other, but for those of that file, and the text of each of
them is the same.

A record does not say where its file stands, only the path.  `IsElsewhere` rules out that this is
the one place: it is the condition under which a record is the same in both scans.
-/
import CoverageEstimate.Proofs.FileSystem.Agreement
import CoverageEstimate.Proofs.Scan.Pruning

namespace CoverageEstimate.Scan

/-- The record is not the one of the file at a place. -/
def IsElsewhere (exclusions : Exclusions) (place : List String) (r : FileRecord) : Prop :=
  ∀ other, Stays exclusions other → (Language.ofPath? (pathTo other)).isSome →
    r.relativePath = pathTo other → other ≠ place

lemma isElsewhere_of_ne {exclusions : Exclusions} {place : List String} {r : FileRecord}
    (h : r.relativePath ≠ pathTo place) : IsElsewhere exclusions place r := by
  rintro other - - hpath rfl
  exact h hpath

lemma mem_sourceFiles_unpruned_iff {exclusions : Exclusions} {n : String} {es : List Entry}
    (h : (Entry.directory n es).IsTree) {r : FileRecord} :
    r ∈ (unpruned exclusions es).sourceFiles ↔
      IsReported exclusions (.directory n es) r ∧ isTest r = false := by
  rw [unpruned, mem_sourceFiles_resultOf, mem_filterMap_recordOf?_iff h]

lemma mem_testFiles_unpruned_iff {exclusions : Exclusions} {n : String} {es : List Entry}
    (h : (Entry.directory n es).IsTree) {r : FileRecord} :
    r ∈ (unpruned exclusions es).testFiles ↔
      IsReported exclusions (.directory n es) r ∧ isTest r = true := by
  rw [unpruned, mem_testFiles_resultOf, mem_filterMap_recordOf?_iff h]

/-- Sources and tests are all that the walk without pruning leaves. -/
lemma perm_unpruned (exclusions : Exclusions) (es : List Entry) :
    ((unpruned exclusions es).sourceFiles ++ (unpruned exclusions es).testFiles).Perm
      ((filesInAll [] es).filterMap (recordOf? exclusions)) := by
  refine (List.Perm.append (List.mergeSort_perm _ _) (List.mergeSort_perm _ _)).trans ?_
  exact List.perm_append_comm.trans (List.filter_append_perm isTest _)

/-- Whether a record names a test depends on its path alone. -/
lemma isTest_congr {r s : FileRecord} (h : r.relativePath = s.relativePath) :
    isTest r = isTest s := by
  rw [isTest, isTest, h]

section Agreement

variable {a b : FileSystem} {exclusions : Exclusions} {top place : List String} {m n : String}
  {es fs : List Entry} {r : FileRecord}

/-- A file that one scan has to report elsewhere is one that the other has to report. -/
lemma isReported_of_agreeBut (agree : a.AgreeBut (top ++ place) b)
    (ha : a.root.at? top = some (.directory m es)) (hb : b.root.at? top = some (.directory n fs))
    (hr : IsReported exclusions (.directory m es) r) (elsewhere : IsElsewhere exclusions place r) :
    IsReported exclusions (.directory n fs) r := by
  obtain ⟨other, name, content, extension, hat, hstays, hl, he, rfl⟩ := hr
  have hne : top ++ other ≠ top ++ place := by
    intro heq
    exact elsewhere other hstays hl rfl (List.append_cancel_left heq)
  have hother : a.root.at? (top ++ other) = some (.file name content) := by
    rw [Entry.at?_append, ha]
    exact hat
  have hsame := agree.at?_eq hne hother rfl
  rw [Entry.at?_append, hb] at hsame
  exact ⟨other, name, content, extension, hsame, hstays, hl, he, rfl⟩

lemma isReported_iff_of_agreeBut (agree : a.AgreeBut (top ++ place) b)
    (ha : a.root.at? top = some (.directory m es)) (hb : b.root.at? top = some (.directory n fs))
    (elsewhere : IsElsewhere exclusions place r) :
    IsReported exclusions (.directory m es) r ↔ IsReported exclusions (.directory n fs) r :=
  ⟨fun hr => isReported_of_agreeBut agree ha hb hr elsewhere,
    fun hr => isReported_of_agreeBut agree.symm hb ha hr elsewhere⟩

/-- The text of a file that stands elsewhere is the same in both. -/
lemma readText_of_agreeBut (tree : a.IsTree) (agree : a.AgreeBut (top ++ place) b) {root : String}
    (hroot : a.realPlace root = .ok top) (ha : a.root.at? top = some (.directory m es))
    (hr : IsReported exclusions (.directory m es) r) (elsewhere : IsElsewhere exclusions place r)
    {text : String} (ht : a.readText (Path.join root r.relativePath) = .ok text) :
    b.readText (Path.join root r.relativePath) = .ok text := by
  obtain ⟨other, name, content, extension, hat, hstays, hl, he, rfl⟩ := hr
  have hne := elsewhere other hstays hl rfl
  have hother : a.root.at? (top ++ other) = some (.file name content) := by
    rw [Entry.at?_append, ha]
    exact hat
  have hnames := (tree.at? ha).isName_of_mem hat
  rcases List.eq_nil_or_concat other with rfl | ⟨dirs, k, rfl⟩
  · exact absurd hat (by simp [Entry.at?])
  · rw [List.concat_eq_append] at hnames hstays hother hne ht ⊢
    refine agree.readText ht fun q hq hfile => ?_
    -- the path leads to the file that the record is of, and that is another one
    have hvisible := hstays.visible
    rw [List.dropLast_concat] at hvisible
    rw [FileSystem.eq_append_of_realPlace hroot hnames hvisible (by rwa [List.append_assoc])
      (by simp) hq hfile, List.append_assoc]
    exact fun heq => hne (List.append_cancel_left heq)

/-- The text of a file that stands elsewhere can be read in both, and is the same, or in none. -/
lemma toOption_readText_of_agreeBut (treeA : a.IsTree) (treeB : b.IsTree)
    (agree : a.AgreeBut (top ++ place) b) {root : String} (hrootA : a.realPlace root = .ok top)
    (hrootB : b.realPlace root = .ok top) (ha : a.root.at? top = some (.directory m es))
    (hb : b.root.at? top = some (.directory n fs))
    (hr : IsReported exclusions (.directory m es) r) (elsewhere : IsElsewhere exclusions place r) :
    (a.readText (Path.join root r.relativePath)).toOption =
      (b.readText (Path.join root r.relativePath)).toOption := by
  have hsame := isReported_of_agreeBut agree ha hb hr elsewhere
  cases hta : a.readText (Path.join root r.relativePath) with
  | ok text => rw [readText_of_agreeBut treeA agree hrootA ha hr elsewhere hta]
  | error e =>
    cases htb : b.readText (Path.join root r.relativePath) with
    | error e => rfl
    | ok text =>
      rw [readText_of_agreeBut treeB agree.symm hrootB hb hsame elsewhere htb] at hta
      exact absurd hta (by simp)

/-- The sources that stand elsewhere are the same in both scans. -/
lemma filter_sourceFiles_of_agreeBut (treeA : a.IsTree) (treeB : b.IsTree)
    (agree : a.AgreeBut (top ++ place) b) (ha : a.root.at? top = some (.directory m es))
    (hb : b.root.at? top = some (.directory n fs)) (keep : FileRecord → Bool)
    (elsewhere : ∀ r, isTest r = false → keep r = true → IsElsewhere exclusions place r) :
    (unpruned exclusions es).sourceFiles.filter keep =
      (unpruned exclusions fs).sourceFiles.filter keep := by
  have hta := treeA.at? ha
  have htb := treeB.at? hb
  refine Sorting.filter_eq_of_pairwise_lt _ (pairwise_unpruned exclusions hta).1
    (pairwise_unpruned exclusions htb).1 fun r hkeep => ?_
  rw [mem_sourceFiles_unpruned_iff hta, mem_sourceFiles_unpruned_iff htb]
  exact and_congr_left fun htest =>
    isReported_iff_of_agreeBut agree ha hb (elsewhere r htest hkeep)

/-- The tests that stand elsewhere are the same in both scans. -/
lemma filter_testFiles_of_agreeBut (treeA : a.IsTree) (treeB : b.IsTree)
    (agree : a.AgreeBut (top ++ place) b) (ha : a.root.at? top = some (.directory m es))
    (hb : b.root.at? top = some (.directory n fs)) (keep : FileRecord → Bool)
    (elsewhere : ∀ r, isTest r = true → keep r = true → IsElsewhere exclusions place r) :
    (unpruned exclusions es).testFiles.filter keep =
      (unpruned exclusions fs).testFiles.filter keep := by
  have hta := treeA.at? ha
  have htb := treeB.at? hb
  refine Sorting.filter_eq_of_pairwise_lt _ (pairwise_unpruned exclusions hta).2
    (pairwise_unpruned exclusions htb).2 fun r hkeep => ?_
  rw [mem_testFiles_unpruned_iff hta, mem_testFiles_unpruned_iff htb]
  exact and_congr_left fun htest =>
    isReported_iff_of_agreeBut agree ha hb (elsewhere r htest hkeep)

end Agreement

end CoverageEstimate.Scan

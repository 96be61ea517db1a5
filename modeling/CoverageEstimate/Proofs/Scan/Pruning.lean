/-
# Pruning leaves out nothing else

A scan does not enter a directory that is left out.  This file compares it with the walk that
enters every directory and only then looks at the files one by one: a file stays if it is of a
supported language and holds more than type declarations, no directory on the way to it is hidden
or closed, and no exclusion matches its path or the path of a directory on the way.

The two agree on every tree.  The invariant of the walk is `IsEntered`: when it is in a directory,
nothing on the way there is left out.
-/
import CoverageEstimate.Proofs.Scan.Places
import CoverageEstimate.Proofs.Sorting

namespace CoverageEstimate.Scan

open Entry (IsName IsTree)

/-- The walk enters the directory at a place: on the way there, no directory is hidden or closed,
and no exclusion matches. -/
structure IsEntered (exclusions : Exclusions) (dirs : List String) : Prop where
  visible : ∀ d ∈ dirs, d.toList.head? ≠ some '.'
  not_closed : ∀ d ∈ dirs, d ∉ closedDirectories
  not_excluded : ∀ front, front ≠ [] → front <+: dirs → exclusions.excludes (pathTo front) = false

/-- The file at a place stays in the result, as far as names and exclusions are concerned. -/
structure Stays (exclusions : Exclusions) (place : List String) : Prop where
  visible : ∀ d ∈ place.dropLast, d.toList.head? ≠ some '.'
  not_closed : ∀ d ∈ place.dropLast, d ∉ closedDirectories
  not_declarations : ¬".d.ts".toList <:+ Language.lowered (place.getLastD "")
  not_excluded : ∀ front, front ≠ [] → front <+: place → exclusions.excludes (pathTo front) = false

lemma isClosedDirectory_eq_false_iff {n : String} :
    isClosedDirectory n = false ↔ n.toList.head? ≠ some '.' ∧ n ∉ closedDirectories := by
  simp [isClosedDirectory]

lemma isTypeDeclaration_eq_false_iff {n : String} :
    isTypeDeclaration n = false ↔ ¬".d.ts".toList <:+ Language.lowered n := by
  rw [isTypeDeclaration, ← Bool.not_eq_true, List.isSuffixOf_iff_suffix]

/-- The walk enters the directories of a directory that are not left out, and no others. -/
lemma isEntered_append_singleton_iff {exclusions : Exclusions} {dirs : List String}
    (h : IsEntered exclusions dirs) (n : String) (es : List Entry) :
    IsEntered exclusions (dirs ++ [n]) ↔
      isLeftOut exclusions (pathTo (dirs ++ [n])) (.directory n es) = false := by
  rw [isLeftOut, Bool.or_eq_false_iff]
  simp only [Entry.isDirectory, Entry.name, if_true, isClosedDirectory_eq_false_iff]
  constructor
  · intro hn
    exact ⟨⟨hn.visible n (by simp), hn.not_closed n (by simp)⟩,
      hn.not_excluded _ (by simp) List.prefix_rfl⟩
  · rintro ⟨⟨hv, hc⟩, hx⟩
    refine ⟨fun d hd => ?_, fun d hd => ?_, fun front hne hf => ?_⟩
    · rcases List.mem_append.mp hd with hd | hd
      · exact h.visible d hd
      · exact List.mem_singleton.mp hd ▸ hv
    · rcases List.mem_append.mp hd with hd | hd
      · exact h.not_closed d hd
      · exact List.mem_singleton.mp hd ▸ hc
    · rcases List.prefix_concat_iff.mp hf with rfl | hf
      · exact hx
      · exact h.not_excluded front hne hf

/-- In a directory that the walk enters, the files stay that are not left out, and no others. -/
lemma stays_append_singleton_iff {exclusions : Exclusions} {dirs : List String}
    (h : IsEntered exclusions dirs) (n : String) (content : List UInt8) :
    Stays exclusions (dirs ++ [n]) ↔
      isLeftOut exclusions (pathTo (dirs ++ [n])) (.file n content) = false := by
  rw [isLeftOut, Bool.or_eq_false_iff]
  simp only [Entry.isDirectory, Entry.name, Bool.false_eq_true, if_false,
    isTypeDeclaration_eq_false_iff]
  constructor
  · intro hs
    refine ⟨by simpa using hs.not_declarations, hs.not_excluded _ (by simp) List.prefix_rfl⟩
  · rintro ⟨hd, hx⟩
    refine ⟨by simpa using h.visible, by simpa using h.not_closed, by simpa using hd,
      fun front hne hf => ?_⟩
    rcases List.prefix_concat_iff.mp hf with rfl | hf
    · exact hx
    · exact h.not_excluded front hne hf

/-- A file stays only if the walk enters all directories on the way to it. -/
lemma Stays.isEntered {exclusions : Exclusions} {place dirs : List String} {n : String}
    (h : Stays exclusions place) (hp : dirs ++ [n] <+: place) : IsEntered exclusions dirs := by
  have hd : dirs <+: place.dropLast := by
    obtain ⟨rest, rfl⟩ := hp
    rw [List.append_assoc, List.dropLast_append_of_ne_nil (by simp)]
    exact List.prefix_append _ _
  refine ⟨fun d hmem => h.visible d (hd.subset hmem), fun d hmem => h.not_closed d (hd.subset hmem),
    fun front hne hf => h.not_excluded front hne (hf.trans ((List.prefix_append _ _).trans hp))⟩

instance (exclusions : Exclusions) (place : List String) : Decidable (Stays exclusions place) :=
  decidable_of_iff
    ((∀ d ∈ place.dropLast, d.toList.head? ≠ some '.') ∧
      (∀ d ∈ place.dropLast, d ∉ closedDirectories) ∧
      ¬".d.ts".toList <:+ Language.lowered (place.getLastD "") ∧
      ∀ front ∈ place.inits, front ≠ [] → exclusions.excludes (pathTo front) = false)
    ⟨fun ⟨hv, hc, hd, hx⟩ => ⟨hv, hc, hd, fun front hne hf =>
        hx front ((List.mem_inits front place).mpr hf) hne⟩,
      fun h => ⟨h.visible, h.not_closed, h.not_declarations, fun front hf hne =>
        h.not_excluded front hne ((List.mem_inits front place).mp hf)⟩⟩

/-! ## The two walks -/

/-- The record of a file, if it stays and is of a supported language. -/
def recordOf? (exclusions : Exclusions) (f : PlacedFile) : Option FileRecord :=
  if Stays exclusions f.place then record? (pathTo f.place) f.content else none

/-- **The walk that prunes and the walk that does not.**  At and below an entry of a directory that
the walk enters, pruning leaves the records of the files that stay. -/
lemma recordsOf_eq_filterMap {exclusions : Exclusions} {e : Entry} (h : e.IsTree)
    {front : List String} (names : ∀ d ∈ front, IsName d) (name : IsName e.name)
    (entered : IsEntered exclusions front) :
    recordsOf exclusions (pathTo front) e = (filesIn front e).filterMap (recordOf? exclusions) := by
  induction h generalizing front with
  | file n content =>
    have hs := stays_append_singleton_iff entered n content
    rw [recordsOf, filesIn, pathIn_pathTo names, List.filterMap_cons, List.filterMap_nil]
    by_cases hout : isLeftOut exclusions (pathTo (front ++ [n])) (.file n content) = true
    · have hn : ¬Stays exclusions (front ++ [n]) := fun h => absurd (hs.mp h) (by simp [hout])
      rw [if_pos hout, recordOf?, if_neg hn]
    · rw [if_neg hout, recordOf?, if_pos (hs.mpr (Bool.not_eq_true _ ▸ hout))]
      cases record? (pathTo (front ++ [n])) content <;> rfl
  | link n target => rfl
  | @directory n es distinct entryNames trees ih =>
    rw [recordsOf, filesIn, pathIn_pathTo names]
    have hs := isEntered_append_singleton_iff entered n es
    by_cases hout : isLeftOut exclusions (pathTo (front ++ [n])) (.directory n es) = true
    · -- no file below a directory that is left out would stay
      rw [if_pos hout, eq_comm, List.filterMap_eq_nil_iff]
      intro f hf
      rw [recordOf?, if_neg]
      intro hstays
      rw [filesInAll_eq_flatMap] at hf
      obtain ⟨inner, hinner, hf⟩ := List.mem_flatMap.mp hf
      have hp := prefix_of_mem_filesIn (trees inner hinner) hf
      exact absurd (hs.mp (hstays.isEntered hp)) (by simp [hout])
    · -- the walk enters the directory, and the invariant holds for what it holds
      rw [if_neg hout, recordsOfAll_eq_flatMap, filesInAll_eq_flatMap, List.filterMap_flatMap]
      have hentered := hs.mpr (Bool.not_eq_true _ ▸ hout)
      have hnames : ∀ d ∈ front ++ [n], IsName d := by
        intro d hd
        rcases List.mem_append.mp hd with hd | hd
        · exact names d hd
        · exact List.mem_singleton.mp hd ▸ name
      refine List.flatMap_congr fun inner hinner => ?_
      exact ih inner hinner hnames (entryNames inner hinner) hentered

/-- What a scan without pruning finds: all files are visited, and then the ones that stay are
taken. -/
def unpruned (exclusions : Exclusions) (es : List Entry) : ScanResult :=
  resultOf ((filesInAll [] es).filterMap (recordOf? exclusions))

lemma isEntered_nil (exclusions : Exclusions) : IsEntered exclusions [] where
  visible := by simp
  not_closed := by simp
  not_excluded front hne hf := absurd (List.prefix_nil.mp hf) hne

lemma entries_eq_unpruned {exclusions : Exclusions} {n : String} {es : List Entry}
    (h : (Entry.directory n es).IsTree) : entries exclusions es = unpruned exclusions es := by
  cases h with
  | directory _ distinct names trees =>
    have hpath : "" = pathTo [] := rfl
    rw [entries, unpruned, recordsOfAll_eq_flatMap, filesInAll_eq_flatMap, List.filterMap_flatMap,
      hpath]
    refine congrArg resultOf (List.flatMap_congr fun e he => ?_)
    exact recordsOf_eq_filterMap (trees e he) (by simp) (names e he) (isEntered_nil exclusions)

/-- The scan of a directory that is a tree finds what the walk without pruning leaves. -/
lemma scan_eq_of_found {fs : FileSystem} {n : String} {es : List Entry}
    (h : (Entry.directory n es).IsTree) (exclusions : Exclusions) {root : String}
    (found : fs.entry root = .ok (.directory n es)) :
    fs.scan exclusions root = .ok (unpruned exclusions es) := by
  rw [FileSystem.scan, found]
  exact congrArg Except.ok (entries_eq_unpruned h)

/-! ## What is reported -/

lemma record?_eq_some_iff {path : String} {content : List UInt8} {r : FileRecord} :
    record? path content = some r ↔ ∃ extension, Path.extension? path = some extension ∧
      (Language.ofPath? path).isSome ∧ r = ⟨path, content.length, "." ++ extension⟩ := by
  rw [record?]
  cases Path.extension? path with
  | none => simp
  | some extension =>
    by_cases hl : (Language.ofPath? path).isSome
    · simp [hl, eq_comm]
    · simp [hl]

/-- What a scan has to report below a directory: a file that is reached without a link, is of a
supported language and stays. -/
def IsReported (exclusions : Exclusions) (top : Entry) (r : FileRecord) : Prop :=
  ∃ place name content extension, top.at? place = some (.file name content) ∧
    Stays exclusions place ∧ (Language.ofPath? (pathTo place)).isSome ∧
    Path.extension? (pathTo place) = some extension ∧
    r = ⟨pathTo place, content.length, "." ++ extension⟩

lemma mem_filterMap_recordOf?_iff {exclusions : Exclusions} {n : String} {es : List Entry}
    (h : (Entry.directory n es).IsTree) {r : FileRecord} :
    r ∈ (filesInAll [] es).filterMap (recordOf? exclusions) ↔
      IsReported exclusions (.directory n es) r := by
  rw [List.mem_filterMap]
  constructor
  · rintro ⟨f, hf, hr⟩
    obtain ⟨m, hat⟩ := (mem_filesInAll_iff h).mp hf
    rw [recordOf?] at hr
    split at hr
    · rename_i hstays
      obtain ⟨extension, he, hl, rfl⟩ := record?_eq_some_iff.mp hr
      exact ⟨f.place, m, f.content, extension, hat, hstays, hl, he, rfl⟩
    · simp at hr
  · rintro ⟨place, m, content, extension, hat, hstays, hl, he, rfl⟩
    refine ⟨⟨place, content⟩, (mem_filesInAll_iff h).mpr ⟨m, hat⟩, ?_⟩
    rw [recordOf?, if_pos hstays]
    exact record?_eq_some_iff.mpr ⟨extension, he, hl, rfl⟩

lemma relativePath_of_recordOf? {exclusions : Exclusions} {f : PlacedFile} {r : FileRecord}
    (h : recordOf? exclusions f = some r) : r.relativePath = pathTo f.place := by
  rw [recordOf?] at h
  split at h
  · obtain ⟨extension, -, -, rfl⟩ := record?_eq_some_iff.mp h
    rfl
  · simp at h

/-- No two records of the walk have the same path. -/
lemma nodup_relativePath {exclusions : Exclusions} {n : String} {es : List Entry}
    (h : (Entry.directory n es).IsTree) :
    (((filesInAll [] es).filterMap (recordOf? exclusions)).map (·.relativePath)).Nodup := by
  cases h with
  | directory _ distinct names trees =>
    have hnodup := nodup_filesInAll distinct trees fun e he => nodup_filesIn (trees e he) []
    have hnames : ∀ f ∈ filesInAll [] es, f.place ≠ [] ∧ ∀ n ∈ f.place, IsName n := by
      intro f hf
      rw [filesInAll_eq_flatMap] at hf
      obtain ⟨e, he, hf⟩ := List.mem_flatMap.mp hf
      refine ⟨fun hnil => ?_, isName_of_mem_filesIn (trees e he) (by simp) (names e he) hf⟩
      have hp := prefix_of_mem_filesIn (trees e he) hf
      rw [hnil] at hp
      exact absurd (List.prefix_nil.mp hp) (by simp)
    -- different places have different paths, because names hold no slashes
    have hpaths : (filesInAll [] es).Pairwise fun a b => pathTo a.place ≠ pathTo b.place := by
      refine (List.pairwise_map.mp hnodup).imp_of_mem fun {a b} ha hb hab heq => hab ?_
      obtain ⟨hna, hsa⟩ := hnames a ha
      obtain ⟨hnb, hsb⟩ := hnames b hb
      exact pathTo_injective hna hnb hsa hsb heq
    refine List.pairwise_map.mpr (hpaths.filterMap _ fun a b hab r hr s hs => ?_)
    rw [relativePath_of_recordOf? hr, relativePath_of_recordOf? hs]
    exact hab

/-- The path of a record names a test of the language of the file. -/
def NamesTest (r : FileRecord) : Prop :=
  ∃ language, Language.ofPath? r.relativePath = some language ∧ isTestPath r.relativePath language

lemma isTest_iff {r : FileRecord} : isTest r = true ↔ NamesTest r := by
  rw [isTest, NamesTest]
  cases Language.ofPath? r.relativePath <;> simp

lemma pairwise_sorted_filter {records : List FileRecord} (p : FileRecord → Bool)
    (h : (records.map (·.relativePath)).Nodup) :
    (sorted (records.filter p)).Pairwise fun a b => a.relativePath < b.relativePath :=
  Sorting.pairwise_lt_mergeSort _ (h.sublist (List.filter_sublist.map _))

/-- The files of a scan of a tree are in strictly increasing order, and so are its tests. -/
lemma pairwise_unpruned (exclusions : Exclusions) {n : String} {es : List Entry}
    (h : (Entry.directory n es).IsTree) :
    ((unpruned exclusions es).sourceFiles.Pairwise fun a b => a.relativePath < b.relativePath) ∧
      (unpruned exclusions es).testFiles.Pairwise fun a b => a.relativePath < b.relativePath :=
  ⟨pairwise_sorted_filter _ (nodup_relativePath h), pairwise_sorted_filter _ (nodup_relativePath h)⟩

/-- **A scan that prunes** finds on every tree what the scan finds that visits all files and takes
those that stay.  So a file is reported exactly when it is reached without a link, is of a supported
language and stays; it is a test exactly when its path names one, and a source otherwise; and
sources and tests are in strictly increasing order of their paths. -/
theorem scan_eq_unpruned {fs : FileSystem} (tree : fs.IsTree) (exclusions : Exclusions)
    {root name : String} {es : List Entry} (found : fs.entry root = .ok (.directory name es)) :
    fs.scan exclusions root = .ok (unpruned exclusions es) ∧
      (∀ r, r ∈ (unpruned exclusions es).sourceFiles ↔
        IsReported exclusions (.directory name es) r ∧ ¬NamesTest r) ∧
      (∀ r, r ∈ (unpruned exclusions es).testFiles ↔
        IsReported exclusions (.directory name es) r ∧ NamesTest r) ∧
      ((unpruned exclusions es).sourceFiles.Pairwise fun a b => a.relativePath < b.relativePath) ∧
      (unpruned exclusions es).testFiles.Pairwise fun a b => a.relativePath < b.relativePath := by
  have htop := tree.entry found
  refine ⟨scan_eq_of_found htop exclusions found, fun r => ?_, fun r => ?_,
    pairwise_unpruned exclusions htop⟩
  · rw [unpruned, mem_sourceFiles_resultOf, mem_filterMap_recordOf?_iff htop, ← isTest_iff,
      Bool.not_eq_true]
  · rw [unpruned, mem_testFiles_resultOf, mem_filterMap_recordOf?_iff htop, isTest_iff]

/-- A directory with a hidden directory, a closed one and one to be excluded, a link and a file of
type declarations. -/
def sampleEntries : List Entry :=
  [.directory ".git" [.file "hook.ts" []],
    .directory "build" [.directory "lib" [.file "made.dart" []]],
    .directory "lib" [.file "a.dart" [], .file "types.d.ts" [], .link "b.dart" "a.dart",
      .directory "gen" [.file "c.dart" []]],
    .directory "test" [.file "a_test.dart" []]]

/-- The directory as the project of a file system. -/
def sampleFiles : FileSystem := ⟨[.directory "app" sampleEntries], "/"⟩

/-- The exclusion of one directory. -/
def sampleExclusions : Exclusions := ["lib/gen".toList.map GlobToken.literal]

/-- Of the files of the sample, one source and one test stay. -/
theorem scan_sampleFiles :
    sampleFiles.IsTree ∧ sampleFiles.entry "/app" = .ok (.directory "app" sampleEntries) ∧
      sampleFiles.scan sampleExclusions "/app" =
        .ok ⟨[⟨"lib/a.dart", 0, ".dart"⟩], [⟨"test/a_test.dart", 0, ".dart"⟩]⟩ ∧
      IsReported sampleExclusions (.directory "app" sampleEntries) ⟨"lib/a.dart", 0, ".dart"⟩ := by
  have tree : sampleFiles.IsTree := by decide
  have found := FileSystem.entry_app sampleEntries
  have hresult : unpruned sampleExclusions sampleEntries =
      ⟨[⟨"lib/a.dart", 0, ".dart"⟩], [⟨"test/a_test.dart", 0, ".dart"⟩]⟩ := by decide +kernel
  obtain ⟨hscan, hsources, -⟩ := scan_eq_unpruned tree sampleExclusions found
  rw [hresult] at hscan hsources
  exact ⟨tree, found, hscan, ((hsources _).mp (by simp)).1⟩

end CoverageEstimate.Scan

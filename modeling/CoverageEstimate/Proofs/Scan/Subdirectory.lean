/-
# Scans of a directory of the project

A scan may start further down, in a directory of the project.  Its paths are shorter then, and the
directories around are no longer seen.  If a scan of the project enters the directory, the two find
the same files there: whether a file stays depends on the names on the way to it, and those of the
directory itself let it through (`stays_append_iff`).

What the shorter paths may lose is a directory of tests.  So a test of the project may be a source
of the scan below, but only if there is such a directory on the way down (`isTest_below`).
-/
import CoverageEstimate.Proofs.Pairing.Naming

namespace CoverageEstimate

/-! ## Records from further up -/

namespace FileRecord

/-- The record of the same file as it is seen from further up: `dirs` lead down to the directory
from which its path has been given. -/
def below (dirs : List String) (r : FileRecord) : FileRecord :=
  { r with relativePath := Scan.pathTo dirs ++ "/" ++ r.relativePath }

/-- The path of the record starts with the path of a directory and a slash. -/
def IsBelow (dirs : List String) (r : FileRecord) : Prop :=
  (Scan.pathTo dirs ++ "/").toList <+: r.relativePath.toList

instance (dirs : List String) (r : FileRecord) : Decidable (r.IsBelow dirs) :=
  inferInstanceAs (Decidable (_ <+: _))

lemma below_injective (dirs : List String) : Function.Injective (below dirs) := by
  rintro ⟨p, size, extension⟩ ⟨q, size', extension'⟩ h
  simpa [below] using h

/-- The records with a path below a directory are those that are seen from there. -/
lemma isBelow_iff {dirs : List String} {r : FileRecord} :
    r.IsBelow dirs ↔ ∃ s : FileRecord, s.below dirs = r := by
  constructor
  · rintro ⟨rest, hrest⟩
    refine ⟨{ r with relativePath := String.ofList rest }, ?_⟩
    have hpath : Scan.pathTo dirs ++ "/" ++ String.ofList rest = r.relativePath := by
      rw [← String.toList_inj, String.toList_append, String.toList_ofList, hrest]
    rw [below, hpath]
  · rintro ⟨s, rfl⟩
    exact ⟨s.relativePath.toList, String.toList_append.symm⟩

/-- Seen from further up, records keep their order. -/
lemma pairwise_map_below (dirs : List String) {records : List FileRecord}
    (h : records.Pairwise fun a b => a.relativePath < b.relativePath) :
    (records.map (below dirs)).Pairwise fun a b => a.relativePath < b.relativePath := by
  refine List.pairwise_map.mpr (h.imp ?_)
  intro a b hab
  rw [String.lt_iff] at hab ⊢
  simp only [below, String.toList_append, List.append_assoc]
  exact List.append_left_lt (List.append_left_lt hab)

/-- A list of records in order that has just the records of another below a directory has them in
the same order, as they are seen from further up. -/
lemma map_below_eq_filter {dirs : List String} {part whole : List FileRecord}
    (hpart : part.Pairwise fun a b => a.relativePath < b.relativePath)
    (hwhole : whole.Pairwise fun a b => a.relativePath < b.relativePath)
    (h : ∀ r : FileRecord, r.below dirs ∈ whole ↔ r ∈ part) :
    part.map (below dirs) = whole.filter (IsBelow dirs) := by
  refine Sorting.eq_of_pairwise_lt _ (pairwise_map_below dirs hpart) (hwhole.filter _) ?_
  intro r
  rw [List.mem_map, List.mem_filter, decide_eq_true_eq, isBelow_iff]
  constructor
  · rintro ⟨s, hs, rfl⟩
    exact ⟨(h s).mpr hs, s, rfl⟩
  · rintro ⟨hs, s, rfl⟩
    exact ⟨s, (h s).mp hs, rfl⟩

end FileRecord

/-- A directory of this name holds nothing but tests. -/
def IsTestDirectory (name : String) : Prop :=
  String.ofList (Language.lowered name) ∈ testDirectories

instance (name : String) : Decidable (IsTestDirectory name) :=
  inferInstanceAs (Decidable (_ ∈ _))

namespace Scan

open Entry (IsName)

variable {dirs place : List String}

/-! ## Names on the way down -/

/-- A path that goes on behind the path of a directory leads to a place below it. -/
lemma exists_append_of_pathTo {path : String} (hne : dirs ≠ []) (names : ∀ d ∈ dirs, IsName d)
    (hplace : place ≠ []) (placeNames : ∀ n ∈ place, IsName n)
    (h : pathTo place = pathTo dirs ++ "/" ++ path) :
    ∃ rest, rest ≠ [] ∧ place = dirs ++ rest ∧ path = pathTo rest := by
  have hrest : Path.segments path ≠ [] := by simp [Path.segments]
  have hsplit : place = dirs ++ Path.segments path := by
    rw [← segments_pathTo hplace placeNames, h, segments_append_slash, segments_pathTo hne names]
  refine ⟨Path.segments path, hrest, hsplit, ?_⟩
  rw [hsplit, pathTo_append hne hrest] at h
  exact ((String.append_right_inj _).mp h).symm

lemma getLastD_append (dirs : List String) (hne : place ≠ []) :
    (dirs ++ place).getLastD "" = place.getLastD "" := by
  simp [List.getLastD_eq_getLast?, List.getLast?_append, List.getLast?_eq_some_getLast hne]

/-- Behind a directory that is entered, the same files stay as in a scan of that directory. -/
lemma stays_append_iff (entered : IsEntered [] dirs) (hne : place ≠ []) :
    Stays [] (dirs ++ place) ↔ Stays [] place := by
  have hfront : (dirs ++ place).dropLast = dirs ++ place.dropLast :=
    List.dropLast_append_of_ne_nil hne
  have hlast := getLastD_append dirs hne
  constructor
  · rintro ⟨hv, hc, hd, -⟩
    rw [hfront] at hv hc
    rw [hlast] at hd
    exact ⟨fun d hmem => hv d (List.mem_append_right _ hmem),
      fun d hmem => hc d (List.mem_append_right _ hmem), hd, fun _ _ _ => rfl⟩
  · rintro ⟨hv, hc, hd, -⟩
    refine ⟨?_, ?_, hlast ▸ hd, fun _ _ _ => rfl⟩
    · rw [hfront]
      exact List.forall_mem_append.mpr ⟨entered.visible, hv⟩
    · rw [hfront]
      exact List.forall_mem_append.mpr ⟨entered.not_closed, hc⟩

/-- The extension of a path does not depend on the directories around. -/
lemma extension?_append (names : ∀ n ∈ dirs ++ place, IsName n) (hne : place ≠ [])
    (noDots : place.getLastD "" ∉ [".", ".."]) :
    Path.extension? (pathTo (dirs ++ place)) = Path.extension? (pathTo place) := by
  obtain ⟨front, k, rfl⟩ := (List.eq_nil_or_concat' place).resolve_left hne
  have hk : Path.component? k = some (.name k) :=
    component?_of_isName (names k (by simp)) (by simpa using noDots)
  have hplace := segments_pathTo hne fun n hn => names n (List.mem_append_right _ hn)
  have hall := segments_pathTo (List.append_ne_nil_of_right_ne_nil dirs hne) names
  rw [← List.append_assoc] at hall
  rw [Path.extension?, Path.extension?, Path.fileName?_of_segments hplace hk,
    ← List.append_assoc, Path.fileName?_of_segments hall hk]

/-- A path names a test when it leads through a directory of tests or to a file with the name of
one. -/
lemma isTestPath_pathTo_iff (hne : place ≠ []) (names : ∀ n ∈ place, IsName n) {l : Language} :
    isTestPath (pathTo place) l = true ↔
      (∃ d ∈ place.dropLast, IsTestDirectory d) ∨ l.isTestFileName (place.getLastD "") = true := by
  simp only [isTestPath, segments_pathTo hne names, Bool.or_eq_true, List.any_eq_true,
    List.contains_iff_mem, IsTestDirectory]

/-! ## The files of a directory -/

section Below

variable {n m : String} {es inner : List Entry} {r : FileRecord}

/-- **The files of a directory.**  A scan of the project has to report just the files below a
directory that a scan of the directory has to report. -/
lemma isReported_below_iff (htop : (Entry.directory n es).IsTree)
    (hdir : (Entry.directory n es).at? dirs = some (.directory m inner)) (hne : dirs ≠ [])
    (entered : IsEntered [] dirs) (noDots : NoDotFiles inner) :
    IsReported [] (.directory n es) (r.below dirs) ↔ IsReported [] (.directory m inner) r := by
  have hinner := htop.at? hdir
  have hnames := htop.isName_of_mem hdir
  have hat (place : List String) : (Entry.directory n es).at? (dirs ++ place) =
      (Entry.directory m inner).at? place := by rw [Entry.at?_append, hdir, Option.bind_some]
  have hdots {place name content}
      (h : (Entry.directory m inner).at? place = some (.file name content)) :
      place.getLastD "" ∉ [".", ".."] :=
    noDots ⟨place, content⟩ ((mem_filesInAll_iff hinner).mpr ⟨name, h⟩)
  constructor
  · rintro ⟨place, name, content, extension, hfile, hstays, hl, he, hr⟩
    have hpath : pathTo place = pathTo dirs ++ "/" ++ r.relativePath :=
      (congrArg FileRecord.relativePath hr).symm
    have hplace : place ≠ [] := by
      rintro rfl
      simp [Entry.at?] at hfile
    obtain ⟨rest, hrest, rfl, hpath'⟩ :=
      exists_append_of_pathTo hne hnames hplace (htop.isName_of_mem hfile) hpath
    have hext := extension?_append (htop.isName_of_mem hfile) hrest (hdots (hat rest ▸ hfile))
    rw [Language.ofPath?, hext] at hl
    rw [hext] at he
    refine ⟨rest, name, content, extension, hat rest ▸ hfile,
      (stays_append_iff entered hrest).mp hstays, hl, he, ?_⟩
    refine FileRecord.below_injective dirs ?_
    rw [hr, hpath, hpath']
    rfl
  · rintro ⟨place, name, content, extension, hfile, hstays, hl, he, rfl⟩
    have hplace : place ≠ [] := by
      rintro rfl
      simp [Entry.at?] at hfile
    have hwhole := (hat place).trans hfile
    have hext := extension?_append (htop.isName_of_mem hwhole) hplace (hdots hfile)
    rw [Language.ofPath?, ← hext] at hl
    rw [← hext] at he
    refine ⟨dirs ++ place, name, content, extension, hwhole,
      (stays_append_iff entered hplace).mpr hstays, hl, he, ?_⟩
    rw [pathTo_append hne hplace]
    rfl

/-- A file of a directory is a test of the project if it is one of the directory, or if there is a
directory of tests on the way down. -/
lemma isTest_below (hinner : (Entry.directory m inner).IsTree) (hne : dirs ≠ [])
    (names : ∀ d ∈ dirs, IsName d) (noDots : NoDotFiles inner)
    (hr : IsReported [] (.directory m inner) r) :
    isTest (r.below dirs) = true ↔ (∃ d ∈ dirs, IsTestDirectory d) ∨ isTest r = true := by
  obtain ⟨place, name, content, extension, hfile, -, hl, he, rfl⟩ := hr
  have hplace : place ≠ [] := by
    rintro rfl
    simp [Entry.at?] at hfile
  have hnames : ∀ n ∈ dirs ++ place, IsName n :=
    List.forall_mem_append.mpr ⟨names, hinner.isName_of_mem hfile⟩
  have hdots := noDots ⟨place, content⟩ ((mem_filesInAll_iff hinner).mpr ⟨name, hfile⟩)
  obtain ⟨l, hl⟩ := Option.isSome_iff_exists.mp hl
  have hlanguage : Language.ofPath? (pathTo (dirs ++ place)) = some l := by
    rw [← hl, Language.ofPath?, extension?_append hnames hplace hdots, Language.ofPath?]
  have hbelow := pathTo_append hne hplace
  simp only [isTest, FileRecord.below, ← hbelow, hlanguage, hl]
  rw [isTestPath_pathTo_iff (List.append_ne_nil_of_right_ne_nil dirs hplace) hnames,
    isTestPath_pathTo_iff hplace (hinner.isName_of_mem hfile),
    List.dropLast_append_of_ne_nil hplace, getLastD_append dirs hplace, ← or_assoc]
  simp only [List.mem_append, or_and_right, exists_or]

/-- What the walk through the project leaves below a directory is what the walk through the directory
leaves. -/
lemma perm_map_below (htop : (Entry.directory n es).IsTree)
    (hdir : (Entry.directory n es).at? dirs = some (.directory m inner)) (hne : dirs ≠ [])
    (entered : IsEntered [] dirs) (noDots : NoDotFiles inner) :
    (((unpruned [] inner).sourceFiles ++ (unpruned [] inner).testFiles).map (·.below dirs)).Perm
      (((unpruned [] es).sourceFiles ++ (unpruned [] es).testFiles).filter (·.IsBelow dirs)) := by
  have hinner := htop.at? hdir
  have hrecords : (((filesInAll [] inner).filterMap (recordOf? [])).map (·.below dirs)).Perm
      (((filesInAll [] es).filterMap (recordOf? [])).filter (·.IsBelow dirs)) := by
    have hpart : ((filesInAll [] inner).filterMap (recordOf? [])).Nodup :=
      (nodup_relativePath hinner).of_map
    have hwhole : ((filesInAll [] es).filterMap (recordOf? [])).Nodup :=
      (nodup_relativePath htop).of_map
    refine (List.perm_ext_iff_of_nodup (hpart.map (FileRecord.below_injective dirs))
      (hwhole.filter _)).mpr ?_
    intro r
    rw [List.mem_map, List.mem_filter, decide_eq_true_eq, FileRecord.isBelow_iff]
    constructor
    · rintro ⟨s, hs, rfl⟩
      rw [mem_filterMap_recordOf?_iff hinner] at hs
      exact ⟨(mem_filterMap_recordOf?_iff htop).mpr
        ((isReported_below_iff htop hdir hne entered noDots).mpr hs), s, rfl⟩
    · rintro ⟨hs, s, rfl⟩
      rw [mem_filterMap_recordOf?_iff htop, isReported_below_iff htop hdir hne entered noDots] at hs
      exact ⟨s, (mem_filterMap_recordOf?_iff hinner).mpr hs, rfl⟩
  exact ((perm_unpruned [] inner).map _).trans (hrecords.trans ((perm_unpruned [] es).filter _).symm)

end Below

/-- **Scans of a directory of the project.**  Let a directory of the project be one that a scan
enters.  Then a scan of the directory finds the files that a scan of the project finds below it, with
the same sizes and extensions, and with what is left of their paths behind that of the directory.
If none of the names on the way down is one of a directory of tests, each scan takes the same files
for sources and the same files for tests, in the same order. -/
theorem scan_subdirectory {fs : FileSystem} (tree : fs.IsTree) {root n m : String}
    {es inner : List Entry} (found : fs.entry root = .ok (.directory n es))
    (dir : (Entry.directory n es).at? dirs = some (.directory m inner)) (hne : dirs ≠ [])
    (entered : IsEntered [] dirs) (taken : FileSystem.TakesPath root dirs)
    (noDots : NoDotFiles inner) :
    ∃ whole part, fs.scan [] root = .ok whole ∧
      fs.scan [] (Path.join root (pathTo dirs)) = .ok part ∧
      ((part.sourceFiles ++ part.testFiles).map (·.below dirs)).Perm
        ((whole.sourceFiles ++ whole.testFiles).filter (·.IsBelow dirs)) ∧
      ((∀ d ∈ dirs, ¬IsTestDirectory d) →
        part.sourceFiles.map (·.below dirs) = whole.sourceFiles.filter (·.IsBelow dirs) ∧
        part.testFiles.map (·.below dirs) = whole.testFiles.filter (·.IsBelow dirs)) := by
  obtain ⟨top, hplace, hat⟩ := FileSystem.entry_eq_ok_iff.mp found
  have htop := tree.entry found
  have hinner := htop.at? dir
  have hnames := htop.isName_of_mem dir
  -- the path of the directory leads to it
  have hbelow : fs.root.at? (top ++ dirs) = some (.directory m inner) := by
    rw [Entry.at?_append, hat, Option.bind_some, dir]
  have hentry : fs.entry (Path.join root (pathTo dirs)) = .ok (.directory m inner) :=
    FileSystem.entry_eq_ok_iff.mpr ⟨top ++ dirs, FileSystem.realPlace_join_pathTo hplace hne hnames
      entered.visible ⟨m, inner, hbelow⟩ taken, hbelow⟩
  refine ⟨_, _, scan_eq_of_found htop [] found, scan_eq_of_found hinner [] hentry,
    perm_map_below htop dir hne entered noDots, ?_⟩
  intro untested
  obtain ⟨hsources, htests⟩ := pairwise_unpruned [] htop
  obtain ⟨hsources', htests'⟩ := pairwise_unpruned [] hinner
  have hclass (r : FileRecord) (hr : IsReported [] (.directory m inner) r) :
      isTest (r.below dirs) = isTest r := by
    have hno : ¬∃ d ∈ dirs, IsTestDirectory d := by simpa using untested
    rw [Bool.eq_iff_iff, isTest_below hinner hne hnames noDots hr]
    exact or_iff_right hno
  constructor
  · refine FileRecord.map_below_eq_filter hsources' hsources ?_
    intro r
    rw [mem_sourceFiles_unpruned_iff htop, mem_sourceFiles_unpruned_iff hinner,
      isReported_below_iff htop dir hne entered noDots]
    exact and_congr_right fun hr => by rw [hclass r hr]
  · refine FileRecord.map_below_eq_filter htests' htests ?_
    intro r
    rw [mem_testFiles_unpruned_iff htop, mem_testFiles_unpruned_iff hinner,
      isReported_below_iff htop dir hne entered noDots]
    exact and_congr_right fun hr => by rw [hclass r hr]

lemma sorted_of_pairwise {records : List FileRecord}
    (h : records.Pairwise fun a b => decide (a.relativePath ≤ b.relativePath)) :
    sorted records = records :=
  List.mergeSort_of_pairwise h

/-- What a package holds: a test in a directory of tests, a source with another test beside it, and a
directory that no scan enters. -/
def coreEntries : List Entry :=
  [.directory "Test" [.file "b.ts" []], .file "a.dart" [0x0A], .file "a_test.dart" [],
    .directory "build" [.file "made.dart" []]]

/-- A project with the package in it. -/
def packageEntries : List Entry :=
  [.file "main.dart" [], .directory "packages" [.directory "core" coreEntries]]

/-- The project in a file system. -/
def packageFiles : FileSystem := ⟨[.directory "app" packageEntries], "/"⟩

/-- The package is scanned alone as it is scanned with the project. -/
theorem scan_packageFiles :
    packageFiles.IsTree ∧ packageFiles.entry "/app" = .ok (.directory "app" packageEntries) ∧
      IsEntered [] ["packages", "core"] ∧
      FileSystem.TakesPath "/app" ["packages", "core"] ∧ NoDotFiles coreEntries ∧
      ∃ part, packageFiles.scan [] (Path.join "/app" (pathTo ["packages", "core"])) = .ok part ∧
        part.sourceFiles.map (·.below ["packages", "core"]) =
          [⟨"packages/core/a.dart", 1, ".dart"⟩] ∧
        part.testFiles.map (·.below ["packages", "core"]) =
          [⟨"packages/core/Test/b.ts", 0, ".ts"⟩, ⟨"packages/core/a_test.dart", 0, ".dart"⟩] := by
  have tree : packageFiles.IsTree := by decide
  have found := FileSystem.entry_app packageEntries
  have entered : IsEntered [] ["packages", "core"] := ⟨by decide, by decide, fun _ _ _ => rfl⟩
  have taken : FileSystem.TakesPath "/app" ["packages", "core"] :=
    ⟨by decide, by decide, by decide⟩
  have noDots : NoDotFiles coreEntries := by decide
  have dir : (Entry.directory "app" packageEntries).at? ["packages", "core"] =
      some (.directory "core" coreEntries) := rfl
  obtain ⟨whole, part, hwhole, hpart, -, hsame⟩ :=
    scan_subdirectory tree found dir (by decide) entered taken noDots
  obtain ⟨hsources, htests⟩ := hsame (by decide)
  have hscan := scan_eq_of_found (tree.entry found) [] found
  obtain rfl := Except.ok.inj (hwhole.symm.trans hscan)
  -- the walk through the project meets its files in the order of their paths
  refine ⟨tree, found, entered, taken, noDots, part, hpart, hsources.trans ?_, htests.trans ?_⟩
  · rw [unpruned, resultOf, sorted_of_pairwise (by decide +kernel)]
    decide +kernel
  · simp only [unpruned, resultOf]
    rw [sorted_of_pairwise (by decide +kernel)]
    decide +kernel

end Scan

end CoverageEstimate

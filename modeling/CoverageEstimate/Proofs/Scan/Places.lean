/-
# Places and paths

The path of a place joins its names with slashes.  Names have no slash in them, so a path has only
one place, and a walk that puts one name after another to a path keeps to the places.

`filesIn` is the walk that leaves nothing out: it visits each file of a tree once, at the place
where it stands.
-/
import CoverageEstimate.Proofs.FileSystem.Tree
import CoverageEstimate.Scan
import Mathlib.Data.List.Infix

namespace CoverageEstimate.Scan

open Entry (IsName IsTree)

/-- The path that leads to a place: its names with slashes between them. -/
def pathTo (place : List String) : String := "/".intercalate place

/-- A path below another has a slash between the two. -/
lemma pathTo_append {front back : List String} (hf : front ≠ []) (hb : back ≠ []) :
    pathTo (front ++ back) = pathTo front ++ "/" ++ pathTo back := by
  rw [pathTo, String.intercalate_append_of_ne_nil hf hb, pathTo, pathTo]

lemma pathTo_append_singleton {dirs : List String} (h : dirs ≠ []) (n : String) :
    pathTo (dirs ++ [n]) = pathTo dirs ++ "/" ++ n := by
  rw [pathTo_append h (List.cons_ne_nil n []), pathTo.eq_def [n], String.intercalate_singleton]

/-- A slash parts the names before it from those behind it. -/
lemma segments_append_slash (front back : String) :
    Path.segments (front ++ "/" ++ back) = Path.segments front ++ Path.segments back := by
  have hlist : (front ++ "/" ++ back).toList = front.toList ++ '/' :: back.toList := by simp
  rw [Path.segments, Path.segments, Path.segments, hlist, List.splitOn,
    List.splitOnP_append_cons _ _ (by simp), List.map_append]
  rfl

/-- Texts without slashes are what is between the slashes that join them. -/
lemma segments_intercalate {parts : List String} (hne : parts ≠ [])
    (plain : ∀ n ∈ parts, '/' ∉ n.toList) : Path.segments ("/".intercalate parts) = parts := by
  have hslash : "/".toList = ['/'] := rfl
  rw [Path.segments, String.toList_intercalate, hslash, List.splitOn_intercalate]
  · simp
  · simp only [List.mem_map, forall_exists_index, and_imp, forall_apply_eq_imp_iff₂]
    exact plain
  · simpa using hne

/-- The names of a path are those of its place. -/
lemma segments_pathTo {place : List String} (hne : place ≠ []) (names : ∀ n ∈ place, IsName n) :
    Path.segments (pathTo place) = place :=
  segments_intercalate hne fun n hn => (names n hn).2

lemma pathTo_ne_empty {place : List String} (hne : place ≠ []) (names : ∀ n ∈ place, IsName n) :
    pathTo place ≠ "" := by
  intro h
  have hs := segments_pathTo hne names
  rw [h] at hs
  have hempty : Path.segments "" = [""] := by decide
  rw [hempty] at hs
  exact (names "" (hs ▸ List.mem_singleton_self "")).1 rfl

/-- Different places have different paths. -/
lemma pathTo_injective {a b : List String} (ha : a ≠ []) (hb : b ≠ [])
    (na : ∀ n ∈ a, IsName n) (nb : ∀ n ∈ b, IsName n) (h : pathTo a = pathTo b) : a = b := by
  rw [← segments_pathTo ha na, h, segments_pathTo hb nb]

/-- The walk goes from the path of a directory to the paths of what it holds. -/
lemma pathIn_pathTo {dirs : List String} (names : ∀ d ∈ dirs, IsName d) (n : String) :
    pathIn (pathTo dirs) n = pathTo (dirs ++ [n]) := by
  by_cases h : dirs = []
  · subst h
    simp [pathIn, pathTo, String.intercalate_nil, String.intercalate_singleton]
  · rw [pathIn, if_neg (pathTo_ne_empty h names), pathTo_append_singleton h]

/-! ## All files of a tree -/

/-- A file with the place where it stands. -/
structure PlacedFile where
  place : List String
  content : List UInt8

mutual

/-- The files at or below an entry of the directory at a place, whatever they are called. -/
def filesIn (place : List String) : Entry → List PlacedFile
  | .file name content => [⟨place ++ [name], content⟩]
  | .link _ _ => []
  | .directory name es => filesInAll (place ++ [name]) es

/-- The files at or below the entries of the directory at a place. -/
def filesInAll (place : List String) : List Entry → List PlacedFile
  | [] => []
  | e :: rest => filesIn place e ++ filesInAll place rest

end

lemma filesInAll_eq_flatMap (place : List String) (es : List Entry) :
    filesInAll place es = es.flatMap (filesIn place) := by
  induction es with
  | nil => rfl
  | cons e rest ih => rw [filesInAll, ih, List.flatMap_cons]

lemma recordsOfAll_eq_flatMap (exclusions : Exclusions) (directory : String) (es : List Entry) :
    recordsOfAll exclusions directory es = es.flatMap (recordsOf exclusions directory) := by
  induction es with
  | nil => rfl
  | cons e rest ih => rw [recordsOfAll, ih, List.flatMap_cons]

/-- The walk through a directory visits the files at the places below it, if the walks through its
entries visit those at the places below them. -/
lemma mem_filesInAll_of_entries {n : String} {es : List Entry} {front : List String}
    (distinct : (es.map Entry.name).Nodup)
    (h : ∀ e ∈ es, ∀ f, f ∈ filesIn front e ↔ ∃ below m,
      f.place = front ++ e.name :: below ∧ e.at? below = some (.file m f.content))
    {f : PlacedFile} : f ∈ filesInAll front es ↔ ∃ below m,
      f.place = front ++ below ∧ (Entry.directory n es).at? below = some (.file m f.content) := by
  rw [filesInAll_eq_flatMap, List.mem_flatMap]
  constructor
  · rintro ⟨e, he, hf⟩
    obtain ⟨below, m, hp, hb⟩ := (h e he f).mp hf
    exact ⟨e.name :: below, m, hp, (Entry.at?_directory_cons distinct).mpr ⟨e, he, rfl, hb⟩⟩
  · rintro ⟨below, m, hp, hb⟩
    cases below with
    | nil => exact absurd hb (by simp [Entry.at?])
    | cons k ks =>
      obtain ⟨e, he, rfl, hinner⟩ := (Entry.at?_directory_cons distinct).mp hb
      exact ⟨e, he, (h e he f).mpr ⟨ks, m, hp, hinner⟩⟩

/-- The walk visits the files that stand at some place below an entry. -/
lemma mem_filesIn_iff {e : Entry} (h : e.IsTree) {front : List String} {f : PlacedFile} :
    f ∈ filesIn front e ↔ ∃ below m,
      f.place = front ++ e.name :: below ∧ e.at? below = some (.file m f.content) := by
  induction h generalizing front f with
  | file n content =>
    rw [filesIn, List.mem_singleton]
    constructor
    · rintro rfl
      exact ⟨[], n, rfl, rfl⟩
    · rintro ⟨below, m, hp, hb⟩
      cases below with
      | nil =>
        obtain ⟨-, hc⟩ := Entry.file.inj (Option.some.inj hb)
        cases f
        simp only [Entry.name] at hp hc
        rw [hp, hc]
      | cons k ks => exact absurd hb (by rw [Entry.at?_cons_of_entries_nil rfl]; simp)
  | link n target =>
    rw [filesIn]
    constructor
    · intro hf
      exact absurd hf List.not_mem_nil
    · rintro ⟨below, m, -, hb⟩
      cases below with
      | nil => exact absurd hb (by simp [Entry.at?])
      | cons k ks => exact absurd hb (by rw [Entry.at?_cons_of_entries_nil rfl]; simp)
  | @directory n es distinct names trees ih =>
    rw [filesIn, mem_filesInAll_of_entries (n := n) distinct fun e he f => ih e he]
    simp only [List.append_assoc, List.singleton_append, Entry.name]

/-- The walk through a directory visits the files that stand at some place below it. -/
lemma mem_filesInAll_iff {n : String} {es : List Entry} (h : (Entry.directory n es).IsTree)
    {f : PlacedFile} : f ∈ filesInAll [] es ↔
      ∃ m, (Entry.directory n es).at? f.place = some (.file m f.content) := by
  cases h with
  | directory _ distinct names trees =>
    rw [mem_filesInAll_of_entries (n := n) distinct fun e he f => mem_filesIn_iff (trees e he)]
    constructor
    · rintro ⟨below, m, hp, hb⟩
      exact ⟨m, by rw [hp]; exact hb⟩
    · rintro ⟨m, hb⟩
      exact ⟨f.place, m, rfl, hb⟩

/-- The place of a file starts with the place of each entry that the walk to it goes through. -/
lemma prefix_of_mem_filesIn {e : Entry} (h : e.IsTree) {front : List String} {f : PlacedFile}
    (hf : f ∈ filesIn front e) : front ++ [e.name] <+: f.place := by
  obtain ⟨below, m, hp, -⟩ := (mem_filesIn_iff h).mp hf
  exact ⟨below, by rw [hp]; simp⟩

/-- All names on the way to a file are names. -/
lemma isName_of_mem_filesIn {e : Entry} (h : e.IsTree) {front : List String}
    (hfront : ∀ d ∈ front, IsName d) (he : IsName e.name) {f : PlacedFile}
    (hf : f ∈ filesIn front e) : ∀ n ∈ f.place, IsName n := by
  induction h generalizing front with
  | file n content =>
    rw [filesIn, List.mem_singleton] at hf
    subst hf
    intro m hm
    rcases List.mem_append.mp hm with hm | hm
    · exact hfront m hm
    · exact List.mem_singleton.mp hm ▸ he
  | link n target => exact absurd hf List.not_mem_nil
  | @directory n es distinct names trees ih =>
    rw [filesIn, filesInAll_eq_flatMap] at hf
    obtain ⟨inner, hinner, hf⟩ := List.mem_flatMap.mp hf
    refine ih inner hinner (fun d hd => ?_) (names inner hinner) hf
    rcases List.mem_append.mp hd with hd | hd
    · exact hfront d hd
    · exact List.mem_singleton.mp hd ▸ he

/-- The walks through the entries of a directory meet no file twice, if none of them does. -/
lemma nodup_filesInAll {es : List Entry} (distinct : (es.map Entry.name).Nodup)
    (trees : ∀ e ∈ es, e.IsTree) {front : List String}
    (h : ∀ e ∈ es, ((filesIn front e).map PlacedFile.place).Nodup) :
    ((filesInAll front es).map PlacedFile.place).Nodup := by
  rw [filesInAll_eq_flatMap, List.map_flatMap, List.nodup_flatMap]
  refine ⟨h, (List.pairwise_map.mp distinct).imp_of_mem fun {a b} ha hb hab => ?_⟩
  -- the places below two entries differ in the names of these
  intro place hpa hpb
  obtain ⟨f, hf, rfl⟩ := List.mem_map.mp hpa
  obtain ⟨g, hg, hfg⟩ := List.mem_map.mp hpb
  have hpf := prefix_of_mem_filesIn (trees a ha) hf
  have hpg := prefix_of_mem_filesIn (trees b hb) hg
  rw [hfg] at hpg
  have heq := (List.prefix_of_prefix_length_le hpf hpg (by simp)).eq_of_length (by simp)
  exact hab (List.singleton_injective (List.append_cancel_left heq))

/-- The walk meets no file twice. -/
lemma nodup_filesIn {e : Entry} (h : e.IsTree) (front : List String) :
    ((filesIn front e).map PlacedFile.place).Nodup := by
  induction h generalizing front with
  | file n content => simp [filesIn]
  | link n target => simp [filesIn]
  | directory n distinct names trees ih =>
    rw [filesIn]
    exact nodup_filesInAll distinct trees fun e he => ih e he _

end CoverageEstimate.Scan

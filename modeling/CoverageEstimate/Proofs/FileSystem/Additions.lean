/-
# What is added to a file system

A command that makes files and directories adds to a file system: everything that was there is there
afterwards, unchanged, and what is new stands at places that were free (`FileSystem.Adds`).  A way
that has led somewhere leads there still (`Adds.leads`), so what was made first is not lost when
more is made.

Making a directory with those around it that are missing is a recursion over the path.  Its runs are
described as a relation (`MakesDirectories`): each step adds one directory, and what has been added
stays whether the attempt succeeds or not (`MakesDirectories.adds`).
-/
import CoverageEstimate.Proofs.FileSystem.Agreement

namespace CoverageEstimate

/-- What is left of a path when components at its end are left out. -/
def Path.IsFront : String → String → Prop :=
  Relation.ReflTransGen fun around path => parent? path = some around

/-! ## Adding an entry to a directory -/

namespace Entry

variable {directory : List String} {new e : Entry}

/-- What is put into a directory stands there. -/
lemma at?_changeAt_put_self {n : String} {es : List Entry}
    (dir : e.at? directory = some (.directory n es)) :
    (changeAt (put new) directory e).at? (directory ++ [new.name]) = some new := by
  induction directory generalizing e with
  | nil =>
    obtain rfl := Option.some.inj dir
    rw [List.nil_append, changeAt, at?_cons, entries, named?_put_self]
    rfl
  | cons m ms ih =>
    rw [at?_cons] at dir
    obtain ⟨inner, hinner, hdir⟩ := Option.bind_eq_some_iff.mp dir
    cases e with
    | file | link => simp [entries, named?] at hinner
    | directory k inners =>
      rw [List.cons_append, at?_changeAt_cons]
      rw [entries] at hinner
      rw [hinner, Option.bind_some, if_pos rfl]
      exact ih hdir

end Entry

namespace FileSystem

/-- A file system has all that another one has, unchanged, and besides only what stands at some
places, which were free. -/
structure Adds (before after : FileSystem) (places : List (List String)) : Prop where
  workingDirectory : after.workingDirectory = before.workingDirectory
  free : ∀ place ∈ places, before.root.at? place = none
  elsewhere : ∀ place, place ∉ places → after.surfaceAt place = before.surfaceAt place

namespace Adds

variable {a b c : FileSystem} {ps qs : List (List String)} {place : List String}

lemma refl (fs : FileSystem) : Adds fs fs [] where
  workingDirectory := rfl
  free _ h := absurd h List.not_mem_nil
  elsewhere _ _ := rfl

lemma trans (hab : Adds a b ps) (hbc : Adds b c qs) : Adds a c (ps ++ qs) where
  workingDirectory := hbc.workingDirectory.trans hab.workingDirectory
  free place hplace := by
    by_cases hp : place ∈ ps
    · exact hab.free place hp
    · have hq : place ∈ qs := (List.mem_append.mp hplace).resolve_left hp
      rw [← surfaceAt_eq_none_iff, ← hab.elsewhere place hp, surfaceAt_eq_none_iff]
      exact hbc.free place hq
  elsewhere place hplace := by
    obtain ⟨hp, hq⟩ := not_or.mp (mt List.mem_append.mpr hplace)
    exact (hbc.elsewhere place hq).trans (hab.elsewhere place hp)

/-- What stands somewhere is seen there still. -/
lemma kept (h : Adds a b ps) {e : Entry} (he : a.root.at? place = some e) :
    b.surfaceAt place = a.surfaceAt place := by
  refine h.elsewhere place fun hp => ?_
  rw [h.free place hp] at he
  simp at he

/-- A file or a link stays as it is. -/
lemma at?_eq (h : Adds a b ps) {e : Entry} (he : a.root.at? place = some e)
    (hd : e.isDirectory = false) : b.root.at? place = some e :=
  at?_of_surfaceAt he hd (h.kept he)

lemma isDirectoryAt (h : Adds a b ps) (hd : a.IsDirectoryAt place) : b.IsDirectoryAt place := by
  obtain ⟨n, es, hd⟩ := hd
  exact IsDirectoryAt.of_surfaceAt ⟨n, es, hd⟩ (h.kept hd)

lemma leads (h : Adds a b ps) {links : ℕ} {here : List String} {todo : List Step}
    (hl : a.Leads links here todo place) : b.Leads links here todo place := by
  refine hl.keep (fun _ => False) ?_ ?_ not_false
  · intro p e _ he
    exact h.kept he
  · intro p e hp
    exact hp.elim

lemma realPlace (h : Adds a b ps) {path : String} (hp : a.realPlace path = .ok place) :
    b.realPlace path = .ok place := by
  obtain ⟨hempty, hnull, hlong, hl⟩ := realPlace_eq_ok_iff.mp hp
  rw [realPlace_eq_ok_iff, h.workingDirectory]
  exact ⟨hempty, hnull, hlong, h.leads hl⟩

end Adds

/-- Putting an entry that holds nothing where nothing is adds it to the file system. -/
lemma adds_putAt {fs : FileSystem} {directory : List String} (new : Entry)
    (bare : new.entries = []) (free : fs.root.at? (directory ++ [new.name]) = none) :
    fs.Adds (fs.putAt directory new) [directory ++ [new.name]] where
  workingDirectory := rfl
  free place hplace := by
    rw [List.mem_singleton.mp hplace]
    exact free
  elsewhere place hplace := by
    rw [surfaceAt, surfaceAt, root_putAt]
    refine Entry.surface_at?_changeAt_put bare ?_ (mt List.mem_singleton.mpr hplace)
    intro f hf
    simp [free] at hf

lemma at?_putAt {fs : FileSystem} {directory : List String} (dir : fs.IsDirectoryAt directory)
    (new : Entry) : (fs.putAt directory new).root.at? (directory ++ [new.name]) = some new := by
  obtain ⟨n, es, hd⟩ := dir
  rw [root_putAt]
  exact Entry.at?_changeAt_put_self hd

/-! ## Where a name is free -/

/-- A walk that ends at a free name ends in a directory that does not have the name. -/
lemma free_of_walk {fs : FileSystem} {links : ℕ} {here directory : List String} {todo : List Step}
    {name : String} (h : fs.walk links here todo = .ok (.free directory name)) :
    fs.IsDirectoryAt directory ∧ fs.root.at? (directory ++ [name]) = none := by
  fun_induction FileSystem.walk fs links here todo with
  | case2 links here rest m es hd ih | case3 links here rest m es hd ih
  | case4 links here rest m es hd ih => exact ih h
  | case8 here rest m es hd n short k target hn left aimed ih => exact ih h
  | case9 links here rest m es hd n short e real hn ih => exact ih h
  | case10 links here m es hd n short hn =>
    obtain ⟨rfl, rfl⟩ := Place.free.inj (Except.ok.inj h)
    exact ⟨⟨m, es, hd⟩, (Entry.at?_append_singleton hd n).trans hn⟩
  | case1 | case5 | case6 | case7 | case11 | case12 | case13 | case14 | case15 => simp at h

/-- The steps of a walk that ends at a free name lead there as soon as something other than a link
has the name. -/
lemma leads_of_walk {fs after : FileSystem} {places : List (List String)}
    {links : ℕ} {here directory : List String} {todo : List Step} {name : String}
    (h : fs.walk links here todo = .ok (.free directory name)) (adds : fs.Adds after places)
    {e : Entry} (there : after.root.at? (directory ++ [name]) = some e)
    (real : ∀ m target, e ≠ .link m target) :
    after.Leads links here todo (directory ++ [name]) := by
  fun_induction FileSystem.walk fs links here todo with
  | case2 links here rest m es hd ih => exact .stay (adds.isDirectoryAt ⟨m, es, hd⟩) (ih h)
  | case3 links here rest m es hd ih => exact .slash (adds.isDirectoryAt ⟨m, es, hd⟩) (ih h)
  | case4 links here rest m es hd ih => exact .up (adds.isDirectoryAt ⟨m, es, hd⟩) (ih h)
  | case8 here rest m es hd n short k target hn left aimed ih =>
    have hlink := adds.at?_eq ((Entry.at?_append_singleton hd n).trans hn) rfl
    exact .follow (adds.isDirectoryAt ⟨m, es, hd⟩) short hlink aimed (ih h)
  | case9 links here rest m es hd n short f hreal hn ih =>
    have hf := (Entry.at?_append_singleton hd n).trans hn
    obtain ⟨g, hg, hgreal⟩ :=
      exists_of_not_link hf (fun k target he => hreal k target he) (adds.kept hf)
    exact .into (adds.isDirectoryAt ⟨m, es, hd⟩) short hg hgreal (ih h)
  | case10 links here m es hd n short hn =>
    obtain ⟨rfl, rfl⟩ := Place.free.inj (Except.ok.inj h)
    exact .into (adds.isDirectoryAt ⟨m, es, hd⟩) short there real (.done links _)
  | case1 | case5 | case6 | case7 | case11 | case12 | case13 | case14 | case15 => simp at h

/-! ## Making directories -/

lemma slash_not_mem_namedSteps (path : String) : Step.slash ∉ namedSteps path := by
  intro h
  obtain ⟨segment, -, hsegment⟩ := List.mem_filterMap.mp h
  rw [step?] at hsegment
  split_ifs at hsegment <;> simp at hsegment

lemma stepsOfDirectory_eq (path : String) : stepsOfDirectory path = namedSteps path := by
  have hnamed : (namedSteps path).filter (· != .slash) = namedSteps path := by
    refine List.filter_eq_self.mpr fun s hs => ?_
    rw [bne_iff_ne]
    rintro rfl
    exact slash_not_mem_namedSteps path hs
  rw [stepsOfDirectory, steps_eq, List.filter_append, hnamed]
  split <;> simp

/-- To a directory the slash at the end of a path leads as well. -/
lemma leads_steps {fs : FileSystem} {links : ℕ} {here place : List String} {path : String}
    (h : fs.Leads links here (namedSteps path) place) (dir : fs.IsDirectoryAt place) :
    fs.Leads links here (steps path) place := by
  rw [steps_eq]
  refine h.append fun left => ?_
  split
  · exact .slash dir (.done left place)
  · exact .done left place

/-- When a directory is made, its name is free in the directory to which the steps before it
lead. -/
lemma makeDirectory_eq_ok {fs made : FileSystem} {path : String}
    (h : fs.makeDirectory path = .ok made) :
    path ≠ "" ∧ '\x00' ∉ path.toList ∧ ¬pathLimit < path.utf8ByteSize ∧
      ∃ front directory name,
        namedSteps (Path.join fs.workingDirectory path) = front ++ [.into name] ∧
        fs.Leads linkLimit [] front directory ∧ fs.IsDirectoryAt directory ∧
        ¬nameLimit < name.utf8ByteSize ∧ fs.root.at? (directory ++ [name]) = none ∧
        made = fs.putAt directory (.directory name []) := by
  rw [makeDirectory] at h
  split_ifs at h with hempty hnull hlong
  refine ⟨hempty, by simpa using hnull, hlong, ?_⟩
  simp only [stepsOfDirectory_eq] at h
  split at h
  · simp at h
  · rename_i directory hway
    split at h
    · rename_i m es hd
      split at h
      · rename_i name hlast
        split_ifs at h with hname htaken
        have free : fs.root.at? (directory ++ [name]) = none := by
          rw [Entry.at?_append_singleton hd]
          simpa using htaken
        exact ⟨_, directory, name, (List.dropLast_append_getLast? _ hlast).symm,
          walk_eq_found_iff.mp hway, ⟨m, es, hd⟩, hname, free, (Except.ok.inj h).symm⟩
      · simp at h
    · simp at h
  · simp at h

/-- **Making a directory** adds one that holds nothing, and the path leads to it. -/
lemma adds_makeDirectory {fs made : FileSystem} {path : String}
    (h : fs.makeDirectory path = .ok made) :
    ∃ place n, fs.Adds made [place] ∧ made.root.at? place = some (.directory n []) ∧
      made.realPlace path = .ok place := by
  obtain ⟨hempty, hnull, hlong, front, directory, name, hsteps, hfront, dir, short, free, rfl⟩ :=
    makeDirectory_eq_ok h
  have adds := adds_putAt (.directory name []) rfl free
  have there := at?_putAt dir (.directory name [])
  have hway : (fs.putAt directory (.directory name [])).Leads linkLimit []
      (front ++ [.into name]) (directory ++ [name]) :=
    (adds.leads hfront).append fun left =>
      .into (adds.isDirectoryAt dir) short there (by simp) (.done left _)
  refine ⟨directory ++ [name], name, adds, there, ?_⟩
  refine realPlace_eq_ok_iff.mpr ⟨hempty, hnull, hlong, ?_⟩
  rw [adds.workingDirectory]
  exact leads_steps (hsteps ▸ hway) ⟨name, [], there⟩

/-- How the attempt to make one directory at a path ends. -/
inductive MakesDirectory (fs : FileSystem) (path : String) : FileSystem × Option FileError → Prop
  | made {result : FileSystem} (h : fs.makeDirectory path = .ok result) :
      MakesDirectory fs path (result, none)
  | there (h : fs.isDirectory path = true) : MakesDirectory fs path (fs, none)
  | failed (e : FileError) : MakesDirectory fs path (fs, some e)

/-- How the attempt to make a directory at a path and the directories around it that are missing
ends. -/
inductive MakesDirectories (fs : FileSystem) : String → FileSystem × Option FileError → Prop
  | empty : MakesDirectories fs "" (fs, none)
  | one {path : String} {result : FileSystem × Option FileError}
      (h : fs.MakesDirectory path result) : MakesDirectories fs path result
  | failed {path around : String} {made : FileSystem} {e : FileError}
      (parent : Path.parent? path = some around)
      (h : MakesDirectories fs around (made, some e)) : MakesDirectories fs path (made, some e)
  | inside {path around : String} {made : FileSystem} {result : FileSystem × Option FileError}
      (parent : Path.parent? path = some around)
      (h : MakesDirectories fs around (made, none)) (last : made.MakesDirectory path result) :
      MakesDirectories fs path result

lemma makesDirectory_of_error {fs : FileSystem} {path : String} (e : FileError) :
    fs.MakesDirectory path (if fs.isDirectory path then (fs, none) else (fs, some e)) := by
  split
  · rename_i h
    exact .there h
  · exact .failed e

lemma makesDirectories_makeDirectoriesIn (fs : FileSystem) (depth : ℕ) (path : String) :
    fs.MakesDirectories path (fs.makeDirectoriesIn depth path) := by
  induction depth generalizing path with
  | zero => exact .one (.failed .notFound)
  | succ depth ih =>
    rw [makeDirectoriesIn.eq_def]
    simp only
    split
    · rename_i hempty
      exact hempty ▸ .empty
    split
    · rename_i made hmade
      exact .one (.made hmade)
    · split
      · exact .one (.failed .notFound)
      · rename_i around parent
        have hinner := ih around
        split
        · rename_i made e heq
          exact .failed parent (heq ▸ hinner)
        · rename_i made heq
          rw [heq] at hinner
          refine .inside parent hinner ?_
          split
          · rename_i hlast
            exact .made hlast
          · exact makesDirectory_of_error _
    · exact .one (makesDirectory_of_error _)

lemma makesDirectories (fs : FileSystem) (path : String) :
    fs.MakesDirectories path (fs.makeDirectories path) :=
  fs.makesDirectories_makeDirectoriesIn _ path

/-- A directory stands at the place, and a path that is left of another one leads to it. -/
def OnTheWay (fs : FileSystem) (path : String) (place : List String) : Prop :=
  fs.IsDirectoryAt place ∧ ∃ front, Path.IsFront front path ∧ fs.realPlace front = .ok place

lemma OnTheWay.keep {a b : FileSystem} {places : List (List String)} {path : String}
    {place : List String} (h : a.OnTheWay path place) (adds : a.Adds b places) :
    b.OnTheWay path place := by
  obtain ⟨dir, front, hfront, hplace⟩ := h
  exact ⟨adds.isDirectoryAt dir, front, hfront, adds.realPlace hplace⟩

/-- What leads to a directory around a path is left of the path. -/
lemma OnTheWay.inside {fs : FileSystem} {around path : String} {place : List String}
    (h : fs.OnTheWay around place) (parent : Path.parent? path = some around) :
    fs.OnTheWay path place := by
  obtain ⟨dir, front, hfront, hplace⟩ := h
  exact ⟨dir, front, hfront.tail parent, hplace⟩

lemma MakesDirectory.adds {fs : FileSystem} {path : String}
    {result : FileSystem × Option FileError} (h : fs.MakesDirectory path result) :
    ∃ places, fs.Adds result.1 places ∧ ∀ place ∈ places, result.1.OnTheWay path place := by
  cases h with
  | made h =>
    obtain ⟨place, n, adds, there, hplace⟩ := adds_makeDirectory h
    refine ⟨[place], adds, fun q hq => ?_⟩
    rw [List.mem_singleton.mp hq]
    exact ⟨⟨n, [], there⟩, path, .refl, hplace⟩
  | there | failed => exact ⟨[], .refl fs, by simp⟩

/-- **Making directories** adds directories on the way along the path and nothing else, whether the
last of them can be made or not. -/
lemma MakesDirectories.adds {fs : FileSystem} {path : String}
    {result : FileSystem × Option FileError} (h : fs.MakesDirectories path result) :
    ∃ places, fs.Adds result.1 places ∧ ∀ place ∈ places, result.1.OnTheWay path place := by
  induction h with
  | empty => exact ⟨[], .refl fs, by simp⟩
  | one h => exact h.adds
  | failed parent h ih =>
    obtain ⟨places, adds, way⟩ := ih
    exact ⟨places, adds, fun place hplace => (way place hplace).inside parent⟩
  | inside parent h last ih =>
    obtain ⟨first, adds, way⟩ := ih
    obtain ⟨second, more, way'⟩ := last.adds
    refine ⟨first ++ second, adds.trans more, fun place hplace => ?_⟩
    rcases List.mem_append.mp hplace with hplace | hplace
    · exact ((way place hplace).inside parent).keep more
    · exact way' place hplace

/-! ## Writing a file -/

/-- A path that leads to nothing that is there leads to a free name, if a file can be written
there. -/
lemma write_eq_ok {fs written : FileSystem} {path : String} {content : List UInt8}
    (h : fs.write path content = .ok written) (missing : fs.exists? path = false) :
    ∃ directory name, fs.locate path = .ok (.free directory name) ∧
      written = fs.putAt directory (.file name content) := by
  rw [write] at h
  split at h
  · rename_i directory name hway
    exact ⟨directory, name, hway, (Except.ok.inj h).symm⟩
  · simp at h
  · rename_i place hway
    -- something stands where a path leads
    have hplace : fs.realPlace path = .ok place := by rw [realPlace, hway]
    split at h
    · rename_i n old hfile
      have hexists := exists?_iff.mpr ⟨_, entry_eq_ok_iff.mpr ⟨place, hplace, hfile⟩⟩
      simp [hexists] at missing
    · simp at h
  · simp at h

/-- **Writing a file** where the path leads to nothing adds the file, and the path leads to it. -/
lemma adds_write {fs written : FileSystem} {path : String} {content : List UInt8}
    (h : fs.write path content = .ok written) (missing : fs.exists? path = false) :
    ∃ place, fs.Adds written [place] ∧ written.realPlace path = .ok place ∧
      written.readBytes path = .ok content := by
  obtain ⟨directory, name, hway, rfl⟩ := write_eq_ok h missing
  rw [locate] at hway
  split_ifs at hway with hempty hnull hlong
  obtain ⟨dir, free⟩ := free_of_walk hway
  have adds := adds_putAt (.file name content) rfl free
  have there := at?_putAt dir (.file name content)
  have hplace : (fs.putAt directory (.file name content)).realPlace path =
      .ok (directory ++ [name]) := by
    refine realPlace_eq_ok_iff.mpr ⟨hempty, by simpa using hnull, hlong, ?_⟩
    rw [adds.workingDirectory]
    exact leads_of_walk hway adds there (by simp)
  refine ⟨directory ++ [name], adds, hplace, ?_⟩
  rw [readBytes, entry_eq_ok_iff.mpr ⟨_, hplace, there⟩]

end FileSystem

end CoverageEstimate

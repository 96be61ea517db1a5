/-
# What making a configuration changes

The test for something at the path, the making of the directories around it and the writing of the
file are three steps, and each of them can fail.  None of them takes anything away: a new
configuration adds itself and the directories around it that were missing, and where no
configuration is made, some of these directories may have been made all the same
(`Init.adds_create`).

The test comes before the directories are made.  So a path that leads back out of a directory that
is made, such as `made/../kept`, may pass the test and lead to something all the same
(`Init.LeadsBack`).  Without a double dot this does not happen (`Init.not_leadsBack`).
-/
import CoverageEstimate.CommandLine.Init
import CoverageEstimate.Proofs.FileSystem.Parents

namespace CoverageEstimate.CommandLine

namespace Init

/-- The path leads to nothing at first, but to something when the directories around the file have
been made. -/
def LeadsBack (files : FileSystem) (path : String) : Prop :=
  files.exists? path = false ∧
    ∃ prepared, prepare files path = (prepared, none) ∧ prepared.exists? path = true

/-- A path without a double dot does not lead back. -/
lemma not_leadsBack {path : String} (forward : Path.Component.parent ∉ Path.components path)
    (files : FileSystem) : ¬LeadsBack files path := by
  rintro ⟨missing, prepared, hprepare, hexists⟩
  rw [prepare] at hprepare
  split at hprepare
  · rename_i d hd
    obtain ⟨parent, -⟩ := Option.filter_eq_some_iff.mp hd
    obtain ⟨c, hcomponents, -⟩ := Path.components_of_parent? parent
    have hinner : Path.Component.parent ∉ Path.components d := by
      intro hmem
      exact forward (hcomponents ▸ List.mem_append_left _ hmem)
    have hmakes := files.makesDirectories d
    rw [hprepare] at hmakes
    rcases hmakes.unchanged_or_empty hinner rfl with rfl | hempty
    · simp [missing] at hexists
    · simp [FileSystem.exists?_of_empty_around parent forward hempty] at hexists
  · obtain ⟨rfl, -⟩ := Prod.mk.inj hprepare
    simp [missing] at hexists

/-- A directory stands at the place, and one of the paths around the file leads to it. -/
def IsAround (files : FileSystem) (path : String) (place : List String) : Prop :=
  ∃ around, Path.parent? path = some around ∧ files.OnTheWay around place

/-- Preparing makes directories around the file. -/
lemma adds_prepare (files : FileSystem) (path : String) :
    ∃ around, files.Adds (prepare files path).1 around ∧
      ∀ place ∈ around, IsAround (prepare files path).1 path place := by
  rw [prepare]
  split
  · rename_i d hd
    obtain ⟨parent, -⟩ := Option.filter_eq_some_iff.mp hd
    obtain ⟨around, adds, way⟩ := (files.makesDirectories d).adds
    exact ⟨around, adds, fun place hplace => ⟨d, parent, way place hplace⟩⟩
  · exact ⟨[], .refl files, by simp⟩

lemma IsAround.keep {a b : FileSystem} {places : List (List String)} {path : String}
    {place : List String} (h : IsAround a path place) (adds : a.Adds b places) :
    IsAround b path place := by
  obtain ⟨around, parent, way⟩ := h
  exact ⟨around, parent, way.keep adds⟩

/-- The attempt to make a configuration adds directories around the file, and the file if it
succeeds. -/
lemma adds_create {files : FileSystem} {path : String} (fresh : ¬LeadsBack files path) :
    ∃ around, (∀ place ∈ around, IsAround (create files path).1 path place) ∧
      ((create files path).2 ≠ none ∧ files.Adds (create files path).1 around ∨
        (create files path).2 = none ∧ ∃ place,
          files.Adds (create files path).1 (around ++ [place]) ∧
          (create files path).1.realPlace path = .ok place ∧
          (create files path).1.readBytes path = .ok (Text.bytesOf Config.template)) := by
  rw [create]
  by_cases hexists : files.exists? path = true
  · rw [if_pos hexists]
    exact ⟨[], by simp, .inl ⟨by simp, .refl files⟩⟩
  rw [if_neg hexists]
  obtain ⟨around, adds, way⟩ := adds_prepare files path
  split
  · rename_i prepared e heq
    rw [heq] at adds way
    exact ⟨around, way, .inl ⟨by simp, adds⟩⟩
  · rename_i prepared heq
    rw [heq] at adds way
    split
    · rename_i written hwritten
      -- the path leads to nothing still, so the file is new
      have hmissing : prepared.exists? path = false := by
        by_contra h
        exact fresh ⟨by simpa using hexists, prepared, heq, by simpa using h⟩
      obtain ⟨place, more, hplace, hread⟩ := FileSystem.adds_write hwritten hmissing
      exact ⟨around, fun q hq => (way q hq).keep more,
        .inr ⟨rfl, place, adds.trans more, hplace, hread⟩⟩
    · exact ⟨around, way, .inl ⟨by simp, adds⟩⟩

lemma files_run (path : String) (s : Surroundings) :
    (run path s).files = (create s.files path).1 := by
  rw [run]
  split <;> simp_all [Outcome.failure]

lemma status_run (path : String) (s : Surroundings) :
    (run path s).status = if (create s.files path).2 = none then .success else .error := by
  rw [run]
  split <;> simp_all [Outcome.failure]

/-! ## A file, and a directory that is missing -/

/-- The template starts with a comment. -/
lemma head?_template : (Text.bytesOf Config.template).head? = some 35 := by
  have hlines : Config.templateLines =
      "# sentinel configuration" :: Config.templateLines.tail := rfl
  have hsign : "# sentinel configuration".toList = '#' :: " sentinel configuration".toList := rfl
  rw [Text.bytesOf, Config.template, hlines, List.map_cons, String.join_cons, String.append_assoc,
    String.toList_append, hsign, List.cons_append, List.flatMap_cons, List.head?_append]
  rfl

section Beside

open FileSystem

variable (content : List UInt8)

lemma at?_beside : (FileSystem.mk [.file "f.txt" content] "/").root.at? ["a"] = none := rfl

lemma walk_beside : (FileSystem.mk [.file "f.txt" content] "/").walk linkLimit [] [.into "a"] =
    .ok (.free [] "a") := by
  have short : ¬nameLimit < "a".utf8ByteSize := by decide
  have hnone : Entry.named? "a" [.file "f.txt" content] = none := rfl
  simp [walk, root, Entry.at?, short, hnone]

/-- A path through a directory that is missing leads to nothing. -/
lemma exists?_beside {path : String} {rest : List Step}
    (hsteps : steps (Path.join "/" path) = .into "a" :: rest) :
    (FileSystem.mk [.file "f.txt" content] "/").exists? path = false := by
  by_contra h
  obtain ⟨e, he⟩ := exists?_iff.mp (by simpa using h)
  obtain ⟨q, hq, -⟩ := entry_eq_ok_iff.mp he
  obtain ⟨-, -, -, hway⟩ := realPlace_eq_ok_iff.mp hq
  rw [hsteps] at hway
  cases hway with
  | into _ _ there => exact absurd (there.symm.trans (at?_beside content)) (by simp)
  | follow _ _ there => exact absurd (there.symm.trans (at?_beside content)) (by simp)

lemma makeDirectory_beside : makeDirectory ⟨[.file "f.txt" content], "/"⟩ "a" =
    .ok ⟨[.file "f.txt" content, .directory "a" []], "/"⟩ := by
  have hway : stepsOfDirectory (Path.join "/" "a") = [.into "a"] := by decide
  have short : ¬nameLimit < "a".utf8ByteSize := by decide
  have hnone : Entry.named? "a" [.file "f.txt" content] = none := rfl
  rw [makeDirectory, if_neg (by decide), if_neg (by decide), if_neg (by decide), hway]
  simp [walk, root, Entry.at?, short, hnone, putAt, Entry.changeAt, Entry.put, Entry.name,
    Entry.entries]

lemma at?_made : (FileSystem.mk [.file "f.txt" content, .directory "a" []] "/").root.at? ["a"] =
    some (.directory "a" []) := rfl

lemma walk_made (links : ℕ) (rest : List Step) :
    (FileSystem.mk [.file "f.txt" content, .directory "a" []] "/").walk links []
        (.into "a" :: rest) =
      (FileSystem.mk [.file "f.txt" content, .directory "a" []] "/").walk links ["a"] rest := by
  have short : ¬nameLimit < "a".utf8ByteSize := by decide
  have hmade : Entry.named? "a" [.file "f.txt" content, .directory "a" []] =
      some (.directory "a" []) := rfl
  rw [walk]
  simp [root, Entry.at?, short, hmade]

lemma leads_made (links : ℕ) :
    (FileSystem.mk [.file "f.txt" content, .directory "a" []] "/").Leads links [] [.into "a"]
      ["a"] := by
  rw [← walk_eq_found_iff, walk_made, walk]

/-- The directory that a path leads back out of is made. -/
lemma prepare_back : prepare ⟨[.file "f.txt" content], "/"⟩ "a/../f.txt" =
    (⟨[.file "f.txt" content, .directory "a" []], "/"⟩, none) := by
  have haround : directoryAround? "a/../f.txt" = some "a/.." := by decide
  have hparent : Path.parent? "a/.." = some "a" := by decide
  have hlength : (Path.components "a/..").length = 2 := by decide
  have hsteps : steps (Path.join "/" "a/..") = [.into "a", .up] := by decide
  have hway : stepsOfDirectory (Path.join "/" "a/..") = [.into "a", .up] := by decide
  have hmissing : makeDirectory ⟨[.file "f.txt" content], "/"⟩ "a/.." = .error .notFound := by
    rw [makeDirectory, if_neg (by decide), if_neg (by decide), if_neg (by decide), hway]
    simp [walk_beside]
  have htaken : makeDirectory ⟨[.file "f.txt" content, .directory "a" []], "/"⟩ "a/.." =
      .error .alreadyExists := by
    have hwalk := walk_eq_found_iff.mpr (leads_made content linkLimit)
    rw [makeDirectory, if_neg (by decide), if_neg (by decide), if_neg (by decide), hway]
    simp only [List.dropLast_cons_cons, List.dropLast_singleton, hwalk]
    rfl
  have hthere :
      isDirectory ⟨[.file "f.txt" content, .directory "a" []], "/"⟩ "a/.." = true := by
    have hplace : realPlace ⟨[.file "f.txt" content, .directory "a" []], "/"⟩ "a/.." = .ok [] := by
      refine realPlace_eq_ok_iff.mpr ⟨by decide, by decide, by decide, ?_⟩
      rw [hsteps]
      exact (leads_made content linkLimit).append fun left => .up ⟨_, _, rfl⟩ (.done left _)
    rw [isDirectory, entry_eq_ok_iff.mpr ⟨[], hplace, rfl⟩]
    rfl
  simp [prepare, haround, makeDirectories, hlength, makeDirectoriesIn, hparent, hmissing,
    makeDirectory_beside, htaken, hthere]

/-- A file to which a path leads back is replaced. -/
lemma create_back : create ⟨[.file "f.txt" content], "/"⟩ "a/../f.txt" =
    (⟨[.file "f.txt" (Text.bytesOf Config.template), .directory "a" []], "/"⟩, none) := by
  have hsteps : steps (Path.join "/" "a/../f.txt") = [.into "a", .up, .into "f.txt"] := by decide
  have hfile : (FileSystem.mk [.file "f.txt" content, .directory "a" []] "/").root.at? ["f.txt"] =
      some (.file "f.txt" content) := rfl
  have hlocate : locate ⟨[.file "f.txt" content, .directory "a" []], "/"⟩ "a/../f.txt" =
      .ok (.found ["f.txt"]) := by
    rw [locate, if_neg (by decide), if_neg (by decide), if_neg (by decide), hsteps,
      walk_eq_found_iff]
    refine (leads_made content linkLimit).append fun left => .up ⟨_, _, rfl⟩ ?_
    exact .into ⟨_, _, rfl⟩ (by decide) hfile (by simp) (.done left _)
  rw [create, exists?_beside content hsteps, if_neg (by decide), prepare_back]
  simp only [write, hlocate, hfile]
  rfl

lemma prepare_beside {path : String} (haround : directoryAround? path = some "a") :
    prepare ⟨[.file "f.txt" content], "/"⟩ path =
      (⟨[.file "f.txt" content, .directory "a" []], "/"⟩, none) := by
  simp [prepare, haround, makeDirectories, makeDirectoriesIn, makeDirectory_beside]

/-- In the directory that is made, a file is made. -/
lemma create_beside : (create ⟨[.file "f.txt" content], "/"⟩ "a/sentinel.yaml").2 = none := by
  have hsteps : steps (Path.join "/" "a/sentinel.yaml") = [.into "a", .into "sentinel.yaml"] := by
    decide
  have hlocate : locate ⟨[.file "f.txt" content, .directory "a" []], "/"⟩ "a/sentinel.yaml" =
      .ok (.free ["a"] "sentinel.yaml") := by
    have short : ¬nameLimit < "sentinel.yaml".utf8ByteSize := by decide
    have hnone : Entry.named? "sentinel.yaml" [] = none := rfl
    rw [locate, if_neg (by decide), if_neg (by decide), if_neg (by decide), hsteps, walk_made]
    simp [walk, at?_made, short, hnone]
  rw [create, exists?_beside content hsteps, if_neg (by decide),
    prepare_beside content (by decide)]
  simp only [write, hlocate]

/-- A directory that is made stays when the file in it cannot be written. -/
lemma create_slash : create ⟨[.file "f.txt" content], "/"⟩ "a/b/" =
    (⟨[.file "f.txt" content, .directory "a" []], "/"⟩, some (.unwritable .isDirectory)) := by
  have hsteps : steps (Path.join "/" "a/b/") = [.into "a", .into "b", .slash] := by decide
  have hlocate : locate ⟨[.file "f.txt" content, .directory "a" []], "/"⟩ "a/b/" =
      .ok (.slashed false) := by
    have short : ¬nameLimit < "b".utf8ByteSize := by decide
    have hnone : Entry.named? "b" [] = none := rfl
    rw [locate, if_neg (by decide), if_neg (by decide), if_neg (by decide), hsteps, walk_made]
    simp [walk, at?_made, short, hnone]
  rw [create, exists?_beside content hsteps, if_neg (by decide),
    prepare_beside content (by decide)]
  simp only [write, hlocate]

end Beside

/-! ## What a run leaves -/

/-- **Making a configuration** changes nothing that was there, unless the path leads back out of a
directory that is made.  Where something is there already, nothing is made.  Otherwise the file
with the template is added and the directories around it that were missing, or, where that fails,
no more than some of these directories. -/
theorem run_adds (path : String) (s : Surroundings) (fresh : ¬LeadsBack s.files path) :
    (s.files.exists? path = true → (run path s).status = .error ∧ (run path s).files = s.files) ∧
      (∀ place e, s.files.root.at? place = some e → e.isDirectory = false →
        (run path s).files.root.at? place = some e) ∧
      ∃ around, (∀ place ∈ around, IsAround (run path s).files path place) ∧
        ((run path s).status = .error ∧ s.files.Adds (run path s).files around ∨
          (run path s).status = .success ∧ ∃ place,
            s.files.Adds (run path s).files (around ++ [place]) ∧
            (run path s).files.realPlace path = .ok place ∧
            (run path s).files.readBytes path = .ok (Text.bytesOf Config.template)) := by
  rw [files_run, status_run]
  obtain ⟨around, way, ⟨hfault, adds⟩ | ⟨hnone, place, adds, hfile⟩⟩ := adds_create fresh
  · refine ⟨?_, fun _ _ he hd => adds.at?_eq he hd, around, way, .inl ⟨if_neg hfault, adds⟩⟩
    intro hexists
    exact ⟨if_neg hfault, by rw [create_of_exists hexists]⟩
  · refine ⟨?_, fun _ _ he hd => adds.at?_eq he hd, around, way,
      .inr ⟨if_pos hnone, place, adds, hfile⟩⟩
    intro hexists
    simp [create_of_exists hexists] at hnone

/-- Beside a file, a configuration is made in a directory that was missing. -/
theorem run_adds_beside :
    let s : Surroundings := ⟨⟨[.file "f.txt" (Text.bytesOf "hello")], "/"⟩, none, false⟩
    ¬LeadsBack s.files "a/sentinel.yaml" ∧ (run "a/sentinel.yaml" s).status = .success ∧
      ∃ around place, (∀ q ∈ around, IsAround (run "a/sentinel.yaml" s).files "a/sentinel.yaml" q) ∧
        s.files.Adds (run "a/sentinel.yaml" s).files (around ++ [place]) ∧
        (run "a/sentinel.yaml" s).files.realPlace "a/sentinel.yaml" = .ok place ∧
        (run "a/sentinel.yaml" s).files.readBytes "a/sentinel.yaml" =
          .ok (Text.bytesOf Config.template) := by
  intro s
  have fresh : ¬LeadsBack s.files "a/sentinel.yaml" := not_leadsBack (by decide) s.files
  have hstatus : (run "a/sentinel.yaml" s).status = .success := by
    rw [status_run, if_pos (create_beside _)]
  obtain ⟨-, -, around, way, ⟨herror, -⟩ | ⟨-, place, adds, hfile⟩⟩ :=
    run_adds "a/sentinel.yaml" s fresh
  · rw [hstatus] at herror
    cases herror
  · exact ⟨fresh, hstatus, around, place, way, adds, hfile⟩

/-- A directory is left where the file cannot be written, and a path that leads back replaces a file
that is there. -/
theorem run_leaves_directory :
    let s : Surroundings := ⟨⟨[.file "f.txt" (Text.bytesOf "hello")], "/"⟩, none, false⟩
    ((run "a/b/" s).status = .error ∧ s.files.root.at? ["a"] = none ∧
        (run "a/b/" s).files.root.at? ["a"] = some (.directory "a" [])) ∧
      (run "a/../f.txt" s).status = .success ∧
        (run "a/../f.txt" s).files.root.at? ["f.txt"] ≠ s.files.root.at? ["f.txt"] := by
  intro s
  rw [status_run, files_run, status_run, files_run, create_slash, create_back]
  refine ⟨⟨rfl, rfl, rfl⟩, rfl, fun h => ?_⟩
  have hbytes : Text.bytesOf Config.template = Text.bytesOf "hello" :=
    (Entry.file.inj (Option.some.inj h)).2
  have hfirst := head?_template
  rw [hbytes] at hfirst
  exact absurd hfirst (by decide)

end Init

end CoverageEstimate.CommandLine

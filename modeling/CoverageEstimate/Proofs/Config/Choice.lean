/-
# Which configuration counts, and whether it can be used

The configuration of a project is read from the file that is given, or else from the first file there
is among a few, or else it leaves everything out.  It can be used if its patterns are globs and its
numbers are in their ranges.  The patterns are looked at twice, once when the configuration is checked
and once when the scan gets them; both accept the same ones, so a configuration that has been checked
always gives a scan its exclusions.
-/
import CoverageEstimate.Config.Reader
import Mathlib.Data.List.Basic
import Mathlib.Data.List.Forall2

namespace CoverageEstimate

/-! ## Patterns -/

/-- The check of a configuration accepts just the patterns that are globs. -/
lemma Config.checkPatterns_eq_ok_iff {patterns : List String} :
    checkPatterns patterns = .ok () ↔
      ∀ pattern ∈ patterns, ∃ glob, Glob.ofText pattern = .ok glob := by
  induction patterns with
  | nil => simp [checkPatterns]
  | cons pattern rest ih =>
    rw [checkPatterns, List.forall_mem_cons]
    cases h : Glob.ofText pattern with
    | error fault => simp
    | ok glob => simpa using ih

/-- The exclusions of some patterns are their globs, one for each. -/
lemma Exclusions.ofPatterns_eq_ok_iff {patterns : List String} {globs : Exclusions} :
    ofPatterns patterns = .ok globs ↔
      List.Forall₂ (fun pattern glob => Glob.ofText pattern = .ok glob) patterns globs := by
  induction patterns generalizing globs with
  | nil => simp [ofPatterns, eq_comm (b := globs)]
  | cons pattern rest ih =>
    rw [ofPatterns, List.forall₂_cons_left_iff]
    cases h : Glob.ofText pattern with
    | error fault => simp
    | ok glob =>
      cases hrest : ofPatterns rest with
      | error fault =>
        simp only [reduceCtorEq, false_iff, not_exists, not_and]
        rintro _ others - hothers
        rw [← ih, hrest] at hothers
        exact absurd hothers (by simp)
      | ok others =>
        simp only [Except.ok.injEq]
        constructor
        · rintro rfl
          exact ⟨glob, others, rfl, ih.mp hrest, rfl⟩
        · rintro ⟨_, tail, rfl, htail, rfl⟩
          rw [← ih, hrest] at htail
          rw [Except.ok.inj htail]

/-- Patterns that are globs always have exclusions. -/
lemma Exclusions.exists_ofPatterns_eq_ok {patterns : List String}
    (h : ∀ pattern ∈ patterns, ∃ glob, Glob.ofText pattern = .ok glob) :
    ∃ globs, ofPatterns patterns = .ok globs := by
  induction patterns with
  | nil => exact ⟨[], rfl⟩
  | cons pattern rest ih =>
    obtain ⟨⟨glob, hglob⟩, hrest⟩ := List.forall_mem_cons.mp h
    obtain ⟨globs, hglobs⟩ := ih hrest
    exact ⟨glob :: globs, by rw [ofPatterns, hglob, hglobs]⟩

namespace Config

/-! ## Configurations that can be used -/

/-- A configuration can be used: its patterns are globs, no number of seconds or of files at a time is
zero, and the coverage that is asked for is a percentage. -/
structure IsValid (c : Config) : Prop where
  patterns : ∀ pattern ∈ c.excludedPaths, ∃ glob, Glob.ofText pattern = .ok glob
  time : c.dart.timeoutSeconds ≠ some 0
  jobs : c.jobs ≠ some 0
  minimum : ∀ m, c.minimumCoverage = some m → 0 ≤ m ∧ m ≤ 100

/-- The check accepts just the configurations that can be used. -/
lemma validate_eq_ok_iff {c : Config} : c.validate = .ok () ↔ c.IsValid := by
  constructor
  · intro h
    rw [validate] at h
    split at h
    · exact absurd h (by simp)
    · rename_i hpatterns
      split at h
      · exact absurd h (by simp)
      · rename_i htime
        split at h
        · exact absurd h (by simp)
        · rename_i hjobs
          refine ⟨checkPatterns_eq_ok_iff.mp hpatterns, htime, hjobs, fun m hm => ?_⟩
          rw [hm] at h
          dsimp only at h
          split at h
          · rename_i hpercentage
            simpa [isPercentage] using hpercentage
          · exact absurd h (by simp)
  · rintro ⟨hpatterns, htime, hjobs, hminimum⟩
    rw [validate, checkPatterns_eq_ok_iff.mpr hpatterns]
    dsimp only
    rw [if_neg htime, if_neg hjobs]
    cases hm : c.minimumCoverage with
    | none => rfl
    | some m =>
      have hpercentage : isPercentage m = true := by
        simpa [isPercentage] using hminimum m hm
      simp [hpercentage]

/-! ## The file of a configuration -/

/-- The paths at which a configuration is looked for, in their order. -/
def candidates (user : Option String) (root : String) : List String :=
  [Path.join root "sentinel.yaml", Path.join root ".sentinel.yaml"] ++ user.toList

/-- The path of the file that the configuration of a project is read from, if there is one. -/
inductive IsChosen (files : FileSystem) (user explicit : Option String) (root : String) :
    Option String → Prop
  /-- A path that is given counts whatever is there. -/
  | given {path : String} (h : explicit = some path) : IsChosen files user explicit root (some path)
  /-- Otherwise the first file among those that are looked for counts. -/
  | found {before after : List String} {path : String} (h : explicit = none)
      (hpath : candidates user root = before ++ path :: after) (hfile : files.isFile path = true)
      (hbefore : ∀ p ∈ before, files.isFile p = false) :
      IsChosen files user explicit root (some path)
  /-- There may be none. -/
  | absent (h : explicit = none) (hnone : ∀ p ∈ candidates user root, files.isFile p = false) :
      IsChosen files user explicit root none

/-- What a file is read as; without a file everything is left out. -/
inductive Loads (files : FileSystem) : Option String → Config → Prop
  | file {path text : String} {c : Config} (hread : files.readText path = .ok text)
      (hparse : ofText text = .ok c) : Loads files (some path) c
  | absent : Loads files none ⟨[], ⟨none, [], none⟩, none, none⟩

variable {files : FileSystem} {user explicit chosen : Option String} {root : String} {c : Config}

lemma isChosen_iff : IsChosen files user explicit root chosen ↔
    explicit.or (discover? files user root) = chosen := by
  constructor
  · intro h
    cases h with
    | given h => rw [h, Option.some_or]
    | found h hpath hfile hbefore =>
      rw [h, Option.none_or]
      exact List.find?_eq_some_iff_append.mpr
        ⟨hfile, _, _, hpath, fun p hp => by simp [hbefore p hp]⟩
    | absent h hnone =>
      rw [h, Option.none_or]
      exact List.find?_eq_none.mpr fun p hp => by simp [hnone p hp]
  · rintro rfl
    cases explicit with
    | some path => exact .given rfl
    | none =>
      rw [Option.none_or]
      cases hfind : discover? files user root with
      | none =>
        have hnone := List.find?_eq_none.mp hfind
        exact .absent rfl fun p hp => by simpa using hnone p hp
      | some path =>
        obtain ⟨hfile, before, after, hpath, hbefore⟩ := List.find?_eq_some_iff_append.mp hfind
        exact .found rfl hpath hfile fun p hp => by simpa using hbefore p hp

lemma loads_file_iff {path : String} : Loads files (some path) c ↔ ofFile files path = .ok c := by
  rw [ofFile]
  constructor
  · rintro ⟨hread, hparse⟩
    simp [hread, hparse, Except.mapError]
  · intro h
    split at h
    · exact absurd h (by simp)
    · rename_i text hread
      refine .file hread ?_
      cases hparse : ofText text with
      | error fault => simp [hparse, Except.mapError] at h
      | ok parsed => simpa [hparse, Except.mapError] using h

/-- Loading succeeds just when the chosen file can be read as a configuration. -/
lemma load_eq_ok_iff : load files user explicit root = .ok (c, chosen) ↔
    IsChosen files user explicit root chosen ∧ Loads files chosen c := by
  rw [load, isChosen_iff]
  split
  · rename_i path hpath
    rw [hpath]
    constructor
    · intro h
      cases hfile : ofFile files path with
      | error fault => simp [hfile, Except.map] at h
      | ok loaded =>
        simp only [hfile, Except.map, Except.ok.injEq, Prod.mk.injEq] at h
        obtain ⟨rfl, rfl⟩ := h
        exact ⟨rfl, loads_file_iff.mpr hfile⟩
    · rintro ⟨rfl, hloads⟩
      rw [loads_file_iff.mp hloads]
      rfl
  · rename_i hnone
    rw [hnone]
    constructor
    · intro h
      simp only [Except.ok.injEq, Prod.mk.injEq] at h
      obtain ⟨rfl, rfl⟩ := h
      exact ⟨rfl, .absent⟩
    · rintro ⟨rfl, hloads⟩
      cases hloads
      rfl

/-- Some file is chosen always, or none. -/
lemma exists_isChosen (files : FileSystem) (user explicit : Option String) (root : String) :
    ∃ chosen, IsChosen files user explicit root chosen :=
  ⟨_, isChosen_iff.mpr rfl⟩

/-- A file is read as one configuration only. -/
lemma Loads.unique {d : Config} (h : Loads files chosen c) (h' : Loads files chosen d) : c = d := by
  cases h with
  | absent =>
    cases h'
    rfl
  | file hread hparse =>
    cases h' with
    | file hread' hparse' =>
      obtain rfl := Except.ok.inj (hread.symm.trans hread')
      exact Except.ok.inj (hparse.symm.trans hparse')

end Config

end CoverageEstimate

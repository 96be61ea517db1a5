/-
# File systems that agree but for one file

Two file systems agree but for one place when everything else is the same in both, and at that place
each of them has a regular file or nothing.  A way along a path that ends elsewhere is then the same
in both: a file is where a way ends, so no way leads through it.
-/
import CoverageEstimate.FileSystem.Change
import CoverageEstimate.Proofs.FileSystem.Ways

namespace CoverageEstimate

/-- The entry as it is seen from outside: a directory without what it holds. -/
def Entry.surface : Entry → Entry
  | directory n _ => directory n []
  | e => e

namespace FileSystem

open Entry (surface)

/-! ## What is seen at a place -/

/-- What is seen at a place: a directory is seen without what it holds. -/
def surfaceAt (fs : FileSystem) (place : List String) : Option Entry :=
  (fs.root.at? place).map surface

section Surface

variable {a b : FileSystem} {place : List String}

lemma surfaceAt_eq_none_iff : a.surfaceAt place = none ↔ a.root.at? place = none := by
  rw [surfaceAt, Option.map_eq_none_iff]

/-- Where the same is seen, there is a directory in both or in neither. -/
lemma IsDirectoryAt.of_surfaceAt (hd : a.IsDirectoryAt place)
    (same : b.surfaceAt place = a.surfaceAt place) : b.IsDirectoryAt place := by
  obtain ⟨n, es, hd⟩ := hd
  rw [surfaceAt, surfaceAt, hd, Option.map_some, Option.map_eq_some_iff] at same
  obtain ⟨e, he, hsurface⟩ := same
  cases e with
  | directory m inner => exact ⟨m, inner, he⟩
  | file | link => simp [surface] at hsurface

/-- What is no directory is seen as it is. -/
lemma at?_of_surfaceAt {e : Entry} (he : a.root.at? place = some e) (hd : e.isDirectory = false)
    (same : b.surfaceAt place = a.surfaceAt place) : b.root.at? place = some e := by
  rw [surfaceAt, surfaceAt, he, Option.map_some, Option.map_eq_some_iff] at same
  obtain ⟨f, hf, hsurface⟩ := same
  cases e with
  | directory => simp [Entry.isDirectory] at hd
  | file | link => cases f <;> simp_all [surface]

/-- Where the same is seen, there is a link in both or in neither. -/
lemma exists_of_not_link {e : Entry} (he : a.root.at? place = some e)
    (real : ∀ m target, e ≠ .link m target) (same : b.surfaceAt place = a.surfaceAt place) :
    ∃ f, b.root.at? place = some f ∧ ∀ m target, f ≠ .link m target := by
  cases e with
  | file n content => exact ⟨_, at?_of_surfaceAt he rfl same, real⟩
  | link n target => exact absurd rfl (real n target)
  | directory n es =>
    obtain ⟨m, inner, hm⟩ := IsDirectoryAt.of_surfaceAt ⟨n, es, he⟩ same
    exact ⟨_, hm, by simp⟩

end Surface

/-- **Ways that are kept.**  A way leads to the same place in a file system that keeps what stands
on it.  What is lost may be files, since no way leads through a file. -/
lemma Leads.keep {a b : FileSystem} (lost : List String → Prop)
    (kept : ∀ p e, ¬lost p → a.root.at? p = some e → b.surfaceAt p = a.surfaceAt p)
    (files : ∀ p e, lost p → a.root.at? p = some e → e.isFile = true)
    {links : ℕ} {here place : List String} {todo : List Step}
    (hl : a.Leads links here todo place) (hend : ¬lost place) : b.Leads links here todo place := by
  have notDirectory : ∀ p, lost p → ¬a.IsDirectoryAt p := by
    rintro p hp ⟨n, es, hd⟩
    exact absurd (files p _ hp hd) (by simp [Entry.isFile])
  have directory : ∀ p, a.IsDirectoryAt p → b.IsDirectoryAt p := by
    rintro p ⟨n, es, hd⟩
    have hp : ¬lost p := fun hp => notDirectory p hp ⟨n, es, hd⟩
    exact IsDirectoryAt.of_surfaceAt ⟨n, es, hd⟩ (kept p _ hp hd)
  induction hl with
  | done links here => exact .done links here
  | stay dir next ih => exact .stay (directory _ dir) (ih hend)
  | slash dir next ih => exact .slash (directory _ dir) (ih hend)
  | up dir next ih => exact .up (directory _ dir) (ih hend)
  | @into links here place rest n e dir short there real next ih =>
    have hn : ¬lost (here ++ [n]) := by
      intro hn
      -- no way leads on from a file
      rw [next.eq_of_not_directory (notDirectory _ hn)] at hend
      exact hend hn
    obtain ⟨f, hf, hreal⟩ := exists_of_not_link there real (kept _ _ hn there)
    exact .into (directory _ dir) short hf hreal (ih hend)
  | @follow links here place rest n m target dir short there aimed next ih =>
    have hn : ¬lost (here ++ [n]) := fun hn => absurd (files _ _ hn there) (by simp [Entry.isFile])
    exact .follow (directory _ dir) short (at?_of_surfaceAt there rfl (kept _ _ hn there)) aimed
      (ih hend)

/-! ## Agreement -/

/-- Everything is the same in both file systems but at one place, where each of them has a regular
file or nothing. -/
structure AgreeBut (spot : List String) (a b : FileSystem) : Prop where
  workingDirectory : a.workingDirectory = b.workingDirectory
  elsewhere : ∀ place, place ≠ spot →
    (a.root.at? place).map surface = (b.root.at? place).map surface
  left : ∀ e, a.root.at? spot = some e → e.isFile = true
  right : ∀ e, b.root.at? spot = some e → e.isFile = true

namespace AgreeBut

variable {spot : List String} {a b : FileSystem}

lemma symm (h : AgreeBut spot a b) : AgreeBut spot b a where
  workingDirectory := h.workingDirectory.symm
  elsewhere place hne := (h.elsewhere place hne).symm
  left := h.right
  right := h.left

/-- The place where they need not agree has no directory. -/
lemma not_isDirectoryAt (h : AgreeBut spot a b) : ¬a.IsDirectoryAt spot := by
  rintro ⟨n, es, hd⟩
  exact absurd (h.left _ hd) (by simp [Entry.isFile])

/-- Directories stand at the same places. -/
lemma isDirectoryAt (h : AgreeBut spot a b) {place : List String} (hd : a.IsDirectoryAt place) :
    b.IsDirectoryAt place := by
  have hne : place ≠ spot := by
    rintro rfl
    exact h.not_isDirectoryAt hd
  exact hd.of_surfaceAt (h.elsewhere place hne).symm

/-- What is no directory is the same, but for the one place. -/
lemma at?_eq (h : AgreeBut spot a b) {place : List String} (hne : place ≠ spot) {e : Entry}
    (he : a.root.at? place = some e) (hd : e.isDirectory = false) : b.root.at? place = some e :=
  at?_of_surfaceAt he hd (h.elsewhere place hne).symm

/-- A way that ends elsewhere is the same in both. -/
lemma leads (h : AgreeBut spot a b) {links : ℕ} {here place : List String} {todo : List Step}
    (hl : a.Leads links here todo place) (hne : place ≠ spot) :
    b.Leads links here todo place := by
  refine hl.keep (· = spot) ?_ ?_ hne
  · intro p e hp _
    exact (h.elsewhere p hp).symm
  · rintro p e rfl he
    exact h.left e he

/-- A path that leads elsewhere leads to the same place in both. -/
lemma realPlace (h : AgreeBut spot a b) {path : String} {place : List String}
    (hp : a.realPlace path = .ok place) (hne : place ≠ spot) : b.realPlace path = .ok place := by
  obtain ⟨hempty, hnull, hlong, hl⟩ := realPlace_eq_ok_iff.mp hp
  rw [realPlace_eq_ok_iff, ← h.workingDirectory]
  exact ⟨hempty, hnull, hlong, h.leads hl hne⟩

/-- A text that is read elsewhere is the same in both. -/
lemma readText (h : AgreeBut spot a b) {path text : String} (ht : a.readText path = .ok text)
    (hne : ∀ place, a.realPlace path = .ok place → ¬a.IsDirectoryAt place → place ≠ spot) :
    b.readText path = .ok text := by
  obtain ⟨place, n, content, hplace, hfile, htext⟩ := readText_eq_ok_iff.mp ht
  have hother : place ≠ spot := by
    refine hne place hplace ?_
    rintro ⟨m, es, hm⟩
    simp [hfile] at hm
  exact readText_eq_ok_iff.mpr
    ⟨place, n, content, h.realPlace hplace hother, h.at?_eq hother hfile rfl, htext⟩

end AgreeBut

end FileSystem

/-! ## Putting a file into a directory -/

namespace Entry

variable {directory place : List String} {name : String} {content : List UInt8} {e : Entry}

lemma name_changeAt (change : List Entry → List Entry) (directory : List String) (e : Entry) :
    (changeAt change directory e).name = e.name := by
  cases directory <;> cases e <;> rfl

/-- The way through a directory in which the directories of one name have been changed. -/
lemma at?_changeAt_cons (change : List Entry → List Entry) (m : String) (ms : List String)
    (n : String) (es : List Entry) (k : String) (ks : List String) :
    (changeAt change (m :: ms) (.directory n es)).at? (k :: ks) =
      (named? k es).bind fun e => (if k = m then changeAt change ms e else e).at? ks := by
  have hname (e : Entry) : (if e.name = m then changeAt change ms e else e).name = e.name := by
    split
    · exact name_changeAt change ms e
    · rfl
  rw [at?_cons, changeAt, entries, named?, List.find?_map]
  simp only [Function.comp_def, hname]
  rw [← named?]
  cases hk : named? k es with
  | none => rfl
  | some e =>
    have he : e.name = k := by simpa using List.find?_some hk
    rw [Option.map_some, Option.bind_some, Option.bind_some, he]

/-- Putting an entry that holds nothing into a directory changes nothing elsewhere, if what it takes
the place of holds nothing either. -/
lemma surface_at?_changeAt_put {new : Entry} (bare : new.entries = [])
    (old : ∀ f, e.at? (directory ++ [new.name]) = some f → f.entries = [])
    (hne : place ≠ directory ++ [new.name]) :
    ((changeAt (put new) directory e).at? place).map surface = (e.at? place).map surface := by
  induction directory generalizing e place with
  | nil =>
    cases e with
    | file | link => rfl
    | directory n es =>
      cases place with
      | nil => rfl
      | cons k ks =>
        rw [changeAt, at?_cons, at?_cons, entries, entries]
        by_cases hk : k = new.name
        · subst hk
          obtain ⟨j, js, rfl⟩ := List.exists_cons_of_ne_nil (l := ks) (by simpa using hne)
          -- nothing stands below the new entry, and nothing has stood below the old one
          rw [named?_put_self, Option.bind_some, at?_cons_of_entries_nil bare]
          cases hold : named? new.name es with
          | none => rfl
          | some f =>
            have hf := old f (by rw [List.nil_append, at?_cons, entries, hold]; rfl)
            rw [Option.bind_some, at?_cons_of_entries_nil hf]
        · rw [named?_put_of_ne hk]
  | cons m ms ih =>
    cases e with
    | file | link => rfl
    | directory n es =>
      cases place with
      | nil => rfl
      | cons k ks =>
        rw [at?_changeAt_cons, at?_cons, entries]
        cases hk : named? k es with
        | none => rfl
        | some inner =>
          rw [Option.bind_some, Option.bind_some]
          by_cases hkm : k = m
          · subst hkm
            rw [if_pos rfl]
            refine ih (fun f hf => old f ?_) (by simpa using hne)
            rw [List.cons_append, at?_cons, entries, hk]
            exact hf
          · rw [if_neg hkm]

/-- Where a file is put, there is a file, or nothing if there is no such directory. -/
lemma isFile_of_at?_changeAt_put
    (file : ∀ f, e.at? (directory ++ [name]) = some f → f.isFile = true) {f : Entry}
    (hf : (changeAt (put (.file name content)) directory e).at? (directory ++ [name]) = some f) :
    f.isFile = true := by
  induction directory generalizing e with
  | nil =>
    cases e with
    | file | link => exact file f hf
    | directory n es =>
      have hput : named? name (put (.file name content) es) = some (.file name content) :=
        named?_put_self (.file name content) es
      rw [List.nil_append, changeAt, at?_cons, entries, hput] at hf
      obtain rfl := Option.some.inj hf
      rfl
  | cons m ms ih =>
    cases e with
    | file | link => exact file f hf
    | directory n es =>
      rw [List.cons_append, at?_changeAt_cons] at hf
      obtain ⟨inner, hinner, hf⟩ := Option.bind_eq_some_iff.mp hf
      rw [if_pos rfl] at hf
      refine ih (fun g hg => file g ?_) hf
      rw [List.cons_append, at?_cons, entries, hinner]
      exact hg

end Entry

namespace FileSystem

lemma root_putAt (fs : FileSystem) (directory : List String) (new : Entry) :
    (fs.putAt directory new).root = Entry.changeAt (Entry.put new) directory fs.root := by
  cases directory <;> rfl

/-- **Putting a file into a directory** leaves a file system that agrees with the one before it but
for that file. -/
lemma agreeBut_putAt (fs : FileSystem) {directory : List String} {name : String}
    (file : ∀ e, fs.root.at? (directory ++ [name]) = some e → e.isFile = true)
    (content : List UInt8) :
    fs.AgreeBut (directory ++ [name]) (fs.putAt directory (.file name content)) where
  workingDirectory := rfl
  elsewhere place hne := by
    rw [root_putAt]
    have hold : ∀ f, fs.root.at? (directory ++ [name]) = some f → f.entries = [] := by
      intro f hf
      have hfile := file f hf
      cases f with
      | file => rfl
      | link | directory => simp [Entry.isFile] at hfile
    have bare : (Entry.file name content).entries = [] := rfl
    exact (Entry.surface_at?_changeAt_put bare hold hne).symm
  left := file
  right e he := by
    rw [root_putAt] at he
    exact Entry.isFile_of_at?_changeAt_put file he

end FileSystem

end CoverageEstimate

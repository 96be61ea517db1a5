/-
# Ways along paths

A path is followed step by step, and most of what can happen on the way is a failure.  This file
describes the ways that end at something (`Leads`), each step by what stands at one place, and shows
that they are what a walk finds (`walk_eq_found_iff`).

A way in two parts can be taken apart (`Leads.split`), whatever links it follows.  So the path of a
file below a directory leads through the directory to that file, however the directory itself was
reached (`eq_append_of_realPlace`).
-/
import CoverageEstimate.Proofs.Scan.Places

namespace CoverageEstimate

namespace Entry

/-- A place below a place. -/
lemma at?_append (e : Entry) (front back : List String) :
    e.at? (front ++ back) = (e.at? front).bind fun inner => inner.at? back := by
  induction front generalizing e with
  | nil => rfl
  | cons n ns ih =>
    rw [List.cons_append, at?_cons, at?_cons, Option.bind_assoc]
    exact congrArg _ (funext ih)

/-- The entry of a name in a directory stands at the place of the name there. -/
lemma at?_append_singleton {e : Entry} {here : List String} {m : String} {es : List Entry}
    (h : e.at? here = some (directory m es)) (n : String) : e.at? (here ++ [n]) = named? n es := by
  rw [at?_append, h, Option.bind_some, at?_cons, entries]
  cases named? n es <;> rfl

end Entry

namespace FileSystem

/-- A directory stands at the place. -/
def IsDirectoryAt (fs : FileSystem) (place : List String) : Prop :=
  ∃ n es, fs.root.at? place = some (.directory n es)

/-- The steps lead from one place to another, through at most so many links. -/
inductive Leads (fs : FileSystem) : ℕ → List String → List Step → List String → Prop
  | done (links : ℕ) (here : List String) : Leads fs links here [] here
  | stay {links : ℕ} {here place : List String} {rest : List Step} (dir : fs.IsDirectoryAt here)
      (next : Leads fs links here rest place) : Leads fs links here (.stay :: rest) place
  | slash {links : ℕ} {here place : List String} {rest : List Step} (dir : fs.IsDirectoryAt here)
      (next : Leads fs links here rest place) : Leads fs links here (.slash :: rest) place
  | up {links : ℕ} {here place : List String} {rest : List Step} (dir : fs.IsDirectoryAt here)
      (next : Leads fs links here.dropLast rest place) : Leads fs links here (.up :: rest) place
  | into {links : ℕ} {here place : List String} {rest : List Step} {n : String} {e : Entry}
      (dir : fs.IsDirectoryAt here) (short : ¬nameLimit < n.utf8ByteSize)
      (there : fs.root.at? (here ++ [n]) = some e) (real : ∀ m target, e ≠ .link m target)
      (next : Leads fs links (here ++ [n]) rest place) : Leads fs links here (.into n :: rest) place
  | follow {links : ℕ} {here place : List String} {rest : List Step} {n m target : String}
      (dir : fs.IsDirectoryAt here) (short : ¬nameLimit < n.utf8ByteSize)
      (there : fs.root.at? (here ++ [n]) = some (.link m target)) (aimed : target ≠ "")
      (next : Leads fs links (if Path.isAbsolute target then [] else here)
        (steps target ++ rest) place) : Leads fs (links + 1) here (.into n :: rest) place

/-- **Walks and ways.**  A walk finds a place exactly when the steps lead there. -/
lemma walk_eq_found_iff {fs : FileSystem} {links : ℕ} {here place : List String}
    {todo : List Step} :
    fs.walk links here todo = .ok (.found place) ↔ fs.Leads links here todo place := by
  constructor
  · intro h
    fun_induction FileSystem.walk fs links here todo with
    | case1 links here =>
      obtain rfl := Place.found.inj (Except.ok.inj h)
      exact .done links here
    | case2 links here rest m es hd ih => exact .stay ⟨m, es, hd⟩ (ih h)
    | case3 links here rest m es hd ih => exact .slash ⟨m, es, hd⟩ (ih h)
    | case4 links here rest m es hd ih => exact .up ⟨m, es, hd⟩ (ih h)
    | case8 here rest m es hd n short k target hn left aimed ih =>
      exact .follow ⟨m, es, hd⟩ short ((Entry.at?_append_singleton hd n).trans hn) aimed (ih h)
    | case9 links here rest m es hd n short e real hn ih =>
      exact .into ⟨m, es, hd⟩ short ((Entry.at?_append_singleton hd n).trans hn)
        (fun k target he => real k target he) (ih h)
    | case5 | case6 | case7 | case10 | case11 | case12 | case13 | case14 | case15 => simp at h
  · intro h
    induction h with
    | done links here => rw [walk]
    | stay dir next ih | slash dir next ih | up dir next ih =>
      obtain ⟨m, es, hd⟩ := dir
      rw [walk, hd]
      exact ih
    | @into links here place rest n e dir short there real next ih =>
      obtain ⟨m, es, hd⟩ := dir
      have hn : Entry.named? n es = some e := (Entry.at?_append_singleton hd n).symm.trans there
      rw [walk, hd]
      simp only [short, hn, if_false]
      cases e with
      | link k target => exact absurd rfl (real k target)
      | file | directory => exact ih
    | @follow links here place rest n k target dir short there aimed next ih =>
      obtain ⟨m, es, hd⟩ := dir
      have hn : Entry.named? n es = some (.link k target) :=
        (Entry.at?_append_singleton hd n).symm.trans there
      rw [walk, hd]
      simp only [short, hn, aimed, if_false]
      exact ih

/-- The way that some steps lead has one end. -/
lemma Leads.unique {fs : FileSystem} {links : ℕ} {here p q : List String} {todo : List Step}
    (hp : fs.Leads links here todo p) (hq : fs.Leads links here todo q) : p = q :=
  Place.found.inj (Except.ok.inj ((walk_eq_found_iff.mpr hp).symm.trans (walk_eq_found_iff.mpr hq)))

/-- No way leads on from a place without a directory. -/
lemma Leads.eq_of_not_directory {fs : FileSystem} {links : ℕ} {here place : List String}
    {todo : List Step} (h : fs.Leads links here todo place) (file : ¬fs.IsDirectoryAt here) :
    place = here := by
  cases h with
  | done => rfl
  | stay dir | slash dir | up dir | into dir | follow dir => exact absurd dir file

/-- Steps in two parts lead to where the second part leads from where the first one ends. -/
lemma Leads.split {fs : FileSystem} {links : ℕ} {here place : List String}
    {front back todo : List Step} (h : fs.Leads links here todo place)
    (htodo : todo = front ++ back) :
    ∃ left middle, fs.Leads links here front middle ∧ fs.Leads left middle back place := by
  induction h generalizing front with
  | done links here =>
    obtain ⟨rfl, rfl⟩ := List.append_eq_nil_iff.mp htodo.symm
    exact ⟨links, here, .done links here, .done links here⟩
  | stay dir next ih =>
    rcases List.cons_eq_append_iff.mp htodo with ⟨rfl, rfl⟩ | ⟨front, rfl, hrest⟩
    · exact ⟨_, _, .done _ _, .stay dir next⟩
    · obtain ⟨left, middle, hfront, hback⟩ := ih hrest
      exact ⟨left, middle, .stay dir hfront, hback⟩
  | slash dir next ih =>
    rcases List.cons_eq_append_iff.mp htodo with ⟨rfl, rfl⟩ | ⟨front, rfl, hrest⟩
    · exact ⟨_, _, .done _ _, .slash dir next⟩
    · obtain ⟨left, middle, hfront, hback⟩ := ih hrest
      exact ⟨left, middle, .slash dir hfront, hback⟩
  | up dir next ih =>
    rcases List.cons_eq_append_iff.mp htodo with ⟨rfl, rfl⟩ | ⟨front, rfl, hrest⟩
    · exact ⟨_, _, .done _ _, .up dir next⟩
    · obtain ⟨left, middle, hfront, hback⟩ := ih hrest
      exact ⟨left, middle, .up dir hfront, hback⟩
  | into dir short there real next ih =>
    rcases List.cons_eq_append_iff.mp htodo with ⟨rfl, rfl⟩ | ⟨front, rfl, hrest⟩
    · exact ⟨_, _, .done _ _, .into dir short there real next⟩
    · obtain ⟨left, middle, hfront, hback⟩ := ih hrest
      exact ⟨left, middle, .into dir short there real hfront, hback⟩
  | @follow links here place rest n m target dir short there aimed next ih =>
    rcases List.cons_eq_append_iff.mp htodo with ⟨rfl, rfl⟩ | ⟨front, rfl, hrest⟩
    · exact ⟨_, _, .done _ _, .follow dir short there aimed next⟩
    · -- the steps of the link belong to the first part
      have hsteps : steps target ++ rest = (steps target ++ front) ++ back := by
        rw [hrest, List.append_assoc]
      obtain ⟨left, middle, hfront, hback⟩ := ih hsteps
      exact ⟨left, middle, .follow dir short there aimed hfront, hback⟩

/-! ## Places below a directory -/

/-- What is around a place where something stands is a directory. -/
lemma isDirectoryAt_of_append {fs : FileSystem} {front back : List String} {e : Entry}
    (h : fs.root.at? (front ++ back) = some e) (hne : back ≠ []) : fs.IsDirectoryAt front := by
  obtain ⟨n, ns, rfl⟩ := List.exists_cons_of_ne_nil hne
  rw [Entry.at?_append] at h
  obtain ⟨around, hfront, hback⟩ := Option.bind_eq_some_iff.mp h
  cases around with
  | directory m es => exact ⟨m, es, hfront⟩
  | file | link => exact absurd hback (by rw [Entry.at?_cons_of_entries_nil rfl]; simp)

lemma IsDirectoryAt.dropLast {fs : FileSystem} {place : List String} (h : fs.IsDirectoryAt place) :
    fs.IsDirectoryAt place.dropLast := by
  obtain ⟨n, es, h⟩ := h
  rcases List.eq_nil_or_concat place with rfl | ⟨front, m, rfl⟩
  · exact ⟨n, es, h⟩
  · rw [List.concat_eq_append] at h ⊢
    rw [List.dropLast_concat]
    exact isDirectoryAt_of_append h (by simp)

/-- What stands at a place is not two things. -/
lemma IsDirectoryAt.ne_link {fs : FileSystem} {place : List String} (h : fs.IsDirectoryAt place)
    {m target : String} : fs.root.at? place ≠ some (.link m target) := by
  obtain ⟨n, es, h⟩ := h
  simp [h]

/-- From a directory, the names of directories lead to the place that they give. -/
lemma Leads.eq_append {fs : FileSystem} {links : ℕ} {here place dirs : List String}
    (h : fs.Leads links here (dirs.map .into) place) (dir : fs.IsDirectoryAt (here ++ dirs)) :
    place = here ++ dirs := by
  induction dirs generalizing links here with
  | nil =>
    cases h
    simp
  | cons n ns ih =>
    have happend : here ++ n :: ns = here ++ [n] ++ ns := by simp
    rw [happend] at dir ⊢
    have hfirst : fs.IsDirectoryAt (here ++ [n]) := by
      cases ns with
      | nil => simpa using dir
      | cons m ms =>
        obtain ⟨k, es, hk⟩ := dir
        exact isDirectoryAt_of_append hk (by simp)
    -- every entry on the way is a directory, so no link is followed
    cases h with
    | into _ _ _ _ next => exact ih next dir
    | follow _ _ there => exact absurd there hfirst.ne_link

/-- A way goes on where it has ended. -/
lemma Leads.append {fs : FileSystem} {links : ℕ} {here middle place : List String}
    {front back : List Step} (hfront : fs.Leads links here front middle)
    (hback : ∀ left, fs.Leads left middle back place) :
    fs.Leads links here (front ++ back) place := by
  induction hfront with
  | done links here => exact hback links
  | stay dir next ih => exact .stay dir (ih hback)
  | slash dir next ih => exact .slash dir (ih hback)
  | up dir next ih => exact .up dir (ih hback)
  | into dir short there real next ih => exact .into dir short there real (ih hback)
  | follow dir short there aimed next ih =>
    have hnext := ih hback
    rw [List.append_assoc] at hnext
    exact .follow dir short there aimed hnext

/-- The names of directories lead from one directory to another, and follow no link. -/
lemma leads_names {fs : FileSystem} {here dirs : List String}
    (dir : fs.IsDirectoryAt (here ++ dirs)) (short : ∀ d ∈ dirs, d.utf8ByteSize ≤ nameLimit)
    (links : ℕ) : fs.Leads links here (dirs.map .into) (here ++ dirs) := by
  induction dirs generalizing here with
  | nil =>
    rw [List.append_nil]
    exact .done links here
  | cons n ns ih =>
    have happend : here ++ n :: ns = here ++ [n] ++ ns := by simp
    obtain ⟨m, es, hm⟩ := dir
    have hhere : fs.IsDirectoryAt here := isDirectoryAt_of_append hm (by simp)
    rw [happend] at hm ⊢
    have hnext : fs.IsDirectoryAt (here ++ [n]) := by
      cases ns with
      | nil => exact ⟨m, es, by simpa using hm⟩
      | cons k ks => exact isDirectoryAt_of_append hm (by simp)
    obtain ⟨hn, hns⟩ := List.forall_mem_cons.mp short
    obtain ⟨k, inner, hk⟩ := hnext
    exact .into hhere (Nat.not_lt.mpr hn) hk (by simp) (ih ⟨m, es, hm⟩ hns)

/-! ## The steps of a path below another -/

/-- The steps for the names of a path, without the slash at its end. -/
def namedSteps (path : String) : List Step := (Path.segments path).filterMap step?

lemma steps_eq (path : String) :
    steps path = namedSteps path ++ if path.toList.getLast? == some '/' then [.slash] else [] := rfl

/-- A slash parts the names before it from those behind it. -/
lemma namedSteps_append_slash (front back : String) :
    namedSteps (front ++ "/" ++ back) = namedSteps front ++ namedSteps back := by
  rw [namedSteps, Scan.segments_append_slash, List.filterMap_append, namedSteps, namedSteps]

/-- A path below another goes on with its own steps. -/
lemma namedSteps_join {base path : String} (hbase : base ≠ "")
    (hpath : Path.isAbsolute path = false) :
    namedSteps (Path.join base path) = namedSteps base ++ namedSteps path := by
  rw [Path.join, if_neg (by simp [hbase, hpath])]
  split
  · rename_i hlast
    -- the slash at the end of the base has no step
    obtain ⟨front, hfront⟩ := List.getLast?_eq_some_iff.mp (by simpa using hlast)
    have hb : base = String.ofList front ++ "/" ++ "" := by
      rw [← String.toList_inj]
      simpa using hfront
    have hempty : namedSteps "" = [] := by decide
    have hjoin : base ++ path = String.ofList front ++ "/" ++ path := by
      rw [hb, String.append_empty]
    rw [hjoin, namedSteps_append_slash, hb, namedSteps_append_slash, hempty, List.append_nil]
  · rw [namedSteps_append_slash]

lemma isAbsolute_join {base path : String} (hbase : base ≠ "")
    (hpath : Path.isAbsolute path = false) :
    Path.isAbsolute (Path.join base path) = Path.isAbsolute base := by
  obtain ⟨c, cs, hcs⟩ := List.exists_cons_of_ne_nil fun h => hbase (String.toList_eq_nil_iff.mp h)
  rw [Path.join, if_neg (by simp [hbase, hpath])]
  split <;> simp [Path.isAbsolute, hcs]

/-- Seen from any directory around, the steps to a path below another are those to the other and
then its own. -/
lemma namedSteps_join_join {base path : String} (hbase : base ≠ "")
    (hpath : Path.isAbsolute path = false) (around : String) :
    namedSteps (Path.join around (Path.join base path)) =
      namedSteps (Path.join around base) ++ namedSteps path := by
  have hinner := namedSteps_join hbase hpath
  by_cases h : (Path.isAbsolute base || around = "") = true
  · rw [Path.join, if_pos (by simpa [isAbsolute_join hbase hpath] using h), Path.join.eq_def around,
      if_pos h, hinner]
  · rw [Bool.or_eq_true, not_or, Bool.not_eq_true, decide_eq_true_eq] at h
    obtain ⟨hrelative, haround⟩ := h
    rw [namedSteps_join haround (by rw [isAbsolute_join hbase hpath, hrelative]), hinner,
      namedSteps_join haround hrelative, List.append_assoc]

lemma getLast?_join {path : String} (hpath : path ≠ "") (base : String) :
    (Path.join base path).toList.getLast? = path.toList.getLast? := by
  have hne : path.toList ≠ [] := fun h => hpath (String.toList_eq_nil_iff.mp h)
  rw [Path.join]
  split
  · rfl
  · split <;> simp [List.getLast?_append, List.getLast?_cons, List.getLast?_eq_some_getLast hne]

lemma join_ne_empty {path : String} (hpath : path ≠ "") (base : String) :
    Path.join base path ≠ "" := by
  intro h
  have hlast := getLast?_join hpath base
  rw [h] at hlast
  exact hpath (String.toList_eq_nil_iff.mp (List.getLast?_eq_none_iff.mp hlast.symm))

section Below

open Scan (pathTo)
open Entry (IsName)

variable {place : List String}

lemma namedSteps_pathTo (hne : place ≠ []) (names : ∀ n ∈ place, IsName n) :
    namedSteps (pathTo place) = place.filterMap step? := by
  rw [namedSteps, Scan.segments_pathTo hne names]

/-- The path of a place does not start with a slash. -/
lemma isAbsolute_pathTo (hne : place ≠ []) (names : ∀ n ∈ place, IsName n) :
    Path.isAbsolute (pathTo place) = false := by
  rw [← Bool.not_eq_true]
  intro habs
  obtain ⟨rest, hrest⟩ := List.head?_eq_some_iff.mp (by simpa [Path.isAbsolute] using habs)
  -- the slash would part an empty name from the others
  have hempty : "" ∈ Path.segments (pathTo place) := by
    rw [Path.segments, hrest, ← List.nil_append ('/' :: rest), List.splitOn,
      List.splitOnP_append_cons _ _ (by simp)]
    simp
  rw [Scan.segments_pathTo hne names] at hempty
  exact (names "" hempty).1 rfl

/-- The path of a place does not end in a slash. -/
lemma getLast?_pathTo (hne : place ≠ []) (names : ∀ n ∈ place, IsName n) :
    (pathTo place).toList.getLast? ≠ some '/' := by
  intro hlast
  obtain ⟨front, hfront⟩ := List.getLast?_eq_some_iff.mp hlast
  have hempty : "" ∈ Path.segments (pathTo place) := by
    rw [Path.segments, hfront, List.splitOn, List.splitOnP_append_cons _ _ (by simp)]
    simp
  rw [Scan.segments_pathTo hne names] at hempty
  exact (names "" hempty).1 rfl

/-- The steps to a place below a directory: those to the directory, and then its names. -/
lemma steps_join_pathTo (hne : place ≠ []) (names : ∀ n ∈ place, IsName n) {base : String}
    (hbase : base ≠ "") (around : String) :
    steps (Path.join around (Path.join base (pathTo place))) =
      namedSteps (Path.join around base) ++ place.filterMap step? := by
  have hpath := Scan.pathTo_ne_empty hne names
  have hinner : Path.join base (pathTo place) ≠ "" := join_ne_empty hpath base
  have hlast :
      ¬((Path.join around (Path.join base (pathTo place))).toList.getLast? == some '/') := by
    rw [getLast?_join hinner, getLast?_join hpath]
    simpa using getLast?_pathTo hne names
  rw [steps_eq, if_neg hlast, List.append_nil,
    namedSteps_join_join hbase (isAbsolute_pathTo hne names), namedSteps_pathTo hne names]

end Below

/-! ## Where paths lead -/

lemma realPlace_eq_ok_iff {fs : FileSystem} {path : String} {q : List String} :
    fs.realPlace path = .ok q ↔ path ≠ "" ∧ '\x00' ∉ path.toList ∧
      ¬pathLimit < path.utf8ByteSize ∧
        fs.Leads linkLimit [] (steps (Path.join fs.workingDirectory path)) q := by
  rw [← walk_eq_found_iff, realPlace, locate]
  by_cases hempty : path = ""
  · simp [hempty]
  by_cases hnull : '\x00' ∈ path.toList
  · simp [hempty, hnull]
  by_cases hlong : pathLimit < path.utf8ByteSize
  · simp [hempty, hnull, hlong]
  simp only [hempty, hnull, hlong, if_false, List.contains_iff_mem, Ne, not_false_eq_true,
    true_and]
  cases fs.walk linkLimit [] (steps (Path.join fs.workingDirectory path)) with
  | error e => simp
  | ok p =>
    cases p with
    | found p => simp
    | free directory name => simp
    | slashed taken => cases taken <;> simp

lemma entry_eq_ok_iff {fs : FileSystem} {path : String} {e : Entry} :
    fs.entry path = .ok e ↔
      ∃ place, fs.realPlace path = .ok place ∧ fs.root.at? place = some e := by
  rw [entry]
  cases fs.realPlace path with
  | error e => simp
  | ok place => cases hat : fs.root.at? place <;> simp [hat]

lemma exists?_iff {fs : FileSystem} {path : String} :
    fs.exists? path = true ↔ ∃ e, fs.entry path = .ok e := by
  rw [exists?]
  cases fs.entry path <;> simp [Except.isOk, Except.toBool]

/-- A text is read from the file that the path leads to. -/
lemma readText_eq_ok_iff {fs : FileSystem} {path text : String} :
    fs.readText path = .ok text ↔ ∃ place n content, fs.realPlace path = .ok place ∧
      fs.root.at? place = some (.file n content) ∧ Text.ofBytes? content = some text := by
  have hbytes : fs.readText path = .ok text ↔ ∃ n content, fs.entry path = .ok (.file n content) ∧
      Text.ofBytes? content = some text := by
    rw [readText, readBytes]
    cases fs.entry path with
    | error e => simp
    | ok e =>
      cases e with
      | file n content => cases htext : Text.ofBytes? content <;> simp [htext]
      | link | directory => simp
  rw [hbytes]
  constructor
  · rintro ⟨n, content, he, htext⟩
    obtain ⟨place, hplace, hat⟩ := entry_eq_ok_iff.mp he
    exact ⟨place, n, content, hplace, hat, htext⟩
  · rintro ⟨place, n, content, hplace, hat, htext⟩
    exact ⟨n, content, entry_eq_ok_iff.mpr ⟨place, hplace, hat⟩, htext⟩

/-! ## Where the path of a file below a directory leads -/

/-- The slash at the end of a path leads nowhere else. -/
lemma Leads.namedSteps {fs : FileSystem} {links : ℕ} {here place : List String} {path : String}
    (h : fs.Leads links here (steps path) place) : fs.Leads links here (namedSteps path) place := by
  rw [steps_eq] at h
  split at h
  · obtain ⟨left, middle, hfront, hback⟩ := h.split rfl
    cases hback with
    | slash dir next =>
      cases next
      exact hfront
  · rwa [List.append_nil] at h

lemma step?_of_visible {n : String} (name : Entry.IsName n) (visible : n.toList.head? ≠ some '.') :
    step? n = some (.into n) := by
  have hdot : n ≠ "." := fun h => visible (by rw [h]; rfl)
  have hdots : n ≠ ".." := fun h => visible (by rw [h]; rfl)
  simp [step?, name.1, hdot, hdots]

/-- Visible names are steps of their own. -/
lemma filterMap_step?_of_visible {dirs : List String} (names : ∀ d ∈ dirs, Entry.IsName d)
    (visible : ∀ d ∈ dirs, d.toList.head? ≠ some '.') :
    dirs.filterMap step? = dirs.map .into := by
  rw [← List.filterMap_eq_map]
  refine List.filterMap_congr ?_
  intro d hd
  exact step?_of_visible (names d hd) (visible d hd)

/-- From a directory, one name leads to a directory or to what has the name there. -/
lemma Leads.eq_append_singleton {fs : FileSystem} {links : ℕ} {here place : List String}
    {n : String} (h : fs.Leads links here ([n].filterMap step?) place)
    (file : ¬fs.IsDirectoryAt place) (dir : fs.IsDirectoryAt here)
    (real : ∀ m target, fs.root.at? (here ++ [n]) ≠ some (.link m target)) :
    place = here ++ [n] := by
  by_cases hempty : n = ""
  · subst hempty
    cases h
    exact absurd dir file
  by_cases hdot : n = "."
  · subst hdot
    cases h with
    | stay _ next =>
      cases next
      exact absurd dir file
  by_cases hdots : n = ".."
  · subst hdots
    cases h with
    | up _ next =>
      cases next
      exact absurd dir.dropLast file
  have hsteps : [n].filterMap step? = [.into n] := by simp [step?, hempty, hdot, hdots]
  rw [hsteps] at h
  cases h with
  | into _ _ _ _ next =>
    cases next
    rfl
  | follow _ _ there => exact absurd there (real _ _)

/-- **The path of a file below a directory** leads to the file, if it leads to a file at all.  The
directories between the two are visible, so each of their names is a step. -/
lemma eq_append_of_realPlace {fs : FileSystem} {root : String} {top dirs q : List String}
    {n : String} {e : Entry} (hroot : fs.realPlace root = .ok top)
    (names : ∀ d ∈ dirs ++ [n], Entry.IsName d)
    (visible : ∀ d ∈ dirs, d.toList.head? ≠ some '.')
    (there : fs.root.at? (top ++ dirs ++ [n]) = some e) (real : ∀ m target, e ≠ .link m target)
    (h : fs.realPlace (Path.join root (Scan.pathTo (dirs ++ [n]))) = .ok q)
    (file : ¬fs.IsDirectoryAt q) : q = top ++ dirs ++ [n] := by
  obtain ⟨hne, -, -, htop⟩ := realPlace_eq_ok_iff.mp hroot
  obtain ⟨-, -, -, hq⟩ := realPlace_eq_ok_iff.mp h
  have hdirs : dirs.filterMap step? = dirs.map .into :=
    filterMap_step?_of_visible (fun d hd => names d (List.mem_append_left _ hd)) visible
  rw [steps_join_pathTo (by simp) names hne, List.filterMap_append, hdirs] at hq
  -- first to the directory, then through the directories below it, and then the last step
  obtain ⟨left, middle, hmiddle, hq⟩ := hq.split rfl
  obtain rfl := htop.namedSteps.unique hmiddle
  have hd : fs.IsDirectoryAt (top ++ dirs) := isDirectoryAt_of_append there (by simp)
  obtain ⟨left, middle, hmiddle, hq⟩ := hq.split rfl
  obtain rfl := hmiddle.eq_append hd
  refine hq.eq_append_singleton file hd fun m target hlink => ?_
  exact real m target (Option.some.inj (there.symm.trans hlink))

/-- The system takes the path of a directory below a directory: it does not end inside, and neither
the path nor one of its names is too long. -/
structure TakesPath (root : String) (dirs : List String) : Prop where
  not_ended : '\x00' ∉ (Path.join root (Scan.pathTo dirs)).toList
  short : (Path.join root (Scan.pathTo dirs)).utf8ByteSize ≤ pathLimit
  names_short : ∀ d ∈ dirs, d.utf8ByteSize ≤ nameLimit

/-- **The path of a directory below a directory** leads to it, if the system takes the path. -/
lemma realPlace_join_pathTo {fs : FileSystem} {root : String} {top dirs : List String}
    (hroot : fs.realPlace root = .ok top) (hne : dirs ≠ [])
    (names : ∀ d ∈ dirs, Entry.IsName d) (visible : ∀ d ∈ dirs, d.toList.head? ≠ some '.')
    (dir : fs.IsDirectoryAt (top ++ dirs)) (taken : TakesPath root dirs) :
    fs.realPlace (Path.join root (Scan.pathTo dirs)) = .ok (top ++ dirs) := by
  obtain ⟨hempty, -, -, htop⟩ := realPlace_eq_ok_iff.mp hroot
  have hpath := join_ne_empty (Scan.pathTo_ne_empty hne names) root
  refine realPlace_eq_ok_iff.mpr ⟨hpath, taken.not_ended, Nat.not_lt.mpr taken.short, ?_⟩
  rw [steps_join_pathTo hne names hempty, filterMap_step?_of_visible names visible]
  exact htop.namedSteps.append (leads_names dir taken.names_short)

end FileSystem

end CoverageEstimate

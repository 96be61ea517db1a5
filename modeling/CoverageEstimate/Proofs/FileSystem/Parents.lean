/-
# The directory around a path

A path without its last component is put together again from the components before
(`Path.parent?`).  The path has these components (`Path.components_of_parent?`), so the steps to it
are those to the directory around it and one more, but for the single dots, which lead nowhere.  And
making directories from the outside in comes to an end (`makeDirectories_eq`).

Where no component is a double dot, the last step goes into the directory around.  So nothing is at
a path while that directory is empty (`exists?_of_empty_around`), and a directory that has been made
is empty.
-/
import CoverageEstimate.Proofs.FileSystem.Additions

namespace CoverageEstimate

namespace Path

/-! ## Components -/

/-- What a component can be behind the first one. -/
def Component.IsBehind : Component → Prop
  | root | current => False
  | parent => True
  | name n => Entry.IsName n ∧ n ≠ "." ∧ n ≠ ".."

/-- Components as a path can have them. -/
def AreProper : List Component → Prop
  | [] => True
  | c :: rest => (c = .root ∨ c = .current ∨ c.IsBehind) ∧ ∀ d ∈ rest, d.IsBehind

lemma slash_not_mem_of_mem_segments {path segment : String} (h : segment ∈ segments path) :
    '/' ∉ segment.toList := by
  have hparts (cs : List Char) : ∀ part ∈ cs.splitOn '/', '/' ∉ part := by
    induction cs with
    | nil => simp
    | cons c cs ih =>
      rw [List.splitOn_cons_eq_if_modifyHead]
      obtain ⟨first, rest, hsplit⟩ := List.exists_cons_of_ne_nil (List.splitOn_ne_nil '/' cs)
      rw [hsplit] at ih ⊢
      split
      · exact List.forall_mem_cons.mpr ⟨by simp, ih⟩
      · rename_i hc
        obtain ⟨hfirst, hrest⟩ := List.forall_mem_cons.mp ih
        refine List.forall_mem_cons.mpr ⟨?_, hrest⟩
        rw [List.mem_cons, not_or]
        refine ⟨?_, hfirst⟩
        rintro rfl
        simp at hc
  obtain ⟨part, hpart, rfl⟩ := List.mem_map.mp h
  rw [String.toList_ofList]
  exact hparts _ part hpart

lemma isBehind_of_component? {segment : String} {c : Component}
    (h : component? segment = some c) (plain : '/' ∉ segment.toList) : c.IsBehind := by
  rw [component?] at h
  split_ifs at h with hnone hparent
  · obtain rfl := Option.some.inj h
    trivial
  · obtain rfl := Option.some.inj h
    simp only [Bool.or_eq_true, decide_eq_true_eq, not_or] at hnone
    exact ⟨⟨hnone.1, plain⟩, hnone.2, hparent⟩

lemma areProper_components (path : String) : AreProper (components path) := by
  have hrest : ∀ c ∈ (segments path).filterMap component?, c.IsBehind := by
    intro c hc
    obtain ⟨segment, hsegment, hc⟩ := List.mem_filterMap.mp hc
    exact isBehind_of_component? hc (slash_not_mem_of_mem_segments hsegment)
  rw [components]
  split_ifs
  · exact ⟨.inl rfl, hrest⟩
  · exact ⟨.inr (.inl rfl), hrest⟩
  · generalize (segments path).filterMap component? = cs at hrest
    cases cs with
    | nil => trivial
    | cons c rest =>
      obtain ⟨hc, hrest⟩ := List.forall_mem_cons.mp hrest
      exact ⟨.inr (.inr hc), hrest⟩

lemma AreProper.left {front back : List Component} (h : AreProper (front ++ back)) :
    AreProper front := by
  cases front with
  | nil => trivial
  | cons c rest => exact ⟨h.1, fun d hd => h.2 d (List.mem_append_left _ hd)⟩

lemma component?_text {c : Component} (h : c.IsBehind) : component? c.text = some c := by
  cases c with
  | root | current => exact h.elim
  | parent => rfl
  | name n =>
    obtain ⟨⟨hempty, -⟩, hdot, hdots⟩ := h
    simp [Component.text, component?, hempty, hdot, hdots]

lemma filterMap_component?_text {cs : List Component} (h : ∀ c ∈ cs, c.IsBehind) :
    (cs.map Component.text).filterMap component? = cs := by
  rw [List.filterMap_map]
  conv_rhs => rw [← List.filterMap_some (l := cs)]
  exact List.filterMap_congr fun c hc => component?_text (h c hc)

lemma slash_not_mem_text {c : Component} (h : c = .root ∨ c = .current ∨ c.IsBehind) :
    '/' ∉ c.text.toList := by
  rcases h with rfl | rfl | h
  · decide
  · decide
  · cases c with
    | root | current => exact h.elim
    | parent => decide
    | name n => exact h.1.2

lemma text_of_isBehind {c : Component} (h : c.IsBehind) : c.text ≠ "" ∧ c.text ≠ "." := by
  cases c with
  | root | current => exact h.elim
  | parent => decide
  | name n => exact ⟨h.1.1, h.2.1⟩

/-- Texts that are joined with slashes start as the first of them does. -/
lemma isAbsolute_intercalate {first : String} (hne : first ≠ "") (plain : '/' ∉ first.toList)
    (rest : List String) : isAbsolute ("/".intercalate (first :: rest)) = false := by
  obtain ⟨d, ds, hd⟩ :=
    List.exists_cons_of_ne_nil fun h => hne (String.toList_eq_nil_iff.mp h)
  have hslash : d ≠ '/' := fun h => plain (by rw [hd, h]; exact List.mem_cons_self)
  cases rest with
  | nil => simp [isAbsolute, String.intercalate_singleton, hd, hslash]
  | cons => simp [isAbsolute, String.intercalate_cons_cons, hd, hslash]

/-- The components of texts that are joined with slashes. -/
lemma components_intercalate {parts : List String} (hne : parts ≠ [])
    (plain : ∀ n ∈ parts, '/' ∉ n.toList) :
    components ("/".intercalate parts) =
      if isAbsolute ("/".intercalate parts) then .root :: parts.filterMap component?
      else if parts.head? == some "." then .current :: parts.filterMap component?
      else parts.filterMap component? := by
  rw [components, Scan.segments_intercalate hne plain]

/-- Components are those of the path that is put together from them. -/
lemma components_ofComponents {cs : List Component} (h : AreProper cs) :
    components (ofComponents cs) = cs := by
  cases cs with
  | nil => decide
  | cons c rest =>
    obtain ⟨hc, hrest⟩ := h
    have plain : ∀ n ∈ (c :: rest).map Component.text, '/' ∉ n.toList := by
      intro n hn
      obtain ⟨d, hd, rfl⟩ := List.mem_map.mp hn
      rcases List.mem_cons.mp hd with rfl | hd
      · exact slash_not_mem_text hc
      · exact slash_not_mem_text (.inr (.inr (hrest d hd)))
    have hbehind := filterMap_component?_text hrest
    rcases hc with rfl | rfl | hc
    · cases rest with
      | nil => decide
      | cons d ds =>
        have habs :
            isAbsolute ("/".intercalate ((.root :: d :: ds).map Component.text)) = true := by
          simp [isAbsolute, Component.text, String.intercalate_cons_cons]
        rw [ofComponents, components_intercalate (by simp) plain, if_pos habs, List.map_cons,
          Component.text, List.filterMap_cons_none rfl, hbehind]
        simp
    · have habs := isAbsolute_intercalate (show "." ≠ "" by decide) (by decide)
        (rest.map Component.text)
      rw [ofComponents, components_intercalate (by simp) plain, List.map_cons, Component.text, habs,
        List.filterMap_cons_none rfl, hbehind]
      · rfl
      · simp
    · have htext := text_of_isBehind hc
      have habs := isAbsolute_intercalate htext.1 (slash_not_mem_text (.inr (.inr hc)))
        (rest.map Component.text)
      have hroot : ¬(c :: rest) = [.root] := by
        rintro heq
        obtain ⟨rfl, -⟩ := List.cons.inj heq
        exact hc
      rw [ofComponents, components_intercalate (by simp) plain, List.map_cons, habs,
        List.filterMap_cons_some (component?_text hc), hbehind]
      · simp [htext.2]
      · exact hroot

/-- **The directory around a path** has the components of the path but the last. -/
lemma components_of_parent? {path around : String} (h : parent? path = some around) :
    ∃ c, components path = components around ++ [c] ∧ c ≠ .root ∧
      (components around = [] → around = "") := by
  rw [parent?] at h
  split at h
  · simp at h
  · simp at h
  · rename_i c hroot hlast
    obtain rfl := Option.some.inj h
    have hsplit := List.dropLast_append_getLast? c hlast
    have hproper : AreProper (components path).dropLast :=
      AreProper.left (hsplit.symm ▸ areProper_components path)
    rw [components_ofComponents hproper]
    refine ⟨c, hsplit.symm, hroot, fun hnil => ?_⟩
    rw [hnil]
    rfl

lemma isAbsolute_iff {path : String} :
    isAbsolute path = true ↔ (components path).head? = some .root := by
  rw [components]
  split_ifs with habs hdot
  · simp [habs]
  · simp [habs]
  · refine iff_of_false habs fun hhead => ?_
    have hmem := List.mem_of_head? hhead
    obtain ⟨segment, hsegment, hc⟩ := List.mem_filterMap.mp hmem
    exact isBehind_of_component? hc (slash_not_mem_of_mem_segments hsegment)

end Path

namespace FileSystem

/-! ## Steps without single dots -/

/-- The step for a component, if it leads anywhere. -/
def stepOf? : Path.Component → Option Step
  | .root | .current => none
  | .parent => some .up
  | .name n => some (.into n)

/-- The steps for the names of a path that lead anywhere. -/
def moves (path : String) : List Step := (namedSteps path).filter (· != .stay)

lemma moves_eq (path : String) : moves path = (Path.components path).filterMap stepOf? := by
  have hstep (segment : String) :
      ((step? segment).filter (· != .stay)) = (Path.component? segment).bind stepOf? := by
    rw [step?, Path.component?]
    by_cases hempty : segment = ""
    · simp [hempty]
    by_cases hdot : segment = "."
    · simp [hdot]
    by_cases hdots : segment = ".."
    · simp [hdots, stepOf?]
    simp [hempty, hdot, hdots, stepOf?]
  have hrest : ((Path.segments path).filterMap Path.component?).filterMap stepOf? = moves path := by
    rw [moves, namedSteps, List.filter_filterMap, List.filterMap_filterMap]
    exact List.filterMap_congr fun segment _ => (hstep segment).symm
  rw [Path.components, ← hrest]
  split_ifs <;> rfl

/-- Steps lead where they lead without the single dots in their second part. -/
lemma Leads.without_dots {fs : FileSystem} {links : ℕ} {here place : List String}
    {front back todo : List Step} (h : fs.Leads links here todo place)
    (htodo : todo = front ++ back) :
    fs.Leads links here (front ++ back.filter (· != .stay)) place := by
  induction h generalizing front back with
  | done links here =>
    obtain ⟨rfl, rfl⟩ := List.append_eq_nil_iff.mp htodo.symm
    exact .done links here
  | @stay links here place rest dir next ih =>
    rcases List.cons_eq_append_iff.mp htodo with ⟨rfl, rfl⟩ | ⟨front, rfl, hrest⟩
    · have hnext := ih (List.nil_append rest).symm
      exact hnext
    · exact .stay dir (ih hrest)
  | slash dir next ih =>
    rcases List.cons_eq_append_iff.mp htodo with ⟨rfl, rfl⟩ | ⟨front, rfl, hrest⟩
    · exact .slash dir (ih (List.nil_append _).symm)
    · exact .slash dir (ih hrest)
  | up dir next ih =>
    rcases List.cons_eq_append_iff.mp htodo with ⟨rfl, rfl⟩ | ⟨front, rfl, hrest⟩
    · exact .up dir (ih (List.nil_append _).symm)
    · exact .up dir (ih hrest)
  | into dir short there real next ih =>
    rcases List.cons_eq_append_iff.mp htodo with ⟨rfl, rfl⟩ | ⟨front, rfl, hrest⟩
    · exact .into dir short there real (ih (List.nil_append _).symm)
    · exact .into dir short there real (ih hrest)
  | @follow links here place rest n m target dir short there aimed next ih =>
    rcases List.cons_eq_append_iff.mp htodo with ⟨rfl, rfl⟩ | ⟨front, rfl, hrest⟩
    · exact .follow dir short there aimed (ih rfl)
    · have hsteps : steps target ++ rest = (steps target ++ front) ++ back := by
        rw [hrest, List.append_assoc]
      have hnext := ih hsteps
      rw [List.append_assoc] at hnext
      exact .follow dir short there aimed hnext

/-- A path leads where its steps lead without the single dots. -/
lemma leads_moves {fs : FileSystem} {path : String} {place : List String}
    (h : fs.realPlace path = .ok place) :
    fs.Leads linkLimit [] (moves (Path.join fs.workingDirectory path)) place := by
  obtain ⟨-, -, -, hl⟩ := realPlace_eq_ok_iff.mp h
  exact hl.namedSteps.without_dots (List.nil_append _).symm

/-- Seen from any directory, the steps to a path are those to the directory around it and the last
one. -/
lemma moves_join_of_components {path around : String} {c : Path.Component}
    (h : Path.components path = Path.components around ++ [c]) (hne : Path.components around ≠ [])
    (base : String) :
    moves (Path.join base path) = moves (Path.join base around) ++ (stepOf? c).toList := by
  have hmoves : moves path = moves around ++ (stepOf? c).toList := by
    rw [moves_eq, moves_eq, h, List.filterMap_append]
    cases hc : stepOf? c <;> simp [hc]
  have habs : Path.isAbsolute path = Path.isAbsolute around := by
    rw [Bool.eq_iff_iff, Path.isAbsolute_iff, Path.isAbsolute_iff, h,
      List.head?_append_of_ne_nil _ hne]
  by_cases hjoin : (Path.isAbsolute around || base = "") = true
  · rw [Path.join, habs, if_pos hjoin, Path.join, if_pos hjoin, hmoves]
  · rw [Bool.or_eq_true, not_or, Bool.not_eq_true, decide_eq_true_eq] at hjoin
    obtain ⟨hrelative, hbase⟩ := hjoin
    rw [moves, moves, namedSteps_join hbase (habs.trans hrelative), namedSteps_join hbase hrelative,
      List.filter_append, List.filter_append, ← moves, ← moves, ← moves, hmoves,
      List.append_assoc]

/-! ## Below an empty directory -/

/-- The path leads to a directory that holds nothing. -/
def IsEmptyDirectory (fs : FileSystem) (path : String) : Prop :=
  ∃ place n, fs.realPlace path = .ok place ∧ fs.root.at? place = some (.directory n [])

lemma exists?_of_isDirectory {fs : FileSystem} {path : String} (h : fs.isDirectory path = true) :
    fs.exists? path = true := by
  rw [isDirectory] at h
  split at h
  · rename_i e he
    exact exists?_iff.mpr ⟨e, he⟩
  · simp at h

/-- A path without a double dot leads to nothing while the directory around it is empty. -/
lemma exists?_of_empty_around {fs : FileSystem} {path around : String}
    (parent : Path.parent? path = some around)
    (forward : Path.Component.parent ∉ Path.components path)
    (empty : fs.IsEmptyDirectory around) : fs.exists? path = false := by
  obtain ⟨place, n, hplace, there⟩ := empty
  obtain ⟨c, hcomponents, hroot, hnil⟩ := Path.components_of_parent? parent
  have hne : Path.components around ≠ [] := by
    intro h
    exact (realPlace_eq_ok_iff.mp hplace).1 (hnil h)
  -- the last component is a name, since it is not the first one
  have hbehind : c.IsBehind := by
    obtain ⟨first, rest, hfirst⟩ := List.exists_cons_of_ne_nil hne
    have hproper := Path.areProper_components path
    rw [hcomponents, hfirst] at hproper
    exact hproper.2 c (by simp)
  obtain ⟨m, rfl⟩ : ∃ m, c = .name m := by
    cases c with
    | root | current => exact hbehind.elim
    | parent => exact absurd (by simp [hcomponents]) forward
    | name m => exact ⟨m, rfl⟩
  have hat : fs.root.at? (place ++ [m]) = none := Entry.at?_append_singleton there m
  by_contra hexists
  obtain ⟨e, he⟩ := exists?_iff.mp (by simpa using hexists)
  obtain ⟨q, hq, -⟩ := entry_eq_ok_iff.mp he
  have hway := leads_moves hq
  rw [moves_join_of_components hcomponents hne] at hway
  obtain ⟨left, middle, hfront, hback⟩ := hway.split rfl
  obtain rfl := hfront.unique (leads_moves hplace)
  cases hback with
  | into _ _ hthere => simp [hat] at hthere
  | follow _ _ hthere => simp [hat] at hthere

/-- The bound on the number of directories is never met: a path has one component more than the
path around it. -/
lemma makeDirectories_eq (fs : FileSystem) (path : String) :
    fs.makeDirectories path =
      if path = "" then (fs, none)
      else
        match fs.makeDirectory path with
        | .ok made => (made, none)
        | .error .notFound =>
          match Path.parent? path with
          | none => (fs, some .notFound)
          | some around =>
            match fs.makeDirectories around with
            | (made, some e) => (made, some e)
            | (made, none) =>
              match made.makeDirectory path with
              | .ok result => (result, none)
              | .error e => if made.isDirectory path then (made, none) else (made, some e)
        | .error e => if fs.isDirectory path then (fs, none) else (fs, some e) := by
  rw [makeDirectories, makeDirectoriesIn]
  cases hparent : Path.parent? path with
  | none => rfl
  | some around =>
    obtain ⟨c, hcomponents, -⟩ := Path.components_of_parent? hparent
    rw [hcomponents, List.length_append, List.length_singleton]
    rfl

/-- **A directory that has been made is empty.**  Making directories along a path without a double
dot changes nothing, or the path leads to an empty directory then. -/
lemma MakesDirectories.unchanged_or_empty {fs : FileSystem} {path : String}
    {result : FileSystem × Option FileError} (h : fs.MakesDirectories path result)
    (forward : Path.Component.parent ∉ Path.components path) (done : result.2 = none) :
    result.1 = fs ∨ result.1.IsEmptyDirectory path := by
  have empty {before made : FileSystem} {p : String} (h : before.makeDirectory p = .ok made) :
      made.IsEmptyDirectory p := by
    obtain ⟨place, n, -, there, hplace⟩ := adds_makeDirectory h
    exact ⟨place, n, hplace, there⟩
  induction h with
  | empty => exact .inl rfl
  | one h =>
    cases h with
    | made h => exact .inr (empty h)
    | there => exact .inl rfl
    | failed e => simp at done
  | failed => simp at done
  | @inside path around made result parent h last ih =>
    obtain ⟨c, hcomponents, -⟩ := Path.components_of_parent? parent
    have hinner : Path.Component.parent ∉ Path.components around := by
      intro hmem
      exact forward (hcomponents ▸ List.mem_append_left _ hmem)
    cases last with
    | made h => exact .inr (empty h)
    | failed e => simp at done
    | there hdir =>
      rcases ih hinner rfl with rfl | haround
      · exact .inl rfl
      · -- the directory around has just been made, so nothing is in it
        have hmissing := exists?_of_empty_around parent forward haround
        rw [exists?_of_isDirectory hdir] at hmissing
        simp at hmissing

end FileSystem

end CoverageEstimate

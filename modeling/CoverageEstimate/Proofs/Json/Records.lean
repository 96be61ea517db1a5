/-
# Reading members and items

An object is read by the names of its members: each wanted member is read once, in the place where
it is written, and what becomes of it can be looked up afterwards, wherever that place was.  A list
of documents is read item by item, which brings back the items that were written.
-/
import CoverageEstimate.Json.Shape
import Mathlib.Tactic.Lemma

namespace CoverageEstimate.Json

/-! ## Members -/

lemma member?_eq_none {name : String} {members : List (String × Value)}
    (h : name ∉ members.map (·.1)) : Value.member? name members = none := by
  induction members with
  | nil => rfl
  | cons m rest ih =>
    obtain ⟨hne, hrest⟩ : name ≠ m.1 ∧ name ∉ rest.map (·.1) := by simpa using h
    rw [Value.member?, ih hrest, Option.orElse_none, if_neg (Ne.symm hne)]

/-- Where no name is repeated, every member can be looked up by its name. -/
lemma member?_of_mem {m : String × Value} {members : List (String × Value)}
    (distinct : (members.map (·.1)).Nodup) (h : m ∈ members) :
    Value.member? m.1 members = some m.2 := by
  induction members with
  | nil => exact absurd h List.not_mem_nil
  | cons k rest ih =>
    obtain ⟨hnew, hrest⟩ := List.nodup_cons.mp distinct
    rcases List.mem_cons.mp h with rfl | h
    · rw [Value.member?, member?_eq_none hnew, Option.orElse_none, if_pos rfl]
    · rw [Value.member?, ih hrest h, Option.orElse_some]

/-- The next name is new where no name is repeated. -/
lemma any_eq_false_of_nodup {taken : List (String × Value)} {name : String} {names : List String}
    (distinct : (taken.map (·.1) ++ name :: names).Nodup) :
    taken.any (·.1 == name) = false := by
  have hnodup := (List.nodup_append.mp distinct).2.2
  rw [List.any_eq_false]
  intro k hk heq
  exact hnodup k.1 (List.mem_map_of_mem hk) name List.mem_cons_self (beq_iff_eq.mp heq)

section Members

variable {field? : String → Option (Value → Except Cause Value)}

/-- **Reading members.**  When no name with a field is repeated and every field can read its member,
exactly the members with a field are taken, each as its field reads it. -/
lemma takeMembers_append {members : List (String × Value)} (taken : List (String × Value))
    (distinct : (taken.map (·.1) ++
      (members.filter fun m => (field? m.1).isSome).map (·.1)).Nodup)
    (reads : ∀ m ∈ members, ∀ read ∈ field? m.1, ∃ w, read m.2 = .ok w) :
    ∃ written, takeMembers field? taken members = .ok (taken ++ written) ∧
      written.map (·.1) = (members.filter fun m => (field? m.1).isSome).map (·.1) ∧
      ∀ m ∈ members, ∀ read ∈ field? m.1, ∀ w, read m.2 = .ok w → (m.1, w) ∈ written := by
  induction members generalizing taken with
  | nil => exact ⟨[], by simp [takeMembers], rfl, by simp⟩
  | cons m rest ih =>
    obtain ⟨hfirst, hothers⟩ := List.forall_mem_cons.mp reads
    cases hfield : field? m.1 with
    | none =>
      obtain ⟨written, htake, hnames, hmem⟩ := ih taken (by simpa [hfield] using distinct) hothers
      refine ⟨written, ?_, by simpa [hfield] using hnames, ?_⟩
      · rw [takeMembers, hfield]
        exact htake
      · refine List.forall_mem_cons.mpr ⟨?_, hmem⟩
        simp [hfield]
    | some read =>
      obtain ⟨w, hw⟩ := hfirst read hfield
      have hdistinct : ((taken ++ [(m.1, w)]).map (·.1) ++
          (rest.filter fun m => (field? m.1).isSome).map (·.1)).Nodup := by
        simpa [hfield] using distinct
      obtain ⟨written, htake, hnames, hmem⟩ := ih (taken ++ [(m.1, w)]) hdistinct hothers
      have hnew : taken.any (·.1 == m.1) = false := by
        simp only [List.filter_cons, hfield, Option.isSome_some, if_true, List.map_cons] at distinct
        exact any_eq_false_of_nodup distinct
      refine ⟨(m.1, w) :: written, ?_, by simp [hfield, hnames], ?_⟩
      · simp only [takeMembers, hfield, hnew, Bool.false_eq_true, if_false, hw, bind, Except.bind,
          htake, List.append_assoc, List.singleton_append]
      · refine List.forall_mem_cons.mpr ⟨?_, fun k hk read hread w hw =>
          List.mem_cons_of_mem _ (hmem k hk read hread w hw)⟩
        intro read' hread' w' hw'
        obtain rfl : read = read' := Option.some.inj (hfield.symm.trans hread')
        obtain rfl : w = w' := Except.ok.inj (hw.symm.trans hw')
        exact List.mem_cons_self

lemma isSome_normalize? (fields : Fields) (name : String) :
    (fields.normalize? name).isSome = fields.has name := by
  fun_induction Fields.has fields name with
  | case1 => rfl
  | case2 n presence shape others name ih =>
    rw [Fields.normalize?]
    split
    · rename_i hname
      rw [hname]
      rfl
    · rename_i hname
      rw [ih, Bool.eq_false_iff.mpr hname, Bool.false_or]

/-- **Reading members in any order.**  The known members of an object can be looked up after the
reading, as their fields read them, and no others are taken. -/
lemma takeMembers_of_perm {fields : Fields} {members known others : List (String × Value)}
    (perm : members.Perm (known ++ others)) (hknown : ∀ m ∈ known, fields.has m.1 = true)
    (hothers : ∀ m ∈ others, fields.has m.1 = false) (distinct : (known.map (·.1)).Nodup)
    (reads : ∀ m ∈ known, ∀ read ∈ fields.normalize? m.1, ∃ w, read m.2 = .ok w) :
    ∃ written, takeMembers fields.normalize? [] members = .ok written ∧
      (written.map (·.1)).Perm (known.map (·.1)) ∧
      ∀ m ∈ known, ∀ read ∈ fields.normalize? m.1, ∀ w, read m.2 = .ok w →
        Value.member? m.1 written = some w := by
  have hfilter : (members.filter fun m => (fields.normalize? m.1).isSome).Perm known := by
    simp only [isSome_normalize?]
    have hleft : known.filter (fun m => fields.has m.1) = known := List.filter_eq_self.mpr hknown
    have hright : others.filter (fun m => fields.has m.1) = [] :=
      List.filter_eq_nil_iff.mpr fun m hm => by simp [hothers m hm]
    have hperm := perm.filter fun m => fields.has m.1
    rwa [List.filter_append, hleft, hright, List.append_nil] at hperm
  have hreads : ∀ m ∈ members, ∀ read ∈ fields.normalize? m.1, ∃ w, read m.2 = .ok w := by
    intro m hm read hread
    rcases List.mem_append.mp (perm.mem_iff.mp hm) with hm | hm
    · exact reads m hm read hread
    · have hfield := isSome_normalize? fields m.1
      rw [Option.mem_def.mp hread, hothers m hm] at hfield
      simp at hfield
  have hnames := hfilter.map (·.1)
  obtain ⟨written, htake, hwritten, hmem⟩ :=
    takeMembers_append [] (by simpa using hnames.nodup_iff.mpr distinct) hreads
  rw [← hwritten] at hnames
  refine ⟨written, htake, hnames, fun m hm read hread w hw => ?_⟩
  exact member?_of_mem (hnames.nodup_iff.mpr distinct)
    (hmem m (perm.mem_iff.mpr (List.mem_append_left _ hm)) read hread w hw)

/-- Without fields, no member is taken. -/
lemma takeMembers_none (taken members : List (String × Value)) :
    takeMembers Fields.none.normalize? taken members = .ok taken := by
  induction members with
  | nil => rfl
  | cons m rest ih => rwa [takeMembers, Fields.normalize?]

/-- A record without scattered fields is read from the members of its fields alone. -/
lemma normalize_record (name : String) (fields : Fields) (members : List (String × Value)) :
    (Shape.record name fields .none).normalize (.object members) =
      ((takeMembers fields.normalize? [] members).bind fields.complete).map Value.object := by
  rw [Shape.normalize]
  cases takeMembers fields.normalize? [] members with
  | error cause => rfl
  | ok written =>
    cases hcomplete : fields.complete written <;>
      simp only [hcomplete, takeMembers_none, Fields.complete, List.append_nil, bind, Except.bind,
        Except.map, pure, Except.pure]

end Members

/-! ## Items -/

/-- Items that are read back one by one are read back as a list. -/
lemma takeItems_map {α : Type} {item : Value → Except Cause Value} {write : α → Value}
    {back : Value → α} {as : List α}
    (h : ∀ a ∈ as, ∃ w, item (write a) = .ok w ∧ back w = a) :
    ∃ ws, takeItems item (as.map write) = .ok ws ∧ ws.map back = as := by
  induction as with
  | nil => exact ⟨[], rfl, rfl⟩
  | cons a as ih =>
    obtain ⟨⟨w, hw, hback⟩, hothers⟩ := List.forall_mem_cons.mp h
    obtain ⟨ws, hws, hbacks⟩ := ih hothers
    refine ⟨w :: ws, ?_, by rw [List.map_cons, hback, hbacks]⟩
    rw [List.map_cons, takeItems, hw, hws]
    rfl

lemma normalize_list {α : Type} {item : Shape} {write : α → Value} {back : Value → α} {as : List α}
    (h : ∀ a ∈ as, ∃ w, item.normalize (write a) = .ok w ∧ back w = a) :
    ∃ ws, (Shape.list item).normalize (.list (as.map write)) = .ok (.list ws) ∧
      ws.map back = as := by
  obtain ⟨ws, hws, hback⟩ := takeItems_map h
  refine ⟨ws, ?_, hback⟩
  rw [Shape.normalize, hws]
  rfl

end CoverageEstimate.Json

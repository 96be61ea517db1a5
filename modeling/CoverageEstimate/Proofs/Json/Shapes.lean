/-
# Reading documents by their shape

A document can be read by a shape in two ways, from its text or from the value that it is.  As long
as it is written the way the printers of the domain write it (`Shape.IsDirect`: words as strings,
records as objects), both ways agree: `Shape.agrees` says that the text is read as the normal form of
the value.

The induction is over the shape.  A record takes its members one by one, in the order in which they
are written, so its step is an induction over these (`readFields_joined`) that leaves open how the
fields read.
-/
import CoverageEstimate.Proofs.Json.Reading
import CoverageEstimate.Proofs.Json.Records
import CoverageEstimate.Proofs.Results

namespace CoverageEstimate.Json

mutual

/-- The value is written the way a printer writes it: words are strings, records are objects, and
members without a field stand only in records with scattered fields. -/
def Shape.IsDirect : Shape → Value → Prop
  | .choice _, v => ∃ w, v = .text w
  | .list item, .list items => ∀ v ∈ items, item.IsDirect v
  | .optional inner, v => v ≠ .null → inner.IsDirect v
  | .record _ fields scattered, .object members =>
    ∀ m ∈ members, fields.IsDirect m ∧ (scattered = .none → fields.has m.1 = true)
  | .record .., .list _ => False
  | _, _ => True

/-- The member is written the way its field writes it. -/
def Fields.IsDirect : Fields → String × Value → Prop
  | .none, _ => True
  | .field n _ shape others, m => if n == m.1 then shape.IsDirect m.2 else others.IsDirect m

end

/-! ## Parts -/

/-- Only null is written from an `n` on. -/
lemma Spells.not_null {v : Value} {text : List Char} (h : Spells v text) (hv : v ≠ .null)
    (cs : List Char) : text ≠ 'n' :: cs := by
  cases h with
  | null => exact absurd rfl hv
  | yes | no | text | list | object => simp
  | @number n k proper value =>
    obtain ⟨d, hd, more, hmore⟩ := proper.exists_digit
    rw [Numeral.text]
    split
    · simp
    · rw [hmore]
      exact fun heq => digitChar_ne hd (by decide) (List.cons.inj heq).1

/-- A number that is accepted is read. -/
lemma reads_readNumberAs {expected : String} {accept : Number → Except Cause Value} {n : Numeral}
    (proper : n.IsProper) {k : Number} (value : n.value? = some k) {w : Value}
    (accepted : accept k = .ok w) : Reads (readNumberAs expected accept) n.text w := by
  intro space rest blank ends
  have hread := readNumber_unsignedText proper value ends
  rw [readNumberAs, skipSpace_start blank (Spells.number proper value).starts, Numeral.text]
  cases hsign : n.negative with
  | true =>
    rw [hsign] at hread
    simp only [if_true, pieces_cons, List.cons_append, hread, accepted, placed, bind, Except.bind,
      pure, Except.pure]
  | false =>
    obtain ⟨d, hd, cs, hcs⟩ := proper.exists_digit
    rw [hsign, hcs, pieces_cons, List.cons_append] at hread
    simp only [Bool.false_eq_true, if_false, hcs, pieces_cons, List.cons_append]
    split
    · rename_i heq
      exact absurd (Text.Piece.char.inj (List.cons.inj heq).1) (digitChar_ne hd (by decide))
    · rename_i heq
      obtain ⟨rfl, rfl⟩ := List.cons.inj heq
      simp only [digitValue?_digitChar hd, Option.isSome_some, if_true, hread, accepted, placed,
        bind, Except.bind, pure, Except.pure]
    · rename_i heq
      exact absurd heq (by simp)

lemma reads_readString {s : String} {cs : List Char} (h : SpellsText s.toList cs) :
    Reads readString ('"' :: (cs ++ ['"'])) (.text s) := by
  intro space rest blank ends
  have hread := readText_append h rest
  rw [readString, skipSpace_start blank (Spells.text h).starts]
  simp only [pieces_cons, pieces_append, pieces_nil, List.cons_append, List.append_assoc,
    List.nil_append, hread, bind, Except.bind, pure, Except.pure]

lemma reads_readChoice {words : List String} {s : String} {cs : List Char}
    (h : SpellsText s.toList cs) {w : Value} (accepted : asChoice words s = .ok w) :
    Reads (readChoice words) ('"' :: (cs ++ ['"'])) w := by
  intro space rest blank ends
  have hread := readText_append h rest
  rw [readChoice, skipSpace_start blank (Spells.text h).starts]
  simp only [pieces_cons, pieces_append, pieces_nil, List.cons_append, List.append_assoc,
    List.nil_append, hread, accepted, placed, bind, Except.bind, pure, Except.pure]

/-! ## Members -/

/-- **Reading members by fields.**  The members of an object are read as they are taken from the
value, and those without a field are kept for the scattered fields. -/
lemma readFields_joined {norm? : String → Option (Value → Except Cause Value)}
    {field? : String → Option (Reader Value)} {other? : Option (Reader Value)}
    {members : List ((String × Value) × MemberText)} (spaced : ∀ e ∈ members, e.2.IsSpaced)
    (names : ∀ e ∈ members, SpellsText e.1.1.toList e.2.name)
    (known : ∀ e ∈ members, ∀ norm, norm? e.1.1 = some norm → ∃ read, field? e.1.1 = some read ∧
      ∀ w, norm e.1.2 = .ok w → Reads read e.2.value w)
    (unknown : ∀ e ∈ members, norm? e.1.1 = none → field? e.1.1 = none ∧
      ∃ read, other? = some read ∧ Reads read e.2.value e.1.2)
    (first : Bool) {space : List Char} (blank : AreSpaces space)
    {fuel : Nat} (enough : members.length < fuel) {taken written : List (String × Value)}
    (take : takeMembers norm? taken (members.map (·.1)) = .ok written)
    (others : List (String × Value)) (rest : Input) :
    ∃ behind, AreSpaces behind ∧
      readFields field? other? fuel first taken others (pieces space ++
          (pieces (joined first (members.map (·.2.padded))) ++ .char '\x7d' :: rest)) =
        .ok ((written, others ++ (members.map (·.1)).filter fun m => (norm? m.1).isNone),
          pieces behind ++ .char '\x7d' :: rest) := by
  induction members generalizing first space fuel taken others with
  | nil =>
    obtain ⟨fuel, rfl⟩ := Nat.exists_eq_succ_of_ne_zero (Nat.ne_of_gt enough)
    refine ⟨space, blank, ?_⟩
    have hend := nextMember_end first blank rest
    obtain rfl := Except.ok.inj take
    simp only [List.map_nil, joined, pieces_nil, List.nil_append, readFields, hend, bind,
      Except.bind, pure, Except.pure, List.filter_nil, List.append_nil]
  | cons e members ih =>
    obtain ⟨fuel, rfl⟩ := Nat.exists_eq_succ_of_ne_zero (Nat.ne_of_gt (Nat.zero_lt_of_lt enough))
    obtain ⟨hspaced, hothers⟩ := List.forall_mem_cons.mp spaced
    obtain ⟨hname, hnames⟩ := List.forall_mem_cons.mp names
    obtain ⟨hknown, hknowns⟩ := List.forall_mem_cons.mp known
    obtain ⟨hunknown, hunknowns⟩ := List.forall_mem_cons.mp unknown
    have ih := @ih hothers hnames hknowns hunknowns false _ hspaced.after fuel
      (Nat.lt_of_succ_lt_succ enough)
    have hnext := nextMember_joined first blank hspaced (members.map (·.2.padded))
      (.char '\x7d' :: rest)
    have hends := ends_append hspaced.after
      (@ends_joined (members.map (·.2.padded)) _ rest (.inr rfl))
    obtain ⟨⟨name, v⟩, m⟩ := e
    rw [List.map_cons, takeMembers] at take
    cases hnorm : norm? name with
    | none =>
      obtain ⟨hfield, read, rfl, hreads⟩ := hunknown hnorm
      simp only [hnorm] at take
      obtain ⟨behind, hbehind, hread⟩ := ih take (others ++ [(name, v)])
      refine ⟨behind, hbehind, ?_⟩
      have hvalue := hreads m.behindColon _ hspaced.behindColon hends
      rw [List.append_assoc, List.singleton_append] at hread
      simp only [List.map_cons, readFields, hnext, readText_behindQuote hname, hfield,
        readColon_append hspaced.beforeColon, hvalue, hread, bind, Except.bind, List.filter_cons,
        hnorm, Option.isNone_none, if_true]
    | some norm =>
      obtain ⟨read, hfield, hreads⟩ := hknown norm hnorm
      simp only [hnorm] at take
      split at take
      · simp at take
      · rename_i hnew
        cases hw : norm v with
        | error cause => simp [hw, bind, Except.bind] at take
        | ok w =>
          simp only [hw, bind, Except.bind] at take
          obtain ⟨behind, hbehind, hread⟩ := ih take others
          refine ⟨behind, hbehind, ?_⟩
          have hvalue := hreads w hw m.behindColon _ hspaced.behindColon hends
          simp only [List.map_cons, readFields, hnext, readText_behindQuote hname, hfield, hnew,
            if_false, readColon_append hspaced.beforeColon, hvalue, hread, bind, Except.bind,
            List.filter_cons, hnorm, Option.isNone_some, Bool.false_eq_true]

/-- Items that are taken one by one are the taken forms of the items as they are written. -/
lemma exists_of_takeItems {item : Value → Except Cause Value} {items : List (Value × Padded)}
    {ws : List Value} (h : takeItems item (items.map (·.1)) = .ok ws) :
    ∃ taken : List (Value × Padded), taken.map (·.1) = ws ∧ taken.map (·.2) = items.map (·.2) ∧
      ∀ e ∈ taken, ∃ v, (v, e.2) ∈ items ∧ item v = .ok e.1 := by
  induction items generalizing ws with
  | nil =>
    obtain rfl := Except.ok.inj h
    exact ⟨[], rfl, rfl, by simp⟩
  | cons e items ih =>
    rw [List.map_cons, takeItems] at h
    cases hw : item e.1 with
    | error cause => simp [hw, bind, Except.bind] at h
    | ok w =>
      cases hws : takeItems item (items.map (·.1)) with
      | error cause => simp [hw, hws, bind, Except.bind] at h
      | ok ws' =>
        simp only [hw, hws, bind, Except.bind, pure, Except.pure, Except.ok.injEq] at h
        obtain ⟨taken, hvalues, hparts, hmem⟩ := ih hws
        refine ⟨(w, e.2) :: taken, by rw [← h, List.map_cons, hvalues], by simp [hparts], ?_⟩
        refine List.forall_mem_cons.mpr ⟨⟨e.1, List.mem_cons_self, hw⟩, fun k hk => ?_⟩
        obtain ⟨v, hv, hitem⟩ := hmem k hk
        exact ⟨v, List.mem_cons_of_mem _ hv, hitem⟩

/-! ## Shapes -/

/-- The shape reads the texts of the values that it takes as their normal forms. -/
def Shape.Agrees (shape : Shape) : Prop :=
  ∀ ⦃v w : Value⦄ ⦃text : List Char⦄ ⦃depth : Nat⦄, Spells v text → shape.IsDirect v →
    shape.normalize v = .ok w → v.depth ≤ depth → Reads (shape.read depth) text w

/-- The fields read the texts of the members that they take as their normal forms. -/
def Fields.Agree (fields : Fields) : Prop :=
  ∀ ⦃m : String × Value⦄ ⦃text : List Char⦄ ⦃depth : Nat⦄, Spells m.2 text → fields.IsDirect m →
    m.2.depth ≤ depth → ∀ norm, fields.normalize? m.1 = some norm →
    ∃ read, fields.read? depth m.1 = some read ∧ ∀ w, norm m.2 = .ok w → Reads read text w

/-- A name without a field has none among the readers either. -/
lemma read?_eq_none {fields : Fields} {name : String} (h : fields.normalize? name = none)
    (depth : Nat) : fields.read? depth name = none := by
  fun_induction Fields.has fields name with
  | case1 => rfl
  | case2 n presence shape others name ih =>
    rw [Fields.normalize?] at h
    rw [Fields.read?]
    split at h
    · simp at h
    · rename_i hne
      rw [if_neg hne]
      exact ih h

lemma agrees_list {item : Shape} (hitem : item.Agrees) : (Shape.list item).Agrees := by
  intro v w text depth spells direct h deep
  cases v with
  | list items =>
    rw [Shape.IsDirect] at direct
    rw [Shape.normalize] at h
    obtain ⟨ws, hws, rfl⟩ := exists_of_map_eq_ok h
    cases spells with
    | @list inner parts hblank proper each =>
      obtain ⟨depth, rfl⟩ : ∃ n, depth = n + 1 := Nat.exists_eq_succ_of_ne_zero (by
        rw [Value.depth] at deep
        omega)
      obtain ⟨taken, rfl, hparts, hmem⟩ := exists_of_takeItems hws
      have hproper : ∀ e ∈ taken, e.2.IsProper := by
        intro e he
        obtain ⟨v, hv, -⟩ := hmem e he
        exact proper (v, e.2) hv
      have hreads : ∀ e ∈ taken, Reads (item.read depth) e.2.text e.1 := by
        intro e he
        obtain ⟨v, hv, hw⟩ := hmem e he
        have hitems : v ∈ parts.map (·.1) := List.mem_map.mpr ⟨_, hv, rfl⟩
        exact hitem (each (v, e.2) hv) (direct v hitems) hw <|
          Nat.le_trans (Value.depth_le_itemsDepth hitems) (Nat.le_of_succ_le_succ deep)
      intro space rest blank ends
      have henough := enough_listed hproper inner rest
      obtain ⟨behind, hbehind, hread⟩ := readItems_joined hproper hreads true hblank henough rest
      have hskip := skipSpace_start blank (Spells.list hblank proper each).starts rest
      simp only [Shape.read, hskip]
      simp only [hparts, pieces_cons, pieces_append, pieces_nil, List.cons_append,
        List.append_assoc, List.nil_append] at hread ⊢
      simp only [beq_iff_eq, Nat.add_one_ne_zero, if_false, Nat.add_sub_cancel, hread,
        closeList_end hbehind, bind, Except.bind, pure, Except.pure]
  | _ => simp [Shape.normalize] at h

/-- A record is taken when its fields and its scattered fields are. -/
lemma of_normalize_record {name : String} {fields scattered : Fields}
    {members : List (String × Value)} {w : Value}
    (h : (Shape.record name fields scattered).normalize (.object members) = .ok w) :
    ∃ written here others there, takeMembers fields.normalize? [] members = .ok written ∧
      fields.complete written = .ok here ∧
      takeMembers scattered.normalize? [] (members.filter fun m =>
        (fields.normalize? m.1).isNone) = .ok others ∧
      scattered.complete others = .ok there ∧ w = .object (here ++ there) := by
  rw [Shape.normalize] at h
  obtain ⟨written, hwritten, h⟩ := exists_of_bind_eq_ok h
  obtain ⟨here, hhere, h⟩ := exists_of_bind_eq_ok h
  obtain ⟨others, hothers, h⟩ := exists_of_bind_eq_ok h
  obtain ⟨there, hthere, h⟩ := exists_of_bind_eq_ok h
  refine ⟨written, here, others, there, hwritten, hhere, ?_, hthere, (Except.ok.inj h).symm⟩
  have hfilter : (members.filter fun m => (fields.normalize? m.1).isNone) =
      members.filter fun m => !fields.has m.1 := by
    simp only [← isSome_normalize?, Option.not_isSome]
  rw [hfilter, hothers]

lemma agrees_record {fields scattered : Fields} (hfields : fields.Agree) (name : String) :
    (Shape.record name fields scattered).Agrees := by
  intro v w text depth spells direct h deep
  cases v with
  | object members =>
    obtain ⟨written, here, others, there, hwritten, hhere, hothers, hthere, rfl⟩ :=
      of_normalize_record h
    rw [Shape.IsDirect] at direct
    cases spells with
    | @object inner parts hblank spaced names values =>
      obtain ⟨depth, rfl⟩ : ∃ n, depth = n + 1 := Nat.exists_eq_succ_of_ne_zero (by
        rw [Value.depth] at deep
        omega)
      have hdepths : ∀ e ∈ parts, e.1.2.depth ≤ depth := fun e he =>
        Nat.le_trans (Value.depth_le_membersDepth (List.mem_map_of_mem he))
          (Nat.le_of_succ_le_succ deep)
      have hknown : ∀ e ∈ parts, ∀ norm, fields.normalize? e.1.1 = some norm →
          ∃ read, fields.read? depth e.1.1 = some read ∧
            ∀ w, norm e.1.2 = .ok w → Reads read e.2.value w := fun e he =>
        hfields (values e he) (direct e.1 (List.mem_map_of_mem he)).1 (hdepths e he)
      intro space rest blank ends
      have hskip := skipSpace_start blank (Spells.object hblank spaced names values).starts rest
      have hread {other? : Option (Reader Value)} (hother : ∀ e ∈ parts,
          fields.normalize? e.1.1 = none →
            ∃ read, other? = some read ∧ Reads read e.2.value e.1.2) :=
        readFields_joined spaced names hknown
          (fun e he hnone => ⟨read?_eq_none hnone depth, hother e he hnone⟩) true hblank
          (enough_members spaced inner rest) hwritten [] rest
      simp only [Shape.read, hskip]
      simp only [pieces_cons, pieces_append, pieces_nil, List.cons_append, List.append_assoc,
        List.nil_append, beq_iff_eq, Nat.add_one_ne_zero, if_false,
        Nat.add_sub_cancel] at hread ⊢
      cases scattered with
      | none =>
        obtain ⟨behind, hbehind, hread⟩ := @hread none fun e he hnone => by
          have hhas := (direct e.1 (List.mem_map_of_mem he)).2 rfl
          rw [← isSome_normalize?, hnone] at hhas
          simp at hhas
        simp only [hread, hhere, hothers, hthere, placed, closeObject_end hbehind, bind,
          Except.bind, pure, Except.pure]
      | field =>
        obtain ⟨behind, hbehind, hread⟩ := hread fun e he _ =>
          ⟨readValue depth, rfl, reads_value (values e he) (hdepths e he)⟩
        simp only [hread, hhere, hothers, hthere, placed, closeObject_end hbehind, bind,
          Except.bind, pure, Except.pure]
  | list items => exact direct.elim
  | _ => simp [Shape.normalize] at h

lemma normalize_optional {inner : Shape} {v : Value} (h : v ≠ .null) :
    (Shape.optional inner).normalize v = inner.normalize v := by
  cases v <;> first | exact absurd rfl h | rw [Shape.normalize]; simp

lemma agrees_optional {inner : Shape} (hinner : inner.Agrees) : (Shape.optional inner).Agrees := by
  intro v w text depth spells direct h deep space rest blank ends
  by_cases hnull : v = .null
  · subst hnull
    rw [Shape.normalize] at h
    obtain rfl := Except.ok.inj h
    cases spells
    simp only [Shape.read, skipSpace_start blank Spells.null.starts]
    rfl
  · have hskip := skipSpace_start blank spells.starts rest
    have hread := hinner spells (direct hnull) (normalize_optional hnull ▸ h) deep [] rest
      areSpaces_nil ends
    obtain ⟨c, cs, rfl, hc⟩ := spells.starts
    have hne : c ≠ 'n' := fun hc => spells.not_null hnull cs (congrArg (· :: cs) hc)
    simp only [Shape.read, hskip]
    split
    · rename_i heq
      exact absurd (Text.Piece.char.inj (List.cons.inj heq).1) hne
    · exact hread

mutual

/-- **Reading by shapes.**  A text is read by a shape as the normal form of its value. -/
theorem Shape.agrees : (shape : Shape) → shape.Agrees
  | .text => by
    intro v w text depth spells direct h deep
    cases spells <;> simp only [Shape.normalize, reduceCtorEq, Except.ok.injEq] at h
    subst h
    exact reads_readString ‹_›
  | .natural name => by
    intro v w text depth spells direct h deep
    cases spells <;> simp only [Shape.normalize, reduceCtorEq] at h
    exact reads_readNumberAs ‹_› ‹_› h
  | .integer32 => by
    intro v w text depth spells direct h deep
    cases spells <;> simp only [Shape.normalize, reduceCtorEq] at h
    exact reads_readNumberAs ‹_› ‹_› h
  | .real => by
    intro v w text depth spells direct h deep
    cases spells <;> simp only [Shape.normalize, reduceCtorEq] at h
    exact reads_readNumberAs ‹_› ‹_› h
  | .flag => by
    intro v w text depth spells direct h deep space rest blank ends
    have hskip := skipSpace_start blank spells.starts rest
    cases spells <;> simp only [Shape.normalize, reduceCtorEq, Except.ok.injEq] at h
    all_goals
      subst h
      simp only [Shape.read, readFlag, hskip]
      rfl
  | .choice words => by
    intro v w text depth spells direct h deep
    obtain ⟨s, rfl⟩ := direct
    rw [Shape.normalize] at h
    cases spells with
    | text hs => exact reads_readChoice hs h
  | .list item => agrees_list item.agrees
  | .optional inner => agrees_optional inner.agrees
  | .record name fields scattered => agrees_record fields.agree name

/-- The same for fields. -/
theorem Fields.agree : (fields : Fields) → fields.Agree
  | .none => by
    intro m text depth spells direct deep norm hnorm
    simp [Fields.normalize?] at hnorm
  | .field name presence shape others => by
    intro m text depth spells direct deep norm hnorm
    rw [Fields.normalize?] at hnorm
    rw [Fields.IsDirect] at direct
    rw [Fields.read?]
    split at hnorm
    · rename_i hname
      rw [if_pos hname] at direct ⊢
      obtain rfl := Option.some.inj hnorm
      exact ⟨_, rfl, fun w hw => shape.agrees spells direct hw deep⟩
    · rename_i hname
      rw [if_neg hname] at direct ⊢
      exact others.agree spells direct deep norm hnorm

end

/-- A document of a value is read by a shape as the normal form of the value. -/
lemma Shape.readDocument_of_isDocument {shape : Shape} {v w : Value} {document : List Char}
    (h : IsDocument v document) (direct : shape.IsDirect v) (normal : shape.normalize v = .ok w)
    (deep : v.depth ≤ greatestDepth) : shape.readDocument (pieces document) = .ok w := by
  obtain ⟨rest, hread, hend⟩ := h.readEnd_of_reads fun text htext =>
    shape.agrees htext direct normal deep
  simp only [Shape.readDocument, hread, hend, bind, Except.bind, pure, Except.pure]

/-! ## Records in the order of their fields -/

/-- The members stand in the order of the fields, and each one is written directly and read. -/
inductive Fields.InOrder : Fields → List (String × Value) → List (String × Value) → Prop
  | none : InOrder .none [] []
  | field {name : String} {presence : Presence} {shape : Shape} {others : Fields} {v w : Value}
      {members written : List (String × Value)} (direct : shape.IsDirect v)
      (normal : shape.normalize v = .ok w) (h : InOrder others members written) :
      InOrder (.field name presence shape others) ((name, v) :: members) ((name, w) :: written)

namespace Fields.InOrder

variable {fields : Fields} {members written : List (String × Value)}

lemma names_eq (h : fields.InOrder members written) : written.map (·.1) = members.map (·.1) := by
  induction h with
  | none => rfl
  | field direct normal h ih => rw [List.map_cons, List.map_cons, ih]

lemma isDirect (h : fields.InOrder members written) (distinct : (members.map (·.1)).Nodup)
    {m : String × Value} (hm : m ∈ members) : fields.IsDirect m ∧ fields.has m.1 = true := by
  induction h with
  | none => exact absurd hm List.not_mem_nil
  | @field name presence shape others v w members written direct normal h ih =>
    obtain ⟨hnew, hdistinct⟩ := List.nodup_cons.mp distinct
    rw [Fields.IsDirect, Fields.has]
    rcases List.mem_cons.mp hm with rfl | hm
    · simpa using direct
    · obtain ⟨hdirect, hhas⟩ := ih hdistinct hm
      have hne : name ≠ m.1 := fun heq => hnew (List.mem_map.mpr ⟨m, hm, heq.symm⟩)
      simpa [hne] using ⟨hdirect, hhas⟩

lemma takeMembers (h : fields.InOrder members written)
    {norm? : String → Option (Value → Except Cause Value)}
    (agrees : ∀ m ∈ members, norm? m.1 = fields.normalize? m.1) (taken : List (String × Value))
    (distinct : (taken.map (·.1) ++ members.map (·.1)).Nodup) :
    takeMembers norm? taken members = .ok (taken ++ written) := by
  induction h generalizing taken with
  | none => rw [Json.takeMembers, List.append_nil]
  | @field name presence shape others v w members written direct normal h ih =>
    obtain ⟨hfirst, hothers⟩ := List.forall_mem_cons.mp agrees
    have hnew := any_eq_false_of_nodup distinct
    have hagrees : ∀ m ∈ members, norm? m.1 = others.normalize? m.1 := by
      intro m hm
      have hdistinct := (List.nodup_append.mp distinct).2.1
      have hne : name ≠ m.1 := fun heq =>
        (List.nodup_cons.mp hdistinct).1 (List.mem_map.mpr ⟨m, hm, heq.symm⟩)
      rw [hothers m hm, Fields.normalize?, if_neg (by simpa using hne)]
    have hnorm : norm? name = some shape.normalize := by
      rw [hfirst, Fields.normalize?, if_pos BEq.rfl]
    rw [Json.takeMembers, hnorm]
    simp only [hnew, Bool.false_eq_true, if_false, normal, bind, Except.bind]
    rw [ih hagrees (taken ++ [(name, w)]) (by simpa using distinct), List.append_assoc,
      List.singleton_append]

/-- Fields whose members can all be looked up are complete. -/
lemma complete (h : fields.InOrder members written) {taken : List (String × Value)}
    (lookup : ∀ m ∈ written, Value.member? m.1 taken = some m.2) :
    fields.complete taken = .ok written := by
  induction h with
  | none => rfl
  | field direct normal h ih =>
    obtain ⟨hfirst, hothers⟩ := List.forall_mem_cons.mp lookup
    simp only [Fields.complete, hfirst, ih hothers]
    rfl

/-- A record whose members stand in the order of its fields is read member by member. -/
lemma record (h : fields.InOrder members written) (distinct : (members.map (·.1)).Nodup)
    (name : String) : (Shape.record name fields .none).IsDirect (.object members) ∧
      (Shape.record name fields .none).normalize (.object members) = .ok (.object written) := by
  constructor
  · rw [Shape.IsDirect]
    exact fun m hm => ⟨(h.isDirect distinct hm).1, fun _ => (h.isDirect distinct hm).2⟩
  · have hlookup : ∀ m ∈ written, Value.member? m.1 written = some m.2 := fun m hm =>
      member?_of_mem (h.names_eq ▸ distinct) hm
    rw [normalize_record, h.takeMembers (fun _ _ => rfl) [] distinct]
    exact congrArg (Except.map Value.object) (h.complete hlookup)

end Fields.InOrder

end CoverageEstimate.Json

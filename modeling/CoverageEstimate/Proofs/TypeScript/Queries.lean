/-
# What the query of calls finds

A query is run over a whole parse tree, with all its patterns at every node.  This file says first
what a match is, without any search: a pattern of children is matched by a child somewhere behind
the one before it (`mem_capturesAmong_cons_iff`), and the nodes of a tree are those that stand at
its places.

The query of calls has three patterns, and a call of a variable may match two of them: it is a
callee, and if the first argument is a string it is looked at once more as a declaration.  The
matches of a call are of three forms only (`IsCallMatch`); each form adds to the signals what it
stands for, and so the signals of a test file are said call by call (`Calls`, `HasTitle`).
-/
import CoverageEstimate.Proofs.Signals.Findings
import CoverageEstimate.Proofs.TypeScript.Walk
import CoverageEstimate.TypeScript.Lexeme

namespace CoverageEstimate.TypeScript

/-! ## Matches of patterns -/

section Patterns

variable {α : Type}

/-- The slot may be for the node, with the nodes `front` before it. -/
structure Slot.Admits (s : Slot) (front : List Node) (n : Node) : Prop where
  field : ∀ f ∈ s.field, n.field = some f
  first : s.isFirst = true → n.kind.isNamed = true ∧ ∀ d ∈ front, d.kind.isNamed = false

lemma mem_withRests_iff {nodes rest : List Node} {n : Node} :
    (n, rest) ∈ withRests nodes ↔ ∃ front, nodes = front ++ n :: rest := by
  induction nodes with
  | nil => simp [withRests]
  | cons m ms ih =>
    rw [withRests, List.mem_cons, ih, Prod.mk.injEq]
    constructor
    · rintro (⟨rfl, rfl⟩ | ⟨front, rfl⟩)
      · exact ⟨[], rfl⟩
      · exact ⟨m :: front, rfl⟩
    · rintro ⟨front, heq⟩
      cases front with
      | nil =>
        obtain ⟨rfl, rfl⟩ := List.cons.inj heq
        exact Or.inl ⟨rfl, rfl⟩
      | cons d front =>
        obtain ⟨rfl, rfl⟩ := List.cons.inj heq
        exact Or.inr ⟨front, rfl⟩

/-- The first of some nodes that is more than a word or a mark. -/
lemma find?_withRests_eq_some_iff {nodes rest : List Node} {n : Node} :
    (withRests nodes).find? (fun c => c.1.kind.isNamed) = some (n, rest) ↔
      ∃ front, nodes = front ++ n :: rest ∧ n.kind.isNamed = true ∧
        ∀ d ∈ front, d.kind.isNamed = false := by
  induction nodes with
  | nil => simp [withRests]
  | cons m ms ih =>
    rw [withRests, List.find?_cons]
    cases hm : m.kind.isNamed with
    | true =>
      rw [Option.some.injEq, Prod.mk.injEq]
      constructor
      · rintro ⟨rfl, rfl⟩
        exact ⟨[], rfl, hm, by simp⟩
      · rintro ⟨front, heq, -, hfront⟩
        cases front with
        | nil => exact List.cons.inj heq
        | cons d front =>
          obtain ⟨rfl, -⟩ := List.cons.inj heq
          rw [hfront m List.mem_cons_self] at hm
          exact Bool.noConfusion hm
    | false =>
      rw [ih]
      constructor
      · rintro ⟨front, rfl, hn, hfront⟩
        exact ⟨m :: front, rfl, hn, List.forall_mem_cons.mpr ⟨hm, hfront⟩⟩
      · rintro ⟨front, heq, hn, hfront⟩
        cases front with
        | nil =>
          obtain ⟨rfl, -⟩ := List.cons.inj heq
          rw [hn] at hm
          exact Bool.noConfusion hm
        | cons d front =>
          obtain ⟨rfl, rfl⟩ := List.cons.inj heq
          exact ⟨front, rfl, hn, (List.forall_mem_cons.mp hfront).2⟩

lemma Slot.mem_candidates_iff {s : Slot} {nodes rest : List Node} {n : Node} :
    (n, rest) ∈ s.candidates nodes ↔ ∃ front, nodes = front ++ n :: rest ∧ s.Admits front n := by
  have hfield : (s.field.all fun f => n.field == some f) = true ↔
      ∀ f ∈ s.field, n.field = some f := by
    cases s.field <;> simp
  rw [candidates, List.mem_filter, hfield]
  cases hs : s.isFirst with
  | true =>
    rw [if_pos rfl, Option.mem_toList, find?_withRests_eq_some_iff]
    constructor
    · rintro ⟨⟨front, rfl, hn, hfront⟩, hf⟩
      exact ⟨front, rfl, hf, fun _ => ⟨hn, hfront⟩⟩
    · rintro ⟨front, rfl, hf, hfirst⟩
      obtain ⟨hn, hfront⟩ := hfirst hs
      exact ⟨⟨front, rfl, hn, hfront⟩, hf⟩
  | false =>
    rw [if_neg Bool.false_ne_true, mem_withRests_iff]
    constructor
    · rintro ⟨⟨front, rfl⟩, hf⟩
      exact ⟨front, rfl, hf, fun h => absurd (hs.symm.trans h) Bool.false_ne_true⟩
    · rintro ⟨front, rfl, hf, -⟩
      exact ⟨⟨front, rfl⟩, hf⟩

/-- **A pattern matches** a node of its kind whose children match its patterns of children. -/
lemma mem_capturesAt_iff {kind : Option Kind} {label : Option α} {inside : ChildPatterns α}
    {n : Node} {found : Captures α} :
    found ∈ (NodePattern.node kind label inside).capturesAt n ↔
      n.kind.isNamed = true ∧ (∀ k ∈ kind, n.kind = k) ∧
        ∃ below ∈ inside.capturesAmong n.children,
          (label.map fun l => (l, n)).toList ++ below = found := by
  have hkind : kind.all (· == n.kind) = true ↔ ∀ k ∈ kind, n.kind = k := by
    cases kind with
    | none => simp
    | some k =>
      rw [Option.all_some, beq_iff_eq, eq_comm]
      simp
  rw [NodePattern.capturesAt, ← hkind]
  split
  · rename_i h
    rw [Bool.and_eq_true] at h
    simp [h]
  · rename_i h
    rw [Bool.and_eq_true] at h
    constructor
    · intro hmem
      exact absurd hmem List.not_mem_nil
    · rintro ⟨hn, hk, -⟩
      exact absurd ⟨hn, hk⟩ h

lemma mem_capturesAmong_nil_iff {nodes : List Node} {found : Captures α} :
    found ∈ ChildPatterns.nil.capturesAmong nodes ↔ found = [] := by
  rw [ChildPatterns.capturesAmong, List.mem_singleton]

/-- **Patterns of children match** a child that the first slot admits, and nodes behind it. -/
lemma mem_capturesAmong_cons_iff {slot : Slot} {child : NodePattern α} {rest : ChildPatterns α}
    {nodes : List Node} {found : Captures α} :
    found ∈ (ChildPatterns.cons slot child rest).capturesAmong nodes ↔
      ∃ front n behind, nodes = front ++ n :: behind ∧ slot.Admits front n ∧
        ∃ here ∈ child.capturesAt n, ∃ later ∈ rest.capturesAmong behind, here ++ later = found := by
  rw [ChildPatterns.capturesAmong]
  simp only [List.mem_flatMap, List.mem_map, Prod.exists, Slot.mem_candidates_iff]
  constructor
  · rintro ⟨n, behind, ⟨front, hnodes, hslot⟩, h⟩
    exact ⟨front, n, behind, hnodes, hslot, h⟩
  · rintro ⟨front, n, behind, hnodes, hslot, h⟩
    exact ⟨n, behind, ⟨front, hnodes, hslot⟩, h⟩

/-- **A query matches** where one of its patterns does, at any place of the tree. -/
lemma mem_capturesIn_iff {query : List (NodePattern α)} {tree : Node} {found : Captures α} :
    found ∈ capturesIn query tree ↔
      ∃ place n, tree.at? place = some n ∧ ∃ p ∈ query, found ∈ p.capturesAt n := by
  rw [capturesIn, ← map_snd_placed]
  simp only [List.mem_flatMap, List.mem_map, Prod.exists, mem_placed_iff]
  constructor
  · rintro ⟨n, ⟨place, m, hplace, rfl⟩, h⟩
    exact ⟨place, m, hplace, h⟩
  · rintro ⟨place, n, hplace, h⟩
    exact ⟨n, ⟨place, n, hplace, rfl⟩, h⟩

end Patterns

/-! ## Calls and titles -/

variable {src : Source} {call : Node}

/-- The node has the child `c` in the part `f`. -/
structure Node.HasPart (n : Node) (f : Field) (c : Node) : Prop where
  mem : c ∈ n.children
  field : c.field = some f

/-- The call calls a name: a variable of that name, or the member of that name of anything. -/
inductive Calls (src : Source) (call : Node) : List Char → Prop
  | ofVariable {callee : Node} (isCall : call.kind = .callExpression)
      (function : call.HasPart .function callee) (plain : callee.kind = .identifier) :
      Calls src call (callee.text src)
  | ofMember {callee name : Node} (isCall : call.kind = .callExpression)
      (function : call.HasPart .function callee) (isMember : callee.kind = .memberExpression)
      (property : callee.HasPart .property name) (isNamed : name.kind.isNamed = true) :
      Calls src call (name.text src)

/-- The call declares a test or a group of tests with a string as its title: it calls one of the
declaring functions, and the string is the first of its arguments.  A query takes children in order,
so the function stands before the arguments, as it does in every call. -/
inductive HasTitle (src : Source) (call : Node) : Node → Prop
  | intro {callee arguments title : Node} (isCall : call.kind = .callExpression)
      (ordered : [callee, arguments].Sublist call.children)
      (function : callee.field = some .function) (plain : callee.kind = .identifier)
      (declares : String.ofList (callee.text src) ∈ ["describe", "it", "test"])
      (inArguments : arguments.field = some .arguments) (kind : arguments.kind = .arguments)
      (first : arguments.namedChildren.head? = some title) (isString : title.kind = .string) :
      HasTitle src call title

/-! ## The matches of a call -/

/-- The three forms of the matches at a call. -/
inductive IsCallMatch (call : Node) : Captures CallRole → Prop
  | callee {c : Node} (function : call.HasPart .function c) (plain : c.kind = .identifier) :
      IsCallMatch call [(.callee, c)]
  | memberCallee {c name : Node} (function : call.HasPart .function c)
      (isMember : c.kind = .memberExpression) (property : c.HasPart .property name)
      (isNamed : name.kind.isNamed = true) : IsCallMatch call [(.memberCallee, name)]
  | declaration {c arguments title : Node} (ordered : [c, arguments].Sublist call.children)
      (function : c.field = some .function) (plain : c.kind = .identifier)
      (inArguments : arguments.field = some .arguments) (kind : arguments.kind = .arguments)
      (first : arguments.namedChildren.head? = some title) (isString : title.kind = .string) :
      IsCallMatch call [(.declaration, c), (.title, title)]

/-- A pattern without children gives its label to any node of its kind. -/
lemma mem_capturesAt_leaf_iff {α : Type} {kind : Option Kind} {label : α} {n : Node}
    {found : Captures α} :
    found ∈ (NodePattern.node kind (some label) .nil).capturesAt n ↔
      n.kind.isNamed = true ∧ (∀ k ∈ kind, n.kind = k) ∧ found = [(label, n)] := by
  rw [mem_capturesAt_iff]
  constructor
  · rintro ⟨hn, hkind, below, hbelow, rfl⟩
    rw [mem_capturesAmong_nil_iff] at hbelow
    subst hbelow
    exact ⟨hn, hkind, rfl⟩
  · rintro ⟨hn, hkind, rfl⟩
    exact ⟨hn, hkind, [], mem_capturesAmong_nil_iff.mpr rfl, rfl⟩

/-- A pattern without a label is matched at the nodes of its kind by what is inside them. -/
lemma mem_capturesAt_branch_iff {α : Type} {k : Kind} (hk : k.isNamed = true)
    {inside : ChildPatterns α} {n : Node} {found : Captures α} :
    found ∈ (NodePattern.node (some k) none inside).capturesAt n ↔
      n.kind = k ∧ found ∈ inside.capturesAmong n.children := by
  rw [mem_capturesAt_iff]
  constructor
  · rintro ⟨-, hkind, below, hbelow, rfl⟩
    exact ⟨hkind k rfl, hbelow⟩
  · rintro ⟨rfl, hfound⟩
    exact ⟨hk, by simp, found, hfound, rfl⟩

/-- A pattern of one child that plays a part is matched at any such child. -/
lemma mem_capturesAmong_part_iff {α : Type} {f : Field} {child : NodePattern α}
    {nodes : List Node} {found : Captures α} :
    found ∈ (ChildPatterns.cons ⟨some f, false⟩ child .nil).capturesAmong nodes ↔
      ∃ c ∈ nodes, c.field = some f ∧ found ∈ child.capturesAt c := by
  rw [mem_capturesAmong_cons_iff]
  constructor
  · rintro ⟨front, c, behind, rfl, hslot, here, hhere, later, hlater, rfl⟩
    rw [mem_capturesAmong_nil_iff] at hlater
    subst hlater
    rw [List.append_nil]
    exact ⟨c, by simp, hslot.field f rfl, hhere⟩
  · rintro ⟨c, hmem, hfield, hfound⟩
    obtain ⟨front, behind, rfl⟩ := List.append_of_mem hmem
    refine ⟨front, c, behind, rfl, ⟨by simpa using hfield, by simp⟩, found, hfound, [], ?_,
      List.append_nil found⟩
    exact mem_capturesAmong_nil_iff.mpr rfl

lemma pair_sublist_iff {c d : Node} {nodes : List Node} :
    [c, d].Sublist nodes ↔ ∃ front behind, nodes = front ++ c :: behind ∧ d ∈ behind := by
  rw [List.cons_sublist_iff]
  constructor
  · rintro ⟨before, after, rfl, hc, hd⟩
    obtain ⟨front, behind, rfl⟩ := List.append_of_mem hc
    refine ⟨front, behind ++ after, by simp, ?_⟩
    exact List.mem_append_right _ (List.singleton_sublist.mp hd)
  · rintro ⟨front, behind, rfl, hd⟩
    exact ⟨front ++ [c], behind, by simp, by simp, List.singleton_sublist.mpr hd⟩

/-- Patterns of two children that play parts are matched at any such children in their order. -/
lemma mem_capturesAmong_parts_iff {α : Type} {f g : Field} {first second : NodePattern α}
    {nodes : List Node} {found : Captures α} :
    found ∈ (ChildPatterns.cons ⟨some f, false⟩ first
        (.cons ⟨some g, false⟩ second .nil)).capturesAmong nodes ↔
      ∃ c d, [c, d].Sublist nodes ∧ c.field = some f ∧ d.field = some g ∧
        ∃ here ∈ first.capturesAt c, ∃ later ∈ second.capturesAt d, here ++ later = found := by
  rw [mem_capturesAmong_cons_iff]
  constructor
  · rintro ⟨front, c, behind, rfl, hslot, here, hhere, later, hlater, rfl⟩
    obtain ⟨d, hmem, hfield, hlater⟩ := mem_capturesAmong_part_iff.mp hlater
    have hordered : [c, d].Sublist (front ++ c :: behind) :=
      pair_sublist_iff.mpr ⟨front, behind, rfl, hmem⟩
    exact ⟨c, d, hordered, hslot.field f rfl, hfield, here, hhere, later, hlater, rfl⟩
  · rintro ⟨c, d, hordered, hf, hg, here, hhere, later, hlater, rfl⟩
    obtain ⟨front, behind, rfl, hmem⟩ := pair_sublist_iff.mp hordered
    refine ⟨front, c, behind, rfl, ⟨by simpa using hf, by simp⟩, here, hhere, later, ?_, rfl⟩
    exact mem_capturesAmong_part_iff.mpr ⟨d, hmem, hg, hlater⟩

/-- A pattern of the first child is matched at the first named child. -/
lemma mem_capturesAmong_first_iff {α : Type} {child : NodePattern α} {n : Node}
    {found : Captures α} :
    found ∈ (ChildPatterns.cons ⟨none, true⟩ child .nil).capturesAmong n.children ↔
      ∃ c, n.namedChildren.head? = some c ∧ found ∈ child.capturesAt c := by
  have hfirst : ∀ c, n.namedChildren.head? = some c ↔
      ∃ front behind, n.children = front ++ c :: behind ∧ c.kind.isNamed = true ∧
        ∀ d ∈ front, d.kind.isNamed = false := by
    intro c
    rw [Node.namedChildren, List.head?_filter, List.find?_eq_some_iff_append]
    simp only [Bool.not_eq_eq_eq_not, Bool.not_true]
    constructor
    · rintro ⟨hc, front, behind, hchildren, hfront⟩
      exact ⟨front, behind, hchildren, hc, hfront⟩
    · rintro ⟨front, behind, hchildren, hc, hfront⟩
      exact ⟨hc, front, behind, hchildren, hfront⟩
  rw [mem_capturesAmong_cons_iff]
  constructor
  · rintro ⟨front, c, behind, hchildren, hslot, here, hhere, later, hlater, rfl⟩
    rw [mem_capturesAmong_nil_iff] at hlater
    subst hlater
    rw [List.append_nil]
    exact ⟨c, (hfirst c).mpr ⟨front, behind, hchildren, hslot.first rfl⟩, hhere⟩
  · rintro ⟨c, hc, hfound⟩
    obtain ⟨front, behind, hchildren, hslot⟩ := (hfirst c).mp hc
    refine ⟨front, c, behind, hchildren, ⟨by simp, fun _ => hslot⟩, found, hfound, [], ?_,
      List.append_nil found⟩
    exact mem_capturesAmong_nil_iff.mpr rfl

/-- **The matches at a call** are of one of the three forms, and there are none at other nodes. -/
lemma mem_callQuery_iff {found : Captures CallRole} :
    (∃ p ∈ callQuery, found ∈ p.capturesAt call) ↔
      call.kind = .callExpression ∧ IsCallMatch call found := by
  constructor
  · rintro ⟨p, hp, hfound⟩
    simp only [callQuery, List.mem_cons, List.not_mem_nil, or_false] at hp
    rcases hp with rfl | rfl | rfl
    · obtain ⟨hcall, hfound⟩ := (mem_capturesAt_branch_iff rfl).mp hfound
      obtain ⟨c, hmem, hfield, hfound⟩ := mem_capturesAmong_part_iff.mp hfound
      obtain ⟨-, hkind, rfl⟩ := mem_capturesAt_leaf_iff.mp hfound
      exact ⟨hcall, .callee ⟨hmem, hfield⟩ (hkind _ rfl)⟩
    · obtain ⟨hcall, hfound⟩ := (mem_capturesAt_branch_iff rfl).mp hfound
      obtain ⟨c, hmem, hfield, hfound⟩ := mem_capturesAmong_part_iff.mp hfound
      obtain ⟨hmember, hfound⟩ := (mem_capturesAt_branch_iff rfl).mp hfound
      obtain ⟨name, hname, hproperty, hfound⟩ := mem_capturesAmong_part_iff.mp hfound
      obtain ⟨hnamed, -, rfl⟩ := mem_capturesAt_leaf_iff.mp hfound
      exact ⟨hcall, .memberCallee ⟨hmem, hfield⟩ hmember ⟨hname, hproperty⟩ hnamed⟩
    · obtain ⟨hcall, hfound⟩ := (mem_capturesAt_branch_iff rfl).mp hfound
      obtain ⟨c, arguments, hordered, hf, hg, here, hhere, later, hlater, rfl⟩ :=
        mem_capturesAmong_parts_iff.mp hfound
      obtain ⟨-, hplain, rfl⟩ := mem_capturesAt_leaf_iff.mp hhere
      obtain ⟨hkind, hlater⟩ := (mem_capturesAt_branch_iff rfl).mp hlater
      obtain ⟨title, hfirst, hlater⟩ := mem_capturesAmong_first_iff.mp hlater
      obtain ⟨-, hstring, rfl⟩ := mem_capturesAt_leaf_iff.mp hlater
      exact ⟨hcall, .declaration hordered hf (hplain _ rfl) hg hkind hfirst (hstring _ rfl)⟩
  · rintro ⟨hcall, h⟩
    cases h with
    | callee function plain =>
      refine ⟨_, List.mem_cons_self, (mem_capturesAt_branch_iff rfl).mpr ⟨hcall, ?_⟩⟩
      refine mem_capturesAmong_part_iff.mpr ⟨_, function.mem, function.field, ?_⟩
      exact mem_capturesAt_leaf_iff.mpr ⟨by rw [plain]; rfl, by simp [plain], rfl⟩
    | memberCallee function isMember property isNamed =>
      refine ⟨_, List.mem_cons_of_mem _ List.mem_cons_self,
        (mem_capturesAt_branch_iff rfl).mpr ⟨hcall, ?_⟩⟩
      refine mem_capturesAmong_part_iff.mpr ⟨_, function.mem, function.field, ?_⟩
      refine (mem_capturesAt_branch_iff rfl).mpr ⟨isMember, ?_⟩
      refine mem_capturesAmong_part_iff.mpr ⟨_, property.mem, property.field, ?_⟩
      exact mem_capturesAt_leaf_iff.mpr ⟨isNamed, by simp, rfl⟩
    | @declaration c _ title ordered function plain inArguments kind first isString =>
      refine ⟨_, List.mem_cons_of_mem _ (List.mem_cons_of_mem _ List.mem_cons_self),
        (mem_capturesAt_branch_iff rfl).mpr ⟨hcall, ?_⟩⟩
      refine mem_capturesAmong_parts_iff.mpr
        ⟨_, _, ordered, function, inArguments, [(.declaration, c)], ?_, [(.title, title)], ?_, rfl⟩
      · exact mem_capturesAt_leaf_iff.mpr ⟨by rw [plain]; rfl, by simp [plain], rfl⟩
      · refine (mem_capturesAt_branch_iff rfl).mpr ⟨kind, ?_⟩
        refine mem_capturesAmong_first_iff.mpr ⟨_, first, ?_⟩
        exact mem_capturesAt_leaf_iff.mpr ⟨by rw [isString]; rfl, by simp [isString], rfl⟩

/-! ## What the matches add -/

/-- The match is about a call of the name. -/
def NamesCallee (src : Source) (found : Captures CallRole) (name : String) : Prop :=
  ∃ n, (found = [(.callee, n)] ∨ found = [(.memberCallee, n)]) ∧ name = String.ofList (n.text src)

/-- The match is about a declaration that mentions the name in its title. -/
def MentionsName (src : Source) (found : Captures CallRole) (name : String) : Prop :=
  ∃ c title, found = [(.declaration, c), (.title, title)] ∧
    String.ofList (c.text src) ∈ declaringNames ∧
    (name = String.ofList (stringValue src title) ∨
      name ∈ Signals.titleWords (String.ofList (stringValue src title)))

/-- **One match** adds the name that it is about, or what the title mentions. -/
lemma IsCallMatch.mem_addMatch_iff {found : Captures CallRole} (h : IsCallMatch call found)
    (src : Source) (s : Signals) (name : String) :
    (name ∈ (addMatch src s found).calls ↔
      (name ≠ "" ∧ NamesCallee src found name) ∨ name ∈ s.calls) ∧
    (name ∈ (addMatch src s found).mentions ↔ MentionsName src found name ∨ name ∈ s.mentions) := by
  -- a callee is added to the calls at once, whichever of the two it is
  have hcallee : ∀ n : Node,
      (name ∈ (s.addCall (String.ofList (n.text src))).calls ↔
        (name ≠ "" ∧ name = String.ofList (n.text src)) ∨ name ∈ s.calls) := by
    intro n
    rw [Signals.mem_calls_addCall]
    constructor
    · rintro (⟨rfl, hne⟩ | hs)
      · exact Or.inl ⟨hne, rfl⟩
      · exact Or.inr hs
    · rintro (⟨hne, rfl⟩ | hs)
      · exact Or.inl ⟨rfl, hne⟩
      · exact Or.inr hs
  cases h with
  | @callee c _ _ =>
    have hadd : addMatch src s [(.callee, c)] = s.addCall (String.ofList (c.text src)) := rfl
    rw [hadd, hcallee, Signals.mentions_addCall]
    simp [NamesCallee, MentionsName]
  | @memberCallee _ n _ _ _ _ =>
    have hadd : addMatch src s [(.memberCallee, n)] = s.addCall (String.ofList (n.text src)) := rfl
    rw [hadd, hcallee, Signals.mentions_addCall]
    simp [NamesCallee, MentionsName]
  | @declaration c _ t _ _ _ _ _ _ _ =>
    have hadd : addMatch src s [(.declaration, c), (.title, t)] =
        if declaringNames.contains (String.ofList (c.text src)) then
          s.addMention (String.ofList (stringValue src t)) else s := rfl
    rw [hadd]
    by_cases hdeclares : String.ofList (c.text src) ∈ declaringNames
    · rw [if_pos (List.contains_iff_mem.mpr hdeclares), Signals.mem_mentions_addMention, ← or_assoc]
      simp [NamesCallee, MentionsName, hdeclares]
    · rw [if_neg (fun h => hdeclares (List.contains_iff_mem.mp h))]
      simp [NamesCallee, MentionsName, hdeclares]

/-- **All matches of calls** add what each of them is about. -/
lemma mem_foldl_addMatch_iff {found : List (Captures CallRole)}
    (h : ∀ m ∈ found, ∃ call, IsCallMatch call m) (src : Source) (s : Signals) (name : String) :
    (name ∈ (found.foldl (addMatch src) s).calls ↔
      (name ≠ "" ∧ ∃ m ∈ found, NamesCallee src m name) ∨ name ∈ s.calls) ∧
    (name ∈ (found.foldl (addMatch src) s).mentions ↔
      (∃ m ∈ found, MentionsName src m name) ∨ name ∈ s.mentions) := by
  induction found generalizing s with
  | nil => simp
  | cons m rest ih =>
    obtain ⟨⟨call, hm⟩, hrest⟩ := List.forall_mem_cons.mp h
    obtain ⟨hcalls, hmentions⟩ := hm.mem_addMatch_iff src s name
    obtain ⟨ihcalls, ihmentions⟩ := ih hrest (addMatch src s m)
    rw [List.foldl_cons, ihcalls, hcalls, ihmentions, hmentions]
    simp only [List.mem_cons, exists_eq_or_imp]
    constructor
    · constructor
      · rintro (⟨hne, hlater⟩ | ⟨hne, hhere⟩ | hs)
        · exact Or.inl ⟨hne, Or.inr hlater⟩
        · exact Or.inl ⟨hne, Or.inl hhere⟩
        · exact Or.inr hs
      · rintro (⟨hne, hhere | hlater⟩ | hs)
        · exact Or.inr (Or.inl ⟨hne, hhere⟩)
        · exact Or.inl ⟨hne, hlater⟩
        · exact Or.inr (Or.inr hs)
    · constructor
      · rintro (hlater | hhere | hs)
        · exact Or.inl (Or.inr hlater)
        · exact Or.inl (Or.inl hhere)
        · exact Or.inr hs
      · rintro ((hhere | hlater) | hs)
        · exact Or.inr (Or.inl hhere)
        · exact Or.inl hlater
        · exact Or.inr (Or.inr hs)

/-! ## The signals of a test file -/

/-- The matches of the query of calls in a tree. -/
lemma mem_capturesIn_callQuery_iff {tree : Node} {found : Captures CallRole} :
    found ∈ capturesIn callQuery tree ↔ ∃ place call, tree.at? place = some call ∧
      call.kind = .callExpression ∧ IsCallMatch call found := by
  rw [mem_capturesIn_iff]
  simp only [mem_callQuery_iff]

/-- Some match is about a call of the name just when some call calls it. -/
lemma exists_namesCallee_iff {tree : Node} {name : String} :
    (∃ m ∈ capturesIn callQuery tree, NamesCallee src m name) ↔
      ∃ place call, tree.at? place = some call ∧ Calls src call name.toList := by
  constructor
  · rintro ⟨m, hm, n, hform, rfl⟩
    obtain ⟨place, call, hplace, hcall, hmatch⟩ := mem_capturesIn_callQuery_iff.mp hm
    refine ⟨place, call, hplace, ?_⟩
    rw [String.toList_ofList]
    rcases hform with rfl | rfl
    · cases hmatch with
      | callee function plain => exact .ofVariable hcall function plain
    · cases hmatch with
      | memberCallee function isMember property isNamed =>
        exact .ofMember hcall function isMember property isNamed
  · rintro ⟨place, call, hplace, h⟩
    generalize hname : name.toList = cs at h
    have hname : name = String.ofList cs := by rw [← hname, String.ofList_toList]
    cases h with
    | @ofVariable callee isCall function plain =>
      refine ⟨[(.callee, callee)], ?_, callee, Or.inl rfl, hname⟩
      exact mem_capturesIn_callQuery_iff.mpr ⟨place, call, hplace, isCall, .callee function plain⟩
    | @ofMember callee n isCall function isMember property isNamed =>
      refine ⟨[(.memberCallee, n)], ?_, n, Or.inr rfl, hname⟩
      exact mem_capturesIn_callQuery_iff.mpr
        ⟨place, call, hplace, isCall, .memberCallee function isMember property isNamed⟩

/-- Some match mentions the name just when some call has a title that does. -/
lemma exists_mentionsName_iff {tree : Node} {name : String} :
    (∃ m ∈ capturesIn callQuery tree, MentionsName src m name) ↔
      ∃ place call title, tree.at? place = some call ∧ HasTitle src call title ∧
        (name.toList = stringValue src title ∨ name.toList ∈ Text.tokens (stringValue src title)) := by
  have hnames : ∀ title : Node, (name = String.ofList (stringValue src title) ∨
      name ∈ Signals.titleWords (String.ofList (stringValue src title))) ↔
        (name.toList = stringValue src title ∨
          name.toList ∈ Text.tokens (stringValue src title)) := by
    intro title
    rw [Signals.mem_titleWords_iff, ← String.toList_inj, String.toList_ofList]
  constructor
  · rintro ⟨m, hm, c, title, rfl, hdeclares, hname⟩
    obtain ⟨place, call, hplace, hcall, hmatch⟩ := mem_capturesIn_callQuery_iff.mp hm
    cases hmatch with
    | declaration ordered function plain inArguments kind first isString =>
      have htitle : HasTitle src call title :=
        .intro hcall ordered function plain hdeclares inArguments kind first isString
      exact ⟨place, call, title, hplace, htitle, (hnames title).mp hname⟩
  · rintro ⟨place, call, title, hplace, htitle, hname⟩
    obtain ⟨isCall, ordered, function, plain, declares, inArguments, kind, first, isString⟩ := htitle
    refine ⟨_, ?_, _, title, rfl, declares, (hnames title).mpr hname⟩
    exact mem_capturesIn_callQuery_iff.mpr ⟨place, call, hplace, isCall,
      .declaration ordered function plain inArguments kind first isString⟩

/-! ## What is recorded -/

section Findings

open Signals (Finding ofFindings record)

/-- The nodes of a match record the callees among them. -/
lemma exists_foldl_read (source : Array Char) (nodes : Captures CallRole) (r : CallReading) :
    ∃ found : List Finding,
      (nodes.foldl (CallReading.read source) r).signals = found.foldl record r.signals := by
  induction nodes generalizing r with
  | nil => exact ⟨[], rfl⟩
  | cons c rest ih =>
    obtain ⟨found, hfound⟩ := ih (r.read source c)
    rw [List.foldl_cons, hfound]
    obtain ⟨role, n⟩ := c
    cases role with
    | callee | memberCallee => exact ⟨.call (String.ofList (n.text source)) :: found, rfl⟩
    | declaration | title => exact ⟨found, rfl⟩

/-- A match records its callees, and its title if it declares a test. -/
lemma exists_addMatch (source : Array Char) (s : Signals) (c : Captures CallRole) :
    ∃ found : List Finding, addMatch source s c = found.foldl record s := by
  obtain ⟨found, hfound⟩ := exists_foldl_read source c ⟨s, none, none⟩
  rw [addMatch, CallReading.finish]
  split
  · rename_i name title _ _
    split
    · refine ⟨found ++ [.title title], ?_⟩
      rw [hfound, List.foldl_append]
      rfl
    · exact ⟨found, hfound⟩
  · exact ⟨found, hfound⟩

/-- The signals of a TypeScript test file are signals of findings. -/
lemma exists_signals_eq_ofFindings (source : Array Char) (tree : Node) :
    ∃ found, signals source tree = ofFindings found := by
  have hfold (found : List (Captures CallRole)) (s : Signals) :
      ∃ all : List Finding, found.foldl (addMatch source) s = all.foldl record s := by
    induction found generalizing s with
    | nil => exact ⟨[], rfl⟩
    | cons c rest ih =>
      obtain ⟨first, hfirst⟩ := exists_addMatch source s c
      obtain ⟨others, hothers⟩ := ih (addMatch source s c)
      refine ⟨first ++ others, ?_⟩
      rw [List.foldl_cons, hothers, hfirst, List.foldl_append]
  exact hfold _ ∅

end Findings

/-- **The signals of a test file** are these and no others.  The calls are the names, other than the
empty one, that some call calls, wherever in the tree it stands.  The mentions are the titles of the
calls that declare tests, and the words of these titles. -/
theorem mem_signals_iff (src : Source) (tree : Node) (name : String) :
    (name ∈ (signals src tree).calls ↔
      name ≠ "" ∧ ∃ place call, tree.at? place = some call ∧ Calls src call name.toList) ∧
    (name ∈ (signals src tree).mentions ↔
      ∃ place call title, tree.at? place = some call ∧ HasTitle src call title ∧
        (name.toList = stringValue src title ∨
          name.toList ∈ Text.tokens (stringValue src title))) := by
  have hform : ∀ m ∈ capturesIn callQuery tree, ∃ call, IsCallMatch call m := by
    intro m hm
    obtain ⟨-, call, -, -, hmatch⟩ := mem_capturesIn_callQuery_iff.mp hm
    exact ⟨call, hmatch⟩
  obtain ⟨hcalls, hmentions⟩ := mem_foldl_addMatch_iff hform src ∅ name
  rw [signals, hcalls, hmentions, exists_namesCallee_iff, exists_mentionsName_iff]
  exact ⟨or_iff_left (NameSet.not_mem_empty name), or_iff_left (NameSet.not_mem_empty name)⟩

end CoverageEstimate.TypeScript

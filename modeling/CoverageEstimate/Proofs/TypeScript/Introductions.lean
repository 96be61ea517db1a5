/-
# Which nodes introduce the functions of a source

The functions of a source are collected on a walk that finds the methods of a class with the class
and not where they stand, and they are sorted in the end.  This file says without any walk which
nodes of a parse tree introduce a function (`Introduces`), and that each of them is reported once
and nothing else is.

The argument keeps track of places: everything that is collected is put together with the place of
the node that introduces it.  These places are all different since they give away from where they
were collected (`collector`), and the definitions themselves are not touched by this.
-/
import CoverageEstimate.Proofs.Sorting
import CoverageEstimate.Proofs.TypeScript.Walk
import CoverageEstimate.TypeScript.Rule

namespace CoverageEstimate.TypeScript

/-! ## Introductions -/

/-- The node declares a class. -/
def Node.IsClass (n : Node) : Prop :=
  n.kind = .classDeclaration ∨ n.kind = .abstractClassDeclaration

instance (n : Node) : Decidable n.IsClass := inferInstanceAs (Decidable (_ ∨ _))

/-- Child number `i` of the node is `c`, and it is the first one that plays the part. -/
structure Node.IsPart (n : Node) (f : Field) (i : ℕ) (c : Node) : Prop where
  child : n.children[i]? = some c
  field : c.field = some f
  first : ∀ j < i, ∀ d, n.children[j]? = some d → d.field ≠ some f

/-- The children of a method that stand before its name. -/
def Node.beforeName (n : Node) : List Node := n.children.takeWhile fun c => c.field != some .name

/-- One of the nodes is the word, and none before it is the other word. -/
def Announce (nodes : List Node) (word other : String) : Prop :=
  ∃ front c back, nodes = front ++ c :: back ∧ c.kind = .token word ∧
    ∀ d ∈ front, d.kind ≠ .token other

/-- The kind of a method with some nodes before its name: it is an accessor if one of the words for
that is among them, and if both are, the first of them counts. -/
inductive IsMethodKind (before : List Node) : FunctionKind → Prop
  | getter (h : Announce before "get" "set") : IsMethodKind before .getter
  | setter (h : Announce before "set" "get") : IsMethodKind before .setter
  | method (h : ∀ c ∈ before, c.kind ≠ .token "get" ∧ c.kind ≠ .token "set") :
      IsMethodKind before .method

/-- The node at a place of the tree introduces a definition. -/
inductive Introduces (src : Source) (tree : Node) : List ℕ → Located → Prop
  /-- A function declaration with a name introduces the function. -/
  | function {place : List ℕ} {n name : Node} (found : tree.at? place = some n)
      (kind : n.kind = .functionDeclaration ∨ n.kind = .generatorDeclaration)
      (named : n.child? .name = some name) :
      Introduces src tree place (definitionOf src n (name.text src) .function none)
  /-- A method in the body of a class with a name introduces itself, unless it is the
  constructor. -/
  | method {place : List ℕ} {i j : ℕ} {c owner body member name : Node} {kind : FunctionKind}
      (found : tree.at? place = some c) (isClass : c.IsClass)
      (owned : c.child? .name = some owner) (inBody : c.IsPart .body i body)
      (inside : body.children[j]? = some member) (isMethod : member.kind = .methodDefinition)
      (named : member.child? .name = some name) (ne : name.text src ≠ "constructor".toList)
      (accessor : IsMethodKind member.beforeName kind) :
      Introduces src tree (place ++ [i, j])
        (definitionOf src member (name.text src) kind (some (String.ofList (owner.text src))))
  /-- A variable that is an identifier, with a function as its value, introduces that under its own
  name. -/
  | value {place : List ℕ} {n name value : Node} (found : tree.at? place = some n)
      (kind : n.kind = .variableDeclarator) (named : n.child? .name = some name)
      (plain : name.kind = .identifier) (hasValue : n.child? .value = some value)
      (isFunction : value.kind.isFunctionValue = true) :
      Introduces src tree place (definitionOf src value (name.text src) .function none)

/-! ## Parts and kinds -/

variable {src : Source} {tree n : Node}

lemma Node.IsPart.unique {f : Field} {i j : ℕ} {c d : Node} (hc : n.IsPart f i c)
    (hd : n.IsPart f j d) : i = j ∧ c = d := by
  have hij : i = j := by
    rcases Nat.lt_trichotomy i j with h | h | h
    · exact absurd hc.field (hd.first i h c hc.child)
    · exact h
    · exact absurd hd.field (hc.first j h d hd.child)
  subst hij
  exact ⟨rfl, Option.some.inj (hc.child.symm.trans hd.child)⟩

/-- The number of the first child that plays a part, if there is one. -/
def Node.partIndex (n : Node) (f : Field) : ℕ := n.children.findIdx fun c => c.field == some f

lemma Node.isPart_of_child? {f : Field} {c : Node} (h : n.child? f = some c) :
    n.IsPart f (n.partIndex f) c := by
  obtain ⟨hf, i, hi, hc, hfirst⟩ := List.find?_eq_some_iff_getElem.mp h
  have hindex : n.partIndex f = i := by
    refine (List.findIdx_eq hi).mpr ⟨by rwa [hc], fun j hj => ?_⟩
    simpa using hfirst j hj
  rw [hindex]
  refine ⟨hc ▸ List.getElem?_eq_getElem hi, by simpa using hf, fun j hj d hd => ?_⟩
  obtain ⟨hlt, rfl⟩ := List.getElem?_eq_some_iff.mp hd
  simpa using hfirst j hj

lemma Node.IsPart.child?_eq {f : Field} {i : ℕ} {c : Node} (h : n.IsPart f i c) :
    n.child? f = some c := by
  obtain ⟨hi, hc⟩ := List.getElem?_eq_some_iff.mp h.child
  refine List.find?_eq_some_iff_getElem.mpr ⟨by simp [h.field], i, hi, hc, fun j hj => ?_⟩
  simpa using h.first j hj _ (List.getElem?_eq_getElem (Nat.lt_trans hj hi))

lemma announce_nil (word other : String) : ¬Announce [] word other := by
  rintro ⟨front, c, back, heq, -⟩
  simp at heq

/-- What the words before a name announce depends on the first node, if it is one of them. -/
lemma announce_cons_iff {c : Node} {rest : List Node} {word other : String} :
    Announce (c :: rest) word other ↔
      c.kind = .token word ∨ (c.kind ≠ .token other ∧ Announce rest word other) := by
  constructor
  · rintro ⟨front, d, back, heq, hword, hother⟩
    cases front with
    | nil =>
      obtain ⟨rfl, -⟩ := List.cons.inj heq
      exact Or.inl hword
    | cons e front =>
      obtain ⟨rfl, rfl⟩ := List.cons.inj heq
      refine Or.inr ⟨hother c List.mem_cons_self, front, d, back, rfl, hword, fun e he => ?_⟩
      exact hother e (List.mem_cons_of_mem _ he)
  · rintro (hword | ⟨hc, front, d, back, rfl, hword, hother⟩)
    · exact ⟨[], c, rest, rfl, hword, by simp⟩
    · refine ⟨c :: front, d, back, rfl, hword, fun e he => ?_⟩
      rcases List.mem_cons.mp he with rfl | he
      · exact hc
      · exact hother e he

lemma isMethodKind_nil_iff {kind : FunctionKind} : IsMethodKind [] kind ↔ kind = .method := by
  constructor
  · intro h
    cases h with
    | getter h => exact absurd h (announce_nil _ _)
    | setter h => exact absurd h (announce_nil _ _)
    | method h => rfl
  · rintro rfl
    exact .method (by simp)

lemma isMethodKind_cons_iff {c : Node} {rest : List Node} {kind : FunctionKind} :
    IsMethodKind (c :: rest) kind ↔
      if c.kind = .token "get" then kind = .getter
      else if c.kind = .token "set" then kind = .setter
      else IsMethodKind rest kind := by
  by_cases hget : c.kind = .token "get"
  · rw [if_pos hget]
    constructor
    · intro h
      cases h with
      | getter h => rfl
      | setter h => simp [announce_cons_iff, hget] at h
      | method h => exact absurd hget (h c List.mem_cons_self).1
    · rintro rfl
      exact .getter (announce_cons_iff.mpr (Or.inl hget))
  rw [if_neg hget]
  by_cases hset : c.kind = .token "set"
  · rw [if_pos hset]
    constructor
    · intro h
      cases h with
      | getter h => simp [announce_cons_iff, hset] at h
      | setter h => rfl
      | method h => exact absurd hset (h c List.mem_cons_self).2
    · rintro rfl
      exact .setter (announce_cons_iff.mpr (Or.inl hset))
  rw [if_neg hset]
  constructor
  · intro h
    cases h with
    | getter h => exact .getter ((announce_cons_iff.mp h).resolve_left hget).2
    | setter h => exact .setter ((announce_cons_iff.mp h).resolve_left hset).2
    | method h => exact .method fun d hd => h d (List.mem_cons_of_mem _ hd)
  · intro h
    cases h with
    | getter h => exact .getter (announce_cons_iff.mpr (Or.inr ⟨hset, h⟩))
    | setter h => exact .setter (announce_cons_iff.mpr (Or.inr ⟨hget, h⟩))
    | method h => exact .method (List.forall_mem_cons.mpr ⟨⟨hget, hset⟩, h⟩)

/-- The kind that is found for a method is its kind. -/
lemma isMethodKind_iff {children : List Node} {kind : FunctionKind} :
    IsMethodKind (children.takeWhile fun c => c.field != some .name) kind ↔
      kind = accessorKind children := by
  induction children with
  | nil => exact isMethodKind_nil_iff
  | cons c rest ih =>
    rw [accessorKind]
    by_cases hname : c.field = some .name
    · rw [List.takeWhile_cons_of_neg (by simp [hname]), isMethodKind_nil_iff]
      simp [hname]
    · rw [List.takeWhile_cons_of_pos (by simp [hname]), isMethodKind_cons_iff, ih]
      by_cases hget : c.kind = .token "get"
      · simp [hname, hget]
      · by_cases hset : c.kind = .token "set"
        · simp [hname, hset]
        · simp [hname, hget, hset]

/-! ## What is collected at a node -/

/-- What is found of a class are the methods in its body that have a name, the constructor apart. -/
lemma memberDefinition?_eq_some_iff {owner : String} {member : Node} {d : Located} :
    memberDefinition? src owner member = some d ↔
      ∃ name, member.kind = .methodDefinition ∧ member.child? .name = some name ∧
        name.text src ≠ "constructor".toList ∧
        d = definitionOf src member (name.text src) (accessorKind member.children)
          (some owner) := by
  rw [memberDefinition?]
  split
  · rename_i name hkind hname
    dsimp only
    split
    · rename_i hc
      constructor
      · exact fun h => absurd h.symm (Option.some_ne_none d)
      · rintro ⟨other, -, hother, hne, -⟩
        obtain rfl := Option.some.inj (hname.symm.trans hother)
        exact absurd (eq_of_beq hc) hne
    · rename_i hc
      constructor
      · intro h
        exact ⟨name, hkind, hname, fun heq => hc (beq_iff_eq.mpr heq), (Option.some.inj h).symm⟩
      · rintro ⟨other, -, hother, -, rfl⟩
        obtain rfl := Option.some.inj (hname.symm.trans hother)
        rfl
  · rename_i hnone
    constructor
    · exact fun h => absurd h.symm (Option.some_ne_none d)
    · rintro ⟨name, hkind, hname, -⟩
      exact (hnone name hkind hname).elim

lemma ownDefinitions_class (h : n.IsClass) :
    ownDefinitions src n =
      match n.child? .name, n.child? .body with
      | some name, some body =>
        body.children.filterMap (memberDefinition? src (String.ofList (name.text src)))
      | _, _ => [] := by
  have hmembers : ∀ owner (nodes : List Node),
      (nodes.filter fun c => c.kind.isNamed).filterMap (memberDefinition? src owner) =
        nodes.filterMap (memberDefinition? src owner) := by
    intro owner nodes
    rw [List.filterMap_filter]
    refine List.filterMap_congr fun c _ => ?_
    cases hc : memberDefinition? src owner c with
    | none => exact ite_self none
    | some d =>
      obtain ⟨name, hkind, -⟩ := memberDefinition?_eq_some_iff.mp hc
      rw [hkind]
      rfl
  cases hname : n.child? .name with
  | none => rcases h with h | h <;> simp only [ownDefinitions, h, hname]
  | some name =>
    cases hbody : n.child? .body with
    | none => rcases h with h | h <;> simp only [ownDefinitions, h, hname, hbody]
    | some body =>
      rcases h with h | h <;>
        simp only [ownDefinitions, h, hname, hbody, Node.namedChildren, hmembers]

/-- A node that declares no class introduces at most one definition, as a function declaration or a
variable. -/
lemma mem_ownDefinitions_iff (h : ¬n.IsClass) {d : Located} :
    d ∈ ownDefinitions src n ↔
      (∃ name, (n.kind = .functionDeclaration ∨ n.kind = .generatorDeclaration) ∧
        n.child? .name = some name ∧ d = definitionOf src n (name.text src) .function none) ∨
      ∃ name value, n.kind = .variableDeclarator ∧ n.child? .name = some name ∧
        name.kind = .identifier ∧ n.child? .value = some value ∧
        value.kind.isFunctionValue = true ∧
        d = definitionOf src value (name.text src) .function none := by
  cases hk : n.kind with
  | functionDeclaration | generatorDeclaration =>
    cases hname : n.child? .name <;> simp [ownDefinitions, hk, hname]
  | classDeclaration => exact absurd (Or.inl hk) h
  | abstractClassDeclaration => exact absurd (Or.inr hk) h
  | variableDeclarator =>
    cases hname : n.child? .name <;> cases hvalue : n.child? .value <;>
      simp [ownDefinitions, hk, hname, hvalue, and_assoc]
  | _ => simp [ownDefinitions, hk]

lemma length_ownDefinitions_le (h : ¬n.IsClass) : (ownDefinitions src n).length ≤ 1 := by
  cases hk : n.kind with
  | functionDeclaration | generatorDeclaration =>
    cases hname : n.child? .name <;> simp [ownDefinitions, hk, hname]
  | classDeclaration => exact absurd (Or.inl hk) h
  | abstractClassDeclaration => exact absurd (Or.inr hk) h
  | variableDeclarator =>
    simp only [ownDefinitions, hk]
    split
    · split <;> simp
    · simp
  | _ => simp [ownDefinitions, hk]

/-- What is collected at the node of a place, with the places of the nodes that introduce it. -/
def collectedAt (src : Source) (place : List ℕ) (n : Node) : List (List ℕ × Located) :=
  if n.IsClass then
    match n.child? .name, n.child? .body with
    | some name, some body =>
      body.children.zipIdx.filterMap fun m =>
        (memberDefinition? src (String.ofList (name.text src)) m.1).map fun d =>
          (place ++ [n.partIndex .body, m.2], d)
    | _, _ => []
  else (ownDefinitions src n).map fun d => (place, d)

/-- Without their places, these are the definitions of the node. -/
lemma map_snd_collectedAt (place : List ℕ) (n : Node) :
    (collectedAt src place n).map (·.2) = ownDefinitions src n := by
  rw [collectedAt]
  split
  · rename_i hclass
    rw [ownDefinitions_class hclass]
    split
    · rename_i name body _ _
      rw [List.map_filterMap]
      simp only [Option.map_map, Function.comp_def, Option.map_id']
      rw [← Function.comp_def, ← List.filterMap_map, List.zipIdx_map_fst]
    · rfl
  · rw [List.map_map, Function.comp_def, List.map_id']

/-- The methods of a class are collected at the class, each at its own place. -/
lemma mem_collectedAt_class_iff (h : n.IsClass) {place : List ℕ} {e : List ℕ × Located} :
    e ∈ collectedAt src place n ↔
      ∃ owner body j member, n.child? .name = some owner ∧ n.child? .body = some body ∧
        body.children[j]? = some member ∧
        memberDefinition? src (String.ofList (owner.text src)) member = some e.2 ∧
        e.1 = place ++ [n.partIndex .body, j] := by
  rw [collectedAt, if_pos h]
  split
  · rename_i owner body howner hbody
    rw [List.mem_filterMap]
    constructor
    · rintro ⟨⟨member, j⟩, hm, he⟩
      obtain ⟨d, hd, rfl⟩ := Option.map_eq_some_iff.mp he
      exact ⟨owner, body, j, member, howner, hbody, List.mk_mem_zipIdx_iff_getElem?.mp hm, hd, rfl⟩
    · rintro ⟨owner', body', j, member, howner', hbody', hm, hd, hplace⟩
      obtain rfl := Option.some.inj (howner.symm.trans howner')
      obtain rfl := Option.some.inj (hbody.symm.trans hbody')
      refine ⟨(member, j), List.mk_mem_zipIdx_iff_getElem?.mpr hm, ?_⟩
      rw [hd, Option.map_some, ← hplace]
  · rename_i hnone
    constructor
    · simp
    · rintro ⟨owner, body, j, member, howner, hbody, -⟩
      exact (hnone owner body howner hbody).elim

/-- What is collected at some node of a tree is what the nodes of the tree introduce. -/
lemma exists_mem_collectedAt_iff {e : List ℕ × Located} :
    (∃ place n, tree.at? place = some n ∧ e ∈ collectedAt src place n) ↔
      Introduces src tree e.1 e.2 := by
  constructor
  · rintro ⟨place, n, hn, he⟩
    obtain ⟨here, d⟩ := e
    by_cases hclass : n.IsClass
    · obtain ⟨owner, body, j, member, howner, hbody, hm, hd, rfl⟩ :=
        (mem_collectedAt_class_iff hclass).mp he
      obtain ⟨name, hkind, hname, hne, rfl⟩ := memberDefinition?_eq_some_iff.mp hd
      exact .method hn hclass howner (Node.isPart_of_child? hbody) hm hkind hname hne
        (isMethodKind_iff.mpr rfl)
    · rw [collectedAt, if_neg hclass] at he
      obtain ⟨d, hd, heq⟩ := List.mem_map.mp he
      obtain ⟨rfl, rfl⟩ := Prod.mk.inj heq
      obtain ⟨name, hkind, hname, rfl⟩ | ⟨name, value, hkind, hname, hplain, hvalue, hf, rfl⟩ :=
        (mem_ownDefinitions_iff hclass).mp hd
      · exact .function hn hkind hname
      · exact .value hn hkind hname hplain hvalue hf
  · intro h
    obtain ⟨here, d⟩ := e
    cases h with
    | @function _ n name found kind named =>
      have hclass : ¬n.IsClass := by
        rcases kind with h | h <;> simp [Node.IsClass, h]
      refine ⟨here, n, found, ?_⟩
      rw [collectedAt, if_neg hclass]
      refine List.mem_map.mpr ⟨_, (mem_ownDefinitions_iff hclass).mpr ?_, rfl⟩
      exact Or.inl ⟨name, kind, named, rfl⟩
    | @value _ n name value found kind named plain hasValue isFunction =>
      have hclass : ¬n.IsClass := by simp [Node.IsClass, kind]
      refine ⟨here, n, found, ?_⟩
      rw [collectedAt, if_neg hclass]
      refine List.mem_map.mpr ⟨_, (mem_ownDefinitions_iff hclass).mpr ?_, rfl⟩
      exact Or.inr ⟨name, value, kind, named, plain, hasValue, isFunction, rfl⟩
    | @method place i j c owner body member name kind found isClass owned inBody inside isMethod
        named ne accessor =>
      obtain rfl := isMethodKind_iff.mp accessor
      have hbody := inBody.child?_eq
      obtain ⟨rfl, -⟩ := inBody.unique (Node.isPart_of_child? hbody)
      refine ⟨place, c, found, (mem_collectedAt_class_iff isClass).mpr ?_⟩
      exact ⟨owner, body, j, member, owned, hbody, inside,
        memberDefinition?_eq_some_iff.mpr ⟨name, isMethod, named, ne, rfl⟩, rfl⟩

/-! ## All places are different -/

/-- From where it is collected what the node at a place introduces: a method from its class, and
anything else from where it stands. -/
def collector (tree : Node) (place : List ℕ) : List ℕ :=
  if (tree.at? place).any fun n => n.kind == .methodDefinition then place.take (place.length - 2)
  else place

lemma collector_eq {place : List ℕ} (h : tree.at? place = some n) {e : List ℕ × Located}
    (he : e ∈ collectedAt src place n) : collector tree e.1 = place := by
  by_cases hclass : n.IsClass
  · obtain ⟨owner, body, j, member, -, hbody, hm, hd, heq⟩ :=
      (mem_collectedAt_class_iff hclass).mp he
    obtain ⟨name, hkind, -⟩ := memberDefinition?_eq_some_iff.mp hd
    have hat : tree.at? e.1 = some member := by
      have hchild := (Node.isPart_of_child? hbody).child
      rw [heq, Node.at?_append, h, Option.bind_some, Node.at?_cons, hchild, Option.bind_some,
        Node.at?_cons, hm, Option.bind_some, Node.at?_nil]
    rw [collector, hat, Option.any_some, hkind, heq]
    simp
  · rw [collectedAt, if_neg hclass] at he
    obtain ⟨d, hd, rfl⟩ := List.mem_map.mp he
    have hkind : n.kind ≠ .methodDefinition := by
      intro hk
      simp [ownDefinitions, hk] at hd
    rw [collector, h, Option.any_some, beq_false_of_ne hkind]
    simp

lemma nodup_collectedAt (place : List ℕ) (n : Node) :
    ((collectedAt src place n).map (·.1)).Nodup := by
  by_cases hclass : n.IsClass
  · rw [collectedAt, if_pos hclass]
    split
    · rename_i owner body _ _
      rw [List.Nodup, List.pairwise_map]
      refine (pairwise_zipIdx_ne body.children).filterMap _ fun a b hne x hx y hy heq => hne ?_
      obtain ⟨d, -, rfl⟩ := Option.map_eq_some_iff.mp hx
      obtain ⟨e, -, rfl⟩ := Option.map_eq_some_iff.mp hy
      simpa using heq
    · exact List.nodup_nil
  · rw [collectedAt, if_neg hclass, List.map_map]
    have hlen : (ownDefinitions src n).length ≤ 1 := length_ownDefinitions_le hclass
    have hplaces : (ownDefinitions src n).map (Prod.fst ∘ fun d => (place, d)) =
        List.replicate (ownDefinitions src n).length place := List.map_const'
    rw [hplaces]
    exact List.nodup_replicate.mpr hlen

/-- What is collected in the whole tree, with its places. -/
def collected (src : Source) (tree : Node) : List (List ℕ × Located) :=
  (placed tree).flatMap fun p => collectedAt src p.1 p.2

/-- **No place is collected twice.** -/
lemma nodup_collected (src : Source) (tree : Node) : ((collected src tree).map (·.1)).Nodup := by
  rw [collected, List.map_flatMap, List.nodup_flatMap]
  refine ⟨fun p _ => nodup_collectedAt p.1 p.2, ?_⟩
  refine (List.pairwise_map.mp (nodup_places tree)).imp_of_mem fun {p q} hp hq hne place hx hy => ?_
  obtain ⟨e, he, rfl⟩ := List.mem_map.mp hx
  obtain ⟨f, hf, heq⟩ := List.mem_map.mp hy
  -- both were collected from the same node
  have hcp := collector_eq (mem_placed_iff.mp hp) he
  have hcq := collector_eq (mem_placed_iff.mp hq) hf
  rw [heq] at hcq
  exact hne (hcp.symm.trans hcq)

/-- **What is collected** in a tree are the definitions that its nodes introduce, with their
places. -/
lemma mem_collected_iff {place : List ℕ} {d : Located} :
    (place, d) ∈ collected src tree ↔ Introduces src tree place d := by
  rw [← exists_mem_collectedAt_iff (e := (place, d)), collected, List.mem_flatMap, Prod.exists]
  simp only [mem_placed_iff]

/-- Without their places, these are the definitions that the walk collects. -/
lemma toList_collectDefinitions_eq (src : Source) (tree : Node) :
    (collectDefinitions src #[] [tree]).toList = (collected src tree).map (·.2) := by
  rw [toList_collectDefinitions_tree, collected, List.map_flatMap, ← map_snd_placed,
    List.flatMap_map]
  simp only [map_snd_collectedAt]

/-- **The functions of a source** are the ones that the nodes of its parse tree introduce, each node
at most one and each of them once, in the order in which they start. -/
theorem functions_introduced (src : Source) (tree : Node) :
    ∃ reported : List (List ℕ × Located),
      functions src tree = reported.map (·.2.2) ∧
        (reported.map (·.1)).Nodup ∧
        (∀ place d, (place, d) ∈ reported ↔ Introduces src tree place d) ∧
        reported.Pairwise fun a b => a.2.1 ≤ b.2.1 := by
  have hsort : ((collected src tree).mergeSort fun a b => a.2.1 ≤ b.2.1).map (·.2) =
      ((collected src tree).map (·.2)).mergeSort fun a b => a.1 ≤ b.1 :=
    List.map_mergeSort fun _ _ _ _ => rfl
  refine ⟨(collected src tree).mergeSort fun a b => a.2.1 ≤ b.2.1, ?_, ?_, fun place d => ?_, ?_⟩
  · rw [functions, toList_collectDefinitions_eq, ← hsort, List.map_map]
    rfl
  · have hperm := (List.mergeSort_perm (collected src tree) fun a b => a.2.1 ≤ b.2.1).map (·.1)
    exact hperm.nodup_iff.mpr (nodup_collected src tree)
  · rw [List.mem_mergeSort, mem_collected_iff]
  · exact Sorting.pairwise_le_mergeSort (fun e : List ℕ × Located => e.2.1) _

end CoverageEstimate.TypeScript

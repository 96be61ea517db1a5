/-
# What may be a body

In the parse tree of a source, the body of a class, of a function or of anything else is never a
function declaration.  That can be read off the rules of the grammar one by one: it is enough to
know under which names a function declaration may be matched at all.
-/
import CoverageEstimate.Proofs.TypeScript.Derivation
import CoverageEstimate.Proofs.TypeScript.Introductions
import CoverageEstimate.TypeScript.Grammar
import Mathlib.Data.Bool.Basic
import Mathlib.Data.List.TakeWhile

namespace CoverageEstimate.TypeScript

/-- Nodes of the kind declare functions. -/
def Kind.IsFunctionDeclaration (k : Kind) : Prop :=
  k = .functionDeclaration ∨ k = .generatorDeclaration

instance : DecidablePred Kind.IsFunctionDeclaration := fun _ =>
  inferInstanceAs (Decidable (_ ∨ _))

/-- No class in the tree has a function declaration for its body. -/
def Node.HasPlainBodies (tree : Node) : Prop :=
  ∀ n ∈ nodesIn tree, n.IsClass →
    ∀ body, n.child? .body = some body → ¬body.kind.IsFunctionDeclaration

/-- The node is no function declaration in the part of a body, and no node inside it is. -/
inductive Node.IsPlain : Node → Prop
  | mk {k : Kind} {f : Option Field} (start stop : ℕ) {children : List Node}
      (plain : f = some .body → ¬k.IsFunctionDeclaration) (inside : ∀ c ∈ children, IsPlain c) :
      IsPlain (.mk k f start stop children)

namespace Rule

variable {N : Type} (named : N → Bool)

/-- Whether the rule may match a function declaration, if the rules of some names may. -/
def mayDeclare : Rule N → Bool
  | nothing | lex _ | ahead _ | absent _ => false
  | seq a b | alt a b | chain a b => a.mayDeclare || b.mayDeclare
  | many a | part _ a | extend a => a.mayDeclare
  | node k _ | wrap k _ _ => decide k.IsFunctionDeclaration
  | ref n => named n

/-- Whether nothing that may be a function declaration is made a body in the rule, or extended. -/
def keepsBodies : Rule N → Bool
  | nothing | lex _ | ref _ | ahead _ | absent _ => true
  | seq a b | alt a b => a.keepsBodies && b.keepsBodies
  | many a | node _ a | wrap _ _ a => a.keepsBodies
  | part f a => a.keepsBodies && (f != .body || !a.mayDeclare named)
  | chain a step => a.keepsBodies && step.keepsBodies && !a.mayDeclare named &&
      !step.mayDeclare named
  | extend step => step.keepsBodies && !step.mayDeclare named

end Rule

variable {src : Source} {pos stop : ℕ} {nodes : List Node} {n : Node}

/-! ## Plain nodes -/

lemma isPlain_mk_iff {k : Kind} {f : Option Field} {start : ℕ} :
    (Node.mk k f start stop nodes).IsPlain ↔
      (f = some .body → ¬k.IsFunctionDeclaration) ∧ ∀ c ∈ nodes, c.IsPlain := by
  constructor
  · rintro ⟨_, _, plain, inside⟩
    exact ⟨plain, inside⟩
  · rintro ⟨plain, inside⟩
    exact .mk start stop plain inside

lemma Node.IsPlain.of_mem {c : Node} (h : n.IsPlain) (hc : c ∈ n.children) : c.IsPlain := by
  cases h with
  | mk start stop plain inside => exact inside c hc

lemma Node.IsPlain.not_isFunctionDeclaration (h : n.IsPlain) (hf : n.field = some .body) :
    ¬n.kind.IsFunctionDeclaration := by
  cases h with
  | mk start stop plain inside => exact plain hf

lemma isPlain_leaf (k : Kind) (start stop : ℕ) : (leaf k start stop).IsPlain :=
  .mk start stop (by simp) (by simp)

lemma Node.IsPlain.withField (h : n.IsPlain) {f : Field}
    (hf : f = .body → ¬n.kind.IsFunctionDeclaration) : (n.withField f).IsPlain := by
  cases h with
  | mk start stop plain inside => exact .mk start stop (fun heq => hf (Option.some.inj heq)) inside

@[simp] lemma Node.kind_withField (f : Field) (n : Node) : (n.withField f).kind = n.kind := by
  cases n
  rfl

/-- A plain tree has plain bodies. -/
lemma Node.IsPlain.hasPlainBodies (h : n.IsPlain) : n.HasPlainBodies := by
  have hinside : ∀ m ∈ nodesIn n, m.IsPlain := by
    induction h with
    | mk start stop plain inside ih =>
      intro m hm
      rw [nodesIn_eq, List.mem_cons, List.mem_flatMap] at hm
      obtain rfl | ⟨c, hc, hm⟩ := hm
      · exact .mk start stop plain inside
      · exact ih c hc m hm
  intro m hm _ body hbody
  have hplain := (hinside m hm).of_mem (Node.mem_of_child? hbody)
  exact hplain.not_isFunctionDeclaration (by simpa using List.find?_some hbody)

/-! ## Lexemes -/

/-- The nodes are plain, and they are no function declarations unless there may be some. -/
def ArePlain (may : Bool) (nodes : List Node) : Prop :=
  ∀ n ∈ nodes, n.IsPlain ∧ (n.kind.IsFunctionDeclaration → may = true)

/-- The nodes that have been matched are plain. -/
def Yields (may : Bool) (r : Parsed) : Prop := ∀ m ∈ r, ArePlain may m.1

variable {may : Bool}

lemma arePlain_nil : ArePlain may [] := by simp [ArePlain]

lemma arePlain_singleton (hn : n.IsPlain) (hk : ¬n.kind.IsFunctionDeclaration) :
    ArePlain may [n] := by
  intro m hm
  obtain rfl := List.mem_singleton.mp hm
  exact ⟨hn, fun h => absurd h hk⟩

lemma ArePlain.append {front back : List Node} (hf : ArePlain may front) (hb : ArePlain may back) :
    ArePlain may (front ++ back) := fun n hn => (List.mem_append.mp hn).elim (hf n) (hb n)

lemma yields_none : Yields may none := by simp [Yields]

lemma yields_some (h : ArePlain may nodes) : Yields may (some (nodes, stop)) := by
  rintro _ ⟨⟩
  exact h

lemma yields_nil : Yields may (some ([], stop)) := yields_some arePlain_nil

lemma yields_leaf {k : Kind} (hk : ¬k.IsFunctionDeclaration) (start : ℕ) :
    Yields may (some ([leaf k start stop], stop)) :=
  yields_some (arePlain_singleton (isPlain_leaf k start stop) hk)

lemma isPlain_of_stringParts? {quote : Char} {fuel : ℕ}
    (h : stringParts? src quote fuel pos = some (nodes, stop)) : ∀ n ∈ nodes, n.IsPlain := by
  induction fuel generalizing pos nodes with
  | zero => simp [stringParts?] at h
  | succ fuel ih =>
    rw [stringParts?] at h
    split at h
    · simp at h
    · split at h
      · obtain ⟨rfl, -⟩ := Prod.mk.inj (Option.some.inj h)
        simp
      · split at h
        · simp at h
        · extract_lets plain part? at h
          cases hpart : part? with
          | none => simp [hpart] at h
          | some part =>
            simp only [hpart] at h
            obtain ⟨back, hback, hr⟩ := Option.map_eq_some_iff.mp h
            obtain ⟨rfl, rfl⟩ := Prod.mk.inj hr
            exact List.forall_mem_cons.mpr ⟨isPlain_leaf _ _ _, ih hback⟩

lemma isPlain_of_stringAt? (h : stringAt? src pos = some n) :
    n.IsPlain ∧ ¬n.kind.IsFunctionDeclaration := by
  rw [stringAt?] at h
  split at h
  · simp at h
  · split at h
    · obtain ⟨parts, hparts, rfl⟩ := Option.map_eq_some_iff.mp h
      refine ⟨.mk _ _ (by simp) fun c hc => ?_, by simp [Kind.IsFunctionDeclaration, Node.kind]⟩
      rw [List.mem_append, List.mem_cons, List.mem_singleton] at hc
      obtain (rfl | hc) | rfl := hc
      · exact isPlain_leaf _ _ _
      · exact isPlain_of_stringParts? hparts c hc
      · exact isPlain_leaf _ _ _
    · simp at h

/-- The lexemes of a language are no declarations. -/
lemma yields_matchAt (s : Setting) (pos : ℕ) (t : Terminal) : Yields may (t.matchAt s pos) := by
  cases t with
  | string =>
    rw [Terminal.matchAt]
    intro m hm
    obtain ⟨found, hfound, rfl⟩ := Option.map_eq_some_iff.mp hm
    obtain ⟨hplain, hkind⟩ := isPlain_of_stringAt? hfound
    exact arePlain_singleton hplain hkind
  | _ =>
    -- any other lexeme is a single leaf, or nothing
    simp only [Terminal.matchAt]
    repeat' split
    all_goals
      first
        | exact yields_none
        | exact yields_nil
        | exact yields_leaf (by simp [Kind.IsFunctionDeclaration]) _

lemma not_isFunctionDeclaration_comment : ¬Kind.comment.IsFunctionDeclaration := by decide

lemma arePlain_comments (src : Source) (fuel pos : ℕ) :
    ArePlain may (gapFrom src fuel pos).comments := by
  induction fuel generalizing pos with
  | zero => exact arePlain_nil
  | succ fuel ih =>
    rw [gapFrom]
    simp only
    split
    · exact arePlain_nil
    · rename_i next _
      have hfirst := isPlain_leaf .comment (spanEnd isSpaceChar src pos) next
      exact (arePlain_singleton hfirst not_isFunctionDeclaration_comment).append (ih next)

lemma yields_read (s : Setting) (pos : ℕ) (t : Terminal) : Yields may (t.read s pos) := by
  rw [Terminal.read]
  split
  · intro m hm
    obtain ⟨inside, hinside, rfl⟩ := Option.map_eq_some_iff.mp hm
    exact (arePlain_comments s.source _ pos).append (yields_matchAt s _ t inside hinside)
  · exact yields_matchAt s pos t

/-! ## Rules -/

lemma ArePlain.mono {other : Bool} (h : ArePlain may nodes) (hle : may = true → other = true) :
    ArePlain other nodes := fun n hn => ⟨(h n hn).1, fun hk => hle ((h n hn).2 hk)⟩

/-- A node that a rule may extend is plain and no function declaration. -/
def IsHarmless (left : Option Node) : Prop :=
  ∀ l ∈ left, l.IsPlain ∧ ¬l.kind.IsFunctionDeclaration

variable {left : Option Node}

lemma isHarmless_none : IsHarmless none := by simp [IsHarmless]

/-- What has been matched may be extended if it cannot be a function declaration. -/
lemma ArePlain.isHarmless (h : ArePlain false nodes) (hn : n ∈ nodes) : IsHarmless (some n) := by
  rintro _ ⟨⟩
  obtain ⟨hplain, hkind⟩ := h n hn
  exact ⟨hplain, fun hk => Bool.false_ne_true (hkind hk)⟩

lemma IsHarmless.arePlain {before : Node} (h : IsHarmless (some before)) : ArePlain may [before] :=
  arePlain_singleton (h before rfl).1 (h before rfl).2

lemma ArePlain.enclose (h : ArePlain may nodes) (k : Kind) (pos : ℕ) :
    ArePlain k.IsFunctionDeclaration (enclose k pos nodes) := by
  intro n hn
  rw [TypeScript.enclose, List.mem_append, List.mem_singleton] at hn
  rcases hn with hn | rfl
  · -- the comments before the node
    have hkind : n.kind = .comment := by simpa [Node.isComment] using List.mem_takeWhile_imp hn
    refine ⟨(h n ((List.takeWhile_sublist _).subset hn)).1, fun hk => ?_⟩
    exact absurd (hkind ▸ hk) not_isFunctionDeclaration_comment
  · have hinside : ∀ c ∈ nodes.dropWhile Node.isComment, c.IsPlain := fun c hc =>
      (h c ((List.dropWhile_sublist _).subset hc)).1
    exact ⟨.mk _ _ (by simp) hinside, fun hk => decide_eq_true hk⟩

lemma ArePlain.inPart (h : ArePlain may nodes) {f : Field} (hf : f = .body → may = false) :
    ArePlain may (inPart f nodes) := by
  intro n hn
  obtain ⟨m, hm, rfl⟩ := List.mem_map.mp hn
  obtain ⟨hplain, hkind⟩ := h m hm
  split
  · exact ⟨hplain, hkind⟩
  · refine ⟨hplain.withField fun hbody hk => ?_, by rwa [Node.kind_withField]⟩
    exact absurd (hkind hk) (by simp [hf hbody])

lemma ArePlain.encloseWith {before : Node} (hb : IsHarmless (some before))
    (h : ArePlain may nodes) (k : Kind) (f : Option Field) :
    ArePlain k.IsFunctionDeclaration [encloseWith k f before nodes] := by
  obtain ⟨hplain, hkind⟩ := hb before rfl
  intro n hn
  obtain rfl := List.mem_singleton.mp hn
  have hnodes : ∀ c ∈ nodes, c.IsPlain := fun c hc => (h c hc).1
  refine ⟨?_, fun hk => decide_eq_true hk⟩
  unfold TypeScript.encloseWith
  cases f with
  | none => exact .mk _ _ (by simp) (List.forall_mem_cons.mpr ⟨hplain, hnodes⟩)
  | some f =>
    have hfirst := hplain.withField fun (_ : f = .body) => hkind
    exact .mk _ _ (by simp) (List.forall_mem_cons.mpr ⟨hfirst, hnodes⟩)

variable {N : Type} {s : Setting} {rules : N → Rule N} {named : N → Bool}

/-- **What a rule derives** is plain, if no rule makes a body of what may be a function
declaration. -/
lemma Rule.Derives.arePlain {rule : Rule N} (h : rule.Derives s rules left pos nodes stop)
    (hrules : ∀ name, (rules name).keepsBodies named = true ∧
      ((rules name).mayDeclare named = true → named name = true))
    (hrule : rule.keepsBodies named = true) (hl : IsHarmless left) :
    ArePlain (rule.mayDeclare named) nodes := by
  induction h with
  | nothing | manyNone | ahead | absent => exact arePlain_nil
  | @lex _ t pos _ _ hread => exact yields_read s pos t _ hread
  | seq _ _ ihfirst ihsecond =>
    obtain ⟨ha, hb⟩ := Bool.and_eq_true_iff.mp hrule
    exact ((ihfirst ha hl).mono Bool.or_inl).append ((ihsecond hb hl).mono Bool.or_inr)
  | altFirst _ ih => exact (ih (Bool.and_eq_true_iff.mp hrule).1 hl).mono Bool.or_inl
  | altSecond _ ih => exact (ih (Bool.and_eq_true_iff.mp hrule).2 hl).mono Bool.or_inr
  | manyOnce _ ih => exact ih hrule hl
  | manyMore _ _ ihonce ihmore => exact (ihonce hrule hl).append (ihmore hrule hl)
  | @node _ k _ pos _ _ _ ih => exact (ih hrule isHarmless_none).enclose k pos
  | part _ ih =>
    obtain ⟨ha, hf⟩ := Bool.and_eq_true_iff.mp hrule
    exact (ih ha hl).inPart (by simpa [imp_iff_not_or] using hf)
  | @ref _ name _ _ _ _ ih =>
    obtain ⟨hkeeps, hnamed⟩ := hrules name
    exact (ih hkeeps isHarmless_none).mono hnamed
  | chainPlain _ ih =>
    simp only [Rule.keepsBodies, Bool.and_eq_true] at hrule
    exact (ih hrule.1.1.1 isHarmless_none).mono Bool.or_inl
  | @chainMore _ a step _ _ _ nodes _ _ _ hlast _ ihfirst ihmore =>
    simp only [Rule.keepsBodies, Bool.and_eq_true, Bool.not_eq_true'] at hrule
    obtain ⟨⟨⟨ha, hstep⟩, hnone⟩, hnever⟩ := hrule
    have hkeeps : (Rule.extend step).keepsBodies named = true := by
      simp [Rule.keepsBodies, hstep, hnever]
    have hfirst := ihfirst ha isHarmless_none
    rw [hnone] at hfirst
    have hextended := ihmore hkeeps (hfirst.isHarmless (List.mem_of_getLast? hlast))
    have hfront : ArePlain (a.mayDeclare named) nodes.dropLast := by
      intro n hn
      rw [hnone]
      exact hfirst n ((List.dropLast_sublist nodes).subset hn)
    exact (hfront.mono Bool.or_inl).append (hextended.mono Bool.or_inr)
  | extendNone => exact hl.arePlain
  | extendMore _ _ ihonce ihmore =>
    obtain ⟨hstep, hnever⟩ := Bool.and_eq_true_iff.mp hrule
    rw [Bool.not_eq_true'] at hnever
    have hafter := ihonce hstep hl
    rw [hnever] at hafter
    exact ihmore hrule (hafter.isHarmless (List.mem_singleton_self _))
  | @wrap _ k f _ _ _ _ _ ih => exact (ih hrule isHarmless_none).encloseWith hl k f

/-! ## Sources -/

/-- The names of the rules that match function declarations. -/
def Construct.mayDeclare : Construct → Bool
  | .statement | .declaration => true
  | _ => false

lemma rules_keepBodies (name : Construct) :
    (Grammar.rules name).keepsBodies Construct.mayDeclare = true ∧
      ((Grammar.rules name).mayDeclare Construct.mayDeclare = true →
        name.mayDeclare = true) := by
  cases name <;> decide

/-- **The parse tree of every source** has plain bodies. -/
theorem parse_hasPlainBodies (markup : Bool) (src : Source) :
    (parse markup src).HasPlainBodies := by
  refine Node.IsPlain.hasPlainBodies ?_
  rw [parse]
  split
  · rename_i nodes stop h
    have hnodes := (Rule.derives_of_parse h).arePlain rules_keepBodies rfl isHarmless_none
    exact .mk _ _ (by simp) fun c hc => (hnodes c hc).1
  · exact isPlain_leaf _ _ _

end CoverageEstimate.TypeScript

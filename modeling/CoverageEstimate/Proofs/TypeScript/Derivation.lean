/-
# Derivations

What a rule matches has been put together from what the rules inside it match.  The relation
`Rule.Derives` says how, without the fuel of the parse and without the order in which rules are
tried, so that a property of everything a parse can find is an induction on derivations, with one
case for each way of putting rules together.
-/
import CoverageEstimate.TypeScript.Rule
import Mathlib.Data.Nat.Notation
import Mathlib.Tactic.Lemma

namespace CoverageEstimate.TypeScript

variable {N : Type}

/-- A rule derives the nodes from one offset up to another, where it may extend the node before.
A parse derives what it finds (`derives_of_parse`), but not all that is derived is found: which of
two rules is tried first, and how often a rule is repeated, is left open. -/
inductive Rule.Derives (s : Setting) (rules : N → Rule N) :
    Option Node → Rule N → ℕ → List Node → ℕ → Prop
  | nothing {left : Option Node} (pos : ℕ) : Derives s rules left .nothing pos [] pos
  | lex {left : Option Node} {t : Terminal} {pos stop : ℕ} {nodes : List Node}
      (read : t.read s pos = some (nodes, stop)) : Derives s rules left (.lex t) pos nodes stop
  | seq {left : Option Node} {a b : Rule N} {pos middle stop : ℕ} {front back : List Node}
      (first : Derives s rules left a pos front middle)
      (second : Derives s rules left b middle back stop) :
      Derives s rules left (.seq a b) pos (front ++ back) stop
  | altFirst {left : Option Node} {a b : Rule N} {pos stop : ℕ} {nodes : List Node}
      (first : Derives s rules left a pos nodes stop) :
      Derives s rules left (.alt a b) pos nodes stop
  | altSecond {left : Option Node} {a b : Rule N} {pos stop : ℕ} {nodes : List Node}
      (second : Derives s rules left b pos nodes stop) :
      Derives s rules left (.alt a b) pos nodes stop
  | manyNone {left : Option Node} {a : Rule N} (pos : ℕ) : Derives s rules left (.many a) pos [] pos
  | manyOnce {left : Option Node} {a : Rule N} {pos stop : ℕ} {nodes : List Node}
      (once : Derives s rules left a pos nodes stop) : Derives s rules left (.many a) pos nodes stop
  | manyMore {left : Option Node} {a : Rule N} {pos middle stop : ℕ} {front back : List Node}
      (once : Derives s rules left a pos front middle)
      (more : Derives s rules left (.many a) middle back stop) :
      Derives s rules left (.many a) pos (front ++ back) stop
  | node {left : Option Node} {k : Kind} {a : Rule N} {pos stop : ℕ} {nodes : List Node}
      (inside : Derives s rules none a pos nodes stop) :
      Derives s rules left (.node k a) pos (enclose k pos nodes) stop
  | part {left : Option Node} {f : Field} {a : Rule N} {pos stop : ℕ} {nodes : List Node}
      (inside : Derives s rules left a pos nodes stop) :
      Derives s rules left (.part f a) pos (inPart f nodes) stop
  | ref {left : Option Node} {n : N} {pos stop : ℕ} {nodes : List Node}
      (inside : Derives s rules none (rules n) pos nodes stop) :
      Derives s rules left (.ref n) pos nodes stop
  | ahead {left : Option Node} {a : Rule N} (pos : ℕ) : Derives s rules left (.ahead a) pos [] pos
  | absent {left : Option Node} {a : Rule N} (pos : ℕ) : Derives s rules left (.absent a) pos [] pos
  | chainPlain {left : Option Node} {a step : Rule N} {pos stop : ℕ} {nodes : List Node}
      (first : Derives s rules none a pos nodes stop) :
      Derives s rules left (.chain a step) pos nodes stop
  | chainMore {left : Option Node} {a step : Rule N} {pos middle stop : ℕ} {nodes : List Node}
      {last extended : Node} (first : Derives s rules none a pos nodes middle)
      (atLast : nodes.getLast? = some last)
      (more : Derives s rules (some last) (.extend step) middle [extended] stop) :
      Derives s rules left (.chain a step) pos (nodes.dropLast ++ [extended]) stop
  | extendNone {before : Node} {step : Rule N} (pos : ℕ) :
      Derives s rules (some before) (.extend step) pos [before] pos
  | extendMore {before after extended : Node} {step : Rule N} {pos middle stop : ℕ}
      (once : Derives s rules (some before) step pos [after] middle)
      (more : Derives s rules (some after) (.extend step) middle [extended] stop) :
      Derives s rules (some before) (.extend step) pos [extended] stop
  | wrap {before : Node} {k : Kind} {f : Option Field} {a : Rule N} {pos stop : ℕ}
      {nodes : List Node} (inside : Derives s rules none a pos nodes stop) :
      Derives s rules (some before) (.wrap k f a) pos [encloseWith k f before nodes] stop

namespace Rule

variable {s : Setting} {rules : N → Rule N} {left : Option Node} {pos stop : ℕ} {nodes : List Node}

/-- What takes the place of an extended node is a single node. -/
lemma Derives.eq_singleton {step : Rule N} (h : Derives s rules left (.extend step) pos nodes stop) :
    ∃ n, nodes = [n] := by
  cases h with
  | extendNone pos => exact ⟨_, rfl⟩
  | extendMore once more => exact ⟨_, rfl⟩

/-- **A parse** derives what it finds. -/
theorem derives_of_parse {fuel : ℕ} {rule : Rule N}
    (h : parse s rules fuel left rule pos = some (nodes, stop)) :
    Derives s rules left rule pos nodes stop := by
  -- the rules inside a rule are tried with less fuel, and some of them without the node before
  induction fuel generalizing left rule pos nodes stop with
  | zero => simp [parse] at h
  | succ fuel ih =>
    cases rule with
    | nothing =>
      obtain ⟨rfl, rfl⟩ := Prod.mk.inj (Option.some.inj h)
      exact .nothing pos
    | lex t => exact .lex h
    | seq a b =>
      simp only [parse] at h
      split at h
      · simp at h
      · rename_i front middle ha
        split at h
        · simp at h
        · rename_i back last hb
          obtain ⟨rfl, rfl⟩ := Prod.mk.inj (Option.some.inj h)
          exact .seq (ih ha) (ih hb)
    | alt a b =>
      simp only [parse] at h
      split at h
      · exact .altSecond (ih h)
      · rename_i r ha
        obtain rfl := Option.some.inj h
        exact .altFirst (ih ha)
    | many a =>
      simp only [parse] at h
      split at h
      · obtain ⟨rfl, rfl⟩ := Prod.mk.inj (Option.some.inj h)
        exact .manyNone pos
      · rename_i front middle ha
        split at h
        · -- a match that does not advance counts for nothing
          obtain ⟨rfl, rfl⟩ := Prod.mk.inj (Option.some.inj h)
          exact .manyNone pos
        · split at h
          · obtain ⟨rfl, rfl⟩ := Prod.mk.inj (Option.some.inj h)
            exact .manyOnce (ih ha)
          · rename_i back last hmore
            obtain ⟨rfl, rfl⟩ := Prod.mk.inj (Option.some.inj h)
            exact .manyMore (ih ha) (ih hmore)
    | node k a =>
      obtain ⟨⟨inside, last⟩, ha, hr⟩ := Option.map_eq_some_iff.mp h
      obtain ⟨rfl, rfl⟩ := Prod.mk.inj hr
      exact .node (ih ha)
    | part f a =>
      obtain ⟨⟨inside, last⟩, ha, hr⟩ := Option.map_eq_some_iff.mp h
      obtain ⟨rfl, rfl⟩ := Prod.mk.inj hr
      exact .part (ih ha)
    | ref n => exact .ref (ih h)
    | ahead a =>
      obtain ⟨_, -, hr⟩ := Option.map_eq_some_iff.mp h
      obtain ⟨rfl, rfl⟩ := Prod.mk.inj hr
      exact .ahead pos
    | absent a =>
      simp only [parse] at h
      split at h
      · obtain ⟨rfl, rfl⟩ := Prod.mk.inj (Option.some.inj h)
        exact .absent pos
      · simp at h
    | chain a step =>
      simp only [parse] at h
      split at h
      · simp at h
      · rename_i first middle ha
        split at h
        · obtain ⟨rfl, rfl⟩ := Prod.mk.inj (Option.some.inj h)
          exact .chainPlain (ih ha)
        · rename_i last hlast
          split at h
          · obtain ⟨rfl, rfl⟩ := Prod.mk.inj (Option.some.inj h)
            exact .chainPlain (ih ha)
          · rename_i extended _ hmore
            obtain ⟨rfl, rfl⟩ := Prod.mk.inj (Option.some.inj h)
            have hmore := ih hmore
            obtain ⟨n, rfl⟩ := hmore.eq_singleton
            exact .chainMore (ih ha) hlast hmore
    | extend step =>
      cases left with
      | none => simp [parse] at h
      | some before =>
        simp only [parse] at h
        split at h
        · obtain ⟨rfl, rfl⟩ := Prod.mk.inj (Option.some.inj h)
          exact .extendNone pos
        · rename_i extended middle hstep
          split at h
          · have hmore := ih h
            obtain ⟨n, rfl⟩ := hmore.eq_singleton
            exact .extendMore (ih hstep) hmore
          · obtain ⟨rfl, rfl⟩ := Prod.mk.inj (Option.some.inj h)
            exact .extendNone pos
    | wrap k f a =>
      cases left with
      | none => simp [parse] at h
      | some before =>
        obtain ⟨⟨inside, last⟩, ha, hr⟩ := Option.map_eq_some_iff.mp h
        obtain ⟨rfl, rfl⟩ := Prod.mk.inj hr
        exact .wrap (ih ha)

end Rule

end CoverageEstimate.TypeScript

/-
# Parse trees are nested

The parse tree of every source is nested.  This does not depend on the grammar: each way of putting
rules together keeps the nodes in order, and so does each lexeme.

The ways that extend a node are the ones to watch, since what they give back stands where the node
stood.  So a rule is looked at together with the node that it may extend (`Matches`): without such
a node, what it matches is in order behind the offset; with one, all that is known is that nothing
starts before that node does.  That is enough, because what takes the place of a node is a single
node again.
-/
import CoverageEstimate.Proofs.TypeScript.Derivation
import CoverageEstimate.Proofs.TypeScript.Nesting
import CoverageEstimate.Proofs.TypeScript.Offsets
import CoverageEstimate.TypeScript.Grammar

namespace CoverageEstimate.TypeScript

variable {src : Source} {lo hi pos stop : ℕ} {nodes : List Node}

/-! ## Lexemes -/

lemma stringParts?_fitBetween {quote : Char} {fuel : ℕ} {parts : List Node}
    (h : stringParts? src quote fuel pos = some (parts, stop)) : FitBetween pos parts stop := by
  induction fuel generalizing pos parts with
  | zero => simp [stringParts?] at h
  | succ fuel ih =>
    rw [stringParts?] at h
    split at h
    · simp at h
    · rename_i c hc
      split_ifs at h
      · obtain ⟨rfl, rfl⟩ := Prod.mk.inj (Option.some.inj h)
        exact fitBetween_nil (Nat.le_refl pos)
      · -- an escape
        simp only at h
        split at h
        · simp at h
        · rename_i kind next hnext
          obtain ⟨back, hback, hr⟩ := Option.map_eq_some_iff.mp h
          obtain ⟨rfl, rfl⟩ := Prod.mk.inj hr
          obtain ⟨_, hescape, hpair⟩ := Option.map_eq_some_iff.mp hnext
          obtain ⟨rfl, rfl⟩ := Prod.mk.inj hpair
          exact .cons (isNested_leaf (le_escapeEnd? hescape)) (Nat.le_refl pos) (ih hback)
      · -- characters that stand for themselves
        simp only at h
        obtain ⟨back, hback, hr⟩ := Option.map_eq_some_iff.mp h
        obtain ⟨rfl, rfl⟩ := Prod.mk.inj hr
        exact .cons (isNested_leaf (le_spanEnd _ src pos)) (Nat.le_refl pos) (ih hback)

/-- A string is nested, and it starts where it is asked for. -/
lemma stringAt?_isNested {n : Node} (h : stringAt? src pos = some n) :
    n.IsNested ∧ n.start = pos := by
  rw [stringAt?] at h
  split at h
  · simp at h
  · split at h
    · rename_i quote hquote hq
      obtain ⟨⟨parts, close⟩, hparts, rfl⟩ := Option.map_eq_some_iff.mp h
      have hmiddle := stringParts?_fitBetween hparts
      let mark : Kind := .token (String.singleton quote)
      have hopening := fitBetween_leaf (k := mark) (Nat.le_succ pos)
      have hclosing := fitBetween_leaf (k := mark) (Nat.le_succ close)
      exact ⟨((hopening.append hmiddle).append hclosing).isNested _ _, rfl⟩
    · simp at h

lemma stringAt?_fitBetween {n : Node} (h : stringAt? src pos = some n) :
    FitBetween pos [n] n.stop := by
  obtain ⟨hn, hstart⟩ := stringAt?_isNested h
  exact .cons hn (Nat.le_of_eq hstart.symm) (fitBetween_nil (Nat.le_refl _))

lemma le_bracketsEnd? {fuel : ℕ} {pending : List Char}
    (h : bracketsEnd? src fuel pending pos = some stop) : pos ≤ stop := by
  induction fuel generalizing pending pos with
  | zero => simp [bracketsEnd?] at h
  | succ fuel ih =>
    cases pending with
    | nil =>
      obtain rfl := Option.some.inj h
      exact Nat.le_refl pos
    | cons wanted around =>
      rw [bracketsEnd?] at h
      split at h
      · simp at h
      · split at h
        · -- in a template
          split_ifs at h <;> (have hrest := ih h; omega)
        · split at h
          · have hrest := ih h
            omega
          · split at h
            · have hrest := ih h
              omega
            · split at h
              · have hrest := ih h
                omega
              · rename_i s hs
                have hstring := (stringAt?_fitBetween hs).ordered.le
                have hrest := ih h
                omega
              · rename_i next hs hcomment
                have hle := le_commentEnd? hcomment
                have hrest := ih h
                omega
              · split at h
                · simp at h
                · have hrest := ih h
                  omega

lemma le_bracketedEnd? {opener : Char} (h : bracketedEnd? src opener pos = some stop) :
    pos ≤ stop := by
  rw [bracketedEnd?] at h
  split at h
  · have hrest := le_bracketsEnd? h
    omega
  · simp at h

/-- The comments of a gap are in order between its ends. -/
lemma gapFrom_fitBetween (src : Source) (fuel pos : ℕ) :
    FitBetween pos (gapFrom src fuel pos).comments (gapFrom src fuel pos).stop := by
  induction fuel generalizing pos with
  | zero => exact fitBetween_nil (Nat.le_refl pos)
  | succ fuel ih =>
    rw [gapFrom]
    have hspace := le_spanEnd isSpaceChar src pos
    simp only
    split
    · exact fitBetween_nil hspace
    · rename_i next hnext
      exact .cons (isNested_leaf (le_commentEnd? hnext)) hspace (ih next)

/-- What has been matched from an offset on fits between that and the offset behind it. -/
def Fitting (pos : ℕ) (r : Parsed) : Prop := ∀ m ∈ r, FitBetween pos m.1 m.2

lemma fitting_none : Fitting pos none := by simp [Fitting]

lemma fitting_some (h : FitBetween pos nodes stop) : Fitting pos (some (nodes, stop)) := by
  rintro _ ⟨⟩
  exact h

lemma fitting_leaf {k : Kind} (h : pos ≤ stop) : Fitting pos (some ([leaf k pos stop], stop)) :=
  fitting_some (fitBetween_leaf h)

/-- A lexeme that stops behind its start fits, if there is one. -/
lemma fitting_end {k : Kind} {found : Option ℕ} :
    (∀ stop, found = some stop → pos ≤ stop) →
      Fitting pos (match found with
        | some stop => some ([leaf k pos stop], stop)
        | none => none) := by
  intro h
  cases found with
  | none => exact fitting_none
  | some stop => exact fitting_leaf (h stop rfl)

lemma fitting_if {b : Bool} {r : Parsed} (h : Fitting pos r) :
    Fitting pos (if b then r else none) := by
  split
  · exact h
  · exact fitting_none

/-- A condition matches nothing, if it matches. -/
lemma fitting_check (b : Bool) : Fitting pos (if b then some ([], pos) else none) :=
  fitting_if (fitting_some (fitBetween_nil (Nat.le_refl pos)))

lemma Terminal.matchAt_fitting (s : Setting) (pos : ℕ) (t : Terminal) :
    Fitting pos (t.matchAt s pos) := by
  cases t with
  | word w =>
    rw [matchAt]
    split
    · rename_i stop hstop
      exact fitting_if (fitting_leaf (le_wordEnd? hstop))
    · exact fitting_none
  | mark m =>
    rw [matchAt]
    split
    · exact fitting_if (fitting_leaf (Nat.le_add_right pos _))
    · exact fitting_none
  | closingAngle | templateEnd =>
    rw [matchAt]
    exact fitting_if (fitting_leaf (Nat.le_add_right pos 1))
  | substitutionStart =>
    rw [matchAt]
    exact fitting_if (fitting_leaf (Nat.le_add_right pos 2))
  | identifier =>
    rw [matchAt]
    split
    · rename_i stop hstop
      split
      · exact fitting_none
      · exact fitting_leaf (le_wordEnd? hstop)
    · exact fitting_none
  | anyName =>
    rw [matchAt]
    exact fitting_end fun _ h => le_wordEnd? h
  | privateName =>
    rw [matchAt]
    exact fitting_if (fitting_end fun _ h => Nat.le_of_succ_le (le_wordEnd? h))
  | number =>
    rw [matchAt]
    exact fitting_end fun _ h => le_numberEnd? h
  | string =>
    rw [matchAt]
    intro r hr
    obtain ⟨n, hn, rfl⟩ := Option.map_eq_some_iff.mp hr
    exact stringAt?_fitBetween hn
  | regex =>
    rw [matchAt]
    exact fitting_end fun _ h => le_regexEnd? h
  | bracketed opener =>
    rw [matchAt]
    exact fitting_end fun _ h => le_bracketedEnd? h
  | templateChars | markupText =>
    rw [matchAt]
    simp only
    split
    · rename_i h
      exact fitting_leaf (Nat.le_of_lt h)
    · exact fitting_none
  | markupName =>
    rw [matchAt]
    exact fitting_if (fitting_leaf (le_spanEnd _ _ pos))
  | markupString =>
    rw [matchAt]
    split
    · rename_i quote hquote
      refine fitting_if ?_
      simp only
      split
      · have hspan := le_spanEnd (· != quote) s.source (pos + 1)
        exact fitting_leaf (Nat.le_succ_of_le (Nat.le_of_succ_le hspan))
      · exact fitting_none
    · exact fitting_none
  | interpreterLine =>
    rw [matchAt]
    split
    · -- the line is looked for at the start of the source only
      rename_i h
      have hpos : pos = 0 := by simp at h; exact h.1
      rw [hpos]
      exact fitting_some (fitBetween_nil (Nat.zero_le _))
    · exact fitting_none
  | faulty closingBrace =>
    rw [matchAt]
    split
    · exact fitting_none
    · split
      · exact fitting_none
      · split
        · rename_i stop _ _ _ hstop
          exact fitting_some (fitBetween_nil (le_wordEnd? hstop))
        · rename_i n _ _ _ hn
          exact fitting_some (fitBetween_nil (stringAt?_fitBetween hn).ordered.le)
        · rename_i stop _ _ _ hstop
          exact fitting_some (fitBetween_nil (le_numberEnd? hstop))
        · exact fitting_some (fitBetween_nil (Nat.le_add_right pos _))
        · exact fitting_some (fitBetween_nil (Nat.le_add_right pos 1))
  | missingName =>
    rw [matchAt]
    exact fitting_leaf (Nat.le_refl pos)
  | sameLine | impliedSemicolon | endOfSource | markupAllowed | markupForbidden =>
    rw [matchAt]
    exact fitting_check _

lemma Terminal.read_fitting (s : Setting) (pos : ℕ) (t : Terminal) :
    Fitting pos (t.read s pos) := by
  rw [read]
  split
  · intro r hr
    obtain ⟨m, hm, rfl⟩ := Option.map_eq_some_iff.mp hr
    exact (gapFrom_fitBetween s.source _ pos).append (t.matchAt_fitting s _ m hm)
  · exact t.matchAt_fitting s pos

/-! ## Rules -/

/-- What a rule may match at an offset: nodes that fit between that and the offset behind them, or,
if there is a node for it to extend, nodes that start no earlier than that node. -/
structure Matches (left : Option Node) (pos : ℕ) (nodes : List Node) (stop : ℕ) : Prop where
  le : pos ≤ stop
  nested : ∀ n ∈ nodes, n.IsNested
  stops : ∀ n ∈ nodes, n.stop ≤ stop
  starts : ∀ l ∈ left, ∀ n ∈ nodes, l.start ≤ n.start
  ordered : left = none → InOrder pos nodes stop

/-- What has been matched from an offset on is what a rule may match there. -/
def Matching (left : Option Node) (pos : ℕ) (r : Parsed) : Prop :=
  ∀ m ∈ r, Matches left pos m.1 m.2

/-- The node that a rule may extend at an offset is nested and stands before it. -/
def CanExtend (left : Option Node) (pos : ℕ) : Prop := ∀ l ∈ left, l.IsNested ∧ l.stop ≤ pos

variable {left : Option Node}

lemma canExtend_none (pos : ℕ) : CanExtend none pos := by simp [CanExtend]

lemma CanExtend.of_le (h : CanExtend left lo) (hle : lo ≤ hi) : CanExtend left hi :=
  fun l hl => ⟨(h l hl).1, Nat.le_trans (h l hl).2 hle⟩

/-- Each node that has been matched may be extended behind the match. -/
lemma Matches.canExtend (h : Matches left pos nodes stop) {n : Node} (hn : n ∈ nodes) :
    CanExtend (some n) stop := by
  rintro _ ⟨⟩
  exact ⟨h.nested n hn, h.stops n hn⟩

lemma Matches.fitBetween (h : Matches none pos nodes stop) : FitBetween pos nodes stop :=
  ⟨h.ordered rfl, h.nested⟩

/-- A rule may match what fits behind the node that it does not extend. -/
lemma FitBetween.matches (h : FitBetween pos nodes stop) (hl : CanExtend left pos) :
    Matches left pos nodes stop where
  le := h.ordered.le
  nested := h.nested
  stops n hn := (h.ordered.of_mem hn).2.2
  starts l hmem n hn := by
    obtain ⟨hnested, hle⟩ := hl l hmem
    have hleft := hnested.start_le_stop
    have hstart := (h.ordered.of_mem hn).1
    omega
  ordered _ := h.ordered

/-- A rule may match nothing. -/
lemma CanExtend.matches_nil (hl : CanExtend left pos) : Matches left pos [] pos :=
  (fitBetween_nil (Nat.le_refl pos)).matches hl

lemma Matches.append {front back : List Node} {middle : ℕ} (hf : Matches left pos front middle)
    (hb : Matches left middle back stop) : Matches left pos (front ++ back) stop where
  le := Nat.le_trans hf.le hb.le
  nested n hn := (List.mem_append.mp hn).elim (hf.nested n) (hb.nested n)
  stops n hn := by
    rcases List.mem_append.mp hn with hn | hn
    · exact Nat.le_trans (hf.stops n hn) hb.le
    · exact hb.stops n hn
  starts l hl n hn := (List.mem_append.mp hn).elim (hf.starts l hl n) (hb.starts l hl n)
  ordered h := inOrder_append_iff.mpr ⟨middle, hf.ordered h, hb.ordered h⟩

lemma Matches.inPart (h : Matches left pos nodes stop) (f : Field) :
    Matches left pos (inPart f nodes) stop := by
  rw [TypeScript.inPart]
  have hstart : ∀ n : Node, (if n.isComment then n else n.withField f).start = n.start := by
    intro n
    split <;> simp
  have hstop : ∀ n : Node, (if n.isComment then n else n.withField f).stop = n.stop := by
    intro n
    split <;> simp
  refine ⟨h.le, ?_, ?_, ?_, fun hnone => (inOrder_map_iff hstart hstop).mpr (h.ordered hnone)⟩
  · intro n hn
    obtain ⟨m, hm, rfl⟩ := List.mem_map.mp hn
    split
    · exact h.nested m hm
    · exact (h.nested m hm).withField f
  · intro n hn
    obtain ⟨m, hm, rfl⟩ := List.mem_map.mp hn
    rw [hstop]
    exact h.stops m hm
  · intro l hl n hn
    obtain ⟨m, hm, rfl⟩ := List.mem_map.mp hn
    rw [hstart]
    exact h.starts l hl m hm

/-! ## Extended nodes -/

/-- What extends an extended node extends the node before it. -/
lemma Matches.trans {before after : Node} {middle : ℕ}
    (hb : Matches (some before) pos [after] middle)
    (ha : Matches (some after) middle nodes stop) : Matches (some before) pos nodes stop where
  le := Nat.le_trans hb.le ha.le
  nested := ha.nested
  stops := ha.stops
  starts l hl n hn := by
    have hfirst := hb.starts l hl after (List.mem_singleton_self after)
    exact Nat.le_trans hfirst (ha.starts after rfl n hn)
  ordered h := by simp at h

/-- A node that may be extended may also stay as it is. -/
lemma matches_self {before : Node} (h : CanExtend (some before) pos) :
    Matches (some before) pos [before] pos := by
  obtain ⟨hnested, hle⟩ := h before rfl
  refine ⟨Nat.le_refl pos, by simpa using hnested, by simpa using hle, ?_, by simp⟩
  rintro _ ⟨⟩ n hn
  exact Nat.le_of_eq (congrArg Node.start (List.mem_singleton.mp hn).symm)

/-- A node and what fits behind it make up a node in its place. -/
lemma matches_encloseWith {before : Node} (hb : CanExtend (some before) pos)
    (h : FitBetween pos nodes stop) (k : Kind) (f : Option Field) :
    Matches (some before) pos [encloseWith k f before nodes] stop := by
  obtain ⟨hnested, hle⟩ := hb before rfl
  have hwhole := isNested_encloseWith hnested hle h k f
  have hstop : (encloseWith k f before nodes).stop ≤ stop := (h.ordered.of_le hle).lastStop.2
  refine ⟨h.ordered.le, by simpa using hwhole, by simpa using hstop, ?_, by simp⟩
  rintro _ ⟨⟩ n hn
  rw [List.mem_singleton.mp hn]
  exact Nat.le_refl _

/-- An extended node fits where the node stood. -/
lemma FitBetween.replaceLast {last n : Node} {middle : ℕ} (h : FitBetween pos nodes middle)
    (hlast : nodes.getLast? = some last) (hn : Matches (some last) middle [n] stop) :
    FitBetween pos (nodes.dropLast ++ [n]) stop := by
  obtain ⟨front, rfl⟩ := List.getLast?_eq_some_iff.mp hlast
  obtain ⟨between, hfront, hback⟩ := inOrder_append_iff.mp h.ordered
  have hmem := List.mem_singleton_self n
  have hstart := hn.starts last rfl n hmem
  rw [List.dropLast_concat]
  refine .append ⟨hfront, fun m hm => h.nested m (List.mem_append_left _ hm)⟩ ?_
  exact .cons (hn.nested n hmem) (Nat.le_trans hback.1 hstart) (fitBetween_nil (hn.stops n hmem))

variable {N : Type} {s : Setting} {rules : N → Rule N}

/-- **What a rule derives** is nested and in order, and where the rule extends a node, the nodes
start no earlier than that one. -/
lemma Rule.Derives.matches {rule : Rule N} (h : rule.Derives s rules left pos nodes stop)
    (hl : CanExtend left pos) : Matches left pos nodes stop := by
  induction h with
  | nothing | manyNone | ahead | absent => exact hl.matches_nil
  | @lex _ t pos stop nodes hread => exact (t.read_fitting s pos _ hread).matches hl
  | seq _ _ ihfirst ihsecond =>
    have hfront := ihfirst hl
    exact hfront.append (ihsecond (hl.of_le hfront.le))
  | altFirst _ ih | altSecond _ ih | manyOnce _ ih => exact ih hl
  | manyMore _ _ ihonce ihmore =>
    have hfront := ihonce hl
    exact hfront.append (ihmore (hl.of_le hfront.le))
  | @node _ k _ pos _ _ _ ih => exact ((ih (canExtend_none pos)).fitBetween.enclose k).matches hl
  | @part _ f _ _ _ _ _ ih => exact (ih hl).inPart f
  | ref _ ih | chainPlain _ ih => exact (ih (canExtend_none _)).fitBetween.matches hl
  | chainMore _ hlast _ ihfirst ihmore =>
    -- the last node of the first rule gives way to a single one
    have hfirst := ihfirst (canExtend_none _)
    have hextended := ihmore (hfirst.canExtend (List.mem_of_getLast? hlast))
    exact (hfirst.fitBetween.replaceLast hlast hextended).matches hl
  | extendNone => exact matches_self hl
  | extendMore _ _ ihonce ihmore =>
    have hafter := ihonce hl
    exact hafter.trans (ihmore (hafter.canExtend (List.mem_singleton_self _)))
  | @wrap _ k f _ pos _ _ _ ih =>
    exact matches_encloseWith hl (ih (canExtend_none pos)).fitBetween k f

/-- What a rule matches is what it derives. -/
lemma parse_matching (fuel : ℕ) (rule : Rule N) (hl : CanExtend left pos) :
    Matching left pos (Rule.parse s rules fuel left rule pos) :=
  fun _ hm => (Rule.derives_of_parse hm).matches hl

/-! ## Sources -/

/-- Nothing stands behind the end of a source. -/
lemma eq_size_of_endOfSource
    (h : Rule.Derives s rules left (.lex .endOfSource) pos nodes stop) : stop = s.source.size := by
  cases h with
  | lex hread =>
    obtain ⟨⟨comments, last⟩, hm, hr⟩ := Option.map_eq_some_iff.mp hread
    obtain ⟨-, rfl⟩ := Prod.mk.inj hr
    simp only [Terminal.matchAt] at hm
    split at hm
    · rename_i hend
      obtain ⟨-, rfl⟩ := Prod.mk.inj (Option.some.inj hm)
      simpa using hend
    · simp at hm

/-- A parse of a whole source reaches its end. -/
lemma eq_size_of_program (h : Rule.Derives s Grammar.rules none (.ref .program) pos nodes stop) :
    stop = s.source.size := by
  cases h with
  | ref hprogram =>
    simp only [Grammar.rules, Grammar.program, Grammar.other, Grammar.all] at hprogram
    cases hprogram with
    | node hinside =>
      -- the first line of a script, the statements, and the end of the source
      cases hinside with
      | seq _ hrest =>
        cases hrest with
        | seq _ hend => exact eq_size_of_endOfSource hend

/-- **The parse tree of every source** is nested. -/
theorem parse_isNested (markup : Bool) (src : Source) : (parse markup src).IsNested := by
  rw [parse]
  split
  · rename_i nodes stop h
    have hfits := (parse_matching _ _ (canExtend_none 0) _ h).fitBetween
    rw [eq_size_of_program (Rule.derives_of_parse h)] at hfits
    exact hfits.isNested .other none
  · exact isNested_leaf (Nat.zero_le _)

end CoverageEstimate.TypeScript

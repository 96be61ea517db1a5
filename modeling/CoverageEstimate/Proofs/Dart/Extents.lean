/-
# Where the functions of a Dart source start and end

The reading of a source goes from line to line with a state.  This file says without any state
which functions it finds.  A function starts on a header line, and it ends on that line if an arrow
body ends there, and otherwise on the first line up to which the braces opened since the header
are balanced and which has a closing brace or a semicolon.  The search for the next header goes on
behind the last line of a function, and it is over at a header whose function does not end.

The invariant that ties the two together is `Reading.Tracks`: in a body, the depth is the sum of
the balances since the header, and no line so far could have been the last one.
-/
import CoverageEstimate.Dart.Functions
import Mathlib.Algebra.BigOperators.Intervals
import Mathlib.Order.Bounds.Basic

namespace CoverageEstimate.Dart

open Text

/-! ## Lines and their braces -/

/-- Line `k` of some lines, counted from 1; behind the last line there are only empty ones. -/
def lineAt (ls : List (List Char)) (k : ℕ) : List Char := ls.getD (k - 1) []

/-- The opening braces of line `k` less its closing ones. -/
def balanceAt (ls : List (List Char)) (k : ℕ) : ℤ :=
  (lineAt ls k).count '\x7b' - (lineAt ls k).count '\x7d'

/-- A function that starts on line `i` can end on line `e`: all braces opened on the lines from `i`
to `e` are closed there, and line `e` has a closing brace or a semicolon. -/
def CanEnd (ls : List (List Char)) (i e : ℕ) : Prop :=
  i ≤ e ∧ ∑ k ∈ Finset.Icc i e, balanceAt ls k = 0 ∧ ('\x7d' ∈ lineAt ls e ∨ ';' ∈ lineAt ls e)

/-- The line holds an arrow, and a semicolon is the last of its characters that are not blank. -/
def IsArrowLine (line : List Char) : Prop :=
  ['=', '>'] <:+: line ∧ (trim line).getLast? = some ';'

/-- The function with the header line `i` ends on line `e`. -/
def EndsOn (ls : List (List Char)) (i e : ℕ) : Prop :=
  (IsArrowLine (lineAt ls i) ∧ e = i) ∨
    (¬IsArrowLine (lineAt ls i) ∧ IsLeast {e | CanEnd ls i e} e)

/-- Line `i` is the first header line from line `start` on, and it declares `name`. -/
structure IsNextHeader (ls : List (List Char)) (start i : ℕ) (name : List Char) : Prop where
  start_le : start ≤ i
  header : headerName? (lineAt ls i) = some name
  first : ∀ k, start ≤ k → k < i → headerName? (lineAt ls k) = none

/-- The functions of some lines that are found from line `start` on. -/
inductive FoundFrom (ls : List (List Char)) : ℕ → List FunctionDefinition → Prop
  /-- No header is left. -/
  | done {start : ℕ} (h : ∀ k, start ≤ k → headerName? (lineAt ls k) = none) :
      FoundFrom ls start []
  /-- The function of the next header does not end. -/
  | unended {start i : ℕ} {name : List Char} (hi : IsNextHeader ls start i name)
      (h : ∀ e, ¬EndsOn ls i e) : FoundFrom ls start []
  /-- The function of the next header ends on line `e`, and the search goes on behind it. -/
  | ended {start i e : ℕ} {name : List Char} {rest : List FunctionDefinition}
      (hi : IsNextHeader ls start i name) (he : EndsOn ls i e) (hr : FoundFrom ls (e + 1) rest) :
      FoundFrom ls start
        ({ name := String.ofList name
           startLine := i
           endLine := e
           signature := String.ofList (trim (lineAt ls i))
           kind := .function
           enclosingType := none } :: rest)

lemma lineAt_append_cons (front back : List (List Char)) (line : List Char) :
    lineAt (front ++ line :: back) (front.length + 1) = line := by
  simp [lineAt]

lemma lineAt_of_length_lt {ls : List (List Char)} {k : ℕ} (h : ls.length < k) :
    lineAt ls k = [] := by
  rw [lineAt, List.getD_eq_getElem?_getD, List.getElem?_eq_none (by omega)]
  rfl

lemma headerName?_nil : headerName? [] = none := rfl

lemma le_length_of_header {ls : List (List Char)} {k : ℕ} {name : List Char}
    (h : headerName? (lineAt ls k) = some name) : k ≤ ls.length := by
  by_contra hk
  rw [lineAt_of_length_lt (by omega), headerName?_nil] at h
  exact absurd h (by simp)

lemma CanEnd.le_length {ls : List (List Char)} {i e : ℕ} (h : CanEnd ls i e) : e ≤ ls.length := by
  by_contra he
  have hc := h.2.2
  rw [lineAt_of_length_lt (by omega)] at hc
  simp at hc

lemma braceBalance_eq (line : List Char) :
    braceBalance line = line.count '\x7b' - line.count '\x7d' := by
  induction line with
  | nil => simp [braceBalance]
  | cons c cs ih =>
    by_cases ho : c = '\x7b'
    · subst ho
      simp [braceBalance, ih]
      omega
    · by_cases hc : c = '\x7d'
      · subst hc
        simp [braceBalance, ih]
        omega
      · simp [braceBalance, ih, ho, hc]

lemma hasArrow_iff {line : List Char} : hasArrow line = true ↔ ['=', '>'] <:+: line := by
  induction line with
  | nil => simp [hasArrow]
  | cons c cs ih =>
    rw [hasArrow, Bool.or_eq_true, ih, List.infix_cons_iff]
    cases cs with
    | nil => simp
    | cons d ds =>
      have hd : (d == '>') = ('>' == d) := by rw [Bool.beq_comm]
      have hc : (c == '=') = ('=' == c) := by rw [Bool.beq_comm]
      simp [hd, hc]

lemma isOneLine_iff {line : List Char} : isOneLine line = true ↔ IsArrowLine line := by
  simp [isOneLine, IsArrowLine, hasArrow_iff]

lemma hasCloser_iff {line : List Char} :
    hasCloser line = true ↔ '\x7d' ∈ line ∨ ';' ∈ line := by
  simp [hasCloser]

/-! ## The functions found are determined -/

lemma IsNextHeader.unique {ls : List (List Char)} {start i j : ℕ} {a b : List Char}
    (hi : IsNextHeader ls start i a) (hj : IsNextHeader ls start j b) : i = j ∧ a = b := by
  have hij : i = j := by
    rcases lt_trichotomy i j with h | h | h
    · have hn := hj.first i hi.start_le h
      rw [hi.header] at hn
      exact absurd hn (by simp)
    · exact h
    · have hn := hi.first j hj.start_le h
      rw [hj.header] at hn
      exact absurd hn (by simp)
  subst hij
  have hs := hi.header.symm.trans hj.header
  exact ⟨rfl, Option.some.inj hs⟩

lemma EndsOn.unique {ls : List (List Char)} {i e f : ℕ} (he : EndsOn ls i e)
    (hf : EndsOn ls i f) : e = f := by
  rcases he with ⟨_, rfl⟩ | ⟨ha, he⟩
  · rcases hf with ⟨_, rfl⟩ | ⟨ha, _⟩
    · rfl
    · exact absurd ‹IsArrowLine _› ha
  · rcases hf with ⟨hb, _⟩ | ⟨_, hf⟩
    · exact absurd hb ha
    · exact he.unique hf

lemma FoundFrom.unique {ls : List (List Char)} {start : ℕ} {a b : List FunctionDefinition}
    (ha : FoundFrom ls start a) (hb : FoundFrom ls start b) : a = b := by
  induction ha generalizing b with
  | done h =>
    cases hb with
    | done => rfl
    | unended => rfl
    | ended hi _ _ => exact absurd (h _ hi.start_le) (by simp [hi.header])
  | unended hi h =>
    cases hb with
    | done => rfl
    | unended => rfl
    | ended hj he _ =>
      obtain ⟨rfl, rfl⟩ := hi.unique hj
      exact absurd he (h _)
  | ended hi he _ ih =>
    cases hb with
    | done h => exact absurd (h _ hi.start_le) (by simp [hi.header])
    | unended hj h =>
      obtain ⟨rfl, rfl⟩ := hi.unique hj
      exact absurd he (h _)
    | ended hj hf hr =>
      obtain ⟨rfl, rfl⟩ := hi.unique hj
      obtain rfl := he.unique hf
      rw [ih hr]

/-! ## The reading finds them -/

/-- A line without a header is passed over. -/
lemma FoundFrom.skip {ls : List (List Char)} {start : ℕ} {found : List FunctionDefinition}
    (hl : headerName? (lineAt ls start) = none) (h : FoundFrom ls (start + 1) found) :
    FoundFrom ls start found := by
  have later : ∀ {i : ℕ} {name : List Char}, IsNextHeader ls (start + 1) i name →
      IsNextHeader ls start i name := by
    intro i name hi
    refine ⟨by have := hi.start_le; omega, hi.header, fun k hk hki => ?_⟩
    rcases Nat.eq_or_lt_of_le hk with rfl | hk
    · exact hl
    · exact hi.first k hk hki
  cases h with
  | done h =>
    refine .done fun k hk => ?_
    rcases Nat.eq_or_lt_of_le hk with rfl | hk
    · exact hl
    · exact h k hk
  | unended hi h => exact .unended (later hi) h
  | ended hi he hr => exact .ended (later hi) he hr

lemma isNextHeader_self {ls : List (List Char)} {i : ℕ} {name : List Char}
    (h : headerName? (lineAt ls i) = some name) : IsNextHeader ls i i name :=
  ⟨le_rfl, h, fun _ hk hki => absurd hki (by omega)⟩

/-- What is known before line `n` in a body that started on line `i`: the depth is the sum of the
balances since then, and no line so far could have been the last of the body. -/
structure InBodyOf (ls : List (List Char)) (i n : ℕ) (depth : ℤ) : Prop where
  le : i ≤ n
  depth_eq : depth = ∑ k ∈ Finset.Ico i n, balanceAt ls k
  open_before : ∀ e < n, ¬CanEnd ls i e

/-- Before the header line of a body, nothing has been counted yet. -/
lemma inBodyOf_self (ls : List (List Char)) (n : ℕ) : InBodyOf ls n n 0 :=
  ⟨le_rfl, by simp, fun _ he hend => absurd hend.1 (by omega)⟩

/-- What a state of the reading stands for before line `n`. -/
def Reading.Tracks (ls : List (List Char)) (n : ℕ) : Reading → Prop
  | .searching => True
  | .inBody pending depth => InBodyOf ls pending.startLine n depth

/-- What has to be found from line `n` on in a state of the reading: in a body, first of all the
function that it belongs to, if that ends. -/
def Reading.Finds (ls : List (List Char)) (n : ℕ) (found : List FunctionDefinition) :
    Reading → Prop
  | .searching => FoundFrom ls n found
  | .inBody pending _ =>
    (∃ e rest, IsLeast {e | CanEnd ls pending.startLine e} e ∧ FoundFrom ls (e + 1) rest ∧
      found = { pending with endLine := e } :: rest) ∨
    ((∀ e, ¬CanEnd ls pending.startLine e) ∧ found = [])

/-- The balance of line `n` comes to the depth. -/
lemma InBodyOf.depth_add {ls : List (List Char)} {i n : ℕ} {depth : ℤ}
    (h : InBodyOf ls i n depth) :
    depth + braceBalance (lineAt ls n) = ∑ k ∈ Finset.Icc i n, balanceAt ls k := by
  have hs : Finset.Icc i n = Finset.Ico i (n + 1) := by
    ext k
    simp only [Finset.mem_Icc, Finset.mem_Ico]
    omega
  rw [hs, Finset.sum_Ico_succ_top h.le, ← h.depth_eq, braceBalance_eq, balanceAt]

/-- The test for the last line of a body is right. -/
lemma InBodyOf.canEnd_iff {ls : List (List Char)} {i n : ℕ} {depth : ℤ}
    (h : InBodyOf ls i n depth) :
    (depth + braceBalance (lineAt ls n) == 0 && hasCloser (lineAt ls n)) = true ↔
      CanEnd ls i n := by
  rw [Bool.and_eq_true, beq_iff_eq, h.depth_add, hasCloser_iff, CanEnd]
  exact ⟨fun hc => ⟨h.le, hc⟩, fun hc => hc.2⟩

/-- **One line of a body.**  If the body ends there, the search goes on behind it; if not, the
invariant holds on the next line. -/
lemma continueBody_spec {ls : List (List Char)} {n : ℕ} {pending : FunctionDefinition} {depth : ℤ}
    (h : InBodyOf ls pending.startLine n depth) {next : Reading} {out : List FunctionDefinition}
    (hs : Reading.continueBody pending depth n (lineAt ls n) = (next, out)) :
    next.Tracks ls (n + 1) ∧ ∀ found, next.Finds ls (n + 1) found →
      (Reading.inBody pending depth).Finds ls n (out ++ found) := by
  rw [Reading.continueBody] at hs
  split at hs
  · -- the body ends on this line, and on no line before it
    rename_i hc
    obtain ⟨rfl, rfl⟩ := Prod.mk.inj hs
    have hleast : IsLeast {e | CanEnd ls pending.startLine e} n := by
      refine ⟨h.canEnd_iff.mp hc, fun e he => ?_⟩
      by_contra hlt
      exact h.open_before e (by omega) he
    exact ⟨trivial, fun found hf => Or.inl ⟨n, found, hleast, hf, rfl⟩⟩
  · rename_i hc
    obtain ⟨rfl, rfl⟩ := Prod.mk.inj hs
    refine ⟨⟨by have := h.le; omega, ?_, fun e he => ?_⟩, fun found hf => hf⟩
    · rw [Finset.sum_Ico_succ_top h.le, ← h.depth_eq, braceBalance_eq, balanceAt]
    · rcases Nat.lt_succ_iff_lt_or_eq.mp he with he | rfl
      · exact h.open_before e he
      · exact fun hend => hc (h.canEnd_iff.mpr hend)

/-- **One line of a source** keeps the invariant, and finds what has to be found on it. -/
lemma step_spec {ls : List (List Char)} {n : ℕ} {r : Reading} (h : r.Tracks ls n)
    {next : Reading} {out : List FunctionDefinition}
    (hs : r.step n (lineAt ls n) = (next, out)) :
    next.Tracks ls (n + 1) ∧ ∀ found, next.Finds ls (n + 1) found →
      r.Finds ls n (out ++ found) := by
  cases r with
  | inBody pending depth => exact continueBody_spec h hs
  | searching =>
    rw [Reading.step] at hs
    cases hn : headerName? (lineAt ls n) with
    | none =>
      rw [hn] at hs
      obtain ⟨rfl, rfl⟩ := Prod.mk.inj hs
      exact ⟨trivial, fun found hf => FoundFrom.skip hn hf⟩
    | some name =>
      simp only [hn] at hs
      split at hs
      · -- an arrow body, all of it on the header line
        rename_i ha
        obtain ⟨rfl, rfl⟩ := Prod.mk.inj hs
        have he : EndsOn ls n n := Or.inl ⟨isOneLine_iff.mp ha, rfl⟩
        exact ⟨trivial, fun found hf => .ended (isNextHeader_self hn) he hf⟩
      · -- the header line is the first line of the body
        rename_i ha
        rw [isOneLine_iff] at ha
        have hb : InBodyOf ls (definitionAt name n (lineAt ls n)).startLine n 0 :=
          inBodyOf_self ls n
        obtain ⟨ht, hf⟩ := continueBody_spec hb hs
        refine ⟨ht, fun found hfound => ?_⟩
        rcases hf found hfound with ⟨e, rest, hleast, hrest, heq⟩ | ⟨hnone, heq⟩
        · rw [heq]
          exact .ended (isNextHeader_self hn) (Or.inr ⟨ha, hleast⟩) hrest
        · rw [heq]
          refine .unended (isNextHeader_self hn) fun e he => ?_
          rcases he with ⟨ha', _⟩ | ⟨_, he⟩
          · exact ha ha'
          · exact hnone e he.1

/-- Behind the last line, nothing is left to be found. -/
lemma finds_nil {ls : List (List Char)} {r : Reading} (h : r.Tracks ls (ls.length + 1)) :
    r.Finds ls (ls.length + 1) [] := by
  cases r with
  | searching =>
    refine FoundFrom.done fun k hk => ?_
    rw [lineAt_of_length_lt (by omega), headerName?_nil]
  | inBody pending depth =>
    refine Or.inr ⟨fun e he => ?_, rfl⟩
    exact h.open_before e (by have := he.le_length; omega) he

/-- **The run over the last lines of a source** finds what has to be found from there on. -/
lemma run_finds (front back : List (List Char)) {r : Reading}
    (h : r.Tracks (front ++ back) (front.length + 1)) :
    r.Finds (front ++ back) (front.length + 1) (r.run (front.length + 1) back).2 := by
  induction back generalizing front r with
  | nil =>
    rw [List.append_nil] at h ⊢
    exact finds_nil h
  | cons line rest ih =>
    rcases hs : r.step (front.length + 1) line with ⟨next, out⟩
    have hline : r.step (front.length + 1) (lineAt (front ++ line :: rest) (front.length + 1)) =
        (next, out) := by
      rw [lineAt_append_cons, hs]
    obtain ⟨ht, hf⟩ := step_spec h hline
    have hrest := ih (front ++ [line]) (r := next) (by simpa using ht)
    simp only [Reading.run, hs]
    exact hf _ (by simpa using hrest)

lemma functions_found (source : List Char) : FoundFrom (lines source) 1 (functions source) :=
  run_finds [] (lines source) (r := .searching) trivial

/-! ## Spans -/

lemma EndsOn.le {ls : List (List Char)} {i e : ℕ} (h : EndsOn ls i e) : i ≤ e := by
  rcases h with ⟨_, rfl⟩ | ⟨_, h⟩
  · exact le_rfl
  · exact h.1.1

/-- The spans of the functions lie between the line from which they are looked for and the last
one, and each of them ends before the next one starts. -/
lemma FoundFrom.spans {ls : List (List Char)} {start : ℕ} {found : List FunctionDefinition}
    (h : FoundFrom ls start found) :
    (∀ d ∈ found, start ≤ d.startLine ∧ d.startLine ≤ d.endLine ∧ d.endLine ≤ ls.length) ∧
      found.Pairwise fun a b => a.endLine < b.startLine := by
  induction h with
  | done => simp
  | unended => simp
  | @ended start i e name rest hi he _ ih =>
    have hie := he.le
    have hse := hi.start_le
    have hel : e ≤ ls.length := by
      rcases he with ⟨_, rfl⟩ | ⟨_, he⟩
      · exact le_length_of_header hi.header
      · exact he.1.le_length
    refine ⟨fun d hd => ?_, List.pairwise_cons.mpr ⟨fun d hd => ?_, ih.2⟩⟩
    · rcases List.mem_cons.mp hd with rfl | hd
      · exact ⟨hse, hie, hel⟩
      · obtain ⟨h1, h2⟩ := ih.1 d hd
        exact ⟨by omega, h2⟩
    · have := (ih.1 d hd).1
      simp only
      omega

/-- **The functions of a source** are the ones that its lines determine without any state, and
nothing else; so their spans name lines of the source, and each ends before the next one starts. -/
theorem functions_eq_iff (source : List Char) :
    (∀ found, functions source = found ↔ FoundFrom (lines source) 1 found) ∧
      (∀ d ∈ functions source, 1 ≤ d.startLine ∧ d.startLine ≤ d.endLine ∧
        d.endLine ≤ (lines source).length) ∧
      (functions source).Pairwise fun a b => a.endLine < b.startLine := by
  have hfound := functions_found source
  refine ⟨fun found => ⟨?_, fun h => hfound.unique h⟩, hfound.spans⟩
  rintro rfl
  exact hfound

/-- A function that does not end takes with it whatever stands behind its header. -/
example : (functions "void a() \x7b\x7d\nvoid b() \x7b\nvoid c() \x7b\x7d\n".toList).map (·.name) =
    ["a"] := by
  decide

end CoverageEstimate.Dart

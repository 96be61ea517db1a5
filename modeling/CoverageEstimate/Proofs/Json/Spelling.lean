/-
# Documents as they are written

The same value may be written in many documents: with any space between the parts, and with any of
the ways to write a string or a number.  `Spells` holds these together, and `Value.depth` counts how
far a value is nested.

The items of a list and the members of an object are written alike, as parts with commas between
them and with space around them (`joined`).
-/
import CoverageEstimate.Proofs.Json.Strings

namespace CoverageEstimate.Json

/-! ## Space -/

/-- The characters may stand between the parts of a document. -/
def AreSpaces (text : List Char) : Prop := ∀ c ∈ text, isSpace (.char c) = true

/-- A value or a name may start with the character: it is no space and separates nothing. -/
structure IsStart (c : Char) : Prop where
  not_space : isSpace (.char c) = false
  not_comma : c ≠ ','
  not_bracket : c ≠ ']'
  not_brace : c ≠ '\x7d'

instance (c : Char) : Decidable (IsStart c) :=
  decidable_of_iff (isSpace (.char c) = false ∧ c ≠ ',' ∧ c ≠ ']' ∧ c ≠ '\x7d')
    ⟨fun ⟨hs, hc, hl, ho⟩ => ⟨hs, hc, hl, ho⟩, fun h =>
      ⟨h.not_space, h.not_comma, h.not_bracket, h.not_brace⟩⟩

/-- The text starts a value or a name. -/
def Starts (text : List Char) : Prop := ∃ c cs, text = c :: cs ∧ IsStart c

lemma areSpaces_nil : AreSpaces [] := by simp [AreSpaces]

lemma skipSpace_append {space : List Char} (h : AreSpaces space) (rest : Input) :
    skipSpace (pieces space ++ rest) = skipSpace rest := by
  induction space with
  | nil => rfl
  | cons c space ih =>
    obtain ⟨hc, hs⟩ := List.forall_mem_cons.mp h
    rw [pieces_cons, List.cons_append, skipSpace, List.dropWhile_cons, if_pos hc]
    exact ih hs

lemma skipSpace_cons {c : Char} (h : isSpace (.char c) = false) (rest : Input) :
    skipSpace (.char c :: rest) = .char c :: rest := by
  rw [skipSpace, List.dropWhile_cons, if_neg (by simp [h])]

/-- Space before a text is skipped, and nothing else. -/
lemma skipSpace_start {space text : List Char} (h : AreSpaces space) (starts : Starts text)
    (rest : Input) : skipSpace (pieces (space ++ text) ++ rest) = pieces text ++ rest := by
  obtain ⟨c, cs, rfl, hc⟩ := starts
  rw [pieces_append, List.append_assoc, skipSpace_append h, pieces_cons, List.cons_append,
    skipSpace_cons hc.not_space]

/-- Space before a character that is none is skipped. -/
lemma skipSpace_before {space : List Char} (h : AreSpaces space) {c : Char}
    (hc : isSpace (.char c) = false) (rest : Input) :
    skipSpace (pieces space ++ .char c :: rest) = .char c :: rest := by
  rw [skipSpace_append h, skipSpace_cons hc]

/-- A value may end before space that ends before something else. -/
lemma ends_append {space : List Char} (h : AreSpaces space) {rest : Input} (ends : Ends rest) :
    Ends (pieces space ++ rest) := by
  cases space with
  | nil => exact ends
  | cons c space =>
    intro p hp
    obtain rfl := Option.some.inj hp
    exact .inl (h c List.mem_cons_self)

/-! ## Parts with commas between them -/

/-- A part of a container as it is written, with the space around it. -/
structure Padded where
  before : List Char
  text : List Char
  after : List Char

namespace Padded

/-- The part with the space around it. -/
def whole (p : Padded) : List Char := p.before ++ (p.text ++ p.after)

/-- There is nothing but space around the part, and the part is not empty. -/
structure IsProper (p : Padded) : Prop where
  before : AreSpaces p.before
  after : AreSpaces p.after
  starts : Starts p.text

end Padded

/-- Parts with commas between them, and with one before them if they are not the first ones of their
container. -/
def joined : (first : Bool) → List Padded → List Char
  | _, [] => []
  | true, p :: rest => p.whole ++ joined false rest
  | false, p :: rest => ',' :: (p.whole ++ joined false rest)

/-- There are no more parts than characters. -/
lemma length_le_length_joined (first : Bool) {parts : List Padded}
    (proper : ∀ p ∈ parts, p.IsProper) : parts.length ≤ (joined first parts).length := by
  induction parts generalizing first with
  | nil => exact Nat.zero_le _
  | cons p rest ih =>
    obtain ⟨hp, hothers⟩ := List.forall_mem_cons.mp proper
    obtain ⟨c, cs, htext, -⟩ := hp.starts
    have hrest := ih false hothers
    cases first <;>
      simp only [joined, Padded.whole, htext, List.length_cons, List.length_append] <;> omega

/-- A part may end where the container goes on or is closed. -/
lemma ends_joined (parts : List Padded) {p : Text.Piece} {rest : Input}
    (h : p = .char ']' ∨ p = .char '\x7d') : Ends (pieces (joined false parts) ++ p :: rest) := by
  intro q hq
  cases parts with
  | nil =>
    obtain rfl := Option.some.inj hq
    exact .inr (.inr h)
  | cons =>
    obtain rfl := Option.some.inj hq
    exact .inr (.inl rfl)

/-! ## Ways to write a value -/

/-- A member of an object as it is written: its name between the quotes, the space on both sides of
the colon, and its value, with the space around all of it. -/
structure MemberText where
  before : List Char
  name : List Char
  beforeColon : List Char
  behindColon : List Char
  value : List Char
  after : List Char

namespace MemberText

/-- The member from behind the opening quote of its name on. -/
def behindQuote (m : MemberText) : List Char :=
  m.name ++ '"' :: (m.beforeColon ++ ':' :: (m.behindColon ++ m.value))

/-- The member as a part of its object. -/
def padded (m : MemberText) : Padded := ⟨m.before, '"' :: m.behindQuote, m.after⟩

/-- There is nothing but space around the member and its colon. -/
structure IsSpaced (m : MemberText) : Prop where
  before : AreSpaces m.before
  beforeColon : AreSpaces m.beforeColon
  behindColon : AreSpaces m.behindColon
  after : AreSpaces m.after

lemma IsSpaced.isProper {m : MemberText} (h : m.IsSpaced) : m.padded.IsProper where
  before := h.before
  after := h.after
  starts := ⟨'"', m.behindQuote, rfl, by decide⟩

end MemberText

/-- The text is a way to write the value. -/
inductive Spells : Value → List Char → Prop
  | null : Spells .null ['n', 'u', 'l', 'l']
  | yes : Spells (.flag true) ['t', 'r', 'u', 'e']
  | no : Spells (.flag false) ['f', 'a', 'l', 's', 'e']
  | number {n : Numeral} {k : Number} (proper : n.IsProper) (value : n.value? = some k) :
      Spells (.number k) n.text
  | text {s : String} {cs : List Char} (h : SpellsText s.toList cs) :
      Spells (.text s) ('"' :: (cs ++ ['"']))
  | list {space : List Char} {items : List (Value × Padded)} (blank : AreSpaces space)
      (proper : ∀ e ∈ items, e.2.IsProper) (each : ∀ e ∈ items, Spells e.1 e.2.text) :
      Spells (.list (items.map (·.1)))
        ('[' :: (space ++ (joined true (items.map (·.2)) ++ [']'])))
  | object {space : List Char} {members : List ((String × Value) × MemberText)}
      (blank : AreSpaces space) (spaced : ∀ e ∈ members, e.2.IsSpaced)
      (names : ∀ e ∈ members, SpellsText e.1.1.toList e.2.name)
      (values : ∀ e ∈ members, Spells e.1.2 e.2.value) :
      Spells (.object (members.map (·.1)))
        ('\x7b' :: (space ++ (joined true (members.map (·.2.padded)) ++ ['\x7d'])))

/-- The text is a document of the value: a way to write it, with space around. -/
def IsDocument (v : Value) (document : List Char) : Prop :=
  ∃ before text after, AreSpaces before ∧ Spells v text ∧ AreSpaces after ∧
    document = before ++ (text ++ after)

lemma isStart_digitChar {d : Nat} (h : d < 10) : IsStart (Nat.digitChar d) := by
  have hall : ∀ d < 10, IsStart (Nat.digitChar d) := by decide
  exact hall d h

/-- A value is written from a character on that starts a value. -/
lemma Spells.starts {v : Value} {text : List Char} (h : Spells v text) : Starts text := by
  cases h with
  | null | yes | no | text | list | object => exact ⟨_, _, rfl, by decide⟩
  | @number n k proper value =>
    obtain ⟨d, hd, cs, hcs⟩ := proper.exists_digit
    rw [Numeral.text]
    split
    · exact ⟨_, _, rfl, by decide⟩
    · exact ⟨_, _, hcs, isStart_digitChar hd⟩

namespace Value

mutual

/-- How many containers stand inside one another. -/
def depth : Value → Nat
  | list items => itemsDepth items + 1
  | object members => membersDepth members + 1
  | _ => 0

/-- How many containers stand inside one another in some items. -/
def itemsDepth : List Value → Nat
  | [] => 0
  | v :: rest => max v.depth (itemsDepth rest)

/-- How many containers stand inside one another in some members. -/
def membersDepth : List (String × Value) → Nat
  | [] => 0
  | (_, v) :: rest => max v.depth (membersDepth rest)

end

lemma depth_le_itemsDepth {items : List Value} {v : Value} (h : v ∈ items) :
    v.depth ≤ itemsDepth items := by
  induction items with
  | nil => exact absurd h List.not_mem_nil
  | cons w rest ih =>
    rw [itemsDepth]
    rcases List.mem_cons.mp h with rfl | h
    · exact Nat.le_max_left _ _
    · exact Nat.le_trans (ih h) (Nat.le_max_right _ _)

lemma depth_le_membersDepth {members : List (String × Value)} {m : String × Value}
    (h : m ∈ members) : m.2.depth ≤ membersDepth members := by
  induction members with
  | nil => exact absurd h List.not_mem_nil
  | cons w rest ih =>
    rw [membersDepth]
    rcases List.mem_cons.mp h with rfl | h
    · exact Nat.le_max_left _ _
    · exact Nat.le_trans (ih h) (Nat.le_max_right _ _)

lemma itemsDepth_le {items : List Value} {n : Nat} (h : ∀ v ∈ items, v.depth ≤ n) :
    itemsDepth items ≤ n := by
  induction items with
  | nil => exact Nat.zero_le n
  | cons v rest ih =>
    obtain ⟨hv, hrest⟩ := List.forall_mem_cons.mp h
    exact Nat.max_le.mpr ⟨hv, ih hrest⟩

lemma membersDepth_le {members : List (String × Value)} {n : Nat}
    (h : ∀ m ∈ members, m.2.depth ≤ n) : membersDepth members ≤ n := by
  induction members with
  | nil => exact Nat.zero_le n
  | cons m rest ih =>
    obtain ⟨hm, hrest⟩ := List.forall_mem_cons.mp h
    exact Nat.max_le.mpr ⟨hm, ih hrest⟩

end Value

end CoverageEstimate.Json

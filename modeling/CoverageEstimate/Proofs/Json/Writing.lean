/-
# Written documents are documents

What the printer writes for a value is a document of that value, as long as the numbers in it have
numerals (`Value.IsWritable`).  Whole numbers have them exactly when they are within the limits of
documents; which doubles have them is a matter of their digits.
-/
import CoverageEstimate.Proofs.Json.Spelling
import Mathlib.Algebra.Group.Nat.Defs

namespace CoverageEstimate.Json

/-! ## Numbers -/

/-- What is written for the number is a numeral that stands for it. -/
def Number.IsWritable (k : Number) : Prop :=
  ∃ n : Numeral, n.IsProper ∧ n.value? = some k ∧ n.text = k.write

lemma isWritable_natural {n : Nat} (h : n < 2 ^ 64) : (Number.natural n).IsWritable := by
  have hlimit : n ≤ greatestNatural := Nat.le_pred_of_lt h
  refine ⟨.ofNatural false n, Numeral.isProper_ofNatural false n, ?_, ?_⟩
  · rw [Numeral.value?_ofNatural false hlimit, wholeNumber, if_neg (by decide)]
  · exact Numeral.unsignedText_ofNatural false n

lemma isWritable_negative {n : Nat} (pos : 0 < n) (h : n ≤ 2 ^ 63) :
    (Number.negative n).IsWritable := by
  have hlimit : n ≤ greatestNatural := Nat.le_trans h (by decide)
  have hrange : (decide (0 < n) && decide (n ≤ Nat.pow 2 63)) = true := by
    simpa using ⟨pos, h⟩
  refine ⟨.ofNatural true n, Numeral.isProper_ofNatural true n, ?_, ?_⟩
  · rw [Numeral.value?_ofNatural true hlimit, wholeNumber, if_pos rfl, if_pos hrange]
  · exact congrArg ('-' :: ·) (Numeral.unsignedText_ofNatural true n)

namespace Value

/-- Every number of the value has a numeral. -/
inductive IsWritable : Value → Prop
  | null : IsWritable .null
  | flag (b : Bool) : IsWritable (.flag b)
  | number {k : Number} (h : k.IsWritable) : IsWritable (.number k)
  | text (s : String) : IsWritable (.text s)
  | list {items : List Value} (h : ∀ v ∈ items, IsWritable v) : IsWritable (.list items)
  | object {members : List (String × Value)} (h : ∀ m ∈ members, IsWritable m.2) :
      IsWritable (.object members)

/-! ## Layout -/

lemma areSpaces_newLine (depth : Nat) : AreSpaces (newLine depth) := by
  intro c hc
  rcases List.mem_cons.mp hc with rfl | hc
  · decide
  · rw [List.eq_of_mem_replicate hc]
    decide

/-- The items of a list as parts, each on a line of its own; the last one has the space before the
bracket behind it. -/
def itemParts (depth : Nat) (close : List Char) : List Value → List (Value × Padded)
  | [] => []
  | [v] => [(v, ⟨newLine depth, v.write depth, close⟩)]
  | v :: w :: rest => (v, ⟨newLine depth, v.write depth, []⟩) :: itemParts depth close (w :: rest)

/-- The members of an object as parts, each on a line of its own; the last one has the space before
the brace behind it. -/
def memberParts (depth : Nat) (close : List Char) :
    List (String × Value) → List ((String × Value) × MemberText)
  | [] => []
  | [m] =>
    [(m, ⟨newLine depth, m.1.toList.flatMap writeChar, [], [' '], m.2.write depth, close⟩)]
  | m :: k :: rest =>
    (m, ⟨newLine depth, m.1.toList.flatMap writeChar, [], [' '], m.2.write depth, []⟩) ::
      memberParts depth close (k :: rest)

variable {depth : Nat} {close : List Char}

lemma map_fst_itemParts (items : List Value) : (itemParts depth close items).map (·.1) = items := by
  fun_induction itemParts depth close items with
  | case1 | case2 => rfl
  | case3 v w rest ih => rw [List.map_cons, ih]

lemma map_fst_memberParts (members : List (String × Value)) :
    (memberParts depth close members).map (·.1) = members := by
  fun_induction memberParts depth close members with
  | case1 | case2 => rfl
  | case3 m k rest ih => rw [List.map_cons, ih]

/-- The parts of a list make up what is written between the brackets. -/
lemma joined_itemParts (first : Bool) (v : Value) (rest : List Value) :
    joined first ((itemParts depth close (v :: rest)).map (·.2)) =
      (if first then [] else [',']) ++
        (newLine depth ++ (v.write depth ++ (writeItems depth rest ++ close))) := by
  induction rest generalizing v first with
  | nil => cases first <;> simp [itemParts, joined, Padded.whole, writeItems]
  | cons w rest ih =>
    rw [itemParts, List.map_cons, writeItems]
    cases first <;> simp [joined, Padded.whole, ih]

/-- The parts of an object make up what is written between the braces. -/
lemma joined_memberParts (first : Bool) (m : String × Value) (rest : List (String × Value)) :
    joined first ((memberParts depth close (m :: rest)).map (·.2.padded)) =
      (if first then [] else [',']) ++ (newLine depth ++ (writeText m.1 ++ (':' :: ' ' ::
        (m.2.write depth ++ (writeMembers depth rest ++ close))))) := by
  induction rest generalizing m first with
  | nil =>
    cases first <;> simp [memberParts, joined, Padded.whole, MemberText.padded,
      MemberText.behindQuote, writeText, writeMembers]
  | cons k rest ih =>
    have hpart : ∀ m : MemberText, m.padded.whole =
        m.before ++ '"' :: (m.behindQuote ++ m.after) := fun _ => rfl
    rw [memberParts, List.map_cons, writeMembers]
    cases first <;> simp [joined, hpart, MemberText.behindQuote, writeText, ih]

/-! ## Values -/

lemma areSpaces_blank : AreSpaces [' '] := by
  intro c hc
  obtain rfl := List.mem_singleton.mp hc
  decide

/-- Each part of a list is an item as it is written, with a line break before it. -/
lemma of_mem_itemParts (blank : AreSpaces close) {items : List Value} {e : Value × Padded}
    (h : e ∈ itemParts depth close items) :
    e.1 ∈ items ∧ AreSpaces e.2.before ∧ AreSpaces e.2.after ∧ e.2.text = e.1.write depth := by
  fun_induction itemParts depth close items with
  | case1 => exact absurd h List.not_mem_nil
  | case2 v =>
    obtain rfl := List.mem_singleton.mp h
    exact ⟨List.mem_cons_self, areSpaces_newLine depth, blank, rfl⟩
  | case3 v w rest ih =>
    rcases List.mem_cons.mp h with rfl | h
    · exact ⟨List.mem_cons_self, areSpaces_newLine depth, areSpaces_nil, rfl⟩
    · obtain ⟨hmem, hparts⟩ := ih h
      exact ⟨List.mem_cons_of_mem _ hmem, hparts⟩

/-- Each part of an object is a member as it is written, with a line break before it. -/
lemma of_mem_memberParts (blank : AreSpaces close) {members : List (String × Value)}
    {e : (String × Value) × MemberText} (h : e ∈ memberParts depth close members) :
    e.1 ∈ members ∧ e.2.IsSpaced ∧ e.2.name = e.1.1.toList.flatMap writeChar ∧
      e.2.value = e.1.2.write depth := by
  fun_induction memberParts depth close members with
  | case1 => exact absurd h List.not_mem_nil
  | case2 m =>
    obtain rfl := List.mem_singleton.mp h
    exact ⟨List.mem_cons_self,
      ⟨areSpaces_newLine depth, areSpaces_nil, areSpaces_blank, blank⟩, rfl, rfl⟩
  | case3 m k rest ih =>
    rcases List.mem_cons.mp h with rfl | h
    · exact ⟨List.mem_cons_self,
        ⟨areSpaces_newLine depth, areSpaces_nil, areSpaces_blank, areSpaces_nil⟩, rfl, rfl⟩
    · obtain ⟨hmem, hparts⟩ := ih h
      exact ⟨List.mem_cons_of_mem _ hmem, hparts⟩

/-- **Written values.**  What the printer writes for a value is a way to write it. -/
lemma spells_write {v : Value} (h : v.IsWritable) (depth : Nat) : Spells v (v.write depth) := by
  induction h generalizing depth with
  | null =>
    rw [write]
    exact .null
  | flag b =>
    rw [write]
    cases b
    · exact .no
    · exact .yes
  | number h =>
    obtain ⟨n, hproper, hvalue, htext⟩ := h
    rw [write, ← htext]
    exact .number hproper hvalue
  | text s =>
    rw [write]
    exact .text (spellsText_write s.toList)
  | @list items h ih =>
    cases items with
    | nil =>
      rw [write]
      exact @Spells.list _ [] areSpaces_nil (by simp) (by simp)
    | cons v rest =>
      have hblank := areSpaces_newLine depth
      have hparts := fun e he => @of_mem_itemParts (depth + 1) _ hblank (v :: rest) e he
      have hitem : ∀ e ∈ itemParts (depth + 1) (newLine depth) (v :: rest),
          Spells e.1 e.2.text := by
        intro e he
        obtain ⟨hmem, -, -, htext⟩ := hparts e he
        rw [htext]
        exact ih e.1 hmem (depth + 1)
      have hspells := Spells.list areSpaces_nil (fun e he =>
        ⟨(hparts e he).2.1, (hparts e he).2.2.1, (hitem e he).starts⟩) hitem
      rw [map_fst_itemParts, joined_itemParts] at hspells
      rw [write]
      simpa using hspells
  | @object members h ih =>
    cases members with
    | nil =>
      rw [write]
      exact @Spells.object _ [] areSpaces_nil (by simp) (by simp) (by simp)
    | cons m rest =>
      have hblank := areSpaces_newLine depth
      have hparts := fun e he => @of_mem_memberParts (depth + 1) _ hblank (m :: rest) e he
      have hspells := Spells.object areSpaces_nil (fun e he => (hparts e he).2.1)
        (fun e he => by
          rw [(hparts e he).2.2.1]
          exact spellsText_write e.1.1.toList)
        (fun e he => by
          obtain ⟨hmem, -, -, hvalue⟩ := hparts e he
          rw [hvalue]
          exact ih e.1 hmem (depth + 1))
      rw [map_fst_memberParts, joined_memberParts] at hspells
      rw [write]
      simpa using hspells

/-- **Written documents.**  What is printed for a value is a document of that value. -/
lemma isDocument_print {v : Value} (h : v.IsWritable) : IsDocument v v.print.toList :=
  ⟨[], v.write 0, [], areSpaces_nil, spells_write h 0, areSpaces_nil, by simp [print]⟩

end Value

end CoverageEstimate.Json

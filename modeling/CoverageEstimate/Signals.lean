/-
# Test signals

What a test file says about the functions it exercises: the names it calls, and the titles of its
test declarations together with the words of those titles.
-/
import CoverageEstimate.NameSet
import CoverageEstimate.Text.Blank

namespace CoverageEstimate

/-- The signals of one test file. -/
structure Signals where
  /-- The names of the functions it calls. -/
  calls : NameSet
  /-- The titles of its test declarations, and their words. -/
  mentions : NameSet

namespace Signals

/-- No signals at all. -/
def empty : Signals := ⟨∅, ∅⟩

instance : EmptyCollection Signals := ⟨empty⟩

instance : Inhabited Signals := ⟨empty⟩

/-- The words of a title: its maximal runs of non-blank characters. -/
def titleWords (title : String) : List String := (Text.tokens title.toList).map String.ofList

/-- The signals with one more called name.  A call without a name is no signal. -/
def addCall (s : Signals) (callee : String) : Signals :=
  if callee = "" then s else { s with calls := s.calls.insert callee }

/-- The signals with one more title, which mentions the title itself and each of its words. -/
def addMention (s : Signals) (title : String) : Signals :=
  { s with mentions := (s.mentions.insert title).insertAll (titleWords title) }

/-- Whether the name is called. -/
def isCalled (s : Signals) (name : String) : Bool := s.calls.contains name

/-- Whether the name is mentioned. -/
def isMentioned (s : Signals) (name : String) : Bool := s.mentions.contains name

/-- The signals of a list of called names and a list of titles. -/
def ofLists (callees titles : List String) : Signals :=
  titles.foldl addMention (callees.foldl addCall ∅)

/-- A call adds its callee, unless that has no name. -/
@[simp] theorem mem_calls_addCall {s : Signals} {callee name : String} :
    name ∈ (s.addCall callee).calls ↔ (name = callee ∧ callee ≠ "") ∨ name ∈ s.calls := by
  unfold addCall
  split <;> simp_all

@[simp] theorem mentions_addCall {s : Signals} {callee : String} :
    (s.addCall callee).mentions = s.mentions := by
  unfold addCall
  split <;> rfl

@[simp] theorem calls_addMention {s : Signals} {title : String} :
    (s.addMention title).calls = s.calls := rfl

/-- A title adds itself and its words. -/
@[simp] theorem mem_mentions_addMention {s : Signals} {title name : String} :
    name ∈ (s.addMention title).mentions ↔
      name = title ∨ name ∈ titleWords title ∨ name ∈ s.mentions := by
  simp only [addMention, NameSet.mem_insertAll, NameSet.mem_insert]
  constructor
  · rintro (h | h | h) <;> simp [h]
  · rintro (h | h | h) <;> simp [h]

@[simp] theorem isCalled_iff {s : Signals} {name : String} :
    s.isCalled name = true ↔ name ∈ s.calls := NameSet.contains_iff

@[simp] theorem isMentioned_iff {s : Signals} {name : String} :
    s.isMentioned name = true ↔ name ∈ s.mentions := NameSet.contains_iff

end Signals

end CoverageEstimate

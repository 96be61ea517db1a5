/-
# Findings in a test file

The signals of a test file are recorded one after another, a call or a title at a time
(`Signals.record`).  What one finding adds is said once, and from it what a whole list of findings
comes to: a name is called just when it is found as a callee and is not empty, and mentioned just
when it is a title or a word of a title (`mem_calls_ofFindings`, `mem_mentions_ofFindings`).

A call without a name is not recorded, but a title without a text is.
-/
import CoverageEstimate.Score
import Mathlib.Data.List.Basic

namespace CoverageEstimate

namespace Signals

/-- What is found in a test file. -/
inductive Finding where
  /-- A call. -/
  | call (callee : String)
  /-- The title of a test declaration. -/
  | title (title : String)
  deriving DecidableEq, Repr, Inhabited

/-- The signals with one more finding. -/
def record (s : Signals) : Finding → Signals
  | .call callee => s.addCall callee
  | .title title => s.addMention title

/-- The signals of findings that are recorded one after another. -/
def ofFindings (found : List Finding) : Signals := found.foldl record ∅

/-- The words of a title are the tokens of its text. -/
lemma mem_titleWords_iff {title word : String} :
    word ∈ titleWords title ↔ word.toList ∈ Text.tokens title.toList := by
  rw [titleWords, List.mem_map]
  constructor
  · rintro ⟨token, htoken, rfl⟩
    rwa [String.toList_ofList]
  · intro h
    exact ⟨word.toList, h, String.ofList_toList⟩

section Members

variable {s : Signals} {found : List Finding} {name : String}

lemma mem_calls_record {f : Finding} :
    name ∈ (s.record f).calls ↔ f = .call name ∧ name ≠ "" ∨ name ∈ s.calls := by
  cases f with
  | call callee =>
    rw [record, mem_calls_addCall, Finding.call.injEq]
    constructor
    · rintro (⟨rfl, hne⟩ | h)
      · exact .inl ⟨rfl, hne⟩
      · exact .inr h
    · rintro (⟨rfl, hne⟩ | h)
      · exact .inl ⟨rfl, hne⟩
      · exact .inr h
  | title title => simp [record]

lemma mem_mentions_record {f : Finding} :
    name ∈ (s.record f).mentions ↔
      (∃ t, f = .title t ∧ (name = t ∨ name ∈ titleWords t)) ∨ name ∈ s.mentions := by
  cases f with
  | call callee => simp [record]
  | title title => simp [record, or_assoc]

lemma mem_calls_foldl_record :
    name ∈ (found.foldl record s).calls ↔
      .call name ∈ found ∧ name ≠ "" ∨ name ∈ s.calls := by
  induction found generalizing s with
  | nil => simp
  | cons f rest ih =>
    rw [List.foldl_cons, ih, mem_calls_record, List.mem_cons]
    constructor
    · rintro (⟨h, hne⟩ | ⟨rfl, hne⟩ | h)
      · exact .inl ⟨.inr h, hne⟩
      · exact .inl ⟨.inl rfl, hne⟩
      · exact .inr h
    · rintro (⟨rfl | h, hne⟩ | h)
      · exact .inr (.inl ⟨rfl, hne⟩)
      · exact .inl ⟨h, hne⟩
      · exact .inr (.inr h)

lemma mem_mentions_foldl_record :
    name ∈ (found.foldl record s).mentions ↔
      (∃ t, .title t ∈ found ∧ (name = t ∨ name ∈ titleWords t)) ∨ name ∈ s.mentions := by
  induction found generalizing s with
  | nil => simp
  | cons f rest ih =>
    rw [List.foldl_cons, ih, mem_mentions_record]
    simp only [List.mem_cons]
    constructor
    · rintro (⟨t, ht, hn⟩ | ⟨t, rfl, hn⟩ | h)
      · exact .inl ⟨t, .inr ht, hn⟩
      · exact .inl ⟨t, .inl rfl, hn⟩
      · exact .inr h
    · rintro (⟨t, rfl | ht, hn⟩ | h)
      · exact .inr (.inl ⟨t, rfl, hn⟩)
      · exact .inl ⟨t, ht, hn⟩
      · exact .inr (.inr h)

/-- **Calls**: a name is called when it is found as a callee and is not empty. -/
lemma mem_calls_ofFindings :
    name ∈ (ofFindings found).calls ↔ .call name ∈ found ∧ name ≠ "" := by
  rw [ofFindings, mem_calls_foldl_record]
  exact or_iff_left (NameSet.not_mem_empty name)

/-- **Mentions**: a name is mentioned when it is a title or a word of one. -/
lemma mem_mentions_ofFindings :
    name ∈ (ofFindings found).mentions ↔
      ∃ t, .title t ∈ found ∧ (name = t ∨ name ∈ titleWords t) := by
  rw [ofFindings, mem_mentions_foldl_record]
  exact or_iff_left (NameSet.not_mem_empty name)

end Members

/-! ## Lists of calls and titles -/

section Lists

variable {callees titles : List String} {name : String}

/-- Signals of two lists are signals of findings: first the calls and then the titles. -/
lemma ofLists_eq_ofFindings (callees titles : List String) :
    ofLists callees titles = ofFindings (callees.map .call ++ titles.map .title) := by
  rw [ofLists, ofFindings, List.foldl_append, List.foldl_map, List.foldl_map]
  rfl

lemma mem_calls_ofLists : name ∈ (ofLists callees titles).calls ↔ name ∈ callees ∧ name ≠ "" := by
  rw [ofLists_eq_ofFindings, mem_calls_ofFindings]
  simp

lemma mem_mentions_ofLists :
    name ∈ (ofLists callees titles).mentions ↔ ∃ t ∈ titles, name = t ∨ name ∈ titleWords t := by
  rw [ofLists_eq_ofFindings, mem_mentions_ofFindings]
  simp

end Lists

/-! ## Functions without a name -/

lemma empty_not_mem_titleWords (title : String) : "" ∉ titleWords title := by
  intro h
  exact Text.ne_nil_of_mem_tokens (mem_titleWords_iff.mp h) rfl

/-- **A function without a name** is never called, nor is it a word of a title.  So it counts as
uncovered against all signals and texts, unless an empty title has been recorded: that is all that
mentions it. -/
theorem scoreFunction_unnamed (found : List Finding) :
    "" ∉ (ofFindings found).calls ∧
      ("" ∈ (ofFindings found).mentions ↔ .title "" ∈ found) ∧
      ∀ text, scoreFunction "" (ofFindings found) text =
        if .title "" ∈ found then ⟨false, true, false, mentionPoints⟩ else .uncovered := by
  have hcalls : "" ∉ (ofFindings found).calls := by
    intro h
    exact (mem_calls_ofFindings.mp h).2 rfl
  have hmentions : "" ∈ (ofFindings found).mentions ↔ .title "" ∈ found := by
    rw [mem_mentions_ofFindings]
    constructor
    · rintro ⟨t, ht, rfl | hword⟩
      · exact ht
      · exact absurd hword (empty_not_mem_titleWords t)
    · intro h
      exact ⟨"", h, .inl rfl⟩
  refine ⟨hcalls, hmentions, fun text => ?_⟩
  have hcalled : (ofFindings found).isCalled "" = false := by
    rw [← Bool.not_eq_true, isCalled_iff]
    exact hcalls
  by_cases h : .title "" ∈ found
  · have hmentioned : (ofFindings found).isMentioned "" = true :=
      isMentioned_iff.mpr (hmentions.mpr h)
    rw [if_pos h, scoreFunction, hcalled, hmentioned]
    rfl
  · have hmentioned : (ofFindings found).isMentioned "" = false := by
      rw [← Bool.not_eq_true, isMentioned_iff, hmentions]
      exact h
    rw [if_neg h, scoreFunction, hcalled, hmentioned]
    rfl

/-- An empty title mentions the empty name, and a function without a name counts as covered. -/
theorem scoreFunction_unnamed_empty_title :
    "" ∈ (ofFindings [.title ""]).mentions ∧
      scoreFunction "" (ofFindings [.title ""]) [] ≠ .uncovered := by
  decide

end Signals

end CoverageEstimate

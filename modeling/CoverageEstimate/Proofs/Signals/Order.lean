/-
# Findings in any order

Signals do not tell how they came about.  The members of both sets are known from what has been
found, and a set is known by its members.  So the same findings leave the same signals, in whatever
order they are recorded, however often, and however those of several sources are mixed
(`foldl_record_congr`), and every function has the same score.

The words of a mention are mentions themselves.  Every finding keeps it so, because a title is
recorded with its words and a word has no other word in it (`keepsWords_record`).  The signals that
the library finds itself have this property; those of an external parser need not have it.
-/
import CoverageEstimate.Analyzers
import CoverageEstimate.Proofs.Results
import CoverageEstimate.Proofs.Signals.Findings
import CoverageEstimate.Proofs.Text.Tokens
import CoverageEstimate.Proofs.TypeScript.Queries
import Mathlib.Data.List.Sort
import Mathlib.Tactic.Tauto

namespace CoverageEstimate

/-- Sets with the same members are equal. -/
lemma NameSet.ext_of_mem {s t : NameSet} (h : ∀ name, name ∈ s ↔ name ∈ t) : s = t := by
  have hlists : s.toList = t.toList := s.sorted.eq_of_mem_iff t.sorted h
  obtain ⟨xs, hxs⟩ := s
  obtain ⟨ys, hys⟩ := t
  obtain rfl : xs = ys := hlists
  rfl

namespace Signals

/-- Signals with the same calls and mentions are equal. -/
lemma ext_of_mem {s t : Signals} (hcalls : ∀ name, name ∈ s.calls ↔ name ∈ t.calls)
    (hmentions : ∀ name, name ∈ s.mentions ↔ name ∈ t.mentions) : s = t := by
  obtain ⟨sCalls, sMentions⟩ := s
  obtain ⟨tCalls, tMentions⟩ := t
  obtain rfl : sCalls = tCalls := NameSet.ext_of_mem hcalls
  obtain rfl : sMentions = tMentions := NameSet.ext_of_mem hmentions
  rfl

variable {s : Signals} {found other : List Finding}

/-- **Findings in another order**, or found more than once, are recorded alike. -/
lemma foldl_record_congr (h : ∀ f, f ∈ other ↔ f ∈ found) :
    other.foldl record s = found.foldl record s := by
  refine ext_of_mem (fun name => ?_) fun name => ?_
  · rw [mem_calls_foldl_record, mem_calls_foldl_record, h]
  · simp only [mem_mentions_foldl_record, h]

/-! ## Words of mentions -/

/-- A word has no word in it but itself. -/
lemma titleWords_of_mem_titleWords {title word : String} (h : word ∈ titleWords title) :
    titleWords word = [word] := by
  rw [titleWords, Text.tokens_of_mem_tokens (mem_titleWords_iff.mp h), List.map_singleton,
    String.ofList_toList]

/-- The words of every mention are mentions. -/
def KeepsWords (s : Signals) : Prop :=
  ∀ mention ∈ s.mentions, ∀ word : String,
    Text.IsTokenOf word.toList mention.toList → word ∈ s.mentions

lemma keepsWords_empty : KeepsWords ∅ := by
  intro mention hmention
  exact absurd hmention (NameSet.not_mem_empty mention)

/-- **One more finding** brings its words with it. -/
lemma keepsWords_record (h : s.KeepsWords) (f : Finding) : (s.record f).KeepsWords := by
  intro mention hmention word htoken
  have hword : word ∈ titleWords mention := by rwa [mem_titleWords_iff, Text.mem_tokens_iff]
  rw [mem_mentions_record] at hmention ⊢
  rcases hmention with ⟨title, hf, rfl | hmention⟩ | hmention
  · exact .inl ⟨mention, hf, .inr hword⟩
  · -- the mention is a word of the title, and `word` can only be the same one
    rw [titleWords_of_mem_titleWords hmention, List.mem_singleton] at hword
    exact .inl ⟨title, hf, .inr (hword ▸ hmention)⟩
  · exact .inr (h mention hmention word htoken)

lemma keepsWords_foldl_record (h : s.KeepsWords) (found : List Finding) :
    (found.foldl record s).KeepsWords := by
  induction found generalizing s with
  | nil => exact h
  | cons f rest ih => exact ih (keepsWords_record h f)

lemma keepsWords_ofFindings (found : List Finding) : (ofFindings found).KeepsWords :=
  keepsWords_foldl_record keepsWords_empty found

/-! ## What the signals are determined by -/

/-- **Signals of findings** are determined by what has been found.  A name is called when it is
found as a callee, and mentioned when it is a title or a word of one.  If the same has been found in
another order, or more often, the signals are equal and so are all scores.  The words of every
mention are mentions. -/
theorem ofFindings_determined (found : List Finding) :
    (∀ name, name ≠ "" →
      ((ofFindings found).isCalled name = true ↔ .call name ∈ found) ∧
      ((ofFindings found).isMentioned name = true ↔
        ∃ title, .title title ∈ found ∧
          (name = title ∨ Text.IsTokenOf name.toList title.toList))) ∧
    (∀ other, (∀ f, f ∈ other ↔ f ∈ found) →
      ofFindings other = ofFindings found ∧
        ∀ name text, scoreFunction name (ofFindings other) text =
          scoreFunction name (ofFindings found) text) ∧
    (ofFindings found).KeepsWords := by
  refine ⟨fun name hname => ⟨?_, ?_⟩, fun other h => ?_, keepsWords_ofFindings found⟩
  · rw [isCalled_iff, mem_calls_ofFindings]
    exact and_iff_left hname
  · rw [isMentioned_iff, mem_mentions_ofFindings]
    simp only [mem_titleWords_iff, Text.mem_tokens_iff]
  · have hsignals : ofFindings other = ofFindings found := foldl_record_congr h
    exact ⟨hsignals, fun name text => by rw [hsignals]⟩

/-- A test of an addition, with a wide blank in its title. -/
def additionFindings : List Finding :=
  [.call "test", .title "adds\u3000two  numbers", .call "expect", .call "add"]

/-- The same, found in another order and in part twice. -/
def additionFindingsAgain : List Finding :=
  [.call "add", .title "adds\u3000two  numbers", .call "expect", .call "add", .call "test",
    .title "adds\u3000two  numbers"]

/-- The word between the blanks is mentioned, the callee is called, and the score is the same
again. -/
theorem ofFindings_additionFindings :
    "two" ≠ "" ∧ (∀ f, f ∈ additionFindingsAgain ↔ f ∈ additionFindings) ∧
      (ofFindings additionFindings).isMentioned "two" = true ∧
      ofFindings additionFindingsAgain = ofFindings additionFindings ∧
      (scoreFunction "add" (ofFindings additionFindingsAgain) []).score = callPoints ∧
      (ofFindings additionFindings).KeepsWords := by
  obtain ⟨hmembers, horder, hwords⟩ := ofFindings_determined additionFindings
  have hname : "two" ≠ "" := by decide
  have hsame : ∀ f, f ∈ additionFindingsAgain ↔ f ∈ additionFindings := by
    intro f
    simp only [additionFindingsAgain, additionFindings, List.mem_cons, List.not_mem_nil]
    tauto
  have htoken : Text.IsTokenOf "two".toList "adds\u3000two  numbers".toList :=
    Text.mem_tokens_iff.mp (by decide)
  have hmentioned := (hmembers "two" hname).2.mpr ⟨_, by decide, .inr htoken⟩
  obtain ⟨hsignals, hscores⟩ := horder additionFindingsAgain hsame
  refine ⟨hname, hsame, hmentioned, hsignals, ?_, hwords⟩
  rw [hscores "add" []]
  decide +kernel

end Signals

/-! ## Signals that the library finds itself -/

lemma Dart.keepsWords_signals (text : List Char) : (Dart.signals text).KeepsWords := by
  rw [Dart.signals, Signals.ofLists_eq_ofFindings]
  exact Signals.keepsWords_ofFindings _

lemma TypeScript.keepsWords_signals (source : Array Char) (tree : TypeScript.Node) :
    (TypeScript.signals source tree).KeepsWords := by
  obtain ⟨found, hfound⟩ := TypeScript.exists_signals_eq_ofFindings source tree
  rw [hfound]
  exact Signals.keepsWords_ofFindings found

/-- **Without an external parser**, the words of all mentions are mentions, whatever the tests are. -/
theorem Analyzer.keepsWords_builtIn (readText : String → Except FileError String)
    (parse : Bool → TypeScript.Source → TypeScript.Node) :
    ∀ a ∈ builtIn readText parse none, ∀ content path found,
      a.signals content path = .ok found → found.KeepsWords := by
  intro a ha content path found h
  rcases List.mem_cons.mp ha with rfl | ha
  · obtain ⟨text, -, rfl⟩ := exists_of_map_eq_ok h
    exact Dart.keepsWords_signals text.toList
  · rw [List.mem_singleton.mp ha] at h
    obtain ⟨text, -, rfl⟩ := exists_of_map_eq_ok h
    exact TypeScript.keepsWords_signals _ _

/-- An external parser may mention a title without its words. -/
example : ¬(ParserOutput.signals ⟨[], [], ["adds two"]⟩).KeepsWords := by
  intro h
  have htoken : Text.IsTokenOf "two".toList "adds two".toList :=
    Text.mem_tokens_iff.mp (by decide)
  exact absurd (h "adds two" (by decide) "two" htoken) (by decide)

end CoverageEstimate

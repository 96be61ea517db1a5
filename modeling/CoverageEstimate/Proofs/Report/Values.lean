/-
# Values are read back

The value that a definition or a report is written as has the shape of its type, and what is read
from its normal form is the definition or the report itself.  Only the range of a score has to be
asked for; the bounds on natural numbers and on doubles are a matter of documents, not of values.
-/
import CoverageEstimate.Proofs.Json.Records
import CoverageEstimate.Proofs.Json.Writing
import CoverageEstimate.Report.Document
import Mathlib.Algebra.Group.Int.Defs
import Mathlib.Algebra.Group.Nat.Defs

namespace CoverageEstimate

open Json

/-! ## Parts -/

lemma asChoice_word (k : FunctionKind) : asChoice kindWords k.word = .ok (.text k.word) := by
  cases k <;> rfl

lemma kindOf_word (k : FunctionKind) : kindOf (.text k.word) = k := by
  cases k <;> rfl

/-- A score of 32 bits is read back from its value. -/
lemma normalize_integerValue {n : Int} (low : -2 ^ 31 ≤ n) (high : n < 2 ^ 31) :
    Shape.integer32.normalize (integerValue n) = .ok (integerValue n) := by
  cases n with
  | ofNat k =>
    have hk : k < Nat.pow 2 31 := Int.ofNat_lt.mp high
    rw [integerValue, Shape.normalize, asInteger32, if_pos hk]
  | negSucc k =>
    have hk : k + 1 ≤ Nat.pow 2 31 := by
      have hpow : Nat.pow 2 31 = 2147483648 := rfl
      omega
    rw [integerValue, Shape.normalize, asInteger32, if_pos hk]

lemma integerOf_integerValue (n : Int) : integerOf (integerValue n) = n := by
  cases n <;> rfl

lemma isWritable_naturalValue {n : Nat} (h : n < 2 ^ 64) : (naturalValue n).IsWritable :=
  .number (isWritable_natural h)

lemma isWritable_integerValue {n : Int} (low : -2 ^ 31 ≤ n) (high : n < 2 ^ 31) :
    (integerValue n).IsWritable := by
  cases n with
  | ofNat k =>
    have hk : k < 2 ^ 31 := Int.ofNat_lt.mp high
    exact .number (isWritable_natural (by omega))
  | negSucc k => exact .number (isWritable_negative (by omega) (by omega))

lemma isWritable_optionalText (s : Option String) : (optionalText s).IsWritable := by
  cases s
  · exact .null
  · exact .text _

lemma textOf?_optionalText (s : Option String) : textOf? (optionalText s) = s := by
  cases s <;> rfl

/-! ## Definitions -/

namespace FunctionDefinition

/-- A definition is read back from its value. -/
lemma normalize_toValue (d : FunctionDefinition) :
    ∃ w, shape.normalize d.toValue = .ok w ∧ ofValue w = d := by
  obtain ⟨name, startLine, endLine, signature, kind, owner⟩ := d
  cases owner <;> cases kind <;> exact ⟨_, rfl, rfl⟩

/-- Every number of a definition is written as long as its lines fit into 64 bits. -/
lemma isWritable_toValue {d : FunctionDefinition} (start : d.startLine < 2 ^ 64)
    (last : d.endLine < 2 ^ 64) : d.toValue.IsWritable := by
  refine .object (List.forall_mem_append.mpr ⟨?_, List.forall_mem_map.mpr fun _ _ => .text _⟩)
  simp only [List.forall_mem_cons, List.not_mem_nil, false_imp_iff, implies_true, and_true]
  exact ⟨.text _, isWritable_naturalValue start, isWritable_naturalValue last, .text _, .text _⟩

end FunctionDefinition

end CoverageEstimate

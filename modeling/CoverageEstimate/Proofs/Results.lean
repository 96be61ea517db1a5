/-
# Steps that may fail

A computation that may fail is taken apart into its steps: when it gives a result, each of its steps
did.  Where it does not matter why something failed, two computations are compared without their
errors.
-/
import Mathlib.Tactic.Lemma

namespace CoverageEstimate

variable {ε α β : Type} {x y : Except ε α}

lemma exists_of_bind_eq_ok {f : α → Except ε β} {b : β} (h : x >>= f = .ok b) :
    ∃ a, x = .ok a ∧ f a = .ok b := by
  cases x with
  | error e => simp [bind, Except.bind] at h
  | ok a => exact ⟨a, rfl, h⟩

lemma exists_of_map_eq_ok {f : α → β} {b : β} (h : x.map f = .ok b) :
    ∃ a, x = .ok a ∧ f a = b := by
  cases x with
  | error e => simp [Except.map] at h
  | ok a => exact ⟨a, rfl, Except.ok.inj h⟩

/-- Two results without their errors are the same if both fail, or neither does and both give the
same. -/
lemma toOption_eq_iff : x.toOption = y.toOption ↔
    (∃ e f, x = .error e ∧ y = .error f) ∨ ∃ v, x = .ok v ∧ y = .ok v := by
  cases x <;> cases y <;> simp [Except.toOption, eq_comm]

lemma toOption_map (x : Except ε α) (f : α → β) : (x.map f).toOption = x.toOption.map f := by
  cases x <;> rfl

end CoverageEstimate

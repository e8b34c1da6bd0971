/-
  Quorum/Proofs/Check/Passed.lean
  ===============================
  **What is known of data that passed a check.**

  A check of a record applies a function to its checked fields, one after the other.  If it
  succeeds, every field has passed its own check (`apply_eq_ok`), so what a field's rule
  guarantees is known of the record.
-/
import Mathlib.Data.List.Basic
import Quorum.Check.Field

namespace Quorum

/-! ### Steps one after the other -/

/-- What follows a step that gives a result. -/
theorem bind_eq_ok {ε α β : Type} {step : Except ε α} {rest : α → Except ε β} {b : β} :
    step >>= rest = .ok b ↔ ∃ a, step = .ok a ∧ rest a = .ok b := by
  cases step with
  | error e =>
    constructor
    · intro h
      cases h
    · rintro ⟨a, h, -⟩
      cases h
  | ok a =>
    constructor
    · intro h
      exact ⟨a, rfl, h⟩
    · rintro ⟨a', h, hrest⟩
      cases h
      exact hrest

/-- A step without a result succeeds, and so does what follows. -/
theorem bind_unit_eq_ok {ε α : Type} {step : Except ε Unit} {rest : Except ε α} {a : α} :
    (step >>= fun _ => rest) = .ok a ↔ step = .ok () ∧ rest = .ok a := by
  rw [bind_eq_ok]
  constructor
  · rintro ⟨⟨⟩, h⟩
    exact h
  · intro h
    exact ⟨(), h⟩

theorem bind_of_ok {ε α β : Type} {step : Except ε α} {a : α} (h : step = .ok a)
    (rest : α → Except ε β) : step >>= rest = rest a := by
  rw [h]
  rfl

theorem bind_of_error {ε α β : Type} {step : Except ε α} {e : ε} (h : step = .error e)
    (rest : α → Except ε β) : step >>= rest = .error e := by
  rw [h]
  rfl

theorem mapError_eq_ok {ε ε' α : Type} {f : ε → ε'} {step : Except ε α} {a : α} :
    step.mapError f = .ok a ↔ step = .ok a := by
  cases step <;> simp [Except.mapError]

/-! ### Fields -/

namespace Checked

variable {α β : Type}

/-- A function is applied only if it and its argument have passed. -/
theorem apply_eq_ok {f : Checked (α → β)} {x : Checked α} {b : β} :
    f.apply x = .ok b ↔ ∃ g a, f = .ok g ∧ x = .ok a ∧ g a = b := by
  cases f with
  | error e => cases x <;> simp [apply]
  | ok g => cases x <;> simp [apply]

theorem inside_eq_ok {step : String} {c : Checked α} {a : α} :
    c.inside step = .ok a ↔ c = .ok a := mapError_eq_ok

end Checked

namespace Check

variable {α : Type} {rule : Rule α}

/-- A field that has to be there is there, and passes. -/
theorem required_eq_ok {fields : Fields} {key : String} {a : α} :
    required fields key rule = .ok a ↔ ∃ d, fields.lookup key = some d ∧ rule d = .ok a := by
  unfold required
  cases fields.lookup key with
  | none => simp [Checked.inside_eq_ok, Checked.fail]
  | some d => simp [Checked.inside_eq_ok]

/-- A field with a default has passed, or it is the default. -/
theorem withDefault_eq_ok {fields : Fields} {key : String} {default a : α} :
    withDefault fields key default rule = .ok a ↔
      (∃ d, fields.lookup key = some d ∧ rule d = .ok a) ∨
      (fields.lookup key = none ∧ default = a) := by
  unfold withDefault
  cases fields.lookup key with
  | none => simp
  | some d => simp [Checked.inside_eq_ok]

theorem nonEmptyList_ne_nil {d : Datum} {items : List α}
    (h : nonEmptyList rule d = .ok items) : items ≠ [] := by
  obtain ⟨checked, -, hrest⟩ := bind_eq_ok.mp h
  split at hrest
  · cases hrest
  · rename_i hempty
    cases hrest
    simpa using hempty

end Check

end Quorum

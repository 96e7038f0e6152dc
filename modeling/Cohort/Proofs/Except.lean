import Mathlib

/-!
What is known of steps that may fail, when they have not.
-/

namespace Cohort

variable {ε α β : Type}

theorem bind_ok {first : Except ε α} {second : α → Except ε β} {result : β}
    (made : (first >>= second) = .ok result) :
    ∃ value, first = .ok value ∧ second value = .ok result := by
  cases first with
  | error error => cases made
  | ok value => exact ⟨value, rfl, made⟩

theorem map_ok {action : Except ε α} {wrap : α → β} {result : β}
    (done : action.map wrap = .ok result) : ∃ value, action = .ok value ∧ wrap value = result := by
  cases action with
  | error error => cases done
  | ok value => exact ⟨value, rfl, Except.ok.inj done⟩

end Cohort

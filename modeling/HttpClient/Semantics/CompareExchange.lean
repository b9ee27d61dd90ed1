import Mathlib.Order.Lattice

/-!
# Raising a value with compare-and-exchange

Several parties want a shared value to be at least as great as theirs. Each loads it, and while
what it has loaded is less than its target, it exchanges the value for the target, provided that
it still is what has been loaded. If not, and sometimes for no reason, the exchange fails, and
loads the value again.

An exchange never lowers the value, and who leaves the loop leaves a value that is great enough.

## Main definitions

* `compareExchange` — one exchange
* `raiseAgain` — the condition of the loop

## Main results

* `le_compareExchange` — the value does not fall
* `le_of_raiseAgain_eq_none` — the loop is left with the target in force
-/

set_option autoImplicit false

namespace HttpClient.Semantics

variable {α : Type*} [LinearOrder α] {cell target current : α}

/-- The exchange of a value: what is stored afterwards, and what has been loaded if the exchange
has failed. -/
def compareExchange (cell target current : α) (fails : Bool) : α × Option α :=
  if !fails && decide (cell = current) then (target, none) else (cell, some cell)

/-- What has been loaded, if the loop goes on. -/
def raiseAgain (target : α) (found : Option α) : Option α :=
  found.filter fun current => decide (current < target)

/-- An exchange stores the target, or leaves the value as it is and loads it. -/
theorem compareExchange_cases (cell target current : α) (fails : Bool) :
    compareExchange cell target current fails = (target, none) ∧ cell = current ∨
      compareExchange cell target current fails = (cell, some cell) := by
  unfold compareExchange
  split
  case isTrue hdone =>
    rw [Bool.and_eq_true, decide_eq_true_eq] at hdone
    exact .inl ⟨rfl, hdone.2⟩
  case isFalse => exact .inr rfl

theorem le_compareExchange (hraise : current < target) (fails : Bool) :
    cell ≤ (compareExchange cell target current fails).1 := by
  rcases compareExchange_cases cell target current fails with ⟨heq, rfl⟩ | heq
  · rw [heq]
    exact hraise.le
  · rw [heq]

theorem raiseAgain_eq_some {found : Option α} (h : raiseAgain target found = some current) :
    found = some current ∧ current < target := by
  rw [raiseAgain, Option.filter_eq_some_iff, decide_eq_true_eq] at h
  exact h

theorem le_of_raiseAgain_some_eq_none (h : raiseAgain target (some current) = none) :
    target ≤ current := by
  rw [raiseAgain, Option.filter_eq_none_iff] at h
  have hless := h current rfl
  rw [decide_eq_true_eq] at hless
  exact not_lt.mp hless

theorem le_of_raiseAgain_eq_none {fails : Bool}
    (h : raiseAgain target (compareExchange cell target current fails).2 = none) :
    target ≤ (compareExchange cell target current fails).1 := by
  rcases compareExchange_cases cell target current fails with ⟨heq, -⟩ | heq
  · rw [heq]
  · rw [heq] at h ⊢
    exact le_of_raiseAgain_some_eq_none h

end HttpClient.Semantics

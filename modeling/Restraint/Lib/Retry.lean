import Restraint.Lib.Transition
import Mathlib.Data.List.Count

/-! Something that is tried until it succeeds, with a budget of retries. There is one attempt more
than retries; nothing is tried after a success, and giving up comes only when the budget is used up.
-/
namespace Retry
open Transition

inductive Happening where
  | begun
  | failed
  | succeeded
  | gaveUp
  deriving DecidableEq

/-- How the attempts stand, with the number of those that failed. -/
inductive Phase where
  | waiting (failures : Nat)
  | trying (failures : Nat)
  | exhausted
  | ended
  deriving DecidableEq

def step (budget : Nat) : Step Phase Happening
  | .waiting failures, .begun => some (.trying failures)
  | .trying failures, .failed =>
    some (if failures < budget then .waiting (failures + 1) else .exhausted)
  | .trying _, .succeeded => some .ended
  | .exhausted, .gaveUp => some .ended
  | _, _ => none

/-- There are not too many attempts, none after the first success, and no giving up
before the budget is used up. -/
structure Bounded (budget : Nat) (history : List Happening) : Prop where
  attempts : history.count .begun ≤ budget + 1
  succeeded : ∀ before after, history = before ++ .succeeded :: after → after = []
  gaveUp : ∀ before after, history = before ++ .gaveUp :: after →
    before.count .begun = budget + 1 ∧ before.count .failed = budget + 1 ∧ after = []

/-- The attempts and the failures in each phase. -/
def Counted (budget : Nat) (history : List Happening) : Phase → Prop
  | .waiting failures => failures ≤ budget ∧ history.count .begun = failures ∧
      history.count .failed = failures
  | .trying failures => failures ≤ budget ∧ history.count .begun = failures + 1 ∧
      history.count .failed = failures
  | .exhausted => history.count .begun = budget + 1 ∧ history.count .failed = budget + 1
  | .ended => history.count .begun ≤ budget + 1

variable {budget : Nat} {history before after : List Happening} {phase phase' : Phase}
  {happening : Happening}

theorem step_counted (counted : Counted budget history phase)
    (stepped : step budget phase happening = some phase') :
    Counted budget (history ++ [happening]) phase' := by
  unfold step at stepped
  split at stepped
  case h_1 failures =>
    cases stepped
    obtain ⟨few, begun, failed⟩ := counted
    refine ⟨few, ?_, ?_⟩ <;> simp [begun, failed]
  case h_2 failures =>
    obtain ⟨few, begun, failed⟩ := counted
    cases stepped
    split
    case isTrue again =>
      refine ⟨again, ?_, ?_⟩ <;> simp [begun, failed]
    case isFalse last =>
      have used : failures = budget := Nat.le_antisymm few (Nat.not_lt.mp last)
      refine ⟨?_, ?_⟩ <;> simp [begun, failed, used]
  case h_3 failures =>
    cases stepped
    obtain ⟨few, begun, -⟩ := counted
    simpa [Counted, begun] using few
  case h_4 =>
    cases stepped
    simpa [Counted] using Nat.le_of_eq counted.1
  case h_5 => cases stepped

private theorem run_counted (counted : Counted budget before phase)
    (ran : run (step budget) phase history = some phase') :
    Counted budget (before ++ history) phase' := by
  induction history generalizing phase before with
  | nil =>
    rw [List.append_nil]
    exact run_nil.mp ran ▸ counted
  | cons happening history ih =>
    obtain ⟨next, stepped, rest⟩ := run_cons.mp ran
    rw [List.append_cons]
    exact ih (step_counted counted stepped) rest

private theorem run_ended (ran : run (step budget) .ended history = some phase) : history = [] := by
  cases history with
  | nil => rfl
  | cons happening history =>
    obtain ⟨next, stepped, -⟩ := run_cons.mp ran
    cases stepped

/-- Only what is under way succeeds, and then it is over. -/
theorem step_succeeded (stepped : step budget phase .succeeded = some phase') : phase' = .ended := by
  cases phase <;> cases stepped
  rfl

/-- Only what is exhausted is given up, and then it is over. -/
theorem step_gaveUp (stepped : step budget phase .gaveUp = some phase') :
    phase = .exhausted ∧ phase' = .ended := by
  cases phase <;> cases stepped
  exact ⟨rfl, rfl⟩

/-- **What is tried by the rules is tried within its budget.** -/
theorem bounded_of_run (ran : run (step budget) (.waiting 0) history = some phase) :
    Bounded budget history := by
  have start : Counted budget [] (.waiting 0) := ⟨Nat.zero_le _, rfl, rfl⟩
  refine ⟨?_, ?_, ?_⟩
  · have counted := run_counted start ran
    rw [List.nil_append] at counted
    cases phase with
    | waiting failures =>
      obtain ⟨few, begun, -⟩ := counted
      omega
    | trying failures =>
      obtain ⟨few, begun, -⟩ := counted
      omega
    | exhausted => exact Nat.le_of_eq counted.1
    | ended => exact counted
  · rintro before after rfl
    obtain ⟨middle, -, onward⟩ := run_append.mp ran
    obtain ⟨next, stepped, rest⟩ := run_cons.mp onward
    cases step_succeeded stepped
    exact run_ended rest
  · rintro before after rfl
    obtain ⟨middle, reached, onward⟩ := run_append.mp ran
    obtain ⟨next, stepped, rest⟩ := run_cons.mp onward
    obtain ⟨rfl, rfl⟩ := step_gaveUp stepped
    have counted := run_counted start reached
    rw [List.nil_append] at counted
    exact ⟨counted.1, counted.2, run_ended rest⟩

end Retry

import Restraint.Lib.Transition

/-! Inevitability. Whatever events come, as long as they are of an allowed kind,
a transition system gets to a state with a property. The proofs are finite trees,
so that a system with unboundedly many answers to an event needs no measure. -/
namespace Transition

universe u v
variable {σ : Type u} {ε : Type v}

/-- Every sequence of allowed events leads to `P`. -/
inductive Inevitable (step : Step σ ε) (allowed : ε → Prop) (P : σ → Prop) : σ → Prop where
  | here (holds : P s) : Inevitable step allowed P s
  | next (enabled : ∀ e, allowed e → ∃ t, step s e = some t)
      (after : ∀ e t, allowed e → step s e = some t → Inevitable step allowed P t) :
      Inevitable step allowed P s

variable {step : Step σ ε} {allowed : ε → Prop} {P Q : σ → Prop} {s : σ}

/-- What is inevitable from every state with `P` is inevitable before it. -/
theorem Inevitable.trans (first : Inevitable step allowed P s)
    (second : ∀ t, P t → Inevitable step allowed Q t) : Inevitable step allowed Q s := by
  induction first with
  | here holds => exact second _ holds
  | next enabled _ ih => exact .next enabled ih

/-- The first events of a stream. -/
def first (events : Nat → ε) (n : Nat) : List ε := (List.range n).map events

@[simp] theorem first_zero (events : Nat → ε) : first events 0 = [] := rfl

theorem first_succ (events : Nat → ε) (n : Nat) :
    first events (n + 1) = events 0 :: first (fun k => events (k + 1)) n := by
  simp [first, List.range_succ_eq_map, Function.comp_def]

private theorem first_add (events : Nat → ε) (n m : Nat) :
    first events (n + m) = first events n ++ first (fun k => events (n + k)) m := by
  simp [first, List.range_add, Function.comp_def]

/-- After finitely many events of a stream the system is there. -/
theorem Inevitable.reached (inevitable : Inevitable step allowed P s) (events : Nat → ε)
    (permitted : ∀ n, allowed (events n)) :
    ∃ n t, run step s (first events n) = some t ∧ P t := by
  induction inevitable generalizing events with
  | here holds => exact ⟨0, _, rfl, holds⟩
  | next enabled _ ih =>
    obtain ⟨next, taken⟩ := enabled (events 0) (permitted 0)
    obtain ⟨n, t, ran, holds⟩ :=
      ih (events 0) next (permitted 0) taken (fun k => events (k + 1)) fun k => permitted (k + 1)
    refine ⟨n + 1, t, ?_, holds⟩
    rw [first_succ]
    exact run_cons.mpr ⟨next, taken, ran⟩

/-- A run that stands still has taken every run that is longer. -/
theorem run_stuck {events : Nat → ε} {n m : Nat} {t u : σ}
    (ran : run step s (first events n) = some t) (stuck : ∀ e, step t e = none)
    (other : run step s (first events m) = some u) : m ≤ n := by
  by_contra longer
  obtain ⟨k, rfl⟩ : ∃ k, m = n + (k + 1) := ⟨m - n - 1, by omega⟩
  rw [first_add, first_succ] at other
  obtain ⟨middle, before, after⟩ := run_append.mp other
  obtain rfl := Option.some.inj (ran.symm.trans before)
  obtain ⟨next, taken, -⟩ := run_cons.mp after
  rw [stuck] at taken
  cases taken

end Transition

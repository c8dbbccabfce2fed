import Mathlib.Data.List.Basic

/-! Executable transition systems. A system is a partial step function on
events, so that a run on a concrete event list can be evaluated. Every safety
property of a run is proved by one of the rules below from what one step does. -/
namespace Transition

universe u v
variable {σ : Type u} {ε : Type v}

/-- The successor of a state under one event; `none` when the event cannot
happen in that state. -/
abbrev Step (σ : Type u) (ε : Type v) := σ → ε → Option σ

/-- The events of a list, one after the other. -/
def run (step : Step σ ε) : σ → List ε → Option σ
  | s, [] => some s
  | s, e :: es => (step s e).bind fun next => run step next es

/-- The steps of a system that meet a condition on the state and the event. A
run of the restricted system is a run whose steps all meet the condition. -/
def only (step : Step σ ε) (allowed : σ → ε → Prop) [∀ s e, Decidable (allowed s e)] : Step σ ε :=
  fun s e => if allowed s e then step s e else none

variable {step : Step σ ε} {allowed : σ → ε → Prop} [∀ s e, Decidable (allowed s e)]
variable {s t : σ} {e : ε} {es fs : List ε}

@[simp] theorem run_nil : run step s [] = some t ↔ s = t := by simp [run]

theorem run_cons : run step s (e :: es) = some t ↔
    ∃ next, step s e = some next ∧ run step next es = some t := by
  simp [run, Option.bind_eq_some_iff]

/-- A run splits at every point into the part before and the part after. -/
theorem run_append : run step s (es ++ fs) = some t ↔
    ∃ middle, run step s es = some middle ∧ run step middle fs = some t := by
  induction es generalizing s with
  | nil => simp
  | cons e es ih =>
    simp only [List.cons_append, run_cons, ih]
    constructor
    · rintro ⟨next, first, middle, before, after⟩
      exact ⟨middle, ⟨next, first, before⟩, after⟩
    · rintro ⟨middle, ⟨next, first, before⟩, after⟩
      exact ⟨next, first, middle, before, after⟩

@[simp] theorem only_eq_some : only step allowed s e = some t ↔ allowed s e ∧ step s e = some t := by
  unfold only
  split <;> simp_all

/-- Restricting a system adds no behaviour to it. -/
theorem run_of_only (ran : run (only step allowed) s es = some t) : run step s es = some t := by
  induction es generalizing s with
  | nil => simpa using ran
  | cons e es ih =>
    obtain ⟨next, first, rest⟩ := run_cons.mp ran
    exact run_cons.mpr ⟨next, (only_eq_some.mp first).2, ih rest⟩

/-- A run is a run of the restricted system if and only if each of its steps is
allowed in the state where it is taken. -/
theorem run_only_iff (ran : run step s es = some t) : run (only step allowed) s es = some t ↔
    ∀ before e after middle, es = before ++ e :: after → run step s before = some middle →
      allowed middle e := by
  induction es generalizing s with
  | nil =>
    apply iff_of_true (by simpa using ran)
    intro before e after middle split
    simp at split
  | cons e es ih =>
    obtain ⟨next, first, rest⟩ := run_cons.mp ran
    constructor
    · intro restricted before e' after middle split reached
      obtain ⟨next', taken, onward⟩ := run_cons.mp restricted
      obtain ⟨permitted, second⟩ := only_eq_some.mp taken
      cases first.symm.trans second
      cases before with
      | nil =>
        obtain ⟨rfl, -⟩ := List.cons.inj split
        exact run_nil.mp reached ▸ permitted
      | cons e'' before =>
        obtain ⟨rfl, shorter⟩ := List.cons.inj split
        obtain ⟨between, same, reached⟩ := run_cons.mp reached
        cases first.symm.trans same
        exact (ih rest).mp onward before e' after middle shorter reached
    · intro permitted
      have here := permitted [] e es s rfl (run_nil.mpr rfl)
      refine run_cons.mpr ⟨next, only_eq_some.mpr ⟨here, first⟩, (ih rest).mpr ?_⟩
      intro before e' after middle split reached
      exact permitted (e :: before) e' after middle (by rw [split, List.cons_append])
        (run_cons.mpr ⟨next, first, reached⟩)

/-- The invariant rule: what every step keeps, every run keeps. -/
theorem run_keeps {I : σ → Prop} (keeps : ∀ s e t, I s → step s e = some t → I t)
    (holds : I s) (ran : run step s es = some t) : I t := by
  induction es generalizing s with
  | nil => exact run_nil.mp ran ▸ holds
  | cons e es ih =>
    obtain ⟨next, first, rest⟩ := run_cons.mp ran
    exact ih (keeps s e next holds first) rest

/-- A run that ends outside a trap took only allowed steps, when every other
step falls into the trap and no step leaves it. -/
theorem run_only_of_trap {I T : σ → Prop}
    (keeps : ∀ s e t, I s → step s e = some t → I t)
    (falls : ∀ s e t, I s → step s e = some t → ¬allowed s e → T t)
    (traps : ∀ s e t, T s → step s e = some t → T t)
    (holds : I s) (ran : run step s es = some t) (outside : ¬T t) :
    run (only step allowed) s es = some t := by
  induction es generalizing s with
  | nil => simpa using ran
  | cons e es ih =>
    obtain ⟨next, first, rest⟩ := run_cons.mp ran
    by_cases permitted : allowed s e
    · exact run_cons.mpr
        ⟨next, only_eq_some.mpr ⟨permitted, first⟩, ih (keeps s e next holds first) rest⟩
    · exact absurd (run_keeps traps (falls s e next holds first permitted) rest) outside

/-- A property that holds as long as only allowed steps were taken, and that
every other step breaks, holds all along a run if and only if every step of the
run is allowed. The invariant `I` carries it. -/
theorem always_iff_only {I P : σ → Prop} (implies : ∀ s, I s → P s) (holds : I s)
    (keeps : ∀ s e t, I s → allowed s e → step s e = some t → I t)
    (breaks : ∀ s e t, I s → ¬allowed s e → step s e = some t → ¬P t)
    (ran : run step s es = some t) :
    (∀ before after middle, es = before ++ after → run step s before = some middle → P middle) ↔
      run (only step allowed) s es = some t := by
  induction es generalizing s with
  | nil =>
    refine iff_of_true ?_ (by simpa using ran)
    intro before after middle split reached
    obtain ⟨rfl, -⟩ := List.append_eq_nil_iff.mp split.symm
    exact run_nil.mp reached ▸ implies s holds
  | cons e es ih =>
    obtain ⟨next, first, rest⟩ := run_cons.mp ran
    constructor
    · intro always
      have later : P next := always [e] es next rfl (run_cons.mpr ⟨next, first, run_nil.mpr rfl⟩)
      have permitted : allowed s e := by
        by_contra forbidden
        exact breaks s e next holds forbidden first later
      have kept : I next := keeps s e next holds permitted first
      refine run_cons.mpr ⟨next, only_eq_some.mpr ⟨permitted, first⟩, (ih kept rest).mp ?_⟩
      intro before after middle split reached
      exact always (e :: before) after middle (by rw [split, List.cons_append])
        (run_cons.mpr ⟨next, first, reached⟩)
    · intro restricted before after middle split reached
      obtain ⟨next', taken, onward⟩ := run_cons.mp restricted
      obtain ⟨permitted, second⟩ := only_eq_some.mp taken
      cases first.symm.trans second
      cases before with
      | nil => exact run_nil.mp reached ▸ implies s holds
      | cons e' before =>
        obtain ⟨rfl, shorter⟩ := List.cons.inj split
        obtain ⟨between, same, reached⟩ := run_cons.mp reached
        cases first.symm.trans same
        exact (ih (keeps s e next holds permitted first) rest).mpr onward before after middle
          shorter reached

/-- The monotonicity rule: a reflexive and transitive relation that holds
across every step holds between the two ends of every run. -/
theorem run_related {R : σ → σ → Prop} (refl : ∀ s, R s s)
    (trans : ∀ s t u, R s t → R t u → R s u) (along : ∀ s e t, step s e = some t → R s t)
    (ran : run step s es = some t) : R s t := by
  induction es generalizing s with
  | nil => exact run_nil.mp ran ▸ refl s
  | cons e es ih =>
    obtain ⟨next, first, rest⟩ := run_cons.mp ran
    exact trans s next t (along s e next first) (ih rest)

end Transition

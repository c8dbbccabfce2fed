import Restraint.Lib.Inevitable
import Restraint.Lib.Trace

/-! Where a system gets to, and what it shows on the way. The condition at the end speaks
of the whole list that was shown, so that the parts of a run can be put together. -/
namespace Transition

universe u v w
variable {σ : Type u} {ε : Type v} {α : Type w}

/-- Every sequence of allowed events leads to a state that fits what was shown until then. -/
inductive Leads (step : Step σ ε) (allowed : σ → ε → Prop) (shows : σ → ε → Option α) :
    (List α → σ → Prop) → σ → Prop where
  | here (holds : P [] s) : Leads step allowed shows P s
  | next (enabled : ∀ e, allowed s e → ∃ t, step s e = some t)
      (after : ∀ e t, allowed s e → step s e = some t →
        Leads step allowed shows (fun list => P ((shows s e).toList ++ list)) t) :
      Leads step allowed shows P s

variable {step : Step σ ε} {allowed : σ → ε → Prop} {shows : σ → ε → Option α}
variable {P Q : List α → σ → Prop} {s t : σ} {es : List ε}

theorem Leads.mono (leads : Leads step allowed shows P s) (weaker : ∀ list t, P list t → Q list t) :
    Leads step allowed shows Q s := by
  induction leads generalizing Q with
  | here holds => exact .here (weaker _ _ holds)
  | next enabled _ ih =>
    exact .next enabled fun e t permitted taken => ih e t permitted taken fun list => weaker _

/-- One part of a run after the other. -/
theorem Leads.trans
    (first : Leads step allowed shows
      (fun list t => Leads step allowed shows (fun more => P (list ++ more)) t) s) :
    Leads step allowed shows P s := by
  generalize condition : (fun list t => Leads step allowed shows (fun more => P (list ++ more)) t) = R
    at first
  induction first generalizing P with
  | here holds =>
    subst condition
    exact holds
  | next enabled _ ih =>
    refine .next enabled fun e t permitted taken => ih e t permitted taken ?_
    subst condition
    simp only [List.append_assoc]

/-- After finitely many events of a stream the system is there. -/
theorem Leads.reached (leads : Leads step allowed shows P s) (events : Nat → ε)
    (permitted : ∀ s n, allowed s (events n)) :
    ∃ n t, run step s (first events n) = some t ∧ P (trace step shows s (first events n)) t := by
  induction leads generalizing events with
  | here holds => exact ⟨0, _, rfl, holds⟩
  | next enabled _ ih =>
    obtain ⟨next, taken⟩ := enabled (events 0) (permitted _ 0)
    obtain ⟨n, t, ran, holds⟩ :=
      ih (events 0) next (permitted _ 0) taken (fun k => events (k + 1)) fun s k => permitted s (k + 1)
    refine ⟨n + 1, t, ?_, ?_⟩
    · rw [first_succ]
      exact run_cons.mpr ⟨next, taken, ran⟩
    · rw [first_succ, trace_cons taken]
      exact holds

section Restricted
variable [∀ s e, Decidable (allowed s e)]

/-- A run of the restricted system that cannot go on is there. -/
theorem Leads.complete (leads : Leads step allowed shows P s) (some : ∀ s, ∃ e, allowed s e)
    (last : ∀ list t, P list t → ∀ e, step t e = none)
    (ran : run (only step allowed) s es = Option.some t) (stuck : ∀ e, step t e = none) :
    P (trace (only step allowed) shows s es) t := by
  induction leads generalizing es with
  | @here P s holds =>
    cases es with
    | nil => exact run_nil.mp ran ▸ holds
    | cons e es =>
      obtain ⟨next, taken, -⟩ := run_cons.mp ran
      have went := (only_eq_some.mp taken).2
      rw [last _ _ holds] at went
      cases went
  | @next s P enabled _ ih =>
    cases es with
    | nil =>
      obtain ⟨e, permitted⟩ := some s
      obtain ⟨next, taken⟩ := enabled e permitted
      rw [run_nil.mp ran, stuck] at taken
      cases taken
    | cons e es =>
      obtain ⟨next, taken, rest⟩ := run_cons.mp ran
      obtain ⟨permitted, went⟩ := only_eq_some.mp taken
      rw [trace_cons taken]
      exact ih e next permitted went (fun list => last _) rest

/-- There is a run that gets there. -/
theorem Leads.exists (leads : Leads step allowed shows P s) (some : ∀ s, ∃ e, allowed s e) :
    ∃ es t, run (only step allowed) s es = Option.some t ∧
      P (trace (only step allowed) shows s es) t := by
  induction leads with
  | here holds => exact ⟨[], _, rfl, holds⟩
  | @next s P enabled _ ih =>
    obtain ⟨e, permitted⟩ := some s
    obtain ⟨next, went⟩ := enabled e permitted
    obtain ⟨es, t, ran, holds⟩ := ih e next permitted went
    have taken : only step allowed s e = Option.some next := only_eq_some.mpr ⟨permitted, went⟩
    refine ⟨e :: es, t, run_cons.mpr ⟨next, taken, ran⟩, ?_⟩
    rw [trace_cons taken]
    exact holds

end Restricted

end Transition

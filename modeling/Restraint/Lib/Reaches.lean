import Restraint.Lib.Transition

/-! Where a system can get to with events of one kind. A number that can be brought down from every
state of an invariant that is not the end leads to the end. Two such runs can be put behind each
other, and what every event of the kind keeps is kept. Progress is shown this way when nobody forces
the events to happen. -/
namespace Transition

universe u v
variable {σ : Type u} {ε : Type v}

/-- Some allowed events lead from one state to the other. -/
def Reaches (step : Step σ ε) (allowed : ε → Prop) (s t : σ) : Prop :=
  ∃ es, (∀ e ∈ es, allowed e) ∧ run step s es = some t

variable {step : Step σ ε} {allowed : ε → Prop} {P Final : σ → Prop} {s t u : σ} {e : ε}

theorem Reaches.refl (s : σ) : Reaches step allowed s s := ⟨[], by simp, rfl⟩

theorem Reaches.single (taken : step s e = some t) (permitted : allowed e) : Reaches step allowed s t :=
  ⟨[e], by simpa using permitted, run_cons.mpr ⟨t, taken, rfl⟩⟩

theorem Reaches.trans (first : Reaches step allowed s t) (second : Reaches step allowed t u) :
    Reaches step allowed s u := by
  obtain ⟨es, permitted, ran⟩ := first
  obtain ⟨fs, permitted', ran'⟩ := second
  refine ⟨es ++ fs, fun e member => ?_, run_append.mpr ⟨t, ran, ran'⟩⟩
  exact (List.mem_append.mp member).elim (permitted e) (permitted' e)

/-- One more event in front. -/
theorem Reaches.after (taken : step s e = some t) (permitted : allowed e)
    (rest : Reaches step allowed t u) : Reaches step allowed s u :=
  (Reaches.single taken permitted).trans rest

theorem Reaches.keeps (kept : ∀ s e t, allowed e → P s → step s e = some t → P t) (holds : P s)
    (reaches : Reaches step allowed s t) : P t := by
  obtain ⟨es, permitted, ran⟩ := reaches
  induction es generalizing s with
  | nil => exact run_nil.mp ran ▸ holds
  | cons e es ih =>
    obtain ⟨next, taken, rest⟩ := run_cons.mp ran
    obtain ⟨first, permitted⟩ := List.forall_mem_cons.mp permitted
    exact ih (kept _ _ _ first holds taken) permitted rest

/-- While there is something left to do, some of it can be done. -/
theorem reaches_final (measure : σ → Nat) (kept : ∀ s e t, allowed e → P s → step s e = some t → P t)
    (progress : ∀ s, P s → ¬Final s → ∃ t, Reaches step allowed s t ∧ measure t < measure s)
    (holds : P s) : ∃ t, Reaches step allowed s t ∧ Final t := by
  induction left : measure s using Nat.strongRecOn generalizing s with
  | ind n ih =>
    by_cases final : Final s
    · exact ⟨s, .refl s, final⟩
    · obtain ⟨t, reaches, less⟩ := progress s holds final
      obtain ⟨u, onward, final⟩ := ih (measure t) (left ▸ less) (reaches.keeps kept holds) rfl
      exact ⟨u, reaches.trans onward, final⟩

end Transition

import Restraint.Lib.Transition

/-! What is seen of a run: a step may show something, and a run shows what its steps show, in order.
An invariant may speak of what was shown so far. A trace over two runs is the two traces in order.
An event that shows nothing may still move the state, and an invariant along a run may be asked of
those steps alone that are allowed. -/
namespace Transition

universe u v w
variable {σ : Type u} {ε : Type v} {α : Type w}

/-- What the steps of a run show. -/
def trace (step : Step σ ε) (shows : σ → ε → Option α) : σ → List ε → List α
  | _, [] => []
  | s, e :: es => (shows s e).toList ++ (step s e).elim [] fun next => trace step shows next es

/-- Some run between two states shows exactly a list. -/
def Shows (step : Step σ ε) (shows : σ → ε → Option α) (list : List α) (s t : σ) : Prop :=
  ∃ es, run step s es = some t ∧ trace step shows s es = list

/-- Until a state with `P`, every run shows no more than a list, in its order. -/
inductive Within (step : Step σ ε) (shows : σ → ε → Option α) (P : σ → Prop) : List α → σ → Prop where
  | here (there : P s) : Within step shows P list s
  | next (fits : ∀ e, ((shows s e).toList ++ more).Sublist list)
      (after : ∀ e t, step s e = some t → Within step shows P more t) : Within step shows P list s

variable {step : Step σ ε} {shows : σ → ε → Option α} {s t : σ} {e : ε} {es fs : List ε}
variable {P Q : σ → Prop} {list more : List α}

@[simp] theorem trace_nil : trace step shows s [] = [] := rfl

theorem trace_cons {next : σ} (taken : step s e = some next) :
    trace step shows s (e :: es) = (shows s e).toList ++ trace step shows next es := by
  simp [trace, taken]

theorem trace_append (ran : run step s es = some t) :
    trace step shows s (es ++ fs) = trace step shows s es ++ trace step shows t fs := by
  induction es generalizing s with
  | nil => simp [run_nil.mp ran]
  | cons e es ih =>
    obtain ⟨next, taken, rest⟩ := run_cons.mp ran
    rw [List.cons_append, trace_cons taken, trace_cons taken, ih rest, List.append_assoc]

/-- One more step shows one thing more at most. -/
theorem trace_step {next : σ} (ran : run step s es = some t) (taken : step t e = some next) :
    trace step shows s (es ++ [e]) = trace step shows s es ++ (shows t e).toList := by
  rw [trace_append ran, trace_cons taken, trace_nil, List.append_nil]

/-- The invariant rule with what was shown. -/
theorem run_keeps_trace (shows : σ → ε → Option α) {I : List α → σ → Prop}
    (keeps : ∀ seen s e t, I seen s → step s e = some t → I (seen ++ (shows s e).toList) t)
    (holds : I [] s) (ran : run step s es = some t) : I (trace step shows s es) t := by
  suffices general : ∀ seen, I seen s → I (seen ++ trace step shows s es) t from general [] holds
  clear holds
  induction es generalizing s with
  | nil =>
    intro seen holds
    rw [trace_nil, List.append_nil]
    exact run_nil.mp ran ▸ holds
  | cons e es ih =>
    intro seen holds
    obtain ⟨next, taken, rest⟩ := run_cons.mp ran
    rw [trace_cons taken, ← List.append_assoc]
    exact ih rest _ (keeps seen s e next holds taken)

/-- A run of the restricted system shows what it shows in the whole system. -/
theorem trace_of_only {allowed : σ → ε → Prop} [∀ s e, Decidable (allowed s e)]
    (ran : run (only step allowed) s es = some t) :
    trace (only step allowed) shows s es = trace step shows s es := by
  induction es generalizing s with
  | nil => rfl
  | cons e es ih =>
    obtain ⟨next, taken, rest⟩ := run_cons.mp ran
    rw [trace_cons taken, trace_cons (only_eq_some.mp taken).2, ih rest]

/-- What is read off from what is shown. -/
theorem trace_filterMap {β : Type*} (reads : α → Option β) :
    (trace step shows s es).filterMap reads =
      trace step (fun s e => (shows s e).bind reads) s es := by
  induction es generalizing s with
  | nil => rfl
  | cons e es ih =>
    have here : (shows s e).toList.filterMap reads = ((shows s e).bind reads).toList := by
      cases shows s e with
      | none => rfl
      | some seen => cases found : reads seen <;> simp [found]
    cases taken : step s e with
    | none => simp [trace, taken, here]
    | some next => rw [trace_cons taken, trace_cons taken, List.filterMap_append, here, ih]

theorem Shows.refl : Shows step shows [] s s := ⟨[], rfl, rfl⟩

theorem Shows.cons {next : σ} (taken : step s e = some next) (rest : Shows step shows list next t) :
    Shows step shows ((shows s e).toList ++ list) s t := by
  obtain ⟨es, ran, rfl⟩ := rest
  exact ⟨e :: es, run_cons.mpr ⟨next, taken, ran⟩, trace_cons taken⟩

theorem Shows.trans {u : σ} (first : Shows step shows list s t) (second : Shows step shows more t u) :
    Shows step shows (list ++ more) s u := by
  obtain ⟨es, ran, rfl⟩ := first
  obtain ⟨fs, onward, rfl⟩ := second
  exact ⟨es ++ fs, run_append.mpr ⟨t, ran, onward⟩, trace_append ran⟩

theorem Within.mono (within : Within step shows P list s) (fewer : list.Sublist more) :
    Within step shows P more s := by
  cases within with
  | here there => exact .here there
  | next fits after => exact .next (fun e => (fits e).trans fewer) after

/-- What is shown before `P`, and then what is shown before `Q`. -/
theorem Within.trans (first : Within step shows P list s)
    (second : ∀ t, P t → Within step shows Q more t) : Within step shows Q (list ++ more) s := by
  induction first with
  | here there => exact (second _ there).mono (List.sublist_append_right _ _)
  | next fits _ ih =>
    refine .next ?_ ih
    intro e
    rw [← List.append_assoc]
    exact (fits e).append_right more

/-- A run shows no more than the list when the states with `P` are the last ones. -/
theorem Within.sublist (within : Within step shows P list s) (last : ∀ t, P t → ∀ e, step t e = none)
    (ran : run step s es = some t) : (trace step shows s es).Sublist list := by
  induction within generalizing es with
  | @here s _ there =>
    cases es with
    | nil => exact List.nil_sublist _
    | cons e es =>
      obtain ⟨next, taken, -⟩ := run_cons.mp ran
      rw [last s there e] at taken
      cases taken
  | next fits after ih =>
    cases es with
    | nil => exact List.nil_sublist _
    | cons e es =>
      obtain ⟨next, taken, rest⟩ := run_cons.mp ran
      rw [trace_cons taken]
      exact ((ih e next taken rest).append_left _).trans (fits e)

end Transition

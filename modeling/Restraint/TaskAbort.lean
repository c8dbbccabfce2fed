import Restraint.ActivationProofs

/-! An abort of a task against the tasks it is not about. The abort is kept in
`aborted` and in the cancellable, and `task_handler` clears both with the final
status of the task that is the current one then. -/
namespace Restraint.TaskAbort
open Transition
open Restraint.Harness Restraint.TaskHandler Restraint.TaskMachine Restraint.TaskRefinement
open Restraint.Server
open Restraint.ActivationProofs (calm packageFails twoTasks)

/-- An abort that stops this task was accepted: of the task itself, or of the
recipe when this task or one before it was the current one. -/
def Stopped (trace : List Observed) (place : Nat) : Prop :=
  .abortTask place ∈ trace ∨ ∃ current ≤ place, .abortRecipe current ∈ trace

/-- The task of an observation. -/
def placeOf : Observed → Nat
  | .status place _ _ | .result place _ | .entryPoint place | .skipped place | .abortTask place
  | .abortRecipe place => place
  | .recipeComplete => 0

/-- Nothing was observed of a task that is still to come. -/
def Placed (m : Machine) : Prop := ∀ observed ∈ m.trace, placeOf observed ≤ m.past.length

/-- The current task is cancelled only by an abort of itself or of the recipe,
and only such tasks were skipped or got the error of an abort. -/
structure Contained (m : Machine) : Prop where
  level : m.recipe ≠ .complete → (m.cancelled = true ↔ m.aborted ≠ .none)
  ended : m.recipe = .complete → m.aborted = .none
  task : m.aborted = .task → .abortTask m.past.length ∈ m.trace
  recipe : m.aborted = .recipe → ∃ place ≤ m.past.length, .abortRecipe place ∈ m.trace
  skipped : ∀ place, .skipped place ∈ m.trace → Stopped m.trace place
  reported : ∀ place, .status place .aborted (some .aborted) ∈ m.trace → Stopped m.trace place
  current : ∀ life ∈ m.tasks.head?, life.error = some .aborted → Stopped m.trace m.past.length
  later : ∀ life ∈ m.tasks.tail, life.error ≠ some .aborted

section
variable {m n : Machine} {life life' : Life} {cancelled reads : Bool} {aborted : StateAborted}
  {state : TaskSetupState} {trace notes : List Observed} {place : Nat}

theorem Stopped.append (stopped : Stopped trace place) : Stopped (trace ++ notes) place := by
  rcases stopped with own | ⟨current, before, whole⟩
  · exact .inl (List.mem_append_left _ own)
  · exact .inr ⟨current, before, List.mem_append_left _ whole⟩

/-- What is cancelled now was stopped. -/
theorem Contained.stopped (contained : Contained m) (level : m.aborted ≠ .none) :
    Stopped m.trace m.past.length := by
  cases aborted : m.aborted with
  | none => exact absurd aborted level
  | task => exact .inl (contained.task aborted)
  | recipe => exact .inr (contained.recipe aborted)

/-- The error of an abort comes from an abort. -/
theorem move_error (move : Move cancelled aborted reads life life')
    (error : life'.error = some .aborted) :
    life.error = some .aborted ∨ aborted ≠ .none := by
  cases move with
  | wait => exact .inl error
  | pass => exact .inl error
  | begin => exact .inl error
  | giveUp => exact .inl error
  | unread idle unreadable failed own =>
    rcases own with same | other
    · exact .inl (same ▸ error)
    · exact absurd error other
  | work before after own =>
    rcases own with same | other
    · exact .inl (same ▸ error)
    · exact absurd error other
  | complete before =>
    dsimp only at error
    split at error
    case isTrue stopped => exact .inr stopped.2
    case isFalse => exact .inl error

/-- Before the recipe is there nothing can be aborted. -/
theorem Contained.early_none (contained : Contained m) (noTrace : m.trace = []) :
    m.aborted = .none := by
  cases aborted : m.aborted with
  | none => rfl
  | task =>
    have member := contained.task aborted
    simp [noTrace] at member
  | recipe =>
    obtain ⟨place, -, member⟩ := contained.recipe aborted
    simp [noTrace] at member

/-- What is added to the trace says only of tasks that were stopped that they were. -/
theorem Contained.extend (contained : Contained m) {added : List Observed}
    (skipped : ∀ place, .skipped place ∈ added → Stopped m.trace place)
    (reported : ∀ place, .status place .aborted (some .aborted) ∈ added → Stopped m.trace place) :
    Contained { m with trace := m.trace ++ added } := by
  refine ⟨contained.level, contained.ended, ?_, ?_, ?_, ?_, ?_, contained.later⟩
  · exact fun level => List.mem_append_left _ (contained.task level)
  · intro level
    obtain ⟨place, before, member⟩ := contained.recipe level
    exact ⟨place, before, List.mem_append_left _ member⟩
  · intro place member
    rcases List.mem_append.mp member with old | new
    · exact (contained.skipped place old).append
    · exact (skipped place new).append
  · intro place member
    rcases List.mem_append.mp member with old | new
    · exact (contained.reported place old).append
    · exact (reported place new).append
  · exact fun life head failed => (contained.current life head failed).append

/-- A move of the current task gives it the error of an abort only if it was stopped. -/
theorem move_contained {rest : List Life} (contained : Contained m)
    (current : m.tasks = life :: rest) (move : Move m.cancelled m.aborted reads life life') :
    Contained { m with tasks := life' :: rest } := by
  refine { contained with current := ?_, later := ?_ }
  · intro first isHead failed
    cases isHead
    rcases move_error move failed with old | level
    · exact contained.current life (by rw [current]; rfl) old
    · exact contained.stopped level
  · intro first member
    exact contained.later first (by rw [current]; exact member)

/-- The final status of a task clears the abort of a task. -/
theorem clear_contained {rest : List Life} (contained : Contained m) (notOver : m.recipe ≠ .complete)
    (current : m.tasks = life :: rest) :
    Contained { m with
      tasks := { life with
        error := none
        state := .next } :: rest
      cancelled := m.cancelled && m.aborted ≠ .task
      aborted := if m.cancelled ∧ m.aborted = .task then .none else m.aborted } := by
  refine { contained with level := ?_, ended := ?_, task := ?_, recipe := ?_, current := ?_, later := ?_ }
  · intro _
    have level := contained.level notOver
    cases aborted : m.aborted <;> simp_all
  · exact fun here => absurd here notOver
  · intro level
    split at level
    case isTrue => cases level
    case isFalse => exact contained.task level
  · intro level
    split at level
    case isTrue => cases level
    case isFalse => exact contained.recipe level
  · intro first isHead failed
    cases isHead
    cases failed
  · intro first member
    exact contained.later first (by rw [current]; exact member)

/-- The next task becomes the current one, without an abort of the last one. -/
theorem advance_contained {next : Life} {later : List Life} (contained : Contained m)
    (current : m.tasks = life :: next :: later) (other : m.aborted ≠ .task) :
    Contained { m with
      past := m.past ++ [life.finished]
      tasks := { next with state := .idle } :: later } := by
  refine { contained with task := ?_, recipe := ?_, current := ?_, later := ?_ }
  · exact fun level => absurd level other
  · intro level
    obtain ⟨place, before, member⟩ := contained.recipe level
    exact ⟨place, by rw [List.length_append]; omega, member⟩
  · intro first isHead failed
    cases isHead
    exact absurd failed (contained.later next (by simp [current]))
  · intro first member
    exact contained.later first (by rw [current]; exact List.mem_cons_of_mem _ member)

/-- An abort is accepted. -/
theorem abort_contained {level : StateAborted} (contained : Contained m)
    (notOver : m.recipe ≠ .complete) (stops : level ≠ .none) :
    Contained { m with
      cancelled := true
      aborted := level
      trace := m.trace ++ [noticed m level] } := by
  have extended : Contained { m with trace := m.trace ++ [noticed m level] } := by
    apply contained.extend
    · intro place member
      cases level <;> simp [noticed] at member
    · intro place member
      cases level <;> simp [noticed] at member
  refine { extended with level := ?_, ended := ?_, task := ?_, recipe := ?_ }
  · exact fun _ => by simp [stops]
  · exact fun here => absurd here notOver
  · rintro rfl
    simp [noticed]
  · rintro rfl
    exact ⟨m.past.length, Nat.le_refl _, by simp [noticed]⟩

private theorem placeOf_noted {observed : Observed} (noted : Noted place cancelled state observed) :
    placeOf observed = place := by
  cases noted <;> rfl

theorem Placed.extend (placed : Placed m) {added : List Observed}
    (here : ∀ observed ∈ added, placeOf observed ≤ m.past.length) :
    ∀ observed ∈ m.trace ++ added, placeOf observed ≤ m.past.length := by
  intro observed member
  rcases List.mem_append.mp member with old | new
  · exact placed observed old
  · exact here observed new

/-- A step is about the current task. -/
theorem turn_placed {act : Act} (placed : Placed m) (turn : Turn act m n) : Placed n := by
  cases turn with
  | still => exact placed
  | retrieve => exact placed
  | parse => exact placed
  | launch => exact placed
  | stop => exact placed
  | close => exact placed
  | work current turn move fits noted =>
    exact placed.extend fun observed member =>
      Nat.le_of_eq (placeOf_noted (noted observed member))
  | report current turn completed step =>
    exact placed.extend fun observed member => by simp [List.mem_singleton.mp member, placeOf]
  | advance current turn done step =>
    intro observed member
    rw [List.length_append]
    exact Nat.le_succ_of_le (placed observed member)
  | finish current turn done step =>
    intro observed member
    rw [List.length_append]
    exact Nat.le_succ_of_le (placed.extend
      (fun observed member => by simp [List.mem_singleton.mp member, placeOf]) observed member)
  | @abort _ _ level =>
    refine placed.extend fun observed member => Nat.le_of_eq ?_
    rw [List.mem_singleton.mp member]
    cases level <;> rfl

/-- A step keeps an abort to its task, unless `task_handler` goes on to the next
task with it. -/
theorem turn_contained {act : Act} (sound : Sound m) (contained : Contained m)
    (held : ¬(act.handled = some .next ∧ m.aborted = .task ∧ m.tasks.tail ≠ []))
    (turn : Turn act m n) : Contained n := by
  cases turn with
  | still => exact contained
  | launch ready =>
    exact { contained with
      level := fun _ => contained.level (by simp [ready])
      ended := fun here => by cases here }
  | stop => exact { contained with }
  | close complete =>
    have none := contained.ended complete
    refine { contained with level := fun _ => ?_, ended := fun here => by cases here }
    simp [none]
  | retrieve before after one =>
    obtain ⟨-, -, -, noTrace⟩ := sound.before before
    refine { contained with level := fun _ => ?_, ended := fun _ => contained.early_none noTrace }
    apply contained.level
    intro complete
    rw [complete] at before
    cases before
  | parse parsed fresh =>
    obtain ⟨-, -, -, noTrace⟩ := sound.before (by rw [parsed]; rfl)
    refine { contained with
      level := fun _ => contained.level (by simp [parsed])
      ended := fun here => by cases here
      current := ?_
      later := ?_ }
    · intro life head failed
      simp [(fresh life (List.mem_of_mem_head? head)).2] at failed
    · intro life member
      simp [(fresh life (List.mem_of_mem_tail member)).2]
  | work current turn move fits noted =>
    obtain ⟨-, notOver, -⟩ := sound.under_way (by simp [current])
    refine { move_contained (contained.extend ?_ ?_) current move with }
    · intro place member
      cases noted _ member with
      | skipped stopped => exact contained.stopped ((contained.level notOver).mp stopped)
    · intro place member
      cases noted _ member
  | @report life rest _ current turn completed step =>
    obtain ⟨-, notOver, -⟩ := sound.under_way (by simp [current])
    have extended : Contained { m with
        trace := m.trace ++ [.status m.past.length (verdict life.error) life.error] } := by
      apply contained.extend
      · intro place member
        simp at member
      · intro place member
        simp only [List.mem_singleton, Observed.status.injEq] at member
        obtain ⟨rfl, -, failed⟩ := member
        exact contained.current life (by rw [current]; rfl) failed.symm
    exact { clear_contained extended notOver current with }
  | advance current turn done step =>
    exact advance_contained contained current fun level => held ⟨step, level, by simp [current]⟩
  | finish current turn done step =>
    have extended : Contained { m with trace := m.trace ++ [.recipeComplete] } := by
      apply contained.extend
      · intro place member
        simp at member
      · intro place member
        simp at member
    exact ⟨fun here => absurd rfl here, fun _ => rfl, by simp, by simp, extended.skipped,
      extended.reported, by simp, by simp⟩
  | abort current stops =>
    obtain ⟨-, notOver, -⟩ := sound.under_way (by simp [current])
    exact abort_contained contained notOver stops

end

section
variable {stdin : Bool} {config : CString.Text → Section} {events : List Event} {s t : AppData}
  {e : Event}

/-- `task_handler` goes on to the next task while an abort of the current task is
still there. -/
def PassesOn (s : AppData) (e : Event) : Prop :=
  handled s e = some .next ∧ s.aborted = .task ∧ s.tasks.tail ≠ []

instance : Decidable (PassesOn s e) := inferInstanceAs (Decidable (_ ∧ _ ∧ _))

/-- The current task is cancelled by an abort of this very task or by one of the
recipe that came while it or a task before it was the current one, and no other
task was skipped or reported as aborted. -/
def OnlyItsTask (s : AppData) : Prop :=
  (s.tasks ≠ [] → s.cancelled = true →
    s.aborted = .task ∧ .abortTask (place s) ∈ s.trace ∨
      s.aborted = .recipe ∧ ∃ current ≤ place s, .abortRecipe current ∈ s.trace) ∧
  (∀ place, .skipped place ∈ s.trace → Stopped s.trace place) ∧
  ∀ place, .status place .aborted (some .aborted) ∈ s.trace → Stopped s.trace place

private theorem only_its_task (sound : Sound (view s)) (contained : Contained (view s)) :
    OnlyItsTask s := by
  have placeSame : (view s).past.length = place s := by simp [view, place]
  refine ⟨?_, contained.skipped, contained.reported⟩
  intro some stopped
  obtain ⟨-, notOver, -⟩ := sound.under_way (by simpa [view] using some)
  have level := (contained.level notOver).mp stopped
  rw [← placeSame]
  cases aborted : s.aborted with
  | none => exact absurd aborted level
  | task => exact .inl ⟨rfl, contained.task aborted⟩
  | recipe => exact .inr ⟨rfl, contained.recipe aborted⟩

/-- The next task starts out cancelled, though nobody aborted it. -/
theorem passesOn_hits_next (sound : Sound (view s)) (placed : Placed (view s))
    (contained : Contained (view s)) (passes : PassesOn s e) (stepped : step s e = some t) :
    ¬OnlyItsTask t := by
  obtain ⟨next, level, more⟩ := passes
  cases e with
  | request => cases next
  | dispatch id w =>
    obtain ⟨-, notOver, -⟩ := sound.under_way (by
      intro none
      have empty : s.tasks = [] := List.map_eq_nil_iff.mp none
      simp [empty] at more)
    have stopped : s.cancelled = true := (contained.level notOver).mpr (by simp [view, level])
    have fresh : .abortTask (s.past.length + 1) ∉ s.trace := by
      intro member
      have bound : s.past.length + 1 ≤ (view s).past.length := placed _ member
      simp only [view, List.length_map] at bound
      omega
    simp only [handled] at next
    split at next
    case isFalse => cases next
    case isTrue found =>
      obtain ⟨task, head, done⟩ := Option.map_eq_some_iff.mp next
      obtain ⟨rest, current⟩ := List.head?_eq_some_iff.mp head
      obtain ⟨next, later, rfl⟩ := List.exists_cons_of_ne_nil (by simpa [current] using more)
      have reached : t = { s with
          past := s.past ++ [task]
          tasks := { next with state := .idle } :: later } := by
        simp only [step, found, Option.bind_some, dispatch, taskHandler, current, done,
          restraintNextTask, Option.map_some, if_true] at stepped
        split at stepped
        · cases stepped
        · exact (Option.some.inj stepped).symm
      rintro ⟨only, -, -⟩
      rw [reached] at only
      rcases only (by simp) stopped with ⟨-, own⟩ | ⟨other, -⟩
      · exact fresh (by simpa [place] using own)
      · simp [level] at other

/-- **An abort of a task hits only this task, all along a run, if and only if
`task_handler` never goes on to the next task with it.** -/
theorem task_abort_contained_iff (ran : run step (start stdin config) events = some s) :
    (∀ before after t, events = before ++ after → run step (start stdin config) before = some t →
      OnlyItsTask t) ↔
      run (only step fun s e => ¬PassesOn s e) (start stdin config) events = some s := by
  refine always_iff_only
    (I := fun s => Sound (view s) ∧ Placed (view s) ∧ Contained (view s)) ?_ ?_ ?_ ?_ ran
  · exact fun s invariant => only_its_task invariant.1 invariant.2.2
  · refine ⟨start_sound, by simp [Placed, view, start], ?_⟩
    constructor <;> simp [view, start]
  · rintro s e t ⟨sound, placed, contained⟩ held stepped
    have turn := step_turn sound stepped
    refine ⟨turn_sound sound turn, turn_placed placed turn, turn_contained sound contained ?_ turn⟩
    simpa [PassesOn, act, view, ← List.map_tail] using held
  · rintro s e t ⟨sound, placed, contained⟩ passes stepped
    exact passesOn_hits_next sound placed contained (not_not.mp passes) stepped

/-- A request that aborts the first task. -/
def abortFirst : Event :=
  .request "/recipes/1/tasks/10/status".toList "status=Aborted".toList [] 0

/-- The first task is aborted before its package is fetched; the second one is run. -/
theorem task_abort_contained_iff_fetching :
    ∃ s, run step (start true fun _ => .empty)
        (([1, 2, 2, 3].map fun id => .dispatch id (calm (twoTasks "New".toList))) ++
          abortFirst :: .dispatch 4 (calm []) :: [5, 6, 7, 7, 8, 9, 9].map fun id =>
            .dispatch id { calm [] with error := some 1 }) = some s ∧
      s.trace = [.status 0 .running none, .abortTask 0, .status 0 .aborted (some .aborted),
        .status 1 .running none] ∧
      OnlyItsTask s := by
  have trace : (run (only step fun s e => ¬PassesOn s e) (start true fun _ => .empty)
      (([1, 2, 2, 3].map fun id => .dispatch id (calm (twoTasks "New".toList))) ++
        abortFirst :: .dispatch 4 (calm []) :: [5, 6, 7, 7, 8, 9, 9].map fun id =>
          .dispatch id { calm [] with error := some 1 })).map AppData.trace =
      some [.status 0 .running none, .abortTask 0, .status 0 .aborted (some .aborted),
        .status 1 .running none] := by
    decide +kernel
  obtain ⟨s, held, trace⟩ := Option.map_eq_some_iff.mp trace
  have ran := run_of_only held
  exact ⟨s, ran, trace, (task_abort_contained_iff ran).mpr held _ [] s (by simp) ran⟩

/-- An abort that comes after the final status of its task, but before
`task_handler` goes on, hits the next task. -/
theorem task_abort_hits_next :
    ∃ s, run step (start true fun _ => .empty)
        (packageFails (twoTasks "New".toList) ++
          abortFirst :: [8, 9, 9, 9, 9].map fun id => .dispatch id (calm [])) = some s ∧
      s.trace = [.status 0 .running none, .status 0 .aborted (some (.operation 1)), .abortTask 0,
        .skipped 1, .status 1 .aborted (some .aborted)] ∧
      ¬OnlyItsTask s := by
  have trace : (run step (start true fun _ => .empty)
      (packageFails (twoTasks "New".toList) ++
        abortFirst :: [8, 9, 9, 9, 9].map fun id => .dispatch id (calm []))).map AppData.trace =
      some [.status 0 .running none, .status 0 .aborted (some (.operation 1)), .abortTask 0,
        .skipped 1, .status 1 .aborted (some .aborted)] := by
    decide +kernel
  obtain ⟨s, ran, trace⟩ := Option.map_eq_some_iff.mp trace
  refine ⟨s, ran, trace, ?_⟩
  rintro ⟨-, skipped, -⟩
  rcases skipped 1 (by simp [trace]) with own | ⟨current, -, whole⟩
  · simp [trace] at own
  · simp [trace] at whole

end
end Restraint.TaskAbort

import Restraint.JobEnd

/-! The lab watchdog of a recipe. `new_recipe_data` and `watchdog_cb` set the timer, and only
`watchdog_cb` removes it again: `recipe_finish` leaves it attached to the loop, which goes on for
the other recipes. What a late timeout does is followed through the loop: it sets an error where
none is set, and that changes the exit code. Other events of a recipe that has ended find nothing to
change. -/
namespace Restraint.LabWatchdog
open CString (Text)
open Transition
open Restraint.Client ClientLoop ClientLoopProofs
open Restraint.JobEnd (twoRecipes status line)

/-- The recipe has ended, and all its tasks are Completed with passing results. -/
structure Done (s : AppData) (id : Text) : Prop where
  finished : (s.recipes id).connection = .finished
  completed : ∀ task ∈ (s.recipes id).data.tasks, task.status = "Completed".toList ∧ passed task

/-- No later event of the recipe sets the error or changes the exit code. -/
def Harmless (s : AppData) (id : Text) : Prop :=
  ∀ es t e u, run step s es = some t → step t e = some u → subject e = some id →
    u.error = t.error ∧ exitCode u = exitCode t

/-- While there is no error, every recipe has its timer. -/
def Primed (s : AppData) : Prop :=
  s.error = none → ∀ id ∈ s.ids, (s.recipes id).data.watchdog.isSome

variable {job : Job} {s t : AppData} {e : Event} {es : List Event} {id : Text} {error : GError}

private theorem orElse_eq_none {first second : Option GError} (none : (first <|> second) = none) :
    first = Option.none := by
  cases first with
  | none => rfl
  | some error => cases none

/-- A step may add an error behind the one that is held. -/
theorem step_error (taken : step s e = some t) : ∃ added, t.error = (s.error <|> added) := by
  have kept : ∃ added : Option GError, s.error = (s.error <|> added) := ⟨none, by simp⟩
  obtain ⟨-, -, took⟩ := step_eq_some.mp taken
  cases e with
  | connect id =>
    cases took
    exact kept
  | message id line =>
    obtain ⟨data, -, rfl⟩ := handleLine_eq_some took
    exact kept
  | finish id error =>
    cases took
    unfold remoteProcessFinish
    split
    · exact kept
    · rw [recipeFinish_eq]
      dsimp only
      split
      · exact ⟨error, rfl⟩
      · exact ⟨error <|> some resultError, by cases s.error <;> simp⟩
  | watchdogTimeout id =>
    cases took
    exact ⟨some (watchdogError (s.recipes id)), rfl⟩
  | quit =>
    cases took
    exact kept

/-- An error is never taken away. -/
theorem step_no_error (taken : step s e = some t) (none : t.error = none) : s.error = Option.none := by
  obtain ⟨added, after⟩ := step_error taken
  rw [after] at none
  exact orElse_eq_none none

/-- The first error stays. -/
theorem step_keeps_error (taken : step s e = some t) (held : s.error = some error) :
    t.error = some error := by
  obtain ⟨added, after⟩ := step_error taken
  rw [after, held]
  rfl

/-- Only an error takes a timer away. -/
theorem step_primed (primed : Primed s) (taken : step s e = some t) : Primed t := by
  intro none id member
  have before := primed (step_no_error taken none) id ((step_frame taken).1 ▸ member)
  have took := (step_eq_some.mp taken).2.2
  obtain ⟨recipe, after, moves⟩ := step_moves taken id
  rw [after]
  cases moves with
  | message handled => exact handled.watchdog before
  | apart | connect | reconnect | finish => exact before
  | expire =>
    cases took
    simp [watchdogTimeoutCb] at none

private theorem start_primed : Primed job.start := fun _ _ _ => rfl

/-- The only event that a recipe still has when it has ended. -/
theorem finished_event (finished : (s.recipes id).connection = .finished) (enabled : Enabled s e)
    (about : subject e = some id) : e = .watchdogTimeout id := by
  cases e with
  | connect id' =>
    cases about
    simp [Enabled, finished] at enabled
  | message id' line =>
    cases about
    simp [Enabled, finished] at enabled
  | finish id' error =>
    cases about
    simp [Enabled, finished] at enabled
  | watchdogTimeout id' =>
    cases about
    rfl
  | quit => cases about

private theorem step_finished (finished : (s.recipes id).connection = .finished)
    (taken : step s e = some t) :
    (t.recipes id).connection = .finished := by
  by_cases about : subject e = some id
  · obtain ⟨-, enabled, took⟩ := step_eq_some.mp taken
    cases finished_event finished enabled about
    cases took
    rw [watchdogTimeoutCb, setRecipe_self]
    exact finished
  · rw [(step_frame taken).2.2 id about]
    exact finished

/-- **The later events of a recipe that has ended with passing results are harmless if and
only if the client has an error already, or has left its main loop.** The only such event is
the timeout of the lab watchdog, whose timer is still attached. -/
theorem done_harmless (ran : run step job.start es = some s) (member : id ∈ job.ids)
    (done : Done s id) : (Harmless s id ↔ s.error ≠ none ∨ s.running = false) ∧
      ∀ es t e u, run step s es = some t → step t e = some u → subject e = some id →
        e = .watchdogTimeout id := by
  refine ⟨?_, ?_⟩
  swap
  · intro later t e u reached taken about
    have finished : (t.recipes id).connection = .finished :=
      run_keeps (I := fun s : AppData => (s.recipes id).connection = .finished)
        (fun _ _ _ => step_finished) done.finished reached
    exact finished_event finished (step_eq_some.mp taken).2.1 about
  constructor
  · intro harmless
    by_contra! spoiled
    obtain ⟨none, running⟩ := spoiled
    have primed : Primed s := run_keeps (fun _ _ _ => step_primed) start_primed ran
    have member : id ∈ s.ids := (run_frame ran).1 ▸ member
    have fires : step s (.watchdogTimeout id) = some (watchdogTimeoutCb s id) :=
      step_eq_some.mpr ⟨by simpa using running, ⟨member, primed none id member⟩, rfl⟩
    have same := (harmless [] s _ _ (run_nil.mpr rfl) fires rfl).1
    simp [watchdogTimeoutCb, none] at same
  · rintro (set | ended) later t e u reached taken about
    · obtain ⟨error, held⟩ := Option.ne_none_iff_exists'.mp set
      have before : t.error = some error :=
        run_keeps (I := fun s : AppData => s.error = some error)
          (fun _ _ _ held taken => step_keeps_error taken held) held reached
      have same : u.error = t.error := (step_keeps_error taken before).trans before.symm
      exact ⟨same, by rw [exitCode, exitCode, same]⟩
    · -- the main loop dispatches nothing any more
      have stopped : t.running = false := by
        cases later with
        | nil => exact run_nil.mp reached ▸ ended
        | cons first rest =>
          obtain ⟨next, went, -⟩ := run_cons.mp reached
          rw [(step_eq_some.mp went).1] at ended
          cases ended
      rw [(step_eq_some.mp taken).1] at stopped
      cases stopped

/-- The first recipe passes while the second one is running. -/
def firstPassed : List Event :=
  [.connect "1".toList, .connect "2".toList, status "2" "Running", status "1" "Running",
    .message "1".toList (line "/recipes/1/tasks/1/results/" "result" "PASS"), status "1" "Completed",
    .finish "1".toList none]

/-- What the tests below read of a state. -/
def seen (s : AppData) : Connection × List (Text × Bool) × Option GError × Bool :=
  ((s.recipes "1".toList).connection,
    (s.recipes "1".toList).data.tasks.map fun task => (task.status, passed task), s.error, s.running)

private theorem firstPassed_seen : (run step (twoRecipes 0).start firstPassed).map seen =
    some (.finished, [("Completed".toList, true)], none, true) := by decide +kernel

private theorem done_of_seen {error : Option GError} {running : Bool}
    (here : seen s = (.finished, [("Completed".toList, true)], error, running)) :
    Done s "1".toList ∧ s.error = error ∧ s.running = running := by
  obtain ⟨connection, tasks, errors, runs⟩ := by simpa only [seen, Prod.mk.injEq] using here
  refine ⟨⟨connection, fun task member => ?_⟩, errors, runs⟩
  have entry := List.mem_map_of_mem (f := fun task => (task.status, passed task)) member
  rw [tasks, List.mem_singleton] at entry
  exact Prod.mk.inj entry

/-- The first recipe has passed; the client is still there for the second one, and the timer of
the first one makes it fail. -/
theorem done_not_harmless : ∃ s, run step (twoRecipes 0).start firstPassed = some s ∧
    Done s "1".toList ∧ ¬Harmless s "1".toList := by
  obtain ⟨s, ran, here⟩ := Option.map_eq_some_iff.mp firstPassed_seen
  obtain ⟨done, error, running⟩ := done_of_seen here
  refine ⟨s, ran, done, fun harmless => ?_⟩
  have fires : ((run step (twoRecipes 0).start (firstPassed ++ [.watchdogTimeout "1".toList])).map
      fun t => t.error.isSome) = some true := by decide +kernel
  obtain ⟨t, whole, set⟩ := Option.map_eq_some_iff.mp fires
  obtain ⟨s', reached, last⟩ := run_append.mp whole
  cases ran.symm.trans reached
  obtain ⟨t', taken, rest⟩ := run_cons.mp last
  cases run_nil.mp rest
  have same := (harmless [] s _ _ (run_nil.mpr rfl) taken rfl).1
  rw [same, error] at set
  cases set

/-- Once the second recipe has failed, the timer of the first one changes nothing. -/
theorem done_harmless_failed : ∃ s, run step (twoRecipes 0).start
    (firstPassed ++ [.finish "2".toList none]) = some s ∧ Harmless s "1".toList := by
  have failed : (run step (twoRecipes 0).start (firstPassed ++ [.finish "2".toList none])).map seen =
      some (.finished, [("Completed".toList, true)], some resultError, true) := by decide +kernel
  obtain ⟨s, ran, here⟩ := Option.map_eq_some_iff.mp failed
  obtain ⟨done, error, -⟩ := done_of_seen here
  exact ⟨s, ran, (done_harmless ran (by decide) done).1.mpr (.inl (by simp [error]))⟩

end Restraint.LabWatchdog

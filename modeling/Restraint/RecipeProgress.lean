import Restraint.ActivationProofs
import Restraint.TaskStrides

/-! What is left to move a recipe on. `recipe_handler` stays until the tasks run; from then on each
step of the task machine has to start the next one. A source that stays attached forever would count
as progress as well, so what is outstanding is said more sharply: something of the recipe or of its
current task, and none of the requests. -/
namespace Restraint.RecipeProgress
open Transition
open Restraint.Harness Restraint.TaskHandler Restraint.TaskMachine Restraint.TaskRefinement
open Restraint.TaskSteps

/-- The sources that move on a recipe in this state. While the tasks run,
`recipe_handler` only leaves. -/
def moves : RecipeSetupState → Source → Bool
  | .running => activates
  | _ => handles

/-- Something is outstanding, as long as `RECIPE_COMPLETE` was not reached. -/
def Outstanding (s : AppData) : Prop :=
  s.state = .complete ∨ s.state = .idle ∨ s.loop.kinds (moves s.state) ≠ []

/-- There is a time to post for a task in `TASK_WATCHDOG`. -/
def posts (task : Task) : Bool :=
  task.state ≠ .watchdog || task.started || (task.remainingTime + EWD_TIME) % 2 ^ 64 ≠ 0

/-- `task_handler` has a current task, with a time to post if it comes to that. -/
def starts (s : AppData) (e : Server.Event) : Prop :=
  dispatched s e = some .taskHandler → s.tasks.head?.any posts = true

instance (s : AppData) (e : Server.Event) : Decidable (starts s e) := by
  unfold starts
  infer_instance

/-- What is attached, by the state of the recipe. -/
def Going (m : Snapshot) : Prop :=
  match m.state with
  | .running => m.activations ≠ []
  | .complete | .idle => m.activations = []
  | _ => m.handlers ≠ [] ∧ m.activations = []

section
variable {m n : Snapshot} {did : Option Effect} {source : Option Source} {active : Source}
  {e : Server.Event} {w : World}
  {task task' : Task} {next : Option Source} {config config' : CString.Text → Section}
  {cancelled : Bool} {aborted : StateAborted}

theorem Going.outstanding {s : AppData} (going : Going (snapshot s)) : Outstanding s := by
  unfold Going at going
  unfold Outstanding
  split at going
  case h_1 running =>
    have running : s.state = .running := running
    exact .inr (.inr (by rw [running]; exact going))
  case h_2 ended => exact .inl ended
  case h_3 ended => exact .inr (.inl ended)
  case h_4 notRunning _ _ =>
    have other : moves s.state = handles := by
      unfold moves
      split
      · exact absurd ‹s.state = .running› notRunning
      · rfl
    exact .inr (.inr (by rw [other]; exact going.1))

/-- With an activation the tasks run. -/
theorem Going.running (going : Going m) (turn : m.activations ≠ []) : m.state = .running := by
  unfold Going at going
  split at going
  · assumption
  · exact absurd going turn
  · exact absurd going turn
  · exact absurd going.2 turn

/-- Before the tasks run there is `recipe_handler` only. -/
theorem Going.handled (going : Going m) (before : early m.state = true ∨ m.state = .run) :
    m.handlers ≠ [] ∧ m.activations = [] := by
  unfold Going at going
  split at going
  case h_4 => exact going
  all_goals
    rename_i state
    rw [state] at before
    rcases before with before | before <;> cases before

private theorem going_early (before : early m.state = true) (handlers : m.handlers ≠ [])
    (none : m.activations = []) : Going m := by
  unfold Going
  split
  case h_4 => exact ⟨handlers, none⟩
  all_goals
    rename_i state
    rw [state] at before
    cases before

private theorem going_running (running : m.state = .running) (turn : m.activations ≠ []) : Going m := by
  simpa only [Going, running] using turn

/-- Going on depends on the state and on what is attached. -/
theorem Going.same (going : Going m) (state : n.state = m.state)
    (activations : n.activations = m.activations) (handlers : n.handlers = m.handlers) : Going n := by
  unfold Going
  rw [state, activations, handlers]
  exact going

/-- Only a watchdog that is not posted attaches nothing. -/
theorem deed_starts (deed : Deed config cancelled aborted w did active task task' config' next)
    (permitted : active = .taskHandler → posts task = true) : next.toList ≠ [] := by
  cases deed with
  | post watchdog new =>
    have posted := permitted rfl
    simp only [posts, watchdog, new] at posted
    have seconds : (task.remainingTime + EWD_TIME) % 2 ^ 64 ≠ 0 := by simpa using posted
    rw [if_neg seconds]
    exact List.cons_ne_nil _ _
  | _ => simp

/-- A stride that starts what comes next keeps the recipe going. -/
theorem stride_going (going : Going m) (stride : Stride source e did m n)
    (permitted : source = some .taskHandler → m.tasks.head?.any posts = true) : Going n := by
  cases stride with
  | still => exact going
  | retrieve before after =>
    obtain ⟨handlers, none⟩ := going.handled (.inl before)
    rcases after with after | rfl
    · exact going_early after handlers none
    · exact none
  | parse event parsed recipe => exact going.handled (.inl (by rw [parsed]; rfl))
  | launch ready => exact List.cons_ne_nil _ _
  | work event here current turn deed =>
    refine going_running (going.running (by simp [turn])) (deed_starts deed ?_)
    rintro rfl
    simpa [current] using permitted here
  | report event here current turn completed =>
    exact going_running (going.running (by simp [turn])) (List.cons_ne_nil _ _)
  | advance here current turn done =>
    exact going_running (going.running (by simp [turn])) (by simp [turn])
  | finish => rfl
  | stop none here =>
    have started := permitted here
    simp [none] at started
  | results => exact going.same rfl rfl rfl
  | adjust => exact going.same rfl rfl rfl
  | abort => exact going.same rfl rfl rfl
  | leave running => simpa only [Going, running] using going
  | close complete => simpa only [Going, complete] using going

end

variable {s t : AppData} {e : Server.Event}

/-- A step of `task_handler` that starts nothing leaves nothing outstanding. -/
theorem unstarted_breaks (sound : Sound (view s)) (going : Going (snapshot s))
    (forbidden : ¬starts s e) (stepped : Server.step s e = some t) : ¬Outstanding t := by
  obtain ⟨here, unstarted⟩ := Classical.not_imp.mp forbidden
  cases e with
  | request => cases here
  | dispatch id w =>
    have found : s.loop.find? id = some .taskHandler := here
    have only := activation sound found rfl
    have gone := MainLoop.kinds_remove_only found rfl only
    have running : s.state = .running := going.running (by simp [snapshot, only])
    suffices left : t.state = s.state ∧ t.loop = s.loop.remove id by
      simp [Outstanding, left, running, moves, gone]
    simp only [Server.step] at stepped
    split at stepped
    · cases stepped
    simp only [found, Option.bind_some, Server.dispatch] at stepped
    cases current : s.tasks with
    | nil =>
      simp only [taskHandler, current] at stepped
      cases stepped
      exact ⟨rfl, rfl⟩
    | cons task rest =>
      rw [current] at unstarted
      obtain ⟨⟨watchdog, new⟩, zero⟩ : (task.state = .watchdog ∧ task.started = false) ∧
          (task.remainingTime + EWD_TIME) % 2 ^ 64 = 0 := by simpa [posts] using unstarted
      simp only [taskHandler, current, watchdog, new, restraintTaskWatchdog, zero] at stepped
      cases stepped
      exact ⟨rfl, rfl⟩

private theorem start_going {stdin : Bool} {config : CString.Text → Section} :
    Going (snapshot (Server.start stdin config)) := by
  cases stdin <;> simp [Going, snapshot, Server.start, handles, activates]

/-- **Something is outstanding until the recipe is complete, exactly as long as
`task_handler` has a current task and a time to post for it.** -/
theorem outstanding_until_complete {stdin : Bool} {config : CString.Text → Section}
    {events : List Server.Event}
    (ran : run Server.step (Server.start stdin config) events = some s) :
    (∀ before after middle, events = before ++ after →
        run Server.step (Server.start stdin config) before = some middle → Outstanding middle) ↔
      run (only Server.step starts) (Server.start stdin config) events = some s := by
  refine always_iff_only (I := fun s => Sound (view s) ∧ Going (snapshot s))
    (fun s invariant => invariant.2.outstanding) ⟨start_sound, start_going⟩ ?_ ?_ ran
  · rintro s e t ⟨sound, going⟩ permitted stepped
    exact ⟨turn_sound sound (step_turn sound stepped),
      stride_going going (step_strides sound stepped) permitted⟩
  · rintro s e t ⟨sound, going⟩ forbidden stepped
    exact unstarted_breaks sound going forbidden stepped

open ActivationProofs (calm twoTasks)

/-- The recipe is read from standard input, and its first task is being fetched. -/
theorem outstanding_until_complete_fetching :
    ∃ s, run Server.step (Server.start true fun _ => .empty)
        ([1, 2, 2, 3, 4, 5].map fun id => .dispatch id (calm (twoTasks "New".toList))) = some s ∧
      s.state = .running ∧ s.loop.kinds activates = [.fetchPackage] ∧ Outstanding s := by
  have restricted : (run (only Server.step starts) (Server.start true fun _ => .empty)
      ([1, 2, 2, 3, 4, 5].map fun id => .dispatch id (calm (twoTasks "New".toList)))).map (fun s =>
      (s.state, s.loop.kinds activates)) = some (.running, [.fetchPackage]) := by
    decide +kernel
  obtain ⟨s, restricted, shown⟩ := Option.map_eq_some_iff.mp restricted
  have ran := run_of_only restricted
  have always := (outstanding_until_complete ran).mpr restricted
  simp only [Prod.mk.injEq] at shown
  exact ⟨s, ran, shown.1, shown.2, always _ [] s (List.append_nil _).symm ran⟩

/-- A recipe without tasks is never complete. -/
theorem recipe_without_tasks_stops :
    ∃ s, run Server.step (Server.start true fun _ => .empty)
        ([1, 2, 2, 2, 3].map fun id => .dispatch id (calm [])) = some s ∧
      s.state = .running ∧ s.loop.sources = [] ∧ ¬Outstanding s := by
  have stopped : (run Server.step (Server.start true fun _ => .empty)
      ([1, 2, 2, 2, 3].map fun id => .dispatch id (calm []))).map (fun s =>
      (s.state, s.loop.sources)) = some (.running, []) := by
    decide +kernel
  obtain ⟨s, ran, shown⟩ := Option.map_eq_some_iff.mp stopped
  obtain ⟨running, none⟩ := Prod.mk.inj shown
  refine ⟨s, ran, running, none, ?_⟩
  simp [Outstanding, running, MainLoop.kinds, none]

end Restraint.RecipeProgress

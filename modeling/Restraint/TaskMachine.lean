import Restraint.Harness

/-! What the task machine is for, apart from how `task.c` does it: the tasks of a
recipe are taken one after the other, one activation goes from step to step, and
each task that was not finished before ends with one final status. The daemon
is compared with this machine step by step. -/
namespace Restraint.TaskMachine
open Restraint.Harness

/-- The part of a task the machine is about. -/
structure Life where
  state : TaskSetupState
  error : Option Error
  finished : Bool
  deriving DecidableEq

/-- The sources that activate the task machine or will do so. -/
def activates : Source → Bool
  | .taskHandler | .fetchRetry | .refreshRoleRetry | .fetch | .fetchPackage | .metadata
  | .roleRefresh | .dependencies | .entryPoint | .plugins | .taskMessage => true
  | _ => false

/-- The sources that bring the recipe. -/
def fetches : Source → Bool
  | .recipeFetch | .recipeFetchRetry => true
  | _ => false

structure Machine where
  recipe : RecipeSetupState
  /-- Which of the tasks done with were finished before. -/
  past : List Bool
  tasks : List Life
  cancelled : Bool
  aborted : StateAborted
  activations : List Source
  fetching : List Source
  trace : List Observed
  deriving DecidableEq

/-- The states in which something is done for a task. -/
def working : TaskSetupState → Bool
  | .fetch | .metadataParse | .refreshRoles | .env | .watchdog | .dependencies | .run => true
  | _ => false

/-- The recipe is not there yet. -/
def early : RecipeSetupState → Bool
  | .fetch | .fetching | .parse => true
  | _ => false

/-- The states a task can be in while a source is there. -/
def Fits : Source → TaskSetupState → Prop
  | .fetch, state | .fetchRetry, state | .fetchPackage, state => state = .fetch
  | .metadata, state => state = .metadataParse
  | .roleRefresh, state | .refreshRoleRetry, state => state = .refreshRoles
  | .dependencies, state | .entryPoint, state => state = .run
  | .plugins, state => state = .complete
  | .taskMessage, state => state = .fetch ∨ state = .dependencies ∨ state = .next
  | _, _ => True

/-- A step of a task that leaves it the current one and sends no final status;
`reads` is whether its section of the config file can be read. -/
inductive Move (cancelled : Bool) (aborted : StateAborted) (reads : Bool) : Life → Life → Prop where
  | wait : Move cancelled aborted reads life life
  | pass (idle : life.state = .idle) (done : life.finished = true) (read : reads = true) :
      Move cancelled aborted reads life { life with state := .next }
  | begin (idle : life.state = .idle) (due : life.finished = false) (live : cancelled = false)
      (busy : working state = true) : Move cancelled aborted reads life { life with state := state }
  | giveUp (idle : life.state = .idle) (due : life.finished = false) :
      Move cancelled aborted reads life { life with state := .complete }
  | unread (idle : life.state = .idle) (unreadable : reads = false) (failed : error.isSome)
      (own : error = life.error ∨ error ≠ some .aborted) :
      Move cancelled aborted reads life { life with error := error, state := .complete }
  | work (before : working life.state = true) (after : working state = true ∨ state = .complete)
      (own : error = life.error ∨ error ≠ some .aborted) :
      Move cancelled aborted reads life { life with error := error, state := state }
  | complete (before : life.state = .complete) :
      Move cancelled aborted reads life
        { life with
          error := if cancelled ∧ aborted ≠ .none then some .aborted else life.error
          state := .completed }

/-- What may be observed of the current task besides its final status. -/
inductive Noted (place : Nat) (cancelled : Bool) (state : TaskSetupState) : Observed → Prop where
  | running : Noted place cancelled state (.status place .running none)
  | result (pass : Bool) : Noted place cancelled state (.result place pass)
  | entryPoint (run : state = .run) (live : cancelled = false) :
      Noted place cancelled state (.entryPoint place)
  | skipped (stopped : cancelled = true) : Noted place cancelled state (.skipped place)

/-- What is observed of an abort. -/
def noticed (m : Machine) : StateAborted → Observed
  | .task => .abortTask m.past.length
  | _ => .abortRecipe m.past.length

/-- The final status of a task with this error. -/
def verdict (error : Option Error) : Status := if error.isSome then .aborted else .completed

/-- What a step depends on besides the machine. -/
structure Act where
  /-- The state of the current task, if this is a step of `task_handler`. -/
  handled : Option TaskSetupState
  reads : Bool

/-- A step of the machine. -/
inductive Turn (act : Act) : Machine → Machine → Prop where
  | still : Turn act m m
  | retrieve (before : early m.recipe = true) (after : early state = true ∨ state = .complete)
      (one : fetching = [] ∨ state = .fetching ∧ fetching.length = 1) :
      Turn act m { m with recipe := state, fetching := fetching }
  | parse (parsed : m.recipe = .parse)
      (fresh : ∀ life ∈ lives, life.state = .idle ∧ life.error = none) :
      Turn act m { m with recipe := .run, tasks := lives }
  | launch (ready : m.recipe = .run) :
      Turn act m { m with recipe := .running, activations := [.taskHandler] }
  | work {sources : Option Source} (current : m.tasks = life :: rest) (turn : m.activations = [source])
      (move : Move m.cancelled m.aborted act.reads life life')
      (fits : ∀ source ∈ sources, Fits source life'.state)
      (noted : ∀ observed ∈ notes, Noted m.past.length m.cancelled life.state observed) :
      Turn act m
        { m with
          tasks := life' :: rest
          activations := sources.toList
          trace := m.trace ++ notes }
  | report (current : m.tasks = life :: rest) (turn : m.activations = [.taskHandler])
      (completed : life.state = .completed) (step : act.handled = some .completed) :
      Turn act m
        { m with
          tasks := { life with error := none, state := .next } :: rest
          activations := [.taskMessage]
          cancelled := m.cancelled && m.aborted ≠ .task
          aborted := if m.cancelled ∧ m.aborted = .task then .none else m.aborted
          trace := m.trace ++ [.status m.past.length (verdict life.error) life.error] }
  | advance (current : m.tasks = life :: next :: later) (turn : m.activations = [.taskHandler])
      (done : life.state = .next) (step : act.handled = some .next) :
      Turn act m
        { m with
          past := m.past ++ [life.finished]
          tasks := { next with state := .idle } :: later }
  | finish (current : m.tasks = [life]) (turn : m.activations = [.taskHandler])
      (done : life.state = .next) (step : act.handled = some .next) :
      Turn act m
        { m with
          recipe := .complete
          past := m.past ++ [life.finished]
          tasks := []
          aborted := .none
          activations := []
          trace := m.trace ++ [.recipeComplete] }
  | stop (none : m.tasks = []) : Turn act m { m with activations := [] }
  | abort (current : m.tasks = life :: rest) (level : aborted ≠ .none) :
      Turn act m
        { m with
          cancelled := true
          aborted := aborted
          trace := m.trace ++ [noticed m aborted] }
  | close (complete : m.recipe = .complete) :
      Turn act m { m with recipe := .idle, cancelled := false }

/-- What holds of every machine that was started: one activation at most, which
fits the current task, and no task before the recipe is there or after it is
over. -/
structure Sound (m : Machine) : Prop where
  single : m.activations.length ≤ 1
  fits : ∀ life ∈ m.tasks.head?, ∀ source ∈ m.activations, Fits source life.state
  empty : m.tasks = [] → ∀ source ∈ m.activations, source = .taskHandler
  alone : m.fetching.length ≤ 1
  retrieving : m.fetching ≠ [] → m.recipe = .fetching
  before : early m.recipe = true → m.tasks = [] ∧ m.past = [] ∧ m.activations = [] ∧ m.trace = []
  ready : m.recipe = .run → m.activations = [] ∧ m.past = [] ∧
    ∀ life ∈ m.tasks, life.state = .idle ∧ life.error = none
  ended : m.recipe = .complete ∨ m.recipe = .idle → m.tasks = []

section
variable {m n : Machine} {act : Act}

/-- With a current task the recipe is there, and it is not over. -/
theorem Sound.under_way (sound : Sound m) (current : m.tasks ≠ []) :
    early m.recipe = false ∧ m.recipe ≠ .complete ∧ m.recipe ≠ .idle := by
  refine ⟨?_, ?_, ?_⟩
  · cases here : early m.recipe with
    | false => rfl
    | true => exact absurd (sound.before here).1 current
  · exact fun here => current (sound.ended (.inl here))
  · exact fun here => current (sound.ended (.inr here))

/-- With an activation the tasks have been started. -/
theorem Sound.started (sound : Sound m) (turn : m.activations ≠ []) :
    early m.recipe = false ∧ m.recipe ≠ .run := by
  refine ⟨?_, fun here => turn (sound.ready here).1⟩
  cases here : early m.recipe with
  | false => rfl
  | true => exact absurd (sound.before here).2.2.1 turn

/-- A step that keeps a current task has to keep one activation that fits it. -/
theorem Sound.continued (sound : Sound m) (current : m.tasks ≠ []) (turn : m.activations ≠ [])
    (recipe : n.recipe = m.recipe) (fetching : n.fetching = m.fetching) (next : n.tasks ≠ [])
    (single : n.activations.length ≤ 1)
    (fits : ∀ life ∈ n.tasks.head?, ∀ source ∈ n.activations, Fits source life.state) :
    Sound n := by
  obtain ⟨there, notOver, notIdle⟩ := sound.under_way current
  have started := (sound.started turn).2
  refine ⟨single, fits, fun none => absurd none next, ?_, ?_, ?_, ?_, ?_⟩
  · exact fetching ▸ sound.alone
  · exact fetching ▸ recipe ▸ sound.retrieving
  · intro here
    rw [recipe, there] at here
    cases here
  · exact fun here => absurd (recipe ▸ here) started
  · rw [recipe]
    rintro (here | here)
    · exact absurd here notOver
    · exact absurd here notIdle

theorem turn_sound (sound : Sound m) (turn : Turn act m n) : Sound n := by
  cases turn with
  | still => exact sound
  | retrieve before after one =>
    obtain ⟨noTasks, noPast, noTurn, noTrace⟩ := sound.before before
    refine { sound with alone := ?_, retrieving := ?_, before := ?_, ready := ?_, ended := ?_ }
    · rcases one with rfl | ⟨-, one⟩
      · exact Nat.zero_le 1
      · exact Nat.le_of_eq one
    · intro some
      rcases one with rfl | ⟨here, -⟩
      · exact absurd rfl some
      · exact here
    · exact fun _ => ⟨noTasks, noPast, noTurn, noTrace⟩
    · intro here
      subst here
      rcases after with after | after <;> cases after
    · exact fun _ => noTasks
  | parse parsed fresh =>
    obtain ⟨-, noPast, noTurn, -⟩ := sound.before (by rw [parsed]; rfl)
    refine { sound with fits := ?_, empty := ?_, retrieving := ?_, before := ?_, ready := ?_, ended := ?_ }
    · simp [noTurn]
    · simp [noTurn]
    · intro some
      have here := sound.retrieving some
      rw [parsed] at here
      cases here
    · intro here; cases here
    · exact fun _ => ⟨noTurn, noPast, fresh⟩
    · rintro (here | here) <;> cases here
  | launch ready =>
    refine { sound with
      single := Nat.le_refl 1, fits := ?_, empty := ?_, retrieving := ?_, before := ?_
      ready := ?_, ended := ?_ }
    · simp [Fits]
    · simp
    · intro some
      have here := sound.retrieving some
      rw [ready] at here
      cases here
    · intro here; cases here
    · intro here; cases here
    · rintro (here | here) <;> cases here
  | work current turn move fits noted =>
    refine sound.continued (by simp [current]) (by simp [turn]) rfl rfl (by simp) ?_ ?_
    · exact Option.length_toList_le
    · simpa using fits
  | report current turn completed step =>
    refine sound.continued (by simp [current]) (by simp [turn]) rfl rfl (by simp) ?_ ?_
    · exact Nat.le_refl 1
    · simp [Fits]
  | advance current turn done step =>
    refine sound.continued (by simp [current]) (by simp [turn]) rfl rfl (by simp) ?_ ?_
    · exact sound.single
    · simp [turn, Fits]
  | finish current turn done step =>
    refine { sound with
      single := Nat.zero_le 1, fits := ?_, empty := ?_, retrieving := ?_, before := ?_
      ready := ?_, ended := fun _ => rfl }
    · simp
    · simp
    · intro some
      have here := (sound.started (by simp [turn])).1
      rw [sound.retrieving some] at here
      cases here
    · intro here; cases here
    · intro here; cases here
  | stop none =>
    refine { sound with
      single := Nat.zero_le 1, fits := ?_, empty := ?_, before := ?_, ready := ?_ }
    · simp
    · simp
    · intro here
      obtain ⟨noTasks, noPast, -, noTrace⟩ := sound.before here
      exact ⟨noTasks, noPast, rfl, noTrace⟩
    · exact fun here => ⟨rfl, (sound.ready here).2⟩
  | abort current level =>
    obtain ⟨there, -, -⟩ := sound.under_way (by simp [current])
    refine { sound with before := ?_ }
    intro here
    simp [there] at here
  | close complete =>
    refine { sound with retrieving := ?_, before := ?_, ready := ?_, ended := ?_ }
    · intro some
      have here := sound.retrieving some
      rw [complete] at here
      cases here
    · intro here; cases here
    · intro here; cases here
    · exact fun _ => sound.ended (.inl complete)

end
end Restraint.TaskMachine

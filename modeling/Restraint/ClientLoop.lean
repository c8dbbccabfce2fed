import Restraint.Client
import Restraint.Lib.Transition

/-! The client's main loop: the connections to the hosts of the recipes, the messages
that come over them, and the end of the job. What the recipes share is in `AppData`:
the error, the quit handler, and also whether the job has started and how often the
client has reconnected. The world chooses the order of the events. -/
namespace Restraint.ClientLoop
open CString (Text)
open Transition
open Restraint.Client

structure GError where
  domain : Text
  code : Int
  message : Text
  deriving DecidableEq

/-- Where a recipe stands with its remote process. -/
inductive Connection where
  /-- `run_recipe_handler` is attached to the loop. -/
  | waiting
  | connected
  /-- `recipe_finish` has run. -/
  | finished
  deriving DecidableEq

structure Recipe where
  recipeId : Int
  data : RecipeData
  cancelled : Bool
  connection : Connection

/-- The data that the recipes share. The fields `started` and `connRetries` of a recipe's own
data are not used here. -/
structure AppData where
  error : Option GError
  started : Bool
  connRetries : Nat
  maxRetries : Nat
  ids : List Text
  recipes : Text → Recipe
  /-- How often `quit_loop_handler` was attached to the loop. -/
  quits : Nat
  running : Bool

def AppData.setRecipe (s : AppData) (id : Text) (recipe : Recipe) : AppData :=
  { s with recipes := Function.update s.recipes id recipe }

/-- `RESTRAINT_ERROR`. -/
def restraintError : Text := "restraint-error-quark".toList

def watchdogError (recipe : Recipe) : GError where
  domain := restraintError
  code := 4
  message := ("Recipe " ++ toString recipe.recipeId ++ " exceeded lab watchdog timer").toList

def resultError : GError where
  domain := restraintError
  code := 10
  message := "One or more tasks failed".toList

/-- The exit code of `main` after the loop. -/
def exitCode (s : AppData) : Nat := if s.error = none then 0 else 1

def taskFinished (task : TaskNode) : Bool :=
  task.status = "Completed".toList || task.status = "Aborted".toList

/-- `tasks_finished` for the tasks of a recipe. -/
def tasksFinished (data : RecipeData) : Bool := data.tasks.all taskFinished

/-- `tasks_finished` for the tasks of the job. -/
def jobFinished (s : AppData) : Bool := s.ids.all fun id => tasksFinished (s.recipes id).data

/-- The task has ended before its recipe did. -/
def unended (task : TaskNode) : Bool :=
  task.status = "New".toList || task.status = "Running".toList

/-- A result that is no error for the job. -/
def passed (task : TaskNode) : Bool :=
  task.result = "PASS".toList || task.result = "SKIPPED".toList

/-- `recipe_finish` on the `<recipe>`. -/
def abortUnended (data : RecipeData) : RecipeData :=
  let abort (task : TaskNode) :=
    if unended task then { task with status := "Aborted".toList } else task
  { data with
    status := if data.tasks.any unended then "Aborted".toList else data.status
    tasks := data.tasks.map abort
    distinct := by
      have same : TaskNode.id ∘ abort = TaskNode.id := by
        funext task
        simp only [Function.comp_apply, abort]
        split <;> rfl
      rw [List.map_map, same]
      exact data.distinct }

/-- `recipe_finish`. -/
def recipeFinish (s : AppData) (id : Text) : AppData :=
  let recipe := s.recipes id
  let error := if recipe.data.tasks.all passed then s.error else s.error <|> some resultError
  let s := { s with error := error }.setRecipe id
    { recipe with data := abortUnended recipe.data, connection := .finished }
  if jobFinished s then { s with quits := s.quits + 1 } else s

/-- `remote_process_finish` decides to connect again. -/
def retries (s : AppData) (id : Text) : Bool :=
  s.started && !tasksFinished (s.recipes id).data && !(s.recipes id).cancelled &&
    decide (s.connRetries < s.maxRetries)

/-- `remote_process_finish`. -/
def remoteProcessFinish (s : AppData) (id : Text) (error : Option GError) : AppData :=
  if retries s id then
    { s with connRetries := s.connRetries + 1 }.setRecipe id
      { s.recipes id with connection := .waiting }
  else recipeFinish { s with error := s.error <|> error } id

/-- `run_recipe_handler`. -/
def runRecipeHandler (s : AppData) (id : Text) : AppData :=
  s.setRecipe id { s.recipes id with connection := .connected }

/-- `watchdog_timeout_cb`. -/
def watchdogTimeoutCb (s : AppData) (id : Text) : AppData :=
  let recipe := s.recipes id
  { s with error := s.error <|> some (watchdogError recipe) }.setRecipe id
    { recipe with data := { recipe.data with watchdog := none }, cancelled := true }

/-- `handle_message` for a line of a recipe; the callbacks set what the recipes share. -/
def handleLine (s : AppData) (id : Text) (line : Line) : Option AppData :=
  let recipe := s.recipes id
  (handleMessage { recipe.data with started := s.started, connRetries := s.connRetries } line).map
    fun data =>
      { s with started := data.started, connRetries := data.connRetries }.setRecipe id
        { recipe with data := data }

inductive Event where
  | connect (id : Text)
  | message (id : Text) (line : Line)
  /-- The remote process ends, maybe with an error. -/
  | finish (id : Text) (error : Option GError)
  | watchdogTimeout (id : Text)
  /-- `quit_loop_handler`. -/
  | quit

/-- The source of the event is attached to the loop. -/
def Enabled (s : AppData) : Event → Prop
  | .connect id => id ∈ s.ids ∧ (s.recipes id).connection = .waiting
  | .message id _ => id ∈ s.ids ∧ (s.recipes id).connection = .connected
  | .finish id _ => id ∈ s.ids ∧ (s.recipes id).connection = .connected
  | .watchdogTimeout id => id ∈ s.ids ∧ (s.recipes id).data.watchdog.isSome
  | .quit => 0 < s.quits

instance (s : AppData) : (e : Event) → Decidable (Enabled s e)
  | .connect _ | .message _ _ | .finish _ _ | .watchdogTimeout _ => inferInstanceAs (Decidable (_ ∧ _))
  | .quit => inferInstanceAs (Decidable (_ < _))

/-- What the callback of the event does; `none` when it crashes. -/
def dispatch (s : AppData) : Event → Option AppData
  | .connect id => some (runRecipeHandler s id)
  | .message id line => handleLine s id line
  | .finish id error => some (remoteProcessFinish s id error)
  | .watchdogTimeout id => some (watchdogTimeoutCb s id)
  | .quit => some { s with running := false }

def step : Step AppData Event := fun s e =>
  if s.running ∧ Enabled s e then dispatch s e else none

/-- A job for which `main` enters the loop. `parse_new_job` refuses a recipe without tasks;
the tasks are numbered, and `put_doc` writes a task that is Aborted in a recipe that is, too. -/
structure Job where
  maxRetries : Nat
  ids : List Text
  distinct : ids.Nodup
  recipeId : Text → Int
  recipe : Text → RecipeData
  tasks : ∀ id ∈ ids, (recipe id).tasks ≠ []
  numbered : ∀ id ∈ ids, ∀ task ∈ (recipe id).tasks,
    task.id ≠ [] ∧ ∀ c ∈ task.id, c.isDigit = true
  statuses : ∀ id ∈ ids, ∀ task ∈ (recipe id).tasks, unended task ∨ taskFinished task
  aborted : ∀ id ∈ ids, ∀ task ∈ (recipe id).tasks, task.status = "Aborted".toList →
    (recipe id).status = "Aborted".toList
  unfinished : ∃ id ∈ ids, ∃ task ∈ (recipe id).tasks, taskFinished task = false

/-- The client when it enters the loop: `recipe_init` has attached `run_recipe_handler` for
every recipe, and `new_recipe_data` gives the recipe five minutes to get going. -/
def Job.start (job : Job) : AppData where
  error := none
  started := false
  connRetries := 0
  maxRetries := job.maxRetries
  ids := job.ids
  recipes := fun id =>
    { recipeId := job.recipeId id
      data := { job.recipe id with watchdog := some 300 }
      cancelled := false
      connection := .waiting }
  quits := 0
  running := true

end Restraint.ClientLoop

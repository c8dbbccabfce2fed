import Restraint.Lib.CString
import Restraint.Lib.MainLoop
import Mathlib.Logic.Function.Basic
import Mathlib.Algebra.Ring.Int.Defs
import Mathlib.Algebra.Ring.Nat

/-! The state of the daemon while it runs a recipe: `AppData` of `server.h` and
`Task` of `task.h`, with what the daemon has attached to its main loop or waits
for. The texts of messages, the environment of a task and its logs are left out,
as are the fields that no function modelled here reads. -/
namespace Restraint.Harness
open CString

/-- `TaskSetupState`. -/
inductive TaskSetupState where
  | idle
  | fetch
  | metadataParse
  | refreshRoles
  | env
  | watchdog
  | dependencies
  | run
  | aborted
  | cancel
  | cancelled
  | next
  | complete
  | completed
  deriving DecidableEq

/-- `RecipeSetupState`. -/
inductive RecipeSetupState where
  | idle
  | fetch
  | fetching
  | parse
  | run
  | running
  | fail
  | complete
  deriving DecidableEq

/-- `StateAborted`. -/
inductive StateAborted where
  | none
  | recipe
  | task
  deriving DecidableEq

/-- A `GError` of a task: what an operation called back with, or an error of the
harness itself. -/
inductive Error where
  | operation (code : Nat)
  | config
  | scheme
  | roles
  | returnCode (code : Int)
  | watchdog
  | aborted
  deriving DecidableEq

/-- `TaskFetchMethod`, with the scheme of the URL. -/
inductive TaskFetchMethod where
  | installPackage
  | unpack (scheme : String)
  deriving DecidableEq

/-- `MetaData`. -/
structure Metadata where
  maxTime : Int
  nolocalwatchdog : Bool
  deriving DecidableEq

structure Task where
  taskId : Text
  fetchMethod : TaskFetchMethod
  /-- The last of `KILLTIMEOVERRIDE` and `RSTRNT_MAX_TIME` among the parameters
  that is a time. -/
  maxTimeParam : Option Nat
  started : Bool
  finished : Bool
  resultsReported : Bool
  localwatchdog : Bool
  rhtsCompat : Bool
  remainingTime : Int
  timeChged : Option Nat
  /-- `env` was built. -/
  env : Bool
  state : TaskSetupState
  error : Option Error
  reboots : Nat
  metadata : Option Metadata
  deriving DecidableEq

/-- A `<task>` of the recipe. -/
structure TaskXml where
  id : Text
  fetchMethod : TaskFetchMethod
  maxTimeParam : Option Nat
  status : Text
  deriving DecidableEq

/-- `parse_task`. A task that was finished before is started too. -/
def parseTask (xml : TaskXml) : Task :=
  let finished := xml.status = "Completed".toList ∨ xml.status = "Aborted".toList ∨
    xml.status = "Cancelled".toList
  { taskId := xml.id
    fetchMethod := xml.fetchMethod
    maxTimeParam := xml.maxTimeParam
    started := finished
    finished := finished
    resultsReported := false
    localwatchdog := false
    rhtsCompat := false
    remainingTime := -1
    timeChged := none
    env := false
    state := .idle
    error := none
    reboots := 0
    metadata := none }

/-- The section of a task in the config file; a missing key reads as 0. -/
structure Section where
  started : Bool
  localwatchdog : Bool
  reboots : Nat
  remainingTime : Int
  deriving DecidableEq

def Section.empty : Section := ⟨false, false, 0, 0⟩

/-- What is attached to the main loop, or called back when it is over. -/
inductive Source where
  | recipeHandler
  /-- The recipe is being fetched; calls `fetch_completed`. -/
  | recipeFetch
  /-- `fetch_retry` of `recipe.c`. -/
  | recipeFetchRetry
  | taskHandler
  /-- `fetch_retry` of `task.c`. -/
  | fetchRetry
  | refreshRoleRetry
  /-- `restraint_fetch_git` or `restraint_fetch_uri`; calls `fetch_finish_callback`. -/
  | fetch
  /-- `rstrnt-package`; calls `task_handler_callback`. -/
  | fetchPackage
  /-- `restraint_get_metadata`; calls `metadata_finish_cb`. -/
  | metadata
  /-- The recipe is fetched again; calls `recipe_fetch_complete`. -/
  | roleRefresh
  /-- `restraint_install_dependencies`; calls `dependency_finish_cb`. -/
  | dependencies
  /-- The entry point runs; calls `task_finish_callback`. -/
  | entryPoint
  /-- The completed plugins run; calls `task_finish_plugins_callback`. -/
  | plugins
  /-- A status or a watchdog message; calls `task_message_complete`. -/
  | taskMessage
  /-- A request is forwarded; calls `server_msg_complete`. -/
  | serverMessage (results noPlugins : Bool)
  /-- The report plugins run; calls `plugin_finish_callback`. -/
  | reportPlugins
  deriving DecidableEq

/-- The statuses `task_handler` reports. -/
inductive Status where
  | running
  | completed
  | aborted
  deriving DecidableEq

/-- What happened, in order. Tasks are named by their place in the recipe. -/
inductive Observed where
  /-- `restraint_task_status` queued a message, with the error as its reason. -/
  | status (place : Nat) (status : Status) (reason : Option Error)
  /-- `task_finish_callback` reported a result. -/
  | result (place : Nat) (pass : Bool)
  /-- `task_run` started the entry point. -/
  | entryPoint (place : Nat)
  /-- The task was not run since the cancellable is cancelled. -/
  | skipped (place : Nat)
  /-- An abort of the task was accepted. -/
  | abortTask (place : Nat)
  /-- An abort of the recipe was accepted while this task was the current one. -/
  | abortRecipe (place : Nat)
  /-- `restraint_next_task` set `RECIPE_COMPLETE`. -/
  | recipeComplete
  deriving DecidableEq

structure AppData where
  state : RecipeSetupState
  stdin : Bool
  /-- There is a `recipe_url`. -/
  recipeUrl : Bool
  /-- There is a `recipe_xmldoc`. -/
  recipeXmldoc : Bool
  /-- The id of `recipe`, while there is one. -/
  recipe : Option Text
  /-- The tasks of the recipe before `tasks`, the last one done last. -/
  past : List Task
  /-- `tasks`: the current task and the ones after it. -/
  tasks : List Task
  error : Bool
  config : Text → Section
  cancelled : Bool
  aborted : StateAborted
  fetchRetries : Nat
  /-- `close_message` ended the process. -/
  exited : Bool
  loop : MainLoop Source
  trace : List Observed

/-- What the world answers while one source is dispatched. -/
structure World where
  /-- The config file can be read. -/
  configReads : Bool
  /-- `restraint_config_set` can write it. -/
  configWrites : Bool
  /-- Beaker does not ask to wait. -/
  healthy : Bool
  /-- An operation that is started calls back before it returns. -/
  synchronous : Bool
  /-- The error an operation calls back with. -/
  error : Option Nat
  pidResult : Int
  localwatchdog : Bool
  metadata : Option Metadata
  rhtsCompat : Bool
  /-- `restraint_recipe_update_roles` can use what was fetched. -/
  rolesUpdated : Bool
  /-- What was read is not empty, so that there is a document. -/
  document : Bool
  /-- What `recipe_parse` makes of the recipe: its id and its tasks. -/
  recipe : Option (Text × List TaskXml)
  deriving DecidableEq

def EWD_TIME : Int := 30 * 60
def TASK_FETCH_RETRIES : Nat := 30
def ROLE_REFRESH_RETRIES : Nat := 3
def RECIPE_FETCH_RETRIES : Nat := 12

/-- `g_idle_add_full`, `g_timeout_add_seconds` or the start of an operation. -/
def attach (s : AppData) (source : Source) : AppData := { s with loop := s.loop.add source }

def observe (s : AppData) (observed : Observed) : AppData :=
  { s with trace := s.trace ++ [observed] }

/-- The place of the current task in the recipe. -/
def place (s : AppData) : Nat := s.past.length

/-- `restraint_config_set` of a task's section. -/
def configSet (s : AppData) (w : World) (taskId : Text) (change : Section → Section) : AppData :=
  if w.configWrites then
    { s with config := Function.update s.config taskId (change (s.config taskId)) }
  else s

/-- The section of a task as the config file is read; what cannot be read is missing. -/
def configGet (config : Text → Section) (w : World) (taskId : Text) : Section :=
  if w.configReads then config taskId else .empty

/-- `g_propagate_error` and `g_set_error`: the first error stays. -/
def gPropagateError (dest : Option Error) (error : Error) : Option Error := dest <|> some error

/-- A number kept in 64 bits, signed. -/
def toInt64 (n : Int) : Int := (n + 2 ^ 63) % 2 ^ 64 - 2 ^ 63

end Restraint.Harness

import Restraint.TaskHandler
import Restraint.Lib.Decimal
import Restraint.Lib.Transition

/-! The daemon: `recipe_handler` of `recipe.c` around `task_handler`, and the
requests of `server.c`. One event is the dispatch of one source of the main loop,
with the answers of the world to it, or one request. -/
namespace Restraint.Server
open CString Restraint.Harness Restraint.TaskHandler

/-- `fetch_completed`. -/
def fetchCompleted (s : AppData) (w : World) : AppData :=
  match w.error with
  | some _ =>
    if s.fetchRetries < RECIPE_FETCH_RETRIES then
      attach { s with fetchRetries := s.fetchRetries + 1 } .recipeFetchRetry
    else
      { s with
        error := true
        state := .complete }
  | none => { s with
      recipeXmldoc := w.document
      state := .parse }

/-- `restraint_xml_parse_from_url` for the recipe; it returns at once when there
is no URL. -/
def restraintXmlParseFromUrl (s : AppData) (w : World) : AppData :=
  if s.recipeUrl = false then s
  else if w.synchronous then fetchCompleted s w
  else attach s .recipeFetch

/-- `recipe_handler`, and whether it stays attached. -/
def recipeHandler (s : AppData) (w : World) : AppData × Bool :=
  match s.state with
  | .fetch =>
    if !s.stdin && !w.healthy then (s, true)
    else
      (restraintXmlParseFromUrl { s with state := .fetching } w, true)
  | .parse =>
    -- recipe_parse gives up at once without a document, or when an error is set
    match if s.recipeXmldoc = false ∨ s.error then none else w.recipe with
    | some (recipeId, tasks) =>
      ({ s with
        recipe := some recipeId
        tasks := tasks.map parseTask
        state := .run }, true)
    | none =>
      ({ s with
        recipe := none
        error := s.error || s.recipeXmldoc
        state := .complete }, true)
  | .run => (attach { s with state := .running } .taskHandler, true)
  | .running => (s, false)
  | .complete =>
    ({ s with
      exited := !s.error && s.stdin
      recipeXmldoc := false
      recipe := none
      recipeUrl := s.recipeUrl && s.recipe.isNone
      state := .idle
      cancelled := false }, false)
  | .idle | .fetching | .fail => (s, true)

/-- `recipe_handler_finish`. -/
def recipeHandlerFinish (s : AppData) : AppData := { s with error := false }

/-- What a request for a status asks to abort: the recipe or the current task.
A path with too few parts is `none`. -/
def abortRequested (recipeId taskId path : Text) (body : Text) : Option StateAborted :=
  let splitpath := gStrsplit path
  let pathlen := splitpath.length
  if pathlen < 3 then none
  else if gStrHasSuffix body "Aborted".toList = false then some .none
  else if splitpath[pathlen - 3]? = some "recipes".toList then
    if splitpath[pathlen - 2]? = some recipeId then some .recipe else some .none
  else if splitpath[pathlen - 3]? = some "tasks".toList then
    if pathlen < 4 then none
    else if splitpath[pathlen - 4]? = some recipeId ∧ splitpath[pathlen - 2]? = some taskId then
      some .task
    else some .none
  else some .none

/-- The abort that a request brings. -/
def abort (s : AppData) : StateAborted → AppData
  | .none => s
  | .task => observe { s with
      aborted := .task
      cancelled := true } (.abortTask (place s))
  | .recipe => observe { s with
      aborted := .recipe
      cancelled := true } (.abortRecipe (place s))

/-- A request to change the watchdog: what it sets for the current task. -/
def adjustWatchdog (task : Task) (metadata : Metadata) (seconds : Option Text) (time : Nat) : Task :=
  let maxTime := (seconds.map fun seconds => (Decimal.strtoull seconds).1).getD 0
  if metadata.nolocalwatchdog then task
  else { task with
    remainingTime := toInt64 maxTime
    timeChged := some time }

/-- `server_recipe_callback`: the path of the request, its body, the form the
body decodes to, and the time. -/
def serverRecipeCallback (s : AppData) (path body : Text) (form : List (Text × Text)) (time : Nat) :
    Option AppData :=
  if s.state = .idle then some s
  else
    match s.tasks with
    | [] => none
    | task :: rest =>
      if gStrHasSuffix path "/results/".toList then
        let noPlugins := (form.lookup "no_plugins".toList).isSome
        some (attach { s with tasks := { task with resultsReported := true } :: rest }
          (.serverMessage true noPlugins))
      else if strstr path "/logs/".toList then some (attach s (.serverMessage false false))
      else if gStrHasSuffix path "watchdog".toList then
        task.metadata.map fun metadata =>
          attach
            { s with
              tasks := adjustWatchdog task metadata (form.lookup "seconds".toList) time :: rest }
            (.serverMessage false false)
      else if gStrHasSuffix path "status".toList then
        s.recipe.bind fun recipeId =>
          (abortRequested recipeId task.taskId path body).map (abort s)
      else some s

/-- `server_msg_complete`, which starts the report plugins. -/
def serverMsgComplete (s : AppData) (results noPlugins : Bool) : Option AppData :=
  match s.tasks with
  | [] => none
  | task :: _ =>
    if results && !noPlugins then
      if task.env then some (attach s .reportPlugins) else none
    else some s

/-- A source dispatched. `recipe_handler` and `task_handler` stay attached when
they return true; everything else is over once it has called back. -/
def dispatch (s : AppData) (id : Nat) (w : World) (source : Source) : Option AppData :=
  let removed := { s with loop := s.loop.remove id }
  match source with
  | .recipeHandler =>
    let (t, stays) := recipeHandler s w
    some (if stays then t else recipeHandlerFinish { t with loop := t.loop.remove id })
  | .taskHandler =>
    (taskHandler s w).map fun (t, stays) =>
      if stays then t else { t with loop := t.loop.remove id }
  | .recipeFetch => some (fetchCompleted removed w)
  | .recipeFetchRetry => some { removed with
      error := false
      state := .fetch }
  | .fetchRetry => fetchRetry removed
  | .refreshRoleRetry => refreshRoleRetry removed
  | .fetch => fetchFinishCallback removed (w.error.map .operation)
  | .fetchPackage => taskHandlerCallback removed w
  | .metadata => metadataFinishCb removed w
  | .roleRefresh => recipeFetchComplete removed w
  | .dependencies => dependencyFinishCb removed w
  | .entryPoint => taskFinishCallback removed w
  | .plugins | .taskMessage => some (attach removed .taskHandler)
  | .serverMessage results noPlugins => serverMsgComplete removed results noPlugins
  | .reportPlugins => some removed

inductive Event where
  | dispatch (id : Nat) (world : World)
  | request (path body : Text) (form : List (Text × Text)) (time : Nat)
  deriving DecidableEq

def step (s : AppData) : Event → Option AppData
  | .dispatch id w =>
    if s.exited then none else (s.loop.find? id).bind (dispatch s id w)
  | .request path body form time =>
    if s.exited then none else serverRecipeCallback s path body form time

/-- The daemon as `main` leaves it to the main loop: with the URL of a recipe, or
reading the job from standard input. -/
def start (stdin : Bool) (config : Text → Section) : AppData where
  state := if stdin then .fetching else .fetch
  stdin := stdin
  recipeUrl := !stdin
  recipeXmldoc := false
  recipe := none
  past := []
  tasks := []
  error := false
  config := config
  cancelled := false
  aborted := .none
  fetchRetries := 0
  exited := false
  loop := if stdin then (MainLoop.empty.add .recipeFetch).add .recipeHandler
    else MainLoop.empty.add .recipeHandler
  trace := []

end Restraint.Server

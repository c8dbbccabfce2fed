import Restraint.Harness

/-! `task_handler` of `task.c` and the callbacks of the operations it starts. A dereference of
`NULL` is `none`. `task_handler` itself is a loop over the states of one task and returns whether it
wants to be called again. Operations that take time are started here and come back as other sources
of the main loop. -/
namespace Restraint.TaskHandler
open Restraint.Harness

/-- The current task changed by what a callback does, and `task_handler` added. -/
def proceed (s : AppData) (task : Task) : AppData :=
  attach { s with tasks := task :: s.tasks.tail } .taskHandler

/-- `fetch_retry`. -/
def fetchRetry (s : AppData) : Option AppData :=
  s.tasks.head?.map fun task => proceed s { task with state := .fetch }

/-- `refresh_role_retry`. -/
def refreshRoleRetry (s : AppData) : Option AppData :=
  s.tasks.head?.map fun task => proceed s { task with state := .refreshRoles }

/-- `fetch_finish_callback`. -/
def fetchFinishCallback (s : AppData) (error : Option Error) : Option AppData :=
  s.tasks.head?.map fun task =>
    match error with
    | some error =>
      if s.fetchRetries < TASK_FETCH_RETRIES then
        attach { s with fetchRetries := s.fetchRetries + 1 } .fetchRetry
      else
        proceed s { task with
          error := gPropagateError task.error error
          state := .complete }
    | none => proceed s { task with state := .metadataParse }

/-- `restraint_task_fetch`. A scheme it does not know fails at once. -/
def restraintTaskFetch (s : AppData) (task : Task) : Option AppData :=
  match task.fetchMethod with
  | .unpack scheme =>
    if scheme ∈ ["git", "http", "https", "file"] then some (attach s .fetch)
    else fetchFinishCallback s (some .scheme)
  | .installPackage => some (attach s .fetchPackage)

/-- `task_handler_callback`. -/
def taskHandlerCallback (s : AppData) (w : World) : Option AppData :=
  s.tasks.head?.map fun task =>
    match w.error with
    | some code => proceed s { task with
        error := some (.operation code)
        state := .complete }
    | none =>
      if w.pidResult = 0 then proceed s { task with state := .metadataParse }
      else
        proceed s { task with
          error := gPropagateError task.error (.returnCode w.pidResult)
          state := .complete }

/-- The time a task has by its metadata, unless a parameter has another one. -/
def budget (task : Task) (metadata : Metadata) : Int :=
  toInt64 (task.maxTimeParam.elim metadata.maxTime Int.ofNat)

/-- The time `metadata_finish_cb` gives a task: the one in the config file, unless
there is none or it is 0. -/
def remainingTime (task : Task) (metadata : Metadata) (stored : Section) : Int :=
  if stored.remainingTime = 0 then budget task metadata else stored.remainingTime

/-- `metadata_finish_cb`. -/
def metadataFinishCb (s : AppData) (w : World) : Option AppData :=
  s.tasks.head?.map fun task =>
    let error := match w.error with
      | some code => gPropagateError task.error (.operation code)
      | none => task.error
    let task := { task with
      error := error
      metadata := w.metadata }
    match error, w.metadata with
    | none, some metadata =>
      proceed { s with fetchRetries := 0 }
        { task with
          state := .refreshRoles
          remainingTime := remainingTime task metadata (configGet s.config w task.taskId) }
    | _, _ => proceed s { task with state := .complete }

/-- `recipe_fetch_complete`. -/
def recipeFetchComplete (s : AppData) (w : World) : Option AppData :=
  s.tasks.head?.map fun task =>
    match w.error with
    | some code =>
      if s.fetchRetries < ROLE_REFRESH_RETRIES then
        attach { s with fetchRetries := s.fetchRetries + 1 } .refreshRoleRetry
      else
        proceed s { task with
          error := gPropagateError task.error (.operation code)
          state := .complete }
    | none =>
      if w.rolesUpdated then proceed s { task with state := .env }
      else
        proceed s { task with
          error := gPropagateError task.error .roles
          state := .complete }

/-- `dependency_finish_cb`. -/
def dependencyFinishCb (s : AppData) (w : World) : Option AppData :=
  s.tasks.head?.map fun task =>
    match w.error with
    | some code => proceed s { task with
        error := gPropagateError task.error (.operation code)
        state := .complete }
    | none => proceed s { task with state := .run }

/-- `task_finish_callback`; the pass state and the fail state of `task_run` are
both `TASK_COMPLETE`. It starts the completed plugins. -/
def taskFinishCallback (s : AppData) (w : World) : Option AppData :=
  match s.tasks with
  | [] => none
  | task :: rest =>
    if task.env = false then none
    else
      let task := { task with state := .complete }
      if w.pidResult = 0 then
        let s := { s with tasks := task :: rest }
        some (attach (if task.rhtsCompat ∨ task.resultsReported then s
          else observe s (.result (place s) true)) .plugins)
      else if w.localwatchdog then
        let s := configSet s w task.taskId fun stored => { stored with localwatchdog := true }
        some (attach
          { s with
            tasks := { task with
              localwatchdog := true
              error := gPropagateError task.error .watchdog } :: rest } .plugins)
      else if task.rhtsCompat then
        some (attach
          { s with
            tasks := { task with
              error := gPropagateError task.error (.returnCode w.pidResult) } :: rest } .plugins)
      else
        some (attach (observe { s with tasks := task :: rest } (.result (place s) false)) .plugins)

/-- `restraint_task_status`. -/
def restraintTaskStatus (s : AppData) (status : Status) (reason : Option Error) : AppData :=
  attach (observe s (.status (place s) status reason)) .taskMessage

/-- `restraint_task_watchdog`; it sends nothing when there are 0 seconds. -/
def restraintTaskWatchdog (s : AppData) (seconds : Int) : AppData :=
  if seconds % 2 ^ 64 = 0 then s else attach s .taskMessage

/-- `restraint_next_task` with `TASK_IDLE`, and whether there is another task. -/
def restraintNextTask (s : AppData) (task : Task) (rest : List Task) : AppData × Bool :=
  match rest with
  | next :: later =>
    ({ s with
      past := s.past ++ [task]
      tasks := { next with state := .idle } :: later }, true)
  | [] =>
    (attach
      (observe { s with
        past := s.past ++ [task]
        tasks := []
        state := .complete
        aborted := .none } .recipeComplete) .recipeHandler, false)

/-- `task_handler` for a task that is in `TASK_IDLE`. What `parse_task_config`
may have read before it fails is not used any more. -/
def taskIdle (s : AppData) (w : World) (task : Task) (rest : List Task) : AppData × Bool :=
  if w.configReads = false then
    ({ s with
      tasks := { task with
        error := gPropagateError task.error .config
        state := .complete } :: rest }, true)
  else
    let stored := s.config task.taskId
    let task := { task with
      reboots := stored.reboots
      started := stored.started
      localwatchdog := stored.localwatchdog }
    if task.finished then ({ s with tasks := { task with state := .next } :: rest }, true)
    else if s.cancelled then
      (observe { s with tasks := { task with state := .complete } :: rest } (.skipped (place s)),
        true)
    else if task.localwatchdog then
      ({ s with tasks := { task with state := .complete } :: rest }, true)
    else if task.started then
      ({ s with tasks := { task with state := .metadataParse } :: rest }, true)
    else
      (restraintTaskStatus { s with
        tasks := { task with state := .fetch } :: rest
        fetchRetries := 0 } .running none, false)

/-- The current task with `TASK_RUN` as its state. -/
def toRun (s : AppData) : AppData :=
  { s with tasks := s.tasks.modifyHead fun task => { task with state := .run } }

/-- `task_handler` for a task that is in `TASK_DEPENDENCIES`. The state is set
after the operation was started, so it overrides what a callback has set. -/
def taskDependencies (s : AppData) (w : World) (task : Task) : Option (AppData × Bool) :=
  if task.started then some (toRun s, true)
  else if !s.stdin && !w.healthy then some (s, true)
  else if task.metadata.isNone then none
  else
    (if w.synchronous then dependencyFinishCb s w else some (attach s .dependencies)).map
      fun s => (toRun s, false)

/-- `task_handler` for a task that is in `TASK_RUN`, with `task_run`. -/
def taskRun (s : AppData) (w : World) (task : Task) (rest : List Task) : Option (AppData × Bool) :=
  if s.cancelled then
    some (observe { s with tasks := { task with state := .complete } :: rest } (.skipped (place s)),
      true)
  else
    task.metadata.map fun metadata =>
      let task := { task with
        remainingTime := if metadata.nolocalwatchdog then 0 else task.remainingTime
        started := true }
      let s := attach (observe { s with tasks := task :: rest } (.entryPoint (place s))) .entryPoint
      (configSet s w task.taskId fun stored =>
        { stored with
          started := true
          reboots := (task.reboots + 1) % 2 ^ 64 }, false)

/-- `task_handler` for a task that is in `TASK_COMPLETE`. -/
def taskComplete (s : AppData) (task : Task) (rest : List Task) : AppData :=
  { s with
    tasks := { task with
      error := if s.cancelled ∧ s.aborted ≠ .none then some .aborted else task.error
      state := .completed } :: rest }

/-- `task_handler` for a task that is in `TASK_COMPLETED`. -/
def taskCompleted (s : AppData) (w : World) (task : Task) (rest : List Task) : AppData :=
  let status := if task.error.isSome then Status.aborted else .completed
  let s := restraintTaskStatus { s with
    tasks := { task with
      error := none
      state := .next } :: rest } status task.error
  let s := configSet s w task.taskId fun _ => .empty
  if s.cancelled ∧ s.aborted = .task then
    { s with
      aborted := .none
      cancelled := false }
  else s

/-- `task_handler`, and whether it stays attached. -/
def taskHandler (s : AppData) (w : World) : Option (AppData × Bool) :=
  match s.tasks with
  | [] => some (s, false)
  | task :: rest =>
    match task.state with
    | .idle => some (taskIdle s w task rest)
    | .fetch =>
      if !s.stdin && !w.healthy then some (s, true)
      else (restraintTaskFetch s task).map fun s => (s, false)
    | .metadataParse =>
      let s := { s with tasks := { task with rhtsCompat := w.rhtsCompat } :: rest }
      (if w.synchronous then metadataFinishCb s w else some (attach s .metadata)).map
        fun s => (s, false)
    | .refreshRoles =>
      if s.recipeUrl then
        if !s.stdin && !w.healthy then some (s, true)
        else
          (if w.synchronous then recipeFetchComplete s w else some (attach s .roleRefresh)).map
            fun s => (s, false)
      else some ({ s with tasks := { task with state := .env } :: rest }, true)
    | .env =>
      some ({ s with
        tasks := { task with
          env := true
          state := .watchdog } :: rest }, true)
    | .watchdog =>
      let s := { s with tasks := { task with state := .dependencies } :: rest }
      if task.started then some (s, true)
      else some (restraintTaskWatchdog s (task.remainingTime + EWD_TIME), false)
    | .dependencies => taskDependencies s w task
    | .run => taskRun s w task rest
    | .complete => some (taskComplete s task rest, true)
    | .completed => some (taskCompleted s w task rest, false)
    | .next => some (restraintNextTask s task rest)
    | .aborted | .cancel | .cancelled => some (s, true)

end Restraint.TaskHandler

import Restraint.TaskRefinement

/-! What one step of the daemon does to the current task and to the config file,
in full: the machine of `TaskMachine` says when a task is moved on, this says what
is in the task and in its section afterwards, and why. -/
namespace Restraint.TaskSteps
open Transition
open Restraint.Harness Restraint.TaskHandler Restraint.TaskMachine Restraint.TaskRefinement
open CString (Text gStrHasSuffix strstr)
open Restraint.Server (fetchCompleted restraintXmlParseFromUrl recipeHandler recipeHandlerFinish
  serverRecipeCallback)

/-- The source of `recipe_handler`. -/
def handles : Source → Bool
  | .recipeHandler => true
  | _ => false

/-- The part of the daemon that its tasks depend on. -/
structure Snapshot where
  state : RecipeSetupState
  recipe : Option Text
  past : List Task
  tasks : List Task
  config : Text → Section
  cancelled : Bool
  aborted : StateAborted
  activations : List Source
  handlers : List Source

def snapshot (s : AppData) : Snapshot where
  state := s.state
  recipe := s.recipe
  past := s.past
  tasks := s.tasks
  config := s.config
  cancelled := s.cancelled
  aborted := s.aborted
  activations := s.loop.kinds activates
  handlers := s.loop.kinds handles

/-- The source that an event dispatches. -/
def dispatched (s : AppData) : Server.Event → Option Source
  | .dispatch id _ => s.loop.find? id
  | .request .. => none

/-- A task with what `parse_task_config` reads. -/
def recalled (task : Task) (stored : Section) : Task :=
  { task with
    reboots := stored.reboots
    started := stored.started
    localwatchdog := stored.localwatchdog }

/-- The config file after `restraint_config_set` of a task's section. -/
def written (config : Text → Section) (w : World) (taskId : Text) (change : Section → Section) :
    Text → Section :=
  if w.configWrites then Function.update config taskId (change (config taskId)) else config

/-- The section of a task that is running. -/
def ran (reboots : Nat) (stored : Section) : Section :=
  { stored with
    started := true
    reboots := (reboots + 1) % 2 ^ 64 }

/-- The section of a task whose local watchdog expired. -/
def flagged (stored : Section) : Section := { stored with localwatchdog := true }

/-- What a step does that outlives it. -/
inductive Effect where
  /-- `restraint_task_fetch`. -/
  | fetch
  /-- `build_env`. -/
  | equip
  /-- `restraint_task_watchdog`. -/
  | post
  /-- `restraint_install_dependencies`. -/
  | install
  /-- `task_run`. -/
  | launch
  /-- The local watchdog expired, and the config file says so. -/
  | expire
  /-- The task is in `TASK_COMPLETED`. -/
  | reach
  /-- The final status is queued. -/
  | report
  /-- The user adjusted the watchdog. -/
  | adjust
  deriving DecidableEq

/-- What the dispatch of a source does for the current task. -/
def acted (s : AppData) (w : World) (source : Source) (task : Task) : Option Effect :=
  match source with
  | .taskHandler =>
    match task.state with
    | .fetch => if !s.stdin && !w.healthy then none else some .fetch
    | .env => some .equip
    | .watchdog => if task.started then none else some .post
    | .dependencies => if task.started || (!s.stdin && !w.healthy) then none else some .install
    | .run => if s.cancelled then none else some .launch
    | .complete => some .reach
    | .completed => some .report
    | _ => none
  | .entryPoint =>
    if w.pidResult ≠ 0 ∧ w.localwatchdog = true ∧ w.configWrites = true then some .expire else none
  | _ => none

/-- A request to change the watchdog, by its path. -/
def watchdogAsked (path : Text) : Bool :=
  !gStrHasSuffix path "/results/".toList && !strstr path "/logs/".toList &&
    gStrHasSuffix path "watchdog".toList

/-- What an event does for the current task. -/
def acts (s : AppData) : Server.Event → Option Effect
  | .dispatch id w =>
    (s.loop.find? id).bind fun source => s.tasks.head?.bind fun task => acted s w source task
  | .request path _ _ _ =>
    if s.state ≠ .idle ∧ s.tasks ≠ [] ∧ watchdogAsked path = true then some .adjust else none

/-- Nothing is done for a task, or it is fetched. -/
def Fetches (did : Option Effect) (task : Task) : Prop :=
  did = none ∨ did = some .fetch ∧ task.state = .fetch

/-- An operation calls back: from its own source, or from `task_handler` before it returns. -/
def CallsBack (w : World) (operation source : Source) : Prop :=
  source = operation ∨ source = .taskHandler ∧ w.synchronous = true

/-- The sources that come and go while nothing is done to the current task. -/
def waits : Source → Bool
  | .taskHandler | .fetch | .fetchPackage | .fetchRetry | .roleRefresh | .refreshRoleRetry => true
  | _ => false

/-- What the dispatch of a source does to the current task that stays the current
one, and the source that is attached for it then. -/
inductive Deed (config : Text → Section) (cancelled : Bool) (aborted : StateAborted) (w : World) :
    Option Effect → Source → Task → Task → (Text → Section) → Option Source → Prop where
  | keep (calm : waits next = true) (fetches : Fetches did task) (apart : source ≠ .entryPoint) :
      Deed config cancelled aborted w did source task task config (some next)
  | unread (idle : task.state = .idle) (unreadable : w.configReads = false) :
      Deed config cancelled aborted w none .taskHandler task
        { task with
          error := gPropagateError task.error .config
          state := .complete } config (some .taskHandler)
  | pass (idle : task.state = .idle) (read : w.configReads = true) (done : task.finished = true) :
      Deed config cancelled aborted w none .taskHandler task
        { recalled task (config task.taskId) with state := .next } config (some .taskHandler)
  | drop (idle : task.state = .idle) (read : w.configReads = true) (due : task.finished = false)
      (stopped : cancelled = true) :
      Deed config cancelled aborted w none .taskHandler task
        { recalled task (config task.taskId) with state := .complete } config (some .taskHandler)
  | expired (idle : task.state = .idle) (read : w.configReads = true) (due : task.finished = false)
      (live : cancelled = false) (flag : (config task.taskId).localwatchdog = true) :
      Deed config cancelled aborted w none .taskHandler task
        { recalled task (config task.taskId) with state := .complete } config (some .taskHandler)
  | resume (idle : task.state = .idle) (read : w.configReads = true) (due : task.finished = false)
      (flag : (config task.taskId).localwatchdog = false) (old : (config task.taskId).started = true) :
      Deed config cancelled aborted w none .taskHandler task
        { recalled task (config task.taskId) with state := .metadataParse } config (some .taskHandler)
  | begin (idle : task.state = .idle) (read : w.configReads = true) (due : task.finished = false)
      (flag : (config task.taskId).localwatchdog = false) (new : (config task.taskId).started = false) :
      Deed config cancelled aborted w none .taskHandler task
        { recalled task (config task.taskId) with state := .fetch } config (some .taskMessage)
  | fetched (fetch : task.state = .fetch) (fetches : Fetches did task) :
      Deed config cancelled aborted w did source task
        { task with state := .metadataParse } config (some .taskHandler)
  | fail (busy : task.state = .fetch ∨ task.state = .refreshRoles ∨ task.state = .run)
      (fetches : Fetches did task) :
      Deed config cancelled aborted w did source task
        { task with
          error := some error
          state := .complete } config (some .taskHandler)
  | prepare (parse : task.state = .metadataParse) :
      Deed config cancelled aborted w none .taskHandler task
        { task with rhtsCompat := rhtsCompat } config (some .metadata)
  | described (parse : task.state = .metadataParse) (called : CallsBack w .metadata source)
      (clean : task.error = none) (given : w.metadata = some metadata) :
      Deed config cancelled aborted w none source task
        { task with
          rhtsCompat := rhtsCompat
          metadata := some metadata
          state := .refreshRoles
          remainingTime := remainingTime task metadata (configGet config w task.taskId) } config
        (some .taskHandler)
  | undescribed (parse : task.state = .metadataParse) (called : CallsBack w .metadata source)
      (clean : task.error = none) (error : w.error = none) (missing : w.metadata = none) :
      Deed config cancelled aborted w none source task
        { task with
          rhtsCompat := rhtsCompat
          metadata := none
          state := .complete } config (some .taskHandler)
  | unparsed (parse : task.state = .metadataParse) :
      Deed config cancelled aborted w none source task
        { task with
          rhtsCompat := rhtsCompat
          error := some error
          metadata := metadata
          state := .complete } config (some .taskHandler)
  | roles (refresh : task.state = .refreshRoles) :
      Deed config cancelled aborted w none source task
        { task with state := .env } config (some .taskHandler)
  | environment (env : task.state = .env) :
      Deed config cancelled aborted w (some .equip) .taskHandler task
        { task with
          env := true
          state := .watchdog } config (some .taskHandler)
  | post (watchdog : task.state = .watchdog) (new : task.started = false) :
      Deed config cancelled aborted w (some .post) .taskHandler task
        { task with state := .dependencies } config
        (if (task.remainingTime + EWD_TIME) % 2 ^ 64 = 0 then none else some .taskMessage)
  | unposted (watchdog : task.state = .watchdog) (old : task.started = true) :
      Deed config cancelled aborted w none .taskHandler task
        { task with state := .dependencies } config (some .taskHandler)
  | uninstalled (dependencies : task.state = .dependencies) (old : task.started = true) :
      Deed config cancelled aborted w none .taskHandler task
        { task with state := .run } config (some .taskHandler)
  | install (dependencies : task.state = .dependencies) (new : task.started = false) :
      Deed config cancelled aborted w (some .install) .taskHandler task
        { task with state := .run } config (some .dependencies)
  | installed (dependencies : task.state = .dependencies) (new : task.started = false)
      (own : error = task.error ∨ error.isSome = true) :
      Deed config cancelled aborted w (some .install) .taskHandler task
        { task with
          error := error
          state := .run } config (some .taskHandler)
  | skip (run : task.state = .run) (stopped : cancelled = true) :
      Deed config cancelled aborted w none .taskHandler task
        { task with state := .complete } config (some .taskHandler)
  | launch (run : task.state = .run) (live : cancelled = false)
      (described : task.metadata = some metadata) :
      Deed config cancelled aborted w (some .launch) .taskHandler task
        { task with
          remainingTime := if metadata.nolocalwatchdog then 0 else task.remainingTime
          started := true }
        (written config w task.taskId (ran task.reboots)) (some .entryPoint)
  | exit (run : task.state = .run) :
      Deed config cancelled aborted w none .entryPoint task
        { task with state := .complete } config (some .plugins)
  | exitFails (run : task.state = .run) :
      Deed config cancelled aborted w none .entryPoint task
        { task with
          error := some error
          state := .complete } config (some .plugins)
  | expire (run : task.state = .run) (failed : w.pidResult ≠ 0) (expires : w.localwatchdog = true) :
      Deed config cancelled aborted w (if w.configWrites then some .expire else none) .entryPoint task
        { task with
          localwatchdog := true
          error := gPropagateError task.error .watchdog
          state := .complete }
        (written config w task.taskId flagged) (some .plugins)
  | conclude (complete : task.state = .complete) :
      Deed config cancelled aborted w (some .reach) .taskHandler task
        { task with
          error := if cancelled ∧ aborted ≠ .none then some .aborted else task.error
          state := .completed } config (some .taskHandler)

/-- A step of the daemon, with the source that it dispatches. -/
inductive Stride (source : Option Source) (e : Server.Event) :
    Option Effect → Snapshot → Snapshot → Prop where
  | still : Stride source e none m m
  | retrieve (before : early m.state = true) (after : early state = true ∨ state = .complete) :
      Stride source e none m { m with state := state, recipe := recipe }
  | parse {id : Nat} (event : e = .dispatch id w) (parsed : m.state = .parse)
      (recipe : w.recipe = some (recipeId, xmls)) :
      Stride source e none m
        { m with state := .run, recipe := some recipeId, tasks := xmls.map parseTask }
  | launch (ready : m.state = .run) :
      Stride source e none m { m with state := .running, activations := [.taskHandler] }
  | work {id : Nat} (event : e = .dispatch id w) (here : source = some active)
      (current : m.tasks = task :: rest) (turn : m.activations = [active])
      (deed : Deed m.config m.cancelled m.aborted w did active task task' config next) :
      Stride source e did m
        { m with
          tasks := task' :: rest
          config := config
          activations := next.toList }
  | report {id : Nat} (event : e = .dispatch id w) (here : source = some .taskHandler)
      (current : m.tasks = task :: rest) (turn : m.activations = [.taskHandler])
      (completed : task.state = .completed) :
      Stride source e (some .report) m
        { m with
          tasks := { task with error := none, state := .next } :: rest
          config := written m.config w task.taskId fun _ => .empty
          activations := [.taskMessage]
          cancelled := m.cancelled && m.aborted ≠ .task
          aborted := if m.cancelled ∧ m.aborted = .task then .none else m.aborted }
  | advance (here : source = some .taskHandler) (current : m.tasks = task :: next :: later)
      (turn : m.activations = [.taskHandler]) (done : task.state = .next) :
      Stride source e none m
        { m with
          past := m.past ++ [task]
          tasks := { next with state := .idle } :: later }
  | finish (here : source = some .taskHandler) (current : m.tasks = [task])
      (turn : m.activations = [.taskHandler]) (done : task.state = .next) :
      Stride source e none m
        { m with
          state := .complete
          past := m.past ++ [task]
          tasks := []
          aborted := .none
          activations := []
          handlers := m.handlers ++ [.recipeHandler] }
  | stop (empty : m.tasks = []) (here : source = some .taskHandler)
      (turn : m.activations = [.taskHandler]) : Stride source e none m { m with activations := [] }
  | results (current : m.tasks = task :: rest) (request : source = none) :
      Stride source e none m { m with tasks := { task with resultsReported := true } :: rest }
  | adjust (event : e = .request path body form time) (request : source = none)
      (asked : watchdogAsked path = true) (live : m.state ≠ .idle)
      (current : m.tasks = task :: rest) (described : task.metadata = some metadata) :
      Stride source e (some .adjust) m
        { m with tasks := Server.adjustWatchdog task metadata (form.lookup "seconds".toList) time :: rest }
  | abort (current : m.tasks = task :: rest) (request : source = none) (level : aborted ≠ .none) :
      Stride source e none m { m with cancelled := true, aborted := aborted }
  | leave (running : m.state = .running) : Stride source e none m { m with handlers := handlers }
  | close (complete : m.state = .complete) :
      Stride source e none m
        { m with state := .idle, recipe := none, cancelled := false, handlers := handlers }

/-- A fetch is all that may be done. -/
theorem Fetches.apart {did : Option Effect} {task : Task} {effect : Effect} (fetches : Fetches did task)
    (other : effect ≠ .fetch) : some effect ≠ did := by
  rcases fetches with rfl | ⟨rfl, -⟩
  · nofun
  · simpa using other

private theorem activates_of_waits {source : Source} (calm : waits source = true) :
    activates source = true := by
  cases source <;> first | rfl | cases calm

theorem handles_of_activates {source : Source} (kind : activates source = true) :
    handles source = false := by
  cases source <;> first | rfl | cases kind

/-- The source that a deed attaches activates the machine. -/
theorem Deed.activates {config config' : Text → Section} {cancelled : Bool} {aborted : StateAborted}
    {w : World} {did : Option Effect} {source : Source} {task task' : Task} {next : Option Source}
    (deed : Deed config cancelled aborted w did source task task' config' next) :
    ∀ source ∈ next, activates source = true := by
  cases deed with
  | keep calm =>
    rintro _ ⟨⟩
    exact activates_of_waits calm
  | post =>
    split
    · simp
    · rintro _ ⟨⟩
      rfl
  | _ =>
    rintro _ ⟨⟩
    rfl

variable {s t : AppData} {task task' : Task} {rest : List Task} {w : World} {source : Source}
  {next : Option Source} {did : Option Effect} {config : Text → Section}

/-- What the dispatch of a source does to the daemon, if it does a deed. -/
structure Does (w : World) (source : Source) (next : Option Source) (s t : AppData) : Prop where
  deed : ∃ task task' rest, s.tasks = task :: rest ∧ t.tasks = task' :: rest ∧
    Deed s.config s.cancelled s.aborted w (acted s w source task) source task task' t.config next
  state : t.state = s.state
  recipe : t.recipe = s.recipe
  past : t.past = s.past
  cancelled : t.cancelled = s.cancelled
  aborted : t.aborted = s.aborted

/-- The source `next` was attached. -/
def attached (next : Option Source) (loop : MainLoop Source) : MainLoop Source :=
  next.elim loop loop.add

private theorem does_of (current : s.tasks = task :: rest) (changed : t.tasks = task' :: rest)
    (act : acted s w source task = did)
    (deed : Deed s.config s.cancelled s.aborted w did source task task' t.config next)
    (same : t.state = s.state ∧ t.recipe = s.recipe ∧ t.past = s.past ∧
      t.cancelled = s.cancelled ∧ t.aborted = s.aborted) : Does w source next s t :=
  ⟨⟨task, task', rest, current, changed, act ▸ deed⟩, same.1, same.2.1, same.2.2.1, same.2.2.2.1,
    same.2.2.2.2⟩

/-- A callback that changes the current task and adds `task_handler`. -/
theorem proceed_does (current : s.tasks = task :: rest) (act : acted s w source task = did)
    (deed : Deed s.config s.cancelled s.aborted w did source task task' s.config (some .taskHandler)) :
    Does w source (some .taskHandler) s (proceed s task') :=
  does_of current (by simp [proceed, attach, current]) act deed ⟨rfl, rfl, rfl, rfl, rfl⟩

/-- A source attached, with nothing done to the task. -/
theorem attach_does (added : Source) (current : s.tasks = task :: rest) (calm : waits added = true)
    (fetches : Fetches (acted s w source task) task) (apart : source ≠ .entryPoint) :
    Does w source (some added) s (attach s added) :=
  does_of current current rfl (.keep calm fetches apart) ⟨rfl, rfl, rfl, rfl, rfl⟩

/-- After `g_propagate_error` there is an error. -/
theorem gPropagateError_some (dest : Option Error) (error : Error) :
    gPropagateError dest error = some (dest.getD error) := by cases dest <;> rfl

/-- What a callback does, and what it leaves attached. -/
def Calls (w : World) (source : Source) (s t : AppData) : Prop :=
  ∃ next, Does w source next s t ∧ t.loop = attached next s.loop

/-- A source does nothing for the current task. -/
def Quiet (s : AppData) (w : World) (source : Source) : Prop :=
  ∀ task ∈ s.tasks.head?, acted s w source task = none

theorem Quiet.act (quiet : Quiet s w source) (current : s.tasks = task :: rest) :
    acted s w source task = none :=
  quiet task (by rw [current]; rfl)

theorem fetchFinishCallback_calls {error : Option Error} (ready : Ready s .fetch)
    (fetches : ∀ task ∈ s.tasks.head?, Fetches (acted s w source task) task)
    (apart : source ≠ .entryPoint) (called : fetchFinishCallback s error = some t) : Calls w source s t := by
  obtain ⟨task, rest, current, fetch, -, rfl⟩ := callback_cases rfl ready called
  have fetches := fetches task (by rw [current]; rfl)
  cases error with
  | none => exact ⟨_, proceed_does current rfl (.fetched fetch fetches), rfl⟩
  | some error =>
    dsimp only
    split
    · exact ⟨some .fetchRetry, does_of current current rfl (.keep rfl fetches apart)
        ⟨rfl, rfl, rfl, rfl, rfl⟩, rfl⟩
    · refine ⟨_, proceed_does current rfl ?_, rfl⟩
      rw [gPropagateError_some]
      exact .fail (.inl fetch) fetches

theorem fetchRetry_calls (ready : Ready s .fetchRetry) (called : fetchRetry s = some t) :
    Calls w .fetchRetry s t := by
  obtain ⟨task, rest, current, fetch, -, rfl⟩ := callback_cases rfl ready called
  have same : { task with state := .fetch } = task := by rw [← show task.state = .fetch from fetch]
  rw [same]
  exact ⟨_, proceed_does current rfl (.keep rfl (.inl rfl) (by simp)), rfl⟩

theorem refreshRoleRetry_calls (ready : Ready s .refreshRoleRetry)
    (called : refreshRoleRetry s = some t) : Calls w .refreshRoleRetry s t := by
  obtain ⟨task, rest, current, refresh, -, rfl⟩ := callback_cases rfl ready called
  have same : { task with state := .refreshRoles } = task := by
    rw [← show task.state = .refreshRoles from refresh]
  rw [same]
  exact ⟨_, proceed_does current rfl (.keep rfl (.inl rfl) (by simp)), rfl⟩

private theorem restraintTaskFetch_calls (current : s.tasks = task :: rest) (fetch : task.state = .fetch)
    (fetches : Fetches (acted s w source task) task) (apart : source ≠ .entryPoint)
    (called : restraintTaskFetch s task = some t) : Calls w source s t := by
  unfold restraintTaskFetch at called
  split at called
  · split at called
    · cases called
      exact ⟨_, attach_does .fetch current rfl fetches apart, rfl⟩
    · refine fetchFinishCallback_calls ?_ ?_ apart called
      · simpa [Ready, current, Fits] using fetch
      · rw [current]
        rintro _ ⟨⟩
        exact fetches
  · cases called
    exact ⟨_, attach_does .fetchPackage current rfl fetches apart, rfl⟩

theorem taskHandlerCallback_calls (ready : Ready s .fetchPackage)
    (called : taskHandlerCallback s w = some t) : Calls w .fetchPackage s t := by
  obtain ⟨task, rest, current, fetch, -, rfl⟩ := callback_cases rfl ready called
  split
  · exact ⟨_, proceed_does current rfl (.fail (.inl fetch) (.inl rfl)), rfl⟩
  · split
    · exact ⟨_, proceed_does current rfl (.fetched fetch (.inl rfl)), rfl⟩
    · refine ⟨_, proceed_does current rfl ?_, rfl⟩
      rw [gPropagateError_some]
      exact .fail (.inl fetch) (.inl rfl)

/-- The metadata was read for a task whose compatibility may just have been set. -/
theorem metadataFinishCb_does {rhtsCompat : Bool} (current : s.tasks = task :: rest)
    (parse : task.state = .metadataParse) (act : acted s w source task = none)
    (back : CallsBack w .metadata source)
    (called : metadataFinishCb
      { s with tasks := { task with rhtsCompat := rhtsCompat } :: rest } w = some t) :
    Calls w source s t := by
  simp only [metadataFinishCb, List.head?_cons, Option.map_some] at called
  cases error : w.error with
  | some code =>
    simp only [error, gPropagateError_some, Option.some.injEq] at called
    subst called
    exact ⟨_, does_of current rfl act (.unparsed parse) ⟨rfl, rfl, rfl, rfl, rfl⟩, rfl⟩
  | none =>
    cases own : task.error with
    | some error' =>
      simp only [error, own, Option.some.injEq] at called
      subst called
      exact ⟨_, does_of current rfl act (.unparsed parse) ⟨rfl, rfl, rfl, rfl, rfl⟩, rfl⟩
    | none =>
      cases described : w.metadata with
      | none =>
        simp only [error, own, described, Option.some.injEq] at called
        subst called
        have deed : Deed s.config s.cancelled s.aborted w none source task
            { task with
              rhtsCompat := rhtsCompat
              metadata := none
              state := .complete } s.config (some .taskHandler) :=
          .undescribed parse back own error described
        rw [own] at deed
        exact ⟨_, does_of current rfl act deed ⟨rfl, rfl, rfl, rfl, rfl⟩, rfl⟩
      | some metadata =>
        simp only [error, own, described, Option.some.injEq] at called
        subst called
        have deed : Deed s.config s.cancelled s.aborted w none source task
            { task with
              rhtsCompat := rhtsCompat
              metadata := some metadata
              state := .refreshRoles
              remainingTime := remainingTime task metadata (configGet s.config w task.taskId) } s.config
            (some .taskHandler) :=
          .described parse back own described
        rw [own] at deed
        exact ⟨_, does_of current rfl act deed ⟨rfl, rfl, rfl, rfl, rfl⟩, rfl⟩

theorem metadataFinishCb_calls (ready : Ready s .metadata)
    (called : metadataFinishCb s w = some t) : Calls w .metadata s t := by
  obtain ⟨task, rest, current, parse, -, -⟩ := callback_cases rfl ready called
  have same : s = { s with tasks := { task with rhtsCompat := task.rhtsCompat } :: rest } := by
    rw [← current]
  exact metadataFinishCb_does current parse rfl (.inl rfl) (same ▸ called)

theorem recipeFetchComplete_calls (ready : Ready s .roleRefresh) (quiet : Quiet s w source)
    (apart : source ≠ .entryPoint)
    (called : recipeFetchComplete s w = some t) : Calls w source s t := by
  obtain ⟨task, rest, current, refresh, -, rfl⟩ := callback_cases rfl ready called
  have act := quiet.act current
  split
  · split
    · exact ⟨some .refreshRoleRetry, does_of current current act (.keep rfl (.inl rfl) apart)
        ⟨rfl, rfl, rfl, rfl, rfl⟩, rfl⟩
    · refine ⟨_, proceed_does current act ?_, rfl⟩
      rw [gPropagateError_some]
      exact .fail (.inr (.inl refresh)) (.inl rfl)
  · split
    · exact ⟨_, proceed_does current act (.roles refresh), rfl⟩
    · refine ⟨_, proceed_does current act ?_, rfl⟩
      rw [gPropagateError_some]
      exact .fail (.inr (.inl refresh)) (.inl rfl)

theorem dependencyFinishCb_calls (ready : Ready s .dependencies)
    (called : dependencyFinishCb s w = some t) : Calls w .dependencies s t := by
  obtain ⟨task, rest, current, run, -, rfl⟩ := callback_cases rfl ready called
  split
  · refine ⟨_, proceed_does current rfl ?_, rfl⟩
    rw [gPropagateError_some]
    exact .fail (.inr (.inr run)) (.inl rfl)
  · have same : { task with state := .run } = task := by rw [← show task.state = .run from run]
    rw [same]
    exact ⟨_, proceed_does current rfl (.keep rfl (.inl rfl) (by simp)), rfl⟩

/-- The config file is all that `restraint_config_set` writes. -/
theorem configSet_written (taskId : Text) (change : Section → Section) :
    configSet s w taskId change = { s with config := written s.config w taskId change } := by
  unfold configSet written
  split <;> rfl

theorem taskFinishCallback_calls (ready : Ready s .entryPoint)
    (called : taskFinishCallback s w = some t) : Calls w .entryPoint s t := by
  unfold taskFinishCallback at called
  split at called
  · cases called
  · rename_i task rest current
    have run : task.state = .run := ready task (by rw [current]; rfl)
    split at called
    · cases called
    · simp only [configSet_written, gPropagateError_some] at called
      split at called
      · rename_i passed
        have act : acted s w .entryPoint task = none := by simp [acted, passed]
        split at called <;>
        · cases called
          exact ⟨_, does_of current rfl act (.exit run) ⟨rfl, rfl, rfl, rfl, rfl⟩, rfl⟩
      · rename_i failed
        split at called
        · rename_i expires
          cases called
          have act : acted s w .entryPoint task = if w.configWrites then some .expire else none := by
            simp [acted, failed, expires]
          have deed : Deed s.config s.cancelled s.aborted w _ .entryPoint task _
              (written s.config w task.taskId flagged) _ := .expire run failed expires
          rw [gPropagateError_some] at deed
          exact ⟨_, does_of current rfl act deed ⟨rfl, rfl, rfl, rfl, rfl⟩, rfl⟩
        · rename_i stays
          have act : acted s w .entryPoint task = none := by simp [acted, stays]
          split at called
          · cases called
            exact ⟨_, does_of current rfl act (.exitFails run) ⟨rfl, rfl, rfl, rfl, rfl⟩, rfl⟩
          · cases called
            exact ⟨_, does_of current rfl act (.exit run) ⟨rfl, rfl, rfl, rfl, rfl⟩, rfl⟩

/-- What `task_handler` leaves attached when it stays or leaves. -/
def Leaves (stays : Bool) (next : Option Source) (loop loop' : MainLoop Source) : Prop :=
  if stays then next = some .taskHandler ∧ loop' = loop else loop' = attached next loop

/-- What `task_handler` does. -/
def Handled (w : World) (stays : Bool) (s t : AppData) : Prop :=
  ∃ next, Does w .taskHandler next s t ∧ Leaves stays next s.loop t.loop

theorem Calls.handled (calls : Calls w .taskHandler s t) : Handled w false s t := by
  obtain ⟨next, does, loop⟩ := calls
  exact ⟨next, does, by simpa [Leaves] using loop⟩

/-- `task_handler` stays attached and the task is changed. -/
theorem stays_handled (current : s.tasks = task :: rest) (act : acted s w .taskHandler task = did)
    (deed : Deed s.config s.cancelled s.aborted w did .taskHandler task task' s.config
      (some .taskHandler)) :
    Handled w true s { s with tasks := task' :: rest } :=
  ⟨_, does_of current rfl act deed ⟨rfl, rfl, rfl, rfl, rfl⟩, rfl, rfl⟩

/-- `task_handler` stays attached and waits. -/
theorem wait_handled (current : s.tasks = task :: rest) (act : acted s w .taskHandler task = none) :
    Handled w true s s :=
  ⟨_, does_of current current act (.keep rfl (.inl rfl) (by simp)) ⟨rfl, rfl, rfl, rfl, rfl⟩, rfl, rfl⟩

private theorem taskIdle_handled (current : s.tasks = task :: rest) (idle : task.state = .idle)
    {stays : Bool}
    (called : taskIdle s w task rest = (t, stays)) : Handled w stays s t := by
  have act : acted s w .taskHandler task = none := by simp only [acted, idle]
  unfold taskIdle at called
  split at called
  case isTrue unreadable =>
    cases called
    exact stays_handled current act (.unread idle unreadable)
  case isFalse readable =>
    have read : w.configReads = true := by simpa using readable
    dsimp only at called
    split at called
    case isTrue finished =>
      cases called
      exact stays_handled current act (.pass idle read finished)
    case isFalse due =>
      have due : task.finished = false := by simpa using due
      split at called
      case isTrue stopped =>
        cases called
        exact ⟨_, does_of current rfl act (.drop idle read due stopped) ⟨rfl, rfl, rfl, rfl, rfl⟩, rfl, rfl⟩
      case isFalse live =>
        have live : s.cancelled = false := by simpa using live
        split at called
        case isTrue flag =>
          cases called
          exact stays_handled current act (.expired idle read due live flag)
        case isFalse unflagged =>
          have unflagged : (s.config task.taskId).localwatchdog = false := by simpa using unflagged
          split at called
          case isTrue old =>
            cases called
            exact stays_handled current act (.resume idle read due unflagged old)
          case isFalse new =>
            cases called
            exact ⟨_, does_of current rfl act (.begin idle read due unflagged (by simpa using new))
              ⟨rfl, rfl, rfl, rfl, rfl⟩, rfl⟩

/-- A dependency that was installed at once leaves the task in `TASK_RUN`, whatever
came of it. -/
theorem dependencyFinishCb_installed (current : s.tasks = task :: rest)
    (called : dependencyFinishCb s w = some t) :
    ∃ error, (error = task.error ∨ error.isSome = true) ∧ toRun t = proceed s { task with
      error := error
      state := .run } := by
  simp only [dependencyFinishCb, current, List.head?_cons, Option.map_some, Option.some.injEq] at called
  subst called
  split
  · exact ⟨_, .inr gPropagateError_isSome, rfl⟩
  · exact ⟨_, .inl rfl, rfl⟩

private theorem taskDependencies_handled (current : s.tasks = task :: rest)
    (dependencies : task.state = .dependencies) {stays : Bool}
    (called : taskDependencies s w task = some (t, stays)) : Handled w stays s t := by
  unfold taskDependencies at called
  split at called
  case isTrue old =>
    cases called
    have same : toRun s = { s with tasks := { task with state := .run } :: rest } := by
      simp [toRun, current]
    rw [same]
    exact stays_handled current (by simp [acted, dependencies, old]) (.uninstalled dependencies old)
  case isFalse new =>
    have new : task.started = false := by simpa using new
    split at called
    case isTrue wait =>
      cases called
      exact wait_handled current (by simp [acted, dependencies, wait])
    case isFalse go =>
      have act : acted s w .taskHandler task = some .install := by
        simp only [acted, dependencies, new, Bool.false_or, if_neg go]
      split at called
      · cases called
      · obtain ⟨u, started, same⟩ := Option.map_eq_some_iff.mp called
        cases same
        split at started
        · obtain ⟨error, own, same⟩ := dependencyFinishCb_installed current started
          rw [same]
          exact ⟨_, proceed_does current act (.installed dependencies new own), rfl⟩
        · cases started
          have changed : (toRun (attach s .dependencies)).tasks = { task with state := .run } :: rest := by
            simp [toRun, attach, current]
          exact ⟨_, does_of current changed act (.install dependencies new)
            ⟨rfl, rfl, rfl, rfl, rfl⟩, rfl⟩

private theorem taskRun_handled (current : s.tasks = task :: rest) (run : task.state = .run)
    {stays : Bool}
    (called : taskRun s w task rest = some (t, stays)) : Handled w stays s t := by
  unfold taskRun at called
  split at called
  case isTrue stopped =>
    cases called
    exact ⟨_, does_of current rfl (by simp [acted, run, stopped]) (.skip run stopped)
      ⟨rfl, rfl, rfl, rfl, rfl⟩, rfl, rfl⟩
  case isFalse live =>
    obtain ⟨metadata, described, same⟩ := Option.map_eq_some_iff.mp called
    have live : s.cancelled = false := by simpa using live
    simp only [configSet_written] at same
    cases same
    exact ⟨_, does_of current rfl (by simp [acted, run, live]) (.launch run live described)
      ⟨rfl, rfl, rfl, rfl, rfl⟩, rfl⟩

/-- The states in which a step of `task_handler` is a deed. -/
theorem taskHandler_handled (current : s.tasks = task :: rest) (notCompleted : task.state ≠ .completed)
    (notNext : task.state ≠ .next) {stays : Bool} (called : taskHandler s w = some (t, stays)) :
    Handled w stays s t := by
  simp only [taskHandler, current] at called
  split at called
  case h_1 idle => exact taskIdle_handled current idle (Option.some.inj called)
  case h_2 fetch =>
    split at called
    case isTrue wait =>
      cases called
      exact wait_handled current (by simp [acted, fetch, wait])
    case isFalse go =>
      have act : acted s w .taskHandler task = some .fetch := by
        simp only [acted, fetch, if_neg go]
      obtain ⟨u, started, same⟩ := Option.map_eq_some_iff.mp called
      cases same
      exact (restraintTaskFetch_calls current fetch (.inr ⟨act, fetch⟩) (by simp) started).handled
  case h_3 parse =>
    have act : acted s w .taskHandler task = none := by simp only [acted, parse]
    obtain ⟨u, started, same⟩ := Option.map_eq_some_iff.mp called
    cases same
    split at started
    case isTrue synchronous =>
      exact (metadataFinishCb_does current parse act (.inr ⟨rfl, synchronous⟩) started).handled
    case isFalse =>
      cases started
      exact ⟨_, does_of current rfl act (.prepare parse) ⟨rfl, rfl, rfl, rfl, rfl⟩, rfl⟩
  case h_4 refresh =>
    have act : acted s w .taskHandler task = none := by simp only [acted, refresh]
    have quiet : Quiet s w .taskHandler := by
      rw [Quiet, current]
      rintro _ ⟨⟩
      exact act
    split at called
    · split at called
      · cases called
        exact wait_handled current act
      · obtain ⟨u, started, same⟩ := Option.map_eq_some_iff.mp called
        cases same
        split at started
        · exact (recipeFetchComplete_calls (by simpa [Ready, Fits, current] using refresh) quiet
            (by simp) started).handled
        · cases started
          exact ⟨_, attach_does .roleRefresh current rfl (.inl act) (by simp), rfl⟩
    · cases called
      exact stays_handled current act (.roles refresh)
  case h_5 env =>
    cases called
    exact stays_handled current (by simp only [acted, env]) (.environment env)
  case h_6 watchdog =>
    split at called
    case isTrue old =>
      cases called
      exact stays_handled current (by simp [acted, watchdog, old]) (.unposted watchdog old)
    case isFalse new =>
      have new : task.started = false := by simpa using new
      have act : acted s w .taskHandler task = some .post := by simp [acted, watchdog, new]
      cases called
      have deed : Deed s.config s.cancelled s.aborted w (some .post) .taskHandler task
          { task with state := .dependencies } s.config
          (if (task.remainingTime + EWD_TIME) % 2 ^ 64 = 0 then none else some .taskMessage) :=
        .post watchdog new
      unfold restraintTaskWatchdog
      split
      case isTrue zero =>
        rw [if_pos zero] at deed
        exact ⟨_, does_of current rfl act deed ⟨rfl, rfl, rfl, rfl, rfl⟩, rfl⟩
      case isFalse some =>
        rw [if_neg some] at deed
        exact ⟨_, does_of current rfl act deed ⟨rfl, rfl, rfl, rfl, rfl⟩, rfl⟩
  case h_7 dependencies => exact taskDependencies_handled current dependencies called
  case h_8 run => exact taskRun_handled current run called
  case h_9 complete =>
    cases called
    exact stays_handled current (by simp only [acted, complete]) (.conclude complete)
  case h_10 completed => exact absurd completed notCompleted
  case h_11 next => exact absurd next notNext
  all_goals
    rename_i state
    cases called
    exact wait_handled current (by simp only [acted, state])

end Restraint.TaskSteps

import Restraint.ActivationProofs
import Restraint.TaskStrides

/-! What the requests read of the current task, and which task they are for. The path of a request
names a task; the daemon takes the current one. It is the right one as long as each request names
it. Which branch of the daemon reads what is listed once, as a predicate on the state and the path,
and the crashes are where that predicate fails. -/
namespace Restraint.Requests
open Transition
open CString (Text gStrsplit gStrHasSuffix strstr gStrjoinv)
open Restraint.Harness Restraint.TaskHandler Restraint.TaskMachine Restraint.TaskRefinement
open Restraint.TaskSteps
open Restraint.Server (abortRequested adjustWatchdog serverRecipeCallback serverMsgComplete)

/-- The paths that `server_recipe_callback` is called for. -/
def underRecipes (path : Text) : Prop :=
  path = "/recipes".toList ∨ "/recipes/".toList <+: path

/-- The recipe was parsed and has tasks, and it is not over. -/
def underWay (s : AppData) : Bool :=
  (s.state = .run || s.state = .running) && !(s.past ++ s.tasks).isEmpty

/-- There is metadata: the task is past `TASK_METADATA_PARSE`, unless it was given up. -/
def described (task : Task) : Bool :=
  match task.state with
  | .idle | .fetch | .metadataParse => false
  | .refreshRoles | .env | .watchdog | .dependencies | .run => true
  | _ => task.metadata.isSome

/-- There is an environment: the task is past `TASK_ENV`, unless it was given up. -/
def equipped (task : Task) : Bool :=
  match task.state with
  | .idle | .fetch | .metadataParse | .refreshRoles | .env => false
  | .watchdog | .dependencies | .run => true
  | _ => task.env

/-- A request with this path can be answered. -/
def answers (s : AppData) (path : Text) : Bool :=
  s.state = .idle || underWay s && (!watchdogAsked path || s.tasks.head?.any described)

/-- A message that was forwarded can be completed. -/
def completes (s : AppData) (results noPlugins : Bool) : Bool :=
  underWay s && (!(results && !noPlugins) || s.tasks.head?.any equipped)

/-- The state of a task says what there is of it. -/
structure Furnished (task : Task) : Prop where
  metadata : task.metadata.isSome = described task
  env : task.env = equipped task

/-- Every task is furnished, and there is a current one while the recipe is under way. -/
structure Supplied (m : Snapshot) : Prop where
  current : ∀ task ∈ m.tasks.head?, Furnished task
  fresh : ∀ task ∈ m.tasks.tail, task.metadata = none ∧ task.env = false
  recipe : m.tasks ≠ [] → m.recipe.isSome = true
  whole : m.state = .running → m.tasks = [] → m.past = []
  live : m.state ≠ .fail

section
variable {m n : Snapshot} {did : Option Effect} {source : Option Source} {active : Source}
  {e : Server.Event} {w : World}
  {task task' : Task} {next : Option Source} {config config' : Text → Section}
  {cancelled : Bool} {aborted : StateAborted} {rest : List Task}

private theorem deed_furnished
    (deed : Deed config cancelled aborted w did active task task' config' next)
    (furnished : Furnished task) : Furnished task' := by
  obtain ⟨metadata, env⟩ := furnished
  cases deed with
  | keep => exact ⟨metadata, env⟩
  | resume idle =>
    simp only [described, equipped, idle] at metadata env
    exact ⟨metadata, env⟩
  | begin idle =>
    simp only [described, equipped, idle] at metadata env
    exact ⟨metadata, env⟩
  | fetched fetch =>
    simp only [described, equipped, fetch] at metadata env
    exact ⟨metadata, env⟩
  | prepare parse =>
    simp only [described, equipped, parse] at metadata env
    constructor <;> simp only [described, equipped, parse, metadata, env]
  | described parse =>
    simp only [equipped, parse] at env
    exact ⟨rfl, env⟩
  | roles refresh =>
    simp only [described, equipped, refresh] at metadata env
    exact ⟨metadata, env⟩
  | environment state =>
    simp only [described, state] at metadata
    exact ⟨metadata, rfl⟩
  | post watchdog =>
    simp only [described, equipped, watchdog] at metadata env
    exact ⟨metadata, env⟩
  | unposted watchdog =>
    simp only [described, equipped, watchdog] at metadata env
    exact ⟨metadata, env⟩
  | uninstalled dependencies =>
    simp only [described, equipped, dependencies] at metadata env
    exact ⟨metadata, env⟩
  | install dependencies =>
    simp only [described, equipped, dependencies] at metadata env
    exact ⟨metadata, env⟩
  | installed dependencies =>
    simp only [described, equipped, dependencies] at metadata env
    exact ⟨metadata, env⟩
  | launch run =>
    simp only [described, equipped, run] at metadata env
    constructor <;> simp only [described, equipped, run, metadata, env]
  | _ => exact ⟨rfl, rfl⟩

theorem Furnished.same (furnished : Furnished task) (state : task'.state = task.state)
    (metadata : task'.metadata = task.metadata) (env : task'.env = task.env) : Furnished task' := by
  obtain ⟨before, built⟩ := furnished
  constructor
  · simpa only [described, state, metadata] using before
  · simpa only [equipped, state, env] using built

private theorem adjustWatchdog_furnished {metadata : Metadata} {seconds : Option Text} {time : Nat}
    (furnished : Furnished task) : Furnished (adjustWatchdog task metadata seconds time) := by
  unfold adjustWatchdog
  dsimp only
  split
  · exact furnished
  · exact furnished.same rfl rfl rfl

/-- A stride that keeps the task the current one keeps all supplied. -/
theorem Supplied.change (supplied : Supplied m) (current : m.tasks = task :: rest)
    (tasks : n.tasks = task' :: rest) (furnished : Furnished task → Furnished task')
    (same : n.recipe = m.recipe ∧ n.state = m.state) : Supplied n where
  current := by
    rw [tasks]
    rintro _ ⟨⟩
    exact furnished (supplied.current task (by rw [current]; rfl))
  fresh := by
    have fresh := supplied.fresh
    rw [current] at fresh
    rwa [tasks]
  recipe := fun _ => same.1 ▸ supplied.recipe (by simp [current])
  whole := by simp [tasks]
  live := same.2 ▸ supplied.live

/-- Without tasks there is nothing to supply. -/
theorem supplied_of_none (none : m.tasks = []) (notRunning : m.state ≠ .running ∨ m.past = [])
    (live : m.state ≠ .fail) : Supplied m where
  current := by simp [none]
  fresh := by simp [none]
  recipe := by simp [none]
  whole := fun running _ => notRunning.resolve_left fun other => other running
  live := live

private theorem stride_supplied {s : AppData} (sound : Sound (view s)) (supplied : Supplied (snapshot s))
    (stride : Stride source e did (snapshot s) n) : Supplied n := by
  cases stride with
  | still => exact supplied
  | retrieve before after =>
    obtain ⟨none, past, -⟩ := sound.before before
    have noTasks : s.tasks = [] := List.map_eq_nil_iff.mp none
    refine supplied_of_none noTasks (.inl ?_) ?_
    all_goals
      rintro rfl
      rcases after with after | after <;> cases after
  | @parse w recipeId xmls id event parsed recipe =>
    have fresh : ∀ task ∈ xmls.map parseTask, Furnished task ∧ task.metadata = none ∧ task.env = false := by
      intro task member
      obtain ⟨xml, -, rfl⟩ := List.mem_map.mp member
      exact ⟨⟨rfl, rfl⟩, rfl, rfl⟩
    refine ⟨?_, ?_, fun _ => rfl, nofun, nofun⟩
    · exact fun task head => (fresh task (List.mem_of_mem_head? head)).1
    · exact fun task member => (fresh task (List.mem_of_mem_tail member)).2
  | launch ready =>
    refine { supplied with whole := fun _ _ => ?_, live := nofun }
    exact List.map_eq_nil_iff.mp (sound.ready ready).2.1
  | work event here current turn deed =>
    exact supplied.change current rfl (deed_furnished deed) ⟨rfl, rfl⟩
  | report event here current turn completed =>
    exact supplied.change current rfl (fun _ => ⟨rfl, rfl⟩) ⟨rfl, rfl⟩
  | advance here current turn done =>
    have fresh := supplied.fresh
    rw [current] at fresh
    refine ⟨?_, fun task member => fresh task (List.mem_cons_of_mem _ member), ?_, by simp,
      supplied.live⟩
    · rintro _ ⟨⟩
      obtain ⟨metadata, env⟩ := fresh _ List.mem_cons_self
      exact ⟨by simp [metadata, described], by simp [env, equipped]⟩
    · exact fun _ => supplied.recipe (by simp [current])
  | finish => exact supplied_of_none rfl (.inl nofun) nofun
  | stop none => exact { supplied with }
  | results current => exact supplied.change current rfl (fun before => before.same rfl rfl rfl) ⟨rfl, rfl⟩
  | adjust event request asked live current described =>
    exact supplied.change current rfl adjustWatchdog_furnished ⟨rfl, rfl⟩
  | abort current => exact { supplied with }
  | leave running => exact { supplied with }
  | close complete =>
    exact supplied_of_none (List.map_eq_nil_iff.mp (sound.ended (.inl complete))) (.inl nofun) nofun

end

variable {s t : AppData} {path body : Text} {form : List (Text × Text)} {time : Nat}
  {stdin : Bool} {config : Text → Section} {events : List Server.Event}

private theorem run_supplied (ran : run Server.step (Server.start stdin config) events = some s) :
    Sound (view s) ∧ Supplied (snapshot s) := by
  refine run_keeps (I := fun s => Sound (view s) ∧ Supplied (snapshot s)) ?_ ⟨start_sound, ?_⟩ ran
  · rintro s e t ⟨sound, supplied⟩ stepped
    exact ⟨turn_sound sound (step_turn sound stepped),
      stride_supplied sound supplied (step_strides sound stepped)⟩
  · apply supplied_of_none (m := snapshot (Server.start stdin config)) rfl (.inr rfl)
    cases stdin <;> nofun

/-- While the recipe is under way there is a current task, and only then. -/
theorem underWay_iff (sound : Sound (view s)) (supplied : Supplied (snapshot s)) :
    underWay s = true ↔ s.tasks ≠ [] := by
  constructor
  · intro under none
    simp only [underWay, none, List.append_nil, Bool.and_eq_true, Bool.or_eq_true,
      decide_eq_true_eq, Bool.not_eq_true', List.isEmpty_eq_false_iff] at under
    obtain ⟨state, past⟩ := under
    rcases state with ready | running
    · exact past (List.map_eq_nil_iff.mp (sound.ready ready).2.1)
    · exact past (supplied.whole running none)
  · intro some
    obtain ⟨there, notOver, notIdle⟩ := sound.under_way (by simpa [view] using some)
    have state : s.state = .run ∨ s.state = .running := by
      simp only [view] at there notOver notIdle
      have live : s.state ≠ .fail := supplied.live
      cases here : s.state <;> simp_all [early]
    simpa [underWay, some] using state

/-- The pieces of a path under `/recipes/`. -/
theorem gStrsplit_recipes (under : "/recipes/".toList <+: path) :
    ∃ rest, gStrsplit path = [] :: "recipes".toList :: rest ∧ rest ≠ [] := by
  obtain ⟨rest, rfl⟩ := under
  refine ⟨rest.splitOn '/', ?_, List.splitOn_ne_nil _ _⟩
  have pieces := List.splitOn_append_cons_self_of_not_mem (a := '/') (by decide : '/' ∉ "recipes".toList) rest
  rw [gStrsplit, if_neg (by simp)]
  exact CString.splitOn_cons_slash.trans (congrArg _ pieces)

/-- A status path has the parts that are read. -/
theorem abortRequested_some {recipeId taskId : Text} (under : underRecipes path)
    (status : gStrHasSuffix path "status".toList = true) :
    (abortRequested recipeId taskId path body).isSome = true := by
  rcases under with rfl | under
  · exact absurd status (by decide)
  obtain ⟨rest, pieces, some⟩ := gStrsplit_recipes under
  have positive := List.length_pos_of_ne_nil some
  have long : ¬(gStrsplit path).length < 3 := by simp [pieces]; omega
  unfold abortRequested
  simp only [if_neg long]
  split
  · rfl
  · split
    · split <;> rfl
    · split
      · rename_i tasks
        have longer : ¬(gStrsplit path).length < 4 := by
          intro short
          have three : rest.length = 1 := by simp [pieces] at short; omega
          simp [pieces, three] at tasks
        simp only [if_neg longer]
        split <;> rfl
      · rfl

/-- What `server_recipe_callback` reads besides the path and the current task is
there when the recipe is. -/
theorem serverRecipeCallback_isSome (under : underRecipes path)
    (recipe : s.tasks ≠ [] → s.recipe.isSome = true) :
    (serverRecipeCallback s path body form time).isSome = true ↔
      s.state = .idle ∨
        ∃ task ∈ s.tasks.head?, watchdogAsked path = true → task.metadata.isSome = true := by
  unfold serverRecipeCallback
  split
  case isTrue idle => simp [idle]
  case isFalse live =>
    split
    case h_1 none => simp [live, none]
    case h_2 task rest current =>
      simp only [live, current, List.head?_cons, Option.mem_some_iff, false_or, exists_eq_left']
      unfold watchdogAsked
      split
      case isTrue results =>
        rw [results]
        simp
      case isFalse noResults =>
        rw [Bool.eq_false_iff.mpr noResults]
        split
        case isTrue logs =>
          rw [logs]
          simp
        case isFalse noLogs =>
          rw [Bool.eq_false_iff.mpr noLogs]
          split
          case isTrue watchdog =>
            rw [watchdog]
            simp
          case isFalse other =>
            rw [Bool.eq_false_iff.mpr other]
            split
            case isTrue status =>
              obtain ⟨recipeId, named⟩ := Option.isSome_iff_exists.mp (recipe (by simp [current]))
              simp [named, abortRequested_some under status]
            case isFalse => simp

/-- **A request is answered, and what it forwarded is completed, without reading a
current task, metadata or an environment that is not there, exactly while the
recipe is under way and the current task is far enough for what is asked.** -/
theorem requests_find_current_task
    (ran : run Server.step (Server.start stdin config) events = some s) :
    (∀ path body form time, underRecipes path →
        ((serverRecipeCallback s path body form time).isSome = true ↔ answers s path = true)) ∧
      ∀ results noPlugins,
        (serverMsgComplete s results noPlugins).isSome = true ↔ completes s results noPlugins = true := by
  obtain ⟨sound, supplied⟩ := run_supplied ran
  have there := underWay_iff sound supplied
  constructor
  · intro path body form time under
    rw [serverRecipeCallback_isSome under supplied.recipe]
    simp only [answers, Bool.or_eq_true, decide_eq_true_eq, Bool.and_eq_true, there]
    apply or_congr Iff.rfl
    cases current : s.tasks with
    | nil => simp
    | cons task rest =>
      have furnished := (supplied.current task (by simp [snapshot, current])).metadata
      cases watchdogAsked path <;> simp [furnished]
  · intro results noPlugins
    unfold serverMsgComplete
    simp only [completes, Bool.and_eq_true, there]
    cases current : s.tasks with
    | nil => simp
    | cons task rest =>
      have furnished := (supplied.current task (by simp [snapshot, current])).env
      rw [List.head?_cons, Option.any_some, ← furnished]
      cases results <;> cases noPlugins <;> cases built : task.env <;> simp [built]

open ActivationProofs (calm twoTasks packageFails)

/-- The first task is being fetched. -/
def fetching : List Server.Event :=
  [1, 2, 2, 3, 4, 5].map fun id => .dispatch id (calm (twoTasks "New".toList))

theorem requests_find_current_task_fetching :
    ∃ s, run Server.step (Server.start true fun _ => .empty) fetching = some s ∧
      (serverRecipeCallback s "/recipes/1/tasks/10/results/".toList [] [] 0).isSome = true := by
  have answered : (run Server.step (Server.start true fun _ => .empty) fetching).map (fun s =>
      answers s "/recipes/1/tasks/10/results/".toList) = some true := by
    decide +kernel
  obtain ⟨s, ran, answered⟩ := Option.map_eq_some_iff.mp answered
  have under : underRecipes "/recipes/1/tasks/10/results/".toList := .inr ⟨_, rfl⟩
  exact ⟨s, ran, ((requests_find_current_task ran).1 _ [] [] 0 under).mpr answered⟩

/-- A request that comes before the recipe finds no task, and one to change the
watchdog finds no metadata while the task is fetched. -/
theorem requests_find_nothing :
    serverRecipeCallback (Server.start false fun _ => .empty) "/recipes/1/watchdog".toList [] [] 0 = none ∧
      ∃ s, run Server.step (Server.start true fun _ => .empty) fetching = some s ∧
        serverRecipeCallback s "/recipes/1/watchdog".toList []
          [("seconds".toList, "600".toList)] 0 = none := by
  refine ⟨rfl, ?_⟩
  have found : (run Server.step (Server.start true fun _ => .empty) fetching).map (fun s =>
      (serverRecipeCallback s "/recipes/1/watchdog".toList []
        [("seconds".toList, "600".toList)] 0).isNone) = some true := by
    decide +kernel
  obtain ⟨s, ran, none⟩ := Option.map_eq_some_iff.mp found
  exact ⟨s, ran, Option.isNone_iff_eq_none.mp none⟩

/-- The task that is named by a path for results, `/recipes/R/tasks/T/results/`. -/
def namedTask (path : Text) : Option Text :=
  match gStrsplit path with
  | [[], recipes, _, tasks, taskId, results, []] =>
    if recipes = "recipes".toList ∧ tasks = "tasks".toList ∧ results = "results".toList then some taskId
    else none
  | _ => none

/-- `soup_uri_new_with_base (task->task_uri, "results/")`, for a task of the recipe
with this URI. -/
def resultsUri (recipeUri taskId : Text) : Text :=
  recipeUri ++ ("tasks/".toList ++ (taskId ++ "/results/".toList))

/-- The task that `server_recipe_callback` forwards a result for. -/
def resultsTask (s : AppData) (path : Text) : Option Task :=
  if s.state = .idle then none
  else s.tasks.head?.filter fun _ => gStrHasSuffix path "/results/".toList

/-- A task if its `results_reported` was set. -/
def nowReported (before after : Task) : Option Text :=
  if !before.resultsReported && after.resultsReported then some after.taskId else none

/-- The tasks whose `results_reported` a step sets. -/
def newlyReported (s t : AppData) : List Text :=
  (List.zipWith nowReported (s.past ++ s.tasks) (t.past ++ t.tasks)).filterMap id

/-- A result is rejected, or it goes to this task and to no other. -/
structure GoesTo (recipeUri taskId path : Text) (s t : AppData) : Prop where
  forwarded : ∀ task ∈ resultsTask s path, resultsUri recipeUri task.taskId = resultsUri recipeUri taskId
  reported : ∀ other ∈ newlyReported s t, other = taskId

/-- A request for results goes to the task that it names. -/
def GoesToNamed (recipeUri : Text) (s : AppData) (e : Server.Event) (t : AppData) : Prop :=
  match e with
  | .request path _ _ _ => ∀ taskId ∈ namedTask path, GoesTo recipeUri taskId path s t
  | .dispatch .. => True

/-- The task that is named by a request for results is the current one. -/
def namesCurrent (s : AppData) (e : Server.Event) : Prop :=
  match e with
  | .request path _ _ _ => s.state = .idle ∨
      ∀ taskId ∈ namedTask path, ∀ task ∈ s.tasks.head?, task.taskId = taskId
  | .dispatch .. => True

instance (s : AppData) (e : Server.Event) : Decidable (namesCurrent s e) := by
  unfold namesCurrent
  cases e <;> infer_instance

/-- A path that names a task is a path for results. -/
theorem namedTask_results {taskId : Text} (named : namedTask path = some taskId) :
    gStrHasSuffix path "/results/".toList = true := by
  unfold namedTask at named
  split at named
  case h_1 recipes recipeId tasks taskId results pieces =>
    split at named
    case isTrue words =>
      obtain ⟨-, -, rfl⟩ := words
      have some : path ≠ [] := by
        rintro rfl
        simp [gStrsplit] at pieces
      rw [gStrsplit, if_neg some] at pieces
      have whole : ['/'].intercalate (path.splitOn '/') = path := List.intercalate_splitOn '/'
      rw [pieces] at whole
      rw [gStrHasSuffix, List.isSuffixOf_iff_suffix, ← whole]
      refine ⟨'/' :: (recipes ++ '/' :: (recipeId ++ '/' :: (tasks ++ '/' :: taskId))), ?_⟩
      simp [List.intercalate, List.intersperse]
    case isFalse => cases named
  case h_2 => cases named

private theorem nowReported_self (task : Task) : nowReported task task = none := by
  unfold nowReported
  cases task.resultsReported <;> rfl

/-- Only the task that is changed can be reported newly. -/
theorem newlyReported_of_change {task task' : Task} {rest : List Task} (current : s.tasks = task :: rest)
    (changed : t.tasks = task' :: rest) (past : t.past = s.past) (same : task'.taskId = task.taskId) :
    ∀ other ∈ newlyReported s t, other = task.taskId := by
  intro other member
  obtain ⟨_, member, rfl⟩ := List.mem_filterMap.mp member
  rw [current, changed, past, List.zipWith_append rfl, List.mem_append] at member
  have unchanged (tasks : List Task) : some other ∉ List.zipWith nowReported tasks tasks := by
    simp [List.zipWith_self, nowReported_self]
  rcases member with before | member
  · exact absurd before (unchanged _)
  rcases List.mem_cons.mp member with here | after
  · unfold nowReported at here
    split at here
    · rw [Option.some.inj here, same]
    · cases here
  · exact absurd after (unchanged _)

/-- A result is forwarded for the current task. -/
theorem serverRecipeCallback_results {task : Task} {rest : List Task}
    (results : gStrHasSuffix path "/results/".toList = true) (live : s.state ≠ .idle)
    (current : s.tasks = task :: rest)
    (called : serverRecipeCallback s path body form time = some t) :
    resultsTask s path = some task ∧ t.past = s.past ∧
      t.tasks = { task with resultsReported := true } :: rest := by
  have target : resultsTask s path = some task := by
    rw [resultsTask, if_neg live, current, List.head?_cons, Option.filter_some, if_pos results]
  rw [serverRecipeCallback, if_neg live] at called
  simp only [current, results, if_true, Option.some.injEq] at called
  subst called
  exact ⟨target, rfl, rfl⟩

/-- A result goes to the task that is named if that is the current one. -/
theorem goesTo_iff {recipeUri taskId : Text} (named : namedTask path = some taskId)
    (called : serverRecipeCallback s path body form time = some t) :
    GoesTo recipeUri taskId path s t ↔
      s.state = .idle ∨ ∀ task ∈ s.tasks.head?, task.taskId = taskId := by
  by_cases idle : s.state = .idle
  · rw [serverRecipeCallback, if_pos idle] at called
    cases called
    have none : newlyReported s s = [] := by
      simp [newlyReported, List.zipWith_self, nowReported_self]
    refine iff_of_true ⟨?_, ?_⟩ (.inl idle)
    · simp [resultsTask, idle]
    · simp [none]
  cases current : s.tasks with
  | nil => simp [serverRecipeCallback, idle, current] at called
  | cons task rest =>
    obtain ⟨target, past, changed⟩ :=
      serverRecipeCallback_results (namedTask_results named) idle current called
    simp only [idle, List.head?_cons, Option.mem_some_iff, false_or, forall_eq']
    constructor
    · intro goes
      have same := goes.forwarded task target
      exact List.append_cancel_right (List.append_cancel_left (List.append_cancel_left same))
    · rintro rfl
      refine ⟨?_, newlyReported_of_change current changed past rfl⟩
      rw [target]
      rintro _ ⟨⟩
      rfl

/-- **Every result goes to the task that its path names, exactly as long as each
names the current task.** -/
theorem results_go_to_named_task (recipeUri : Text)
    (ran : run Server.step (Server.start stdin config) events = some s) :
    (∀ before e after middle next, events = before ++ e :: after →
        run Server.step (Server.start stdin config) before = some middle →
        Server.step middle e = some next → GoesToNamed recipeUri middle e next) ↔
      run (only Server.step namesCurrent) (Server.start stdin config) events = some s := by
  have stepwise (middle next : AppData) (e : Server.Event) (stepped : Server.step middle e = some next) :
      GoesToNamed recipeUri middle e next ↔ namesCurrent middle e := by
    cases e with
    | dispatch => exact Iff.rfl
    | request path body form time =>
      simp only [Server.step] at stepped
      split at stepped
      · cases stepped
      simp only [GoesToNamed, namesCurrent]
      cases named : namedTask path with
      | none => simp
      | some taskId => simpa using goesTo_iff named stepped
  rw [run_only_iff ran]
  constructor
  · intro goes before e after middle split reached
    rw [split] at ran
    obtain ⟨middle', reached', onward⟩ := run_append.mp ran
    cases reached.symm.trans reached'
    obtain ⟨next, stepped, -⟩ := run_cons.mp onward
    exact (stepwise middle next e stepped).mp (goes before e after middle next split reached stepped)
  · intro permitted before e after middle next split reached stepped
    exact (stepwise middle next e stepped).mpr (permitted before e after middle split reached)

/-- A request for the results of the first task. -/
def reportsFirst : Server.Event := .request "/recipes/1/tasks/10/results/".toList [] [] 0

theorem results_go_to_named_task_first :
    ∃ s, run Server.step (Server.start true fun _ => .empty) (fetching ++ [reportsFirst]) = some s ∧
      ∀ before e after middle next, fetching ++ [reportsFirst] = before ++ e :: after →
        run Server.step (Server.start true fun _ => .empty) before = some middle →
        Server.step middle e = some next →
        GoesToNamed "http://localhost/recipes/1/".toList middle e next := by
  have restricted : (run (only Server.step namesCurrent) (Server.start true fun _ => .empty)
      (fetching ++ [reportsFirst])).isSome = true := by
    decide +kernel
  obtain ⟨s, restricted⟩ := Option.isSome_iff_exists.mp restricted
  have ran := run_of_only restricted
  exact ⟨s, ran, (results_go_to_named_task _ ran).mpr restricted⟩

/-- The first task is over, and a result for it goes to the second one. -/
theorem results_go_to_next_task :
    ∃ s t, run Server.step (Server.start true fun _ => .empty)
        (packageFails (twoTasks "New".toList) ++ [.dispatch 8 (calm []), .dispatch 9 (calm [])]) =
          some s ∧
      Server.step s reportsFirst = some t ∧
      ¬GoesToNamed "http://localhost/recipes/1/".toList s reportsFirst t := by
  have shown : (run Server.step (Server.start true fun _ => .empty)
      (packageFails (twoTasks "New".toList) ++
        [.dispatch 8 (calm []), .dispatch 9 (calm [])])).bind (fun s =>
      (Server.step s reportsFirst).map fun t => newlyReported s t) = some ["11".toList] := by
    decide +kernel
  obtain ⟨s, ran, shown⟩ := Option.bind_eq_some_iff.mp shown
  obtain ⟨t, stepped, reported⟩ := Option.map_eq_some_iff.mp shown
  refine ⟨s, t, ran, stepped, fun goes => ?_⟩
  have named : namedTask "/recipes/1/tasks/10/results/".toList = some "10".toList := by decide +kernel
  have same := (goes _ named).reported "11".toList (by rw [reported]; exact List.mem_singleton_self _)
  exact absurd same (by decide)

end Restraint.Requests

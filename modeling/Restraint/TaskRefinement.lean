import Restraint.Server
import Restraint.TaskMachine

/-! The daemon is a task machine: every step of it is a step of the machine it
shows. The callbacks and `task_handler` each have one lemma that says what they
do to the current task and what they leave attached. -/
namespace Restraint.TaskRefinement
open Restraint.Harness Restraint.TaskHandler Restraint.TaskMachine
open Transition
open Restraint.Server (fetchCompleted restraintXmlParseFromUrl recipeHandler recipeHandlerFinish
  serverRecipeCallback)

/-- What the machine knows of a task. -/
def life (task : Task) : Life := ⟨task.state, task.error, task.finished⟩

/-- The machine that a state of the daemon shows. -/
def view (s : AppData) : Machine where
  recipe := s.state
  past := s.past.map Task.finished
  tasks := s.tasks.map life
  cancelled := s.cancelled
  aborted := s.aborted
  activations := s.loop.kinds activates
  fetching := s.loop.kinds fetches
  trace := s.trace

/-- The state of the current task, if an event is a step of `task_handler`. -/
def handled (s : AppData) : Server.Event → Option TaskSetupState
  | .dispatch id _ =>
    if s.loop.find? id = some .taskHandler then s.tasks.head?.map Task.state else none
  | .request .. => none

/-- The config file can be read in an event. -/
def readable : Server.Event → Bool
  | .dispatch _ w => w.configReads
  | .request .. => true

def act (s : AppData) (e : Server.Event) : Act := ⟨handled s e, readable e⟩

/-- A source that comes with an operation keeps the current task where it is. -/
def Ready (s : AppData) (source : Source) : Prop :=
  ∀ task ∈ s.tasks.head?, Fits source task.state

/-- What a callback of the current task does, and the source it attaches. -/
structure Works (reads : Bool) (sources : Option Source) (s t : AppData) : Prop where
  moved : ∃ life life' rest notes, (view s).tasks = life :: rest ∧ (view t).tasks = life' :: rest ∧
    Move s.cancelled s.aborted reads life life' ∧
    (∀ source ∈ sources, activates source = true ∧ Fits source life'.state) ∧
    t.trace = s.trace ++ notes ∧
    ∀ observed ∈ notes, Noted s.past.length s.cancelled life.state observed
  loop : t.loop = sources.elim s.loop s.loop.add
  state : t.state = s.state
  past : t.past = s.past
  cancelled : t.cancelled = s.cancelled
  aborted : t.aborted = s.aborted

variable {s t : AppData} {task task' : Task} {rest : List Task} {w : World} {reads : Bool}
  {source : Source}

private theorem fetches_of_activates (kind : activates source = true) : fetches source = false := by
  cases source <;> first | rfl | cases kind

private theorem works_of {notes : List Observed} {sources : Option Source}
    (current : s.tasks = task :: rest)
    (changed : t.tasks = task' :: rest)
    (move : Move s.cancelled s.aborted reads (life task) (life task'))
    (fits : ∀ source ∈ sources, activates source = true ∧ Fits source task'.state)
    (trace : t.trace = s.trace ++ notes)
    (noted : ∀ observed ∈ notes, Noted s.past.length s.cancelled task.state observed)
    (loop : t.loop = sources.elim s.loop s.loop.add)
    (same : t.state = s.state ∧ t.past = s.past ∧ t.cancelled = s.cancelled ∧ t.aborted = s.aborted) :
    Works reads sources s t where
  moved := ⟨life task, life task', rest.map life, notes, by simp [view, current],
    by simp [view, changed], move, fits, trace, noted⟩
  loop := loop
  state := same.1
  past := same.2.1
  cancelled := same.2.2.1
  aborted := same.2.2.2

/-- The same, with nothing to be observed. -/
theorem quiet_works {sources : Option Source} (current : s.tasks = task :: rest)
    (changed : t.tasks = task' :: rest)
    (move : Move s.cancelled s.aborted reads (life task) (life task'))
    (fits : ∀ source ∈ sources, activates source = true ∧ Fits source task'.state)
    (trace : t.trace = s.trace) (loop : t.loop = sources.elim s.loop s.loop.add)
    (same : t.state = s.state ∧ t.past = s.past ∧ t.cancelled = s.cancelled ∧ t.aborted = s.aborted) :
    Works reads sources s t :=
  works_of current changed move fits (trace.trans (List.append_nil _).symm) (by simp) loop same

/-- A callback that changes the current task and adds `task_handler`. -/
theorem proceed_works (current : s.tasks = task :: rest)
    (move : Move s.cancelled s.aborted reads (life task) (life task')) :
    Works reads (some .taskHandler) s (proceed s task') := by
  refine quiet_works current ?_ move ?_ rfl rfl ⟨rfl, rfl, rfl, rfl⟩
  · simp [proceed, attach, current]
  · simp [activates, Fits]

/-- A source attached, with nothing done to the task. -/
theorem attach_works (source : Source) (current : s.tasks = task :: rest)
    (kind : activates source = true) (fits : Fits source task.state) :
    Works reads (some source) s (attach s source) := by
  refine quiet_works current current .wait ?_ rfl rfl ⟨rfl, rfl, rfl, rfl⟩
  simpa using ⟨kind, fits⟩

/-- Fields that the machine does not show do not matter. -/
theorem Works.of_same {u : AppData} {sources : Option Source} (works : Works reads sources u t)
    (same : view s = view u) (loop : s.loop = u.loop) (past : s.past = u.past) :
    Works reads sources s t := by
  have cancelled : s.cancelled = u.cancelled := congrArg Machine.cancelled same
  have aborted : s.aborted = u.aborted := congrArg Machine.aborted same
  have state : s.state = u.state := congrArg Machine.recipe same
  have trace : s.trace = u.trace := congrArg Machine.trace same
  refine ⟨?_, ?_, ?_, ?_, ?_, ?_⟩
  · rw [same, cancelled, aborted, trace, past]; exact works.moved
  · rw [loop]; exact works.loop
  · rw [state]; exact works.state
  · rw [past]; exact works.past
  · rw [cancelled]; exact works.cancelled
  · rw [aborted]; exact works.aborted

/-- The config file is all that `restraint_config_set` writes. -/
theorem configSet_eq (taskId : CString.Text) (change : Section → Section) :
    ∃ config, configSet s w taskId change = { s with config := config } := by
  unfold configSet
  split
  · exact ⟨_, rfl⟩
  · exact ⟨s.config, rfl⟩

/-- The first error stays, so the error of an operation is the task's own. -/
theorem gPropagateError_own (own : error ≠ .aborted) :
    gPropagateError dest error = dest ∨ gPropagateError dest error ≠ some .aborted := by
  cases dest with
  | none => exact .inr (by simpa [gPropagateError] using own)
  | some first => exact .inl rfl

theorem gPropagateError_isSome {dest : Option Error} {error : Error} :
    (gPropagateError dest error).isSome = true := by
  cases dest <;> rfl

/-- The sources of the operations that move a task on, and of their retries. -/
def operates : Source → Bool
  | .fetch | .fetchRetry | .fetchPackage | .metadata | .roleRefresh | .refreshRoleRetry
  | .dependencies | .entryPoint => true
  | _ => false

private theorem working_of_fits {state : TaskSetupState} (operation : operates source = true)
    (fits : Fits source state) : working state = true := by
  cases source <;> first | (rw [show state = _ from fits]; rfl) | cases operation

/-- The callback of an operation finds the current task where it was started. -/
theorem callback_cases {f : Task → AppData} (operation : operates source = true)
    (ready : Ready s source) (called : s.tasks.head?.map f = some t) :
    ∃ task rest, s.tasks = task :: rest ∧ Fits source task.state ∧
      working (life task).state = true ∧ f task = t := by
  obtain ⟨task, head, same⟩ := Option.map_eq_some_iff.mp called
  obtain ⟨rest, current⟩ := List.head?_eq_some_iff.mp head
  have fits := ready task head
  exact ⟨task, rest, current, fits, working_of_fits operation fits, same⟩

private theorem fetchFinishCallback_works {error : Option Error} (ready : Ready s .fetch)
    (own : error ≠ some .aborted) (called : fetchFinishCallback s error = some t) :
    ∃ sources, Works reads sources s t := by
  obtain ⟨task, rest, current, fits, busy, rfl⟩ := callback_cases rfl ready called
  cases error with
  | none => exact ⟨_, proceed_works current (.work busy (.inl rfl) (.inl rfl))⟩
  | some error =>
    dsimp only
    split
    · exact ⟨_, (attach_works (s := { s with fetchRetries := s.fetchRetries + 1 }) .fetchRetry current
        rfl fits).of_same rfl rfl rfl⟩
    · exact ⟨_, proceed_works current (.work busy (.inr rfl)
        (gPropagateError_own fun same => own (by rw [same])))⟩

/-- `fetch_retry` and `refresh_role_retry` set the task back to a state that works. -/
theorem retry_works {state : TaskSetupState} (operation : operates source = true)
    (works : working state = true) (ready : Ready s source)
    (called : s.tasks.head?.map (fun task => proceed s { task with state }) = some t) :
    ∃ sources, Works reads sources s t := by
  obtain ⟨task, rest, current, fits, busy, rfl⟩ := callback_cases operation ready called
  exact ⟨_, proceed_works current (.work busy (.inl works) (.inl rfl))⟩

private theorem restraintTaskFetch_works (current : s.tasks = task :: rest) (fetch : task.state = .fetch)
    (called : restraintTaskFetch s task = some t) : ∃ sources, Works reads sources s t := by
  unfold restraintTaskFetch at called
  split at called
  · split at called
    · cases called
      exact ⟨_, attach_works .fetch current rfl fetch⟩
    · refine fetchFinishCallback_works ?_ (by simp) called
      simpa [Ready, current, Fits] using fetch
  · cases called
    exact ⟨_, attach_works .fetchPackage current rfl fetch⟩

private theorem taskHandlerCallback_works (ready : Ready s .fetchPackage)
    (called : taskHandlerCallback s w = some t) : ∃ sources, Works reads sources s t := by
  obtain ⟨task, rest, current, fits, busy, rfl⟩ := callback_cases rfl ready called
  split
  · exact ⟨_, proceed_works current (.work busy (.inr rfl) (.inr (by simp)))⟩
  · split
    · exact ⟨_, proceed_works current (.work busy (.inl rfl) (.inl rfl))⟩
    · exact ⟨_, proceed_works current (.work busy (.inr rfl) (gPropagateError_own (by simp)))⟩

private theorem metadataFinishCb_works (ready : Ready s .metadata)
    (called : metadataFinishCb s w = some t) : ∃ sources, Works reads sources s t := by
  obtain ⟨task, rest, current, fits, busy, rfl⟩ := callback_cases rfl ready called
  dsimp only
  split
  · refine ⟨_, .of_same (proceed_works (s := { s with fetchRetries := 0 }) current
      (.work busy (.inl rfl) ?_)) rfl rfl rfl⟩
    dsimp only
    split
    · exact gPropagateError_own (by simp)
    · exact .inl rfl
  · refine ⟨_, proceed_works current (.work busy (.inr rfl) ?_)⟩
    dsimp only
    split
    · exact gPropagateError_own (by simp)
    · exact .inl rfl

private theorem recipeFetchComplete_works (ready : Ready s .roleRefresh)
    (called : recipeFetchComplete s w = some t) : ∃ sources, Works reads sources s t := by
  obtain ⟨task, rest, current, fits, busy, rfl⟩ := callback_cases rfl ready called
  split
  · split
    · exact ⟨_, (attach_works (s := { s with fetchRetries := s.fetchRetries + 1 }) .refreshRoleRetry
        current rfl fits).of_same rfl rfl rfl⟩
    · exact ⟨_, proceed_works current (.work busy (.inr rfl) (gPropagateError_own (by simp)))⟩
  · split
    · exact ⟨_, proceed_works current (.work busy (.inl rfl) (.inl rfl))⟩
    · exact ⟨_, proceed_works current (.work busy (.inr rfl) (gPropagateError_own (by simp)))⟩

private theorem dependencyFinishCb_works (ready : Ready s .dependencies)
    (called : dependencyFinishCb s w = some t) : ∃ sources, Works reads sources s t := by
  obtain ⟨task, rest, current, fits, busy, rfl⟩ := callback_cases rfl ready called
  split
  · exact ⟨_, proceed_works current (.work busy (.inr rfl) (gPropagateError_own (by simp)))⟩
  · exact ⟨_, proceed_works current (.work busy (.inl rfl) (.inl rfl))⟩

private theorem taskFinishCallback_works (ready : Ready s .entryPoint)
    (called : taskFinishCallback s w = some t) : ∃ sources, Works reads sources s t := by
  unfold taskFinishCallback at called
  split at called
  · cases called
  · rename_i task rest current
    have run : task.state = .run := ready task (by rw [current]; rfl)
    have busy : working (life task).state = true := by simp [life, run, working]
    have plugins : ∀ source ∈ some Source.plugins,
        activates source = true ∧ Fits source TaskSetupState.complete := by
      simp [activates, Fits]
    obtain ⟨config, set⟩ := configSet_eq (s := s) (w := w) task.taskId fun stored =>
      { stored with localwatchdog := true }
    split at called
    · cases called
    · dsimp only at called
      rw [set] at called
      split at called
      · split at called
        · cases called
          exact ⟨_, quiet_works current rfl (.work busy (.inr rfl) (.inl rfl)) plugins rfl rfl
            ⟨rfl, rfl, rfl, rfl⟩⟩
        · cases called
          exact ⟨_, works_of current rfl (.work busy (.inr rfl) (.inl rfl)) plugins rfl
            (by simpa [place] using .result true) rfl ⟨rfl, rfl, rfl, rfl⟩⟩
      · split at called
        · cases called
          exact ⟨_, quiet_works current rfl (.work busy (.inr rfl) (gPropagateError_own (by simp)))
            plugins rfl rfl ⟨rfl, rfl, rfl, rfl⟩⟩
        · split at called
          · cases called
            exact ⟨_, quiet_works current rfl (.work busy (.inr rfl) (gPropagateError_own (by simp)))
              plugins rfl rfl ⟨rfl, rfl, rfl, rfl⟩⟩
          · cases called
            exact ⟨_, works_of current rfl (.work busy (.inr rfl) (.inl rfl)) plugins rfl
              (by simpa [place] using .result false) rfl ⟨rfl, rfl, rfl, rfl⟩⟩

/-- What `task_handler` does to the current task; it stays attached only if it
attaches nothing else. -/
def Handles (reads stays : Bool) (s t : AppData) : Prop :=
  ∃ sources, Works reads sources s t ∧ (stays = true → sources = none)

/-- `task_handler` stays attached and nothing is done. -/
theorem wait_handles {stays : Bool} (current : s.tasks = task :: rest) : Handles reads stays s s :=
  ⟨none, quiet_works current current .wait (by simp) rfl rfl ⟨rfl, rfl, rfl, rfl⟩, fun _ => rfl⟩

/-- `task_handler` stays attached and the task is moved on. -/
theorem stays_handles {stays : Bool} (current : s.tasks = task :: rest)
    (move : Move s.cancelled s.aborted reads (life task) (life task')) :
    Handles reads stays s { s with tasks := task' :: rest } :=
  ⟨none, quiet_works current rfl move (by simp) rfl rfl ⟨rfl, rfl, rfl, rfl⟩, fun _ => rfl⟩

/-- The task is given up since the cancellable is cancelled. -/
theorem skipped_handles {stays : Bool} (current : s.tasks = task :: rest)
    (stopped : s.cancelled = true)
    (move : Move s.cancelled s.aborted reads (life task) (life task')) :
    Handles reads stays s
      (observe { s with tasks := task' :: rest } (.skipped (place s))) :=
  ⟨none, works_of current rfl move (by simp) rfl (by simpa [place] using .skipped stopped) rfl
    ⟨rfl, rfl, rfl, rfl⟩, fun _ => rfl⟩

private theorem taskIdle_handles (current : s.tasks = task :: rest) (idle : task.state = .idle)
    {stays : Bool} (called : taskIdle s w task rest = (t, stays)) :
    Handles w.configReads stays s t := by
  unfold taskIdle at called
  split at called
  case isTrue unreadable =>
    cases called
    exact stays_handles current
      (.unread idle unreadable gPropagateError_isSome (gPropagateError_own (by simp)))
  case isFalse readable =>
    have readable : w.configReads = true := by simpa using readable
    dsimp only at called
    split at called
    case isTrue finished =>
      cases called
      exact stays_handles current (.pass idle finished readable)
    case isFalse due =>
      have due : (life task).finished = false := by simpa [life] using due
      split at called
      case isTrue stopped =>
        cases called
        exact skipped_handles current stopped (.giveUp idle due)
      case isFalse live =>
        have live : s.cancelled = false := by simpa using live
        split at called
        · cases called
          exact stays_handles current (.giveUp idle due)
        · split at called
          · cases called
            exact stays_handles current (.begin idle due live rfl)
          · cases called
            refine ⟨some .taskMessage, works_of current rfl (.begin idle due live rfl) ?_ rfl ?_ rfl
              ⟨rfl, rfl, rfl, rfl⟩, by simp⟩
            · simp [activates, Fits]
            · simpa [place] using .running

private theorem dependencyFinishCb_toRun (current : s.tasks = task :: rest)
    (called : dependencyFinishCb s w = some t) :
    ∃ error, (error = task.error ∨ error ≠ some .aborted) ∧ toRun t = proceed s { task with
      error := error
      state := .run } := by
  simp only [dependencyFinishCb, current, List.head?_cons, Option.map_some, Option.some.injEq] at called
  subst called
  split
  · exact ⟨_, gPropagateError_own (by simp), rfl⟩
  · exact ⟨_, .inl rfl, rfl⟩

private theorem taskDependencies_handles (current : s.tasks = task :: rest)
    (dependencies : task.state = .dependencies) {stays : Bool}
    (called : taskDependencies s w task = some (t, stays)) : Handles reads stays s t := by
  have busy : working (life task).state = true := by simp [life, dependencies, working]
  unfold taskDependencies at called
  split at called
  · cases called
    have same : toRun s = { s with tasks := { task with state := .run } :: rest } := by
      simp [toRun, current]
    rw [same]
    exact stays_handles current (.work busy (.inl rfl) (.inl rfl))
  · split at called
    · cases called
      exact wait_handles current
    · split at called
      · cases called
      · obtain ⟨u, started, same⟩ := Option.map_eq_some_iff.mp called
        cases same
        split at started
        · obtain ⟨error, own, same⟩ := dependencyFinishCb_toRun current started
          rw [same]
          exact ⟨_, proceed_works current (.work busy (.inl rfl) own), by simp⟩
        · cases started
          have changed : (toRun (attach s .dependencies)).tasks = { task with state := .run } :: rest := by
            simp [toRun, attach, current]
          refine ⟨some .dependencies, quiet_works current changed (.work busy (.inl rfl) (.inl rfl)) ?_
            rfl rfl ⟨rfl, rfl, rfl, rfl⟩, by simp⟩
          simp [activates, Fits]

private theorem taskRun_handles (current : s.tasks = task :: rest) (run : task.state = .run)
    {stays : Bool}
    (called : taskRun s w task rest = some (t, stays)) : Handles reads stays s t := by
  unfold taskRun at called
  split at called
  case isTrue stopped =>
    cases called
    exact skipped_handles current stopped
      (.work (by simp [life, run, working]) (.inr rfl) (.inl rfl))
  case isFalse live =>
    obtain ⟨metadata, -, same⟩ := Option.map_eq_some_iff.mp called
    have live : s.cancelled = false := by simpa using live
    dsimp only at same
    obtain ⟨config, set⟩ := configSet_eq (w := w) (s := attach (observe _ _) .entryPoint) task.taskId _
    rw [set] at same
    cases same
    refine ⟨some .entryPoint, works_of current rfl .wait ?_ rfl ?_ rfl ⟨rfl, rfl, rfl, rfl⟩, by simp⟩
    · simpa [activates, Fits] using run
    · simpa [place] using .entryPoint run live

/-- The states in which a step of `task_handler` is about the current task only. -/
theorem taskHandler_handles (current : s.tasks = task :: rest) (notCompleted : task.state ≠ .completed)
    (notNext : task.state ≠ .next) {stays : Bool} (called : taskHandler s w = some (t, stays)) :
    Handles w.configReads stays s t := by
  simp only [taskHandler, current] at called
  split at called
  case h_1 idle => exact taskIdle_handles current idle (Option.some.inj called)
  case h_2 fetch =>
    split at called
    · cases called
      exact wait_handles current
    · obtain ⟨u, started, same⟩ := Option.map_eq_some_iff.mp called
      cases same
      obtain ⟨sources, works⟩ := restraintTaskFetch_works current fetch started
      exact ⟨sources, works, by simp⟩
  case h_3 parse =>
    obtain ⟨u, started, same⟩ := Option.map_eq_some_iff.mp called
    cases same
    suffices works : ∃ sources, Works w.configReads sources
        { s with tasks := { task with rhtsCompat := w.rhtsCompat } :: rest } t by
      obtain ⟨sources, works⟩ := works
      exact ⟨sources, works.of_same (by simp [view, current, life]) rfl rfl, by simp⟩
    split at started
    · exact metadataFinishCb_works (by simpa [Ready, Fits] using parse) started
    · cases started
      exact ⟨_, attach_works .metadata rfl rfl parse⟩
  case h_4 refresh =>
    split at called
    · split at called
      · cases called
        exact wait_handles current
      · obtain ⟨u, started, same⟩ := Option.map_eq_some_iff.mp called
        cases same
        suffices works : ∃ sources, Works w.configReads sources s t by
          obtain ⟨sources, works⟩ := works
          exact ⟨sources, works, by simp⟩
        split at started
        · exact recipeFetchComplete_works (by simpa [Ready, Fits, current] using refresh) started
        · cases started
          exact ⟨_, attach_works .roleRefresh current rfl refresh⟩
    · cases called
      exact stays_handles current (.work (by simp [life, refresh, working]) (.inl rfl) (.inl rfl))
  case h_5 env =>
    cases called
    exact stays_handles current (.work (by simp [life, env, working]) (.inl rfl) (.inl rfl))
  case h_6 watchdog =>
    have busy : working (life task).state = true := by simp [life, watchdog, working]
    split at called
    · cases called
      exact stays_handles current (.work busy (.inl rfl) (.inl rfl))
    · cases called
      unfold restraintTaskWatchdog
      split
      · exact stays_handles current (.work busy (.inl rfl) (.inl rfl))
      · refine ⟨some .taskMessage, quiet_works current rfl (.work busy (.inl rfl) (.inl rfl)) ?_ rfl rfl
          ⟨rfl, rfl, rfl, rfl⟩, by simp⟩
        simp [activates, Fits]
  case h_7 dependencies => exact taskDependencies_handles current dependencies called
  case h_8 run => exact taskRun_handles current run called
  case h_9 complete =>
    cases called
    exact stays_handles current (.complete complete)
  case h_10 completed => exact absurd completed notCompleted
  case h_11 next => exact absurd next notNext
  all_goals
    cases called
    exact wait_handles current

/-- What a callback does is a step of the machine, whatever the loop is left with. -/
theorem Works.turn {a : Act} {loop loop' : MainLoop Source} {sources n : Option Source}
    (works : Works a.reads sources { s with loop := loop } t)
    (turn : (view s).activations = [source]) (active : loop'.kinds activates = n.toList)
    (origin : ∀ source ∈ n, source ∈ sources ∨ source = .taskHandler)
    (fetching : loop'.kinds fetches = s.loop.kinds fetches) :
    Turn a (view s) (view { t with loop := loop' }) := by
  obtain ⟨life, life', rest, notes, current, changed, move, fits, trace, noted⟩ := works.moved
  have shown : view { t with loop := loop' } = { view s with
      tasks := life' :: rest
      activations := n.toList
      trace := (view s).trace ++ notes } := by
    have tasks : t.tasks.map TaskRefinement.life = life' :: rest := changed
    simp [view, works.state, works.past, works.cancelled, works.aborted, trace, tasks, active, fetching]
  rw [shown]
  refine .work current turn move ?_ ?_
  · intro source member
    rcases origin source member with old | rfl
    · exact (fits source old).2
    · trivial
  · simpa [view] using noted

variable {id : Nat} {e : Server.Event}

/-- A source of the machine that is attached is its only activation. -/
theorem activation (sound : Sound (view s)) (found : s.loop.find? id = some source)
    (kind : activates source = true) : s.loop.kinds activates = [source] :=
  MainLoop.kinds_single found kind sound.single

theorem Works.attached {sources : Option Source} (works : Works reads sources s t) :
    ∀ source ∈ sources, activates source = true := by
  obtain ⟨life, life', rest, notes, -, -, -, fits, -⟩ := works.moved
  exact fun source member => (fits source member).1

/-- One activation is over, and what came of it is attached. -/
theorem Works.turn_over {a : Act} {loop : MainLoop Source} {sources : Option Source}
    (works : Works a.reads sources { s with loop := loop } t) (sound : Sound (view s))
    (found : s.loop.find? id = some source) (kind : activates source = true) :
    Turn a (view s)
      (view { t with loop := sources.elim (s.loop.remove id) (s.loop.remove id).add }) := by
  have only := activation sound found kind
  have gone := MainLoop.kinds_remove_only found kind only
  have other := MainLoop.kinds_remove_other found (fetches_of_activates kind)
  have attached := works.attached
  refine works.turn only ?_ (fun _ => .inl) ?_
  · cases sources with
    | none => exact gone
    | some next => simp [gone, attached next rfl]
  · cases sources with
    | none => exact other
    | some next => simp [other, fetches_of_activates (attached next rfl)]

/-- A callback of the current task is a step of the machine. -/
theorem callback_turn {a : Act} {sources : Option Source} (sound : Sound (view s))
    (found : s.loop.find? id = some source) (kind : activates source = true)
    (works : Works a.reads sources { s with loop := s.loop.remove id } t) :
    Turn a (view s) (view t) := by
  have turn := works.turn_over sound found kind
  have loop : t.loop = sources.elim (s.loop.remove id) (s.loop.remove id).add := works.loop
  rwa [← loop] at turn

/-- A step of `task_handler` that is about the current task only. -/
theorem handles_turn {a : Act} {stays : Bool} (sound : Sound (view s))
    (found : s.loop.find? id = some .taskHandler) (handles : Handles a.reads stays s t) :
    Turn a (view s) (view (if stays then t else { t with loop := t.loop.remove id })) := by
  obtain ⟨sources, works, none⟩ := handles
  cases stays with
  | true =>
    cases none rfl
    have only := activation sound found rfl
    have same : t.loop = s.loop := works.loop
    refine works.turn (n := some .taskHandler) only ?_ (by simp) (by rw [same])
    rw [same, only]
    rfl
  | false =>
    have turn := works.turn_over sound found rfl
    have loop : t.loop.remove id = sources.elim (s.loop.remove id) (s.loop.remove id).add := by
      rw [works.loop]
      cases sources with
      | none => rfl
      | some next => exact MainLoop.remove_add (MainLoop.ne_next found)
    rwa [← loop] at turn

/-- The loop after a step of `task_handler` that attaches a source and leaves. -/
theorem handed_over (source : Source) (sound : Sound (view s)) (found : s.loop.find? id = some .taskHandler) :
    ((s.loop.add source).remove id).kinds activates = (if activates source then [source] else []) ∧
      ((s.loop.add source).remove id).kinds fetches =
        s.loop.kinds fetches ++ if fetches source then [source] else [] := by
  have only := activation sound found rfl
  have gone := MainLoop.kinds_remove_only found rfl only
  have other := MainLoop.kinds_remove_other found (p := fetches) rfl
  rw [MainLoop.remove_add (MainLoop.ne_next found)]
  simp [gone, other]

/-- The final status of the current task. -/
theorem taskCompleted_turn {a : Act} (sound : Sound (view s))
    (found : s.loop.find? id = some .taskHandler) (current : s.tasks = task :: rest)
    (completed : task.state = .completed) (step : a.handled = some .completed)
    (done : taskCompleted s w task rest = t) :
    Turn a (view s) (view { t with loop := t.loop.remove id }) := by
  have only := activation sound found rfl
  obtain ⟨active, fetching⟩ := handed_over .taskMessage sound found
  have shown : view { t with loop := t.loop.remove id } = { view s with
      tasks := { life task with
        error := none
        state := .next } :: rest.map life
      activations := [.taskMessage]
      cancelled := s.cancelled && s.aborted ≠ .task
      aborted := if s.cancelled ∧ s.aborted = .task then .none else s.aborted
      trace := s.trace ++ [.status (view s).past.length (verdict task.error) task.error] } := by
    subst done
    obtain ⟨config, set⟩ := configSet_eq (w := w) (s := restraintTaskStatus
      { s with tasks := { task with error := none, state := .next } :: rest }
      (if task.error.isSome then .aborted else .completed) task.error) task.taskId fun _ => .empty
    simp only [taskCompleted, set]
    by_cases own : s.cancelled = true ∧ s.aborted = .task
    · simp [view, life, restraintTaskStatus, attach, observe, place, verdict, own, active, fetching,
        activates, fetches]
    · have kept : s.cancelled = true → ¬s.aborted = .task := fun stopped level => own ⟨stopped, level⟩
      simpa [view, life, restraintTaskStatus, attach, observe, place, verdict, own, active, fetching,
        activates, fetches] using kept
  have tasks : (view s).tasks = life task :: rest.map life := by simp [view, current]
  rw [shown]
  exact .report tasks only completed step

private theorem restraintNextTask_turn {a : Act} (sound : Sound (view s))
    (found : s.loop.find? id = some .taskHandler) (current : s.tasks = task :: rest)
    (done : task.state = .next) (step : a.handled = some .next) {stays : Bool}
    (called : restraintNextTask s task rest = (t, stays)) :
    Turn a (view s) (view (if stays then t else { t with loop := t.loop.remove id })) := by
  have only := activation sound found rfl
  unfold restraintNextTask at called
  split at called
  case h_1 next later =>
    cases called
    have tasks : (view s).tasks = life task :: life next :: later.map life := by simp [view, current]
    have advance : Turn a (view s) { view s with
        past := (view s).past ++ [task.finished]
        tasks := { life next with state := .idle } :: later.map life } :=
      .advance tasks only done step
    simpa [view, life] using advance
  case h_2 =>
    cases called
    obtain ⟨active, fetching⟩ := handed_over .recipeHandler sound found
    have tasks : (view s).tasks = [life task] := by simp [view, current]
    have finish : Turn a (view s) { view s with
        recipe := .complete
        past := (view s).past ++ [task.finished]
        tasks := []
        aborted := .none
        activations := []
        trace := s.trace ++ [.recipeComplete] } :=
      .finish tasks only done step
    simpa [view, attach, observe, active, fetching, activates, fetches] using finish

/-- `task_handler` is a step of the machine. -/
theorem taskHandler_turn {a : Act} (sound : Sound (view s))
    (found : s.loop.find? id = some .taskHandler) (reads : a.reads = w.configReads)
    (step : a.handled = s.tasks.head?.map Task.state) {stays : Bool}
    (called : taskHandler s w = some (t, stays)) :
    Turn a (view s) (view (if stays then t else { t with loop := t.loop.remove id })) := by
  cases current : s.tasks with
  | nil =>
    simp only [taskHandler, current, Option.some.injEq, Prod.mk.injEq] at called
    obtain ⟨rfl, rfl⟩ := called
    have gone := MainLoop.kinds_remove_only found rfl (activation sound found rfl)
    have other := MainLoop.kinds_remove_other found (p := fetches) rfl
    have stop : Turn a (view s) { view s with activations := [] } := .stop (by simp [view, current])
    simpa [view, gone, other] using stop
  | cons task rest =>
    rw [current, List.head?_cons, Option.map_some] at step
    by_cases completed : task.state = .completed
    · simp only [taskHandler, current, completed, Option.some.injEq, Prod.mk.injEq] at called
      obtain ⟨done, rfl⟩ := called
      exact taskCompleted_turn sound found current completed (completed ▸ step) done
    · by_cases next : task.state = .next
      · simp only [taskHandler, current, next, Option.some.injEq] at called
        exact restraintNextTask_turn sound found current next (next ▸ step) called
      · exact handles_turn sound found (reads ▸ taskHandler_handles current completed next called)

/-- The recipe was fetched, or it will be tried again. -/
theorem fetchCompleted_view (fetching : s.state = .fetching) (quiet : s.loop.kinds fetches = []) :
    ∃ state sources, view (fetchCompleted s w) = { view s with
        recipe := state
        fetching := sources } ∧
      (early state = true ∨ state = .complete) ∧
      (sources = [] ∨ state = .fetching ∧ sources.length = 1) := by
  unfold fetchCompleted
  split
  · split
    · refine ⟨.fetching, [.recipeFetchRetry], ?_, .inl rfl, .inr ⟨rfl, rfl⟩⟩
      simp [view, attach, quiet, fetches, activates, fetching]
    · refine ⟨.complete, [], ?_, .inr rfl, .inl rfl⟩
      simp [view, quiet]
  · refine ⟨.parse, [], ?_, .inl rfl, .inl rfl⟩
    simp [view, quiet]

/-- Only while the recipe is fetched there is a source that brings it. -/
theorem quiet_of (sound : Sound (view s)) (state : s.state ≠ .fetching) :
    s.loop.kinds fetches = [] := by
  by_contra some
  exact state (sound.retrieving some)

/-- A step of `recipe_handler` that stays attached. -/
theorem recipeHandler_stays {a : Act} (sound : Sound (view s))
    (called : recipeHandler s w = (t, true)) : Turn a (view s) (view t) := by
  unfold recipeHandler at called
  split at called
  case h_1 fetch =>
    have quiet := quiet_of sound (by simp [fetch])
    have early : early (view s).recipe = true := by simp [view, fetch, early]
    split at called
    · cases called
      exact .still
    · cases called
      unfold restraintXmlParseFromUrl
      split
      · have retrieve : Turn a (view s) { view s with
            recipe := .fetching
            fetching := [] } := .retrieve early (.inl rfl) (.inl rfl)
        simpa [view, quiet] using retrieve
      split
      · obtain ⟨state, sources, shown, after, one⟩ :=
          fetchCompleted_view (s := { s with state := .fetching }) (w := w) rfl quiet
        rw [shown]
        exact .retrieve (m := view s) early after one
      · have retrieve : Turn a (view s) { view s with
            recipe := .fetching
            fetching := [.recipeFetch] } := .retrieve early (.inl rfl) (.inr ⟨rfl, rfl⟩)
        simpa [view, attach, quiet, fetches, activates] using retrieve
  case h_2 parse =>
    have quiet := quiet_of sound (by simp [parse])
    split at called
    · rename_i recipeId tasks parsed
      cases called
      refine .parse (m := view s) parse ?_
      intro shown member
      obtain ⟨task, parsedTask, rfl⟩ := List.mem_map.mp member
      obtain ⟨xml, -, rfl⟩ := List.mem_map.mp parsedTask
      exact ⟨rfl, rfl⟩
    · cases called
      have early : early (view s).recipe = true := by simp [view, parse, early]
      have retrieve : Turn a (view s) { view s with
          recipe := .complete
          fetching := [] } := .retrieve early (.inr rfl) (.inl rfl)
      simpa [view, quiet] using retrieve
  case h_3 ready =>
    cases called
    have none : s.loop.kinds activates = [] := (sound.ready ready).1
    have launch : Turn a (view s) { view s with
        recipe := .running
        activations := [.taskHandler] } := .launch ready
    simpa [view, attach, none, activates, fetches] using launch
  case h_4 => cases called
  case h_5 => cases called
  all_goals
    cases called
    exact .still

/-- A step of `recipe_handler` that leaves. -/
theorem recipeHandler_leaves {a : Act} (found : s.loop.find? id = some .recipeHandler)
    (called : recipeHandler s w = (t, false)) :
    Turn a (view s) (view (recipeHandlerFinish { t with loop := t.loop.remove id })) := by
  have active := MainLoop.kinds_remove_other found (p := activates) rfl
  have fetching := MainLoop.kinds_remove_other found (p := fetches) rfl
  unfold recipeHandler at called
  split at called
  case h_1 => split at called <;> cases called
  case h_2 => split at called <;> cases called
  case h_4 =>
    cases called
    have still : Turn a (view s) (view s) := .still
    simpa [view, recipeHandlerFinish, active, fetching] using still
  case h_5 complete =>
    cases called
    have close : Turn a (view s) { view s with
        recipe := .idle
        cancelled := false } := .close complete
    simpa [view, recipeHandlerFinish, active, fetching] using close
  all_goals cases called

/-- An abort that is accepted, or no abort. -/
theorem abort_turn {a : Act} (current : s.tasks = task :: rest) (level : StateAborted) :
    Turn a (view s) (view (Server.abort s level)) := by
  have tasks : (view s).tasks = life task :: rest.map life := by simp [view, current]
  cases level with
  | none => exact .still
  | task =>
    have abort : Turn a (view s) { view s with
        cancelled := true
        aborted := .task
        trace := s.trace ++ [noticed (view s) .task] } := .abort tasks (by simp)
    simpa [view, noticed, Server.abort, observe, place] using abort
  | recipe =>
    have abort : Turn a (view s) { view s with
        cancelled := true
        aborted := .recipe
        trace := s.trace ++ [noticed (view s) .recipe] } := .abort tasks (by simp)
    simpa [view, noticed, Server.abort, observe, place] using abort

private theorem adjustWatchdog_life {metadata : Metadata} {seconds : Option CString.Text} {time : Nat} :
    life (Server.adjustWatchdog task metadata seconds time) = life task := by
  unfold Server.adjustWatchdog
  dsimp only
  split
  · rfl
  · simp only [life]

/-- A request is a step of the machine. -/
theorem request_turn {a : Act} {path body : CString.Text} {form : List (CString.Text × CString.Text)}
    {time : Nat} (called : serverRecipeCallback s path body form time = some t) :
    Turn a (view s) (view t) := by
  unfold serverRecipeCallback at called
  split at called
  · cases called
    exact .still
  split at called
  · cases called
  rename_i task rest current
  have still : Turn a (view s) (view s) := .still
  split at called
  · obtain rfl := Option.some.inj called
    simpa [view, current, life, attach, activates, fetches] using still
  split at called
  · obtain rfl := Option.some.inj called
    simpa [view, attach, activates, fetches] using still
  split at called
  · obtain ⟨metadata, -, rfl⟩ := Option.map_eq_some_iff.mp called
    simpa [view, current, attach, adjustWatchdog_life, activates, fetches] using still
  split at called
  · obtain ⟨recipeId, -, accepted⟩ := Option.bind_eq_some_iff.mp called
    obtain ⟨level, -, rfl⟩ := Option.map_eq_some_iff.mp accepted
    exact abort_turn current level
  · cases called
    exact still

/-- A source that is over gives way to `task_handler`. -/
theorem handler_turn {a : Act} (sound : Sound (view s)) (found : s.loop.find? id = some source)
    (kind : activates source = true) (other : source ≠ .taskHandler) :
    Turn a (view s) (view (attach { s with loop := s.loop.remove id } .taskHandler)) := by
  by_cases none : s.tasks = []
  · have only := sound.empty (by simp [view, none]) source (MainLoop.mem_kinds found kind)
    exact absurd only other
  · obtain ⟨task, rest, current⟩ := List.exists_cons_of_ne_nil none
    exact callback_turn sound found kind
      (attach_works (s := { s with loop := s.loop.remove id }) .taskHandler current rfl trivial)

/-- A source that brings the recipe is the only one. -/
theorem retrieving (sound : Sound (view s)) (found : s.loop.find? id = some source)
    (kind : fetches source = true) :
    s.state = .fetching ∧ (s.loop.remove id).kinds fetches = [] := by
  have only := MainLoop.kinds_single found kind sound.alone
  refine ⟨sound.retrieving ?_, MainLoop.kinds_remove_only found kind only⟩
  exact List.ne_nil_of_mem (MainLoop.mem_kinds found kind)

private theorem serverMsgComplete_view {results noPlugins : Bool}
    (called : Server.serverMsgComplete s results noPlugins = some t) : view t = view s := by
  unfold Server.serverMsgComplete at called
  split at called
  · cases called
  · split at called
    · split at called
      · cases called
        simp [view, attach, activates, fetches]
      · cases called
    · cases called
      rfl

/-- A dispatch is a step of the machine. -/
theorem dispatch_turn (sound : Sound (view s)) (found : s.loop.find? id = some source)
    (called : Server.dispatch s id w source = some t) :
    Turn (act s (.dispatch id w)) (view s) (view t) := by
  have ready : activates source = true → Ready { s with loop := s.loop.remove id } source := by
    intro kind task head
    exact sound.fits (life task) (by simpa [view] using ⟨task, head, rfl⟩) source
      (MainLoop.mem_kinds found kind)
  have gone (other : activates source = false) (notFetch : fetches source = false) :
      view { s with loop := s.loop.remove id } = view s := by
    simp [view, MainLoop.kinds_remove_other found other, MainLoop.kinds_remove_other found notFetch]
  cases source with
  | recipeHandler =>
    cases handled : recipeHandler s w with
    | mk u stays =>
      simp only [Server.dispatch, handled, Option.some.injEq] at called
      subst called
      cases stays with
      | true => exact recipeHandler_stays sound handled
      | false => exact recipeHandler_leaves found handled
  | taskHandler =>
    obtain ⟨⟨u, stays⟩, handled, same⟩ := Option.map_eq_some_iff.mp called
    have step : (act s (.dispatch id w)).handled = s.tasks.head?.map Task.state := by
      simp [act, TaskRefinement.handled, found]
    have turn := taskHandler_turn sound found rfl step handled
    rwa [← same]
  | recipeFetch =>
    cases called
    have fetching := retrieving sound found rfl
    obtain ⟨state, sources, shown, after, one⟩ :=
      fetchCompleted_view (s := { s with loop := s.loop.remove id }) (w := w) fetching.1 fetching.2
    rw [shown]
    have early : early (view s).recipe = true := by simp [view, fetching.1, early]
    have retrieve : Turn (act s (.dispatch id w)) (view s) { view s with
        recipe := state
        fetching := sources } := .retrieve early after one
    simpa [view, MainLoop.kinds_remove_other found (p := activates) rfl] using retrieve
  | recipeFetchRetry =>
    cases called
    have fetching := retrieving sound found rfl
    have early : early (view s).recipe = true := by simp [view, fetching.1, early]
    have retrieve : Turn (act s (.dispatch id w)) (view s) { view s with
        recipe := .fetch
        fetching := [] } := .retrieve early (.inl rfl) (.inl rfl)
    simpa [view, MainLoop.kinds_remove_other found (p := activates) rfl, fetching.2] using retrieve
  | fetchRetry =>
    obtain ⟨sources, works⟩ := retry_works rfl rfl (ready rfl) called
    exact callback_turn sound found rfl works
  | refreshRoleRetry =>
    obtain ⟨sources, works⟩ := retry_works rfl rfl (ready rfl) called
    exact callback_turn sound found rfl works
  | fetch =>
    obtain ⟨sources, works⟩ := fetchFinishCallback_works (ready rfl) (by simp) called
    exact callback_turn sound found rfl works
  | fetchPackage =>
    obtain ⟨sources, works⟩ := taskHandlerCallback_works (ready rfl) called
    exact callback_turn sound found rfl works
  | metadata =>
    obtain ⟨sources, works⟩ := metadataFinishCb_works (ready rfl) called
    exact callback_turn sound found rfl works
  | roleRefresh =>
    obtain ⟨sources, works⟩ := recipeFetchComplete_works (ready rfl) called
    exact callback_turn sound found rfl works
  | dependencies =>
    obtain ⟨sources, works⟩ := dependencyFinishCb_works (ready rfl) called
    exact callback_turn sound found rfl works
  | entryPoint =>
    obtain ⟨sources, works⟩ := taskFinishCallback_works (ready rfl) called
    exact callback_turn sound found rfl works
  | plugins =>
    cases called
    exact handler_turn sound found rfl (by simp)
  | taskMessage =>
    cases called
    exact handler_turn sound found rfl (by simp)
  | serverMessage results noPlugins =>
    rw [serverMsgComplete_view called, gone rfl rfl]
    exact .still
  | reportPlugins =>
    cases called
    rw [gone rfl rfl]
    exact .still

/-- **Every step of the daemon is a step of the task machine.** -/
theorem step_turn (sound : Sound (view s)) (stepped : Server.step s e = some t) :
    Turn (act s e) (view s) (view t) := by
  cases e with
  | dispatch id w =>
    simp only [Server.step] at stepped
    split at stepped
    · cases stepped
    · obtain ⟨source, found, called⟩ := Option.bind_eq_some_iff.mp stepped
      exact dispatch_turn sound found called
  | request path body form time =>
    simp only [Server.step] at stepped
    split at stepped
    · cases stepped
    · exact request_turn stepped

theorem start_sound {stdin : Bool} {config : CString.Text → Section} :
    Sound (view (Server.start stdin config)) := by
  cases stdin
  all_goals constructor <;> simp [view, Server.start, activates, fetches, early]

/-- What the steps of the machine keep that the daemon may take, a run keeps. -/
theorem run_turns {I : Machine → Prop} {allowed : AppData → Server.Event → Prop}
    [∀ s e, Decidable (allowed s e)] {stdin : Bool} {config : CString.Text → Section}
    {events : List Server.Event}
    (keeps : ∀ s e n, Sound (view s) → I (view s) → allowed s e → Turn (act s e) (view s) n → I n)
    (holds : I (view (Server.start stdin config)))
    (ran : run (only Server.step allowed) (Server.start stdin config) events = some s) :
    Sound (view s) ∧ I (view s) := by
  refine run_keeps (I := fun s => Sound (view s) ∧ I (view s)) ?_ ⟨start_sound, holds⟩ ran
  rintro s e t ⟨sound, invariant⟩ taken
  obtain ⟨permitted, stepped⟩ := only_eq_some.mp taken
  have turn := step_turn sound stepped
  exact ⟨turn_sound sound turn, keeps s e (view t) sound invariant permitted turn⟩

end Restraint.TaskRefinement

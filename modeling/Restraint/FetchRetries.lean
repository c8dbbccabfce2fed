import Restraint.FetchAttempts
import Restraint.RecipeFetch
import Restraint.TaskDeeds

/-! The attempts at the stages of the tasks of a recipe, over a whole run. The counter is the one
that the fetches of the recipe use, and both stages of all tasks. A stage starts with a counter of 0
only if everything before it has left it so. The invariant says when that is, for each state of the
recipe and of its current task. -/
namespace Restraint.FetchRetries
open Transition
open Restraint.Harness Restraint.TaskHandler Restraint.TaskMachine Restraint.TaskRefinement
open Restraint.TaskSteps (Stride Deed snapshot dispatched)
open Retry (Happening Phase Bounded)

/-- The daemon, with what came of the attempts at each stage of each task. -/
structure Tries where
  daemon : AppData
  history : Nat → Stage → List Happening

/-- The current task and the answers of the world, if `task_handler` starts an attempt. -/
def begins (s : AppData) (stage : Stage) : Server.Event → Option (Task × World)
  | .dispatch id w =>
    if s.loop.find? id = some .taskHandler then
      s.tasks.head?.bind fun task =>
        if task.state = stage.state ∧ (s.stdin || w.healthy) ∧ attempted s task stage then
          some (task, w)
        else none
    else none
  | .request .. => none

/-- What an attempt calls back with, if one is over. -/
def callsBack (s : AppData) (stage : Stage) : Server.Event → Option (Option Error)
  | .dispatch id w =>
    if s.loop.find? id = some stage.source then some (w.error.map .operation)
    else (begins s stage (.dispatch id w)).bind fun (task, w) => atOnce task w stage
  | .request .. => none

/-- What happens to the current task in a step. -/
def happenings (s : AppData) (e : Server.Event) (t : AppData) (stage : Stage) : List Happening :=
  (if (begins s stage e).isSome then [.begun] else []) ++ (callsBack s stage e).elim [] (outcome t)

def step (r : Tries) (e : Server.Event) : Option Tries :=
  (Server.step r.daemon e).map fun t =>
    { daemon := t
      history := fun p stage =>
        r.history p stage ++ if p = place r.daemon then happenings r.daemon e t stage else [] }

def start (stdin : Bool) (config : CString.Text → Section) : Tries where
  daemon := Server.start stdin config
  history := fun _ _ => []

/-- How the attempts stand for the task at a place, unless they are over. -/
def expected (s : AppData) (p : Nat) (stage : Stage) : Option Phase :=
  if p < place s then none
  else if p = place s then standing stage (s.loop.kinds activates) s
  else some (.waiting 0)

/-- What every step of the daemon does. -/
def Advances (s : AppData) (e : Server.Event) (t : AppData) : Prop :=
  ∀ p stage, Keeps stage (if p = place s then happenings s e t stage else [])
    (expected s p stage) (expected t p stage)

variable {s t : AppData} {w : World} {id : Nat} {e : Server.Event} {source : Source}
  {task task' : Task} {rest : List Task} {stage : Stage} {active : List Source}
  {happened : Stage → List Happening} {error : Option Error}

/-! ## A step of the daemon -/

theorem Goes.advances (goes : Goes (happenings s e t) (s.loop.kinds activates)
    (t.loop.kinds activates) s t) : Advances s e t := by
  have same : place t = place s := congrArg List.length goes.past
  intro p stage
  unfold expected
  rw [same]
  by_cases done : p < place s
  · rw [if_pos done, if_pos done, if_neg (Nat.ne_of_lt done)]
    exact keeps_over
  · rw [if_neg done, if_neg done]
    by_cases here : p = place s
    · rw [if_pos here, if_pos here, if_pos here]
      exact goes.keeps stage
    · rw [if_neg here, if_neg here, if_neg here]
      exact keeps_same

/-- A callback from its own source. -/
theorem Hands.advances (hands : Hands (happenings s (.dispatch id w) t) source
      { s with loop := s.loop.remove id } t) (sound : Sound (view s))
    (found : s.loop.find? id = some source) (kind : activates source = true) :
    Advances s (.dispatch id w) t := by
  obtain ⟨next, active, loop, past, keeps⟩ := hands
  have only := activation sound found kind
  have now : t.loop.kinds activates = [next] := by
    rw [loop, MainLoop.kinds_add, MainLoop.kinds_remove_only found kind only, active]
    rfl
  refine Goes.advances ⟨past, fun stage => ?_⟩
  rw [only, now]
  exact keeps stage

theorem Serves.advances {stays : Bool} (serves : Serves happened s t stays) (sound : Sound (view s))
    (found : s.loop.find? id = some .taskHandler)
    (did : happenings s (.dispatch id w) (if stays then t else { t with loop := t.loop.remove id }) =
      happened) :
    Advances s (.dispatch id w) (if stays then t else { t with loop := t.loop.remove id }) := by
  have only := activation sound found rfl
  subst did
  cases stays with
  | true =>
    obtain ⟨loop, past, keeps⟩ := serves
    refine Goes.advances ⟨past, fun stage => ?_⟩
    have same : t.loop.kinds activates = [.taskHandler] := by rw [loop, only]
    rw [if_pos rfl, only, same]
    exact keeps stage
  | false =>
    obtain ⟨next, active, loop, past, keeps⟩ := serves
    have now : (t.loop.remove id).kinds activates = [next] := by
      rw [loop, MainLoop.remove_add (MainLoop.ne_next found), MainLoop.kinds_add,
        MainLoop.kinds_remove_only found rfl only, active]
      rfl
    refine Goes.advances ⟨past, fun stage => ?_⟩
    rw [if_neg Bool.false_ne_true, only]
    dsimp only
    rw [now]
    exact keeps stage

private theorem happenings_handler (found : s.loop.find? id = some .taskHandler)
    (current : s.tasks = task :: rest) : happenings s (.dispatch id w) t = tried s t task w := by
  funext stage
  have apart : Source.taskHandler ≠ stage.source := by cases stage <;> simp [Stage.source]
  by_cases due : task.state = stage.state ∧ (s.stdin = true ∨ w.healthy = true) ∧
      attempted s task stage = true
  · simp [happenings, callsBack, begins, found, current, tried, apart, due]
  · simp [happenings, callsBack, begins, found, current, tried, apart, due]

/-- The attempt of a stage calls back. -/
theorem happenings_attempt (stage : Stage) (found : s.loop.find? id = some stage.source) :
    happenings s (.dispatch id w) t = fun other =>
      if other = stage then outcome t (w.error.map .operation) else [] := by
  funext other
  have handler : stage.source ≠ .taskHandler := by cases stage <;> simp [Stage.source]
  by_cases same : other = stage
  · simp [happenings, callsBack, begins, found, handler, same]
  · have apart : stage.source ≠ other.source := by
      cases stage <;> cases other <;> first | exact absurd rfl same | simp [Stage.source]
    simp [happenings, callsBack, begins, found, handler, same, apart]

private theorem happenings_other (found : s.loop.find? id = some source)
    (handler : source ≠ .taskHandler)
    (fetch : source ≠ .fetch) (refresh : source ≠ .roleRefresh) :
    happenings s (.dispatch id w) t = fun _ => [] := by
  funext stage
  have apart : source ≠ stage.source := by
    cases stage with
    | fetch => exact fetch
    | refresh => exact refresh
  simp [happenings, callsBack, begins, found, handler, apart]

private theorem fetchFinishCallback_hands (ready : Ready s .fetch)
    (called : fetchFinishCallback s error = some t) :
    Hands (fun other => if other = .fetch then outcome t error else []) .fetch s t := by
  obtain ⟨task, rest, current, fetch, -, -⟩ := callback_cases rfl ready called
  exact (fetchFinishCallback_ended called).hands current fetch

private theorem recipeFetchComplete_hands (ready : Ready s .roleRefresh)
    (called : recipeFetchComplete s w = some t) :
    Hands (fun other => if other = .refresh then outcome t (w.error.map .operation) else [])
      .roleRefresh s t := by
  obtain ⟨task, rest, current, refresh, -, -⟩ := callback_cases rfl ready called
  exact (recipeFetchComplete_ended called).hands current refresh

private theorem fetchRetry_hands (ready : Ready s .fetchRetry) (called : fetchRetry s = some t) :
    Hands (fun _ => []) .fetchRetry s t := by
  obtain ⟨task, rest, current, fetch, -, rfl⟩ := callback_cases rfl ready called
  exact retry_hands .fetch current fetch

private theorem refreshRoleRetry_hands (ready : Ready s .refreshRoleRetry)
    (called : refreshRoleRetry s = some t) : Hands (fun _ => []) .refreshRoleRetry s t := by
  obtain ⟨task, rest, current, refresh, -, rfl⟩ := callback_cases rfl ready called
  exact retry_hands .refresh current refresh

/-- The stages of the current task that are not over go on with each of its sources. -/
theorem early_advances (sound : Sound (view s)) (found : s.loop.find? id = some source)
    (kind : activates source = true) (current : s.tasks = task :: rest)
    (before : early task.state = true) (called : Server.dispatch s id w source = some t) :
    Advances s (.dispatch id w) t := by
  have ready : Ready { s with loop := s.loop.remove id } source := by
    intro task head
    exact sound.fits (life task) (by simpa [view] using ⟨task, head, rfl⟩) source
      (MainLoop.mem_kinds found kind)
  have fits : Fits source task.state := ready task (by simp [current])
  cases source with
  | taskHandler =>
    obtain ⟨⟨u, stays⟩, handled, same⟩ := Option.map_eq_some_iff.mp called
    have serves := taskHandler_serves current before handled
    subst same
    apply serves.advances sound found
    rw [happenings_handler found current]
    cases stays <;> rfl
  | fetch =>
    refine Hands.advances ?_ sound found rfl
    rw [happenings_attempt .fetch found]
    exact fetchFinishCallback_hands ready called
  | roleRefresh =>
    refine Hands.advances ?_ sound found rfl
    rw [happenings_attempt .refresh found]
    exact recipeFetchComplete_hands ready called
  | fetchRetry =>
    refine Hands.advances ?_ sound found rfl
    rw [happenings_other found (by simp) (by simp) (by simp)]
    exact fetchRetry_hands ready called
  | refreshRoleRetry =>
    refine Hands.advances ?_ sound found rfl
    rw [happenings_other found (by simp) (by simp) (by simp)]
    exact refreshRoleRetry_hands ready called
  | fetchPackage =>
    refine Hands.advances ?_ sound found rfl
    rw [happenings_other found (by simp) (by simp) (by simp)]
    exact taskHandlerCallback_hands ready called
  | metadata =>
    refine Hands.advances ?_ sound found rfl
    rw [happenings_other found (by simp) (by simp) (by simp)]
    exact metadataFinishCb_hands ready called
  | taskMessage =>
    cases called
    refine Hands.advances ?_ sound found rfl
    rw [happenings_other found (by simp) (by simp) (by simp)]
    exact attach_hands current rfl (by rintro (_ | _) <;> simp [Stage.source])
  | dependencies => simp [early, show task.state = .run from fits] at before
  | entryPoint => simp [early, show task.state = .run from fits] at before
  | plugins => simp [early, show task.state = .complete from fits] at before
  | _ => cases kind

/-- Nothing is attempted yet for the current task, if there is one. -/
def Fresh (tasks : List Task) : Prop := ∀ task ∈ tasks.head?, task.state = .idle

theorem Fresh.standing (fresh : Fresh s.tasks) : standing stage active s = some (.waiting 0) := by
  unfold FetchRetries.standing
  split
  · rfl
  case h_2 task rest current =>
    rw [fresh task (by rw [current]; rfl)]
    cases stage <;> rfl

private theorem standing_late (current : s.tasks = task :: rest) (late : early task.state = false) :
    standing stage active s = none := by
  rw [standing_eq current]
  cases stage <;> cases state : task.state <;> simp_all [early, stands, Stage.ahead, Stage.state]

/-- What is done for a task behind the stages leaves it behind them. -/
theorem deed_late {config config' : CString.Text → Section} {cancelled : Bool} {aborted : StateAborted}
    {did : Option TaskSteps.Effect} {active : Source} {next : Option Source}
    (deed : Deed config cancelled aborted w did active task task' config' next)
    (late : early task.state = false) : early task'.state = false := by
  cases deed <;> simp_all [early]

/-- A task that is behind the stages stays behind them, or the next one begins. -/
theorem stride_late {origin : Option Source} {did : Option TaskSteps.Effect} {n : TaskSteps.Snapshot}
    (sound : Sound (view s)) (stride : Stride origin e did (snapshot s) n)
    (current : s.tasks = task :: rest) (late : early task.state = false) :
    (n.past = s.past ∧ ∃ task' rest', n.tasks = task' :: rest' ∧ early task'.state = false) ∨
      n.past = s.past ++ [task] ∧ Fresh n.tasks := by
  cases stride with
  | parse event parsed =>
    have none := (sound.before (by rw [show (view s).recipe = .parse from parsed]; rfl)).1
    simp [view, current] at none
  | work event here now turn deed =>
    obtain ⟨rfl, rfl⟩ := List.cons.inj (current.symm.trans now)
    exact .inl ⟨rfl, _, _, rfl, deed_late deed late⟩
  | report => exact .inl ⟨rfl, _, _, rfl, rfl⟩
  | advance here now =>
    obtain ⟨rfl, rfl⟩ := List.cons.inj (current.symm.trans now)
    refine .inr ⟨rfl, ?_⟩
    rintro _ ⟨⟩
    rfl
  | finish here now =>
    obtain ⟨rfl, rfl⟩ := List.cons.inj (current.symm.trans now)
    exact .inr ⟨rfl, fun _ head => by cases head⟩
  | results now =>
    obtain ⟨rfl, rfl⟩ := List.cons.inj (current.symm.trans now)
    exact .inl ⟨rfl, _, _, rfl, late⟩
  | adjust event request asked live now =>
    obtain ⟨rfl, rfl⟩ := List.cons.inj (current.symm.trans now)
    refine .inl ⟨rfl, _, _, rfl, ?_⟩
    exact (congrArg early TaskDeeds.adjustWatchdog_alike.state).trans late
  | _ => exact .inl ⟨rfl, _, _, current, late⟩

private theorem happenings_late (sound : Sound (view s)) (found : s.loop.find? id = some source)
    (current : s.tasks = task :: rest) (late : early task.state = false) :
    happenings s (.dispatch id w) t = fun _ => [] := by
  have apart : ∀ stage : Stage, task.state ≠ stage.state := by
    rintro (_ | _) here <;> rw [here] at late <;> cases late
  by_cases handler : source = .taskHandler
  · subst handler
    rw [happenings_handler found current, tried_apart apart]
  · refine happenings_other found handler ?_ ?_
    · rintro rfl
      exact apart .fetch (sound.fits (life task) (by simp [view, current]) .fetch
        (MainLoop.mem_kinds found rfl))
    · rintro rfl
      exact apart .refresh (sound.fits (life task) (by simp [view, current]) .roleRefresh
        (MainLoop.mem_kinds found rfl))

private theorem late_advances (sound : Sound (view s)) (found : s.loop.find? id = some source)
    (current : s.tasks = task :: rest) (late : early task.state = false)
    (stepped : Server.step s (.dispatch id w) = some t) : Advances s (.dispatch id w) t := by
  have none := happenings_late (w := w) (t := t) sound found current late
  rcases stride_late sound (TaskSteps.step_strides sound stepped) current late with
    ⟨past, task', rest', changed, behind⟩ | ⟨past, fresh⟩
  · refine Goes.advances ⟨past, fun stage => ?_⟩
    rw [none, standing_late changed behind]
    exact keeps_over
  · have next : place t = place s + 1 := by
      have length := congrArg List.length (show t.past = s.past ++ [task] from past)
      simpa [place] using length
    intro p stage
    have idle : (if p = place s then happenings s (.dispatch id w) t stage else []) = [] := by
      rw [none, ite_self]
    rw [idle, expected, expected, next, standing_late current late, Fresh.standing fresh, ite_self]
    by_cases done : p < place s + 1
    · rw [if_pos done]
      exact keeps_over
    · have behind : place s < p := Nat.lt_of_succ_le (Nat.not_lt.mp done)
      rw [if_neg done, if_neg (Nat.not_lt.mpr (Nat.le_of_lt behind)), if_neg (Nat.ne_of_gt behind)]
      exact keeps_same

private theorem activates_of_turn (turn : s.loop.kinds activates = [source]) :
    activates source = true := by
  have member : source ∈ s.loop.kinds activates := by
    rw [turn]
    exact List.mem_singleton_self _
  obtain ⟨entry, filtered, rfl⟩ := List.mem_map.mp member
  exact (List.mem_filter.mp filtered).2

/-- A step that is not about the current task: there is none yet, or it stays as it is. -/
theorem stride_quiet {origin : Option Source} {did : Option TaskSteps.Effect} {n : TaskSteps.Snapshot}
    (sound : Sound (view s)) (stride : Stride origin e did (snapshot s) n)
    (apart : s.tasks = [] ∨ ∀ active ∈ origin, activates active = false) :
    n.past = s.past ∧ (Fresh s.tasks ∧ Fresh n.tasks ∨
      n.activations = s.loop.kinds activates ∧
        n.tasks.map Task.state = s.tasks.map Task.state) := by
  have other : ∀ {task rest active}, s.tasks = task :: rest → origin = some active →
      activates active = true → False := by
    intro task rest active current here kind
    rcases apart with none | apart
    · rw [none] at current
      cases current
    · rw [apart active here] at kind
      cases kind
  cases stride with
  | parse event parsed =>
    have none := (sound.before (by rw [show (view s).recipe = .parse from parsed]; rfl)).1
    refine ⟨rfl, .inl ⟨?_, ?_⟩⟩
    · rw [List.map_eq_nil_iff.mp none]
      exact fun _ head => by cases head
    · intro task head
      obtain ⟨xml, -, rfl⟩ := List.mem_map.mp (List.mem_of_mem_head? head)
      rfl
  | launch ready =>
    have fresh : Fresh s.tasks := fun task head =>
      (TaskDeeds.staged sound).ready ready |>.2 task (List.mem_of_mem_head? head)
    exact ⟨rfl, .inl ⟨fresh, fresh⟩⟩
  | work event here current turn => exact (other current here (activates_of_turn turn)).elim
  | report event here current => exact (other current here rfl).elim
  | advance here current => exact (other current here rfl).elim
  | finish here current => exact (other current here rfl).elim
  | stop none =>
    have fresh : Fresh s.tasks := by
      rw [show s.tasks = [] from none]
      exact fun _ head => by cases head
    exact ⟨rfl, .inl ⟨fresh, fresh⟩⟩
  | results current =>
    have current : s.tasks = _ :: _ := current
    exact ⟨rfl, .inr ⟨rfl, by rw [current]; rfl⟩⟩
  | adjust event request asked live current =>
    have current : s.tasks = _ :: _ := current
    refine ⟨rfl, .inr ⟨rfl, ?_⟩⟩
    rw [current, List.map_cons, List.map_cons, TaskDeeds.adjustWatchdog_alike.state]
  | _ => exact ⟨rfl, .inr ⟨rfl, rfl⟩⟩

/-- With a current task only its own sources change the counter. -/
theorem retries_quiet (sound : Sound (view s)) (current : s.tasks ≠ [])
    (apart : ∀ active ∈ dispatched s e, activates active = false)
    (stepped : Server.step s e = some t) : t.fetchRetries = s.fetchRetries := by
  cases e with
  | request path body form time =>
    simp only [Server.step] at stepped
    split at stepped
    · cases stepped
    · exact (RecipeFetch.request_still stepped).retries
  | dispatch id w =>
    simp only [Server.step] at stepped
    split at stepped
    · cases stepped
    obtain ⟨source, found, called⟩ := Option.bind_eq_some_iff.mp stepped
    have other : activates source = false := apart source found
    obtain ⟨there, notOver, notIdle⟩ := sound.under_way (by simpa [view] using current)
    cases source with
    | recipeHandler =>
      have there : TaskMachine.early s.state = false := there
      simp only [Server.dispatch, Option.some.injEq] at called
      subst called
      cases state : s.state with
      | run => simp [Server.recipeHandler, state, attach]
      | running => simp [Server.recipeHandler, state, Server.recipeHandlerFinish]
      | fail => simp [Server.recipeHandler, state]
      | complete => exact absurd state notOver
      | idle => exact absurd state notIdle
      | _ =>
        rw [state] at there
        cases there
    | recipeFetch =>
      have fetching := (retrieving sound found rfl).1
      rw [show (view s).recipe = .fetching from fetching] at there
      cases there
    | recipeFetchRetry =>
      cases called
      rfl
    | serverMessage results noPlugins => exact (RecipeFetch.serverMsgComplete_still called).retries
    | reportPlugins =>
      cases called
      rfl
    | _ => cases other

private theorem standing_congr (states : t.tasks.map Task.state = s.tasks.map Task.state)
    (retries : s.tasks ≠ [] → t.fetchRetries = s.fetchRetries) :
    standing stage active t = standing stage active s := by
  cases current : s.tasks with
  | nil =>
    rw [current] at states
    rw [standing, standing, current, List.map_eq_nil_iff.mp states]
  | cons task rest =>
    rw [current] at states
    obtain ⟨task', rest', changed, state, -⟩ := List.map_eq_cons_iff.mp states
    rw [standing_eq current, standing_eq changed, state, retries (by simp [current])]

private theorem quiet_advances (sound : Sound (view s)) (quiet : happenings s e t = fun _ => [])
    (apart : s.tasks = [] ∨ ∀ active ∈ dispatched s e, activates active = false)
    (stepped : Server.step s e = some t) : Advances s e t := by
  obtain ⟨past, ⟨fresh, fresh'⟩ | ⟨active, states⟩⟩ :=
    stride_quiet sound (TaskSteps.step_strides sound stepped) apart
  · refine Goes.advances ⟨past, fun stage => ?_⟩
    rw [quiet, fresh.standing, Fresh.standing fresh']
    exact keeps_same
  · refine Goes.advances ⟨past, fun stage => ?_⟩
    have active : t.loop.kinds activates = s.loop.kinds activates := active
    have retries : s.tasks ≠ [] → t.fetchRetries = s.fetchRetries := fun some =>
      retries_quiet sound some (apart.resolve_left some) stepped
    rw [quiet, active, standing_congr states retries]
    exact keeps_same

/-- **Every step of the daemon leads the attempts on by their rules.** -/
theorem step_advances (sound : Sound (view s)) (stepped : Server.step s e = some t) :
    Advances s e t := by
  cases e with
  | request path body form time => exact quiet_advances sound rfl (.inr (by simp [dispatched])) stepped
  | dispatch id w =>
    have taken := stepped
    simp only [Server.step] at taken
    split at taken
    · cases taken
    obtain ⟨source, found, called⟩ := Option.bind_eq_some_iff.mp taken
    cases kind : activates source with
    | false =>
      refine quiet_advances sound ?_ (.inr fun active here => ?_) stepped
      · refine happenings_other found ?_ ?_ ?_
        all_goals
          rintro rfl
          cases kind
      · cases found.symm.trans here
        exact kind
    | true =>
      cases current : s.tasks with
      | nil =>
        obtain rfl := sound.empty (by simp [view, current]) source (MainLoop.mem_kinds found kind)
        refine quiet_advances sound ?_ (.inl current) stepped
        funext stage
        cases stage <;> simp [happenings, callsBack, begins, found, current, Stage.source]
      | cons task rest =>
        cases before : early task.state with
        | true => exact early_advances sound found kind current before called
        | false => exact late_advances sound found current before stepped

/-! ## A run -/

/-- What happened at each stage of each task leads to where its attempts stand. -/
def Tracked (r : Tries) : Prop :=
  ∀ p stage, Keeps stage (r.history p stage) (some (.waiting 0)) (expected r.daemon p stage)

variable {r r' : Tries} {stdin : Bool} {config : CString.Text → Section} {events : List Server.Event}

private theorem start_tracked : Tracked (start stdin config) := by
  intro p stage
  have fresh : expected (start stdin config).daemon p stage = some (.waiting 0) := by
    rw [expected, show place (start stdin config).daemon = 0 from rfl, if_neg (Nat.not_lt_zero p)]
    split <;> rfl
  rw [fresh]
  exact keeps_same

theorem step_tracked (sound : Sound (view r.daemon)) (tracked : Tracked r)
    (stepped : step r e = some r') : Sound (view r'.daemon) ∧ Tracked r' := by
  obtain ⟨t, taken, rfl⟩ := Option.map_eq_some_iff.mp stepped
  refine ⟨turn_sound sound (step_turn sound taken), fun p stage => ?_⟩
  exact (tracked p stage).trans (step_advances sound taken p stage)

private theorem run_tracked (ran : run step (start stdin config) events = some r) : Tracked r := by
  have kept : Sound (view r.daemon) ∧ Tracked r := by
    refine run_keeps (I := fun r => Sound (view r.daemon) ∧ Tracked r) ?_
      ⟨start_sound, start_tracked⟩ ran
    rintro r e r' ⟨sound, tracked⟩ stepped
    exact step_tracked sound tracked stepped
  exact kept.2

/-- **Each stage of each task has its own full budget of retries**, whatever the fetches of
the recipe, the other stage and the other tasks left in the counter. -/
theorem retries_bounded (ran : run step (start stdin config) events = some r) (p : Nat)
    (stage : Stage) : Bounded stage.retries (r.history p stage) := by
  obtain ⟨phase, reached, -⟩ := run_tracked ran p stage (.waiting 0) (by simp)
  exact Retry.bounded_of_run reached

open ActivationProofs (calm)

def urlTask : TaskXml := ⟨"10".toList, .unpack "http", none, "New".toList⟩

/-- The fetch of the recipe fails once, the one of the task once, and every refresh of the
roles. -/
def troubled : List Server.Event :=
  ([1, 2, 3, 1, 4, 1, 1] ++ List.range' 5 20).map fun id =>
    .dispatch id { calm [urlTask] with
      error := if id ∈ [2, 8, 15, 18, 21, 24] then some 1 else none }

theorem retries_bounded_troubled : ∃ r, run step (start false fun _ => .empty) troubled = some r ∧
    Bounded ROLE_REFRESH_RETRIES (r.history 0 .refresh) ∧
    r.history 0 .fetch = [.begun, .failed, .begun, .succeeded] ∧
    r.history 0 .refresh =
      [.begun, .failed, .begun, .failed, .begun, .failed, .begun, .failed, .gaveUp] := by
  have shown : (run step (start false fun _ => .empty) troubled).map (fun r =>
      (r.history 0 .fetch, r.history 0 .refresh)) = some
        ([.begun, .failed, .begun, .succeeded],
          [.begun, .failed, .begun, .failed, .begun, .failed, .begun, .failed, .gaveUp]) := by
    decide +kernel
  obtain ⟨r, ran, histories⟩ := Option.map_eq_some_iff.mp shown
  exact ⟨r, ran, retries_bounded ran 0 .refresh, Prod.mk.inj histories⟩

end Restraint.FetchRetries

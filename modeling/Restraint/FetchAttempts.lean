import Restraint.Lib.Retry
import Restraint.TaskRefinement

/-! The stages of a task that count their retries in `fetch_retries`: its fetch from a
URL, and the refresh of the roles from the recipe. Each callback, and each step of
`task_handler`, leads the attempts at a stage on by the rules of a retry. -/
namespace Restraint.FetchRetries
open Transition
open Restraint.Harness Restraint.TaskHandler Restraint.TaskMachine Restraint.TaskRefinement
open Retry (Happening Phase)

inductive Stage where
  | fetch
  | refresh
  deriving DecidableEq

namespace Stage

def retries : Stage → Nat
  | fetch => TASK_FETCH_RETRIES
  | refresh => ROLE_REFRESH_RETRIES

def state : Stage → TaskSetupState
  | fetch => .fetch
  | refresh => .refreshRoles

/-- The attempt. -/
def source : Stage → Source
  | fetch => .fetch
  | refresh => .roleRefresh

def retry : Stage → Source
  | fetch => .fetchRetry
  | refresh => .refreshRoleRetry

/-- The stage is still to come. -/
def ahead : Stage → TaskSetupState → Bool
  | fetch, .idle => true
  | refresh, .idle | refresh, .fetch | refresh, .metadataParse => true
  | _, _ => false

end Stage

/-- There is something to attempt at a stage: a package is installed and not fetched, and
the roles are refreshed only with a URL. -/
def attempted (s : AppData) (task : Task) : Stage → Bool
  | .fetch => task.fetchMethod != .installPackage
  | .refresh => s.recipeUrl

/-- What an attempt calls back with before it returns, if it does. -/
def atOnce (task : Task) (w : World) : Stage → Option (Option Error)
  | .fetch =>
    match task.fetchMethod with
    | .unpack scheme =>
      if scheme ∈ ["git", "http", "https", "file"] then none else some (some .scheme)
    | .installPackage => none
  | .refresh => if w.synchronous then some (w.error.map .operation) else none

/-- The current task is failed. -/
def failed (t : AppData) : Bool := t.tasks.head?.any fun task => task.state = .complete

/-- What an attempt comes to, with the daemon as it is then. -/
def outcome (t : AppData) : Option Error → List Happening
  | none => [.succeeded]
  | some _ => .failed :: if failed t then [.gaveUp] else []

/-! ## How the attempts stand -/

/-- How the attempts at a stage stand for a task in this state. -/
def stands (stage : Stage) (state : TaskSetupState) (active : List Source) (retries : Nat) :
    Option Phase :=
  if stage.ahead state then some (.waiting 0)
  else if state = stage.state then
    some (if stage.source ∈ active then .trying retries else .waiting retries)
  else none

def standing (stage : Stage) (active : List Source) (s : AppData) : Option Phase :=
  match s.tasks with
  | [] => some (.waiting 0)
  | task :: _ => stands stage task.state active s.fetchRetries

/-- From where the attempts stand before, what happens leads to where they stand after. -/
def Keeps (stage : Stage) (happened : List Happening) (before after : Option Phase) : Prop :=
  ∀ phase, (∀ now ∈ before, phase = now) →
    ∃ next, run (Retry.step stage.retries) phase happened = some next ∧ ∀ now ∈ after, next = now

/-- The attempts at both stages of the current task go on. -/
structure Goes (happened : Stage → List Happening) (active active' : List Source) (s t : AppData) :
    Prop where
  past : t.past = s.past
  keeps : ∀ stage, Keeps stage (happened stage) (standing stage active s) (standing stage active' t)

/-- The source is over and another one is attached. -/
def Hands (happened : Stage → List Happening) (source : Source) (s t : AppData) : Prop :=
  ∃ next, activates next = true ∧ t.loop = s.loop.add next ∧ Goes happened [source] [next] s t

variable {s t : AppData} {w : World} {source next : Source}
  {task task' : Task} {rest : List Task} {stage : Stage} {active active' : List Source}
  {happened : Stage → List Happening} {before after : Option Phase} {error : Option Error}

/-! ## One callback -/

/-- When the attempts are over nothing is asked of them any more. -/
theorem keeps_over : Keeps stage [] before none :=
  fun phase _ => ⟨phase, rfl, by simp⟩

theorem keeps_same : Keeps stage [] before before :=
  fun phase now => ⟨phase, rfl, now⟩

private theorem keeps_of {phase : Phase} (next : Phase) {list : List Happening}
    (ran : run (Retry.step stage.retries) phase list = some next)
    (stand : ∀ now ∈ after, next = now) : Keeps stage list (some phase) after := by
  rintro now stood
  rw [stood phase rfl]
  exact ⟨next, ran, stand⟩

theorem Keeps.trans {middle : Option Phase} {first second : List Happening}
    (one : Keeps stage first before middle) (two : Keeps stage second middle after) :
    Keeps stage (first ++ second) before after := by
  intro phase stood
  obtain ⟨between, ran, stands⟩ := one phase stood
  obtain ⟨last, onward, stands⟩ := two between stands
  exact ⟨last, run_append.mpr ⟨between, ran, onward⟩, stands⟩

theorem standing_eq (current : s.tasks = task :: rest) :
    standing stage active s = stands stage task.state active s.fetchRetries := by
  rw [standing, current]

private theorem standing_proceed : standing stage active (proceed s task) =
    stands stage task.state active s.fetchRetries := rfl

/-- An attempt is over: it is tried again, given up, or the task goes on. -/
inductive Ended (s : AppData) : Stage → Option Error → AppData → Prop where
  | again (stage : Stage) {code : Error} (few : s.fetchRetries < stage.retries) :
      Ended s stage (some code)
        (attach { s with fetchRetries := s.fetchRetries + 1 } stage.retry)
  | gaveUp (stage : Stage) {code : Error} {after : Task} (many : ¬s.fetchRetries < stage.retries)
      (gone : after.state = .complete) : Ended s stage (some code) (proceed s after)
  | fetched {after : Task} (parse : after.state = .metadataParse) :
      Ended s .fetch none (proceed s after)
  | refreshed {after : Task} (gone : after.state = .env ∨ after.state = .complete) :
      Ended s .refresh none (proceed s after)

theorem fetchFinishCallback_ended (called : fetchFinishCallback s error = some t) :
    Ended s .fetch error t := by
  obtain ⟨task, -, rfl⟩ := Option.map_eq_some_iff.mp called
  cases error with
  | none => exact .fetched rfl
  | some code =>
    dsimp only
    split
    case isTrue few => exact .again .fetch few
    case isFalse many => exact .gaveUp .fetch many rfl

theorem recipeFetchComplete_ended (called : recipeFetchComplete s w = some t) :
    Ended s .refresh (w.error.map .operation) t := by
  obtain ⟨task, -, rfl⟩ := Option.map_eq_some_iff.mp called
  cases w.error with
  | none =>
    dsimp only [Option.map_none]
    split
    · exact .refreshed (.inl rfl)
    · exact .refreshed (.inr rfl)
  | some code =>
    dsimp only [Option.map_some]
    split
    case isTrue few => exact .again .refresh few
    case isFalse many => exact .gaveUp .refresh many rfl

/-- What an attempt comes to leads to where the attempts stand then. -/
theorem Ended.keeps (ended : Ended s stage error t) (current : s.tasks = task :: rest)
    (here : task.state = stage.state) :
    ∃ next, activates next = true ∧ t.loop = s.loop.add next ∧ t.past = s.past ∧
      Keeps stage (outcome t error) (some (.trying s.fetchRetries)) (standing stage [next] t) ∧
      ∀ other ≠ stage, Keeps other [] (stands other task.state [] s.fetchRetries)
        (standing other [next] t) := by
  cases ended with
  | again _ few =>
    have waits : standing stage [stage.retry] (attach { s with fetchRetries := s.fetchRetries + 1 }
        stage.retry) = some (.waiting (s.fetchRetries + 1)) := by
      simp only [standing, attach, current, here]
      cases stage <;> rfl
    have alive : failed (attach { s with fetchRetries := s.fetchRetries + 1 } stage.retry) = false := by
      simp only [failed, attach, current, List.head?_cons, Option.any_some, here]
      cases stage <;> rfl
    refine ⟨stage.retry, by cases stage <;> rfl, rfl, rfl, ?_, ?_⟩
    · rw [waits, outcome, alive]
      refine keeps_of (.waiting (s.fetchRetries + 1)) ?_ (by simp)
      simp [run, Retry.step, few]
    · intro other apart
      simp only [standing, attach, current, here]
      cases stage <;> cases other <;> first | exact absurd rfl apart | exact keeps_same
  | @gaveUp _ _ after many gone =>
    have dead : failed (proceed s after) = true := by simp [failed, proceed, attach, gone]
    refine ⟨.taskHandler, rfl, rfl, rfl, ?_, ?_⟩
    · rw [outcome, dead, standing_proceed, gone]
      refine keeps_of .ended ?_ ?_
      · simp [run, Retry.step, many]
      · cases stage <;> simp [stands, Stage.ahead, Stage.state]
    · intro other apart
      rw [standing_proceed, gone]
      cases other <;> exact keeps_over
  | @fetched after parse =>
    refine ⟨.taskHandler, rfl, rfl, rfl, ?_, ?_⟩
    · rw [standing_proceed, parse]
      exact keeps_of .ended rfl (by simp [stands, Stage.ahead, Stage.state])
    · intro other apart
      rw [standing_proceed, parse, here]
      cases other <;> first | exact absurd rfl apart | exact keeps_same
  | @refreshed after gone =>
    refine ⟨.taskHandler, rfl, rfl, rfl, ?_, ?_⟩
    · rw [standing_proceed]
      apply keeps_of .ended rfl
      rcases gone with gone | gone <;> simp [gone, stands, Stage.ahead, Stage.state]
    · intro other apart
      rw [standing_proceed]
      rcases gone with gone | gone <;> rw [gone] <;> cases other <;> exact keeps_over

/-- Where the attempts stand at another stage does not depend on the source. -/
theorem stands_apart {other : Stage} (apart : other ≠ stage) (retries : Nat) :
    stands other stage.state active retries = stands other stage.state [] retries := by
  cases stage <;> cases other <;> first | exact absurd rfl apart | rfl

theorem Ended.hands (ended : Ended s stage error t) (current : s.tasks = task :: rest)
    (here : task.state = stage.state) :
    Hands (fun other => if other = stage then outcome t error else []) stage.source s t := by
  obtain ⟨next, active, loop, past, own, others⟩ := ended.keeps current here
  refine ⟨next, active, loop, past, fun other => ?_⟩
  rw [standing_eq current, here]
  by_cases same : other = stage
  · subst same
    rw [if_pos rfl]
    have tries : stands other other.state [other.source] s.fetchRetries =
        some (.trying s.fetchRetries) := by
      cases other <;> rfl
    rwa [tries]
  · rw [if_neg same, stands_apart same]
    exact here ▸ others other same

/-- `task_handler` starts an attempt. -/
theorem begun_keeps : Keeps stage [.begun] (stands stage stage.state [.taskHandler] s.fetchRetries)
    (some (.trying s.fetchRetries)) := by
  have waits : stands stage stage.state [.taskHandler] s.fetchRetries =
      some (.waiting s.fetchRetries) := by
    cases stage <;> rfl
  rw [waits]
  exact keeps_of (.trying s.fetchRetries) rfl (by simp)

/-- An attempt that is over before `task_handler` returns. -/
theorem Ended.atOnce (ended : Ended s stage error t) (current : s.tasks = task :: rest)
    (here : task.state = stage.state) :
    Hands (fun other => if other = stage then .begun :: outcome t error else []) .taskHandler s t := by
  obtain ⟨next, active, loop, past, own, others⟩ := ended.keeps current here
  refine ⟨next, active, loop, past, fun other => ?_⟩
  rw [standing_eq current, here]
  by_cases same : other = stage
  · subst same
    rw [if_pos rfl]
    exact begun_keeps.trans own
  · rw [if_neg same, stands_apart same]
    exact here ▸ others other same

/-- An attempt that calls back later. -/
theorem attempt_hands (stage : Stage) (current : s.tasks = task :: rest) (here : task.state = stage.state) :
    Hands (fun other => if other = stage then [.begun] else []) .taskHandler s
      (attach s stage.source) := by
  refine ⟨stage.source, by cases stage <;> rfl, rfl, rfl, fun other => ?_⟩
  have now : (attach s stage.source).tasks = task :: rest := current
  rw [standing_eq current, standing_eq now, here]
  by_cases same : other = stage
  · subst same
    rw [if_pos rfl]
    have tries : stands other other.state [other.source] s.fetchRetries =
        some (.trying s.fetchRetries) := by
      cases other <;> rfl
    exact begun_keeps.trans (tries ▸ keeps_same)
  · have elsewhere : stands other stage.state [.taskHandler] s.fetchRetries =
        stands other stage.state [stage.source] s.fetchRetries :=
      (stands_apart same _).trans (stands_apart same _).symm
    rw [if_neg same, elsewhere]
    exact keeps_same

private theorem apart_of {x : TaskSetupState} (fetch : x ≠ .fetch) (refresh : x ≠ .refreshRoles) :
    ∀ stage : Stage, x ≠ stage.state := by
  rintro (_ | _)
  · exact fetch
  · exact refresh

/-- A task comes only to stages that were ahead of it. -/
def Forward (x y : TaskSetupState) : Prop :=
  ∀ stage : Stage, stage.ahead y = true ∨ y = stage.state → stage.ahead x = true

private theorem forward_idle {y : TaskSetupState} : Forward .idle y := by
  rintro (_ | _) - <;> rfl

private theorem forward_complete {x : TaskSetupState} : Forward x .complete := by
  rintro (_ | _) (here | here) <;> cases here

private theorem forward_env {x : TaskSetupState} : Forward x .env := by
  rintro (_ | _) (here | here) <;> cases here

private theorem forward_parse : Forward .fetch .metadataParse := by
  rintro (_ | _) (here | here) <;> first | rfl | cases here

private theorem forward_refresh : Forward .metadataParse .refreshRoles := by
  rintro (_ | _) (here | here) <;> first | rfl | cases here

/-- A task that is moved on without an attempt comes to a stage with a fresh counter. -/
theorem Forward.keeps {x y : TaskSetupState} {retries retries' : Nat} (forward : Forward x y)
    (fresh : y = stage.state → retries' = 0 ∧ stage.source ∉ active') :
    Keeps stage [] (stands stage x active retries) (stands stage y active' retries') := by
  unfold stands
  split
  case isTrue before =>
    split
    · exact keeps_same
    · split
      case isTrue here =>
        obtain ⟨rfl, idle⟩ := fresh here
        rw [if_neg idle]
        exact keeps_same
      · exact keeps_over
  case isFalse behind =>
    rw [if_neg fun ahead => behind (forward stage (.inl ahead)),
      if_neg fun here => behind (forward stage (.inr here))]
    exact keeps_over

/-- A source that gives way to another one, with the attempts as they are. -/
theorem attach_hands (current : s.tasks = task :: rest) (active : activates next = true)
    (apart : ∀ stage : Stage, stage.source ≠ source ∧ stage.source ≠ next) :
    Hands (fun _ => []) source s (attach s next) := by
  refine ⟨next, active, rfl, rfl, fun stage => ?_⟩
  have now : (attach s next).tasks = task :: rest := current
  have same : stands stage task.state [source] s.fetchRetries =
      stands stage task.state [next] s.fetchRetries := by
    simp [stands, apart stage]
  rw [standing_eq current, standing_eq now, same]
  exact keeps_same

/-- A callback that moves the task on without an attempt. -/
theorem proceed_hands {retries : Nat} (current : s.tasks = task :: rest)
    (forward : Forward task.state task'.state)
    (fresh : ∀ stage : Stage, task'.state = stage.state → retries = 0) :
    Hands (fun _ => []) source s (proceed { s with fetchRetries := retries } task') := by
  refine ⟨.taskHandler, rfl, rfl, rfl, fun stage => ?_⟩
  rw [standing_eq current, standing_proceed]
  exact forward.keeps fun here => ⟨fresh stage here, by cases stage <;> simp [Stage.source]⟩

private theorem leave_hands (current : s.tasks = task :: rest) (forward : Forward task.state task'.state)
    (apart : ∀ stage : Stage, task'.state ≠ stage.state) :
    Hands (fun _ => []) source s (proceed s task') :=
  proceed_hands current forward fun stage here => absurd here (apart stage)

theorem taskHandlerCallback_hands (ready : Ready s .fetchPackage)
    (called : taskHandlerCallback s w = some t) : Hands (fun _ => []) source s t := by
  obtain ⟨task, rest, current, fetch, -, rfl⟩ := callback_cases rfl ready called
  have parse : Forward task.state .metadataParse := by
    rw [show task.state = .fetch from fetch]
    exact forward_parse
  split
  · exact leave_hands current forward_complete (apart_of (by simp) (by simp))
  · split
    · exact leave_hands current parse (apart_of (by simp) (by simp))
    · exact leave_hands current forward_complete (apart_of (by simp) (by simp))

theorem metadataFinishCb_hands (ready : Ready s .metadata) (called : metadataFinishCb s w = some t) :
    Hands (fun _ => []) source s t := by
  obtain ⟨task, rest, current, parse, -, rfl⟩ := callback_cases rfl ready called
  dsimp only
  split
  · refine proceed_hands current ?_ fun _ _ => rfl
    rw [show task.state = .metadataParse from parse]
    exact forward_refresh
  · exact leave_hands current forward_complete (apart_of (by simp) (by simp))

/-- A retry comes to its stage with the counter as it is. -/
theorem retry_hands (stage : Stage) (current : s.tasks = task :: rest) (here : task.state = stage.state) :
    Hands (fun _ => []) stage.retry s (proceed s { task with state := stage.state }) := by
  refine ⟨.taskHandler, rfl, rfl, rfl, fun other => ?_⟩
  rw [standing_eq current, standing_proceed, here]
  have same : stands other stage.state [stage.retry] s.fetchRetries =
      stands other stage.state [.taskHandler] s.fetchRetries := by
    cases stage <;> cases other <;> rfl
  rw [same]
  exact keeps_same

/-! ## A step of `task_handler` -/

/-- What `task_handler` does for the attempts, whether it stays attached or hands over. -/
def Serves (happened : Stage → List Happening) (s t : AppData) (stays : Bool) : Prop :=
  if stays then t.loop = s.loop ∧ Goes happened [.taskHandler] [.taskHandler] s t
  else Hands happened .taskHandler s t

private theorem stays_serves (current : s.tasks = task :: rest) (changed : t.tasks = task' :: rest)
    (loop : t.loop = s.loop) (past : t.past = s.past) (forward : Forward task.state task'.state)
    (apart : ∀ stage : Stage, task'.state ≠ stage.state) : Serves (fun _ => []) s t true := by
  refine ⟨loop, past, fun stage => ?_⟩
  rw [standing_eq current, standing_eq changed]
  exact forward.keeps fun here => absurd here (apart stage)

/-- `task_handler` waits for Beaker. -/
theorem wait_serves : Serves (fun _ => []) s s true := ⟨rfl, rfl, fun _ => keeps_same⟩

private theorem taskIdle_serves (current : s.tasks = task :: rest) (idle : task.state = .idle)
    {stays : Bool}
    (called : taskIdle s w task rest = (t, stays)) : Serves (fun _ => []) s t stays := by
  have forward : ∀ {y}, Forward task.state y := by
    intro y
    rw [idle]
    exact forward_idle
  unfold taskIdle at called
  split at called
  · cases called
    exact stays_serves current rfl rfl rfl forward (apart_of (by simp) (by simp))
  dsimp only at called
  split at called
  · cases called
    exact stays_serves current rfl rfl rfl forward (apart_of (by simp) (by simp))
  split at called
  · cases called
    exact stays_serves current rfl rfl rfl forward (apart_of (by simp) (by simp))
  split at called
  · cases called
    exact stays_serves current rfl rfl rfl forward (apart_of (by simp) (by simp))
  split at called
  · cases called
    exact stays_serves current rfl rfl rfl forward (apart_of (by simp) (by simp))
  · cases called
    refine ⟨.taskMessage, rfl, rfl, rfl, fun stage => ?_⟩
    rw [standing_eq current]
    exact forward.keeps fun _ => ⟨rfl, by cases stage <;> simp [Stage.source]⟩

/-- What `task_handler` does for the attempts at a stage. -/
def tried (s t : AppData) (task : Task) (w : World) (stage : Stage) : List Happening :=
  if task.state = stage.state ∧ (s.stdin || w.healthy) ∧ attempted s task stage then
    .begun :: (atOnce task w stage).elim [] (outcome t)
  else []

theorem tried_apart (apart : ∀ stage : Stage, task.state ≠ stage.state) :
    tried s t task w = fun _ => [] := by
  funext stage
  exact if_neg fun due => apart stage due.1

private theorem tried_waiting (due : (s.stdin || w.healthy) = false) :
    tried s t task w = fun _ => [] := by
  funext stage
  exact if_neg fun due' => by simp [due] at due'

private theorem state_injective {other : Stage} (same : other.state = stage.state) : other = stage := by
  cases other <;> cases stage <;> first | rfl | cases same

private theorem tried_here (stage : Stage) (here : task.state = stage.state)
    (due : (s.stdin || w.healthy) = true) :
    tried s t task w = fun other => if other = stage then
      if attempted s task stage then .begun :: (atOnce task w stage).elim [] (outcome t) else []
      else [] := by
  funext other
  unfold tried
  by_cases same : other = stage
  · subst same
    simp [here, due]
  · have apart : stage.state ≠ other.state := fun equal => same (state_injective equal.symm)
    simp [here, same, apart]

private theorem restraintTaskFetch_hands (current : s.tasks = task :: rest) (fetch : task.state = .fetch)
    (due : (s.stdin || w.healthy) = true) (called : restraintTaskFetch s task = some t) :
    Hands (tried s t task w) .taskHandler s t := by
  rw [tried_here .fetch fetch due]
  unfold restraintTaskFetch at called
  split at called
  case h_1 scheme method =>
    split at called
    case isTrue known =>
      cases called
      have begun := attempt_hands .fetch current fetch
      simpa [attempted, atOnce, method, known, Stage.source] using begun
    case isFalse unknown =>
      have ended := (fetchFinishCallback_ended called).atOnce current fetch
      simpa [attempted, atOnce, method, unknown] using ended
  case h_2 method =>
    cases called
    have waits : Hands (fun _ => []) .taskHandler s (attach s .fetchPackage) :=
      attach_hands current rfl (by rintro (_ | _) <;> simp [Stage.source])
    simpa [attempted, method] using waits

private theorem roleRefresh_hands (current : s.tasks = task :: rest)
    (refresh : task.state = .refreshRoles)
    (url : s.recipeUrl = true) (due : (s.stdin || w.healthy) = true)
    (called : (if w.synchronous then recipeFetchComplete s w else some (attach s .roleRefresh)) = some t) :
    Hands (tried s t task w) .taskHandler s t := by
  rw [tried_here .refresh refresh due]
  split at called
  case isTrue now =>
    have ended := (recipeFetchComplete_ended called).atOnce current refresh
    simpa [attempted, atOnce, url, now] using ended
  case isFalse later =>
    cases called
    have begun := attempt_hands .refresh current refresh
    simpa [attempted, atOnce, url, later, Stage.source] using begun

/-- A change of the current task that leaves its state. -/
theorem Hands.of_same {u : AppData} (hands : Hands happened source u t) (current : s.tasks = task :: rest)
    (changed : u.tasks = task' :: rest) (state : task'.state = task.state) (loop : u.loop = s.loop)
    (past : u.past = s.past) (retries : u.fetchRetries = s.fetchRetries) :
    Hands happened source s t := by
  obtain ⟨next, active, added, goes⟩ := hands
  refine ⟨next, active, loop ▸ added, past ▸ goes.past, fun stage => ?_⟩
  have keeps := goes.keeps stage
  rw [standing_eq changed, state, retries] at keeps
  rwa [standing_eq current]

private theorem due_of (go : ¬(!s.stdin && !w.healthy) = true) : (s.stdin || w.healthy) = true := by
  cases stdin : s.stdin <;> simp_all

/-- The states before the end of the refresh of the roles. -/
def early (state : TaskSetupState) : Bool :=
  state = .idle || state = .fetch || state = .metadataParse || state = .refreshRoles

theorem taskHandler_serves (current : s.tasks = task :: rest) (before : early task.state = true)
    {stays : Bool} (called : taskHandler s w = some (t, stays)) :
    Serves (tried s t task w) s t stays := by
  simp only [taskHandler, current] at called
  split at called
  case h_1 idle =>
    rw [tried_apart (apart_of (by simp [idle]) (by simp [idle]))]
    exact taskIdle_serves current idle (Option.some.inj called)
  case h_2 fetch =>
    split at called
    case isTrue wait =>
      cases called
      rw [tried_waiting (by simpa using wait)]
      exact wait_serves
    case isFalse due =>
      obtain ⟨u, started, same⟩ := Option.map_eq_some_iff.mp called
      cases same
      exact restraintTaskFetch_hands current fetch (due_of due) started
  case h_3 parse =>
    obtain ⟨u, started, same⟩ := Option.map_eq_some_iff.mp called
    cases same
    rw [tried_apart (apart_of (by simp [parse]) (by simp [parse]))]
    suffices hands : Hands (fun _ => []) .taskHandler
        { s with tasks := { task with rhtsCompat := w.rhtsCompat } :: rest } t from
      hands.of_same current rfl rfl rfl rfl rfl
    split at started
    · exact metadataFinishCb_hands (by simpa [Ready, Fits] using parse) started
    · cases started
      exact attach_hands rfl rfl (by rintro (_ | _) <;> simp [Stage.source])
  case h_4 refresh =>
    split at called
    case isTrue url =>
      split at called
      case isTrue wait =>
        cases called
        rw [tried_waiting (by simpa using wait)]
        exact wait_serves
      case isFalse due =>
        obtain ⟨u, started, same⟩ := Option.map_eq_some_iff.mp called
        cases same
        exact roleRefresh_hands current refresh url (due_of due) started
    case isFalse noUrl =>
      cases called
      have none : tried s { s with tasks := { task with state := .env } :: rest } task w =
          fun _ => [] := by
        funext stage
        apply if_neg
        intro due
        cases stage with
        | fetch => exact absurd (refresh.symm.trans due.1) (by simp [Stage.state])
        | refresh => exact noUrl due.2.2
      rw [none]
      exact stays_serves current rfl rfl rfl forward_env (apart_of (by simp) (by simp))
  all_goals
    rename_i gone
    simp [early, gone] at before

end Restraint.FetchRetries

import Restraint.ActivationProofs
import Restraint.TaskDeeds
import Restraint.Env
import Restraint.Watchdog
import Restraint.Lib.History

/-! The daemon over restarts. It stops at any point and is started again with the
config file as it left it; the lab controller keeps the final statuses that it has
acknowledged and gives them in the recipe. What is done for the tasks is noted over
all the lives of the daemon. -/
namespace Restraint.Restart
open Transition History
open CString (Text)
open Restraint.Harness Restraint.TaskHandler Restraint.TaskMachine Restraint.TaskRefinement
open Restraint.TaskSteps Restraint.TaskDeeds

/-- What was done for a task. -/
inductive Done where
  /-- `restraint_task_fetch` was called. -/
  | fetched
  /-- `restraint_task_watchdog` was called. -/
  | posted
  /-- `restraint_install_dependencies` was called. -/
  | installed
  /-- `task_run` started the entry point with this time and environment. -/
  | launched (remainingTime : Int) (rhtsCompat : Bool) (env : List Text)
  /-- `task_heartbeat_callback` wrote this remaining time to the config file. -/
  | beat (remainingTime : Int)
  /-- The local watchdog expired, and the flag was written to the config file. -/
  | expired
  /-- The task reached `TASK_COMPLETED`. -/
  | reached
  /-- This final status was queued; the section of the task was removed or not. -/
  | reported (status : Status) (cleared : Bool)
  /-- The user adjusted the watchdog. -/
  | adjusted
  deriving DecidableEq

structure Note where
  place : Nat
  taskId : Text
  done : Done
  deriving DecidableEq

structure Host where
  daemon : AppData
  /-- The recipe of the lab controller. -/
  recipeId : Text
  recipe : List TaskXml
  /-- The final statuses in the message queue, by the places of the tasks. -/
  queued : List (Nat × Status)
  /-- The final statuses that the lab controller has acknowledged. -/
  acknowledged : List (Nat × Status)
  /-- `env` of the current task. -/
  env : List Text
  /-- `process_run` has set a timeout for the entry point. -/
  timeout : Bool
  /-- What was done, the newest first. -/
  notes : List Note

/-- The status in the recipe once a final one is acknowledged. -/
def finalStatus (status : Status) : Text :=
  if status = .aborted then "Aborted".toList else "Completed".toList

/-- The tasks as the lab controller gives them. -/
def recipeXml (recipe : List TaskXml) (acknowledged : List (Nat × Status)) : List TaskXml :=
  recipe.mapIdx fun place xml =>
    { xml with status := (acknowledged.lookup place).elim xml.status finalStatus }

/-- What the world answers: the recipe is the one of the lab controller. -/
def Host.world (h : Host) (w : World) : World :=
  { w with recipe := w.recipe.map fun _ => (h.recipeId, recipeXml h.recipe h.acknowledged) }

/-- An event as it comes to the daemon. -/
def Host.event (h : Host) : Server.Event → Server.Event
  | .dispatch id w => .dispatch id (h.world w)
  | .request path body form time => .request path body form time

/-- The config file can be written in an event. -/
def writes : Server.Event → Bool
  | .dispatch _ w => w.configWrites
  | .request .. => true

/-- The time `task_run` starts the entry point with. -/
def runTime (task : Task) : Int :=
  if task.metadata.any Metadata.nolocalwatchdog then 0 else task.remainingTime

/-- What is noted of an effect for the current task. -/
def doneBy (task : Task) (env : List Text) (writes : Bool) : Effect → Option Done
  | .fetch => some .fetched
  | .equip => none
  | .post => some .posted
  | .install => some .installed
  | .launch => some (.launched (runTime task) task.rhtsCompat env)
  | .expire => some .expired
  | .reach => some .reached
  | .report => some (.reported (verdict task.error) writes)
  | .adjust => some .adjusted

def noted (m : Snapshot) (env : List Text) (e : Server.Event) (did : Option Effect) : Option Note :=
  did.bind fun effect => m.tasks.head?.bind fun task =>
    (doneBy task env (writes e) effect).map fun done => ⟨m.past.length, task.taskId, done⟩

/-- What `build_env` and `task_run` leave besides the daemon, and the message queue. -/
def effected (h : Host) (settings : Env.Settings) (task : Task) : Effect → Host
  | .equip => { h with env := Env.buildEnv settings task }
  | .launch => { h with timeout := runTime task % 2 ^ 64 ≠ 0 }
  | .report => { h with queued := h.queued ++ [(place h.daemon, verdict task.error)] }
  | _ => h

/-- The daemon takes a step; `settings` is what `build_env` reads of the recipe. -/
def serve (h : Host) (e : Server.Event) (settings : Env.Settings) : Option Host :=
  (Server.step h.daemon e).map fun daemon =>
    let did := acts h.daemon e
    let k := match did, h.daemon.tasks.head? with
      | some effect, some task => effected h settings task effect
      | _, _ => h
    { k with
      daemon := daemon
      notes := (noted (snapshot h.daemon) h.env e did).toList ++ h.notes }

/-- The remaining time that `task_heartbeat_callback` leaves. -/
def heartbeatLeft (task : Task) (now : Nat) : Int :=
  match task.timeChged with
  | some changed =>
    if task.remainingTime ≠ 0 then
      let delta := Binary64.ofInt ((now : Int) - changed)
      let remaining := Binary64.ofInt task.remainingTime
      if delta < remaining then Binary64.toInt64 (Binary64.sub remaining delta) else 0
    else 0
  | none =>
    if task.remainingTime > Process.HEARTBEAT then task.remainingTime - Process.HEARTBEAT else 0

/-- A number that was written with `g_key_file_set_uint64`, read with
`g_key_file_get_int64`: `g_ascii_strtoll` gives the greatest number it can. -/
def storedInt64 (n : Int) : Int := min (n % 2 ^ 64) (2 ^ 63 - 1)

/-- The config file after `task_heartbeat_callback`. -/
def beatConfig (config : Text → Section) (taskId : Text) (left : Int) (writes : Bool) : Text → Section :=
  if writes then Function.update config taskId
    { config taskId with remainingTime := storedInt64 left }
  else config

/-- What is noted of a heartbeat. -/
def beatNote (place : Nat) (taskId : Text) (left : Int) (writes : Bool) : Option Note :=
  if writes then some ⟨place, taskId, .beat (storedInt64 left)⟩ else none

/-- `task_heartbeat_callback`, while the entry point runs and has a timeout. -/
def heartbeat (h : Host) (now : Nat) (writes : Bool) : Option Host :=
  match h.daemon.tasks with
  | [] => none
  | task :: rest =>
    if h.timeout && h.daemon.loop.kinds activates = [.entryPoint] then
      let left := heartbeatLeft task now
      some { h with
        daemon := { h.daemon with
          tasks := { task with
            remainingTime := left
            timeChged := none } :: rest
          config := beatConfig h.daemon.config task.taskId left writes }
        notes := (beatNote (place h.daemon) task.taskId left writes).toList ++ h.notes }
    else none

/-- The daemon stops and is started again: the config file is all it has left. -/
def restarted (h : Host) (config : Text → Section) : Host :=
  { h with
    daemon := Server.start h.daemon.stdin config
    queued := []
    env := []
    timeout := false }

/-- The section of a task after the first of the two writes of `TASK_RUN`. -/
def halfRan (config : Text → Section) (taskId : Text) : Text → Section :=
  Function.update config taskId { config taskId with started := true }

inductive Event where
  /-- The daemon takes a step; `settings` is what `build_env` reads of the recipe. -/
  | serve (event : Server.Event) (settings : Env.Settings)
  /-- The timeout of the entry point calls `task_heartbeat_callback`. -/
  | heartbeat (now : Nat) (writes : Bool)
  /-- The lab controller acknowledges a final status. -/
  | acknowledge (place : Nat) (status : Status)
  /-- The daemon stops between two steps. It stops within one before a write of the
  config file if the write does not come about in that step. -/
  | restart
  /-- The daemon stops between the two writes of `TASK_RUN`. -/
  | interrupt (id : Nat) (world : World) (settings : Env.Settings)
  deriving DecidableEq

/-- The step of the daemon that is interrupted: it does not get to its last write. -/
def interrupted (id : Nat) (w : World) : Server.Event :=
  .dispatch id { w with configWrites := false }

def step (h : Host) : Event → Option Host
  | .serve event settings => serve h (h.event event) settings
  | .heartbeat now writes => heartbeat h now writes
  | .acknowledge place status =>
    if (place, status) ∈ h.queued then
      some { h with
        queued := h.queued.erase (place, status)
        acknowledged := (place, status) :: h.acknowledged }
    else none
  | .restart => some (restarted h h.daemon.config)
  | .interrupt id w settings =>
    let e := h.event (interrupted id w)
    if acts h.daemon e = some .launch then
      h.daemon.tasks.head?.bind fun task =>
        (serve h e settings).map fun k => restarted k (halfRan k.daemon.config task.taskId)
    else none

/-- The daemon is started for the first time, for this recipe. -/
def start (stdin : Bool) (recipeId : Text) (recipe : List TaskXml) : Host where
  daemon := Server.start stdin fun _ => .empty
  recipeId := recipeId
  recipe := recipe
  queued := []
  acknowledged := []
  env := []
  timeout := false
  notes := []

variable {h k : Host} {e : Event} {m : Snapshot} {task : Task} {rest : List Task} {effect : Effect}
  {env : List Text} {event : Server.Event} {settings : Env.Settings}

@[simp] theorem noted_none : noted m env event none = none := rfl

theorem noted_current (current : m.tasks = task :: rest) : noted m env event (some effect) =
    (doneBy task env (writes event) effect).map fun done => ⟨m.past.length, task.taskId, done⟩ := by
  simp [noted, current]

/-- What a step of the daemon leaves. -/
theorem serve_spec (sound : Sound (view h.daemon)) (served : serve h event settings = some k) :
    Sound (view k.daemon) ∧
      Stride (dispatched h.daemon event) event (acts h.daemon event) (snapshot h.daemon)
        (snapshot k.daemon) ∧
      k.notes = (noted (snapshot h.daemon) h.env event (acts h.daemon event)).toList ++ h.notes := by
  obtain ⟨daemon, stepped, rfl⟩ := Option.map_eq_some_iff.mp served
  exact ⟨turn_sound sound (step_turn sound stepped), step_strides sound stepped, rfl⟩

theorem step_sound (sound : Sound (view h.daemon)) (stepped : step h e = some k) :
    Sound (view k.daemon) := by
  cases e with
  | serve event settings => exact (serve_spec sound stepped).1
  | heartbeat now writes =>
    simp only [step, heartbeat] at stepped
    split at stepped
    · cases stepped
    · rename_i current
      split at stepped
      · cases stepped
        simpa [view, current, life] using sound
      · cases stepped
  | acknowledge place status =>
    simp only [step] at stepped
    split at stepped
    · cases stepped
      exact sound
    · cases stepped
  | restart =>
    cases stepped
    exact start_sound
  | interrupt id w settings =>
    simp only [step] at stepped
    split at stepped
    · obtain ⟨task, -, stepped⟩ := Option.bind_eq_some_iff.mp stepped
      obtain ⟨between, -, rfl⟩ := Option.map_eq_some_iff.mp stepped
      exact start_sound
    · cases stepped

@[simp] theorem beatConfig_started {config : Text → Section} {taskId other : Text} {left : Int}
    {writes : Bool} : (beatConfig config taskId left writes other).started = (config other).started := by
  unfold beatConfig
  split
  · by_cases same : other = taskId <;> simp [same]
  · rfl

@[simp] theorem beatConfig_localwatchdog {config : Text → Section} {taskId other : Text} {left : Int}
    {writes : Bool} :
    (beatConfig config taskId left writes other).localwatchdog = (config other).localwatchdog := by
  unfold beatConfig
  split
  · by_cases same : other = taskId <;> simp [same]
  · rfl

@[simp] theorem beatConfig_reboots {config : Text → Section} {taskId other : Text} {left : Int}
    {writes : Bool} : (beatConfig config taskId left writes other).reboots = (config other).reboots := by
  unfold beatConfig
  split
  · by_cases same : other = taskId <;> simp [same]
  · rfl

@[simp] theorem halfRan_localwatchdog {config : Text → Section} {taskId other : Text} :
    (halfRan config taskId other).localwatchdog = (config other).localwatchdog := by
  unfold halfRan
  by_cases own : other = taskId <;> simp [own]

@[simp] theorem halfRan_remainingTime {config : Text → Section} {taskId other : Text} :
    (halfRan config taskId other).remainingTime = (config other).remainingTime := by
  unfold halfRan
  by_cases own : other = taskId <;> simp [own]

/-- A heartbeat notes what it has left. -/
theorem beatNote_done {place : Nat} {taskId : Text} {left : Int} {writes : Bool} {note : Note}
    (member : note ∈ beatNote place taskId left writes) :
    note = ⟨place, taskId, .beat (storedInt64 left)⟩ := by
  unfold beatNote at member
  split at member <;> cases member
  rfl

/-- The part of the daemon that its tasks depend on, after a heartbeat. -/
def beaten (m : Snapshot) (task : Task) (rest : List Task) (left : Int) (writes : Bool) : Snapshot :=
  { m with
    tasks := { task with
      remainingTime := left
      timeChged := none } :: rest
    config := beatConfig m.config task.taskId left writes }

/-- What a heartbeat leaves. -/
theorem heartbeat_spec {now : Nat} {writes : Bool} (beat : heartbeat h now writes = some k) :
    ∃ task rest, h.daemon.tasks = task :: rest ∧ h.daemon.loop.kinds activates = [.entryPoint] ∧
      snapshot k.daemon = beaten (snapshot h.daemon) task rest (heartbeatLeft task now) writes ∧
      k.notes =
        (beatNote (place h.daemon) task.taskId (heartbeatLeft task now) writes).toList ++ h.notes ∧
      k.recipe = h.recipe ∧ k.queued = h.queued ∧ k.acknowledged = h.acknowledged ∧ k.env = h.env := by
  unfold heartbeat at beat
  split at beat
  · cases beat
  · rename_i task rest current
    split at beat
    · rename_i running
      cases beat
      simp only [Bool.and_eq_true, decide_eq_true_eq] at running
      exact ⟨task, rest, current, running.2, rfl, rfl, rfl, rfl, rfl, rfl⟩
    · cases beat

/-- What is left of a step that was interrupted. -/
theorem interrupt_spec {id : Nat} {w : World} (stepped : step h (.interrupt id w settings) = some k) :
    ∃ task between, task ∈ h.daemon.tasks.head? ∧
      acts h.daemon (h.event (interrupted id w)) = some .launch ∧
      serve h (h.event (interrupted id w)) settings = some between ∧
      k = restarted between (halfRan between.daemon.config task.taskId) := by
  simp only [step] at stepped
  split at stepped
  · rename_i launches
    obtain ⟨task, head, stepped⟩ := Option.bind_eq_some_iff.mp stepped
    obtain ⟨between, served, same⟩ := Option.map_eq_some_iff.mp stepped
    exact ⟨task, between, head, launches, served, same.symm⟩
  · cases stepped

/-- An acknowledgement is only kept. -/
theorem acknowledge_spec {place : Nat} {status : Status}
    (stepped : step h (.acknowledge place status) = some k) :
    (place, status) ∈ h.queued ∧ k = { h with
      queued := h.queued.erase (place, status)
      acknowledged := (place, status) :: h.acknowledged } := by
  simp only [step] at stepped
  split at stepped
  · rename_i queued
    cases stepped
    exact ⟨queued, rfl⟩
  · cases stepped

/-- The heartbeat is the one of the watchdog. -/
theorem heartbeatLeft_watchdog {watch : Watchdog.Watch} (remaining : watch.remainingTime = task.remainingTime)
    (changed : watch.timeChged = task.timeChged.map Int.ofNat) :
    (Watchdog.taskHeartbeatCallback watch).remainingTime = heartbeatLeft task watch.now ∧
      (Watchdog.taskHeartbeatCallback watch).timeChged = none ∧
      (Watchdog.taskHeartbeatCallback watch).config = some (heartbeatLeft task watch.now) := by
  unfold Watchdog.taskHeartbeatCallback heartbeatLeft
  cases own : task.timeChged with
  | none => simp [changed, own, remaining]
  | some time =>
    simp only [changed, own, remaining, Option.map_some]
    split
    · simp
    · rename_i zero
      simpa using zero

/-- A heartbeat changes the remaining time only. -/
theorem beaten_alike {left : Int} {writes : Bool} :
    ∀ changed ∈ (beaten m task rest left writes).tasks.head?, Alike task changed := by
  rintro _ ⟨⟩
  exact ⟨rfl, rfl, rfl, rfl, rfl, rfl, rfl⟩

/-- What is noted is about the current task. -/
theorem noted_spec {did : Option Effect} {note : Note} (member : note ∈ noted m env event did) :
    ∃ effect task, did = some effect ∧ task ∈ m.tasks.head? ∧ note.place = m.past.length ∧
      note.taskId = task.taskId ∧ doneBy task env (writes event) effect = some note.done := by
  obtain ⟨effect, did, current⟩ := Option.bind_eq_some_iff.mp member
  obtain ⟨task, head, noted⟩ := Option.bind_eq_some_iff.mp current
  obtain ⟨done, doing, rfl⟩ := Option.map_eq_some_iff.mp noted
  exact ⟨effect, task, did, head, rfl, rfl, doing⟩

/-- An entry point that is noted to have been started is the one of the current task. -/
theorem noted_launched {did : Option Effect} {note : Note} {remainingTime : Int} {rhtsCompat : Bool}
    {env' : List Text} (member : note ∈ noted m env event did)
    (launched : note.done = .launched remainingTime rhtsCompat env') :
    did = some .launch ∧ env' = env ∧ ∃ task ∈ m.tasks.head?, note.taskId = task.taskId ∧
      remainingTime = runTime task ∧ rhtsCompat = task.rhtsCompat := by
  obtain ⟨effect, task, did, head, -, own, doing⟩ := noted_spec member
  rw [launched] at doing
  cases effect <;> cases doing
  exact ⟨did, rfl, task, head, own, rfl, rfl⟩

/-- A final status that is noted is the one of the current task. -/
theorem noted_reported {did : Option Effect} {note : Note} {status : Status} {cleared : Bool}
    (member : note ∈ noted m env event did) (reported : note.done = .reported status cleared) :
    did = some .report ∧ ∃ task ∈ m.tasks.head?, note.taskId = task.taskId ∧ status = verdict task.error := by
  obtain ⟨effect, task, did, head, -, own, doing⟩ := noted_spec member
  rw [reported] at doing
  cases effect <;> cases doing
  exact ⟨did, task, head, own, rfl⟩

/-- The section of the task was removed. -/
def clears : Done → Bool
  | .reported _ cleared => cleared
  | _ => false

/-- What was done for a task since its section was last removed, the newest first. -/
def lately (taskId : Text) (notes : List Note) : List Done :=
  since clears ((notes.filter fun note => note.taskId = taskId).map Note.done)

def launches : Done → Bool
  | .launched .. => true
  | _ => false

variable {notes : List Note} {taskId : Text} {did : Option Effect}

@[simp] theorem lately_nil : lately taskId [] = [] := rfl

theorem lately_cons {note : Note} : lately taskId (note :: notes) =
    if note.taskId = taskId then
      if clears note.done then [] else note.done :: lately taskId notes
    else lately taskId notes := by
  unfold lately
  by_cases own : note.taskId = taskId <;> simp [own, since_cons]

/-- What is noted for one task leaves the others as they are. -/
theorem lately_other (current : m.tasks = task :: rest) (other : taskId ≠ task.taskId) :
    lately taskId ((noted m env event did).toList ++ notes) = lately taskId notes := by
  cases did with
  | none => rfl
  | some effect =>
    rw [noted_current current]
    cases doneBy task env (writes event) effect with
    | none => rfl
    | some done => simp [lately_cons, Ne.symm other]

/-- What is noted for the current task. -/
theorem lately_own (current : m.tasks = task :: rest) :
    lately task.taskId ((noted m env event (some effect)).toList ++ notes) =
      match doneBy task env (writes event) effect with
      | none => lately task.taskId notes
      | some done => if clears done then [] else done :: lately task.taskId notes := by
  rw [noted_current current]
  cases doneBy task env (writes event) effect with
  | none => rfl
  | some done => simp [lately_cons]

/-- What was done for a task stays noted until its section is removed. -/
theorem lately_kept {done : Done} (kept : did ≠ some .report) (member : done ∈ lately taskId notes) :
    done ∈ lately taskId ((noted m env event did).toList ++ notes) := by
  cases did with
  | none => exact member
  | some effect =>
    cases current : m.tasks with
    | nil => simpa [noted, current] using member
    | cons task rest =>
      by_cases own : taskId = task.taskId
      · subst own
        rw [lately_own current]
        cases effect with
        | report => exact absurd rfl kept
        | _ => simp [doneBy, clears, member]
      · rwa [lately_other current own]

/-- What is noted of a heartbeat is the remaining time of the current task. -/
theorem lately_beat {place : Nat} {left : Int} {writes : Bool} {other : Text} :
    lately other ((beatNote place taskId left writes).toList ++ notes) =
      if writes = true ∧ other = taskId then .beat (storedInt64 left) :: lately other notes
      else lately other notes := by
  unfold beatNote
  cases writes with
  | false => simp
  | true =>
    by_cases own : other = taskId
    · simp [lately_cons, clears, own]
    · simp [lately_cons, own, Ne.symm own]

/-- The daemon dispatches no source that is bad for the current task. -/
def avoids (bad : Snapshot → List Note → Source → World → Task → Prop) (h : Host) : Event → Prop
  | .serve (.dispatch id w) _ => ∀ source ∈ h.daemon.loop.find? id, ∀ task ∈ h.daemon.tasks.head?,
      ¬bad (snapshot h.daemon) h.notes source (h.world w) task
  | _ => True

instance {bad : Snapshot → List Note → Source → World → Task → Prop}
    [∀ m notes source w task, Decidable (bad m notes source w task)] (h : Host) (e : Event) :
    Decidable (avoids bad h e) := by
  unfold avoids
  split <;> infer_instance

/-- What has to be shown of an invariant of the tasks and the notes, and of the notes
that are added, as long as nothing bad is dispatched. -/
structure Keeps (bad : Snapshot → List Note → Source → World → Task → Prop)
    (I : Snapshot → List Note → Prop) (P : List Note → Note → Prop) : Prop where
  apart : ∀ {m notes source w task}, bad m notes source w task → task.state ≠ .run
  first : ∀ stdin, I (snapshot (Server.start stdin fun _ => .empty)) []
  stride : ∀ {m n : Snapshot} {source did e notes}, Staged m → I m notes → Stride source e did m n →
    (∀ active ∈ source, ∀ id w, e = .dispatch id w → ∀ task ∈ m.tasks.head?,
      ¬bad m notes active w task) → ∀ env, I n ((noted m env e did).toList ++ notes)
  note : ∀ {m n : Snapshot} {source did e notes}, I m notes → Stride source e did m n →
    ∀ env, ∀ note ∈ noted m env e did, P notes note
  beat : ∀ {m : Snapshot} {notes task rest}, I m notes → m.tasks = task :: rest →
    m.activations = [.entryPoint] → ∀ now writes,
      I (beaten m task rest (heartbeatLeft task now) writes)
        ((beatNote m.past.length task.taskId (heartbeatLeft task now) writes).toList ++ notes)
  beatNote : ∀ {place taskId remainingTime notes}, P notes ⟨place, taskId, .beat remainingTime⟩
  restart : ∀ {m notes}, I m notes → ∀ stdin, I (snapshot (Server.start stdin m.config)) notes
  half : ∀ {m notes place taskId remainingTime rhtsCompat env},
    I m (⟨place, taskId, .launched remainingTime rhtsCompat env⟩ :: notes) → ∀ stdin,
      I (snapshot (Server.start stdin (halfRan m.config taskId)))
        (⟨place, taskId, .launched remainingTime rhtsCompat env⟩ :: notes)

section
variable {bad : Snapshot → List Note → Source → World → Task → Prop}
  {I : Snapshot → List Note → Prop} {P : List Note → Note → Prop}

/-- The invariant of a host and of what was noted. -/
structure Holds (I : Snapshot → List Note → Prop) (P : List Note → Note → Prop) (h : Host) : Prop where
  sound : Sound (view h.daemon)
  holds : I (snapshot h.daemon) h.notes
  always : Always P h.notes

theorem Keeps.serve (keeps : Keeps bad I P) (holds : Holds I P h)
    (avoided : ∀ active ∈ dispatched h.daemon event, ∀ id w, event = .dispatch id w →
      ∀ task ∈ h.daemon.tasks.head?, ¬bad (snapshot h.daemon) h.notes active w task)
    (served : serve h event settings = some k) : Holds I P k := by
  obtain ⟨sound, stride, notes⟩ := serve_spec holds.sound served
  refine ⟨sound, ?_, ?_⟩
  · rw [notes]
    exact keeps.stride (staged holds.sound) holds.holds stride avoided h.env
  · rw [notes]
    exact always_toList holds.always (keeps.note holds.holds stride h.env)

theorem Keeps.step (keeps : Keeps bad I P) (holds : Holds I P h) (avoided : avoids bad h e)
    (stepped : Restart.step h e = some k) : Holds I P k := by
  have sound := step_sound holds.sound stepped
  cases e with
  | serve event settings =>
    refine keeps.serve holds ?_ stepped
    intro active here id w same task head
    cases event with
    | request => cases same
    | dispatch =>
      cases same
      exact avoided active here task head
  | heartbeat now writes =>
    obtain ⟨task, rest, tasks, turn, shown, notes, -⟩ := heartbeat_spec stepped
    refine ⟨sound, ?_, ?_⟩
    · rw [shown, notes]
      exact keeps.beat holds.holds tasks turn now writes
    · rw [notes]
      apply always_toList holds.always
      intro note member
      rw [beatNote_done member]
      exact keeps.beatNote
  | acknowledge place status =>
    obtain ⟨-, rfl⟩ := acknowledge_spec stepped
    exact ⟨sound, holds.holds, holds.always⟩
  | restart =>
    cases stepped
    exact ⟨sound, keeps.restart holds.holds _, holds.always⟩
  | interrupt id w settings =>
    obtain ⟨task, between, head, launch, served, rfl⟩ := interrupt_spec stepped
    obtain ⟨-, stride, -⟩ := serve_spec holds.sound served
    obtain ⟨task', rest, current, run, -⟩ := stride_launch (launch ▸ stride)
    have current : h.daemon.tasks = task' :: rest := current
    obtain rfl : task' = task := by simpa [current] using head
    have holds := keeps.serve holds (by
      intro active here _ _ same other head harm
      obtain rfl : task' = other := by simpa [current] using head
      exact keeps.apart harm run) served
    refine ⟨sound, ?_, holds.always⟩
    obtain ⟨daemon, -, rfl⟩ := Option.map_eq_some_iff.mp served
    have noted : noted (snapshot h.daemon) h.env (h.event (interrupted id w))
        (acts h.daemon (h.event (interrupted id w))) =
        some ⟨place h.daemon, task'.taskId, .launched (runTime task') task'.rhtsCompat h.env⟩ := by
      rw [launch]
      exact noted_current current
    have kept := holds.holds
    simp only [noted, Option.toList_some, List.singleton_append] at kept ⊢
    exact keeps.half kept _

/-- The rule for restarts: what is kept as long as nothing bad is dispatched is kept
over every run, and every note was right when it came. -/
theorem Keeps.run [∀ m notes source w task, Decidable (bad m notes source w task)]
    (keeps : Keeps bad I P) {stdin : Bool} {recipeId : Text} {recipe : List TaskXml}
    {events : List Event}
    (ran : Transition.run (only Restart.step (avoids bad)) (start stdin recipeId recipe) events = some h) :
    Holds I P h := by
  refine run_keeps (I := Holds I P) ?_ ⟨start_sound, keeps.first stdin, always_nil⟩ ran
  intro h e k holds stepped
  obtain ⟨avoided, stepped⟩ := only_eq_some.mp stepped
  exact keeps.step holds avoided stepped

end

/-- A recipe that sets no variables. -/
def noSettings : Env.Settings where
  envvars := []
  recipeRoles := []
  roles := []
  recipeParams := []
  params := []
  restraintUrl := []
  recipeId := []
  owner := none
  jobId := none
  recipeSetId := none
  osdistro := none
  osvariant := none
  osmajor := none
  osarch := none
  name := none
  path := none
  order := 0

def oneTask : List TaskXml := [⟨"10".toList, .installPackage, none, "New".toList⟩]

/-- Sources that are dispatched one after the other. -/
def dispatches (w : World) (ids : List Nat) : List Event :=
  ids.map fun id => .serve (.dispatch id w) noSettings

open ActivationProofs (calm)

/-- The first task is fetched, and its metadata is to be read. -/
def untilMetadata : List Event := dispatches (calm []) [1, 2, 1, 1, 1, 3, 4, 5, 6, 7]

/-- The entry point of the first task is started. -/
def untilLaunched : List Event := untilMetadata ++ dispatches (calm []) [8, 9, 10, 11, 11, 12, 13, 14, 15]

/-- The daemon is started again, and the first task is taken up where it was left: its
entry point is started again. -/
def untilResumed : List Event :=
  .restart :: dispatches (calm []) [1, 2, 1, 1, 1, 3, 3, 4, 5, 6, 7, 7, 7, 7]

end Restraint.Restart

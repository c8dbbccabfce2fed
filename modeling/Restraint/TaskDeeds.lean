import Restraint.TaskStrides

/-! What the invariants of the tasks take from a step of the daemon: where its current task comes
from, and what is known of a task for which something is done. A deed is what one step notes and
writes to the config file. The invariants of the budget, the reboots and the verdicts are then each
a short case analysis over the deeds, with the daemon's step left closed. -/
namespace Restraint.TaskDeeds
open Transition
open CString (Text)
open Restraint.Harness Restraint.TaskHandler Restraint.TaskMachine Restraint.TaskRefinement
open Restraint.TaskSteps

/-- What a sound machine says of the tasks by the state of the recipe. -/
structure Staged (m : Snapshot) : Prop where
  before : early m.state = true → m.tasks = [] ∧ m.past = [] ∧ m.activations = []
  ready : m.state = .run → m.past = [] ∧ ∀ task ∈ m.tasks, task.state = .idle
  ended : m.state = .complete ∨ m.state = .idle → m.tasks = []
  entry : m.activations = [.entryPoint] → ∀ task ∈ m.tasks.head?, task.state = .run

/-- A cancelled task is one that is aborted, until the recipe is over. -/
def Halted (m : Snapshot) : Prop := m.state ≠ .complete → m.cancelled = true → m.aborted ≠ .none

/-- A task that was changed in nothing its states depend on. -/
structure Alike (task task' : Task) : Prop where
  taskId : task'.taskId = task.taskId
  state : task'.state = task.state
  error : task'.error = task.error
  started : task'.started = task.started
  reboots : task'.reboots = task.reboots
  rhtsCompat : task'.rhtsCompat = task.rhtsCompat
  finished : task'.finished = task.finished

/-- Where the current task after a step comes from. -/
inductive Origin (source : Option Source) (event : Server.Event) (m n : Snapshot) :
    Option Effect → Task → Prop where
  | fresh (idle : task.state = .idle) : Origin source event m n none task
  | work {id : Nat} (dispatch : event = .dispatch id w) (here : source = some active)
      (current : m.tasks = task :: rest) (turn : m.activations = [active])
      (deed : Deed m.config m.cancelled m.aborted w did active task task' n.config next)
      (left : n.activations = next.toList) (kept : n.past = m.past ∧ n.cancelled = m.cancelled) :
      Origin source event m n did task'
  | report (done : task.state = .next) : Origin source event m n (some .report) task
  | same (current : m.tasks = task :: rest) (alike : Alike task task')
      (quiet : did = none ∨ did = some .adjust)
      (kept : n.past = m.past ∧ n.config = m.config ∧ n.activations = m.activations)
      (cancelled : n.cancelled = m.cancelled ∨ n.cancelled = true) :
      Origin source event m n did task'

/-- What is known of a task for which something is done, before and after. -/
def due (w : World) (active : Source) (task task' : Task) (config config' : Text → Section) : Effect → Prop
  | .fetch => task.state = .fetch
  | .equip => task.state = .env
  | .post => task.state = .watchdog ∧ task.started = false
  | .install => task.state = .dependencies ∧ task.started = false
  | .launch => task.state = .run ∧ active = .taskHandler ∧
      config' = written config w task.taskId (ran task.reboots)
  | .expire => task'.state = .complete ∧ task'.error.isSome = true ∧
      (config' task.taskId).localwatchdog = true
  | .reach => task'.state = .completed
  | .report | .adjust => False

variable {m n : Snapshot} {source : Option Source} {event : Server.Event} {did : Option Effect}
  {effect : Effect} {active : Source} {w : World} {task task' : Task} {rest : List Task}
  {next : Option Source} {config config' : Text → Section} {cancelled : Bool} {aborted : StateAborted}
  {taskId : Text}

theorem staged {s : AppData} (sound : Sound (view s)) : Staged (snapshot s) where
  before := fun before =>
    ⟨List.map_eq_nil_iff.mp (sound.before before).1, List.map_eq_nil_iff.mp (sound.before before).2.1,
      (sound.before before).2.2.1⟩
  ready := fun ready =>
    ⟨List.map_eq_nil_iff.mp (sound.ready ready).2.1, fun task member =>
      ((sound.ready ready).2.2 (life task) (List.mem_map_of_mem member)).1⟩
  ended := fun ended => List.map_eq_nil_iff.mp (sound.ended ended)
  entry := fun turn task head =>
    have attached : Source.entryPoint ∈ s.loop.kinds activates := by
      rw [show s.loop.kinds activates = [.entryPoint] from turn]
      exact List.mem_singleton_self _
    sound.fits (life task) (by simpa [view] using ⟨task, head, rfl⟩) .entryPoint attached

theorem Staged.live (staged : Staged m) (current : m.tasks = task :: rest) : m.state ≠ .complete := by
  intro complete
  simp [staged.ended (.inl complete)] at current

theorem stride_halted (halted : Halted m) (stride : Stride source event did m n) : Halted n := by
  cases stride with
  | retrieve before after =>
    refine fun _ stopped => halted ?_ stopped
    intro complete
    rw [complete] at before
    cases before
  | parse event parsed => exact fun _ => halted (by simp [parsed])
  | launch ready => exact fun _ => halted (by simp [ready])
  | report =>
    intro live stopped
    simp only [Bool.and_eq_true, decide_eq_true_eq] at stopped
    simpa [stopped.2] using halted live stopped.1
  | finish => exact fun live => absurd rfl live
  | abort current request level => exact fun _ _ => level
  | close => nofun
  | _ => exact halted

theorem start_halted {stdin : Bool} : Halted (snapshot (Server.start stdin config)) := nofun

theorem deed_taskId (deed : Deed config cancelled aborted w did active task task' config' next) :
    task'.taskId = task.taskId := by
  cases deed <;> rfl

theorem Alike.refl (task : Task) : Alike task task := ⟨rfl, rfl, rfl, rfl, rfl, rfl, rfl⟩

/-- An adjustment changes the remaining time only. -/
theorem adjustWatchdog_alike {metadata : Metadata} {seconds : Option Text} {time : Nat} :
    Alike task (Server.adjustWatchdog task metadata seconds time) := by
  unfold Server.adjustWatchdog
  dsimp only
  split <;> exact ⟨rfl, rfl, rfl, rfl, rfl, rfl, rfl⟩

/-- A stride leaves a current task that is new, done, or that was the current one. -/
theorem stride_origin (staged : Staged m) (stride : Stride source event did m n) :
    ∀ task ∈ n.tasks.head?, Origin source event m n did task := by
  intro task head
  cases stride with
  | parse =>
    obtain ⟨xml, -, rfl⟩ := List.mem_map.mp (List.mem_of_mem_head? head)
    exact .fresh rfl
  | launch ready => exact .fresh ((staged.ready ready).2 task (List.mem_of_mem_head? head))
  | work event here current turn deed =>
    obtain rfl := Option.some.inj head
    exact .work event here current turn deed rfl ⟨rfl, rfl⟩
  | report =>
    obtain rfl := Option.some.inj head
    exact .report rfl
  | advance =>
    obtain rfl := Option.some.inj head
    exact .fresh rfl
  | finish => cases head
  | stop empty => simp [empty] at head
  | results current =>
    obtain rfl := Option.some.inj head
    exact .same current ⟨rfl, rfl, rfl, rfl, rfl, rfl, rfl⟩ (.inl rfl) ⟨rfl, rfl, rfl⟩ (.inl rfl)
  | adjust event request asked live current =>
    obtain rfl := Option.some.inj head
    exact .same current adjustWatchdog_alike (.inr rfl) ⟨rfl, rfl, rfl⟩ (.inl rfl)
  | abort =>
    obtain ⟨rest, current⟩ := List.head?_eq_some_iff.mp head
    exact .same current (.refl task) (.inl rfl) ⟨rfl, rfl, rfl⟩ (.inr rfl)
  | close complete => simp [staged.ended (.inl complete)] at head
  | _ =>
    obtain ⟨rest, current⟩ := List.head?_eq_some_iff.mp head
    exact .same current (.refl task) (.inl rfl) ⟨rfl, rfl, rfl⟩ (.inl rfl)

theorem written_apply {other : Text} {change : Section → Section} : written config w taskId change other =
      if w.configWrites = true ∧ other = taskId then change (config taskId) else config other := by
  unfold written
  split
  · by_cases same : other = taskId
    · subst same
      simp_all
    · simp [same]
  · simp_all

theorem deed_effect (deed : Deed config cancelled aborted w (some effect) active task task' config' next) :
    due w active task task' config config' effect := by
  generalize does : some effect = did at deed
  have fetching (fetches : Fetches did task) : effect = .fetch ∧ task.state = .fetch := by
    rcases fetches with rfl | ⟨rfl, fetch⟩
    · cases does
    · exact ⟨Option.some.inj does, fetch⟩
  cases deed with
  | keep calm fetches =>
    obtain ⟨rfl, fetch⟩ := fetching fetches
    exact fetch
  | fetched fetch fetches =>
    obtain ⟨rfl, -⟩ := fetching fetches
    exact fetch
  | fail busy fetches =>
    obtain ⟨rfl, fetch⟩ := fetching fetches
    exact fetch
  | environment env =>
    cases does
    exact env
  | post watchdog new =>
    cases does
    exact ⟨watchdog, new⟩
  | install dependencies new =>
    cases does
    exact ⟨dependencies, new⟩
  | installed dependencies new =>
    cases does
    exact ⟨dependencies, new⟩
  | launch run =>
    cases does
    exact ⟨run, rfl, rfl⟩
  | expire =>
    split at does
    · rename_i writes
      cases does
      exact ⟨rfl, by simp [gPropagateError_some], by simp [written_apply, writes, flagged]⟩
    · cases does
  | conclude =>
    cases does
    rfl
  | _ => cases does

/-- No deed queues a final status. -/
theorem deed_unreported (deed : Deed config cancelled aborted w did active task task' config' next) :
    did ≠ some .report := by
  rintro rfl
  exact deed_effect deed

/-- The local watchdog flag stays in a section until the section is removed. -/
theorem deed_localwatchdog (deed : Deed config cancelled aborted w did active task task' config' next)
    (flag : (config taskId).localwatchdog = true) : (config' taskId).localwatchdog = true := by
  cases deed with
  | launch =>
    rw [written_apply]
    split
    · rename_i own
      exact own.2 ▸ flag
    · exact flag
  | expire =>
    rw [written_apply]
    split
    · rfl
    · exact flag
  | _ => exact flag

/-- What is done for a task, other than its final status and a request, is a deed. -/
theorem stride_deed (stride : Stride source event (some effect) m n)
    (other : effect ≠ .report ∧ effect ≠ .adjust) :
    ∃ w active task rest task' next, m.tasks = task :: rest ∧ m.activations = [active] ∧
      n.past = m.past ∧ n.tasks = task' :: rest ∧
      Deed m.config m.cancelled m.aborted w (some effect) active task task' n.config next := by
  generalize does : some effect = did at stride
  cases stride with
  | work event here current turn deed =>
    subst does
    exact ⟨_, _, _, _, _, _, current, turn, rfl, rfl, deed⟩
  | report => exact absurd (Option.some.inj does) other.1
  | adjust => exact absurd (Option.some.inj does) other.2
  | _ => cases does

/-- A final status is queued for a task in `TASK_COMPLETED`, and its section is removed. -/
theorem stride_report (stride : Stride source event (some .report) m n) :
    ∃ id w task rest, event = .dispatch id w ∧ m.tasks = task :: rest ∧ task.state = .completed ∧
      n.past = m.past ∧ n.tasks.head?.map Task.state = some .next ∧
      n.config = written m.config w task.taskId fun _ => .empty := by
  generalize reports : some Effect.report = did at stride
  cases stride with
  | report dispatch here current turn completed =>
    exact ⟨_, _, _, _, dispatch, current, completed, rfl, rfl, rfl⟩
  | work event here current turn deed => exact absurd reports.symm (deed_unreported deed)
  | _ => cases reports

/-- An entry point is started for a task in `TASK_RUN`, by `task_handler`. -/
theorem stride_launch (stride : Stride source event (some .launch) m n) :
    ∃ task rest, m.tasks = task :: rest ∧ task.state = .run ∧ m.activations = [.taskHandler] := by
  obtain ⟨w, active, task, rest, task', next, current, turn, -, -, deed⟩ := stride_deed stride (by simp)
  obtain ⟨run, rfl, -⟩ := deed_effect deed
  exact ⟨task, rest, current, run, turn⟩

end Restraint.TaskDeeds

import Restraint.Restart

/-! What a final status says of the runs of a task: one of Completed says that its entry point was
started, one after the local watchdog expired says Aborted. Runs of earlier lives of the daemon
count too, since a task that was started before is not started again. What is known of them is what
the config file has kept. -/
namespace Restraint.FinalStatus
open Transition History
open CString (Text)
open Restraint.Harness Restraint.TaskHandler Restraint.TaskMachine Restraint.TaskRefinement
open Restraint.TaskSteps Restraint.TaskDeeds Restraint.Restart

/-- The entry point of a task was started. -/
def Executed (notes : List Note) (taskId : Text) : Prop :=
  ∃ note ∈ notes, note.taskId = taskId ∧ launches note.done = true

/-- A final status of Completed is that of a task whose entry point was started. -/
def CompletedExecuted (older : List Note) (note : Note) : Prop :=
  ∀ cleared, note.done = .reported .completed cleared → Executed older note.taskId

/-- `metadata_finish_cb` gets neither an error nor metadata, for a task that was not
started. -/
def undescribed (source : Source) (w : World) (task : Task) : Prop :=
  CallsBack w .metadata source ∧ task.state = .metadataParse ∧ task.error = none ∧
    w.error = none ∧ w.metadata = none ∧ task.started = false

instance {w : World} {operation source : Source} : Decidable (CallsBack w operation source) := by
  unfold CallsBack
  infer_instance

instance {source : Source} {w : World} {task : Task} : Decidable (undescribed source w task) := by
  unfold undescribed
  infer_instance

/-- The task is in a state that it comes to after its entry point was started only. -/
def shows (cancelled : Bool) (activations : List Source) (task : Task) : Prop :=
  match task.state with
  | .complete => task.error = none ∧ cancelled = false
  | .completed => task.error = none
  | .fetch | .metadataParse | .refreshRoles | .env | .watchdog | .dependencies | .run =>
    task.started = true ∨ activations = [.entryPoint]
  | _ => False

/-- What the config file and the current task show was noted. -/
structure Accounted (m : Snapshot) (notes : List Note) : Prop where
  halted : Halted m
  recorded : ∀ taskId, (m.config taskId).started = true ∨ (m.config taskId).localwatchdog = true →
    Executed notes taskId
  current : ∀ task ∈ m.tasks.head?, shows m.cancelled m.activations task → Executed notes task.taskId

section
variable {m n : Snapshot} {did : Option Effect} {source : Option Source} {active : Source}
  {e : Server.Event} {w : World} {task task' : Task} {rest : List Task} {next : Option Source}
  {config config' : Text → Section} {cancelled : Bool} {aborted : StateAborted}
  {notes added : List Note} {taskId : Text}

theorem Executed.append (executed : Executed notes taskId) : Executed (added ++ notes) taskId := by
  obtain ⟨note, member, rest⟩ := executed
  exact ⟨note, List.mem_append_right _ member, rest⟩

/-- The sections that a deed leaves. -/
theorem deed_recorded (deed : Deed config cancelled aborted w did active task task' config' next)
    (single : shows cancelled [active] task → Executed notes task.taskId)
    (recorded : ∀ taskId, (config taskId).started = true ∨ (config taskId).localwatchdog = true →
      Executed notes taskId)
    (new : did = some .launch → Executed notes task.taskId) :
    ∀ taskId, (config' taskId).started = true ∨ (config' taskId).localwatchdog = true →
      Executed notes taskId := by
  cases deed with
  | launch run =>
    intro taskId shown
    rw [written_apply] at shown
    split at shown
    · rename_i own
      exact own.2 ▸ new rfl
    · exact recorded taskId shown
  | expire run =>
    intro taskId shown
    rw [written_apply] at shown
    split at shown
    · rename_i own
      apply own.2 ▸ single
      simp [shows, run]
    · exact recorded taskId shown
  | _ => exact recorded

private theorem shows_of_started {activations : List Source} (busy : working task.state = true)
    (old : task.started = true) : shows cancelled activations task := by
  unfold shows
  cases state : task.state <;> simp_all [working]

/-- What a deed leads to was noted. -/
theorem deed_shows (deed : Deed config cancelled aborted w did active task task' config' next)
    (halted : cancelled = true → aborted ≠ .none)
    (recorded : ∀ taskId, (config taskId).started = true ∨ (config taskId).localwatchdog = true →
      Executed notes taskId)
    (shown : shows cancelled [active] task → Executed notes task.taskId)
    (permitted : ¬undescribed active w task)
    (new : did = some .launch → Executed notes task.taskId)
    (shown' : shows cancelled next.toList task') : Executed notes task.taskId := by
  have resumed (busy : working task.state = true) (old : task.started = true) :
      Executed notes task.taskId := shown (shows_of_started busy old)
  cases deed with
  | @keep next _ _ _ calm =>
    have other : next ≠ .entryPoint := by
      rintro rfl
      cases calm
    apply shown
    unfold shows at shown' ⊢
    split at shown' <;> simp_all
  | unread => simp [shows, gPropagateError_some] at shown'
  | drop idle read due stopped => simp [shows, stopped] at shown'
  | expired idle read due live flag => exact recorded _ (.inr flag)
  | resume idle read due flag old => exact recorded _ (.inl old)
  | begin idle read due flag fresh => simp [shows, recalled, fresh] at shown'
  | fetched fetch => exact resumed (by rw [fetch]; rfl) (by simpa [shows] using shown')
  | prepare parse =>
    exact resumed (by rw [parse]; rfl) (by simpa [shows, parse] using shown')
  | described parse => exact resumed (by rw [parse]; rfl) (by simpa [shows] using shown')
  | undescribed parse called clean error missing =>
    apply resumed (by rw [parse]; rfl)
    by_contra fresh
    exact permitted ⟨called, parse, clean, error, missing, Bool.eq_false_iff.mpr fresh⟩
  | roles refresh => exact resumed (by rw [refresh]; rfl) (by simpa [shows] using shown')
  | environment env => exact resumed (by rw [env]; rfl) (by simpa [shows] using shown')
  | post watchdog fresh => split at shown' <;> simp [shows, fresh] at shown'
  | unposted watchdog old => exact resumed (by rw [watchdog]; rfl) old
  | uninstalled dependencies old => exact resumed (by rw [dependencies]; rfl) old
  | install dependencies fresh => simp [shows, fresh] at shown'
  | installed dependencies fresh => simp [shows, fresh] at shown'
  | skip run stopped => simp [shows, stopped] at shown'
  | launch => exact new rfl
  | exit run => exact shown (by simp [shows, run])
  | exitFails run => exact shown (by simp [shows, run])
  | expire run => exact shown (by simp [shows, run])
  | conclude complete =>
    simp only [shows] at shown'
    split at shown'
    · cases shown'
    · rename_i live
      apply shown
      simp only [shows, complete]
      refine ⟨shown', ?_⟩
      by_contra stopped
      have stopped : cancelled = true := by simpa using stopped
      exact live ⟨stopped, halted stopped⟩
  | _ => simp [shows] at shown'

/-- A task that was changed in nothing its states depend on shows no more. -/
theorem shows_alike {activations : List Source} {stopped : Bool} (alike : Alike task task')
    (more : stopped = cancelled ∨ stopped = true) (shown : shows stopped activations task') :
    shows cancelled activations task := by
  unfold shows at shown ⊢
  rw [alike.state, alike.error, alike.started] at shown
  rcases more with rfl | rfl
  · exact shown
  · split at shown <;> simp_all

private theorem not_shows_idle {activations : List Source} (idle : task.state = .idle) :
    ¬shows cancelled activations task := by
  simp [shows, idle]

/-- An entry point that is started is noted. -/
theorem launch_executed {env : List Text} (current : m.tasks = task :: rest) (launch : did = some .launch) :
    Executed ((noted m env e did).toList ++ notes) task.taskId := by
  rw [launch, noted_current current]
  exact ⟨_, List.mem_append_left _ (List.mem_singleton_self _), rfl, rfl⟩

private theorem stride_accounted {env : List Text} (staged : Staged m) (accounted : Accounted m notes)
    (stride : Stride source e did m n)
    (permitted : ∀ active ∈ source, ∀ id w, e = .dispatch id w → ∀ task ∈ m.tasks.head?,
      ¬undescribed active w task) :
    Accounted n ((noted m env e did).toList ++ notes) := by
  obtain ⟨halted, recorded, current⟩ := accounted
  have recorded (taskId : Text) (stored : (m.config taskId).started = true ∨
      (m.config taskId).localwatchdog = true) :
      Executed ((noted m env e did).toList ++ notes) taskId := (recorded taskId stored).append
  have current {task : Task} {rest : List Task} (tasks : m.tasks = task :: rest)
      (shown : shows m.cancelled m.activations task) :
      Executed ((noted m env e did).toList ++ notes) task.taskId :=
    (current task (by rw [tasks]; rfl) shown).append
  refine ⟨stride_halted halted stride, ?_, ?_⟩
  · cases stride with
    | work event here tasks turn deed =>
      exact deed_recorded deed (turn ▸ current tasks) recorded (launch_executed tasks)
    | report =>
      intro taskId stored
      simp only [written_apply] at stored
      split at stored
      · simp [Section.empty] at stored
      · exact recorded taskId stored
    | _ => exact recorded
  · intro task head shown
    cases stride_origin staged stride task head with
    | fresh idle => exact absurd shown (not_shows_idle idle)
    | work event here tasks turn deed left kept =>
      rw [left, kept.2] at shown
      rw [deed_taskId deed]
      exact deed_shows deed (halted (staged.live tasks)) recorded (turn ▸ current tasks)
        (permitted _ here _ _ event _ (by rw [tasks]; rfl)) (launch_executed tasks) shown
    | report done => simp [shows, done] at shown
    | same tasks alike quiet kept more =>
      rw [kept.2.2] at shown
      rw [alike.taskId]
      exact current tasks (shows_alike alike more shown)

/-- What is noted of a stride is a final status of Completed for a task that was
started, or something else. -/
theorem noted_completed {env : List Text} (accounted : Accounted m notes)
    (stride : Stride source e did m n) :
    ∀ note ∈ noted m env e did, CompletedExecuted notes note := by
  intro note member cleared reported
  obtain ⟨rfl, task, head, own, verdict⟩ := noted_reported member reported
  obtain ⟨id, w, task', rest, -, current, completed, -⟩ := stride_report stride
  obtain rfl : task' = task := by simpa [current] using head
  rw [own]
  apply accounted.current task' head
  simp only [shows, completed]
  unfold TaskMachine.verdict at verdict
  split at verdict
  · cases verdict
  · rename_i none
    simpa using none

/-- The config file alone is accounted for after a restart. -/
theorem start_accounted {stdin : Bool} (recorded : ∀ taskId,
    (config taskId).started = true ∨ (config taskId).localwatchdog = true → Executed notes taskId) :
    Accounted (snapshot (Server.start stdin config)) notes where
  halted := start_halted
  recorded := recorded
  current := by simp [snapshot, Server.start]

private theorem beat_accounted {left : Int} {writes : Bool} (accounted : Accounted m notes)
    (tasks : m.tasks = task :: rest) : Accounted (beaten m task rest left writes) (added ++ notes) where
  halted := accounted.halted
  recorded := by
    intro taskId stored
    simp only [beaten, beatConfig_started, beatConfig_localwatchdog] at stored
    exact (accounted.recorded taskId stored).append
  current := by
    intro changed head shown
    have alike := beaten_alike changed head
    rw [alike.taskId]
    exact (accounted.current task (by rw [tasks]; rfl) (shows_alike alike (.inl rfl) shown)).append

/-- After the first write of `TASK_RUN` the section is that of a task that was started. -/
theorem half_accounted {stdin : Bool} (accounted : Accounted m notes) (executed : Executed notes taskId) :
    Accounted (snapshot (Server.start stdin (halfRan m.config taskId))) notes := by
  apply start_accounted
  intro other stored
  by_cases own : other = taskId
  · exact own ▸ executed
  · simp only [halfRan, Function.update_of_ne own] at stored
    exact accounted.recorded other stored

private theorem accounted_keeps : Keeps (fun _ _ => undescribed) Accounted CompletedExecuted where
  apart := by
    rintro _ _ _ _ _ ⟨-, parse, -⟩ run
    simp [parse] at run
  first := fun _ => start_accounted (by simp [Section.empty])
  stride := fun staged accounted stride permitted _ => stride_accounted staged accounted stride permitted
  note := fun accounted stride _ => noted_completed accounted stride
  beat := fun accounted tasks _ _ _ => beat_accounted accounted tasks
  beatNote := nofun
  restart := fun accounted _ => start_accounted accounted.recorded
  half := fun accounted _ => half_accounted accounted ⟨_, List.mem_cons_self, rfl, rfl⟩

end

variable {h : Host} {stdin : Bool} {recipeId : Text} {recipe : List TaskXml} {events : List Event}

/-- **A final status of Completed is queued only for a task whose entry point was
started, in this life of the daemon or in an earlier one**, as long as reading the
metadata of a task that was not started gives metadata or an error. -/
theorem completed_was_executed
    (ran : run (only step (avoids fun _ _ => undescribed)) (start stdin recipeId recipe) events = some h) :
    Always CompletedExecuted h.notes :=
  (accounted_keeps.run ran).always

open ActivationProofs (calm)

/-- A task that runs to its end. -/
theorem completed_was_executed_once :
    ∃ h, run (only step (avoids fun _ _ => undescribed)) (start false "1".toList oneTask)
        (untilLaunched ++ dispatches (calm []) [16, 17, 18, 18]) = some h ∧
      (h.notes.head?.map Note.done) = some (.reported .completed true) ∧
      Always CompletedExecuted h.notes := by
  have shown : (run (only step (avoids fun _ _ => undescribed)) (start false "1".toList oneTask)
      (untilLaunched ++ dispatches (calm []) [16, 17, 18, 18])).map (fun h =>
      h.notes.head?.map Note.done) = some (some (.reported .completed true)) := by
    decide +kernel
  obtain ⟨h, ran, reported⟩ := Option.map_eq_some_iff.mp shown
  exact ⟨h, ran, reported, completed_was_executed ran⟩

/-- `testinfo.desc` cannot be made, and the task is Completed without having been run. -/
theorem completed_without_metadata :
    ∃ h, run step (start false "1".toList oneTask)
        (untilMetadata ++ dispatches { calm [] with metadata := none } [8] ++
          dispatches (calm []) [9, 9]) = some h ∧
      ¬Always CompletedExecuted h.notes := by
  have shown : (run step (start false "1".toList oneTask)
      (untilMetadata ++ dispatches { calm [] with metadata := none } [8] ++
        dispatches (calm []) [9, 9])).map Host.notes =
      some [⟨0, "10".toList, .reported .completed true⟩, ⟨0, "10".toList, .reached⟩,
        ⟨0, "10".toList, .fetched⟩] := by
    decide +kernel
  obtain ⟨h, ran, notes⟩ := Option.map_eq_some_iff.mp shown
  refine ⟨h, ran, fun always => ?_⟩
  rw [notes, always_cons] at always
  obtain ⟨note, member, -, launched⟩ := always.1 true rfl
  simp only [List.mem_cons, List.not_mem_nil, or_false] at member
  rcases member with rfl | rfl <;> cases launched

end Restraint.FinalStatus

import Restraint.Restart

/-! The final status of a task whose local watchdog expired. It is Aborted by the
error that the task keeps; after a restart the config file says that the watchdog
expired, and TASK_IDLE has no error for it. -/
namespace Restraint.WatchdogVerdict
open Transition History
open CString (Text)
open Restraint.Harness Restraint.TaskHandler Restraint.TaskMachine Restraint.TaskRefinement
open Restraint.TaskSteps Restraint.TaskDeeds Restraint.Restart

/-- The final status of a task whose local watchdog expired, as the config file says
until its section is removed, is Aborted. -/
def ExpiredAborted (older : List Note) (note : Note) : Prop :=
  ∀ status cleared, note.done = .reported status cleared → .expired ∈ lately note.taskId older →
    status = .aborted

/-- `TASK_IDLE` finds a task that is not finished, and a config file that says that its
local watchdog expired. -/
def foundExpired (m : Snapshot) (source : Source) (w : World) (task : Task) : Prop :=
  source = .taskHandler ∧ task.state = .idle ∧ w.configReads = true ∧ task.finished = false ∧
    m.cancelled = false ∧ (m.config task.taskId).localwatchdog = true

instance {m : Snapshot} {source : Source} {w : World} {task : Task} :
    Decidable (foundExpired m source w task) := by
  unfold foundExpired
  infer_instance

/-- The states of a task whose local watchdog expired: its final status will be Aborted. -/
def doomed (cancelled : Bool) (task : Task) : Prop :=
  match task.state with
  | .idle | .next => True
  | .complete => task.error.isSome = true ∨ cancelled = true
  | .completed => task.error.isSome = true
  | _ => False

/-- Where a local watchdog expired, the config file says so and the task is doomed. -/
structure Doomed (m : Snapshot) (notes : List Note) : Prop where
  halted : Halted m
  flagged : ∀ taskId, .expired ∈ lately taskId notes → (m.config taskId).localwatchdog = true
  current : ∀ task ∈ m.tasks.head?, .expired ∈ lately task.taskId notes → doomed m.cancelled task

section
variable {m n : Snapshot} {did : Option Effect} {source : Option Source} {active : Source}
  {e : Server.Event} {w : World} {task task' : Task} {rest : List Task} {next : Option Source}
  {config config' : Text → Section} {cancelled : Bool} {aborted : StateAborted}
  {notes : List Note} {taskId : Text} {env : List Text} {effect : Effect}

/-- A deed leaves the flag of a task, and sets it when the local watchdog expires. -/
theorem deed_flagged (deed : Deed config cancelled aborted w did active task task' config' next)
    (flag : (config taskId).localwatchdog = true ∨ taskId = task.taskId ∧ did = some .expire) :
    (config' taskId).localwatchdog = true := by
  rcases flag with flag | ⟨rfl, rfl⟩
  · exact deed_localwatchdog deed flag
  · exact (deed_effect deed).2.2

/-- A task whose local watchdog expires has an error. -/
theorem deed_expire (deed : Deed config cancelled aborted w (some .expire) active task task' config' next) :
    doomed cancelled task' := by
  obtain ⟨complete, failed, -⟩ := deed_effect deed
  simp only [doomed, complete]
  exact .inl failed

/-- What a deed makes of a task whose local watchdog expired. -/
theorem deed_doomed (deed : Deed m.config m.cancelled m.aborted w did active task task' config' next)
    (halted : m.cancelled = true → m.aborted ≠ .none)
    (flag : (m.config task.taskId).localwatchdog = true) (before : doomed m.cancelled task)
    (goes : ¬foundExpired m active w task) : doomed m.cancelled task' := by
  cases deed with
  | keep => exact before
  | unread => simp [doomed, gPropagateError_some]
  | pass => trivial
  | drop idle read due stopped => exact .inr stopped
  | expired idle read due live flag => exact absurd ⟨rfl, idle, read, due, live, flag⟩ goes
  | resume idle read due unflagged => simp [unflagged] at flag
  | begin idle read due unflagged => simp [unflagged] at flag
  | fail => exact .inl rfl
  | unparsed => exact .inl rfl
  | exitFails => exact .inl rfl
  | expire => exact .inl (by simp [gPropagateError_some])
  | skip run stopped => exact .inr stopped
  | conclude complete =>
    simp only [doomed, complete] at before ⊢
    split
    · rfl
    · rename_i live
      refine before.resolve_right fun stopped => live ⟨stopped, halted stopped⟩
  | _ => simp [doomed, *] at before

/-- A task that was changed in nothing its states depend on is as doomed. -/
theorem doomed_alike {stopped : Bool} (alike : Alike task task') (more : stopped = cancelled ∨ stopped = true)
    (before : doomed cancelled task) : doomed stopped task' := by
  unfold doomed at before ⊢
  rw [alike.state, alike.error]
  rcases more with rfl | rfl
  · exact before
  · split at before <;> simp_all

/-- An expiry that is noted came before, or it is the current task's. -/
theorem expired_noted (member : .expired ∈ lately taskId ((noted m env e did).toList ++ notes)) :
    .expired ∈ lately taskId notes ∨
      ∃ task rest, m.tasks = task :: rest ∧ taskId = task.taskId ∧ did = some .expire := by
  cases did with
  | none => exact .inl member
  | some effect =>
    cases current : m.tasks with
    | nil =>
      simp only [noted, current] at member
      exact .inl member
    | cons task rest =>
      by_cases own : taskId = task.taskId
      · subst own
        rw [lately_own current] at member
        cases effect with
        | expire => exact .inr ⟨task, rest, rfl, rfl, rfl⟩
        | report =>
          cases written : writes e with
          | true => simp [doneBy, clears, written] at member
          | false => exact .inl (by simpa [doneBy, clears, written] using member)
        | _ => exact .inl (by simpa [doneBy, clears] using member)
      · rw [lately_other current own] at member
        exact .inl member

/-- With the final status of a task its expiry is over, if its section was removed. -/
theorem report_over (current : m.tasks = task :: rest) (written : writes e = true) :
    lately task.taskId ((noted m env e (some .report)).toList ++ notes) = [] := by
  rw [lately_own current]
  simp [doneBy, clears, written]

private theorem stride_doomed (staged : Staged m) (kept : Doomed m notes)
    (stride : Stride source e did m n)
    (goes : ∀ active ∈ source, ∀ id w, e = .dispatch id w → ∀ task ∈ m.tasks.head?,
      ¬foundExpired m active w task) :
    Doomed n ((noted m env e did).toList ++ notes) := by
  obtain ⟨halted, flagged, current⟩ := kept
  have before {task : Task} {rest : List Task} (tasks : m.tasks = task :: rest)
      (member : .expired ∈ lately task.taskId notes) : doomed m.cancelled task :=
    current task (by rw [tasks]; rfl) member
  refine ⟨stride_halted halted stride, ?_, ?_⟩
  · intro taskId member
    cases stride with
    | work event here tasks turn deed =>
      apply deed_flagged deed
      rcases expired_noted member with old | ⟨task, rest, same, own, expires⟩
      · exact .inl (flagged taskId old)
      · obtain ⟨rfl, -⟩ := List.cons.inj (tasks.symm.trans same)
        exact .inr ⟨own, expires⟩
    | report event here tasks =>
      simp only [written_apply]
      split
      · rename_i own
        obtain ⟨written, rfl⟩ := own
        rw [report_over tasks (by rw [event]; exact written)] at member
        cases member
      · exact flagged taskId ((expired_noted member).resolve_right (by simp))
    | _ => exact flagged taskId ((expired_noted member).resolve_right (by simp))
  · intro task head member
    cases stride_origin staged stride task head with
    | fresh idle => simp [doomed, idle]
    | work event here tasks turn deed left kept =>
      rw [deed_taskId deed] at member
      rw [kept.2]
      rcases expired_noted member with old | ⟨task, rest, same, own, rfl⟩
      · exact deed_doomed (m := m) deed (halted (staged.live tasks)) (flagged _ old) (before tasks old)
          (goes _ here _ _ event _ (by rw [tasks]; rfl))
      · exact deed_expire deed
    | report done => simp [doomed, done]
    | same tasks alike quiet kept more =>
      rw [alike.taskId] at member
      have old := (expired_noted member).resolve_right (by rcases quiet with rfl | rfl <;> simp)
      exact doomed_alike alike more (before tasks old)

/-- A final status that is noted is Aborted where a local watchdog expired. -/
theorem noted_aborted (kept : Doomed m notes) (stride : Stride source e did m n) :
    ∀ note ∈ noted m env e did, ExpiredAborted notes note := by
  intro note member status cleared reported expired
  obtain ⟨rfl, task, head, own, rfl⟩ := noted_reported member reported
  obtain ⟨id, w, task', rest, -, current, completed, -⟩ := stride_report stride
  obtain rfl : task' = task := by simpa [current] using head
  have failed := kept.current task' head (own ▸ expired)
  simp only [doomed, completed] at failed
  rw [verdict, if_pos failed]

/-- The flags in the config file are all that is left after a restart. -/
theorem start_doomed {stdin : Bool}
    (flagged : ∀ taskId, .expired ∈ lately taskId notes → (config taskId).localwatchdog = true) :
    Doomed (snapshot (Server.start stdin config)) notes where
  halted := start_halted
  flagged := flagged
  current := by simp [snapshot, Server.start]

private theorem beat_doomed {place : Nat} {left : Int} {writes : Bool} (kept : Doomed m notes)
    (tasks : m.tasks = task :: rest) :
    Doomed (beaten m task rest left writes)
      ((beatNote place task.taskId left writes).toList ++ notes) := by
  have before (taskId : Text)
      (member : .expired ∈ lately taskId ((beatNote place task.taskId left writes).toList ++ notes)) :
      .expired ∈ lately taskId notes := by
    rw [lately_beat] at member
    split at member
    · simpa using member
    · exact member
  refine ⟨kept.halted, ?_, ?_⟩
  · intro taskId member
    simp only [beaten, beatConfig_localwatchdog]
    exact kept.flagged taskId (before taskId member)
  · intro changed head member
    have alike := beaten_alike changed head
    rw [alike.taskId] at member
    exact doomed_alike alike (.inl rfl) (kept.current task (by rw [tasks]; rfl) (before task.taskId member))

private theorem half_doomed {stdin : Bool} (kept : Doomed m notes) :
    Doomed (snapshot (Server.start stdin (halfRan m.config taskId))) notes := by
  apply start_doomed
  intro other expired
  rw [halfRan_localwatchdog]
  exact kept.flagged other expired

private theorem doomed_keeps : Keeps (fun m _ => foundExpired m) Doomed ExpiredAborted where
  apart := by
    rintro _ _ _ _ _ ⟨-, idle, -⟩ run
    simp [idle] at run
  first := fun _ => start_doomed (by simp)
  stride := fun staged kept stride goes _ => stride_doomed staged kept stride goes
  note := fun kept stride _ => noted_aborted kept stride
  beat := fun kept tasks _ _ _ => beat_doomed kept tasks
  beatNote := nofun
  restart := fun kept _ => start_doomed kept.flagged
  half := fun kept _ => half_doomed kept

end

variable {h : Host} {stdin : Bool} {recipeId : Text} {recipe : List TaskXml} {events : List Event}

/-- **The final status of a task whose local watchdog expired is Aborted, over all
restarts**, as long as `TASK_IDLE` does not find the expiry in the config file. -/
theorem expired_stays_aborted
    (ran : run (only step (avoids fun m _ => foundExpired m)) (start stdin recipeId recipe) events =
      some h) :
    Always ExpiredAborted h.notes :=
  (doomed_keeps.run ran).always

open ActivationProofs (calm)

/-- The entry point is killed by the local watchdog. -/
def expires : World :=
  { calm [] with
    pidResult := 9
    localwatchdog := true }

/-- The local watchdog expires, and the daemon goes on. -/
theorem expired_stays_aborted_once :
    ∃ h, run (only step (avoids fun m _ => foundExpired m)) (start false "1".toList oneTask)
        (untilLaunched ++ dispatches expires [16] ++ dispatches (calm []) [17, 18, 18]) = some h ∧
      h.notes.head?.map Note.done = some (.reported .aborted true) ∧
      Always ExpiredAborted h.notes := by
  have shown : (run (only step (avoids fun m _ => foundExpired m)) (start false "1".toList oneTask)
      (untilLaunched ++ dispatches expires [16] ++ dispatches (calm []) [17, 18, 18])).map (fun h =>
      h.notes.head?.map Note.done) = some (some (.reported .aborted true)) := by
    decide +kernel
  obtain ⟨h, ran, reported⟩ := Option.map_eq_some_iff.mp shown
  exact ⟨h, ran, reported, expired_stays_aborted ran⟩

/-- The local watchdog expires, the daemon is started again, and the task is Completed. -/
theorem expired_completed_after_restart :
    ∃ h, run step (start false "1".toList oneTask)
        (untilLaunched ++ dispatches expires [16] ++ [.restart] ++
          dispatches (calm []) [1, 2, 1, 1, 1, 3, 3, 3]) = some h ∧
      ¬Always ExpiredAborted h.notes := by
  have shown : (run step (start false "1".toList oneTask)
      (untilLaunched ++ dispatches expires [16] ++ [.restart] ++
        dispatches (calm []) [1, 2, 1, 1, 1, 3, 3, 3])).map (fun h => h.notes.take 3) =
      some [⟨0, "10".toList, .reported .completed true⟩, ⟨0, "10".toList, .reached⟩,
        ⟨0, "10".toList, .expired⟩] := by
    decide +kernel
  obtain ⟨h, ran, newest⟩ := Option.map_eq_some_iff.mp shown
  refine ⟨h, ran, fun always => ?_⟩
  rw [← List.take_append_drop 3 h.notes, newest] at always
  have aborted := always.1 .completed true rfl (by simp [lately_cons, clears])
  cases aborted

end Restraint.WatchdogVerdict

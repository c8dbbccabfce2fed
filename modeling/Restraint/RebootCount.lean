import Restraint.Restart

/-! The reboot count of a task. It is written to the config file once the entry point
was started, and the next start has it in its environment; a task that was started is
not set up again. -/
namespace Restraint.RebootCount
open Transition History
open CString (Text)
open Restraint.Harness Restraint.TaskHandler Restraint.TaskMachine Restraint.TaskRefinement
open Restraint.TaskSteps Restraint.TaskDeeds Restraint.Restart
open Restraint.Env (valuesOf countNames assignment buildEnv buildEnv_reboots)

/-- How often the entry point of a task was started since its section was last removed. -/
def executions (notes : List Note) (taskId : Text) : Nat := (lately taskId notes).countP launches

/-- A task is fetched, its external watchdog is posted or its dependencies are installed. -/
def setsUp : Done → Bool
  | .fetched | .posted | .installed => true
  | _ => false

/-- A reboot count is there once, under each of its names. -/
def counted (env : List Text) (rhtsCompat : Bool) (reboots : Nat) : Prop :=
  ∀ name ∈ countNames rhtsCompat, valuesOf name env = [assignment name (Decimal.print reboots)]

/-- An entry point gets the number of its earlier executions as its reboot count, and
a task is set up before its first execution only. -/
structure Counted (older : List Note) (note : Note) : Prop where
  launched : ∀ remainingTime rhtsCompat env, note.done = .launched remainingTime rhtsCompat env →
    counted env rhtsCompat (executions older note.taskId % 2 ^ 64)
  setUp : setsUp note.done = true → executions older note.taskId = 0

/-- The config file is written whenever it should be, and the daemon stops between
steps only. -/
def recorded : Event → Prop
  | .serve event _ => writes event = true
  | .interrupt .. => False
  | _ => True

/-- What the recipe sets when the environment is built has other names than the reboot
count. -/
def uncovered (h : Host) : Event → Prop
  | .serve event settings => acts h.daemon (h.event event) = some .equip →
      ∀ task ∈ h.daemon.tasks.head?, ∀ name ∈ countNames task.rhtsCompat, settings.leaves name
  | _ => True

def orderly (h : Host) (e : Event) : Prop := recorded e ∧ uncovered h e

instance : DecidablePred recorded
  | .serve _ _ => inferInstanceAs (Decidable (_ = true))
  | .interrupt .. => inferInstanceAs (Decidable False)
  | .heartbeat .. | .acknowledge .. | .restart => inferInstanceAs (Decidable True)

instance (h : Host) (e : Event) : Decidable (uncovered h e) := by
  unfold uncovered
  split <;> infer_instance

instance (h : Host) (e : Event) : Decidable (orderly h e) := by
  unfold orderly
  infer_instance

/-- The states of a task for which the environment was built. -/
def equipped : TaskSetupState → Bool
  | .watchdog | .dependencies | .run => true
  | _ => false

/-- What a task that is not executed now knows of its earlier executions. -/
structure Informed (stored : Section) (env : List Text) (activations : List Source) (task : Task) :
    Prop where
  recalled : working task.state = true → activations ≠ [.entryPoint] →
    task.reboots = stored.reboots ∧ task.started = stored.started
  new : task.state = .fetch → task.started = false
  count : equipped task.state = true → activations ≠ [.entryPoint] →
    counted env task.rhtsCompat task.reboots

/-- The config file counts the executions of every task, and the current one knows it. -/
structure Counting (m : Snapshot) (notes : List Note) (env : List Text) : Prop where
  stored : ∀ taskId, (m.config taskId).reboots = executions notes taskId % 2 ^ 64 ∧
    ((m.config taskId).started = true ↔ 0 < executions notes taskId)
  current : ∀ task ∈ m.tasks.head?, Informed (m.config task.taskId) env m.activations task

section
variable {m n : Snapshot} {did : Option Effect} {source : Option Source} {active : Source}
  {e : Server.Event} {w : World} {task task' : Task} {rest : List Task} {next : Option Source}
  {config config' : Text → Section} {cancelled : Bool} {aborted : StateAborted}
  {notes : List Note} {taskId : Text} {env env' : List Text} {activations : List Source}
  {stored stored' : Section}

/-- A task for which nothing is done. -/
theorem informed_of_calm (calm : working task.state = false) : Informed stored env activations task := by
  refine ⟨?_, ?_, ?_⟩
  · simp [calm]
  · intro fetch
    rw [fetch] at calm
    cases calm
  · intro ready
    cases state : task.state <;> simp_all [working, equipped]

/-- A task for which work goes on. -/
theorem Informed.goOn (informed : Informed stored env [active] task) (apart : active ≠ .entryPoint)
    (before : working task.state = true) (after : task'.state ≠ .fetch)
    (ready : equipped task'.state = true → equipped task.state = true)
    (same : task'.reboots = task.reboots ∧ task'.started = task.started)
    (compat : equipped task.state = true → task'.rhtsCompat = task.rhtsCompat) :
    Informed stored env activations task' := by
  have turn : [active] ≠ [Source.entryPoint] := by simpa using apart
  obtain ⟨reboots, started⟩ := informed.recalled before turn
  refine ⟨fun _ _ => ⟨same.1.trans reboots, same.2.trans started⟩, fun fetch => absurd fetch after,
    fun now _ => ?_⟩
  rw [same.1, compat (ready now)]
  exact informed.count (ready now) turn

private theorem deed_informed (deed : Deed config cancelled aborted w did active task task' config' next)
    (entry : active = .entryPoint → task.state = .run)
    (informed : Informed (config task.taskId) env [active] task)
    (kept : did ≠ some .equip → env' = env)
    (built : did = some .equip → counted env' task.rhtsCompat task.reboots) :
    Informed (config' task.taskId) env' next.toList task' := by
  have apart {state : TaskSetupState} (here : task.state = state) (other : state ≠ .run) :
      active ≠ .entryPoint := fun same => other (here.symm.trans (entry same))
  cases deed with
  | keep calm fetches other =>
    rw [kept (fetches.apart (by simp)).symm]
    have turn : [active] ≠ [Source.entryPoint] := by simpa using other
    exact ⟨fun busy _ => informed.recalled busy turn, informed.new, fun ready _ => informed.count ready turn⟩
  | resume idle => exact ⟨fun _ _ => ⟨rfl, rfl⟩, nofun, nofun⟩
  | begin idle read due flag new => exact ⟨fun _ _ => ⟨rfl, rfl⟩, fun _ => new, nofun⟩
  | fetched fetch fetches =>
    rw [kept (fetches.apart (by simp)).symm]
    exact informed.goOn (apart fetch (by simp)) (by rw [fetch]; rfl) (by simp) nofun ⟨rfl, rfl⟩
      (fun _ => rfl)
  | prepare parse =>
    rw [kept (by simp)]
    refine informed.goOn (by simp) (by rw [parse]; rfl) (by simp [parse]) id ⟨rfl, rfl⟩ ?_
    simp [parse, equipped]
  | described parse =>
    rw [kept (by simp)]
    refine informed.goOn (apart parse (by simp)) (by rw [parse]; rfl) (by simp) nofun ⟨rfl, rfl⟩ ?_
    simp [parse, equipped]
  | roles refresh =>
    rw [kept (by simp)]
    exact informed.goOn (apart refresh (by simp)) (by rw [refresh]; rfl) (by simp) nofun ⟨rfl, rfl⟩
      (fun _ => rfl)
  | environment state =>
    obtain ⟨reboots, started⟩ := informed.recalled (by rw [state]; rfl) (by simp)
    exact ⟨fun _ _ => ⟨reboots, started⟩, nofun, fun _ _ => built rfl⟩
  | post watchdog =>
    rw [kept (by simp)]
    exact informed.goOn (by simp) (by rw [watchdog]; rfl) (by simp) (fun _ => by rw [watchdog]; rfl)
      ⟨rfl, rfl⟩ (fun _ => rfl)
  | unposted watchdog =>
    rw [kept (by simp)]
    exact informed.goOn (by simp) (by rw [watchdog]; rfl) (by simp) (fun _ => by rw [watchdog]; rfl)
      ⟨rfl, rfl⟩ (fun _ => rfl)
  | uninstalled dependencies =>
    rw [kept (by simp)]
    exact informed.goOn (by simp) (by rw [dependencies]; rfl) (by simp)
      (fun _ => by rw [dependencies]; rfl) ⟨rfl, rfl⟩ (fun _ => rfl)
  | install dependencies =>
    rw [kept (by simp)]
    exact informed.goOn (by simp) (by rw [dependencies]; rfl) (by simp)
      (fun _ => by rw [dependencies]; rfl) ⟨rfl, rfl⟩ (fun _ => rfl)
  | installed dependencies =>
    rw [kept (by simp)]
    exact informed.goOn (by simp) (by rw [dependencies]; rfl) (by simp)
      (fun _ => by rw [dependencies]; rfl) ⟨rfl, rfl⟩ (fun _ => rfl)
  | launch run => exact ⟨fun _ turn => absurd rfl turn, by simp [run], fun _ turn => absurd rfl turn⟩
  | _ => exact informed_of_calm rfl

/-- Only an entry point that is started and a section that is removed count. -/
theorem executions_kept (notLaunch : did ≠ some .launch) (notReport : did ≠ some .report) :
    executions ((noted m env e did).toList ++ notes) taskId = executions notes taskId := by
  cases did with
  | none => rfl
  | some effect =>
    cases current : m.tasks with
    | nil => simp [noted, current]
    | cons task rest =>
      unfold executions
      by_cases own : taskId = task.taskId
      · subst own
        rw [lately_own current]
        cases effect <;> simp_all [doneBy, clears, launches]
      · rw [lately_other current own]

private theorem executions_launch (current : m.tasks = task :: rest) :
    executions ((noted m env e (some .launch)).toList ++ notes) taskId =
      executions notes taskId + if taskId = task.taskId then 1 else 0 := by
  unfold executions
  by_cases own : taskId = task.taskId
  · subst own
    rw [lately_own current, if_pos rfl]
    exact List.countP_cons_of_pos rfl
  · rw [lately_other current own, if_neg own, Nat.add_zero]

private theorem executions_report (current : m.tasks = task :: rest) (written : writes e = true) :
    executions ((noted m env e (some .report)).toList ++ notes) taskId =
      if taskId = task.taskId then 0 else executions notes taskId := by
  unfold executions
  by_cases own : taskId = task.taskId
  · subst own
    rw [lately_own current, if_pos rfl]
    simp [doneBy, clears, written]
  · rw [lately_other current own, if_neg own]

/-- Only the start of an entry point is counted in a section. -/
theorem deed_uncounted (deed : Deed config cancelled aborted w did active task task' config' next)
    (other : did ≠ some .launch) :
    (config' taskId).reboots = (config taskId).reboots ∧
      (config' taskId).started = (config taskId).started := by
  cases deed with
  | launch => exact absurd rfl other
  | expire =>
    rw [written_apply]
    split
    · rename_i own
      obtain ⟨-, rfl⟩ := own
      exact ⟨rfl, rfl⟩
    · exact ⟨rfl, rfl⟩
  | _ => exact ⟨rfl, rfl⟩

/-- The sections count on when a deed is done. -/
theorem deed_stored (deed : Deed m.config m.cancelled m.aborted w did active task task' config next)
    (current : m.tasks = task :: rest) (written : w.configWrites = true)
    (reboots : did = some .launch → task.reboots = (m.config task.taskId).reboots)
    (stored : (m.config taskId).reboots = executions notes taskId % 2 ^ 64 ∧
      ((m.config taskId).started = true ↔ 0 < executions notes taskId)) :
    (config taskId).reboots = executions ((noted m env e did).toList ++ notes) taskId % 2 ^ 64 ∧
      ((config taskId).started = true ↔
        0 < executions ((noted m env e did).toList ++ notes) taskId) := by
  by_cases launch : did = some .launch
  · subst launch
    obtain ⟨-, -, rfl⟩ := deed_effect deed
    rw [executions_launch current, written_apply]
    by_cases own : taskId = task.taskId
    · subst own
      simp only [written, ran, reboots rfl, stored.1, true_and, ↓reduceIte]
      refine ⟨?_, by simp⟩
      omega
    · simpa [own] using stored
  · obtain ⟨reboots, started⟩ := deed_uncounted deed launch
    rw [executions_kept launch (deed_unreported deed), reboots, started]
    exact stored

/-- A task that was changed in nothing its states depend on knows the same. -/
theorem Informed.same (informed : Informed stored env activations task) (alike : Alike task task') :
    Informed stored env activations task' := by
  refine ⟨?_, ?_, ?_⟩
  · rw [alike.state, alike.reboots, alike.started]
    exact informed.recalled
  · rw [alike.state, alike.started]
    exact informed.new
  · rw [alike.state, alike.rhtsCompat, alike.reboots]
    exact informed.count

/-- An entry point is started for a task that knows of its earlier executions. -/
theorem stride_launch_recalled (counting : Counting m notes env) (stride : Stride source e did m n)
    (launch : did = some .launch) : ∀ task ∈ m.tasks.head?, m.activations ≠ [.entryPoint] ∧
      task.state = .run ∧ task.reboots = (m.config task.taskId).reboots := by
  subst launch
  intro task head
  obtain ⟨task', rest, current, run, turn⟩ := stride_launch stride
  obtain rfl : task' = task := by simpa [current] using head
  have apart : m.activations ≠ [.entryPoint] := by simp [turn]
  exact ⟨apart, run, ((counting.current task' head).recalled (by rw [run]; rfl) apart).1⟩

private theorem stride_counting (staged : Staged m) (counting : Counting m notes env)
    (stride : Stride source e did m n) (written : writes e = true)
    (kept : did ≠ some .equip → env' = env)
    (built : did = some .equip → ∀ task ∈ m.tasks.head?, counted env' task.rhtsCompat task.reboots) :
    Counting n ((noted m env e did).toList ++ notes) env' := by
  have recalled := stride_launch_recalled counting stride
  obtain ⟨stored, current⟩ := counting
  refine ⟨?_, ?_⟩
  · intro taskId
    cases stride with
    | work event here tasks turn deed =>
      subst event
      refine deed_stored deed tasks written (fun launch => ?_) (stored taskId)
      exact (recalled launch _ (by rw [tasks]; rfl)).2.2
    | report event here tasks =>
      rw [executions_report tasks written]
      subst event
      simp only [written_apply, show World.configWrites _ = true from written, true_and]
      split
      · simp [Section.empty]
      · exact stored taskId
    | _ =>
      rw [executions_kept (by simp) (by simp)]
      exact stored taskId
  · intro task head
    cases stride_origin staged stride task head with
    | fresh idle => exact informed_of_calm (by rw [idle]; rfl)
    | work event here tasks turn deed left =>
      rw [deed_taskId deed, left]
      have before := congrArg List.head? tasks
      exact deed_informed deed (fun entry => staged.entry (by rw [turn, entry]) _ before)
        (turn ▸ current _ before) kept fun equip => built equip _ before
    | report done => exact informed_of_calm (by rw [done]; rfl)
    | same tasks alike quiet unchanged =>
      rw [alike.taskId, unchanged.2.1, unchanged.2.2, kept (by rcases quiet with rfl | rfl <;> simp)]
      exact (current _ (congrArg List.head? tasks)).same alike

/-- A task is set up before its entry point was started only. -/
theorem stride_setsUp {effect : Effect} (staged : Staged m) (counting : Counting m notes env)
    (stride : Stride source e (some effect) m n)
    (setUp : effect = .fetch ∨ effect = .post ∨ effect = .install) :
    ∀ task ∈ m.tasks.head?, executions notes task.taskId = 0 := by
  intro task head
  obtain ⟨w, active, task', rest, after, next, current, -, -, -, deed⟩ :=
    stride_deed stride (by rcases setUp with rfl | rfl | rfl <;> simp)
  obtain rfl : task' = task := by simpa [current] using head
  have informed := counting.current task' head
  have known : working task'.state = true ∧ task'.state ≠ .run ∧ task'.started = false := by
    have due := deed_effect deed
    rcases setUp with rfl | rfl | rfl
    · have fetch : task'.state = .fetch := due
      exact ⟨by rw [fetch]; rfl, by simp [fetch], informed.new fetch⟩
    · obtain ⟨watchdog, new⟩ := due
      exact ⟨by rw [watchdog]; rfl, by simp [watchdog], new⟩
    · obtain ⟨dependencies, new⟩ := due
      exact ⟨by rw [dependencies]; rfl, by simp [dependencies], new⟩
  obtain ⟨busy, notRun, new⟩ := known
  have apart : m.activations ≠ [.entryPoint] := fun entry => notRun (staged.entry entry task' head)
  have recalled := (informed.recalled busy apart).2
  have none := (counting.stored task'.taskId).2
  rw [← recalled, new] at none
  simpa using none

private theorem noted_counted (staged : Staged m) (counting : Counting m notes env)
    (stride : Stride source e did m n) : ∀ note ∈ noted m env e did, Counted notes note := by
  intro note member
  constructor
  · intro remainingTime rhtsCompat env' launched
    obtain ⟨launch, rfl, task, head, own, -, rfl⟩ := noted_launched member launched
    obtain ⟨apart, run, reboots⟩ := stride_launch_recalled counting stride launch task head
    have count := (counting.current task head).count (by rw [run]; rfl) apart
    rwa [own, ← (counting.stored task.taskId).1, ← reboots]
  · intro setUp
    obtain ⟨effect, task, rfl, head, -, own, doing⟩ := noted_spec member
    rw [own]
    refine stride_setsUp staged counting stride ?_ task head
    cases effect <;> simp [doneBy] at doing <;> simp [← doing, setsUp] at setUp ⊢

/-- What is left of a heartbeat. -/
theorem executions_beat {place : Nat} {left : Int} {writes : Bool} {other : Text} :
    executions ((beatNote place taskId left writes).toList ++ notes) other = executions notes other := by
  unfold executions
  rw [lately_beat]
  split
  · exact List.countP_cons_of_neg (by simp [launches])
  · rfl

private theorem beat_counting {place : Nat} {left : Int} {writes : Bool}
    (counting : Counting m notes env)
    (tasks : m.tasks = task :: rest) :
    Counting (beaten m task rest left writes)
      ((beatNote place task.taskId left writes).toList ++ notes) env where
  stored := by
    intro taskId
    simp only [beaten, beatConfig_reboots, beatConfig_started, executions_beat]
    exact counting.stored taskId
  current := by
    rintro _ ⟨⟩
    have informed := counting.current task (by rw [tasks]; rfl)
    refine ⟨fun busy turn => ?_, informed.new, informed.count⟩
    simpa only [beaten, beatConfig_reboots, beatConfig_started] using informed.recalled busy turn

end

variable {h k : Host} {e : Event} {event : Server.Event} {settings : Env.Settings}

/-- The environment is the one that was built last. -/
theorem serve_env (served : serve h event settings = some k) :
    (acts h.daemon event ≠ some .equip → k.env = h.env) ∧
      (acts h.daemon event = some .equip → ∀ task ∈ h.daemon.tasks.head?,
        k.env = buildEnv settings task) := by
  obtain ⟨daemon, -, rfl⟩ := Option.map_eq_some_iff.mp served
  constructor
  · intro other
    dsimp only
    split
    · rename_i effect task did head
      cases effect with
      | equip => exact absurd did other
      | _ => rfl
    · rfl
  · intro equip task head
    simp [equip, Option.mem_def.mp head, effected]

/-- What holds of a host over restarts. -/
structure Tallied (h : Host) : Prop where
  sound : Sound (view h.daemon)
  counting : Counting (snapshot h.daemon) h.notes h.env
  always : Always Counted h.notes

private theorem serve_tallied (tallied : Tallied h) (written : writes event = true)
    (leaves : acts h.daemon event = some .equip → ∀ task ∈ h.daemon.tasks.head?,
      ∀ name ∈ countNames task.rhtsCompat, settings.leaves name)
    (served : serve h event settings = some k) : Tallied k := by
  obtain ⟨sound, stride, notes⟩ := serve_spec tallied.sound served
  obtain ⟨kept, built⟩ := serve_env served
  refine ⟨sound, ?_, ?_⟩
  · rw [notes]
    apply stride_counting (staged tallied.sound) tallied.counting stride written kept
    intro equip task head name named
    rw [built equip task head]
    exact buildEnv_reboots named (leaves equip task head name named)
  · rw [notes]
    exact always_toList tallied.always (noted_counted (staged tallied.sound) tallied.counting stride)

private theorem step_tallied (tallied : Tallied h) (orderly : orderly h e)
    (stepped : step h e = some k) :
    Tallied k := by
  have sound := step_sound tallied.sound stepped
  cases e with
  | serve event settings =>
    refine serve_tallied tallied ?_ orderly.2 stepped
    have written := orderly.1
    cases event <;> exact written
  | heartbeat now writes =>
    obtain ⟨task, rest, tasks, turn, shown, notes, -, -, -, env⟩ := heartbeat_spec stepped
    refine ⟨sound, ?_, ?_⟩
    · rw [shown, notes, env]
      exact beat_counting tallied.counting tasks
    · rw [notes]
      apply always_toList tallied.always
      intro note member
      rw [beatNote_done member]
      exact ⟨nofun, nofun⟩
  | acknowledge place status =>
    obtain ⟨-, rfl⟩ := acknowledge_spec stepped
    exact ⟨sound, tallied.counting, tallied.always⟩
  | restart =>
    cases stepped
    exact ⟨sound, ⟨tallied.counting.stored, by simp [restarted, snapshot, Server.start]⟩, tallied.always⟩
  | interrupt => exact orderly.1.elim

variable {stdin : Bool} {recipeId : Text} {recipe : List TaskXml} {events : List Event}

/-- **Over every run with restarts, an entry point gets the number of its earlier
executions as its reboot count, and a task is fetched, its external watchdog posted and
its dependencies installed before its first execution only.** -/
theorem reboots_counted
    (ran : run (only step orderly) (start stdin recipeId recipe) events = some h) :
    Always Counted h.notes := by
  refine (run_keeps (I := Tallied) ?_ ⟨start_sound, ⟨?_, ?_⟩, always_nil⟩ ran).always
  · intro h e k tallied stepped
    obtain ⟨orderly, stepped⟩ := only_eq_some.mp stepped
    exact step_tallied tallied orderly stepped
  · intro taskId
    simp [start, snapshot, Server.start, Section.empty, executions]
  · simp [start, snapshot, Server.start]

/-- A task that is started twice. -/
theorem reboots_counted_resumed :
    ∃ h, run (only step orderly) (start false "1".toList oneTask) (untilLaunched ++ untilResumed) = some h ∧
      executions h.notes "10".toList = 2 ∧ Always Counted h.notes := by
  have shown : (run (only step orderly) (start false "1".toList oneTask)
      (untilLaunched ++ untilResumed)).map (fun h => executions h.notes "10".toList) = some 2 := by
    decide +kernel
  obtain ⟨h, ran, twice⟩ := Option.map_eq_some_iff.mp shown
  exact ⟨h, ran, twice, reboots_counted ran⟩

/-- A parameter of the task that sets its reboot count. -/
def countGiven : Env.Settings := { noSettings with params := [⟨Env.prefixed "REBOOTCOUNT", "7".toList⟩] }

open ActivationProofs (calm)

/-- A parameter of the task is what the first execution gets as its reboot count. -/
theorem reboots_overridden :
    ∃ h, run (only step fun _ => recorded) (start false "1".toList oneTask)
        (untilMetadata ++ dispatches (calm []) [8, 9, 10] ++
          .serve (.dispatch 11 (calm [])) countGiven :: dispatches (calm []) [11, 12, 13, 14, 15]) = some h ∧
      ¬Always Counted h.notes := by
  have shown : (run (only step fun _ => recorded) (start false "1".toList oneTask)
      (untilMetadata ++ dispatches (calm []) [8, 9, 10] ++
        .serve (.dispatch 11 (calm [])) countGiven :: dispatches (calm []) [11, 12, 13, 14, 15])).map
      (fun h => decide (h.notes.take 1 = [⟨0, "10".toList, .launched 600 false h.env⟩] ∧
        valuesOf (Env.prefixed "REBOOTCOUNT") h.env ≠ [assignment (Env.prefixed "REBOOTCOUNT")
          (Decimal.print (executions (h.notes.drop 1) "10".toList % 2 ^ 64))])) = some true := by
    decide +kernel
  obtain ⟨h, ran, shown⟩ := Option.map_eq_some_iff.mp shown
  obtain ⟨newest, other⟩ := of_decide_eq_true shown
  refine ⟨h, ran, fun always => ?_⟩
  rw [← List.take_append_drop 1 h.notes, newest] at always
  exact other (always.1.launched 600 false h.env rfl _ List.mem_cons_self)

end Restraint.RebootCount

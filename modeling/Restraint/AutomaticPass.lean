import Restraint.Requests
import Restraint.Restart

/-! The automatic PASS. `task_finish_callback` reports it for an exit code of 0 unless
`results_reported` was set by a request for results; the flag is not in the config file, so
a daemon that was started again does not know what was reported before. -/
namespace Restraint.AutomaticPass
open Transition History
open CString (Text gStrHasSuffix)
open Restraint.Harness Restraint.TaskHandler Restraint.TaskMachine Restraint.TaskRefinement
open Restraint.TaskSteps Restraint.TaskDeeds
open Restraint.Restart (Host dispatches noSettings oneTask untilLaunched untilResumed)
open Requests (namedTask)

/-- What is told of the results of the tasks. -/
inductive Told where
  /-- A request for results came: the task that its path names, and the place of the current one. -/
  | reported (named : Option Text) (place : Nat)
  /-- `task_finish_callback` reported PASS for a task. -/
  | passed (taskId : Text) (place : Nat)
  /-- The daemon stopped. -/
  | stopped
  deriving DecidableEq

/-- A host, and what was told so far, the newest first. -/
structure Chronicle where
  host : Host
  told : List Told

/-- The daemon answers a request for results with one for the current task. -/
def takes (s : AppData) (path : Text) : Bool :=
  s.state ≠ .idle ∧ gStrHasSuffix path "/results/".toList = true

/-- `task_finish_callback` reports PASS. -/
def passes (s : AppData) (id : Nat) (w : World) : Bool :=
  s.loop.find? id = some .entryPoint ∧
    (Server.step s (.dispatch id w)).any fun t => t.trace = s.trace ++ [.result (place s) true]

def tells (h : Host) : Restart.Event → Option Told
  | .serve (.request path _ _ _) _ =>
    if takes h.daemon path then some (.reported (namedTask path) (place h.daemon)) else none
  | .serve (.dispatch id w) _ =>
    if passes h.daemon id (h.world w) then
      h.daemon.tasks.head?.map fun task => .passed task.taskId (place h.daemon)
    else none
  | .restart | .interrupt .. => some .stopped
  | .heartbeat .. | .acknowledge .. => none

def step (c : Chronicle) (e : Restart.Event) : Option Chronicle :=
  (Restart.step c.host e).map fun host => ⟨host, (tells c.host e).toList ++ c.told⟩

def start (stdin : Bool) (recipeId : Text) (recipe : List TaskXml) : Chronicle :=
  ⟨Restart.start stdin recipeId recipe, []⟩

/-- A result was reported for this task: the request named it, or came while it was the
current one. -/
def concerns (taskId : Text) (place : Nat) : Told → Bool
  | .reported named current => named = some taskId ∨ current = place
  | _ => false

/-- A result was taken for the task at this place. -/
def takenAt (place : Nat) : Told → Bool
  | .reported _ current => current = place
  | _ => false

def stops : Told → Bool
  | .stopped => true
  | _ => false

/-- PASS is reported for a task no result was reported for. -/
def Silent (older : List Told) (entry : Told) : Prop :=
  ∀ taskId place, entry = .passed taskId place → ∀ told ∈ older, concerns taskId place told = false

/-- The entry point of a task that is not one of rhts exits with 0: no result was reported for
the task, or a result was taken for it since the daemon was last started. -/
def hears (c : Chronicle) : Restart.Event → Prop
  | .serve (.dispatch id w) _ => c.host.daemon.loop.find? id = some .entryPoint → w.pidResult = 0 →
      ∀ task ∈ c.host.daemon.tasks.head?, task.rhtsCompat = false →
        (∀ told ∈ c.told, concerns task.taskId (place c.host.daemon) told = false) ∨
          ∃ told ∈ since stops c.told, takenAt (place c.host.daemon) told = true
  | _ => True

instance (c : Chronicle) : (e : Restart.Event) → Decidable (hears c e)
  | .serve (.dispatch _ _) _ => inferInstanceAs (Decidable (_ → _ → _))
  | .serve (.request ..) _ | .heartbeat .. | .acknowledge .. | .restart | .interrupt .. =>
    inferInstanceAs (Decidable True)

/-- The flags of the tasks say where results were taken since the daemon was started. -/
structure Marks (m : Snapshot) (recent : List Told) : Prop where
  current : ∀ task ∈ m.tasks.head?, task.resultsReported = recent.any (takenAt m.past.length)
  fresh : ∀ task ∈ m.tasks.tail, task.resultsReported = false
  later : ∀ place, m.past.length < place → recent.any (takenAt place) = false
  none : m.tasks = [] → recent.any (takenAt m.past.length) = false

variable {m n : Snapshot} {s t : AppData} {recent told : List Told} {task : Task} {rest : List Task}
  {id : Nat} {w : World} {path body : Text} {form : List (Text × Text)} {time : Nat}

private theorem takes_iff : takes s path = true ↔
    s.state ≠ .idle ∧ gStrHasSuffix path "/results/".toList = true := by
  simp only [takes, decide_eq_true_eq]

private theorem marks_nil (fresh : ∀ task ∈ m.tasks, task.resultsReported = false) : Marks m [] where
  current := fun task head => fresh task (List.mem_of_mem_head? head)
  fresh := fun task member => fresh task (List.mem_of_mem_tail member)
  later := fun _ _ => rfl
  none := fun _ => rfl

private theorem start_marks {stdin : Bool} {config : Text → Section} :
    Marks (snapshot (Server.start stdin config)) [] :=
  marks_nil (by simp [snapshot, Server.start])

/-- What is told of other things than requests for results is not in the flags. -/
theorem Marks.other {entry : Told} (marks : Marks m recent) (other : ∀ place, takenAt place entry = false) :
    Marks m (entry :: recent) where
  current := by simpa [other] using marks.current
  fresh := marks.fresh
  later := by simpa [other] using marks.later
  none := by simpa [other] using marks.none

/-- The current task is changed, and its flag as well if a result is taken for it. -/
theorem Marks.change {task' : Task} (taken : Option Told) (marks : Marks m recent)
    (current : m.tasks = task :: rest) (changed : n.tasks = task' :: rest) (past : n.past = m.past)
    (flag : task'.resultsReported = (taken.toList.any (takenAt m.past.length) || task.resultsReported))
    (here : ∀ place, m.past.length ≠ place → taken.toList.any (takenAt place) = false) :
    Marks n (taken.toList ++ recent) where
  current := by
    rw [changed, past]
    rintro _ ⟨⟩
    rw [flag, List.any_append, marks.current task (by rw [current]; rfl)]
  fresh := by
    have fresh := marks.fresh
    rw [current] at fresh
    rwa [changed]
  later := by
    intro place beyond
    rw [past] at beyond
    rw [List.any_append, here place (by omega), marks.later place beyond, Bool.or_false]
  none := by simp [changed]

private theorem deed_resultsReported {config config' : Text → Section} {cancelled : Bool}
    {aborted : StateAborted}
    {did : Option Effect} {active : Source} {task task' : Task} {next : Option Source}
    (deed : Deed config cancelled aborted w did active task task' config' next) :
    task'.resultsReported = task.resultsReported := by
  cases deed <;> rfl

private theorem stride_marks {source : Source} {e : Server.Event} {did : Option Effect}
    (staged : Staged m)
    (marks : Marks m recent) (stride : Stride (some source) e did m n) : Marks n recent := by
  cases stride with
  | parse event parsed =>
    obtain ⟨none, -, -⟩ := staged.before (by rw [parsed]; rfl)
    refine ⟨?_, ?_, marks.later, fun _ => marks.none none⟩
    · intro task head
      obtain ⟨xml, -, rfl⟩ := List.mem_map.mp (List.mem_of_mem_head? head)
      exact (marks.none none).symm
    · intro task member
      obtain ⟨xml, -, rfl⟩ := List.mem_map.mp (List.mem_of_mem_tail member)
      rfl
  | work event here current turn deed =>
    exact marks.change none current rfl rfl (deed_resultsReported deed) fun _ _ => rfl
  | report event here current =>
    exact marks.change none current rfl rfl rfl fun _ _ => rfl
  | advance here current =>
    have fresh := marks.fresh
    rw [current, List.tail_cons] at fresh
    obtain ⟨next, later⟩ := List.forall_mem_cons.mp fresh
    refine ⟨?_, later, ?_, by simp⟩
    · rintro _ ⟨⟩
      rw [marks.later _ (by simp)]
      exact next
    · intro place beyond
      apply marks.later place
      rw [List.length_append] at beyond
      omega
  | finish =>
    refine ⟨by simp, by simp, ?_, fun _ => marks.later _ (by simp)⟩
    intro place beyond
    apply marks.later place
    rw [List.length_append] at beyond
    omega
  | results current request => cases request
  | adjust event request => cases request
  | abort current request => cases request
  | _ => exact ⟨marks.current, marks.fresh, marks.later, marks.none⟩

/-- Other requests leave the flag of the current task as it is. -/
theorem serverRecipeCallback_other (other : gStrHasSuffix path "/results/".toList = false)
    (live : s.state ≠ .idle) (current : s.tasks = task :: rest)
    (called : Server.serverRecipeCallback s path body form time = some t) :
    ∃ task', t.tasks = task' :: rest ∧ t.past = s.past ∧
      task'.resultsReported = task.resultsReported := by
  rw [Server.serverRecipeCallback, if_neg live] at called
  simp only [current, other, Bool.false_eq_true, if_false] at called
  split at called
  · cases called
    exact ⟨task, current, rfl, rfl⟩
  split at called
  · obtain ⟨metadata, -, rfl⟩ := Option.map_eq_some_iff.mp called
    refine ⟨_, rfl, rfl, ?_⟩
    unfold Server.adjustWatchdog
    dsimp only
    split <;> rfl
  split at called
  · obtain ⟨recipeId, -, called⟩ := Option.bind_eq_some_iff.mp called
    obtain ⟨level, -, rfl⟩ := Option.map_eq_some_iff.mp called
    cases level <;> exact ⟨task, current, rfl, rfl⟩
  · cases called
    exact ⟨task, current, rfl, rfl⟩

private theorem request_marks (marks : Marks (snapshot s) recent)
    (stepped : Server.step s (.request path body form time) = some t) :
    Marks (snapshot t) ((if takes s path then some (.reported (namedTask path) (place s))
      else none).toList ++ recent) := by
  simp only [Server.step] at stepped
  split at stepped
  · cases stepped
  by_cases idle : s.state = .idle
  · rw [Server.serverRecipeCallback, if_pos idle] at stepped
    cases stepped
    rw [if_neg fun taken => (takes_iff.mp taken).1 idle]
    exact marks
  cases current : s.tasks with
  | nil => simp [Server.serverRecipeCallback, idle, current] at stepped
  | cons task rest =>
    cases results : gStrHasSuffix path "/results/".toList with
    | true =>
      obtain ⟨-, past, changed⟩ := Requests.serverRecipeCallback_results results idle current stepped
      rw [if_pos (takes_iff.mpr ⟨idle, results⟩)]
      refine marks.change (some _) current changed past ?_ ?_
      · simp [takenAt, snapshot, place]
      · intro other apart
        simpa [takenAt] using show ¬place s = other from apart
    | false =>
      obtain ⟨task', changed, past, same⟩ := serverRecipeCallback_other results idle current stepped
      have untaken : ¬takes s path = true := fun taken =>
        Bool.false_ne_true (results.symm.trans (takes_iff.mp taken).2)
      rw [if_neg untaken]
      exact marks.change none current changed past same fun _ _ => rfl

/-- PASS is reported exactly for an exit code of 0 of a task that is not one of rhts and has
no flag. -/
theorem passes_iff (stepped : Server.step s (.dispatch id w) = some t) : passes s id w = true ↔
    s.loop.find? id = some .entryPoint ∧ w.pidResult = 0 ∧
      ∀ task ∈ s.tasks.head?, task.rhtsCompat = false ∧ task.resultsReported = false := by
  simp only [passes, stepped, Option.any_some, decide_eq_true_eq]
  apply and_congr_right
  intro found
  simp only [Server.step] at stepped
  split at stepped
  · cases stepped
  simp only [found, Option.bind_some, Server.dispatch, taskFinishCallback] at stepped
  split at stepped
  · cases stepped
  rename_i task rest current
  split at stepped
  · cases stepped
  have head : (∀ task ∈ s.tasks.head?, task.rhtsCompat = false ∧ task.resultsReported = false) ↔
      ¬(task.rhtsCompat = true ∨ task.resultsReported = true) := by
    simp [show s.tasks = task :: rest from current]
  rw [head]
  split at stepped
  · rename_i zero
    cases stepped
    by_cases quiet : task.rhtsCompat = true ∨ task.resultsReported = true
    · rw [if_pos quiet]
      simp [attach, quiet]
    · rw [if_neg quiet]
      simp [attach, observe, place, zero, quiet]
  · rename_i failed
    refine iff_of_false ?_ fun passed => failed passed.1
    split at stepped
    · cases stepped
      unfold configSet
      split <;> simp [attach]
    split at stepped <;> cases stepped <;> simp [attach, observe, place]

/-- What holds of every chronicle. -/
structure Kept (c : Chronicle) : Prop where
  sound : Sound (view c.host.daemon)
  marks : Marks (snapshot c.host.daemon) (since stops c.told)

variable {c d : Chronicle} {h k : Host} {e : Restart.Event}

private theorem serve_marks {event : Server.Event} {settings : Env.Settings} (kept : Kept ⟨h, told⟩)
    (served : Restart.step h (.serve event settings) = some k) :
    Marks (snapshot k.daemon) (since stops ((tells h (.serve event settings)).toList ++ told)) := by
  obtain ⟨-, stride, -⟩ := Restart.serve_spec kept.sound served
  obtain ⟨daemon, stepped, rfl⟩ := Option.map_eq_some_iff.mp served
  cases event with
  | request path body form time =>
    rw [since_toList]
    · exact request_marks kept.marks stepped
    · intro entry member
      simp only [tells] at member
      split at member <;> cases member
      rfl
  | dispatch id w =>
    have marks : Marks (snapshot daemon) (since stops told) := by
      cases found : h.daemon.loop.find? id with
      | none => simp [Host.event, Server.step, found] at stepped
      | some source =>
        simp only [Host.event, dispatched, found] at stride
        exact stride_marks (staged kept.sound) kept.marks stride
    have calm : ∀ entry ∈ tells h (.serve (.dispatch id w) settings), ∃ taskId place,
        entry = .passed taskId place := by
      intro entry member
      simp only [tells] at member
      split at member
      · obtain ⟨task, -, rfl⟩ := Option.map_eq_some_iff.mp member
        exact ⟨_, _, rfl⟩
      · cases member
    cases entered : tells h (.serve (.dispatch id w) settings) with
    | none => exact marks
    | some entry =>
      obtain ⟨taskId, place, rfl⟩ := calm entry entered
      exact marks.other fun _ => rfl

private theorem step_kept (kept : Kept c) (stepped : step c e = some d) : Kept d := by
  obtain ⟨host, taken, rfl⟩ := Option.map_eq_some_iff.mp stepped
  have sound := Restart.step_sound kept.sound taken
  cases e with
  | serve event settings => exact ⟨sound, serve_marks kept taken⟩
  | heartbeat now writes =>
    obtain ⟨task, rest, tasks, -, shown, -⟩ := Restart.heartbeat_spec taken
    refine ⟨sound, ?_⟩
    rw [shown]
    exact kept.marks.change none tasks rfl rfl rfl fun _ _ => rfl
  | acknowledge place status =>
    obtain ⟨-, rfl⟩ := Restart.acknowledge_spec taken
    exact ⟨sound, kept.marks⟩
  | restart =>
    cases taken
    exact ⟨sound, start_marks⟩
  | interrupt id w settings =>
    obtain ⟨task, between, -, -, -, rfl⟩ := Restart.interrupt_spec taken
    exact ⟨sound, start_marks⟩

/-- What is told in a step is right if and only if the flag is when the entry point exits. -/
theorem tells_silent_iff (kept : Kept c) (stepped : step c e = some d) :
    (∀ entry ∈ tells c.host e, Silent c.told entry) ↔ hears c e := by
  obtain ⟨host, taken, rfl⟩ := Option.map_eq_some_iff.mp stepped
  cases e with
  | serve event settings =>
    cases event with
    | request path body form time =>
      refine iff_of_true ?_ trivial
      rintro _ member taskId place rfl
      simp only [tells] at member
      split at member <;> cases member
    | dispatch id w =>
      obtain ⟨daemon, served, -⟩ := Option.map_eq_some_iff.mp taken
      have passed := passes_iff served
      constructor
      · intro silent found zero task head foreign
        have flag := kept.marks.current task head
        cases own : task.resultsReported with
        | true =>
          rw [own] at flag
          exact .inr (List.any_eq_true.mp flag.symm)
        | false =>
          have posted : passes c.host.daemon id (c.host.world w) = true := by
            refine passed.mpr ⟨found, zero, fun other same => ?_⟩
            cases head.symm.trans same
            exact ⟨foreign, own⟩
          refine .inl (silent (.passed task.taskId (place c.host.daemon)) ?_ _ _ rfl)
          simp only [tells, if_pos posted, Option.mem_def.mp head, Option.map_some, Option.mem_some_iff]
      · rintro heard _ member taskId at' rfl
        simp only [tells] at member
        split at member
        · rename_i posted
          obtain ⟨task, head, same⟩ := Option.map_eq_some_iff.mp member
          cases same
          obtain ⟨found, zero, flags⟩ := passed.mp posted
          obtain ⟨foreign, own⟩ := flags task head
          apply (heard found zero task head foreign).resolve_right
          have flag := kept.marks.current task head
          rintro ⟨entry, recent, here⟩
          have marked := flag.trans (List.any_eq_true.mpr ⟨entry, recent, here⟩)
          rw [own] at marked
          cases marked
        · cases member
  | _ =>
    refine iff_of_true ?_ trivial
    rintro _ member taskId place rfl
    cases member

variable {stdin : Bool} {recipeId : Text} {recipe : List TaskXml} {events : List Restart.Event}

private theorem start_kept : Kept (start stdin recipeId recipe) := ⟨start_sound, start_marks⟩

/-- **The automatic PASS is for silent tasks only if and only if a task that exits with 0 after
a result was reported for it has reported one since the daemon was last started.** -/
theorem automatic_pass_silent (ran : run step (start stdin recipeId recipe) events = some c) :
    Always Silent c.told ↔ run (only step hears) (start stdin recipeId recipe) events = some c := by
  constructor
  · intro silent
    refine run_only_of_trap (I := Kept) (T := fun c => ¬Always Silent c.told)
      (fun _ _ _ => step_kept) ?_ ?_ start_kept ran fun broken => broken silent
    · intro c e d kept stepped deaf always
      refine deaf ((tells_silent_iff kept stepped).mp ?_)
      obtain ⟨host, -, rfl⟩ := Option.map_eq_some_iff.mp stepped
      intro entry told
      rw [Option.mem_def.mp told] at always
      exact always.1
    · intro c e d broken stepped always
      obtain ⟨host, -, rfl⟩ := Option.map_eq_some_iff.mp stepped
      apply broken
      dsimp only at always
      cases told : tells c.host e with
      | none => rwa [told] at always
      | some entry =>
        rw [told] at always
        exact always.2
  · intro heard
    refine (run_keeps (I := fun c => Kept c ∧ Always Silent c.told) ?_
      ⟨start_kept, always_nil⟩ heard).2
    rintro c e d ⟨kept, silent⟩ taken
    obtain ⟨hears, stepped⟩ := only_eq_some.mp taken
    have right := (tells_silent_iff kept stepped).mpr hears
    refine ⟨step_kept kept stepped, ?_⟩
    obtain ⟨host, -, rfl⟩ := Option.map_eq_some_iff.mp stepped
    exact always_toList silent right

open ActivationProofs (calm)

/-- A request for the results of the first task. -/
def reportsFirst : Restart.Event :=
  .serve (.request "/recipes/1/tasks/10/results/".toList [] [] 0) noSettings

/-- The entry point reports a result and exits with 0. -/
def reportsOnce : List Restart.Event := untilLaunched ++ [reportsFirst] ++ dispatches (calm []) [16]

theorem automatic_pass_silent_once :
    ∃ c, run step (start false "1".toList oneTask) reportsOnce = some c ∧ Always Silent c.told := by
  have restricted : (run (only step hears) (start false "1".toList oneTask) reportsOnce).isSome = true := by
    decide +kernel
  obtain ⟨c, restricted⟩ := Option.isSome_iff_exists.mp restricted
  have ran := run_of_only restricted
  exact ⟨c, ran, (automatic_pass_silent ran).mpr restricted⟩

/-- A result is reported, the daemon is started again, the entry point exits with 0, and PASS is
reported. -/
theorem automatic_pass_after_restart :
    ∃ c, run step (start false "1".toList oneTask)
        (untilLaunched ++ [reportsFirst] ++ untilResumed ++ dispatches (calm []) [8]) = some c ∧
      c.told = [.passed "10".toList 0, .stopped, .reported (some "10".toList) 0] ∧
      ¬Always Silent c.told := by
  have shown : (run step (start false "1".toList oneTask)
      (untilLaunched ++ [reportsFirst] ++ untilResumed ++ dispatches (calm []) [8])).map Chronicle.told =
      some [.passed "10".toList 0, .stopped, .reported (some "10".toList) 0] := by
    decide +kernel
  obtain ⟨c, ran, told⟩ := Option.map_eq_some_iff.mp shown
  refine ⟨c, ran, told, fun always => ?_⟩
  rw [told] at always
  have silent := always.1 _ _ rfl (.reported (some "10".toList) 0) (by simp)
  exact absurd silent (by decide)

end Restraint.AutomaticPass

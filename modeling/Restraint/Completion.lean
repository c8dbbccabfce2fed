import Restraint.Restart

/-! A task that has reached `TASK_COMPLETED`, over restarts. That it is over is in three
places one after the other: its final status is in the message queue, its section is
gone from the config file, and the recipe has the status once it is acknowledged. The
queue is lost when the daemon stops. -/
namespace Restraint.Completion
open Transition History
open CString (Text)
open Restraint.Harness Restraint.TaskHandler Restraint.TaskMachine Restraint.TaskRefinement
open Restraint.TaskSteps Restraint.TaskDeeds Restraint.Restart

/-- A task is fetched, or its entry point is started. -/
def starts : Done → Bool
  | .fetched | .launched .. => true
  | _ => false

/-- What is fetched or started has not reached `TASK_COMPLETED` before. -/
def Once (older : List Note) (note : Note) : Prop :=
  starts note.done = true → ∀ before ∈ older, before.done = .reached → before.place ≠ note.place

/-- The final status of the task at a place is acknowledged. -/
def settled (acknowledged : List (Nat × Status)) (place : Nat) : Prop :=
  (acknowledged.lookup place).isSome = true

/-- The section of the task at a place says that its local watchdog expired, and it is
the section of no earlier task. -/
def marked (recipe : List TaskXml) (config : Text → Section) (place : Nat) : Prop :=
  ∃ xml ∈ recipe[place]?, (config xml.id).localwatchdog = true ∧
    ∀ earlier < place, recipe[earlier]?.map TaskXml.id ≠ some xml.id

/-- A task that `TASK_IDLE` does not take up again. -/
def spared (recipe : List TaskXml) (acknowledged : List (Nat × Status)) (config : Text → Section)
    (place : Nat) : Prop :=
  settled acknowledged place ∨ marked recipe config place

/-- The daemon stops only while every task that has reached `TASK_COMPLETED` is spared. -/
def settles (h : Host) : Event → Prop
  | .restart | .interrupt .. => ∀ note ∈ h.notes, note.done = .reached →
      spared h.recipe h.acknowledged h.daemon.config note.place
  | _ => True

instance {acknowledged : List (Nat × Status)} {place : Nat} : Decidable (settled acknowledged place) := by
  unfold settled
  infer_instance

instance {recipe : List TaskXml} {config : Text → Section} {place : Nat} :
    Decidable (marked recipe config place) := by
  unfold marked
  infer_instance

instance {recipe : List TaskXml} {acknowledged : List (Nat × Status)} {config : Text → Section}
    {place : Nat} : Decidable (spared recipe acknowledged config place) := by
  unfold spared
  infer_instance

instance (h : Host) (e : Event) : Decidable (settles h e) := by
  unfold settles
  split <;> infer_instance

/-- The task at a place has been completed or passed over in this life of the daemon. -/
def passed (m : Snapshot) (place : Nat) : Prop :=
  place < m.past.length ∨
    place = m.past.length ∧ ∃ task ∈ m.tasks.head?, task.state = .completed ∨ task.state = .next

/-- The tasks of the recipe by their ids, and whether they were finished before. -/
def roll (m : Snapshot) : List (Text × Bool) :=
  (m.past ++ m.tasks).map fun task => (task.taskId, task.finished)

/-- What the tasks, the message queue and the recipe say of the tasks that have
reached `TASK_COMPLETED`. -/
structure Orderly (m : Snapshot) (recipe : List TaskXml) (queued acknowledged : List (Nat × Status))
    (notes : List Note) : Prop where
  listed : roll m = [] ∨ (roll m).map Prod.fst = recipe.map TaskXml.id
  finished : ∀ place entry, (roll m)[place]? = some entry → settled acknowledged place →
    passed m place ∨ entry.2 = true
  queued : ∀ entry ∈ queued, passed m entry.1
  reached : ∀ note ∈ notes, note.done = .reached →
    passed m note.place ∨ spared recipe acknowledged m.config note.place
  current : ∀ note ∈ notes, note.done = .reached → note.place = m.past.length →
    ∀ task ∈ m.tasks.head?, working task.state = false

section
variable {m n : Snapshot} {did : Option Effect} {source : Option Source} {active : Source}
  {e : Server.Event} {w : World} {task task' : Task} {rest : List Task} {next : Option Source}
  {config config' : Text → Section} {cancelled : Bool} {aborted : StateAborted}
  {recipe : List TaskXml} {queued acknowledged : List (Nat × Status)} {notes : List Note}
  {taskId : Text} {place : Nat}

private theorem deed_finished
    (deed : Deed config cancelled aborted w did active task task' config' next) :
    task'.finished = task.finished := by
  cases deed <;> rfl

/-- No deed takes up a task that is completed. -/
theorem deed_done (deed : Deed config cancelled aborted w did active task task' config' next)
    (done : task.state = .completed ∨ task.state = .next) : task'.state = task.state := by
  cases deed with
  | keep => rfl
  | fail busy => rcases done with state | state <;> simp [state] at busy
  | _ => simp_all

/-- A task that does not work is taken up by `TASK_IDLE` only. -/
theorem deed_rests (deed : Deed config cancelled aborted w did active task task' config' next)
    (rests : working task.state = false)
    (known : task.state = .idle → task.finished = true ∨ (config task.taskId).localwatchdog = true) :
    working task'.state = false := by
  cases deed with
  | keep => exact rests
  | resume idle read due flag =>
    have taken := known idle
    simp [due, flag] at taken
  | begin idle read due flag =>
    have taken := known idle
    simp [due, flag] at taken
  | fetched fetch => simp [fetch, working] at rests
  | prepare parse => simp [parse, working] at rests
  | described parse => simp [parse, working] at rests
  | roles refresh => simp [refresh, working] at rests
  | environment env => simp [env, working] at rests
  | post watchdog => simp [watchdog, working] at rests
  | unposted watchdog => simp [watchdog, working] at rests
  | uninstalled dependencies => simp [dependencies, working] at rests
  | install dependencies => simp [dependencies, working] at rests
  | installed dependencies => simp [dependencies, working] at rests
  | launch run => simp [run, working] at rests
  | _ => rfl

private theorem stride_localwatchdog (stride : Stride source e did m n) (kept : did ≠ some .report)
    (flag : (m.config taskId).localwatchdog = true) : (n.config taskId).localwatchdog = true := by
  cases stride with
  | work event here current turn deed => exact deed_localwatchdog deed flag
  | report => exact absurd rfl kept
  | _ => exact flag

private theorem marked_mono (mono : ∀ taskId, (config taskId).localwatchdog = true →
    (config' taskId).localwatchdog = true) (here : marked recipe config place) :
    marked recipe config' place := by
  obtain ⟨xml, there, flag, first⟩ := here
  exact ⟨xml, there, mono _ flag, first⟩

private theorem spared_mono (mono : ∀ taskId, (config taskId).localwatchdog = true →
    (config' taskId).localwatchdog = true) (here : spared recipe acknowledged config place) :
    spared recipe acknowledged config' place :=
  here.imp id (marked_mono mono)

/-- The roll is the one of the recipe that was parsed. -/
theorem stride_roll (staged : Staged m) (stride : Stride source e did m n) :
    roll n = roll m ∨ ∃ id w recipeId xmls, e = .dispatch id w ∧ w.recipe = some (recipeId, xmls) ∧
      n.past = [] ∧ n.tasks = xmls.map parseTask := by
  cases stride with
  | parse event parsed recipe =>
    exact .inr ⟨_, _, _, _, event, recipe, (staged.before (by rw [parsed]; rfl)).2.1, rfl⟩
  | work event here current turn deed => simp [roll, current, deed_taskId deed, deed_finished deed]
  | report event here current => simp [roll, current]
  | advance here current => simp [roll, current]
  | finish here current => simp [roll, current]
  | results current => simp [roll, current]
  | adjust event request asked live current =>
    left
    simp only [roll, current, List.map_append, List.map_cons]
    congr 2
    exact Prod.ext adjustWatchdog_alike.taskId adjustWatchdog_alike.finished
  | _ => exact .inl rfl

private theorem passed_current (current : m.tasks = task :: rest) : passed m place ↔
    place < m.past.length ∨ place = m.past.length ∧ (task.state = .completed ∨ task.state = .next) := by
  simp [passed, current]

/-- A task that was passed stays so. -/
theorem stride_passed (staged : Staged m) (stride : Stride source e did m n) (before : passed m place) :
    passed n place := by
  cases stride with
  | parse event parsed =>
    obtain ⟨tasks, past, -⟩ := staged.before (by rw [parsed]; rfl)
    simp [passed, tasks, past] at before
  | work event here current turn deed =>
    rw [passed_current current] at before
    rw [passed_current rfl]
    exact before.imp id (And.imp_right fun done => by rwa [deed_done deed done])
  | report => exact before.imp id (And.imp_right fun _ => ⟨_, rfl, .inr rfl⟩)
  | advance =>
    refine .inl ?_
    rcases before with past | ⟨here, -⟩ <;> simp <;> omega
  | finish =>
    refine .inl ?_
    rcases before with past | ⟨here, -⟩ <;> simp <;> omega
  | results current =>
    rw [passed_current current] at before
    rwa [passed_current rfl]
  | adjust event request asked live current =>
    rw [passed_current current] at before
    rwa [passed_current rfl, adjustWatchdog_alike.state]
  | _ => exact before

/-- A task whose final status is queued was passed. -/
theorem stride_reported (stride : Stride source e (some .report) m n) : passed n m.past.length := by
  obtain ⟨id, w, task, rest, -, -, -, past, next, -⟩ := stride_report stride
  obtain ⟨task', head, next⟩ := Option.map_eq_some_iff.mp next
  exact .inr ⟨by rw [past], task', head, .inr next⟩

/-- A task that reaches `TASK_COMPLETED` is in that state. -/
theorem stride_reached (stride : Stride source e (some .reach) m n) :
    n.past = m.past ∧ ∃ task ∈ n.tasks.head?, task.state = .completed := by
  obtain ⟨w, active, task, rest, task', next, -, -, past, changed, deed⟩ := stride_deed stride (by simp)
  exact ⟨past, task', by simp [changed], deed_effect deed⟩

/-- What is fetched or started is a task that works. -/
theorem stride_starts {effect : Effect} (stride : Stride source e (some effect) m n)
    (starting : effect = .fetch ∨ effect = .launch) : ∃ task ∈ m.tasks.head?, working task.state = true := by
  obtain ⟨w, active, task, rest, task', next, current, -, -, -, deed⟩ :=
    stride_deed stride (by rcases starting with rfl | rfl <;> simp)
  refine ⟨task, by simp [current], ?_⟩
  have due := deed_effect deed
  rcases starting with rfl | rfl
  · rw [show task.state = .fetch from due]
    rfl
  · rw [show task.state = .run from due.1]
    rfl

/-- What is noted is about the current task. -/
theorem noted_place {env : List Text} {note : Note} (member : note ∈ noted m env e did) :
    note.place = m.past.length ∧ (note.done = .reached → did = some .reach) ∧
      (starts note.done = true → did = some .fetch ∨ did = some .launch) := by
  obtain ⟨effect, task, rfl, -, here, -, doing⟩ := noted_spec member
  refine ⟨here, fun reached => ?_, fun starting => ?_⟩
  · rw [reached] at doing
    cases effect <;> cases doing
    rfl
  · cases effect <;> simp [doneBy] at doing <;> simp [← doing, starts] at starting ⊢

/-- The current task is the one of its place in the recipe. -/
theorem listed_current (listed : roll m = [] ∨ (roll m).map Prod.fst = recipe.map TaskXml.id)
    (current : m.tasks = task :: rest) :
    recipe[m.past.length]?.map TaskXml.id = some task.taskId := by
  rcases listed with none | listed
  · simp [roll, current] at none
  · have here := congrArg (fun ids => ids[m.past.length]?) listed
    simpa [roll, current] using here.symm

/-- A task that has reached `TASK_COMPLETED` before and is in `TASK_IDLE` is passed over. -/
theorem Orderly.known (orderly : Orderly m recipe queued acknowledged notes)
    (current : m.tasks = task :: rest) {note : Note} (member : note ∈ notes) (reached : note.done = .reached)
    (here : note.place = m.past.length) (idle : task.state = .idle) :
    task.finished = true ∨ (m.config task.taskId).localwatchdog = true := by
  have pending : ¬passed m m.past.length := by simp [passed, current, idle]
  have known := orderly.reached note member reached
  rw [here] at known
  rcases known.resolve_left pending with acknowledged | ⟨xml, there, flag, -⟩
  · left
    refine (orderly.finished m.past.length (task.taskId, task.finished) ?_ acknowledged).resolve_left pending
    simp [roll, current]
  · right
    have own := listed_current orderly.listed current
    rw [Option.mem_def.mp there] at own
    have own : xml.id = task.taskId := Option.some.inj own
    exact own ▸ flag

/-- A mark is lost with its section only, and then the task was passed. -/
theorem Orderly.stride_marked (orderly : Orderly m recipe queued acknowledged notes)
    (stride : Stride source e did m n) (before : ¬passed n place) (here : marked recipe m.config place) :
    marked recipe n.config place := by
  by_cases report : did = some .report
  · subst report
    obtain ⟨id, w, task, rest, -, current, -, past, -, config⟩ := stride_report stride
    obtain ⟨xml, there, flag, first⟩ := here
    have later : m.past.length < place := by
      by_contra early
      rcases Nat.lt_or_eq_of_le (Nat.le_of_not_lt early) with done | rfl
      · exact before (.inl (by rwa [past]))
      · exact before (stride_reported stride)
    have other : xml.id ≠ task.taskId := fun same =>
      first _ later (same ▸ listed_current orderly.listed current)
    refine ⟨xml, there, ?_, first⟩
    rwa [config, written_apply, if_neg fun both => other both.2]
  · exact marked_mono (fun _ => stride_localwatchdog stride report) here

/-- The recipe that the lab controller gives has the ids of the tasks. -/
theorem recipeXml_ids : (recipeXml recipe acknowledged).map TaskXml.id = recipe.map TaskXml.id := by
  refine List.ext_getElem? fun place => ?_
  simp only [recipeXml, List.getElem?_map, List.getElem?_mapIdx, Option.map_map]
  rfl

/-- A task whose final status is acknowledged is finished. -/
theorem recipeXml_finished (done : settled acknowledged place) {xml : TaskXml}
    (there : (recipeXml recipe acknowledged)[place]? = some xml) : (parseTask xml).finished = true := by
  obtain ⟨status, known⟩ := Option.isSome_iff_exists.mp done
  simp only [recipeXml, List.getElem?_mapIdx, known, Option.elim_some] at there
  obtain ⟨own, -, rfl⟩ := Option.map_eq_some_iff.mp there
  simp only [parseTask, finalStatus]
  split <;> simp

/-- A task that has reached `TASK_COMPLETED` before does not work when it is the current
one again. -/
theorem Orderly.stride_current (orderly : Orderly m recipe queued acknowledged notes) (staged : Staged m)
    (stride : Stride source e did m n) {note : Note} (member : note ∈ notes)
    (reached : note.done = .reached) (here : note.place = n.past.length) :
    ∀ task ∈ n.tasks.head?, working task.state = false := by
  have rests := orderly.current note member reached
  intro task head
  cases stride_origin staged stride task head with
  | fresh idle => rw [idle]; rfl
  | work event _ current turn deed left kept =>
    rw [kept.1] at here
    exact deed_rests deed (rests here _ (congrArg List.head? current))
      (orderly.known current member reached here)
  | report done => rw [done]; rfl
  | same current alike quiet kept =>
    rw [kept.1] at here
    rw [alike.state]
    exact rests here _ (congrArg List.head? current)

/-- The tasks that were just parsed are those of the recipe. -/
theorem roll_parsed {xmls : List TaskXml} (past : n.past = []) (tasks : n.tasks = xmls.map parseTask) :
    roll n = xmls.map fun xml => (xml.id, (parseTask xml).finished) := by
  rw [roll, past, tasks, List.nil_append, List.map_map]
  exact List.map_congr_left fun xml _ => rfl

private theorem stride_orderly {env : List Text} {added : List (Nat × Status)} (staged : Staged m)
    (orderly : Orderly m recipe queued acknowledged notes) (stride : Stride source e did m n)
    (given : ∀ id w, e = .dispatch id w → ∀ answer ∈ w.recipe, answer.2 = recipeXml recipe acknowledged)
    (own : ∀ entry ∈ added, did = some .report ∧ entry.1 = m.past.length) :
    Orderly n recipe (queued ++ added) acknowledged ((noted m env e did).toList ++ notes) := by
  have later {place : Nat} : passed m place → passed n place := stride_passed staged stride
  have fresh {note : Note} (member : note ∈ noted m env e did) (reached : note.done = .reached) :
      note.place = n.past.length ∧ ∃ task ∈ n.tasks.head?, task.state = .completed := by
    obtain ⟨here, reach, -⟩ := noted_place member
    obtain ⟨past, task, head, completed⟩ := stride_reached (reach reached ▸ stride)
    exact ⟨by rw [here, past], task, head, completed⟩
  have split {note : Note} (member : note ∈ (noted m env e did).toList ++ notes) :
      note ∈ noted m env e did ∨ note ∈ notes := by
    simpa using member
  have parsed := stride_roll staged stride
  refine ⟨?_, ?_, ?_, ?_, ?_⟩
  · rcases parsed with same | ⟨id, w, recipeId, xmls, event, answer, past, tasks⟩
    · rw [same]
      exact orderly.listed
    · have given : xmls = recipeXml recipe acknowledged := given id w event _ answer
      right
      rw [roll_parsed past tasks, List.map_map, ← recipeXml_ids, ← given]
      rfl
  · intro place entry there done
    rcases parsed with same | ⟨id, w, recipeId, xmls, event, answer, past, tasks⟩
    · rw [same] at there
      exact (orderly.finished place entry there done).imp later id
    · have given : xmls = recipeXml recipe acknowledged := given id w event _ answer
      right
      rw [roll_parsed past tasks, List.getElem?_map, given] at there
      obtain ⟨xml, listed, rfl⟩ := Option.map_eq_some_iff.mp there
      exact recipeXml_finished done listed
  · intro entry member
    rcases List.mem_append.mp member with old | new
    · exact later (orderly.queued entry old)
    · obtain ⟨rfl, here⟩ := own entry new
      rw [here]
      exact stride_reported stride
  · intro note member reached
    rcases split member with new | old
    · obtain ⟨here, task, head, completed⟩ := fresh new reached
      exact .inl (.inr ⟨here, task, head, .inl completed⟩)
    · by_cases now : passed n note.place
      · exact .inl now
      · have known := (orderly.reached note old reached).resolve_left fun before => now (later before)
        exact .inr (known.imp id (orderly.stride_marked stride now))
  · intro note member reached here task head
    rcases split member with new | old
    · obtain ⟨-, task', head', completed⟩ := fresh new reached
      rw [Option.mem_unique head head', completed]
      rfl
    · exact orderly.stride_current staged stride old reached here task head

/-- What is fetched or started is not a task that has reached `TASK_COMPLETED`. -/
theorem noted_once {env : List Text} (orderly : Orderly m recipe queued acknowledged notes)
    (stride : Stride source e did m n) : ∀ note ∈ noted m env e did, Once notes note := by
  intro note member starting before old reached same
  obtain ⟨here, -, starts⟩ := noted_place member
  have rests := orderly.current before old reached (same.trans here)
  obtain ⟨task, head, works⟩ : ∃ task ∈ m.tasks.head?, working task.state = true := by
    rcases starts starting with rfl | rfl
    · exact stride_starts stride (.inl rfl)
    · exact stride_starts stride (.inr rfl)
  rw [rests task head] at works
  cases works

end

variable {h k : Host} {e : Event} {event : Server.Event} {settings : Env.Settings}

/-- The recipe of the lab controller and its acknowledgements are its own, and the
daemon only adds to the message queue. -/
theorem serve_queue (served : serve h event settings = some k) :
    k.recipe = h.recipe ∧ k.acknowledged = h.acknowledged ∧
      ∃ added, k.queued = h.queued ++ added ∧
        ∀ entry ∈ added, acts h.daemon event = some .report ∧ entry.1 = place h.daemon := by
  obtain ⟨daemon, -, rfl⟩ := Option.map_eq_some_iff.mp served
  dsimp only
  split
  · rename_i effect task did head
    cases effect with
    | report => exact ⟨rfl, rfl, _, rfl, by simp [did]⟩
    | _ => exact ⟨rfl, rfl, [], (List.append_nil _).symm, by simp⟩
  · exact ⟨rfl, rfl, [], (List.append_nil _).symm, by simp⟩

/-- What holds of a host over restarts. -/
structure Keeping (h : Host) : Prop where
  sound : Sound (view h.daemon)
  orderly : Orderly (snapshot h.daemon) h.recipe h.queued h.acknowledged h.notes
  always : Always Once h.notes

private theorem serve_keeping (keeping : Keeping h)
    (served : serve h (h.event event) settings = some k) :
    Keeping k := by
  obtain ⟨sound, stride, notes⟩ := serve_spec keeping.sound served
  obtain ⟨recipe, acknowledged, added, queued, own⟩ := serve_queue served
  refine ⟨sound, ?_, ?_⟩
  · rw [recipe, acknowledged, queued, notes]
    refine stride_orderly (staged keeping.sound) keeping.orderly stride ?_ own
    intro id w dispatch answer given
    cases event with
    | request => cases dispatch
    | dispatch id w =>
      cases dispatch
      obtain ⟨own, -, rfl⟩ := Option.map_eq_some_iff.mp given
      rfl
  · rw [notes]
    exact always_toList keeping.always (noted_once keeping.orderly stride)

/-- After a restart the tasks are those of the config file and of the recipe. -/
theorem restarted_keeping {config : Text → Section} (always : Always Once h.notes)
    (safe : ∀ note ∈ h.notes, note.done = .reached →
      spared h.recipe h.acknowledged config note.place) : Keeping (restarted h config) where
  sound := start_sound
  orderly := ⟨.inl rfl, by simp [restarted, snapshot, Server.start, roll], by simp [restarted],
    fun note member reached => .inr (safe note member reached), by simp [restarted, snapshot, Server.start]⟩
  always := always

/-- A heartbeat changes nothing but the remaining time. -/
theorem beaten_orderly {m : Snapshot} {task : Task} {rest : List Task} {recipe : List TaskXml}
    {queued acknowledged : List (Nat × Status)} {notes : List Note} {left : Int} {writes : Bool}
    {place : Nat} (orderly : Orderly m recipe queued acknowledged notes) (current : m.tasks = task :: rest) :
    Orderly (beaten m task rest left writes) recipe queued acknowledged
      ((beatNote place task.taskId left writes).toList ++ notes) := by
  have listed : roll (beaten m task rest left writes) = roll m := by simp [roll, beaten, current]
  have passing (place : Nat) : passed (beaten m task rest left writes) place ↔ passed m place := by
    simp [passed, beaten, current]
  have old {note : Note} (reached : note.done = .reached)
      (member : note ∈ (beatNote place task.taskId left writes).toList ++ notes) : note ∈ notes := by
    apply (List.mem_append.mp member).resolve_left
    intro new
    rw [beatNote_done (Option.mem_toList.mp new)] at reached
    cases reached
  refine ⟨?_, ?_, ?_, ?_, ?_⟩
  · rw [listed]
    exact orderly.listed
  · intro place entry there done
    rw [passing]
    exact orderly.finished place entry (listed ▸ there) done
  · intro entry member
    exact (passing _).mpr (orderly.queued entry member)
  · intro note member reached
    refine (orderly.reached note (old reached member) reached).imp (passing _).mpr (spared_mono ?_)
    intro taskId flag
    simpa [beaten] using flag
  · rintro note member reached here _ ⟨⟩
    exact orderly.current note (old reached member) reached here task (by simp [current])

private theorem settled_cons {acknowledged : List (Nat × Status)} {place other : Nat} {status : Status} :
    settled ((place, status) :: acknowledged) other ↔ other = place ∨ settled acknowledged other := by
  unfold settled
  rw [List.lookup_cons]
  by_cases same : other = place
  · simp [same]
  · simp [beq_eq_false_iff_ne.mpr same, same]

/-- A final status that is acknowledged was queued, and its task was passed. -/
theorem acknowledged_orderly {m : Snapshot} {recipe : List TaskXml}
    {queued acknowledged : List (Nat × Status)} {notes : List Note} {place : Nat} {status : Status}
    (member : (place, status) ∈ queued)
    (orderly : Orderly m recipe queued acknowledged notes) :
    Orderly m recipe (queued.erase (place, status)) ((place, status) :: acknowledged) notes where
  listed := orderly.listed
  finished := by
    intro other entry there done
    rcases settled_cons.mp done with rfl | before
    · exact .inl (orderly.queued _ member)
    · exact orderly.finished other entry there before
  queued := fun entry left => orderly.queued entry (List.mem_of_mem_erase left)
  reached := fun note noted reached => (orderly.reached note noted reached).imp_right
    (Or.imp_left fun before => settled_cons.mpr (.inr before))
  current := orderly.current

private theorem step_keeping (keeping : Keeping h) (settled : settles h e)
    (stepped : step h e = some k) :
    Keeping k := by
  have sound := step_sound keeping.sound stepped
  cases e with
  | serve event settings => exact serve_keeping keeping stepped
  | heartbeat now writes =>
    obtain ⟨task, rest, tasks, -, shown, notes, recipe, queued, acknowledged, -⟩ := heartbeat_spec stepped
    refine ⟨sound, ?_, ?_⟩
    · rw [shown, notes, recipe, queued, acknowledged]
      exact beaten_orderly keeping.orderly tasks
    · rw [notes]
      apply always_toList keeping.always
      intro note member
      rw [beatNote_done member]
      nofun
  | acknowledge place status =>
    obtain ⟨queued, rfl⟩ := acknowledge_spec stepped
    exact ⟨sound, acknowledged_orderly queued keeping.orderly, keeping.always⟩
  | restart =>
    cases stepped
    exact restarted_keeping keeping.always settled
  | interrupt id w settings =>
    obtain ⟨task, between, head, launch, served, rfl⟩ := interrupt_spec stepped
    obtain ⟨-, stride, notes⟩ := serve_spec keeping.sound served
    obtain ⟨recipe, acknowledged, -⟩ := serve_queue served
    apply restarted_keeping (serve_keeping keeping served).always
    intro note member reached
    rw [notes, launch] at member
    have old : note ∈ h.notes := by
      apply (List.mem_append.mp member).resolve_left
      intro new
      obtain ⟨-, reach, -⟩ := noted_place (Option.mem_toList.mp new)
      cases reach reached
    rw [recipe, acknowledged]
    refine spared_mono ?_ (settled note old reached)
    intro taskId flag
    rw [halfRan_localwatchdog]
    exact stride_localwatchdog stride (by simp [launch]) flag

variable {stdin : Bool} {recipeId : Text} {recipe : List TaskXml} {events : List Event}

/-- **A task that has reached `TASK_COMPLETED` is never fetched and its entry point never
started again**, as long as the daemon does not stop while a task that has reached it is
neither acknowledged nor marked in the config file. -/
theorem completed_runs_once
    (ran : run (only step settles) (start stdin recipeId recipe) events = some h) :
    Always Once h.notes := by
  refine (run_keeps (I := Keeping) ?_ ⟨start_sound, ⟨.inl rfl, ?_, ?_, ?_, ?_⟩, always_nil⟩ ran).always
  · intro h e k keeping stepped
    obtain ⟨settled, stepped⟩ := only_eq_some.mp stepped
    exact step_keeping keeping settled stepped
  all_goals simp [start, snapshot, Server.start, roll]

open ActivationProofs (calm)

/-- The first task runs to its end, and its final status is queued. -/
def untilReported : List Event := untilLaunched ++ dispatches (calm []) [16, 17, 18, 18]

/-- The final status is acknowledged, and the daemon is started again. -/
def untilPassed : List Event :=
  .acknowledge 0 .completed :: .restart :: dispatches (calm []) [1, 2, 1, 1, 1, 3, 3]

/-- A task whose final status is acknowledged before the daemon stops is passed over. -/
theorem completed_runs_once_acknowledged :
    ∃ h, run (only step settles) (start false "1".toList oneTask)
        (untilReported ++ untilPassed) = some h ∧
      h.daemon.state = .complete ∧ Always Once h.notes := by
  have shown : (run (only step settles) (start false "1".toList oneTask)
      (untilReported ++ untilPassed)).map (fun h => h.daemon.state) = some .complete := by
    decide +kernel
  obtain ⟨h, ran, complete⟩ := Option.map_eq_some_iff.mp shown
  exact ⟨h, ran, complete, completed_runs_once ran⟩

/-- The daemon stops after the section of a completed task was removed and before its
final status is acknowledged: the task is fetched again. -/
theorem completed_runs_again :
    ∃ h, run step (start false "1".toList oneTask)
        (untilReported ++ .restart :: untilMetadata) = some h ∧ ¬Always Once h.notes := by
  have shown : ((run step (start false "1".toList oneTask)
      (untilReported ++ .restart :: untilMetadata)).map fun h =>
        decide (h.notes.take 1 = [⟨0, "10".toList, .fetched⟩] ∧
          ⟨0, "10".toList, .reached⟩ ∈ h.notes.drop 1)) = some true := by
    decide +kernel
  obtain ⟨h, ran, shown⟩ := Option.map_eq_some_iff.mp shown
  obtain ⟨newest, reached⟩ := of_decide_eq_true shown
  refine ⟨h, ran, fun always => ?_⟩
  rw [← List.take_append_drop 1 h.notes, newest] at always
  exact always.1 rfl _ reached rfl rfl

end Restraint.Completion

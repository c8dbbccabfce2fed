import Restraint.JobEnd
import Restraint.Lib.Trace
import Restraint.LogTransferProofs

/-! The reconnections of a recipe. `remote_process_finish` counts them in `conn_retries` of
`AppData`, and every valid message sets the count back, whichever recipe it is from. Whether a
recipe is reconnected therefore depends on what the others do. The law compares two runs that look
alike to one recipe; it is broken by a run in which another recipe uses up the count. -/
namespace Restraint.Reconnect
open CString (Text gStrsplit)
open Transition
open Restraint.Client ClientLoop ClientLoopProofs
open Restraint.JobEnd (twoRecipes status line)
open LogTransferProofs (taskUrl gStrsplit_taskUrl processPath_status slash_not_mem_of_alnum
  alnum_of_digit)

/-- What counts for the reconnections of a recipe. -/
inductive Sign where
  /-- A valid message came; most of them also start the job. -/
  | heard (starts : Bool)
  | reconnected
  deriving DecidableEq

/-- What a step says about the reconnections of a recipe. -/
def shows (recipe : Text) (s : AppData) : Event → Option Sign
  | .message id line =>
    if id = recipe then (callback line).map fun _ => .heard (starts line) else none
  | .finish id _ => if id = recipe ∧ retries s id then some .reconnected else none
  | _ => none

/-- The messages and disconnections of a recipe, and the timeout of its watchdog. -/
def own (recipe : Text) : Event → Bool
  | .message id _ => id = recipe
  | .finish id _ => id = recipe
  | .watchdogTimeout id => id = recipe
  | _ => false

/-- How often a run reconnects a recipe. -/
def reconnections (recipe : Text) (s : AppData) (es : List Event) : Nat :=
  (trace step (shows recipe) s es).count .reconnected

/-- The reconnections since the last valid message. -/
def consecutive (seen : List Sign) : Nat :=
  seen.foldl (fun count sign => match sign with | .heard _ => 0 | .reconnected => count + 1) 0

/-- The recipe has a budget of its own: how often it is reconnected depends on what comes from
it, and it is reconnected as long as it has started, is neither finished nor cancelled, and
has been reconnected less than `max_retries` times since its last valid message. -/
structure Law (job : Job) (recipe : Text) : Prop where
  same : ∀ es fs s t, run step job.start es = some s → run step job.start fs = some t →
    es.filter (own recipe) = fs.filter (own recipe) →
    reconnections recipe job.start es = reconnections recipe job.start fs
  budget : ∀ es s error t, run step job.start es = some s → step s (.finish recipe error) = some t →
    (retries s recipe ↔ .heard true ∈ trace step (shows recipe) job.start es ∧
      tasksFinished (s.recipes recipe).data = false ∧ (s.recipes recipe).cancelled = false ∧
      consecutive (trace step (shows recipe) job.start es) < job.maxRetries)

variable {job : Job} {s s' t t' : AppData} {e : Event} {es fs : List Event} {id recipe : Text}
variable {seen : List Sign}

@[simp] theorem consecutive_nil : consecutive [] = 0 := rfl

@[simp] theorem consecutive_heard {starts : Bool} : consecutive (seen ++ [.heard starts]) = 0 := by
  simp [consecutive]

@[simp] theorem consecutive_reconnected :
    consecutive (seen ++ [.reconnected]) = consecutive seen + 1 := by
  simp [consecutive]

private theorem retries_iff :
    retries s id ↔ s.started = true ∧ tasksFinished (s.recipes id).data = false ∧
    (s.recipes id).cancelled = false ∧ s.connRetries < s.maxRetries := by
  simp [retries, and_assoc]

/-! ## No retries -/

/-- A client that may not retry does not. -/
theorem retries_zero (none : s.maxRetries = 0) : retries s id = false := by
  simp [retries, none]

private theorem law_of_zero (none : job.maxRetries = 0) : Law job recipe := by
  have never {es : List Event} {s : AppData} (ran : run step job.start es = some s) (id : Text) :
      retries s id = false := retries_zero ((run_frame ran).2.trans none)
  have silent {es : List Event} {s : AppData} (ran : run step job.start es = some s) :
      reconnections recipe job.start es = 0 := by
    have kept := run_keeps_trace (shows recipe)
      (I := fun seen (s : AppData) => s.maxRetries = 0 ∧ seen.count .reconnected = 0) ?_
      ⟨none, rfl⟩ ran
    · exact kept.2
    · rintro seen s e t ⟨zero, clean⟩ taken
      refine ⟨(step_frame taken).2.1.trans zero, ?_⟩
      rw [List.count_append, clean, Nat.zero_add]
      cases e with
      | message id line =>
        cases found : callback line <;> by_cases mine : id = recipe <;> simp [shows, found, mine]
      | finish id error => simp [shows, retries_zero zero]
      | _ => rfl
  refine ⟨fun es fs s t ran ran' _ => (silent ran).trans (silent ran').symm, ?_⟩
  intro es s error t ran _
  simp [never ran, none]

/-! ## A job with one recipe -/

/-- Two states that a recipe alone cannot tell apart but by its connection. -/
structure Alike (recipe : Text) (s t : AppData) : Prop where
  started : s.started = t.started
  connRetries : s.connRetries = t.connRetries
  maxRetries : s.maxRetries = t.maxRetries
  data : (s.recipes recipe).data = (t.recipes recipe).data
  cancelled : (s.recipes recipe).cancelled = (t.recipes recipe).cancelled

theorem Alike.refl (s : AppData) : Alike recipe s s := ⟨rfl, rfl, rfl, rfl, rfl⟩

theorem Alike.symm (alike : Alike recipe s t) : Alike recipe t s :=
  ⟨alike.started.symm, alike.connRetries.symm, alike.maxRetries.symm, alike.data.symm,
    alike.cancelled.symm⟩

theorem Alike.trans {u : AppData} (first : Alike recipe s t) (second : Alike recipe t u) :
    Alike recipe s u where
  started := first.started.trans second.started
  connRetries := first.connRetries.trans second.connRetries
  maxRetries := first.maxRetries.trans second.maxRetries
  data := first.data.trans second.data
  cancelled := first.cancelled.trans second.cancelled

theorem Alike.retries (alike : Alike recipe s t) : retries s recipe = retries t recipe := by
  simp only [ClientLoop.retries, alike.started, alike.connRetries, alike.maxRetries, alike.data,
    alike.cancelled]

/-- A step on an event of the client's own. -/
theorem step_silent (sole : ∀ id ∈ s.ids, id = recipe) (taken : step s e = some t)
    (foreign : own recipe e = false) : Alike recipe s t ∧ shows recipe s e = none := by
  obtain ⟨-, enabled, took⟩ := step_eq_some.mp taken
  cases e with
  | connect id =>
    obtain rfl := sole id enabled.1
    cases took
    refine ⟨⟨rfl, rfl, rfl, ?_, ?_⟩, rfl⟩ <;> rw [runRecipeHandler, setRecipe_self]
  | message id line => simp [own, sole id enabled.1] at foreign
  | finish id error => simp [own, sole id enabled.1] at foreign
  | watchdogTimeout id => simp [own, sole id enabled.1] at foreign
  | quit =>
    cases took
    exact ⟨⟨rfl, rfl, rfl, rfl, rfl⟩, rfl⟩

/-- A step on an event of the recipe does the same in both states. -/
theorem step_alike (sole : ∀ id ∈ s.ids, id = recipe) (alike : Alike recipe s s')
    (taken : step s e = some t) (taken' : step s' e = some t') :
    Alike recipe t t' ∧ shows recipe s e = shows recipe s' e := by
  obtain ⟨-, enabled, took⟩ := step_eq_some.mp taken
  obtain ⟨-, -, took'⟩ := step_eq_some.mp taken'
  cases e with
  | connect id =>
    obtain rfl := sole id enabled.1
    cases took
    cases took'
    refine ⟨⟨alike.started, alike.connRetries, alike.maxRetries, ?_, ?_⟩, rfl⟩
    · simpa [runRecipeHandler] using alike.data
    · simpa [runRecipeHandler] using alike.cancelled
  | message id line =>
    obtain rfl := sole id enabled.1
    obtain ⟨data, came, rfl⟩ := Option.map_eq_some_iff.mp took
    obtain ⟨data', came', rfl⟩ := Option.map_eq_some_iff.mp took'
    rw [alike.started, alike.connRetries, alike.data, came'] at came
    cases came
    refine ⟨⟨rfl, rfl, alike.maxRetries, ?_, ?_⟩, rfl⟩
    · rw [setRecipe_self, setRecipe_self]
    · simpa using alike.cancelled
  | finish id error =>
    obtain rfl := sole id enabled.1
    cases took
    cases took'
    simp only [shows, true_and, remoteProcessFinish, alike.retries]
    split
    · refine ⟨⟨alike.started, congrArg (· + 1) alike.connRetries, alike.maxRetries, ?_, ?_⟩, trivial⟩
      · simpa using alike.data
      · simpa using alike.cancelled
    · refine ⟨?_, trivial⟩
      rw [recipeFinish_eq, recipeFinish_eq]
      refine ⟨alike.started, alike.connRetries, alike.maxRetries, ?_, ?_⟩
      · simpa [finishedRecipe] using congrArg abortUnended alike.data
      · simpa [finishedRecipe] using alike.cancelled
  | watchdogTimeout id =>
    obtain rfl := sole id enabled.1
    cases took
    cases took'
    refine ⟨⟨alike.started, alike.connRetries, alike.maxRetries, ?_, ?_⟩, rfl⟩
    · simp [watchdogTimeoutCb, alike.data]
    · simp [watchdogTimeoutCb]
  | quit =>
    cases took
    cases took'
    exact ⟨⟨alike.started, alike.connRetries, alike.maxRetries, alike.data, alike.cancelled⟩, rfl⟩

/-- A run without events of the recipe. -/
theorem run_silent (sole : ∀ id ∈ s.ids, id = recipe) (ran : run step s es = some t)
    (foreign : ∀ e ∈ es, own recipe e = false) :
    Alike recipe s t ∧ trace step (shows recipe) s es = [] := by
  induction es generalizing s with
  | nil => exact ⟨run_nil.mp ran ▸ .refl s, rfl⟩
  | cons e es ih =>
    obtain ⟨next, taken, rest⟩ := run_cons.mp ran
    obtain ⟨alike, silent⟩ := step_silent sole taken (foreign e List.mem_cons_self)
    obtain ⟨onward, quiet⟩ := ih ((step_frame taken).1 ▸ sole) rest
      fun e member => foreign e (List.mem_cons_of_mem _ member)
    exact ⟨alike.trans onward, by rw [trace_cons taken, silent, quiet]; rfl⟩

/-- Two runs with the same events of the only recipe show the same. -/
theorem trace_alike (sole : ∀ id ∈ s.ids, id = recipe) (sole' : ∀ id ∈ s'.ids, id = recipe)
    (alike : Alike recipe s s') (ran : run step s es = some t) (ran' : run step s' fs = some t')
    (same : es.filter (own recipe) = fs.filter (own recipe)) :
    trace step (shows recipe) s es = trace step (shows recipe) s' fs := by
  induction es generalizing s s' fs with
  | nil =>
    have foreign : ∀ e ∈ fs, own recipe e = false := by
      simpa using List.filter_eq_nil_iff.mp same.symm
    rw [(run_silent sole' ran' foreign).2, trace_nil]
  | cons e es ih =>
    obtain ⟨next, taken, rest⟩ := run_cons.mp ran
    have sole_next : ∀ id ∈ next.ids, id = recipe := (step_frame taken).1 ▸ sole
    cases mine : own recipe e with
    | false =>
      obtain ⟨moved, silent⟩ := step_silent sole taken mine
      rw [List.filter_cons_of_neg (by simp [mine])] at same
      rw [trace_cons taken, silent]
      exact ih sole_next sole' (moved.symm.trans alike) rest ran' same
    | true =>
      rw [List.filter_cons_of_pos mine] at same
      obtain ⟨before, after, rfl, foreign, -, last⟩ := List.filter_eq_cons_iff.mp same.symm
      obtain ⟨middle, reached, onward⟩ := run_append.mp ran'
      obtain ⟨next', taken', rest'⟩ := run_cons.mp onward
      obtain ⟨moved, quiet⟩ := run_silent sole' reached (by simpa using foreign)
      have sole_middle : ∀ id ∈ middle.ids, id = recipe := (run_frame reached).1 ▸ sole'
      have sole_next' : ∀ id ∈ next'.ids, id = recipe := (step_frame taken').1 ▸ sole_middle
      obtain ⟨alike_next, sign⟩ := step_alike sole (alike.trans moved) taken taken'
      rw [trace_cons taken, trace_append reached, quiet, trace_cons taken', sign, List.nil_append,
        ih sole_next sole_next' alike_next rest rest' last.symm]

/-- What the shared fields are in a job with one recipe. -/
structure Counted (recipe : Text) (seen : List Sign) (s : AppData) : Prop where
  sole : ∀ id ∈ s.ids, id = recipe
  started : s.started = decide (.heard true ∈ seen)
  connRetries : s.connRetries = consecutive seen

theorem step_counted (counted : Counted recipe seen s) (taken : step s e = some t) :
    Counted recipe (seen ++ (shows recipe s e).toList) t := by
  have sole : ∀ id ∈ t.ids, id = recipe := (step_frame taken).1 ▸ counted.sole
  obtain ⟨-, enabled, took⟩ := step_eq_some.mp taken
  cases e with
  | message id line =>
    obtain rfl := counted.sole id enabled.1
    obtain ⟨data, handled, rfl⟩ := handleLine_eq_some took
    have started := handled.started
    have connRetries := handled.connRetries
    dsimp only at started connRetries
    cases found : callback line with
    | none =>
      refine ⟨sole, ?_, ?_⟩
      · simpa [shows, starts, found, counted.started] using started
      · simpa [shows, found, counted.connRetries] using connRetries
    | some target =>
      refine ⟨sole, ?_, ?_⟩
      · rw [setRecipe_started, started, counted.started]
        cases start : starts line <;> simp [shows, found, start]
      · simpa [shows, found] using connRetries
  | finish id error =>
    obtain rfl := counted.sole id enabled.1
    cases took
    simp only [shows, true_and]
    unfold remoteProcessFinish at sole ⊢
    split <;> rename_i again
    · exact ⟨counted.sole, by simpa using counted.started, by simpa using counted.connRetries⟩
    · rw [Option.toList_none, List.append_nil, recipeFinish_eq]
      exact ⟨counted.sole, counted.started, counted.connRetries⟩
  | _ =>
    cases took
    refine ⟨sole, ?_, ?_⟩ <;>
      simp [shows, runRecipeHandler, watchdogTimeoutCb, counted.started, counted.connRetries]

private theorem law_of_sole (sole : ∀ id ∈ job.ids, id = recipe) : Law job recipe where
  same := fun es fs s t ran ran' same => by
    rw [reconnections, reconnections, trace_alike sole sole (.refl _) ran ran' same]
  budget := by
    intro es s error t ran _
    have counted : Counted recipe (trace step (shows recipe) job.start es) s :=
      run_keeps_trace (shows recipe) (fun _ _ _ _ => step_counted) ⟨sole, rfl, rfl⟩ ran
    rw [retries_iff, counted.started, counted.connRetries, (run_frame ran).2, decide_eq_true_iff]
    rfl

/-! ## A job with another recipe -/

/-- A line that says that a task is running. -/
def runs (taskId : Text) : Line where
  headers := fun name => if name = "rstrnt-path".toList then
    some (.string (taskUrl "1".toList taskId "status".toList)) else none
  body := .object fun name => if name = "status".toList then some (.string "Running".toList) else none

/-- A status without a message is that of the task that the path names. -/
theorem tasksStatusCb_silent {c : RecipeData} {path taskId status : Text} {headers : Text → Option Text}
    {fields : Text → Option Json} (fourth : (gStrsplit path)[4]? = some taskId)
    (known : (c.tasks.any fun other => other.id = taskId) = true)
    (read : jsonToHashtable fields "status".toList = some status)
    (silent : jsonToHashtable fields "message".toList = none) :
    ∃ data, tasksStatusCb c path headers (.object fields) = some data ∧ data.started = true ∧
      data.connRetries = c.connRetries ∧
      data.tasks = c.tasks.map fun task =>
        if task.id = taskId then { task with status := status } else task := by
  simp only [tasksStatusCb, fourth, known, read, silent, Bool.true_eq_false, if_false]
  exact ⟨_, rfl, rfl, rfl, rfl⟩

/-- A task that is running is not finished. -/
theorem handle_runs {c : RecipeData} {task : TaskNode} (member : task ∈ c.tasks)
    (numbered : task.id ≠ [] ∧ ∀ c ∈ task.id, c.isDigit = true) :
    ∃ data, handleMessage c (runs task.id) = some data ∧ data.started = true ∧
      data.connRetries = 0 ∧ tasksFinished data = false := by
  have path : jsonToHashtable (runs task.id).headers "rstrnt-path".toList =
      some (taskUrl "1".toList task.id "status".toList) := by
    simp only [jsonToHashtable, runs, if_true]
  have fourth : (gStrsplit (taskUrl "1".toList task.id "status".toList))[4]? =
      some task.id := by
    rw [gStrsplit_taskUrl (by decide) (slash_not_mem_of_alnum (alnum_of_digit numbered.2))]
    rfl
  have known : (c.tasks.any fun other => other.id = task.id) = true :=
    List.any_eq_true.mpr ⟨task, member, by simp⟩
  have status : jsonToHashtable
      (fun name => if name = "status".toList then some (.string "Running".toList) else none)
      "status".toList = some "Running".toList := by
    simp only [jsonToHashtable, if_true]
  have message : jsonToHashtable
      (fun name => if name = "status".toList then some (.string "Running".toList) else none)
      "message".toList = none := by decide
  have routed : processPath (taskUrl "1".toList task.id "status".toList) = some .tasksStatusCb :=
    processPath_status ⟨by decide, List.all_eq_true.mp (by decide)⟩ numbered
  obtain ⟨data, handled, started, retries, tasks⟩ :=
    tasksStatusCb_silent (c := { c with connRetries := 0 }) fourth known status message
  refine ⟨data, ?_, started, retries, ?_⟩
  · unfold handleMessage
    simp only [path, routed, call]
    exact handled
  · rw [tasksFinished, List.all_eq_false, tasks]
    refine ⟨{ task with status := "Running".toList }, ?_, by simp [taskFinished]⟩
    exact List.mem_map.mpr ⟨task, member, if_pos rfl⟩

/-- Any valid message of a recipe sets back the count for all. -/
theorem handle_start (c : RecipeData) : handleMessage c (line "/start" "" "") =
    some { c with connRetries := 0, started := true } := by
  have path : jsonToHashtable (line "/start" "" "").headers "rstrnt-path".toList =
      some "/start".toList := by simp only [jsonToHashtable, line, if_true]
  have routed : processPath "/start".toList = some .recipeStartCb := by decide +kernel
  unfold handleMessage
  simp only [path, routed, call]

/-- The recipe and another one are connected; the recipe has started, and the client has
reconnected a number of times since. -/
structure Ready (recipe other : Text) (maxRetries count : Nat) (s : AppData) : Prop where
  running : s.running = true
  member : recipe ∈ s.ids ∧ other ∈ s.ids
  connected : (s.recipes recipe).connection = .connected ∧ (s.recipes other).connection = .connected
  unfinished : tasksFinished (s.recipes recipe).data = false
  uncancelled : (s.recipes recipe).cancelled = false
  started : s.started = true
  connRetries : s.connRetries = count
  maxRetries : s.maxRetries = maxRetries

variable {other : Text} {count : Nat}

private theorem reconnections_append (ran : run step s es = some t) : reconnections recipe s (es ++ fs) =
    reconnections recipe s es + reconnections recipe t fs := by
  rw [reconnections, trace_append ran, List.count_append, reconnections, reconnections]

private theorem step_connect (id : Text) (running : s.running = true) (member : id ∈ s.ids)
    (waiting : (s.recipes id).connection = .waiting) :
    step s (.connect id) = some (runRecipeHandler s id) :=
  step_eq_some.mpr ⟨running, ⟨member, waiting⟩, rfl⟩

private theorem step_message (line : Line) (running : s.running = true) (member : id ∈ s.ids)
    (connected : (s.recipes id).connection = .connected) :
    step s (.message id line) = handleLine s id line :=
  if_pos ⟨running, member, connected⟩

/-- One disconnection of the recipe when the client is ready. -/
theorem Ready.finish (ready : Ready recipe other job.maxRetries count s) :
    ∃ t, run step s [.finish recipe none] = some t ∧
      reconnections recipe s [.finish recipe none] = if count < job.maxRetries then 1 else 0 := by
  have taken : step s (.finish recipe none) = some (remoteProcessFinish s recipe none) :=
    step_eq_some.mpr ⟨ready.running, ⟨ready.member.1, ready.connected.1⟩, rfl⟩
  refine ⟨_, run_cons.mpr ⟨_, taken, run_nil.mpr rfl⟩, ?_⟩
  have again : retries s recipe = decide (count < job.maxRetries) := by
    simp [retries, ready.started, ready.unfinished, ready.uncancelled, ready.connRetries,
      ready.maxRetries]
  rw [reconnections, trace_cons taken, trace_nil, shows, again]
  split <;> simp_all

/-- The recipe is disconnected and connected again. -/
theorem Ready.cycle (ready : Ready recipe other job.maxRetries count s) (apart : other ≠ recipe)
    (left : count < job.maxRetries) :
    ∃ t, run step s [.finish recipe none, .connect recipe] = some t ∧
      Ready recipe other job.maxRetries (count + 1) t := by
  have again : retries s recipe = true := retries_iff.mpr
    ⟨ready.started, ready.unfinished, ready.uncancelled, by rwa [ready.connRetries, ready.maxRetries]⟩
  have lost : step s (.finish recipe none) = some (remoteProcessFinish s recipe none) :=
    step_eq_some.mpr ⟨ready.running, ⟨ready.member.1, ready.connected.1⟩, rfl⟩
  rw [remoteProcessFinish, if_pos again] at lost
  have found := step_connect recipe
    (s := { s with connRetries := s.connRetries + 1 }.setRecipe recipe
      { s.recipes recipe with connection := .waiting })
    ready.running ready.member.1 (by rw [setRecipe_self])
  refine ⟨_, run_cons.mpr ⟨_, lost, run_cons.mpr ⟨_, found, run_nil.mpr rfl⟩⟩, ?_⟩
  unfold runRecipeHandler
  refine ⟨ready.running, ready.member, ⟨by rw [setRecipe_self], ?_⟩, ?_, ?_, ready.started, ?_,
    ready.maxRetries⟩
  · rw [setRecipe_other apart, setRecipe_other apart]
    exact ready.connected.2
  · simpa using ready.unfinished
  · simpa using ready.uncancelled
  · simp [ready.connRetries]

/-- The recipe is disconnected and connected again a number of times. -/
def cycles (recipe : Text) : Nat → List Event
  | 0 => []
  | n + 1 => .finish recipe none :: .connect recipe :: cycles recipe n

theorem Ready.cycles {n : Nat} (ready : Ready recipe other job.maxRetries count s)
    (apart : other ≠ recipe) (left : count + n ≤ job.maxRetries) :
    ∃ t, run step s (cycles recipe n) = some t ∧ Ready recipe other job.maxRetries (count + n) t := by
  induction n generalizing s count with
  | zero => exact ⟨s, run_nil.mpr rfl, ready⟩
  | succ n ih =>
    obtain ⟨next, first, again⟩ := ready.cycle apart (by omega)
    obtain ⟨t, rest, last⟩ := ih again (by omega)
    refine ⟨t, run_append.mpr ⟨next, first, rest⟩, ?_⟩
    rwa [Nat.add_right_comm] at last

/-- A valid message of the other recipe gives the recipe a new budget. -/
theorem Ready.refill (ready : Ready recipe other job.maxRetries count s) (apart : other ≠ recipe) :
    ∃ t, run step s [.message other (line "/start" "" "")] = some t ∧
      Ready recipe other job.maxRetries 0 t := by
  have handled := handle_start
    { (s.recipes other).data with started := s.started, connRetries := s.connRetries }
  have taken := step_message (line "/start" "" "") ready.running ready.member.2
    ready.connected.2
  rw [handleLine, handled, Option.map_some] at taken
  refine ⟨_, run_cons.mpr ⟨_, taken, run_nil.mpr rfl⟩, ?_⟩
  have same (recipe' : Recipe) (s' : AppData) :
      (s'.setRecipe other recipe').recipes recipe = s'.recipes recipe :=
    setRecipe_other (Ne.symm apart)
  refine ⟨ready.running, ready.member, ⟨?_, ?_⟩, ?_, ?_, rfl, rfl, ready.maxRetries⟩
  · rw [same]
    exact ready.connected.1
  · rw [setRecipe_self]
    exact ready.connected.2
  · rw [same]
    exact ready.unfinished
  · rw [same]
    exact ready.uncancelled

/-- Any two recipes of a job can come to this point. -/
theorem reach_ready (member : recipe ∈ job.ids) (member' : other ∈ job.ids) (apart : other ≠ recipe) :
    ∃ es s, run step job.start es = some s ∧ Ready recipe other job.maxRetries 0 s := by
  obtain ⟨task, held⟩ := List.exists_mem_of_ne_nil _ (job.tasks recipe member)
  have first : step job.start (.connect other) = some (runRecipeHandler job.start other) :=
    step_connect other rfl member' rfl
  have second := step_connect recipe (s := runRecipeHandler job.start other) rfl member
    (by rw [runRecipeHandler, setRecipe_other (Ne.symm apart)]; rfl)
  generalize connected : runRecipeHandler (runRecipeHandler job.start other) recipe = s at second
  have mine : s.recipes recipe = { job.start.recipes recipe with connection := .connected } := by
    rw [← connected, runRecipeHandler, setRecipe_self, runRecipeHandler,
      setRecipe_other (Ne.symm apart)]
  have others : s.recipes other = { job.start.recipes other with connection := .connected } := by
    rw [← connected, runRecipeHandler, setRecipe_other apart, runRecipeHandler, setRecipe_self]
  have running : s.running = true := by rw [← connected]; rfl
  have ids : s.ids = job.ids := by rw [← connected]; rfl
  have maxRetries : s.maxRetries = job.maxRetries := by rw [← connected]; rfl
  obtain ⟨data, handled, started, connRetries, unfinished⟩ := handle_runs
    (c := { (s.recipes recipe).data with started := s.started, connRetries := s.connRetries })
    (show task ∈ (s.recipes recipe).data.tasks by rw [mine]; exact held)
    (job.numbered recipe member task held)
  have third := step_message (runs task.id) running (ids ▸ member) (by rw [mine])
  rw [handleLine, handled, Option.map_some] at third
  refine ⟨[.connect other, .connect recipe, .message recipe (runs task.id)], _,
    run_cons.mpr ⟨_, first, run_cons.mpr ⟨_, second, run_cons.mpr ⟨_, third, run_nil.mpr rfl⟩⟩⟩, ?_⟩
  refine ⟨running, ids ▸ ⟨member, member'⟩, ⟨?_, ?_⟩, ?_, ?_, started, connRetries, maxRetries⟩
  · rw [setRecipe_self, mine]
  · rw [setRecipe_other apart]
    exact congrArg Recipe.connection others
  · rw [setRecipe_self]
    exact unfinished
  · rw [setRecipe_self, mine]
    rfl

private theorem not_law (member : recipe ∈ job.ids) (member' : other ∈ job.ids) (apart : other ≠ recipe)
    (positive : 0 < job.maxRetries) : ¬Law job recipe := by
  intro law
  obtain ⟨es, s, ran, ready⟩ := reach_ready member member' apart
  obtain ⟨t, used, spent⟩ := ready.cycles apart (Nat.le_of_eq (Nat.zero_add job.maxRetries))
  rw [Nat.zero_add] at spent
  obtain ⟨t', refilled, again⟩ := spent.refill apart
  obtain ⟨u, ended, none⟩ := spent.finish
  obtain ⟨u', kept, one⟩ := again.finish
  rw [if_neg (Nat.lt_irrefl _)] at none
  rw [if_pos positive] at one
  have before : run step job.start (es ++ cycles recipe job.maxRetries) = some t :=
    run_append.mpr ⟨s, ran, used⟩
  -- the runs differ in one message of the other recipe before the last disconnection
  have same := law.same (es ++ cycles recipe job.maxRetries ++ [.finish recipe Option.none])
    (es ++ cycles recipe job.maxRetries ++
      ([.message other (line "/start" "" "")] ++ [.finish recipe Option.none])) u u'
    (run_append.mpr ⟨t, before, ended⟩)
    (run_append.mpr ⟨t, before, run_append.mpr ⟨t', refilled, kept⟩⟩)
    (by simp [own, apart])
  obtain ⟨next, taken, rest⟩ := run_cons.mp refilled
  have quiet : reconnections recipe t [.message other (line "/start" "" "")] = 0 := by
    rw [reconnections, trace_cons taken, shows, if_neg apart]
    rfl
  rw [reconnections_append before, reconnections_append before, reconnections_append refilled, none,
    one, quiet] at same
  omega

/-- **A recipe has a reconnection budget of its own if and only if it is the only recipe of the
job**, or the client may not reconnect at all. -/
theorem law_iff (member : recipe ∈ job.ids) :
    Law job recipe ↔ job.maxRetries = 0 ∨ ∀ id ∈ job.ids, id = recipe := by
  constructor
  · intro law
    by_contra! shared
    obtain ⟨positive, other, member', apart⟩ := shared
    exact not_law member member' apart (Nat.pos_of_ne_zero positive) law
  · rintro (none | sole)
    · exact law_of_zero none
    · exact law_of_sole sole

private theorem mem_twoRecipes {maxRetries : Nat} {id : Text} (member : id ∈ ["1".toList]) :
    id ∈ (twoRecipes maxRetries).ids := List.mem_append_left ["2".toList] member

/-- A job of the first of the two recipes. -/
def soleRecipe (maxRetries : Nat) : Job where
  maxRetries := maxRetries
  ids := ["1".toList]
  distinct := List.nodup_singleton _
  recipeId := (twoRecipes maxRetries).recipeId
  recipe := (twoRecipes maxRetries).recipe
  tasks := fun id member => (twoRecipes maxRetries).tasks id (mem_twoRecipes member)
  numbered := fun id member => (twoRecipes maxRetries).numbered id (mem_twoRecipes member)
  statuses := fun id member => (twoRecipes maxRetries).statuses id (mem_twoRecipes member)
  aborted := fun id member => (twoRecipes maxRetries).aborted id (mem_twoRecipes member)
  unfinished := ⟨_, List.mem_cons_self, _, List.mem_cons_self, by decide⟩

/-- A sole recipe may be reconnected three times. -/
theorem law_iff_sole : Law (soleRecipe 3) "1".toList :=
  (law_iff (by decide)).mpr (.inr fun _ => List.mem_singleton.mp)

/-- The first recipe runs and is disconnected. -/
def alone : List Event :=
  [.connect "1".toList, .connect "2".toList, status "2" "Running", status "1" "Running",
    .finish "1".toList none]

/-- The same for the first recipe, but the second one is disconnected before. -/
def second : List Event :=
  [.connect "1".toList, .connect "2".toList, status "2" "Running", status "1" "Running",
    .finish "2".toList none, .finish "1".toList none]

/-- The disconnection of the second recipe uses up the only reconnection of the first one. -/
theorem budget_shared : reconnections "1".toList (twoRecipes 1).start alone = 1 ∧
    reconnections "1".toList (twoRecipes 1).start second = 0 ∧ ¬Law (twoRecipes 1) "1".toList := by
  have once : reconnections "1".toList (twoRecipes 1).start alone = 1 := by decide +kernel
  have never : reconnections "1".toList (twoRecipes 1).start second = 0 := by decide +kernel
  refine ⟨once, never, fun law => ?_⟩
  have runs : (run step (twoRecipes 1).start alone).isSome = true := by decide +kernel
  have runs' : (run step (twoRecipes 1).start second).isSome = true := by decide +kernel
  obtain ⟨s, ran⟩ := Option.isSome_iff_exists.mp runs
  obtain ⟨t, ran'⟩ := Option.isSome_iff_exists.mp runs'
  have same := law.same _ _ s t ran ran' (by simp [alone, second, own, status])
  rw [once, never] at same
  cases same

end Restraint.Reconnect

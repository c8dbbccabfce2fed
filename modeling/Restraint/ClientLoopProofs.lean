import Restraint.ClientLoop

/-! What a line and what a step of the client's main loop can change. A line is handled by one
callback, and what it leaves of a recipe is said without naming the callback; a step of the loop
moves one recipe and leaves the others. The proofs about whole jobs use these facts and open
neither. -/
namespace Restraint.ClientLoopProofs
open CString (Text gStrsplit)
open Transition
open Restraint.Client ClientLoop

/-! ## Lines -/

/-- The path of a line. -/
def rstrntPath (line : Line) : Option Text := jsonToHashtable line.headers "rstrnt-path".toList

/-- The callback that a line is for. -/
def callback (line : Line) : Option Callback := (rstrntPath line).bind processPath

/-- The line makes the job one that has started. -/
def starts (line : Line) : Bool := (callback line).any (· ≠ .watchdogCb)

/-- The task and the status that a line reports. -/
def reports (line : Line) : Option (Text × Text) :=
  match callback line, (rstrntPath line).bind fun path => (gStrsplit path)[4]?, line.body with
  | some .tasksStatusCb, some taskId, .object fields =>
    some (taskId, (jsonToHashtable fields "status".toList).getD [])
  | _, _, _ => none

/-- The status of a recipe takes over what a task reports, unless it is Aborted. -/
def sticky (old status : Text) : Text := if old = "Aborted".toList then old else status

/-- What a callback leaves of the fields that the main loop reads. -/
structure Same (c c' : RecipeData) : Prop where
  started : c'.started = c.started
  connRetries : c'.connRetries = c.connRetries
  watchdog : c'.watchdog = c.watchdog
  statuses : c'.tasks.map TaskNode.status = c.tasks.map TaskNode.status
  status : c'.status = c.status

theorem Same.refl (c : RecipeData) : Same c c := ⟨rfl, rfl, rfl, rfl, rfl⟩

theorem Same.trans {a b c : RecipeData} (first : Same a b) (second : Same b c) : Same a c where
  started := second.started.trans first.started
  connRetries := second.connRetries.trans first.connRetries
  watchdog := second.watchdog.trans first.watchdog
  statuses := second.statuses.trans first.statuses
  status := second.status.trans first.status

/-- What a line does to a recipe. -/
structure Handled (c : RecipeData) (line : Line) (c' : RecipeData) : Prop where
  started : c'.started = (c.started || starts line)
  connRetries : c'.connRetries = if (callback line).isSome then 0 else c.connRetries
  watchdog : c.watchdog.isSome → c'.watchdog.isSome
  statuses : c'.tasks.map TaskNode.status = c.tasks.map TaskNode.status ∧ c'.status = c.status ∨
    ∃ taskId status, reports line = some (taskId, status) ∧
      c'.tasks.map TaskNode.status = (c.tasks.map fun task =>
        if task.id = taskId then status else task.status) ∧
      c'.status = sticky c.status status

variable {c c' : RecipeData} {line : Line} {taskId : Text} {node : ResultNode} {log : LogNode}
variable {path filename : Text} {shortPath : Option Text} {headers : Text → Option Text}
variable {xpath : LogsXpath} {data : List UInt8} {body : Body}

/-- A change to a task that leaves its status alone. -/
theorem updateTask_same (change : TaskNode → TaskNode) (keeps : ∀ task, (change task).id = task.id)
    (status : ∀ task, (change task).status = task.status) :
    Same c (updateTask c taskId change keeps) where
  started := rfl
  connRetries := rfl
  watchdog := rfl
  status := rfl
  statuses := map_unchanged status

private theorem recordResult_same : Same c (recordResult c taskId node) := by
  have updated : Same c (updateTask c taskId _ _) := updateTask_same (fun task =>
    { task with
      results := task.results ++ [node]
      result := if resultToId task.result < resultToId node.result then node.result
        else task.result }) (fun _ => rfl) fun _ => rfl
  exact ⟨rfl, rfl, rfl, updated.statuses, rfl⟩

private theorem recordLog_same : Same c (recordLog c xpath log) := by
  unfold recordLog
  split <;> exact updateTask_same _ _ fun _ => rfl

private theorem truncateFile_same {size : Nat} : Same c (truncateFile c filename size) :=
  ⟨rfl, rfl, rfl, rfl, rfl⟩

private theorem updateChunk_same {offset : Int} : Same c (updateChunk c filename data offset) :=
  ⟨rfl, rfl, rfl, rfl, rfl⟩

private theorem storeLog_same : Same c (storeLog c path filename xpath shortPath headers data) := by
  unfold storeLog
  split
  · split
    · exact .refl c
    · split
      · exact .refl c
      · refine .trans ?_ updateChunk_same
        split <;> split
        · exact truncateFile_same.trans recordLog_same
        · exact recordLog_same
        · exact truncateFile_same
        · exact .refl c
  · exact (truncateFile_same.trans recordLog_same).trans updateChunk_same

private theorem tasksLogsCb_same (handled : tasksLogsCb c path headers body = some c') :
    Same { c with started := true } c' := by
  unfold tasksLogsCb at handled
  dsimp only at handled
  split at handled
  · split at handled
    · cases handled
      exact .refl _
    · split at handled
      · cases handled
        exact storeLog_same
      · split at handled
        · cases handled
        · cases handled
          exact storeLog_same
  · cases handled

private theorem tasksResultsCb_same (handled : tasksResultsCb c path headers body = some c') :
    Same { c with started := true } c' := by
  unfold tasksResultsCb at handled
  dsimp only at handled
  split at handled
  · split at handled
    · cases handled
      exact .refl _
    · obtain ⟨result, -, rfl⟩ := Option.map_eq_some_iff.mp handled
      exact recordResult_same
  · cases handled

/-- A status changes nothing but the status of the task and that of the recipe. -/
theorem tasksStatusCb_statuses {fields : Text → Option Json} {status : Text}
    (entry : (gStrsplit path)[4]? = some taskId)
    (held : (jsonToHashtable fields "status".toList).getD [] = status)
    (handled : tasksStatusCb c path headers (.object fields) = some c') :
    c'.started = true ∧ c'.connRetries = c.connRetries ∧ c'.watchdog = c.watchdog ∧
      (c'.tasks.map TaskNode.status = c.tasks.map TaskNode.status ∧ c'.status = c.status ∨
        c'.tasks.map TaskNode.status = (c.tasks.map fun task =>
          if task.id = taskId then status else task.status) ∧
        c'.status = sticky c.status status) := by
  unfold tasksStatusCb at handled
  simp only [entry, held] at handled
  split at handled
  · cases handled
    exact ⟨rfl, rfl, rfl, .inl ⟨rfl, rfl⟩⟩
  · obtain rfl := (Option.some.inj handled).symm
    have told {d : RecipeData} (statuses : d.tasks.map (fun task => (task.id, task.status)) =
        c.tasks.map fun task => (task.id, task.status)) :
        (updateTask d taskId (fun task => { task with status := status }) fun _ => rfl).tasks.map
          TaskNode.status = c.tasks.map fun task =>
            if task.id = taskId then status else task.status := by
      have mapped := congrArg (List.map fun entry : Text × Text =>
        if entry.1 = taskId then status else entry.2) statuses
      rw [List.map_map, List.map_map] at mapped
      rw [updateTask, List.map_map]
      refine Eq.trans (List.map_congr_left fun task _ => ?_) mapped
      simp only [Function.comp_apply]
      split <;> rfl
    split
    · exact ⟨rfl, rfl, rfl, .inr ⟨told rfl, rfl⟩⟩
    · refine ⟨rfl, rfl, rfl, .inr ⟨told ?_, rfl⟩⟩
      exact map_unchanged fun _ => rfl

/-- **What a line does to a recipe.** -/
theorem handleMessage_handled (handled : handleMessage c line = some c') : Handled c line c' := by
  unfold handleMessage at handled
  have none (missed : callback line = Option.none) (same : Same c c') : Handled c line c' := by
    refine ⟨?_, ?_, fun set => same.watchdog ▸ set, .inl ⟨same.statuses, same.status⟩⟩
    · simp [starts, missed, same.started]
    · simp [missed, same.connRetries]
  dsimp only at handled
  rw [← show rstrntPath line = jsonToHashtable line.headers "rstrnt-path".toList from rfl] at handled
  cases header : rstrntPath line with
  | none =>
    simp only [header, Option.some.injEq] at handled
    exact none (by simp [callback, header]) (handled ▸ .refl c)
  | some path =>
    cases found : processPath path with
    | none =>
      simp only [header, found, Option.some.injEq] at handled
      exact none (by simp [callback, header, found]) (handled ▸ .refl c)
    | some target =>
      have target' : callback line = some target := by simp [callback, header, found]
      simp only [header, found] at handled
      have started (other : target ≠ .watchdogCb)
          (same : Same { c with connRetries := 0, started := true } c') : Handled c line c' := by
        refine ⟨?_, ?_, fun set => same.watchdog ▸ set, .inl ⟨same.statuses, same.status⟩⟩
        · simp [starts, target', other, same.started]
        · simp [target', same.connRetries]
      cases target with
      | recipeStartCb =>
        cases handled
        exact started (by decide) (.refl _)
      | tasksResultsCb => exact started (by decide) (tasksResultsCb_same handled)
      | tasksLogsCb => exact started (by decide) (tasksLogsCb_same handled)
      | watchdogCb =>
        simp only [call] at handled
        unfold watchdogCb at handled
        split at handled
        · cases handled
          exact ⟨by simp [starts, target'], by simp [target'], fun _ => rfl, .inl ⟨rfl, rfl⟩⟩
        · cases handled
      | tasksStatusCb =>
        simp only [call] at handled
        cases entry : (gStrsplit path)[4]? with
        | none => simp [tasksStatusCb, entry] at handled
        | some taskId =>
          cases body : line.body with
          | string data => simp [tasksStatusCb, entry, body] at handled
          | object fields =>
            rw [body] at handled
            obtain ⟨began, connRetries, watchdog, statuses⟩ :=
              tasksStatusCb_statuses entry rfl handled
            refine ⟨?_, ?_, fun set => watchdog ▸ set, statuses.imp_right fun told => ?_⟩
            · simp [starts, target', began]
            · simp [target', connRetries]
            · refine ⟨taskId, _, ?_, told⟩
              simp only [reports, target', header, Option.bind_some, entry, body]

/-- A task has the status it had, or the one that the line reports. -/
theorem Handled.task_status (handled : Handled c line c') {task : TaskNode} (member : task ∈ c'.tasks) :
    (∃ old ∈ c.tasks, old.status = task.status) ∨
      ∃ taskId, reports line = some (taskId, task.status) ∧
        c'.status = sticky c.status task.status := by
  have now : task.status ∈ c'.tasks.map TaskNode.status := List.mem_map_of_mem member
  rcases handled.statuses with ⟨same, -⟩ | ⟨taskId, status, reported, told, recipe⟩
  · rw [same] at now
    exact .inl (List.mem_map.mp now)
  · rw [told] at now
    obtain ⟨old, held, new⟩ := List.mem_map.mp now
    split at new
    · subst new
      exact .inr ⟨taskId, reported, recipe⟩
    · exact .inl ⟨old, held, new⟩

/-- A recipe that is Aborted stays Aborted. -/
theorem Handled.stays_aborted (handled : Handled c line c') (aborted : c.status = "Aborted".toList) :
    c'.status = "Aborted".toList := by
  rcases handled.statuses with ⟨-, same⟩ | ⟨_, _, -, -, recipe⟩
  · rw [same, aborted]
  · rw [recipe, sticky, if_pos aborted, aborted]

/-! ## Steps -/

variable {s t : AppData} {e : Event} {id other : Text} {error : Option GError} {recipe : Recipe}

theorem step_eq_some : step s e = some t ↔
    s.running = true ∧ Enabled s e ∧ dispatch s e = some t := by
  unfold step
  split <;> simp_all

theorem handleLine_eq_some (handled : handleLine s id line = some t) :
    ∃ data, Handled
        { (s.recipes id).data with started := s.started, connRetries := s.connRetries } line data ∧
      t = { s with started := data.started, connRetries := data.connRetries }.setRecipe id
        { s.recipes id with data := data } := by
  obtain ⟨data, came, rfl⟩ := Option.map_eq_some_iff.mp handled
  exact ⟨data, handleMessage_handled came, rfl⟩

section Fields

@[simp] theorem setRecipe_self : (s.setRecipe id recipe).recipes id = recipe := Function.update_self ..

theorem setRecipe_other (different : other ≠ id) :
    (s.setRecipe id recipe).recipes other = s.recipes other := Function.update_of_ne different ..

@[simp] theorem setRecipe_ids : (s.setRecipe id recipe).ids = s.ids := rfl

@[simp] theorem setRecipe_error : (s.setRecipe id recipe).error = s.error := rfl

@[simp] theorem setRecipe_quits : (s.setRecipe id recipe).quits = s.quits := rfl

@[simp] theorem setRecipe_started : (s.setRecipe id recipe).started = s.started := rfl

@[simp] theorem setRecipe_connRetries : (s.setRecipe id recipe).connRetries = s.connRetries := rfl

@[simp] theorem setRecipe_maxRetries : (s.setRecipe id recipe).maxRetries = s.maxRetries := rfl

@[simp] theorem setRecipe_running : (s.setRecipe id recipe).running = s.running := rfl

/-- The recipe after `recipe_finish`. -/
def finishedRecipe (recipe : Recipe) : Recipe :=
  { recipe with data := abortUnended recipe.data, connection := .finished }

/-- `recipe_finish` attaches the quit handler if and only if the job is finished by it. -/
theorem recipeFinish_eq : recipeFinish s id =
    { s with
      error := if (s.recipes id).data.tasks.all passed then s.error
        else s.error <|> some resultError
      recipes := Function.update s.recipes id (finishedRecipe (s.recipes id))
      quits := s.quits +
        if jobFinished (s.setRecipe id (finishedRecipe (s.recipes id))) then 1 else 0 } := by
  unfold recipeFinish
  by_cases finished : jobFinished (s.setRecipe id (finishedRecipe (s.recipes id))) = true
  · rw [if_pos finished]
    exact if_pos finished
  · rw [if_neg finished]
    exact if_neg finished

@[simp] theorem recipeFinish_ids : (recipeFinish s id).ids = s.ids := by rw [recipeFinish_eq]

private theorem recipeFinish_recipes : (recipeFinish s id).recipes =
    Function.update s.recipes id (finishedRecipe (s.recipes id)) := by rw [recipeFinish_eq]

private theorem recipeFinish_self : (recipeFinish s id).recipes id = finishedRecipe (s.recipes id) := by
  rw [recipeFinish_recipes, Function.update_self]

theorem recipeFinish_quits : (recipeFinish s id).quits =
    s.quits + if jobFinished (recipeFinish s id) then 1 else 0 := by
  have same : jobFinished (recipeFinish s id) =
      jobFinished (s.setRecipe id (finishedRecipe (s.recipes id))) := by
    rw [recipeFinish_eq]
    rfl
  rw [same, recipeFinish_eq]

end Fields

/-- The recipe that an event is about. -/
def subject : Event → Option Text
  | .connect id => some id
  | .message id _ => some id
  | .finish id _ => some id
  | .watchdogTimeout id => some id
  | .quit => none

/-- A step changes no recipe but the one its event is about. -/
theorem step_frame (taken : step s e = some t) :
    t.ids = s.ids ∧ t.maxRetries = s.maxRetries ∧
      ∀ id, subject e ≠ some id → t.recipes id = s.recipes id := by
  obtain ⟨-, -, took⟩ := step_eq_some.mp taken
  cases e with
  | connect id =>
    cases took
    exact ⟨rfl, rfl, fun other apart => setRecipe_other fun same => apart (same ▸ rfl)⟩
  | message id line =>
    obtain ⟨data, -, rfl⟩ := handleLine_eq_some took
    exact ⟨rfl, rfl, fun other apart => setRecipe_other fun same => apart (same ▸ rfl)⟩
  | finish id error =>
    cases took
    unfold remoteProcessFinish
    split
    · exact ⟨rfl, rfl, fun other apart => setRecipe_other fun same => apart (same ▸ rfl)⟩
    · refine ⟨recipeFinish_ids, by rw [recipeFinish_eq], fun other apart => ?_⟩
      rw [recipeFinish_recipes]
      exact Function.update_of_ne (fun same => apart (congrArg some same.symm)) ..
  | watchdogTimeout id =>
    cases took
    exact ⟨rfl, rfl, fun other apart => setRecipe_other fun same => apart (same ▸ rfl)⟩
  | quit =>
    cases took
    exact ⟨rfl, rfl, fun _ _ => rfl⟩

/-- What an event makes of a recipe. -/
inductive Moves (s : AppData) (id : Text) : Event → Recipe → Prop where
  | apart {e : Event} (other : subject e ≠ some id) : Moves s id e (s.recipes id)
  | connect : Moves s id (.connect id) { s.recipes id with connection := .connected }
  | message {line : Line} {data : RecipeData}
      (handled : Handled
        { (s.recipes id).data with started := s.started, connRetries := s.connRetries } line data) :
      Moves s id (.message id line) { s.recipes id with data := data }
  | reconnect {error : Option GError} :
      Moves s id (.finish id error) { s.recipes id with connection := .waiting }
  | finish {error : Option GError} : Moves s id (.finish id error) (finishedRecipe (s.recipes id))
  | expire : Moves s id (.watchdogTimeout id)
      { s.recipes id with
        data := { (s.recipes id).data with watchdog := none }
        cancelled := true }

/-- A step, seen from one recipe. -/
theorem step_moves (taken : step s e = some t) (id : Text) :
    ∃ recipe, t.recipes id = recipe ∧ Moves s id e recipe := by
  by_cases about : subject e = some id
  · obtain ⟨-, -, took⟩ := step_eq_some.mp taken
    cases e with
    | connect id' =>
      cases about
      cases took
      exact ⟨_, setRecipe_self, .connect⟩
    | message id' line =>
      cases about
      obtain ⟨data, handled, rfl⟩ := handleLine_eq_some took
      exact ⟨_, setRecipe_self, .message handled⟩
    | finish id' error =>
      cases about
      cases took
      unfold remoteProcessFinish
      split
      · exact ⟨_, setRecipe_self, .reconnect⟩
      · exact ⟨_, recipeFinish_self, .finish⟩
    | watchdogTimeout id' =>
      cases about
      cases took
      exact ⟨_, setRecipe_self, .expire⟩
    | quit => cases about
  · exact ⟨_, (step_frame taken).2.2 id about, .apart about⟩

theorem run_frame {es : List Event} (ran : run step s es = some t) :
    t.ids = s.ids ∧ t.maxRetries = s.maxRetries := by
  refine run_related (R := fun s t : AppData => t.ids = s.ids ∧ t.maxRetries = s.maxRetries)
    (fun _ => ⟨rfl, rfl⟩) ?_ ?_ ran
  · intro s t u first second
    exact ⟨second.1.trans first.1, second.2.trans first.2⟩
  · intro s e t taken
    exact ⟨(step_frame taken).1, (step_frame taken).2.1⟩

end Restraint.ClientLoopProofs

import Restraint.Lib.Channel
import Restraint.Lib.Greatest
import Restraint.Lib.Transition
import Restraint.LogRouting
import Restraint.LogTransferProofs
import Restraint.TransactionIds
import Restraint.WatchdogAdjust

/-! What is said about a recipe that the client runs over a pipe: the statuses, results and
watchdogs of the daemon, and the requests of the task's commands that `server_recipe_callback`
forwards. The client records each of them once, in order, among the logs that go the same way.
The times and the version of a status, which the client only notes, are left out. -/
namespace Restraint.ReportTransfer
open Transition CString Greatest Restraint.Client Restraint.LogTransfer Restraint.LogTransferProofs

/-- `AppData` of `rstrnt-report-result`, as far as it is sent. -/
structure AppData where
  testName : Text
  testResult : Text
  score : Option Text
  resultMsg : Option Text
  disablePlugin : List Text
  noPlugins : Bool
  deriving DecidableEq

/-- The form of `upload_results`. What is sent for `no_plugins` is the first byte of a gboolean. -/
def uploadResults (avcError : Option Text) (appData : AppData) : List (Text × Text) :=
  let disablePlugin :=
    if avcError = some "+no_avc_check".toList then appData.disablePlugin ++ ["10_avc_check".toList]
    else appData.disablePlugin
  [("path".toList, appData.testName), ("result".toList, appData.testResult)] ++
    (if disablePlugin = [] then []
      else [("disable_plugin".toList, [' '].intercalate disablePlugin)]) ++
    (if appData.noPlugins then [("no_plugins".toList, ['\x01'])] else []) ++
    (appData.score.map fun score => ("score".toList, score)).toList ++
    (appData.resultMsg.map fun message => ("message".toList, message)).toList

/-- A component of a path. -/
abbrev Component := { text : Text // '/' ∉ text }

inductive Event where
  /-- What the daemon does by itself, and what the client does. -/
  | own (event : LogTransfer.Event)
  /-- `rstrnt-report-result`, with the headers of its request. -/
  | result (headers : List (Text × Text)) (avcError : Option Text) (appData : AppData)
  /-- `rstrnt-adjust-watchdog`. -/
  | adjust (headers : List (Text × Text)) (seconds : Option Text)
  /-- A chunk of a file that `rstrnt-report-log` or, for a result, `rstrnt-report-result` uploads. The
  name is in one component of the path, however it is escaped. -/
  | upload (headers : List (Text × Text)) (i : Nat) (result : Option Nat) (name : Component)
    (data : List UInt8)
  deriving DecidableEq

/-- What `server_recipe_callback` sends for a request. -/
def forwarded (uri : Text) (headers fields : List (Text × Text)) : SoupMessage where
  method := "POST".toList
  path := uri
  requestHeaders := headers
  requestBody := .form fields

/-- The path of an uploaded file below that of the task. -/
def uploadPath (name : Component) : Option Nat → Text
  | none => "logs/".toList ++ name.val
  | some result => "results/".toList ++ Decimal.print result ++ "/logs/".toList ++ name.val

/-- What `server_recipe_callback` sends for an upload; `swap_base` leaves what follows `/recipes/`. -/
def uploaded (uri : Text) (headers : List (Text × Text)) (data : List UInt8) : SoupMessage where
  method := "PUT".toList
  path := uri
  requestHeaders := headers
  requestBody := .text data

/-- `app_data->tasks->data`; the daemon crashes when there is none. -/
def currentTask (s : Transfer) : Option LogTransfer.Task := s.current.bind (s.tasks[·]?)

def step (s : Transfer) : Event → Option Transfer
  | .own event => LogTransfer.step s event
  | .result headers avcError appData =>
    (currentTask s).bind fun task =>
      restraintStdoutMessage s
        (forwarded (soupUriNewWithBase (taskPath s.recipeUri task.taskId) "results/".toList) headers
          (uploadResults avcError appData))
  | .adjust headers seconds =>
    (currentTask s).bind fun _ =>
      restraintStdoutMessage s
        (forwarded (soupUriNewWithBase s.recipeUri "watchdog".toList) headers
          [("seconds".toList,
            Decimal.print (WatchdogAdjust.maxTime seconds + WatchdogAdjust.EWD_TIME).toNat)])
  | .upload headers i result name data =>
    (currentTask s).bind fun _ => (s.tasks[i]?).bind fun task =>
      restraintStdoutMessage s
        (uploaded (soupUriNewWithBase (taskPath s.recipeUri task.taskId) (uploadPath name result)) headers
          data)

/-! ## What is said and what is recorded -/

/-- What one message says. -/
inductive Saying where
  | status (taskId status : Text)
  | result (taskId result path : Text) (score message : Option Text)
  | watchdog (seconds : Nat)
  deriving DecidableEq

/-- What a report of the daemon says; a number of seconds is a `guint64`. -/
def saying (taskId : Text) : Report → Saying
  | .status status => .status taskId status
  | .result result path score message => .result taskId result path (some score) message
  | .watchdog seconds => .watchdog (min seconds (2 ^ 64 - 1))

/-- What an event says while a task is the current one. -/
def sayingOf (tasks : List Text) (current : Option Nat) : Event → Option Saying
  | .own (.report i report) => (tasks[i]?).map fun taskId => saying taskId report
  | .own _ => none
  | .result _ _ appData => (current.bind (tasks[·]?)).map fun taskId =>
    .result taskId appData.testResult appData.testName appData.score appData.resultMsg
  | .adjust _ seconds => some (.watchdog (WatchdogAdjust.maxTime seconds + WatchdogAdjust.EWD_TIME).toNat)
  | .upload .. => none

/-- The task that is current after an event. -/
def turned (current : Option Nat) : Event → Option Nat
  | .own (.turn current) => current
  | _ => current

/-- What is said in a run, in order. -/
def sayings (tasks : List Text) : Option Nat → List Event → List Saying
  | _, [] => []
  | current, e :: es => (sayingOf tasks current e).toList ++ sayings tasks (turned current e) es

/-- What is said, with the id of the message. -/
abbrev Said := Saying × Nat

def statusOf : Said → Option (Text × Text)
  | (.status taskId status, _) => some (taskId, status)
  | _ => none

def resultOf : Said → Option (Text × ResultNode)
  | (.result taskId result path score message, id) =>
    some (taskId, ⟨Decimal.print id, path, result, message, score, []⟩)
  | _ => none

def watchdogOf : Said → Option Nat
  | (.watchdog seconds, _) => some seconds
  | _ => none

/-- What was said of one task. -/
def about {β : Type} (taskId : Text) (entries : List (Text × β)) : List β :=
  (entries.filter (·.1 = taskId)).map Prod.snd

/-- The worst of the results, the first of them if there are several. -/
def worst (results : List ResultNode) : Text :=
  (results.map ResultNode.result).foldl (adopt resultToId) "None".toList

/-- A task in the job XML, without the logs. -/
structure TaskRecord where
  id : Text
  status : Text
  result : Text
  results : List ResultNode
  deriving DecidableEq

/-- A recipe in the job XML, without the logs, and its watchdog. -/
structure Record where
  tasks : List TaskRecord
  status : Text
  result : Text
  watchdog : Option Nat
  deriving DecidableEq

def taskRecord (task : TaskNode) : TaskRecord where
  id := task.id
  status := task.status
  result := task.result
  results := task.results.map fun result => { result with logs := [] }

/-- What the client has recorded. -/
def record (c : RecipeData) : Record where
  tasks := c.tasks.map taskRecord
  status := c.status
  result := c.result
  watchdog := c.watchdog

/-- The record of a task of which this was said. -/
def toldTask (said : List Said) (taskId : Text) : TaskRecord where
  id := taskId
  status := ((about taskId (said.filterMap statusOf)).getLast?).getD "New".toList
  result := worst (about taskId (said.filterMap resultOf))
  results := about taskId (said.filterMap resultOf)

/-- The last status; but a recipe that was `Aborted` once stays so. -/
def recipeStatus (statuses : List Text) : Text :=
  if "Aborted".toList ∈ statuses then "Aborted".toList else statuses.getLast?.getD "New".toList

/-- The record of a recipe of which this was said. -/
def told (tasks : List Text) (said : List Said) : Record where
  tasks := tasks.map (toldTask said)
  status := recipeStatus ((said.filterMap statusOf).map Prod.snd)
  result := worst ((said.filterMap resultOf).map Prod.snd)
  watchdog := (said.filterMap watchdogOf).getLast?

variable {job : Job} {s t : Transfer} {c c' : RecipeData} {taskId status : Text} {node : ResultNode}
variable {said heard : List Said} {tasks : List Text} {id transactionId : Nat}

/-! ## One more saying -/

theorem about_append {β : Type} {entries more : List (Text × β)} :
    about taskId (entries ++ more) = about taskId entries ++ about taskId more := by
  simp [about]

private theorem about_singleton {β : Type} {other : Text} {value : β} :
    about taskId [(other, value)] = if taskId = other then [value] else [] := by
  by_cases same : other = taskId
  · simp [about, same]
  · simp [about, same, Ne.symm same]

private theorem worst_append {results : List ResultNode} :
    worst (results ++ [node]) = adopt resultToId (worst results) node.result := by
  simp [worst]

private theorem toldTask_status : toldTask (said ++ [(.status taskId status, id)]) =
    fun other => if other = taskId then { toldTask said other with status := status }
      else toldTask said other := by
  funext other
  simp only [toldTask, List.filterMap_append, List.filterMap_cons, List.filterMap_nil, statusOf,
    resultOf, about_append, about_singleton, List.append_nil]
  split <;> simp

private theorem toldTask_result {result path : Text} {score message : Option Text} :
    toldTask (said ++ [(.result taskId result path score message, id)]) =
      fun other => if other = taskId then
          { toldTask said other with
            result := adopt resultToId (toldTask said other).result result
            results := (toldTask said other).results ++
              [⟨Decimal.print id, path, result, message, score, []⟩] }
        else toldTask said other := by
  funext other
  simp only [toldTask, List.filterMap_append, List.filterMap_cons, List.filterMap_nil, statusOf,
    resultOf, about_append, about_singleton, List.append_nil]
  split
  · rw [worst_append]
  · rw [List.append_nil]

private theorem toldTask_watchdog {seconds : Nat} :
    toldTask (said ++ [(.watchdog seconds, id)]) = toldTask said := by
  funext other
  simp only [toldTask, List.filterMap_append, List.filterMap_cons, List.filterMap_nil, statusOf,
    resultOf, List.append_nil]

/-- A status is the last one, unless the recipe was `Aborted`. -/
theorem recipeStatus_append {statuses : List Text} : recipeStatus (statuses ++ [status]) =
    if recipeStatus statuses = "Aborted".toList then recipeStatus statuses else status := by
  have differ : "New".toList ≠ "Aborted".toList := by decide
  unfold recipeStatus
  generalize "Aborted".toList = aborted at differ ⊢
  by_cases before : aborted ∈ statuses
  · rw [if_pos (List.mem_append_left _ before), if_pos before, if_pos rfl]
  · have other : statuses.getLast?.getD "New".toList ≠ aborted := by
      cases last : statuses.getLast? with
      | none => exact differ
      | some text =>
        rintro rfl
        exact before (List.mem_of_getLast? last)
    rw [if_neg before, if_neg other, List.getLast?_append, List.getLast?_singleton]
    by_cases now : status = aborted
    · rw [if_pos (by simp [now]), now]
    · rw [if_neg (by simp [before, Ne.symm now])]
      rfl

/-! ## What a message leaves in the record -/

theorem record_recordResult : record (recordResult c taskId node) =
    { record c with
      tasks := (record c).tasks.map fun task =>
        if task.id = taskId then
          { task with
            result := adopt resultToId task.result node.result
            results := task.results ++ [{ node with logs := [] }] }
        else task
      result := adopt resultToId (record c).result node.result } := by
  unfold record recordResult updateTask
  simp only [Record.mk.injEq, and_true, true_and]
  refine ⟨?_, rfl⟩
  rw [map_changed, List.map_map]
  refine List.map_congr_left fun task _ => ?_
  by_cases own : task.id = taskId
  · have here : (taskRecord task).id = taskId := own
    rw [Function.comp_apply, if_pos own, if_pos here]
    simp only [taskRecord, List.map_append, List.map_singleton]
    rfl
  · have other : (taskRecord task).id ≠ taskId := own
    rw [Function.comp_apply, if_neg own, if_neg other]

private theorem record_recordLog {logsXpath : LogsXpath} {log : LogNode} :
    record (recordLog c logsXpath log) = record c := by
  cases logsXpath with
  | task id =>
    unfold record recordLog updateTask
    simp only [Record.mk.injEq, and_true]
    exact map_unchanged fun _ => rfl
  | result taskId id =>
    unfold record recordLog updateTask
    simp only [Record.mk.injEq, and_true]
    refine map_unchanged fun task => ?_
    simp only [taskRecord, TaskRecord.mk.injEq, true_and]
    generalize task.results.findIdx _ = place
    induction task.results generalizing place with
    | nil => rw [List.modify_nil]
    | cons result results ih =>
      cases place with
      | zero => rfl
      | succ place => rw [List.modify_succ_cons, List.map_cons, List.map_cons, ih place]

private theorem record_storeLog {logPath filename : Text} {logsXpath : LogsXpath}
    {shortPath : Option Text}
    {headers : Text → Option Text} {data : List UInt8} :
    record (storeLog c logPath filename logsXpath shortPath headers data) = record c := by
  unfold storeLog
  split
  · split
    · rfl
    · split
      · rfl
      · simp only
        split <;> split <;> first | rfl | exact record_recordLog
  · exact record_recordLog

/-- The bytes of a log leave the record as it was. -/
theorem record_tasksLogsCb {path : Text} {headers : Text → Option Text} {body : Body}
    (called : tasksLogsCb c path headers body = some c') : record c' = record c := by
  unfold tasksLogsCb at called
  simp only at called
  split at called
  · split at called
    · cases called
      rfl
    · split at called
      · cases called
        exact record_storeLog
      · split at called
        · cases called
        · cases called
          exact record_storeLog
  · cases called

/-! ## What the client does with a message -/

variable {msg : SoupMessage} {fields : List (Text × Text)}

/-- The client stands where it would after this was said. -/
def Told (job : Job) (heard : List Said) (c : RecipeData) : Prop := record c = told job.tasks heard

/-- The line of a form. -/
def formLine (msg : SoupMessage) (transactionId : Nat) (fields : List (Text × Text)) : Line where
  headers := jsonHeaders msg transactionId
  body := .object fun key => (fields.lookup key).map Json.string

private theorem jsonToHashtable_form {key : Text} :
    jsonToHashtable (fun key => (fields.lookup key).map Json.string) key = fields.lookup key := by
  unfold jsonToHashtable
  simp only
  cases fields.lookup key <;> rfl

theorem Told.known (told : Told job heard c) (member : taskId ∈ job.tasks) :
    (c.tasks.any fun task => decide (task.id = taskId)) = true := by
  have ids : (record c).tasks.map TaskRecord.id = job.tasks := by
    rw [told, ReportTransfer.told, List.map_map]
    exact List.map_id _
  rw [record, List.map_map] at ids
  obtain ⟨task, inside, same⟩ := List.mem_map.mp (ids ▸ member)
  exact List.any_eq_true.mpr ⟨task, inside, decide_eq_true same⟩

/-- A line goes to the callback of its path. -/
theorem handleMessage_formLine {path : Text} {callback : Callback} (held : msg.path = path)
    (found : processPath path = some callback) :
    handleMessage c (formLine msg id fields) =
      call { c with connRetries := 0 } path (jsonToHashtable (jsonHeaders msg id))
        (formLine msg id fields).body callback := by
  unfold handleMessage formLine
  simp only [jsonHeaders_path, held, found]

private theorem fourth_taskUrl {rest : Text} (member : taskId ∈ job.tasks) :
    (gStrsplit (taskUrl job.recipeId taskId rest))[4]? = some taskId := by
  rw [gStrsplit_taskUrl (slash_not_mem_of_alnum job.alphanumeric)
    (slash_not_mem_of_alnum (alnum_of_digit (job.numeric taskId member)))]
  rfl

private theorem brings_status (member : taskId ∈ job.tasks)
    (path : msg.path = taskUrl job.recipeId taskId "status".toList)
    (held : fields.lookup "status".toList = some status)
    (plain : fields.lookup "message".toList = none) :
    Channel.Brings handleMessage (Told job) (formLine msg id fields) [(.status taskId status, id)] := by
  intro heard c told
  have fourth : (gStrsplit (taskUrl job.recipeId taskId "status".toList))[4]? = some taskId :=
    fourth_taskUrl member
  have known := told.known member
  rw [handleMessage_formLine path (processPath_status job_named (job_numbered member)), call, formLine]
  unfold tasksStatusCb
  simp only [fourth, known, jsonToHashtable_form, held, plain,
    Bool.true_eq_false, if_false, Option.getD_some]
  refine ⟨_, rfl, ?_⟩
  unfold Told at told ⊢
  obtain ⟨tasks, recipe, result, watchdog⟩ := Record.mk.inj told
  unfold record updateTask ReportTransfer.told
  rw [map_changed, List.filterMap_append, List.filterMap_append, List.filterMap_append, toldTask_status]
  simp only [List.filterMap_cons, List.filterMap_nil, statusOf, resultOf, watchdogOf, List.append_nil,
    List.map_append, List.map_singleton, recipeStatus_append, Record.mk.injEq]
  refine ⟨?_, ?_, result, watchdog⟩
  · have changed := congrArg (List.map fun (task : TaskRecord) =>
      if task.id = taskId then { task with status := status } else task) tasks
    rw [List.map_map, List.map_map] at changed
    exact changed
  · rw [← recipe]

private theorem brings_result {result : Text} (member : taskId ∈ job.tasks)
    (method : msg.method = "POST".toList)
    (path : msg.path = taskUrl job.recipeId taskId "results/".toList)
    (held : fields.lookup "result".toList = some result) :
    Channel.Brings handleMessage (Told job) (formLine msg id fields)
      [(.result taskId result ((fields.lookup "path".toList).getD []) (fields.lookup "score".toList)
        (fields.lookup "message".toList), id)] := by
  intro heard c told
  have fourth : (gStrsplit (taskUrl job.recipeId taskId "results/".toList))[4]? = some taskId :=
    fourth_taskUrl member
  have known := told.known member
  rw [handleMessage_formLine path (processPath_results job_named (job_numbered member)), call, formLine]
  unfold tasksResultsCb
  simp only [fourth, known, jsonToHashtable_form, held,
    TransactionIds.jsonHeaders_transactionId method, Bool.true_eq_false, if_false, Option.getD_some,
    Option.map_some]
  refine ⟨_, rfl, ?_⟩
  unfold Told at told ⊢
  rw [record_recordResult]
  have same : record { c with connRetries := 0, started := true } = ReportTransfer.told job.tasks heard :=
    told
  rw [same]
  unfold ReportTransfer.told
  rw [List.filterMap_append, List.filterMap_append, List.filterMap_append, toldTask_result]
  simp only [List.filterMap_cons, List.filterMap_nil, statusOf, resultOf, watchdogOf, List.append_nil,
    List.map_append, List.map_singleton, worst_append, List.map_map]
  rfl

private theorem brings_watchdog {seconds : Nat}
    (path : msg.path = '/' :: ("recipes".toList ++ '/' :: (job.recipeId ++ '/' :: "watchdog".toList)))
    (held : fields.lookup "seconds".toList = some (Decimal.print seconds)) :
    Channel.Brings handleMessage (Told job) (formLine msg id fields)
      [(.watchdog (min seconds (2 ^ 64 - 1)), id)] := by
  intro heard c told
  rw [handleMessage_formLine path (processPath_watchdog job_named), call, formLine, watchdogCb]
  simp only [jsonToHashtable_form, held, Option.map_some, Option.getD_some, Decimal.strtoull_print_min]
  refine ⟨_, rfl, ?_⟩
  unfold Told at told ⊢
  obtain ⟨tasks, recipe, result, watchdog⟩ := Record.mk.inj told
  unfold record ReportTransfer.told
  rw [List.filterMap_append, List.filterMap_append, List.filterMap_append, toldTask_watchdog]
  simp only [List.filterMap_cons, List.filterMap_nil, statusOf, resultOf, watchdogOf, List.append_nil,
    List.getLast?_concat, Record.mk.injEq, and_true]
  exact ⟨tasks, recipe, result⟩

/-- The bytes of a log bring nothing that is recorded here. -/
theorem brings_log {type : Logging.LogType} {offset : Nat} {data : List UInt8} (member : taskId ∈ job.tasks)
    (nonempty : data ≠ []) (bound : offset + data.length < 2 ^ 63) :
    Channel.Brings handleMessage (Told job)
      ⟨jsonHeaders (logMessage (taskPath (recipePath job.recipeId) taskId)
        (Logging.rstrntLogTypeGetPath type) offset data) id, .string data⟩ [] := by
  intro heard c told
  have ids : c.tasks.map TaskNode.id = job.tasks := by
    have same : (record c).tasks.map TaskRecord.id = job.tasks := by
      rw [told, ReportTransfer.told, List.map_map]
      exact List.map_id _
    rw [record, List.map_map] at same
    exact same
  obtain ⟨c', -, handled, -⟩ :=
    handleMessage_log job_named (job_numbered member) (ids ▸ member) nonempty bound
  refine ⟨c', handled, ?_⟩
  have called := handled
  unfold handleMessage at called
  have below : (logMessage (taskPath (recipePath job.recipeId) taskId)
      (Logging.rstrntLogTypeGetPath type) offset data).path =
      taskUrl job.recipeId taskId (Logging.rstrntLogTypeGetPath type).toList := taskPath_below
  simp only [jsonHeaders_path, below, processPath_logs job_named (job_numbered member), call] at called
  rw [List.append_nil]
  exact (record_tasksLogsCb called).trans told

/-- The components of the path of an upload. -/
theorem splitOn_upload {name : Component} {result : Option Nat} :
    ∃ front, (uploadPath name result).splitOn '/' = front ++ [name.val] ∧
      (front[0]? = some "logs".toList ∨ front.length = 3) := by
  cases result with
  | none =>
    refine ⟨["logs".toList], ?_, .inl rfl⟩
    unfold uploadPath
    rw [LogRouting.logs_append, LogRouting.splitOn_logs, List.splitOn_eq_singleton name.property]
    rfl
  | some result =>
    have clean : '/' ∉ Decimal.print result :=
      slash_not_mem_of_alnum (alnum_of_digit fun _ => Decimal.isDigit_of_mem_print)
    have path : uploadPath name (some result) =
        "results/".toList ++ Decimal.print result ++ "/logs/".toList ++ name.val := rfl
    refine ⟨["results".toList, Decimal.print result, "logs".toList], ?_, .inr rfl⟩
    rw [path, LogRouting.resultLogs_append, LogRouting.splitOn_resultLogs clean,
      List.splitOn_eq_singleton name.property]
    rfl

/-- An upload leads to `tasks_logs_cb`, or to `recipe_start_cb` when the file is named `start`. -/
theorem processPath_upload (member : taskId ∈ job.tasks) (result : Option Nat) (name : Component) :
    processPath (taskUrl job.recipeId taskId (uploadPath name result)) =
      if name.val = "start".toList then some .recipeStartCb else some .tasksLogsCb := by
  by_cases start : name.val = "start".toList
  · rw [if_pos start]
    apply LogRouting.processPath_start
    cases result with
    | none =>
      have tail : "logs/".toList ++ "start".toList = "logs".toList ++ "/start".toList := by decide
      show _ <:+ taskUrl job.recipeId taskId ("logs/".toList ++ name.val)
      rw [start, tail, LogRouting.taskUrl_append]
      exact List.suffix_append _ _
    | some result =>
      have tail : "/logs/".toList ++ "start".toList = "/logs".toList ++ "/start".toList := by decide
      show _ <:+ taskUrl job.recipeId taskId
        ("results/".toList ++ Decimal.print result ++ "/logs/".toList ++ name.val)
      rw [start, List.append_assoc, tail, ← List.append_assoc, LogRouting.taskUrl_append]
      exact List.suffix_append _ _
  · rw [if_neg start]
    have logs := mt (LogRouting.swallowed_iff_start name.property).mp start
    cases result with
    | none => exact (LogRouting.processPath_taskLogs job_named (job_numbered member)).mpr logs
    | some result =>
      exact (LogRouting.processPath_resultLogs job_named (job_numbered member)
        ⟨Decimal.print_ne_nil, fun _ => Decimal.isDigit_of_mem_print⟩).mpr logs

private theorem tasksLogsCb_upload (member : taskId ∈ job.tasks) (result : Option Nat) (name : Component)
    (c : RecipeData) (headers : Text → Option Text) (data : List UInt8) :
    ∃ c', tasksLogsCb c (taskUrl job.recipeId taskId (uploadPath name result)) headers (.string data) =
      some c' := by
  have recipe := slash_not_mem_of_alnum job.alphanumeric
  have task := slash_not_mem_of_alnum (alnum_of_digit (job.numeric taskId member))
  obtain ⟨front, components, known⟩ : ∃ front, (uploadPath name result).splitOn '/' = front ++ [name.val] ∧
    (front[0]? = some "logs".toList ∨ front.length = 3) := splitOn_upload
  unfold tasksLogsCb
  rw [gStrsplit_taskUrl recipe task, components]
  simp only [List.getElem?_cons_succ, List.getElem?_cons_zero]
  split
  · exact ⟨_, rfl⟩
  split
  · exact ⟨_, rfl⟩
  rename_i other
  split
  · rename_i short
    rcases known with logs | length
    · cases front with
      | nil => cases logs
      | cons first front => exact absurd logs other
    · simp [length] at short
  · exact ⟨_, rfl⟩

/-- An upload brings nothing that is recorded here. -/
theorem brings_upload {result : Option Nat} {name : Component} {data : List UInt8}
    (member : taskId ∈ job.tasks)
    (path : msg.path = taskUrl job.recipeId taskId (uploadPath name result)) :
    Channel.Brings handleMessage (Told job) ⟨jsonHeaders msg id, .string data⟩ [] := by
  intro heard c told
  rw [List.append_nil]
  unfold handleMessage
  simp only [jsonHeaders_path, path, processPath_upload member]
  by_cases start : name.val = "start".toList
  · rw [if_pos start]
    exact ⟨_, rfl, told⟩
  · rw [if_neg start]
    obtain ⟨c', called⟩ := tasksLogsCb_upload member result name { c with connRetries := 0 }
      (jsonToHashtable (jsonHeaders msg id)) data
    exact ⟨c', called, (record_tasksLogsCb called).trans told⟩

/-! ## Runs -/

variable {first : Nat} {past : List Saying} {x : Saying} {e : Event} {es : List Event}

private theorem restraintStdoutMessage_post (method : msg.method = "POST".toList)
    (body : msg.requestBody = .form fields) (printed : restraintStdoutMessage s msg = some t) :
    t = { s with
      transactionId := s.transactionId + 1
      pipe := s.pipe ++ [formLine msg s.transactionId fields] } := by
  unfold restraintStdoutMessage at printed
  rw [body, if_pos method] at printed
  cases under : strstr msg.path "/logs/".toList with
  | true =>
    rw [under] at printed
    cases printed
  | false =>
    rw [under] at printed
    cases printed
    rfl

private theorem restraintStdoutMessage_put {data : List UInt8} (method : msg.method ≠ "POST".toList)
    (body : msg.requestBody = .text data) (printed : restraintStdoutMessage s msg = some t) :
    t = { s with pipe := s.pipe ++ [⟨jsonHeaders msg s.transactionId, .string data⟩] } := by
  unfold restraintStdoutMessage at printed
  rw [body, if_neg method] at printed
  cases under : strstr msg.path "/logs/".toList with
  | false =>
    rw [under] at printed
    cases printed
  | true =>
    rw [under] at printed
    cases printed
    rfl

/-- All that was said was heard or is on the way, and the next message gets the next id. -/
structure Telling (job : Job) (first : Nat) (past : List Saying) (s : Transfer) : Prop where
  uri : s.recipeUri = recipePath job.recipeId
  ids : s.tasks.map LogTransfer.Task.taskId = job.tasks
  next : s.transactionId = first + past.length
  flight : Channel.InFlight handleMessage (Told job) (past.zipIdx first) s.pipe s.client

theorem Telling.member {i : Nat} {task : LogTransfer.Task} (telling : Telling job first past s)
    (found : s.tasks[i]? = some task) : job.tasks[i]? = some task.taskId ∧ task.taskId ∈ job.tasks := by
  have held : job.tasks[i]? = some task.taskId := by
    rw [← telling.ids, List.getElem?_map, found, Option.map_some]
  exact ⟨held, List.mem_of_getElem? held⟩

/-- A form is printed and says one thing. -/
theorem Telling.post (telling : Telling job first past s) (method : msg.method = "POST".toList)
    (body : msg.requestBody = .form fields)
    (brings : Channel.Brings handleMessage (Told job) (formLine msg s.transactionId fields)
      [(x, s.transactionId)])
    (printed : restraintStdoutMessage s msg = some t) :
    Telling job first (past ++ [x]) t ∧ t.current = s.current := by
  obtain rfl := restraintStdoutMessage_post method body printed
  refine ⟨⟨telling.uri, telling.ids, ?_, ?_⟩, rfl⟩
  · simp only [telling.next, List.length_append, List.length_singleton, Nat.add_assoc]
  · rw [List.zipIdx_append, ← telling.next]
    exact telling.flight.send brings

theorem Telling.log {type : Logging.LogType} {data : List UInt8} {stored : Bool}
    (telling : Telling job first past s) (logged : restraintLogTask s type data stored = some t) :
    Telling job first past t ∧ t.current = s.current := by
  unfold restraintLogTask at logged
  split at logged
  · cases logged
    exact ⟨telling, rfl⟩
  rename_i nonempty
  unfold connectionsWrite at logged
  split at logged
  · cases logged
    exact ⟨telling, rfl⟩
  rename_i i task current
  split at logged
  · cases logged
    exact ⟨telling, rfl⟩
  simp only at logged
  split at logged
  · cases logged
  rename_i bound
  obtain ⟨j, -, located⟩ := Option.bind_eq_some_iff.mp current
  obtain ⟨task', found, same⟩ := Option.map_eq_some_iff.mp located
  cases same
  obtain ⟨u, printed, rfl⟩ := Option.map_eq_some_iff.mp logged
  have put : "PUT".toList ≠ "POST".toList := by decide
  obtain rfl := restraintStdoutMessage_put put rfl printed
  have held := telling.member found
  refine ⟨⟨telling.uri, ?_, telling.next, ?_⟩, rfl⟩
  · have here : (s.tasks.map LogTransfer.Task.taskId)[i]? = some task.taskId := telling.ids ▸ held.1
    rw [List.map_set]
    exact (set_of_getElem? here).trans telling.ids
  · rw [← List.append_nil (past.zipIdx first), telling.uri]
    exact telling.flight.send (brings_log held.2 nonempty (Nat.lt_of_not_le bound))

theorem Telling.report {i : Nat} {report : Report} (telling : Telling job first past s)
    (reported : LogTransfer.report s i report = some t) :
    Telling job first (past ++ (sayingOf job.tasks s.current (.own (.report i report))).toList) t ∧
      t.current = s.current := by
  unfold LogTransfer.report at reported
  split at reported
  · cases reported
  rename_i task found
  obtain ⟨held, member⟩ := telling.member found
  have said : sayingOf job.tasks s.current (.own (.report i report)) =
      some (saying task.taskId report) := by
    rw [sayingOf, held, Option.map_some]
  rw [said, Option.toList_some]
  rw [telling.uri] at reported
  cases report with
  | status status =>
    refine telling.post rfl rfl (brings_status member taskPath_below ?_ ?_) reported
    · rfl
    · rfl
  | result result path score message =>
    refine telling.post rfl rfl ?_ reported
    cases message <;> exact brings_result member rfl taskPath_below rfl
  | watchdog seconds =>
    exact telling.post rfl rfl (brings_watchdog recipePath_below rfl) reported

theorem Telling.own {event : LogTransfer.Event} (telling : Telling job first past s)
    (stepped : LogTransfer.step s event = some t) :
    Telling job first (past ++ (sayingOf job.tasks s.current (.own event)).toList) t ∧
      t.current = turned s.current (.own event) := by
  cases event with
  | log type data stored =>
    rw [sayingOf, Option.toList_none, List.append_nil]
    · exact telling.log stepped
    · simp
  | report i report => exact telling.report stepped
  | turn current =>
    cases stepped
    rw [sayingOf, Option.toList_none, List.append_nil]
    · exact ⟨⟨telling.uri, telling.ids, telling.next, telling.flight⟩, rfl⟩
    · simp
  | cancel cancelled =>
    cases stepped
    rw [sayingOf, Option.toList_none, List.append_nil]
    · exact ⟨⟨telling.uri, telling.ids, telling.next, telling.flight⟩, rfl⟩
    · simp
  | deliver =>
    rw [sayingOf, Option.toList_none, List.append_nil]
    · simp only [LogTransfer.step] at stepped
      split at stepped
      · cases stepped
      · rename_i line rest pipe
        obtain ⟨client, handled, rfl⟩ := Option.map_eq_some_iff.mp stepped
        exact ⟨⟨telling.uri, telling.ids, telling.next, (pipe ▸ telling.flight).deliver handled⟩, rfl⟩
    · simp

private theorem lookup_field {key other value : Text} :
    [(key, value)].lookup other = if other = key then some value else none := by
  rw [List.lookup_cons, List.lookup_nil]
  by_cases same : other = key
  · rw [beq_iff_eq.mpr same, if_pos same]
  · rw [beq_eq_false_iff_ne.mpr same, if_neg same]

private theorem lookup_option {key other : Text} {value : Option Text} :
    ((value.map fun value => (key, value)).toList).lookup other = if other = key then value else none := by
  cases value with
  | none => exact (ite_self _).symm
  | some value => exact lookup_field

/-- What `tasks_results_cb` looks up in the form of `rstrnt-report-result`. -/
theorem lookup_uploadResults {avcError : Option Text} {appData : AppData} {key : Text}
    (disable : key ≠ "disable_plugin".toList) (plugins : key ≠ "no_plugins".toList) :
    (uploadResults avcError appData).lookup key =
      if key = "path".toList then some appData.testName
      else if key = "result".toList then some appData.testResult
      else if key = "score".toList then appData.score
      else if key = "message".toList then appData.resultMsg
      else none := by
  have differ : "score".toList ≠ "message".toList := by decide
  unfold uploadResults
  generalize "path".toList = path, "result".toList = result, "score".toList = score,
    "message".toList = message, "disable_plugin".toList = disabling,
    "no_plugins".toList = noPlugins at disable plugins differ ⊢
  have first : [(path, appData.testName), (result, appData.testResult)] =
      [(path, appData.testName)] ++ [(result, appData.testResult)] := rfl
  have absent (b : Prop) [Decidable b] (value : Text) :
      (if b then [] else [(disabling, value)]).lookup key = none := by
    split
    · rfl
    · rw [lookup_field, if_neg disable]
  have plain : (if appData.noPlugins then [(noPlugins, ['\x01'])] else []).lookup key = none := by
    split
    · rw [lookup_field, if_neg plugins]
    · rfl
  simp only [first, List.lookup_append, lookup_field, lookup_option, absent, plain, Option.or_none]
  split_ifs <;> simp_all

/-- What one event adds to what was said. -/
theorem telling_step (telling : Telling job first past s) (stepped : step s e = some t) :
    Telling job first (past ++ (sayingOf job.tasks s.current e).toList) t ∧
      t.current = turned s.current e := by
  cases e with
  | own event => exact telling.own stepped
  | result headers avcError appData =>
    obtain ⟨task, current, printed⟩ := Option.bind_eq_some_iff.mp stepped
    obtain ⟨i, place, found⟩ := Option.bind_eq_some_iff.mp current
    obtain ⟨held, member⟩ := telling.member found
    have said : sayingOf job.tasks s.current (.result headers avcError appData) =
        some (.result task.taskId appData.testResult appData.testName appData.score
          appData.resultMsg) := by
      rw [sayingOf, place, Option.bind_some, held, Option.map_some]
    rw [said, Option.toList_some]
    rw [telling.uri] at printed
    have path : (uploadResults avcError appData).lookup "path".toList = some appData.testName :=
      lookup_uploadResults (by decide) (by decide)
    have result : (uploadResults avcError appData).lookup "result".toList = some appData.testResult :=
      lookup_uploadResults (by decide) (by decide)
    have score : (uploadResults avcError appData).lookup "score".toList = appData.score :=
      lookup_uploadResults (by decide) (by decide)
    have message : (uploadResults avcError appData).lookup "message".toList = appData.resultMsg :=
      lookup_uploadResults (by decide) (by decide)
    refine telling.post rfl rfl ?_ printed
    rw [← score, ← message, ← Option.getD_some (a := appData.testName) (b := []), ← path]
    exact brings_result member rfl taskPath_below result
  | adjust headers seconds =>
    obtain ⟨task, -, printed⟩ := Option.bind_eq_some_iff.mp stepped
    rw [telling.uri] at printed
    rw [sayingOf, Option.toList_some]
    refine telling.post rfl rfl ?_ printed
    generalize WatchdogAdjust.maxTime seconds + WatchdogAdjust.EWD_TIME = total
    have fits : Saying.watchdog total.toNat = .watchdog (min total.toNat (2 ^ 64 - 1)) := by
      rw [min_eq_left (Nat.le_sub_one_of_lt total.toNat_lt)]
    have field : [("seconds".toList, Decimal.print total.toNat)].lookup "seconds".toList =
        some (Decimal.print total.toNat) := rfl
    rw [fits]
    exact brings_watchdog recipePath_below field
  | upload headers i result name data =>
    obtain ⟨-, -, located⟩ := Option.bind_eq_some_iff.mp stepped
    obtain ⟨task, found, printed⟩ := Option.bind_eq_some_iff.mp located
    rw [telling.uri] at printed
    have put : "PUT".toList ≠ "POST".toList := by decide
    obtain rfl := restraintStdoutMessage_put put rfl printed
    rw [sayingOf, Option.toList_none, List.append_nil]
    refine ⟨⟨telling.uri, telling.ids, telling.next, ?_⟩, rfl⟩
    rw [← List.append_nil (past.zipIdx first)]
    exact telling.flight.send (brings_upload (telling.member found).2 taskPath_below)

private theorem telling_run (telling : Telling job first past s) (ran : run step s es = some t) :
    Telling job first (past ++ sayings job.tasks s.current es) t := by
  induction es generalizing s past with
  | nil =>
    obtain rfl := run_nil.mp ran
    rwa [sayings, List.append_nil]
  | cons e es ih =>
    obtain ⟨next, stepped, rest⟩ := run_cons.mp ran
    obtain ⟨telling, current⟩ := telling_step telling stepped
    rw [sayings, ← List.append_assoc, ← current]
    exact ih telling rest

private theorem telling_start {runDir : Text} : Telling job first [] (start job runDir first) where
  uri := rfl
  ids := arriving_start.ids
  next := rfl
  flight := by
    refine .start ?_
    unfold Told record told start newClient
    simp only [List.map_map, Record.mk.injEq]
    exact ⟨List.map_congr_left fun _ _ => rfl, rfl, rfl, rfl⟩

end Restraint.ReportTransfer

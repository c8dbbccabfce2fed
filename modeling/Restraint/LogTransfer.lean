import Restraint.Client
import Restraint.Logging

/-! The logs of a recipe that the client runs over a pipe: `connections_write`
of `task.c` makes a message of what is logged, `restraint_stdout_message` of
`message.c` prints it, and the client handles the lines it reads in order. Of
libsoup and json-c it is assumed that a printed message is read back unchanged. -/
namespace Restraint.LogTransfer
open CString Restraint.Client
open Restraint.Logging (LogType rstrntLogTypeGetPath restraintTaskGetOffset)

/-- A job the client runs: `copy_task_nodes` numbers the tasks of a recipe. -/
structure Job where
  recipeId : Text
  tasks : List Text
  named : recipeId ≠ []
  alphanumeric : ∀ c ∈ recipeId, c.isAlphanum = true
  numbered : ∀ taskId ∈ tasks, taskId ≠ []
  numeric : ∀ taskId ∈ tasks, ∀ c ∈ taskId, c.isDigit = true
  distinct : tasks.Nodup

/-- The ids `copy_task_nodes` gives to the tasks of a recipe. -/
def copyTaskNodes (count : Nat) : List Text := (List.range count).map fun i => Decimal.print (i + 1)

/-- The job of a recipe with so many tasks. -/
def Job.ofTemplate (recipeId : Text) (count : Nat) (named : recipeId ≠ [])
    (alphanumeric : ∀ c ∈ recipeId, c.isAlphanum = true) : Job where
  recipeId := recipeId
  tasks := copyTaskNodes count
  named := named
  alphanumeric := alphanumeric
  numbered := by
    intro taskId member
    obtain ⟨i, -, rfl⟩ := List.mem_map.mp member
    exact Decimal.print_ne_nil
  numeric := by
    intro taskId member c inside
    obtain ⟨i, -, rfl⟩ := List.mem_map.mp member
    exact Decimal.isDigit_of_mem_print inside
  distinct := List.nodup_range.map fun i j same => Nat.succ.inj (Decimal.print_injective same)

/-- `Task`, with the log offsets of the task. -/
structure Task where
  taskId : Text
  offsets : String → Option Nat

/-- A request body: bytes to store, or a form. -/
inductive RequestBody where
  | text (data : List UInt8)
  | form (fields : List (Text × Text))
  deriving DecidableEq

structure SoupMessage where
  method : Text
  path : Text
  requestHeaders : List (Text × Text)
  requestBody : RequestBody
  deriving DecidableEq

/-- The daemon, the pipe and the client. -/
structure Transfer where
  /-- The path of `recipe_uri`. -/
  recipeUri : Text
  tasks : List Task
  /-- The task `app_data->tasks` points to; none when it is `NULL`. -/
  current : Option Nat
  cancelled : Bool
  /-- The config file: the value of a key in a section. -/
  config : Text → String → Option Nat
  transactionId : Nat
  /-- The lines printed that the client has not read yet. -/
  pipe : List Line
  client : RecipeData
  /-- What was logged, for each task and path. -/
  written : Text → String → List UInt8

/-- The path `soup_uri_new_with_base` gives a relative reference: it stands in
place of what follows the last slash of the base. -/
def soupUriNewWithBase (base reference : Text) : Text :=
  (base.reverse.dropWhile (· != '/')).reverse ++ reference

/-- `recipe_parse` for a job read from standard input. -/
def recipePath (recipeId : Text) : Text := "/recipes/".toList ++ recipeId ++ "/".toList

/-- The path of `task_uri`, from `parse_task`. -/
def taskPath (recipeUri taskId : Text) : Text :=
  soupUriNewWithBase recipeUri ("tasks/".toList ++ taskId ++ "/".toList)

/-- `soup_message_headers_set_content_range` with an unknown total. -/
def contentRange (start stop : Nat) : Text :=
  "bytes ".toList ++ Decimal.print start ++ '-' :: (Decimal.print stop ++ "/*".toList)

/-- `soup_form_encode`, a character of a name or a value. -/
def formEncodeChar (c : Char) : Text :=
  if c = ' ' then ['+']
  else if c.isAlphanum ∨ c = '-' ∨ c = '_' ∨ c = '.' then [c]
  else ['%', Nat.digitChar (c.toNat / 16), Nat.digitChar (c.toNat % 16)]

def soupFormEncode (fields : List (Text × Text)) : Text :=
  ['&'].intercalate (fields.map fun field =>
    field.1.flatMap formEncodeChar ++ '=' :: field.2.flatMap formEncodeChar)

/-- `json_object_object_add`. -/
def jsonObjectObjectAdd (object : Text → Option Json) (key : Text) (value : Json) :
    Text → Option Json :=
  Function.update object key (some value)

def RequestBody.length : RequestBody → Nat
  | .text data => data.length
  | .form fields => (soupFormEncode fields).length

/-- The headers `restraint_stdout_message` prints. -/
def jsonHeaders (msg : SoupMessage) (transactionId : Nat) : Text → Option Json :=
  let headers := msg.requestHeaders.foldl
    (fun object header => jsonObjectObjectAdd object header.1 (.string header.2)) fun _ => none
  let headers := if msg.method = "POST".toList then
      jsonObjectObjectAdd headers "transaction-id".toList (.string (Decimal.print transactionId))
    else headers
  let headers := jsonObjectObjectAdd headers "rstrnt-path".toList (.string msg.path)
  let headers := jsonObjectObjectAdd headers "rstrnt-method".toList (.string msg.method)
  jsonObjectObjectAdd headers "body-length".toList (.int msg.requestBody.length)

/-- `restraint_stdout_message`: under `/logs/` the body is printed in base64, else
as the form it is. Other bodies (a form under a recipe called `logs`) are not
covered: the result is `none`. -/
def restraintStdoutMessage (s : Transfer) (msg : SoupMessage) : Option Transfer :=
  let headers := jsonHeaders msg s.transactionId
  let body := match strstr msg.path "/logs/".toList, msg.requestBody with
    | true, .text data => some (Body.string data)
    | false, .form fields => some (.object fun key => (fields.lookup key).map Json.string)
    | _, _ => none
  body.map fun body =>
    { s with
      transactionId := if msg.method = "POST".toList then s.transactionId + 1 else s.transactionId
      pipe := s.pipe ++ [⟨headers, body⟩] }

/-- The request of `connections_write` for bytes at an offset of a log. -/
def logMessage (taskUri : Text) (path : String) (offset : Nat) (data : List UInt8) : SoupMessage where
  method := "PUT".toList
  path := soupUriNewWithBase taskUri path.toList
  requestHeaders :=
    [("Content-Range".toList, contentRange offset (offset + data.length - 1)),
      ("log-level".toList, "2".toList), ("Content-Type".toList, "text/plain".toList)]
  requestBody := .text data

/-- `connections_write`, where `stored` is whether the config file could be
written. Nothing is written after an abort, and a log ends at the largest
`goffset`, as its file does. -/
def connectionsWrite (s : Transfer) (path : String) (data : List UInt8) (stored : Bool) :
    Option Transfer :=
  match s.current.bind fun i => s.tasks[i]?.map fun task => (i, task) with
  | none => some s
  | some (i, task) =>
    if s.cancelled then some s
    else
      let offset := restraintTaskGetOffset task.offsets path
      let stop := offset + data.length
      if 2 ^ 63 ≤ stop then none
      else
        let task := { task with offsets := Function.update task.offsets path (some stop) }
        let message := logMessage (taskPath s.recipeUri task.taskId) path offset data
        (restraintStdoutMessage { s with tasks := s.tasks.set i task } message).map fun s =>
          { s with
            config := if stored then
                Function.update s.config ("offsets_".toList ++ task.taskId)
                  (Function.update (s.config ("offsets_".toList ++ task.taskId)) path (some stop))
              else s.config
            written := Function.update s.written task.taskId
              (Function.update (s.written task.taskId) path (s.written task.taskId path ++ data)) }

/-- `restraint_log_task` without the log manager. -/
def restraintLogTask (s : Transfer) (type : LogType) (data : List UInt8) (stored : Bool) :
    Option Transfer :=
  if data = [] then some s else connectionsWrite s (rstrntLogTypeGetPath type) data stored

/-- What the daemon says about a task besides its logs. -/
inductive Report where
  /-- `restraint_task_status`. -/
  | status (status : Text)
  /-- `restraint_task_result`. -/
  | result (result path score : Text) (message : Option Text)
  /-- `restraint_task_watchdog`. -/
  | watchdog (seconds : Nat)
  deriving DecidableEq

/-- A request that posts a form. -/
def post (path : Text) (fields : List (Text × Text)) : SoupMessage where
  method := "POST".toList
  path := path
  requestHeaders := [("Content-Type".toList, "application/x-www-form-urlencoded".toList)]
  requestBody := .form fields

/-- The request of a report. -/
def reportMessage (recipeUri taskId : Text) : Report → SoupMessage
  | .status status => post (soupUriNewWithBase (taskPath recipeUri taskId) "status".toList)
      [("status".toList, status)]
  | .result result path score message =>
    post (soupUriNewWithBase (taskPath recipeUri taskId) "results/".toList)
      ([("result".toList, result), ("path".toList, path), ("score".toList, score)] ++
        (message.map fun message => ("message".toList, message)).toList)
  | .watchdog seconds => post (soupUriNewWithBase recipeUri "watchdog".toList)
      [("seconds".toList, Decimal.print seconds)]

/-- A report on the task at a place of the list. -/
def report (s : Transfer) (i : Nat) (r : Report) : Option Transfer :=
  match s.tasks[i]? with
  | none => none
  | some task => restraintStdoutMessage s (reportMessage s.recipeUri task.taskId r)

inductive Event where
  | log (type : LogType) (data : List UInt8) (stored : Bool)
  | report (i : Nat) (report : Report)
  /-- Another task becomes the current one, or none is. -/
  | turn (current : Option Nat)
  /-- An abort, or its end. -/
  | cancel (cancelled : Bool)
  /-- The client handles the next line. -/
  | deliver
  deriving DecidableEq

def step (s : Transfer) : Event → Option Transfer
  | .log type data stored => restraintLogTask s type data stored
  | .report i r => report s i r
  | .turn current => some { s with current := current }
  | .cancel cancelled => some { s with cancelled := cancelled }
  | .deliver =>
    match s.pipe with
    | [] => none
    | line :: rest =>
      (handleMessage s.client line).map fun client => { s with pipe := rest, client := client }

/-- The node `copy_task_nodes` writes for a task. -/
def newTask (taskId : Text) : TaskNode where
  id := taskId
  status := "New".toList
  result := "None".toList
  logs := []
  results := []

/-- The client with a fresh run directory. -/
def newClient (job : Job) (runDir : Text) : RecipeData where
  runDir := runDir
  status := "New".toList
  result := "None".toList
  tasks := job.tasks.map newTask
  distinct := by
    have ids : TaskNode.id ∘ newTask = id := rfl
    rw [List.map_map, ids, List.map_id]
    exact job.distinct
  files := fun _ => none
  started := false
  connRetries := 0
  watchdog := none

/-- The start of a recipe that was not run before. -/
def start (job : Job) (runDir : Text) (transactionId : Nat) : Transfer where
  recipeUri := recipePath job.recipeId
  tasks := job.tasks.map fun taskId => ⟨taskId, fun _ => none⟩
  current := none
  cancelled := false
  config := fun _ _ => none
  transactionId := transactionId
  pipe := []
  client := newClient job runDir
  written := fun _ _ => []

/-- The path of a log in the job XML and below the run directory. -/
def logPath (recipeId taskId : Text) (type : LogType) : Text :=
  "recipes/".toList ++ recipeId ++ "/tasks/".toList ++ taskId ++ '/' ::
    (rstrntLogTypeGetPath type).toList

/-- A file with this content, and no file when there is none. -/
def fileOf (content : List UInt8) : Option (SparseFile UInt8) :=
  if content = [] then none else some (content.map some)

end Restraint.LogTransfer

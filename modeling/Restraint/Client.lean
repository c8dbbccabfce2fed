import Restraint.Lib.CString
import Restraint.Lib.Decimal
import Restraint.Lib.Regex
import Restraint.Lib.SparseFile
import Mathlib.Logic.Function.Basic

/-! What the client of `client.c` does with the messages the daemon prints: it
looks their path up among the registered patterns and records what they say in
the job XML; the bytes of a log go into a file of the run directory. What the
client shows on its terminal and the times and versions it notes for a task are
left out. -/
namespace Restraint.Client
open CString
open Regex (Pattern)

inductive Json where
  | null
  | string (text : Text)
  | int (number : Int)
  deriving DecidableEq

/-- The body of a message: a base64 string, here what it decodes to, or an object. -/
inductive Body where
  | string (data : List UInt8)
  | object (fields : Text → Option Json)

/-- A line the daemon prints. -/
structure Line where
  headers : Text → Option Json
  body : Body

/-- `json_to_hashtable`, which keeps the strings. -/
def jsonToHashtable (object : Text → Option Json) (key : Text) : Option Text :=
  match object key with
  | some (.string text) => some text
  | _ => none

/-- `<log>`. -/
structure LogNode where
  path : Text
  filename : Option Text
  deriving DecidableEq

/-- `<result>` with its `<logs>`. -/
structure ResultNode where
  id : Text
  path : Text
  result : Text
  message : Option Text
  score : Option Text
  logs : List LogNode
  deriving DecidableEq

/-- `<task>` with its `<logs>` and `<results>`. -/
structure TaskNode where
  id : Text
  status : Text
  result : Text
  logs : List LogNode
  results : List ResultNode
  deriving DecidableEq

/-- The client's data for a recipe and its `<recipe>`. `copy_task_nodes` numbers the tasks, so no
two nodes have one id. -/
structure RecipeData where
  runDir : Text
  status : Text
  result : Text
  tasks : List TaskNode
  distinct : (tasks.map TaskNode.id).Nodup
  files : Text → Option (SparseFile UInt8)
  started : Bool
  connRetries : Nat
  /-- The seconds of the watchdog timer, if one is set. -/
  watchdog : Option Nat

/-- Changes the node of a task, but not its id. -/
def updateTask (c : RecipeData) (id : Text) (change : TaskNode → TaskNode)
    (keeps : ∀ task, (change task).id = task.id) : RecipeData :=
  { c with
    tasks := c.tasks.map fun task => if task.id = id then change task else task
    distinct := by
      have same : TaskNode.id ∘ (fun task => if task.id = id then change task else task) =
          TaskNode.id := by
        funext task
        simp only [Function.comp_apply]
        split
        · exact keeps task
        · rfl
      rw [List.map_map, same]
      exact c.distinct }

/-- A number read into a `goffset`. -/
def toGoffset (n : Nat) : Int := if n < 2 ^ 63 then n else n - 2 ^ 64

def gAsciiIsspace (c : Char) : Bool :=
  c == ' ' || c == '\t' || c == '\n' || c == '\x0c' || c == '\r'

/-- `headers_get_content_range`: the start, the end and the total length, -1 when
that is not known. -/
def headersGetContentRange (headers : Text → Option Text) : Option (Int × Int × Int) :=
  match headers "Content-Range".toList with
  | none => none
  | some header =>
    if "bytes ".toList.isPrefixOf header = false then none
    else
      let header := (header.drop 6).dropWhile gAsciiIsspace
      if header.head?.any Char.isDigit = false then none
      else
        match Decimal.strtoull header with
        | (start, '-' :: p) =>
          match Decimal.strtoull p with
          | (stop, '/' :: '*' :: p) =>
            if p = [] then some (toGoffset start, toGoffset stop, -1) else none
          | (stop, '/' :: p) =>
            let (length, p) := Decimal.strtoull p
            if p = [] then some (toGoffset start, toGoffset stop, toGoffset length) else none
          | _ => none
        | _ => none

/-- `update_chunk`. A negative offset fails in `lseek`, after the file was made. -/
def updateChunk (c : RecipeData) (filename : Text) (data : List UInt8) (offset : Int) : RecipeData :=
  let file := (c.files filename).getD []
  { c with
    files := Function.update c.files filename
      (if offset < 0 ∨ data = [] then some file else some (file.write offset.toNat data)) }

/-- `truncate`, when the file is there. -/
def truncateFile (c : RecipeData) (filename : Text) (size : Nat) : RecipeData :=
  { c with files := Function.update c.files filename ((c.files filename).map (·.truncate size)) }

/-- `result_to_id` with the table of `init_result_hash`. -/
def resultToId (result : Text) : Nat :=
  if result = "SKIPPED".toList then 1
  else if result = "PASS".toList then 2
  else if result = "WARN".toList then 3
  else if result = "FAIL".toList then 4
  else 0

/-- `record_result`, with the worst result pushed up to the task and the recipe. -/
def recordResult (c : RecipeData) (taskId : Text) (node : ResultNode) : RecipeData :=
  let worse (old : Text) := if resultToId old < resultToId node.result then node.result else old
  { updateTask c taskId (fun task =>
      { task with results := task.results ++ [node], result := worse task.result })
      fun _ => rfl with
    result := worse c.result }

def hexValue (c : Char) : Option Nat :=
  if '0' ≤ c ∧ c ≤ '9' then some (c.toNat - '0'.toNat)
  else if 'a' ≤ c ∧ c ≤ 'f' then some (c.toNat - 'a'.toNat + 10)
  else if 'A' ≤ c ∧ c ≤ 'F' then some (c.toNat - 'A'.toNat + 10)
  else none

/-- `g_uri_unescape_string`; a NUL or half an escape makes it fail. -/
def gUriUnescapeString : Text → Option Text
  | [] => some []
  | '%' :: high :: low :: rest =>
    match hexValue high, hexValue low with
    | some h, some l =>
      if 16 * h + l = 0 then none
      else (gUriUnescapeString rest).map (Char.ofNat (16 * h + l) :: ·)
    | _, _ => none
  | '%' :: _ => none
  | c :: rest => (gUriUnescapeString rest).map (c :: ·)

/-- The `<logs>` that the XPath of `tasks_logs_cb` finds first. -/
inductive LogsXpath where
  | task (id : Text)
  | result (taskId id : Text)

/-- `record_log`, if the XPath finds something. -/
def recordLog (c : RecipeData) (logsXpath : LogsXpath) (node : LogNode) : RecipeData :=
  match logsXpath with
  | .task id => updateTask c id (fun task => { task with logs := task.logs ++ [node] }) fun _ => rfl
  | .result taskId id =>
    updateTask c taskId (fun task =>
      { task with
        results := task.results.modify (task.results.findIdx (·.id = id))
          fun result => { result with logs := result.logs ++ [node] } })
      fun _ => rfl

/-- `tasks_logs_cb` once the task is found. -/
def storeLog (c : RecipeData) (logPath filename : Text) (logsXpath : LogsXpath)
    (shortPath : Option Text) (headers : Text → Option Text) (data : List UInt8) : RecipeData :=
  match headersGetContentRange headers with
  | some (start, stop, totalLength) =>
    -- the length of the body is a gsize, so the comparison is modulo 2^64
    if (data.length : Int) ≠ (stop - start + 1) % 2 ^ 64 then c
    else if 0 < totalLength ∧ totalLength < stop then c
    else
      let c := if 0 < totalLength then truncateFile c filename totalLength.toNat else c
      let c := if start = 0 then recordLog c logsXpath ⟨logPath, shortPath⟩ else c
      updateChunk c filename data start
  | none =>
    let c := truncateFile c filename data.length
    let c := recordLog c logsXpath ⟨logPath, shortPath⟩
    updateChunk c filename data 0

/-- `tasks_logs_cb`. -/
def tasksLogsCb (c : RecipeData) (path : Text) (headers : Text → Option Text) (body : Body) :
    Option RecipeData :=
  let entries := gStrsplit path
  let c := { c with started := true }
  match entries[4]?, body with
  | some taskId, .string data =>
    if c.tasks.any (·.id = taskId) = false then some c
    else
      let logPath := gStrjoinv (entries.drop 1)
      let filename := c.runDir ++ '/' :: logPath
      if entries[5]? = some "logs".toList then
        some (storeLog c logPath filename (.task taskId)
          (gUriUnescapeString (gStrjoinv (entries.drop 6))) headers data)
      else if entries.length < 8 then none
      else
        some (storeLog c logPath filename (.result taskId (entries.getD 6 []))
          (gUriUnescapeString (gStrjoinv (entries.drop 8))) headers data)
  | _, _ => none

/-- `tasks_results_cb`; a report without a result crashes `result_to_id`. -/
def tasksResultsCb (c : RecipeData) (path : Text) (headers : Text → Option Text) (body : Body) :
    Option RecipeData :=
  let c := { c with started := true }
  match (gStrsplit path)[4]?, body with
  | some taskId, .object fields =>
    if c.tasks.any (·.id = taskId) = false then some c
    else
      let body := jsonToHashtable fields
      (body "result".toList).map fun result =>
        recordResult c taskId
          { id := (headers "transaction-id".toList).getD []
            path := (body "path".toList).getD []
            result := result
            message := body "message".toList
            score := body "score".toList
            logs := [] }
  | _, _ => none

/-- `tasks_status_cb`. -/
def tasksStatusCb (c : RecipeData) (path : Text) (headers : Text → Option Text) (body : Body) :
    Option RecipeData :=
  let c := { c with started := true }
  match (gStrsplit path)[4]?, body with
  | some taskId, .object fields =>
    if c.tasks.any (·.id = taskId) = false then some c
    else
      let body := jsonToHashtable fields
      let status := (body "status".toList).getD []
      let c := match body "message".toList with
        | none => c
        | some message =>
          recordResult c taskId
            { id := (headers "transaction-id".toList).getD []
              path := "/".toList
              result := "WARN".toList
              message := some message
              score := none
              logs := [] }
      let c := updateTask c taskId (fun task => { task with status := status }) fun _ => rfl
      some { c with status := if c.status = "Aborted".toList then c.status else status }
  | _, _ => none

/-- `watchdog_cb`; it reads 0 when there are no seconds. -/
def watchdogCb (c : RecipeData) (body : Body) : Option RecipeData :=
  match body with
  | .object fields =>
    let seconds := ((jsonToHashtable fields "seconds".toList).map fun text =>
      (Decimal.strtoull text).1).getD 0
    some { c with watchdog := some seconds }
  | .string _ => none

inductive Callback where
  | recipeStartCb
  | tasksStatusCb
  | tasksResultsCb
  | watchdogCb
  | tasksLogsCb
  deriving DecidableEq

/-- A callback called; `none` when it crashes. -/
def call (c : RecipeData) (path : Text) (headers : Text → Option Text) (body : Body) :
    Callback → Option RecipeData
  | .recipeStartCb => some { c with started := true }
  | .tasksStatusCb => tasksStatusCb c path headers body
  | .tasksResultsCb => tasksResultsCb c path headers body
  | .watchdogCb => watchdogCb c body
  | .tasksLogsCb => tasksLogsCb c path headers body

/-- The patterns `main` registers, in order. -/
def regexes : List (Pattern × Callback) :=
  [([.literal "/start".toList, .stop], .recipeStartCb),
    ([.literal "/recipes/".toList, .some .alnum, .literal "/tasks/".toList, .some .digit,
      .literal "/status".toList, .stop], .tasksStatusCb),
    ([.literal "/recipes/".toList, .some .alnum, .literal "/tasks/".toList, .some .digit,
      .literal "/results/".toList, .stop], .tasksResultsCb),
    ([.literal "/recipes/".toList, .some .alnum, .literal "/watchdog".toList, .stop], .watchdogCb),
    ([.literal "/recipes/".toList, .some .alnum, .literal "/tasks/".toList, .some .digit,
      .literal "/logs/".toList], .tasksLogsCb),
    ([.literal "/recipes/".toList, .some .alnum, .literal "/tasks/".toList, .some .digit,
      .literal "/results/".toList, .some .digit, .literal "/logs/".toList], .tasksLogsCb)]

/-- `process_path`. -/
def processPath (path : Text) : Option Callback :=
  (regexes.find? fun regex => Regex.search regex.1 path).map Prod.snd

/-- `handle_message`; a message without a path or with one that matches no
pattern is dropped. -/
def handleMessage (c : RecipeData) (line : Line) : Option RecipeData :=
  let headers := jsonToHashtable line.headers
  match headers "rstrnt-path".toList with
  | none => some c
  | some path =>
    match processPath path with
    | none => some c
    | some callback => call { c with connRetries := 0 } path headers line.body callback

/-- The lines of the pipe handled in order. -/
def handleAll (c : RecipeData) (lines : List Line) : Option RecipeData := lines.foldlM handleMessage c

section Changes
universe u
variable {β : Type u} {tasks : List TaskNode} {id : Text} {change : TaskNode → TaskNode}
  {read : TaskNode → β}

/-- What is read of the nodes after a change of one of them. -/
theorem map_changed :
    (tasks.map fun task => if task.id = id then change task else task).map read =
      tasks.map fun task => if task.id = id then read (change task) else read task := by
  rw [List.map_map]
  apply List.map_congr_left
  intro task _
  exact apply_ite read _ _ _

/-- A change that leaves alone what is read. -/
theorem map_unchanged (same : ∀ task, read (change task) = read task) :
    (tasks.map fun task => if task.id = id then change task else task).map read =
      tasks.map read := by
  simp only [map_changed, same, ite_self]

end Changes

end Restraint.Client

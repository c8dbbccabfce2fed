import Restraint.LogTransfer

/-! Logs arrive. The client, having handled every line printed so far, has in
each log's file exactly what was written to the log, and one `<log>` for it. The
proof follows a line: its path leads to `tasks_logs_cb`, its range is read back
as printed, and it is written at the end of the file. -/
namespace Restraint.LogTransferProofs
open Transition CString Restraint.Client Restraint.LogTransfer
open Restraint.Logging (LogType rstrntLogTypeGetPath restraintTaskGetOffset)

variable {recipeId taskId text word rest tail : Text} {before : Regex.Pattern}
variable {job : Job} {s t : Transfer} {c : RecipeData} {type : LogType} {data : List UInt8}

section Paths

/-- A path below a task, cut at its slashes. -/
def taskUrl (recipeId taskId rest : Text) : Text :=
  '/' :: ("recipes".toList ++ '/' :: (recipeId ++ '/' :: ("tasks".toList ++ '/' ::
    (taskId ++ '/' :: rest))))

private theorem slash_eq : "/".toList = ['/'] := by decide

private theorem recipes_eq : "/recipes/".toList = '/' :: ("recipes".toList ++ ['/']) := by decide

private theorem tasks_eq : "/tasks/".toList = '/' :: ("tasks".toList ++ ['/']) := by decide

/-- A relative reference replaces the last component. -/
theorem soupUriNewWithBase_last (clean : '/' ∉ tail) :
    soupUriNewWithBase (text ++ '/' :: tail) rest = text ++ '/' :: rest := by
  have dropped : ∀ c ∈ tail.reverse, (c != '/') = true := fun c member =>
    bne_iff_ne.mpr fun same => clean (same ▸ List.mem_reverse.mp member)
  rw [soupUriNewWithBase, List.reverse_append, List.reverse_cons, List.append_assoc,
    List.dropWhile_append_of_pos dropped, List.singleton_append,
    List.dropWhile_cons_of_neg (by decide), List.reverse_cons, List.reverse_reverse,
    List.append_assoc, List.singleton_append]

theorem soupUriNewWithBase_slash :
    soupUriNewWithBase (text ++ ['/']) rest = text ++ '/' :: rest :=
  soupUriNewWithBase_last List.not_mem_nil

theorem recipePath_below :
    soupUriNewWithBase (recipePath recipeId) rest =
      '/' :: ("recipes".toList ++ '/' :: (recipeId ++ '/' :: rest)) := by
  unfold recipePath
  rewrite [slash_eq, soupUriNewWithBase_slash, recipes_eq]
  generalize "recipes".toList = recipes
  simp only [List.cons_append, List.append_assoc, List.nil_append]

theorem taskPath_below :
    soupUriNewWithBase (taskPath (recipePath recipeId) taskId) rest =
      taskUrl recipeId taskId rest := by
  have parts : taskPath (recipePath recipeId) taskId =
      '/' :: ("recipes".toList ++ '/' :: (recipeId ++ '/' :: ("tasks".toList ++ '/' :: taskId))) ++
        ['/'] := by
    have tasks : "tasks/".toList = "tasks".toList ++ ['/'] := by decide
    unfold taskPath
    rewrite [recipePath_below, tasks, slash_eq]
    generalize "recipes".toList = recipes, "tasks".toList = tasks
    simp only [List.cons_append, List.append_assoc, List.nil_append]
  unfold taskUrl
  rewrite [parts, soupUriNewWithBase_slash]
  generalize "recipes".toList = recipes, "tasks".toList = tasks
  simp only [List.cons_append, List.append_assoc]

private theorem taskUrl_eq_cons : taskUrl recipeId taskId (rstrntLogTypeGetPath type).toList =
    '/' :: logPath recipeId taskId type := by
  have recipes : "recipes/".toList = "recipes".toList ++ ['/'] := by decide
  unfold taskUrl logPath
  rewrite [recipes, tasks_eq]
  generalize "recipes".toList = recipes, "tasks".toList = tasks
  simp only [List.cons_append, List.append_assoc, List.nil_append]

theorem slash_not_mem_of_alnum (alnum : ∀ c ∈ text, c.isAlphanum = true) : '/' ∉ text :=
  fun member => absurd (alnum '/' member) (by decide)

theorem alnum_of_digit (digits : ∀ c ∈ text, c.isDigit = true) :
    ∀ c ∈ text, c.isAlphanum = true := by
  intro c member
  simp [Char.isAlphanum, digits c member]

theorem splitOn_taskUrl (recipe : '/' ∉ recipeId) (task : '/' ∉ taskId) :
    (taskUrl recipeId taskId rest).splitOn '/' =
      [] :: "recipes".toList :: recipeId :: "tasks".toList :: taskId :: rest.splitOn '/' := by
  have cut (word rest : Text) (absent : '/' ∉ word) :
      (word ++ '/' :: rest).splitOn '/' = word :: rest.splitOn '/' :=
    List.splitOn_append_cons_self_of_not_mem absent rest
  rw [taskUrl, splitOn_cons_slash, cut "recipes".toList _ (by decide), cut recipeId _ recipe,
    cut "tasks".toList _ (by decide), cut taskId rest task]

theorem gStrsplit_taskUrl (recipe : '/' ∉ recipeId) (task : '/' ∉ taskId) :
    gStrsplit (taskUrl recipeId taskId rest) =
      [] :: "recipes".toList :: recipeId :: "tasks".toList :: taskId :: rest.splitOn '/' := by
  have nonempty : taskUrl recipeId taskId rest ≠ [] := List.cons_ne_nil _ _
  rw [gStrsplit, if_neg nonempty, splitOn_taskUrl recipe task]

/-- A log's path names its task and its type. -/
theorem logPath_injective {taskId' : Text} {type' : LogType} (recipe : '/' ∉ recipeId)
    (task : '/' ∉ taskId) (task' : '/' ∉ taskId')
    (same : logPath recipeId taskId type = logPath recipeId taskId' type') :
    taskId = taskId' ∧ type = type' := by
  have urls : taskUrl recipeId taskId (rstrntLogTypeGetPath type).toList =
      taskUrl recipeId taskId' (rstrntLogTypeGetPath type').toList := by
    rw [taskUrl_eq_cons, taskUrl_eq_cons, same]
  have entries := congrArg gStrsplit urls
  rw [gStrsplit_taskUrl recipe task, gStrsplit_taskUrl recipe task'] at entries
  simp only [List.cons.injEq, true_and] at entries
  refine ⟨entries.1, ?_⟩
  cases type <;> cases type' <;> first | rfl | exact absurd entries.2 (by decide)

end Paths

section Routing

/-- A pattern that ends in a word does not match a text with another end. -/
theorem search_eq_false (before : Regex.Pattern) (word tail : Text)
    (short : word.length ≤ tail.length) (unlike : ¬word <:+ tail) :
    Regex.search (before ++ [.literal word, .stop]) (text ++ tail) = false := by
  cases found : Regex.search (before ++ [.literal word, .stop]) (text ++ tail) with
  | false => rfl
  | true =>
    have suffix := Regex.suffix_of_search found
    exact absurd (List.suffix_of_suffix_length_le suffix (List.suffix_append _ _) short) unlike

/-- What the patterns for tasks have in common matches the path of a task. -/
theorem search_taskUrl (recipe : recipeId ≠ [] ∧ ∀ c ∈ recipeId, c.isAlphanum = true)
    (task : taskId ≠ [] ∧ ∀ c ∈ taskId, c.isDigit = true) (rest : Text) (after : Regex.Pattern)
    (later : Regex.matchHere after ('/' :: rest) = true) :
    Regex.search (.literal "/recipes/".toList :: .some .alnum :: .literal "/tasks/".toList ::
      .some .digit :: after) (taskUrl recipeId taskId rest) = true := by
  have shape : taskUrl recipeId taskId rest = "/recipes/".toList ++ (recipeId ++
      ("/tasks/".toList ++ (taskId ++ '/' :: rest))) := by
    unfold taskUrl
    rewrite [recipes_eq, tasks_eq]
    generalize "recipes".toList = recipes, "tasks".toList = tasks
    simp only [List.cons_append, List.append_assoc, List.nil_append]
  rw [shape]
  apply Regex.search_of_matchHere
  apply Regex.matchHere_literal
  refine Regex.matchHere_some recipe.1 recipe.2 ?_
  apply Regex.matchHere_literal
  exact Regex.matchHere_some task.1 task.2 later

private theorem taskUrl_eq_append : taskUrl recipeId taskId rest =
    '/' :: ("recipes".toList ++ '/' :: (recipeId ++ '/' :: ("tasks".toList ++ '/' :: taskId))) ++
      '/' :: rest := by
  unfold taskUrl
  generalize "recipes".toList = recipes, "tasks".toList = tasks
  simp only [List.cons_append, List.append_assoc]

/-- No pattern that ends in a word matches a task's path with another end. -/
theorem search_taskUrl_eq_false (before : Regex.Pattern) (word rest : Text)
    (short : word.length ≤ rest.length + 1) (unlike : ¬word <:+ '/' :: rest) :
    Regex.search (before ++ [.literal word, .stop]) (taskUrl recipeId taskId rest) = false := by
  rewrite [taskUrl_eq_append]
  exact search_eq_false before word _ short unlike

variable (named : recipeId ≠ [] ∧ ∀ c ∈ recipeId, c.isAlphanum = true)
  (numbered : taskId ≠ [] ∧ ∀ c ∈ taskId, c.isDigit = true)
include named

theorem processPath_watchdog :
    processPath ('/' :: ("recipes".toList ++ '/' :: (recipeId ++ '/' :: "watchdog".toList))) =
      some .watchdogCb := by
  have shape : '/' :: ("recipes".toList ++ '/' :: (recipeId ++ '/' :: "watchdog".toList)) =
      "/recipes/".toList ++ (recipeId ++ ("/watchdog".toList ++ [])) := by
    have watchdog : "/watchdog".toList = '/' :: "watchdog".toList := by decide
    rewrite [recipes_eq, watchdog]
    generalize "recipes".toList = recipes, "watchdog".toList = watchdog
    simp only [List.cons_append, List.append_assoc, List.nil_append, List.append_nil]
  rewrite [shape]
  have unlike (before : Regex.Pattern) (word : Text) (short : word.length ≤ 9)
      (unlike : ¬word <:+ "/watchdog".toList ++ []) :
      Regex.search (before ++ [.literal word, .stop])
        ("/recipes/".toList ++ (recipeId ++ ("/watchdog".toList ++ []))) = false := by
    rewrite [← List.append_assoc]
    exact search_eq_false before word _ short unlike
  have start := unlike [] "/start".toList (by decide) (by decide)
  have status := unlike [.literal "/recipes/".toList, .some .alnum, .literal "/tasks/".toList,
    .some .digit] "/status".toList (by decide) (by decide)
  have results := unlike [.literal "/recipes/".toList, .some .alnum, .literal "/tasks/".toList,
    .some .digit] "/results/".toList (by decide) (by decide)
  have watchdog : Regex.search [.literal "/recipes/".toList, .some .alnum,
      .literal "/watchdog".toList, .stop]
      ("/recipes/".toList ++ (recipeId ++ ("/watchdog".toList ++ []))) = true := by
    apply Regex.search_of_matchHere
    apply Regex.matchHere_literal
    refine Regex.matchHere_some named.1 named.2 ?_
    exact Regex.matchHere_literal Regex.matchHere_stop
  simp only [List.nil_append, List.cons_append] at start status results
  simp only [processPath, regexes, List.find?_cons, start, status, results, watchdog,
    Option.map_some]

include numbered

theorem processPath_status :
    processPath (taskUrl recipeId taskId "status".toList) = some .tasksStatusCb := by
  have start : Regex.search [.literal "/start".toList, .stop]
      (taskUrl recipeId taskId "status".toList) = false :=
    search_taskUrl_eq_false [] _ _ (by decide) (by decide)
  have status := search_taskUrl named numbered "status".toList [.literal "/status".toList, .stop]
    (by decide)
  simp only [processPath, regexes, List.find?_cons, start, status, Option.map_some]

theorem processPath_results :
    processPath (taskUrl recipeId taskId "results/".toList) = some .tasksResultsCb := by
  have start : Regex.search [.literal "/start".toList, .stop]
      (taskUrl recipeId taskId "results/".toList) = false :=
    search_taskUrl_eq_false [] _ _ (by decide) (by decide)
  have status : Regex.search [.literal "/recipes/".toList, .some .alnum,
      .literal "/tasks/".toList, .some .digit, .literal "/status".toList, .stop]
      (taskUrl recipeId taskId "results/".toList) = false :=
    search_taskUrl_eq_false [.literal "/recipes/".toList, .some .alnum, .literal "/tasks/".toList,
      .some .digit] _ _ (by decide) (by decide)
  have results := search_taskUrl named numbered "results/".toList
    [.literal "/results/".toList, .stop] (by decide)
  simp only [processPath, regexes, List.find?_cons, start, status, results, Option.map_some]

/-- The path of a log leads to `tasks_logs_cb`. -/
theorem processPath_logs :
    processPath (taskUrl recipeId taskId (rstrntLogTypeGetPath type).toList) =
      some .tasksLogsCb := by
  have start : Regex.search [.literal "/start".toList, .stop]
      (taskUrl recipeId taskId (rstrntLogTypeGetPath type).toList) = false :=
    search_taskUrl_eq_false [] _ _ (by cases type <;> decide) (by cases type <;> decide)
  have status : Regex.search [.literal "/recipes/".toList, .some .alnum,
      .literal "/tasks/".toList, .some .digit, .literal "/status".toList, .stop]
      (taskUrl recipeId taskId (rstrntLogTypeGetPath type).toList) = false :=
    search_taskUrl_eq_false [.literal "/recipes/".toList, .some .alnum, .literal "/tasks/".toList,
      .some .digit] _ _ (by cases type <;> decide) (by cases type <;> decide)
  have results : Regex.search [.literal "/recipes/".toList, .some .alnum,
      .literal "/tasks/".toList, .some .digit, .literal "/results/".toList, .stop]
      (taskUrl recipeId taskId (rstrntLogTypeGetPath type).toList) = false :=
    search_taskUrl_eq_false [.literal "/recipes/".toList, .some .alnum, .literal "/tasks/".toList,
      .some .digit] _ _ (by cases type <;> decide) (by cases type <;> decide)
  have watchdog : Regex.search [.literal "/recipes/".toList, .some .alnum,
      .literal "/watchdog".toList, .stop]
      (taskUrl recipeId taskId (rstrntLogTypeGetPath type).toList) = false :=
    search_taskUrl_eq_false [.literal "/recipes/".toList, .some .alnum] _ _
      (by cases type <;> decide) (by cases type <;> decide)
  have logs := search_taskUrl named numbered (rstrntLogTypeGetPath type).toList
    [.literal "/logs/".toList] (by cases type <;> decide)
  simp only [processPath, regexes, List.find?_cons, start, status, results, watchdog, logs,
    Option.map_some]

end Routing

section Headers

variable {object : Text → Option Json} {key other : Text} {value : Json}
variable {start stop transactionId : Nat} {headers : Text → Option Text}

theorem jsonObjectObjectAdd_self : jsonObjectObjectAdd object key value key = some value :=
  Function.update_self ..

theorem jsonObjectObjectAdd_other (different : other ≠ key) :
    jsonObjectObjectAdd object key value other = object other :=
  Function.update_of_ne different ..

/-- A number that was printed for a `goffset` is that number. -/
theorem toGoffset_of_lt {n : Nat} (bound : n < 2 ^ 63) : toGoffset n = n := if_pos bound

/-- A range that was printed, with whatever stands for the total, is taken apart again. -/
theorem printedRange_parts {range ending : Text} (bound : stop < 2 ^ 64) (ordered : start < 2 ^ 64)
    (ends : ∀ c ∈ ending.head?, c.isDigit = false)
    (shown : range = "bytes ".toList ++ (Decimal.print start ++ '-' ::
      (Decimal.print stop ++ ending))) :
    "bytes ".toList.isPrefixOf range = true ∧
      ((range.drop 6).dropWhile gAsciiIsspace).head?.any Char.isDigit = true ∧
      Decimal.strtoull ((range.drop 6).dropWhile gAsciiIsspace) =
        (start, '-' :: (Decimal.print stop ++ ending)) ∧
      Decimal.strtoull (Decimal.print stop ++ ending) = (stop, ending) := by
  obtain ⟨c, digits, shape, digit⟩ := Decimal.print_eq_cons (n := start)
  have space : gAsciiIsspace c = false := by
    cases blank : gAsciiIsspace c with
    | false => rfl
    | true =>
      simp only [gAsciiIsspace, Bool.or_eq_true, beq_iff_eq] at blank
      rcases blank with (((rfl | rfl) | rfl) | rfl) | rfl <;> exact absurd digit (by decide)
  have body : (range.drop 6).dropWhile gAsciiIsspace =
      Decimal.print start ++ '-' :: (Decimal.print stop ++ ending) := by
    have six : 6 = "bytes ".toList.length := by decide
    rewrite [shown, six, List.drop_left, shape, List.cons_append,
      List.dropWhile_cons_of_neg (by simp [space])]
    rfl
  refine ⟨?_, ?_, ?_, Decimal.strtoull_print bound ends⟩
  · rewrite [shown]
    exact List.isPrefixOf_iff_prefix.mpr (List.prefix_append _ _)
  · rewrite [body, shape]
    exact digit
  · rewrite [body]
    exact Decimal.strtoull_print ordered (by simp)

/-- The range that was printed is the range that is read. -/
theorem headersGetContentRange_contentRange (bound : stop < 2 ^ 63) (ordered : start < 2 ^ 63)
    (held : headers "Content-Range".toList = some (contentRange start stop)) :
    headersGetContentRange headers = some ((start : Int), (stop : Int), -1) := by
  have ending : "/*".toList = ['/', '*'] := by decide
  have shown : contentRange start stop =
      "bytes ".toList ++ (Decimal.print start ++ '-' :: (Decimal.print stop ++ "/*".toList)) :=
    List.append_assoc _ _ _
  obtain ⟨unit, numeric, first, second⟩ :=
    printedRange_parts (by omega) (by omega) (by simp [ending]) shown
  unfold headersGetContentRange
  rewrite [ending] at first second
  simp only [held, unit, numeric, first, second, Bool.true_eq_false, ↓reduceIte,
    toGoffset_of_lt ordered, toGoffset_of_lt bound]

theorem jsonHeaders_path {msg : SoupMessage} :
    jsonToHashtable (jsonHeaders msg transactionId) "rstrnt-path".toList = some msg.path := by
  unfold jsonToHashtable jsonHeaders
  rewrite [jsonObjectObjectAdd_other (by decide), jsonObjectObjectAdd_other (by decide),
    jsonObjectObjectAdd_self]
  rfl

private theorem jsonHeaders_contentRange {uri : Text} {path : String} {offset : Nat} :
    jsonToHashtable (jsonHeaders (logMessage uri path offset data) transactionId)
        "Content-Range".toList = some (contentRange offset (offset + data.length - 1)) := by
  have method : (logMessage uri path offset data).method ≠ "POST".toList := by
    show "PUT".toList ≠ "POST".toList
    decide
  unfold jsonToHashtable jsonHeaders
  rewrite [if_neg method, jsonObjectObjectAdd_other (by decide),
    jsonObjectObjectAdd_other (by decide), jsonObjectObjectAdd_other (by decide)]
  unfold logMessage
  rewrite [List.foldl_cons, List.foldl_cons, List.foldl_cons, List.foldl_nil,
    jsonObjectObjectAdd_other (by decide), jsonObjectObjectAdd_other (by decide),
    jsonObjectObjectAdd_self]
  rfl

end Headers

section Client

variable {headers : Text → Option Text} {offset transactionId : Nat}

theorem updateChunk_write {filename : Text} (nonempty : data ≠ []) :
    updateChunk c filename data offset =
      { c with
        files := Function.update c.files filename
          (some (((c.files filename).getD []).write offset data)) } := by
  have nonnegative : ¬(offset : Int) < 0 := by omega
  simp only [updateChunk, nonempty, nonnegative, or_self, ↓reduceIte, Int.toNat_natCast]

/-- A chunk with its own range is written at its offset, and the first chunk of
a log records the log. -/
theorem storeLog_chunk {logPath filename : Text} {logsXpath : LogsXpath} {shortPath : Option Text}
    (nonempty : data ≠ []) (bound : offset + data.length < 2 ^ 63)
    (range : headers "Content-Range".toList =
      some (contentRange offset (offset + data.length - 1))) :
    storeLog c logPath filename logsXpath shortPath headers data =
      updateChunk (if offset = 0 then recordLog c logsXpath ⟨logPath, shortPath⟩ else c)
        filename data offset := by
  have positive : 0 < data.length := List.length_pos_iff.mpr nonempty
  have read := headersGetContentRange_contentRange (by omega) (by omega) range
  have exact : (((offset + data.length - 1 : Nat) : Int) - offset + 1) % 2 ^ 64 =
      (data.length : Int) := by omega
  have unknown : ¬(0 : Int) < -1 := by decide
  unfold storeLog
  simp only [read, ne_eq, exact, not_true_eq_false, unknown, false_and, ↓reduceIte,
    Int.natCast_eq_zero]

/-- **What a printed chunk does.** The client writes it at its offset of the
log's file; if the offset is 0 it records the log with its task. -/
theorem handleMessage_log (named : recipeId ≠ [] ∧ ∀ c ∈ recipeId, c.isAlphanum = true)
    (numbered : taskId ≠ [] ∧ ∀ c ∈ taskId, c.isDigit = true)
    (known : taskId ∈ c.tasks.map TaskNode.id) (nonempty : data ≠ [])
    (bound : offset + data.length < 2 ^ 63) :
    ∃ c' shortPath, handleMessage c
        ⟨jsonHeaders (logMessage (taskPath (recipePath recipeId) taskId)
          (rstrntLogTypeGetPath type) offset data) transactionId, .string data⟩ = some c' ∧
      c'.runDir = c.runDir ∧
      c'.files = Function.update c.files (c.runDir ++ '/' :: logPath recipeId taskId type)
        (some (((c.files (c.runDir ++ '/' :: logPath recipeId taskId type)).getD []).write
          offset data)) ∧
      c'.tasks = if offset = 0 then c.tasks.map (fun task => if task.id = taskId then
          { task with logs := task.logs ++ [⟨logPath recipeId taskId type, shortPath⟩] } else task)
        else c.tasks := by
  have recipe := slash_not_mem_of_alnum named.2
  have task := slash_not_mem_of_alnum (alnum_of_digit numbered.2)
  have fourth : (gStrsplit (taskUrl recipeId taskId (rstrntLogTypeGetPath type).toList))[4]? =
      some taskId := by
    rewrite [gStrsplit_taskUrl recipe task]
    rfl
  have fifth : (gStrsplit (taskUrl recipeId taskId (rstrntLogTypeGetPath type).toList))[5]? =
      some "logs".toList := by
    rewrite [gStrsplit_taskUrl recipe task]
    cases type <;> rfl
  have joined : gStrjoinv ((gStrsplit (taskUrl recipeId taskId
      (rstrntLogTypeGetPath type).toList)).drop 1) = logPath recipeId taskId type := by
    rewrite [taskUrl_eq_cons]
    exact gStrjoinv_drop_one
  have present : (c.tasks.any fun node => decide (node.id = taskId)) = true := by
    obtain ⟨node, member, same⟩ := List.mem_map.mp known
    exact List.any_eq_true.mpr ⟨node, member, by simpa using same⟩
  have path : jsonToHashtable (jsonHeaders (logMessage (taskPath (recipePath recipeId) taskId)
      (rstrntLogTypeGetPath type) offset data) transactionId) "rstrnt-path".toList =
      some (taskUrl recipeId taskId (rstrntLogTypeGetPath type).toList) := by
    rewrite [jsonHeaders_path]
    exact congrArg some taskPath_below
  unfold handleMessage
  simp only [path, processPath_logs named numbered, call]
  unfold tasksLogsCb
  simp only [fourth, fifth, joined, present, Bool.true_eq_false, ↓reduceIte]
  rewrite [storeLog_chunk nonempty bound jsonHeaders_contentRange]
  refine ⟨_, gUriUnescapeString (gStrjoinv ((gStrsplit (taskUrl recipeId taskId
    (rstrntLogTypeGetPath type).toList)).drop 6)), rfl, ?_⟩
  rewrite [updateChunk_write nonempty]
  by_cases first : offset = 0
  · rewrite [if_pos first, if_pos first]
    exact ⟨rfl, rfl, rfl⟩
  · rewrite [if_neg first, if_neg first]
    exact ⟨rfl, rfl, rfl⟩

/-- What of a task's node concerns its logs. -/
def logsOf (task : TaskNode) : Text × List LogNode × List LogNode :=
  (task.id, task.logs, task.results.flatMap ResultNode.logs)

/-- The client's files and the logs of its tasks are the same. -/
def SameLogs (c c' : RecipeData) : Prop :=
  c'.runDir = c.runDir ∧ c'.files = c.files ∧ c'.tasks.map logsOf = c.tasks.map logsOf

private theorem recordResult_logs {node : ResultNode} (fresh : node.logs = []) :
    SameLogs c (recordResult c taskId node) := by
  refine ⟨rfl, rfl, map_unchanged fun task => ?_⟩
  simp [logsOf, fresh]

private theorem tasksStatusCb_logs {path : Text} {fields : Text → Option Json}
    (entry : (gStrsplit path)[4]? = some taskId) :
    ∃ c', tasksStatusCb c path headers (.object fields) = some c' ∧ SameLogs c c' := by
  unfold tasksStatusCb
  simp only [entry]
  split
  · exact ⟨_, rfl, rfl, rfl, rfl⟩
  · refine ⟨_, rfl, ?_⟩
    have updated (status : Text) (tasks : List TaskNode) :
        (tasks.map fun task => if task.id = taskId then { task with status := status }
          else task).map logsOf = tasks.map logsOf := map_unchanged fun _ => rfl
    split
    · exact ⟨rfl, rfl, updated _ _⟩
    · have recorded (node : ResultNode) (fresh : node.logs = []) :
          SameLogs c (recordResult { c with started := true } taskId node) :=
        recordResult_logs fresh
      exact ⟨rfl, rfl, (updated _ _).trans (recorded _ rfl).2.2⟩

private theorem tasksResultsCb_logs {path result : Text} {fields : Text → Option Json}
    (entry : (gStrsplit path)[4]? = some taskId)
    (held : jsonToHashtable fields "result".toList = some result) :
    ∃ c', tasksResultsCb c path headers (.object fields) = some c' ∧ SameLogs c c' := by
  unfold tasksResultsCb
  simp only [entry, held, Option.map_some]
  split
  · exact ⟨_, rfl, rfl, rfl, rfl⟩
  · exact ⟨_, rfl, recordResult_logs rfl⟩

/-- A report leaves the logs alone. -/
theorem handleMessage_report (named : recipeId ≠ [] ∧ ∀ c ∈ recipeId, c.isAlphanum = true)
    (numbered : taskId ≠ [] ∧ ∀ c ∈ taskId, c.isDigit = true) {report : Report}
    {fields : List (Text × Text)}
    (form : (reportMessage (recipePath recipeId) taskId report).requestBody = .form fields) :
    ∃ c', handleMessage c
        ⟨jsonHeaders (reportMessage (recipePath recipeId) taskId report) transactionId,
          .object fun key => (fields.lookup key).map Json.string⟩ = some c' ∧ SameLogs c c' := by
  have recipe := slash_not_mem_of_alnum named.2
  have task := slash_not_mem_of_alnum (alnum_of_digit numbered.2)
  have fourth (rest : Text) : (gStrsplit (taskUrl recipeId taskId rest))[4]? = some taskId := by
    rewrite [gStrsplit_taskUrl recipe task]
    rfl
  cases report with
  | status status =>
    have path : jsonToHashtable (jsonHeaders (reportMessage (recipePath recipeId) taskId
        (.status status)) transactionId) "rstrnt-path".toList =
        some (taskUrl recipeId taskId "status".toList) := by
      rewrite [jsonHeaders_path]
      exact congrArg some taskPath_below
    unfold handleMessage
    simp only [path, processPath_status named numbered, call]
    exact tasksStatusCb_logs (fourth _)
  | result result path score message =>
    have path : jsonToHashtable (jsonHeaders (reportMessage (recipePath recipeId) taskId
        (.result result path score message)) transactionId) "rstrnt-path".toList =
        some (taskUrl recipeId taskId "results/".toList) := by
      rewrite [jsonHeaders_path]
      exact congrArg some taskPath_below
    have held : jsonToHashtable (fun key => (fields.lookup key).map Json.string) "result".toList =
        some result := by
      cases form
      rfl
    unfold handleMessage
    simp only [path, processPath_results named numbered, call]
    exact tasksResultsCb_logs (fourth _) held
  | watchdog seconds =>
    have path : jsonToHashtable (jsonHeaders (reportMessage (recipePath recipeId) taskId
        (.watchdog seconds)) transactionId) "rstrnt-path".toList =
        some ('/' :: ("recipes".toList ++ '/' :: (recipeId ++ '/' :: "watchdog".toList))) := by
      rewrite [jsonHeaders_path]
      exact congrArg some recipePath_below
    unfold handleMessage
    simp only [path, processPath_watchdog named, call, watchdogCb]
    exact ⟨_, rfl, rfl, rfl, rfl⟩

end Client

section Run

variable {runDir : Text} {written : Text → String → List UInt8} {offset transactionId : Nat}

/-- A task's node records the logs that were written to, each once, and its
results record none. -/
def LogsRecorded (job : Job) (written : Text → String → List UInt8)
    (entry : Text × List LogNode × List LogNode) : Prop :=
  (entry.2.1.map LogNode.path).Nodup ∧
    (∀ path, path ∈ entry.2.1.map LogNode.path ↔ ∃ type,
      path = logPath job.recipeId entry.1 type ∧ written entry.1 (rstrntLogTypeGetPath type) ≠ []) ∧
    entry.2.2 = []

/-- The client has everything that was written. -/
structure Synced (job : Job) (runDir : Text) (written : Text → String → List UInt8)
    (c : RecipeData) : Prop where
  dir : c.runDir = runDir
  files : ∀ taskId ∈ job.tasks, ∀ type,
    c.files (runDir ++ '/' :: logPath job.recipeId taskId type) =
      fileOf (written taskId (rstrntLogTypeGetPath type))
  ids : (c.tasks.map logsOf).map Prod.fst = job.tasks
  recorded : ∀ entry ∈ c.tasks.map logsOf, LogsRecorded job written entry

/-- The client will have everything that was written, once it has handled the
lines in the pipe; the offsets of the tasks are where their logs end. -/
structure Arriving (job : Job) (runDir : Text) (s : Transfer) : Prop where
  uri : s.recipeUri = recipePath job.recipeId
  ids : s.tasks.map Task.taskId = job.tasks
  offsets : ∀ (i : Nat) (task : Task), s.tasks[i]? = some task → ∀ type,
    restraintTaskGetOffset task.offsets (rstrntLogTypeGetPath type) =
      (s.written task.taskId (rstrntLogTypeGetPath type)).length
  pending : ∃ c, handleAll s.client s.pipe = some c ∧ Synced job runDir s.written c

theorem job_named : job.recipeId ≠ [] ∧ ∀ c ∈ job.recipeId, c.isAlphanum = true :=
  ⟨job.named, job.alphanumeric⟩

theorem job_numbered (member : taskId ∈ job.tasks) :
    taskId ≠ [] ∧ ∀ c ∈ taskId, c.isDigit = true :=
  ⟨job.numbered taskId member, job.numeric taskId member⟩

private theorem handleAll_concat {lines : List Line} {line : Line} :
    handleAll c (lines ++ [line]) = (handleAll c lines).bind fun c => handleMessage c line := by
  unfold handleAll
  rw [List.foldlM_append]
  cases lines.foldlM handleMessage c with
  | none => rfl
  | some c => simp [List.foldlM]

/-- What is logged is written at the end of the log's file. -/
theorem write_fileOf {content : List UInt8} (nonempty : data ≠ []) :
    some (((fileOf content).getD []).write content.length data) = fileOf (content ++ data) := by
  have held : (fileOf content).getD [] = content.map some := by
    unfold fileOf
    split
    · rename_i empty
      rw [empty]
      rfl
    · rfl
  rw [held, SparseFile.write_end, fileOf, if_neg]
  simp [nonempty]

private theorem rstrntLogTypeGetPath_injective {type' : LogType}
    (same : rstrntLogTypeGetPath type = rstrntLogTypeGetPath type') : type = type' := by
  cases type <;> cases type' <;> first | rfl | exact absurd same (by decide)

/-- What was written after bytes were added to one log. -/
def appended (written : Text → String → List UInt8) (taskId : Text) (path : String)
    (data : List UInt8) : Text → String → List UInt8 :=
  Function.update written taskId
    (Function.update (written taskId) path (written taskId path ++ data))

private theorem appended_self {path : String} :
    appended written taskId path data taskId path = written taskId path ++ data := by
  rw [appended, Function.update_self, Function.update_self]

private theorem appended_other {taskId' : Text} {path path' : String}
    (different : taskId' ≠ taskId ∨ path' ≠ path) :
    appended written taskId path data taskId' path' = written taskId' path' := by
  unfold appended
  by_cases same : taskId' = taskId
  · subst same
    have other : path' ≠ path := different.resolve_left (fun distinct => distinct rfl)
    rw [Function.update_self, Function.update_of_ne other]
  · rw [Function.update_of_ne same]

private theorem restraintTaskGetOffset_self {offsets : String → Option Nat} {path : String} {n : Nat} :
    restraintTaskGetOffset (Function.update offsets path (some n)) path = n := by
  rw [restraintTaskGetOffset, Function.update_self, Option.getD_some]

private theorem restraintTaskGetOffset_other {offsets : String → Option Nat} {path path' : String}
    {n : Nat} (different : path' ≠ path) :
    restraintTaskGetOffset (Function.update offsets path (some n)) path' =
      restraintTaskGetOffset offsets path' := by
  rw [restraintTaskGetOffset, Function.update_of_ne different, restraintTaskGetOffset]

/-- A log that was written to before is recorded already. -/
theorem LogsRecorded.later {entry : Text × List LogNode × List LogNode}
    (recorded : LogsRecorded job written entry)
    (before : entry.1 = taskId → written taskId (rstrntLogTypeGetPath type) ≠ []) :
    LogsRecorded job (appended written taskId (rstrntLogTypeGetPath type) data) entry := by
  have same (type' : LogType) :
      appended written taskId (rstrntLogTypeGetPath type) data entry.1
        (rstrntLogTypeGetPath type') ≠ [] ↔ written entry.1 (rstrntLogTypeGetPath type') ≠ [] := by
    by_cases target : entry.1 = taskId ∧ rstrntLogTypeGetPath type' = rstrntLogTypeGetPath type
    · rw [target.1, target.2, appended_self]
      exact iff_of_true (by simp [before target.1]) (before target.1)
    · rw [appended_other (not_and_or.mp target)]
  obtain ⟨nodup, paths, results⟩ := recorded
  refine ⟨nodup, fun path => ?_, results⟩
  rw [paths path]
  exact exists_congr fun type' => and_congr_right fun _ => (same type').symm

/-- The first bytes of a log record it. -/
theorem LogsRecorded.first {logs results : List LogNode} {shortPath : Option Text}
    (task : '/' ∉ taskId) (recorded : LogsRecorded job written (taskId, logs, results))
    (empty : written taskId (rstrntLogTypeGetPath type) = []) (nonempty : data ≠ []) :
    LogsRecorded job (appended written taskId (rstrntLogTypeGetPath type) data)
      (taskId, logs ++ [⟨logPath job.recipeId taskId type, shortPath⟩], results) := by
  have recipe := slash_not_mem_of_alnum job.alphanumeric
  obtain ⟨nodup, paths, none⟩ := recorded
  simp only at nodup paths none
  have absent : logPath job.recipeId taskId type ∉ logs.map LogNode.path := by
    rw [paths]
    rintro ⟨type', same, held⟩
    obtain ⟨-, rfl⟩ := logPath_injective recipe task task same
    exact held empty
  refine ⟨?_, fun path => ?_, none⟩
  · rw [List.map_append, List.map_singleton]
    refine List.nodup_append.mpr ⟨nodup, List.nodup_singleton _, ?_⟩
    rintro path old last new rfl
    rw [List.mem_singleton.mp new] at old
    exact absent old
  · rw [List.map_append, List.map_singleton, List.mem_append, List.mem_singleton, paths]
    constructor
    · rintro (⟨type', same, held⟩ | rfl)
      · refine ⟨type', same, ?_⟩
        by_cases target : rstrntLogTypeGetPath type' = rstrntLogTypeGetPath type
        · rw [target, appended_self]
          simp [nonempty]
        · rw [appended_other (.inr target)]
          exact held
      · refine ⟨type, rfl, ?_⟩
        rw [appended_self]
        simp [nonempty]
    · rintro ⟨type', same, held⟩
      by_cases target : type' = type
      · exact .inr (target ▸ same)
      · refine .inl ⟨type', same, ?_⟩
        rwa [appended_other (.inr fun paths => target (rstrntLogTypeGetPath_injective paths))]
          at held

/-- A chunk that continues its log keeps the client in step. -/
theorem Synced.log (synced : Synced job runDir written c) (member : taskId ∈ job.tasks)
    (nonempty : data ≠ [])
    (bound : (written taskId (rstrntLogTypeGetPath type)).length + data.length < 2 ^ 63) :
    ∃ c', handleMessage c ⟨jsonHeaders (logMessage (taskPath (recipePath job.recipeId) taskId)
        (rstrntLogTypeGetPath type) (written taskId (rstrntLogTypeGetPath type)).length data)
        transactionId, .string data⟩ = some c' ∧
      Synced job runDir (appended written taskId (rstrntLogTypeGetPath type) data) c' := by
  have slashless {taskId : Text} (member : taskId ∈ job.tasks) : '/' ∉ taskId :=
    slash_not_mem_of_alnum (alnum_of_digit (job.numeric taskId member))
  have ids : c.tasks.map TaskNode.id = job.tasks := by
    rw [← synced.ids, List.map_map]
    rfl
  obtain ⟨c', shortPath, handled, dir, files, tasks⟩ := handleMessage_log job_named
    (job_numbered member) (ids ▸ member) nonempty bound
  refine ⟨c', handled, dir.trans synced.dir, ?_, ?_, ?_⟩
  · intro taskId' member' type'
    rw [files, synced.dir]
    by_cases target : taskId' = taskId ∧ type' = type
    · obtain ⟨rfl, rfl⟩ := target
      rw [Function.update_self, appended_self, synced.files taskId' member' type',
        write_fileOf nonempty]
    · have different : runDir ++ '/' :: logPath job.recipeId taskId' type' ≠
          runDir ++ '/' :: logPath job.recipeId taskId type := by
        intro same
        have paths := (List.cons.inj (List.append_cancel_left same)).2
        exact target (logPath_injective (slash_not_mem_of_alnum job.alphanumeric)
          (slashless member') (slashless member) paths)
      rw [Function.update_of_ne different, synced.files taskId' member' type', appended_other]
      apply (not_and_or.mp target).imp_right
      intro other paths
      exact other (rstrntLogTypeGetPath_injective paths)
  · rw [tasks, ← synced.ids, List.map_map, List.map_map]
    split
    · exact map_unchanged fun _ => rfl
    · rfl
  · intro entry held
    rw [tasks] at held
    by_cases first : (written taskId (rstrntLogTypeGetPath type)).length = 0
    · rw [if_pos first, List.map_map] at held
      obtain ⟨task, inside, rfl⟩ := List.mem_map.mp held
      have recorded := synced.recorded _ (List.mem_map_of_mem inside)
      simp only [Function.comp_apply]
      split
      · rename_i same
        subst same
        exact recorded.first (slashless member) (List.length_eq_zero_iff.mp first) nonempty
      · rename_i other
        exact recorded.later fun same => absurd same other
    · rw [if_neg first] at held
      exact (synced.recorded entry held).later fun _ empty =>
        first (List.length_eq_zero_iff.mpr empty)

/-- What leaves the logs alone keeps the client in step. -/
theorem Synced.same {c' : RecipeData} (synced : Synced job runDir written c)
    (same : SameLogs c c') : Synced job runDir written c' := by
  obtain ⟨dir, files, tasks⟩ := same
  exact ⟨dir.trans synced.dir, files ▸ synced.files, tasks ▸ synced.ids, tasks ▸ synced.recorded⟩

theorem arriving_start : Arriving job runDir (start job runDir transactionId) where
  uri := rfl
  ids := by
    have ids : Task.taskId ∘ (fun taskId => (⟨taskId, fun _ => none⟩ : Task)) = id := rfl
    rw [start, List.map_map, ids, List.map_id]
  offsets := by
    intro i task found type
    obtain ⟨taskId, -, rfl⟩ := List.mem_map.mp (List.mem_of_getElem? found)
    rfl
  pending := by
    refine ⟨newClient job runDir, rfl, rfl, fun _ _ _ => rfl, ?_, ?_⟩
    · have ids : Prod.fst ∘ logsOf ∘ newTask = id := rfl
      rw [newClient, List.map_map, List.map_map, Function.comp_assoc, ids, List.map_id]
    · intro entry held
      obtain ⟨task, inside, rfl⟩ := List.mem_map.mp held
      obtain ⟨taskId, -, rfl⟩ := List.mem_map.mp inside
      refine ⟨List.nodup_nil, fun path => ?_, rfl⟩
      constructor
      · intro member
        exact absurd member List.not_mem_nil
      · rintro ⟨type, -, held⟩
        exact absurd rfl held

/-- What is printed of a request for bytes. -/
theorem restraintStdoutMessage_text {msg : SoupMessage} (body : msg.requestBody = .text data)
    (printed : restraintStdoutMessage s msg = some t) : ∃ transactionId, t =
      { s with
        transactionId := transactionId
        pipe := s.pipe ++ [⟨jsonHeaders msg s.transactionId, .string data⟩] } := by
  unfold restraintStdoutMessage at printed
  rw [body] at printed
  cases under : strstr msg.path "/logs/".toList with
  | false =>
    rw [under] at printed
    cases printed
  | true =>
    rw [under] at printed
    cases printed
    exact ⟨_, rfl⟩

/-- What is printed of a request with a form. -/
theorem restraintStdoutMessage_form {msg : SoupMessage} {fields : List (Text × Text)}
    (body : msg.requestBody = .form fields) (printed : restraintStdoutMessage s msg = some t) :
    ∃ transactionId, t =
      { s with
        transactionId := transactionId
        pipe := s.pipe ++ [⟨jsonHeaders msg s.transactionId,
          .object fun key => (fields.lookup key).map Json.string⟩] } := by
  unfold restraintStdoutMessage at printed
  rw [body] at printed
  cases under : strstr msg.path "/logs/".toList with
  | true =>
    rw [under] at printed
    cases printed
  | false =>
    rw [under] at printed
    cases printed
    exact ⟨_, rfl⟩

theorem set_of_getElem? {ids : List Text} {i : Nat} (held : ids[i]? = some taskId) :
    ids.set i taskId = ids := by
  obtain ⟨inside, rfl⟩ := List.getElem?_eq_some_iff.mp held
  exact List.set_getElem_self inside

/-- A task of the list is a task of the job. -/
theorem Arriving.member {i : Nat} {task : Task} (arriving : Arriving job runDir s)
    (found : s.tasks[i]? = some task) : task.taskId ∈ job.tasks := by
  rw [← arriving.ids]
  exact List.mem_map_of_mem (List.mem_of_getElem? found)

/-- Another place of the list is another task. -/
theorem Arriving.distinct {i j : Nat} {task other : Task} (arriving : Arriving job runDir s)
    (found : s.tasks[i]? = some task) (there : s.tasks[j]? = some other) (different : i ≠ j) :
    other.taskId ≠ task.taskId := by
  intro same
  have nodup : (s.tasks.map Task.taskId).Nodup := arriving.ids ▸ job.distinct
  have bound : i < (s.tasks.map Task.taskId).length := by
    rw [List.length_map]
    exact (List.getElem?_eq_some_iff.mp found).1
  refine different ((List.getElem?_inj bound nodup).mp ?_)
  rw [List.getElem?_map, List.getElem?_map, found, there, Option.map_some, Option.map_some, same]

/-- A chunk of the current task is printed with the range that its log's end and
its length give. -/
theorem arriving_log {stored : Bool} (arriving : Arriving job runDir s)
    (logged : restraintLogTask s type data stored = some t) : Arriving job runDir t := by
  unfold restraintLogTask at logged
  split at logged
  · cases logged
    exact arriving
  rename_i nonempty
  unfold connectionsWrite at logged
  split at logged
  · cases logged
    exact arriving
  rename_i i task current
  split at logged
  · cases logged
    exact arriving
  simp only at logged
  split at logged
  · cases logged
  rename_i bound
  obtain ⟨j, -, located⟩ := Option.bind_eq_some_iff.mp current
  obtain ⟨task', found, same⟩ := Option.map_eq_some_iff.mp located
  cases same
  obtain ⟨u, printed, rfl⟩ := Option.map_eq_some_iff.mp logged
  obtain ⟨transactionId, rfl⟩ := restraintStdoutMessage_text rfl printed
  have ends := arriving.offsets i task found type
  rw [ends] at bound
  obtain ⟨c, handled, synced⟩ := arriving.pending
  obtain ⟨c', handledLast, synced'⟩ :=
    synced.log (arriving.member found) nonempty (Nat.lt_of_not_le bound)
  refine ⟨arriving.uri, ?_, ?_, c', ?_, synced'⟩
  · have held : (s.tasks.map Task.taskId)[i]? = some task.taskId := by
      rw [List.getElem?_map, found, Option.map_some]
    rw [List.map_set]
    exact (set_of_getElem? held).trans arriving.ids
  · intro j other there type'
    by_cases same : i = j
    · subst same
      have inside := (List.getElem?_eq_some_iff.mp found).1
      rw [List.getElem?_set_self inside] at there
      cases there
      by_cases target : rstrntLogTypeGetPath type' = rstrntLogTypeGetPath type
      · rw [target]
        apply restraintTaskGetOffset_self.trans
        show _ = (appended _ _ _ _ _ _).length
        rw [appended_self, List.length_append, ends]
      · apply (restraintTaskGetOffset_other target).trans
        show _ = (appended _ _ _ _ _ _).length
        rw [appended_other (.inr target)]
        exact arriving.offsets i task found type'
    · rw [List.getElem?_set_ne same] at there
      show _ = (appended _ _ _ _ _ _).length
      rw [appended_other (.inl (arriving.distinct found there same))]
      exact arriving.offsets j other there type'
  · show handleAll s.client (s.pipe ++ [_]) = some c'
    rw [handleAll_concat, handled, ends, arriving.uri, Option.bind_some]
    exact handledLast

private theorem arriving_report {i : Nat} {r : Report} (arriving : Arriving job runDir s)
    (reported : report s i r = some t) : Arriving job runDir t := by
  unfold report at reported
  split at reported
  · cases reported
  rename_i task found
  obtain ⟨fields, form⟩ : ∃ fields,
      (reportMessage s.recipeUri task.taskId r).requestBody = .form fields := by
    cases r <;> exact ⟨_, rfl⟩
  obtain ⟨transactionId, rfl⟩ := restraintStdoutMessage_form form reported
  obtain ⟨c, handled, synced⟩ := arriving.pending
  rw [arriving.uri] at form
  obtain ⟨c', handledLast, same⟩ :=
    handleMessage_report job_named (job_numbered (arriving.member found)) form
  refine ⟨arriving.uri, arriving.ids, arriving.offsets, c', ?_, synced.same same⟩
  show handleAll s.client (s.pipe ++ [_]) = some c'
  rw [handleAll_concat, handled, arriving.uri, Option.bind_some]
  exact handledLast

private theorem arriving_step {e : Event} (arriving : Arriving job runDir s)
    (stepped : LogTransfer.step s e = some t) : Arriving job runDir t := by
  cases e with
  | log type data stored => exact arriving_log arriving stepped
  | report i r => exact arriving_report arriving stepped
  | turn current =>
    cases stepped
    exact ⟨arriving.uri, arriving.ids, arriving.offsets, arriving.pending⟩
  | cancel cancelled =>
    cases stepped
    exact ⟨arriving.uri, arriving.ids, arriving.offsets, arriving.pending⟩
  | deliver =>
    obtain ⟨uri, ids, offsets, c, handled, synced⟩ := arriving
    simp only [LogTransfer.step] at stepped
    split at stepped
    · cases stepped
    · rename_i line rest pipe
      obtain ⟨client, handledFirst, rfl⟩ := Option.map_eq_some_iff.mp stepped
      refine ⟨uri, ids, offsets, c, ?_, synced⟩
      rw [pipe, handleAll, List.foldlM_cons, handledFirst] at handled
      exact handled

/-- Nothing that is logged for a task is refused, up to the largest offset. -/
theorem log_accepted {stored : Bool} (arriving : Arriving job runDir s)
    (bound : ∀ taskId ∈ job.tasks,
      (s.written taskId (rstrntLogTypeGetPath type)).length + data.length < 2 ^ 63) :
    ∃ t, LogTransfer.step s (.log type data stored) = some t := by
  simp only [LogTransfer.step, restraintLogTask]
  split
  · exact ⟨s, rfl⟩
  unfold connectionsWrite
  split
  · exact ⟨s, rfl⟩
  rename_i i task current
  split
  · exact ⟨s, rfl⟩
  obtain ⟨j, -, located⟩ := Option.bind_eq_some_iff.mp current
  obtain ⟨task', found, same⟩ := Option.map_eq_some_iff.mp located
  cases same
  have below := bound task.taskId (arriving.member found)
  have under : strstr (soupUriNewWithBase (taskPath s.recipeUri task.taskId)
      (rstrntLogTypeGetPath type).toList) "/logs/".toList = true := by
    obtain ⟨name, path⟩ : ∃ name, '/' :: (rstrntLogTypeGetPath type).toList =
        "/logs/".toList ++ name := by
      cases type
      · exact ⟨"taskout.log".toList, by decide⟩
      · exact ⟨"harness.log".toList, by decide⟩
    rw [arriving.uri, taskPath_below, taskUrl_eq_append, path]
    exact strstr_append
  simp only [arriving.offsets i task found type, restraintStdoutMessage, logMessage, under]
  rw [if_neg (Nat.not_le.mpr below)]
  exact ⟨_, rfl⟩

private theorem arriving_run {es : List Event}
    (ran : run LogTransfer.step (start job runDir transactionId) es = some s) :
    Arriving job runDir s :=
  run_keeps (fun _ _ _ arriving stepped => arriving_step arriving stepped) arriving_start ran

/-- **Logs arrive.** Whatever was logged for which tasks in which order, and
whatever else was reported, once the client has handled the lines printed so far
the file of each log holds what was written to the log, each task has one `<log>`
for each of its logs, and nothing else is recorded as a log. -/
theorem logs_arrive {es : List Event}
    (ran : run LogTransfer.step (start job runDir transactionId) es = some s) :
    ∃ client, handleAll s.client s.pipe = some client ∧
      (∀ taskId ∈ job.tasks, ∀ type,
        client.files (runDir ++ '/' :: logPath job.recipeId taskId type) =
          fileOf (s.written taskId (rstrntLogTypeGetPath type))) ∧
      client.tasks.map TaskNode.id = job.tasks ∧
      ∀ task ∈ client.tasks,
        (∀ type, (task.logs.map LogNode.path).count (logPath job.recipeId task.id type) =
          if s.written task.id (rstrntLogTypeGetPath type) = [] then 0 else 1) ∧
        (∀ log ∈ task.logs, ∃ type, log.path = logPath job.recipeId task.id type) ∧
        ∀ result ∈ task.results, result.logs = [] := by
  obtain ⟨client, handled, synced⟩ := (arriving_run ran).pending
  have ids : client.tasks.map TaskNode.id = job.tasks := by
    rw [← synced.ids, List.map_map]
    rfl
  refine ⟨client, handled, synced.files, ids, fun task member => ?_⟩
  obtain ⟨nodup, paths, none⟩ := synced.recorded _ (List.mem_map_of_mem member)
  have slashless : '/' ∉ task.id := slash_not_mem_of_alnum (alnum_of_digit
    (job.numeric task.id (ids ▸ List.mem_map_of_mem member)))
  refine ⟨fun type => ?_, fun log held => ?_, fun result held => ?_⟩
  · split
    · rename_i empty
      apply List.count_eq_zero_of_not_mem
      rintro inside
      obtain ⟨type', same, written⟩ := (paths _).mp inside
      obtain ⟨-, rfl⟩ := logPath_injective (slash_not_mem_of_alnum job.alphanumeric) slashless
        slashless same
      exact written empty
    · rename_i written
      exact List.count_eq_one_of_mem nodup ((paths _).mpr ⟨type, rfl, written⟩)
  · obtain ⟨type, same, -⟩ := (paths log.path).mp (List.mem_map_of_mem held)
    exact ⟨type, same⟩
  · exact List.flatMap_eq_nil_iff.mp none result held

/-- Two tasks log, a status is reported, and the client has read one line so far. -/
theorem logs_arrive_interleaved :
    ∃ s, run LogTransfer.step
        (start (Job.ofTemplate "12".toList 2 (by simp) (by simp)) "job.01".toList 7)
        [.turn (some 0), .log .task [1, 2, 3] true, .report 0 (.status "Running".toList),
          .turn (some 1), .log .harness [5] false, .turn (some 0), .log .task [4] true,
          .deliver] = some s ∧
      ∃ client, handleAll s.client s.pipe = some client ∧
        client.files ("job.01".toList ++ '/' :: logPath "12".toList "1".toList .task) =
          some [some 1, some 2, some 3, some 4] := by
  have written : (run LogTransfer.step
      (start (Job.ofTemplate "12".toList 2 (by simp) (by simp)) "job.01".toList 7)
      [.turn (some 0), .log .task [1, 2, 3] true, .report 0 (.status "Running".toList),
        .turn (some 1), .log .harness [5] false, .turn (some 0), .log .task [4] true,
        .deliver]).map (fun s => s.written "1".toList "logs/taskout.log") = some [1, 2, 3, 4] := by
    decide +kernel
  obtain ⟨s, ran, logged⟩ := Option.map_eq_some_iff.mp written
  obtain ⟨client, handled, files, -⟩ := logs_arrive ran
  refine ⟨s, ran, client, handled, (files "1".toList (by decide) .task).trans ?_⟩
  rw [rstrntLogTypeGetPath, logged]
  rfl

end Run

end Restraint.LogTransferProofs

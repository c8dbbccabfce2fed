import Restraint.LogRouting
import Restraint.ReportTransfer
import Restraint.UploadEnd

/-! Two uploads of a log under one name, and the file that the client has afterwards. The chunks of
an upload tile the file. The daemon prints each as a line, and the client looks its path up: a log
named `start` is taken for the start of the recipe, and nothing of it is stored. For another name
the client cuts its file to the size that a chunk announces and writes the chunk at its place. An
empty file has no chunk, so it announces nothing. -/
namespace Restraint.UploadReplace
open CString Tiling Restraint.Client Restraint.LogTransferProofs Restraint.LogRouting
open Restraint.Upload Restraint.UploadEnd
open Restraint.LogTransfer (SoupMessage Transfer jsonHeaders restraintStdoutMessage)
open Restraint.ReportTransfer (uploaded)

variable {recipeId taskId uri : Text} {content data : List UInt8} {c : RecipeData}
  {answers : List Answer} {done offset filesize transactionId : Nat} {sent : List Put} {s : Sending}
  {headers : Text → Option Text} {put : Put} {callback : Callback}

/-! ## What an upload sends -/

/-- The file does not change: a read finds something of what is left of the content. -/
def Unchanged (content : List UInt8) : List Answer → Nat → Prop
  | [], _ => True
  | answer :: rest, done => done < content.length →
    ∃ available, answer.available = .ok available ∧ available ≠ [] ∧
      available <+: content.drop done ∧
      Unchanged content rest (done + min available.length readBufferSize)

/-- The messages of consecutive chunks. -/
def puts (uri : Text) (filesize : Nat) : Nat → List (List UInt8) → List Put
  | _, [] => []
  | offset, chunk :: rest =>
    ⟨uri, contentRange offset (offset + chunk.length - 1) filesize, chunk⟩ ::
      puts uri filesize (offset + chunk.length) rest

private theorem puts_of_tiles {file : List UInt8} {pieces : List (Piece UInt8)} {stop : Nat}
    (tiles : Tiles file offset pieces stop) :
    pieces.map (message uri filesize) = puts uri filesize offset (pieces.map Prod.snd) := by
  induction pieces generalizing offset with
  | nil => rfl
  | cons piece rest ih =>
    obtain ⟨rfl, -, -, further⟩ := tiles
    exact congrArg (_ :: ·) (ih further)

/-- The messages of an upload go to one URI. -/
theorem puts_uri {chunks : List (List UInt8)} (member : put ∈ puts uri filesize offset chunks) :
    put.uri = uri := by
  induction chunks generalizing offset with
  | nil => cases member
  | cons chunk rest ih =>
    rcases List.mem_cons.mp member with rfl | later
    · rfl
    · exact ih later

/-- The reads of a file that does not change are its pieces. -/
theorem reads_tile (unchanged : Unchanged content answers done)
    (below : done ≤ content.length) :
    ∃ stop, Tiles content done (reads content.length answers done) stop := by
  induction answers generalizing done with
  | nil => exact ⟨done, rfl⟩
  | cons answer rest ih =>
    by_cases more : done < content.length
    · obtain ⟨available, found, nonempty, front, later⟩ := unchanged more
      have room := front.length_le
      rw [List.length_drop] at room
      have sized : (available.take (count (content.length - done))).length =
          min available.length readBufferSize := by
        rw [length_take_count _ found, size, found]
        dsimp only
        omega
      have chunked : available.take (count (content.length - done)) <+: content.drop done :=
        (List.take_prefix _ _).trans front
      unfold reads
      simp only [found]
      generalize available.take (count (content.length - done)) = data at sized chunked
      have positive : data ≠ [] := by
        have available : 0 < available.length := List.length_pos_iff.mpr nonempty
        have buffer : 0 < readBufferSize := by decide
        exact List.length_pos_iff.mp (by omega)
      rw [← sized] at later
      obtain ⟨stop, tiles⟩ := ih later (by omega)
      rw [if_neg positive]
      exact ⟨stop, tiles_cons.mpr ⟨rfl, positive, chunked, tiles⟩⟩
    · rw [reads_end more]
      exact ⟨done, rfl⟩

private theorem uploadChunks_sends (unchanged : Unchanged content answers done)
    (below : done ≤ content.length)
    (ran : uploadChunks content.length uri answers done ⟨done, sent⟩ =
      (s, some (.ok true))) :
    ∃ chunks, s.sent = sent ++ puts uri content.length done chunks ∧
      chunks.flatten = content.drop done ∧ ∀ chunk ∈ chunks, chunk ≠ [] := by
  obtain ⟨sends, whole⟩ := uploadChunks_tiled (content.take done) (List.length_take_of_le below)
    below ran
  obtain ⟨stop, tiles⟩ := reads_tile unchanged below
  obtain rfl : stop = content.length := tiles.length_eq.trans whole.length_eq.symm
  refine ⟨_, puts_of_tiles tiles ▸ sends, ?_, ?_⟩
  · rw [tiles.bytes_eq, List.take_of_length_le (Nat.le_of_eq List.length_drop)]
  · intro chunk member
    obtain ⟨piece, here, rfl⟩ := List.mem_map.mp member
    exact (tiles.mem here).1

/-! ## What the client stores -/

/-- The message that `server_recipe_callback` sends for a chunk. The headers are those of
`upload_chunk`; the client reads none of those that libsoup adds. -/
def messageOf (put : Put) : SoupMessage :=
  uploaded put.uri
    [("Content-Range".toList, put.contentRange), ("Content-Type".toList, "text/plain".toList)] put.data

/-- The line that `restraint_stdout_message` prints for a chunk. -/
def lineOf (transactionId : Nat) (put : Put) : Line :=
  ⟨jsonHeaders (messageOf put) transactionId, .string put.data⟩

/-- The headers of the line, as the client reads them. -/
def headersOf (transactionId : Nat) (put : Put) : Text → Option Text :=
  jsonToHashtable (lineOf transactionId put).headers

/-- The messages as the daemon forwards them and the client handles them, in order. -/
def forward (transactionId : Nat) (c : RecipeData) (messages : List Put) : Option RecipeData :=
  handleAll c (messages.map (lineOf transactionId))

/-- What the daemon prints for a chunk of a log is its line. -/
theorem restraintStdoutMessage_messageOf {s : Transfer}
    (under : strstr put.uri "/logs/".toList = true) :
    restraintStdoutMessage s (messageOf put) =
      some { s with pipe := s.pipe ++ [lineOf s.transactionId put] } := by
  have method : (messageOf put).method ≠ "POST".toList := by
    show "PUT".toList ≠ "POST".toList
    decide
  unfold restraintStdoutMessage
  rw [show (messageOf put).path = put.uri from rfl, under, if_neg method]
  rfl

private theorem headersOf_contentRange (transactionId : Nat) (put : Put) :
    headersOf transactionId put "Content-Range".toList = some put.contentRange := by
  have method : (messageOf put).method ≠ "POST".toList := by
    show "PUT".toList ≠ "POST".toList
    decide
  show jsonToHashtable (jsonHeaders (messageOf put) transactionId) _ = _
  unfold jsonToHashtable jsonHeaders
  rw [if_neg method, jsonObjectObjectAdd_other (by decide), jsonObjectObjectAdd_other (by decide),
    jsonObjectObjectAdd_other (by decide)]
  unfold messageOf uploaded
  rw [List.foldl_cons, List.foldl_cons, List.foldl_nil, jsonObjectObjectAdd_other (by decide),
    jsonObjectObjectAdd_self]

/-- A line goes to the callback of its path. -/
theorem handleMessage_lineOf (routed : processPath put.uri = some callback) :
    handleMessage c (lineOf transactionId put) =
      call { c with connRetries := 0 } put.uri (headersOf transactionId put) (.string put.data)
        callback := by
  have path : jsonToHashtable (lineOf transactionId put).headers "rstrnt-path".toList = some put.uri :=
    jsonHeaders_path
  unfold handleMessage
  simp only [path, routed]
  rfl

/-- The client's file for a log. -/
def logFile (c : RecipeData) (uri : Text) : Option (SparseFile UInt8) := c.files (c.runDir ++ uri)

private theorem headersGetContentRange_total {start stop total : Nat} (ordered : start < 2 ^ 63)
    (bound : stop < 2 ^ 63) (small : total < 2 ^ 63)
    (held : headers "Content-Range".toList = some (contentRange start stop total)) :
    headersGetContentRange headers = some ((start : Int), (stop : Int), (total : Int)) := by
  obtain ⟨c, digits, shape, digit⟩ := Decimal.print_eq_cons (n := total)
  have shown : contentRange start stop total = "bytes ".toList ++ (Decimal.print start ++ '-' ::
      (Decimal.print stop ++ '/' :: Decimal.print total)) := List.append_assoc _ _ _
  obtain ⟨unit, numeric, first, second⟩ :=
    printedRange_parts (by omega) (by omega) (by simp) shown
  have third : Decimal.strtoull (Decimal.print total) = (total, []) := by
    have read : Decimal.strtoull (Decimal.print total ++ []) = (total, []) :=
      Decimal.strtoull_print (by omega) (by simp)
    rwa [List.append_nil] at read
  have known : c ≠ '*' := by
    rintro rfl
    exact absurd digit (by decide)
  unfold headersGetContentRange
  rw [shape] at second third first
  simp only [held, unit, numeric, first, second, Bool.true_eq_false, ↓reduceIte]
  split
  · rename_i star
    cases star
    exact absurd rfl known
  · rename_i slash
    cases slash
    simp only [third, ↓reduceIte, toGoffset_of_lt ordered, toGoffset_of_lt bound,
      toGoffset_of_lt small]
  · rename_i other
    exact absurd rfl (other _ _)

/-- A chunk with its range and the size of the file is written at its place in the cut file. -/
theorem storeLog_total {logPath filename : Text} {logsXpath : LogsXpath} {shortPath : Option Text}
    (nonempty : data ≠ []) (inside : offset + data.length ≤ filesize) (bound : filesize < 2 ^ 63)
    (range : headers "Content-Range".toList =
      some (contentRange offset (offset + data.length - 1) filesize)) :
    storeLog c logPath filename logsXpath shortPath headers data =
      updateChunk (if offset = 0 then
          recordLog (truncateFile c filename filesize) logsXpath ⟨logPath, shortPath⟩
        else truncateFile c filename filesize) filename data offset := by
  have positive : 0 < data.length := List.length_pos_iff.mpr nonempty
  have read := headersGetContentRange_total (by omega) (by omega) bound range
  have exact : (((offset + data.length - 1 : Nat) : Int) - offset + 1) % 2 ^ 64 =
      (data.length : Int) := by omega
  have known : (0 : Int) < filesize := by omega
  have fits : ¬(filesize : Int) < (offset + data.length - 1 : Nat) := by omega
  unfold storeLog
  simp only [read, ne_eq, exact, not_true_eq_false, fits, known, and_false, ↓reduceIte,
    Int.toNat_natCast, Int.natCast_eq_zero]

/-- The client keeps its directory and its tasks. -/
structure Kept (c c' : RecipeData) : Prop where
  runDir : c'.runDir = c.runDir
  tasks : c'.tasks.map TaskNode.id = c.tasks.map TaskNode.id

theorem Kept.trans {c' c'' : RecipeData} (kept : Kept c c') (kept' : Kept c' c'') : Kept c c'' :=
  ⟨kept'.runDir.trans kept.runDir, kept'.tasks.trans kept.tasks⟩

private theorem updateTask_kept {id : Text} (change : TaskNode → TaskNode)
    (keeps : ∀ task, (change task).id = task.id) : Kept c (updateTask c id change keeps) :=
  ⟨rfl, map_unchanged keeps⟩

private theorem recordLog_kept {logsXpath : LogsXpath} {node : LogNode} :
    Kept c (recordLog c logsXpath node) := by
  unfold recordLog
  split <;> exact updateTask_kept _ fun _ => by rfl

theorem recordLog_files {logsXpath : LogsXpath} {node : LogNode} :
    (recordLog c logsXpath node).files = c.files := by
  cases logsXpath <;> rfl

/-- The file that a chunk is written into: cut or filled up to the announced size, or a new one. -/
def cut (filesize : Nat) (file : Option (SparseFile UInt8)) : SparseFile UInt8 :=
  (file.map (·.truncate filesize)).getD []

/-- The paths of logs, of a task or of a result of it. -/
inductive IsLog (recipeId taskId : Text) : Text → Prop where
  | task (rest : Text) : IsLog recipeId taskId
      (taskUrl recipeId taskId ("logs".toList ++ '/' :: rest))
  | result (resultId rest : Text) (clean : '/' ∉ resultId) : IsLog recipeId taskId
      (taskUrl recipeId taskId
        ("results".toList ++ '/' :: (resultId ++ '/' :: ("logs".toList ++ '/' :: rest))))

private theorem isLog_taskLog {name : FileName} :
    IsLog recipeId taskId (taskLog recipeId taskId name) := by
  rw [taskLog_eq, logs_append]
  exact .task _

private theorem isLog_resultLog {resultId : Text} {name : FileName} (clean : '/' ∉ resultId) :
    IsLog recipeId taskId (resultLog recipeId taskId resultId name) := by
  rw [resultLog_eq, resultLogs_append]
  exact .result _ _ clean

/-- The URI that a file is uploaded below: that of the log of a task, as `upload_log` makes it, or
the Location of a result with its logs. -/
inductive ResultsUri (recipeId taskId : Text) (name : FileName) : Text → Prop where
  | task : ResultsUri recipeId taskId name (taskUrl recipeId taskId ("logs/".toList ++ name.text))
  | result (resultId : Text) (counted : resultId ≠ [] ∧ ∀ c ∈ resultId, c.isDigit = true) :
      ResultsUri recipeId taskId name
        (taskUrl recipeId taskId ("results/".toList ++ resultId ++ "/logs/".toList))

theorem ResultsUri.isLog {name : FileName} {resultsUri : Text}
    (below : ResultsUri recipeId taskId name resultsUri) :
    IsLog recipeId taskId (resultLogUri resultsUri name.text) := by
  cases below with
  | task => exact isLog_taskLog
  | result resultId counted =>
    exact isLog_resultLog (slash_not_mem_of_alnum (alnum_of_digit counted.2))

/-- The log is stored, or taken for the start of the recipe. -/
theorem ResultsUri.routed {name : FileName} {resultsUri : Text}
    (below : ResultsUri recipeId taskId name resultsUri)
    (named : recipeId ≠ [] ∧ ∀ c ∈ recipeId, c.isAlphanum = true)
    (numbered : taskId ≠ [] ∧ ∀ c ∈ taskId, c.isDigit = true) :
    processPath (resultLogUri resultsUri name.text) =
      if name.text = "start".toList then some .recipeStartCb else some .tasksLogsCb := by
  split
  · rename_i start
    cases below with
    | task => exact processPath_taskLog_start start
    | result resultId counted => exact processPath_resultLog_start start
  · rename_i other
    cases below with
    | task => exact (processPath_taskLog named numbered).mpr other
    | result resultId counted => exact (processPath_resultLog named numbered counted).mpr other

/-- A log of a known task is stored under its path. -/
theorem tasksLogsCb_stores (log : IsLog recipeId taskId uri) (recipe : '/' ∉ recipeId)
    (task : '/' ∉ taskId) (known : taskId ∈ c.tasks.map TaskNode.id) :
    ∃ logPath logsXpath shortPath, tasksLogsCb c uri headers (.string data) =
      some (storeLog { c with started := true } logPath (c.runDir ++ uri) logsXpath shortPath
        headers data) := by
  have present : (c.tasks.any fun node => decide (node.id = taskId)) = true := by
    obtain ⟨node, member, same⟩ := List.mem_map.mp known
    exact List.any_eq_true.mpr ⟨node, member, by simpa using same⟩
  have joined (rest : Text) : '/' :: gStrjoinv ((gStrsplit (taskUrl recipeId taskId rest)).drop 1) =
      taskUrl recipeId taskId rest := by
    rw [taskUrl, gStrjoinv_drop_one]
  cases log with
  | task rest =>
    have entries : gStrsplit (taskUrl recipeId taskId ("logs".toList ++ '/' :: rest)) = _ :=
      gStrsplit_taskUrl recipe task
    rw [splitOn_logs] at entries
    have fourth : (gStrsplit (taskUrl recipeId taskId ("logs".toList ++ '/' :: rest)))[4]? =
        some taskId := by rw [entries]; rfl
    have fifth : (gStrsplit (taskUrl recipeId taskId ("logs".toList ++ '/' :: rest)))[5]? =
        some "logs".toList := by rw [entries]; rfl
    unfold tasksLogsCb
    simp only [fourth, fifth, joined, present, Bool.true_eq_false, ↓reduceIte]
    exact ⟨_, _, _, rfl⟩
  | result resultId rest clean =>
    have entries : gStrsplit (taskUrl recipeId taskId ("results".toList ++ '/' ::
        (resultId ++ '/' :: ("logs".toList ++ '/' :: rest)))) = _ := gStrsplit_taskUrl recipe task
    rw [splitOn_resultLogs clean] at entries
    obtain ⟨first, more, pieces⟩ := List.exists_cons_of_ne_nil (List.splitOn_ne_nil '/' rest)
    generalize path : taskUrl recipeId taskId ("results".toList ++ '/' ::
      (resultId ++ '/' :: ("logs".toList ++ '/' :: rest))) = uri at entries
    have fourth : (gStrsplit uri)[4]? = some taskId := by rw [entries]; rfl
    have fifth : (gStrsplit uri)[5]? ≠ some "logs".toList := by
      rw [entries]
      exact fun same => absurd (Option.some.inj same) (by decide)
    have long : ¬(gStrsplit uri).length < 8 := by
      rw [entries, pieces]
      simp only [List.length_cons]
      omega
    have whole := joined ("results".toList ++ '/' ::
      (resultId ++ '/' :: ("logs".toList ++ '/' :: rest)))
    rw [path] at whole
    unfold tasksLogsCb
    simp only [fourth, fifth, whole, long, present, Bool.true_eq_false, ↓reduceIte]
    exact ⟨_, _, _, rfl⟩

/-- Recording the log leaves the write of the bytes as it is. -/
theorem recorded_write (c : RecipeData) (uri : Text) (offset : Nat) (logsXpath : LogsXpath)
    (node : LogNode) (nonempty : data ≠ []) :
    Kept c (updateChunk (if offset = 0 then recordLog c logsXpath node else c)
        (c.runDir ++ uri) data offset) ∧
      logFile (updateChunk (if offset = 0 then recordLog c logsXpath node else c)
        (c.runDir ++ uri) data offset) uri =
        some (((logFile c uri).getD []).write offset data) := by
  rw [updateChunk_write nonempty]
  split
  · have kept : Kept c (recordLog c logsXpath node) := recordLog_kept
    refine ⟨⟨kept.runDir, kept.tasks⟩, ?_⟩
    simp only [logFile, kept.runDir, recordLog_files, Function.update_self]
  · refine ⟨⟨rfl, rfl⟩, ?_⟩
    simp only [logFile, Function.update_self]

/-- What one message does to the file: it is cut or filled up to the announced size, and the bytes
are written at their place. -/
theorem tasksLogsCb_chunk (log : IsLog recipeId taskId uri) (recipe : '/' ∉ recipeId)
    (task : '/' ∉ taskId) (known : taskId ∈ c.tasks.map TaskNode.id) (nonempty : data ≠ [])
    (inside : offset + data.length ≤ filesize) (bound : filesize < 2 ^ 63)
    (range : headers "Content-Range".toList =
      some (contentRange offset (offset + data.length - 1) filesize)) :
    ∃ c', tasksLogsCb c uri headers (.string data) = some c' ∧ Kept c c' ∧
      logFile c' uri = some ((cut filesize (logFile c uri)).write offset data) := by
  obtain ⟨logPath, logsXpath, shortPath, stored⟩ := tasksLogsCb_stores log recipe task known
  refine ⟨_, stored, ?_⟩
  rw [storeLog_total nonempty inside bound range]
  let truncated := truncateFile { c with started := true } (c.runDir ++ uri) filesize
  have file : logFile truncated uri = (logFile c uri).map (·.truncate filesize) :=
    Function.update_self _ _ _
  have written := recorded_write truncated uri offset logsXpath ⟨logPath, shortPath⟩ nonempty
  rw [file] at written
  exact ⟨⟨written.1.runDir, written.1.tasks⟩, written.2⟩

/-- The first bytes of the content are in the file, and the file is no longer than the content. -/
def Filled (content : List UInt8) (offset : Nat) (file : Option (SparseFile UInt8)) : Prop :=
  offset = 0 ∨ ∃ stored, file = some stored ∧ stored.length ≤ content.length ∧
    offset ≤ stored.length ∧ stored.take offset = (content.take offset).map some

theorem Filled.write {file : Option (SparseFile UInt8)} {rest : List UInt8}
    (filled : Filled content offset file) (here : content.drop offset = data ++ rest)
    (inside : offset + data.length ≤ content.length) :
    Filled content (offset + data.length)
      (some ((cut content.length file).write offset data)) := by
  have placed : offset ≤ (cut content.length file).length ∧
      (cut content.length file).length ≤ content.length ∧
      (cut content.length file).take offset = (content.take offset).map some := by
    rcases filled with rfl | ⟨stored, rfl, short, long, same⟩
    · refine ⟨Nat.zero_le _, ?_, by simp⟩
      cases file <;> simp [cut]
    · refine ⟨?_, ?_, ?_⟩
      · simp only [cut, Option.map_some, Option.getD_some, SparseFile.length_truncate]
        omega
      · simp [cut]
      · rw [cut, Option.map_some, Option.getD_some, SparseFile.take_truncate long (by omega), same]
  obtain ⟨reached, short, same⟩ := placed
  refine .inr ⟨_, rfl, ?_, ?_, ?_⟩
  · rw [SparseFile.length_write]
    omega
  · rw [SparseFile.length_write]
    omega
  · rw [SparseFile.take_write reached, same, List.take_add, here, List.take_left, List.map_append]

/-- Messages that are taken for the start of the recipe store nothing. -/
theorem forward_start {messages : List Put} (transactionId : Nat) (c : RecipeData)
    (start : ∀ put ∈ messages, processPath put.uri = some .recipeStartCb) :
    ∃ c', forward transactionId c messages = some c' ∧ Kept c c' ∧ c'.files = c.files := by
  induction messages generalizing c with
  | nil => exact ⟨c, rfl, ⟨rfl, rfl⟩, rfl⟩
  | cons put rest ih =>
    rw [List.forall_mem_cons] at start
    obtain ⟨c', forwarded, kept, same⟩ := ih { c with connRetries := 0, started := true } start.2
    refine ⟨c', ?_, ⟨kept.runDir, kept.tasks⟩, same⟩
    rw [forward, handleAll, List.map_cons, List.foldlM_cons, handleMessage_lineOf start.1]
    exact forwarded

private theorem forward_puts {chunks : List (List UInt8)} (log : IsLog recipeId taskId uri)
    (recipe : '/' ∉ recipeId) (task : '/' ∉ taskId) (routed : processPath uri = some .tasksLogsCb)
    (bound : content.length < 2 ^ 63) (known : taskId ∈ c.tasks.map TaskNode.id)
    (occupied : ∀ chunk ∈ chunks, chunk ≠ [])
    (tiles : content.drop offset = chunks.flatten) (below : offset ≤ content.length)
    (filled : Filled content offset (logFile c uri)) :
    ∃ c', forward transactionId c (puts uri content.length offset chunks) = some c' ∧ Kept c c' ∧
      (chunks = [] → logFile c' uri = logFile c uri) ∧
      Filled content content.length (logFile c' uri) := by
  induction chunks generalizing c offset with
  | nil =>
    have ended : offset = content.length := by
      have left := congrArg List.length tiles
      rw [List.length_drop, List.flatten_nil, List.length_nil] at left
      omega
    exact ⟨c, rfl, ⟨rfl, rfl⟩, fun _ => rfl, ended ▸ filled⟩
  | cons chunk rest ih =>
    rw [List.forall_mem_cons] at occupied
    have room : offset + chunk.length ≤ content.length := by
      have left := congrArg List.length tiles
      rw [List.length_drop, List.flatten_cons, List.length_append] at left
      omega
    obtain ⟨middle, stored, kept, written⟩ :=
      tasksLogsCb_chunk (c := { c with connRetries := 0 }) log recipe task known occupied.1 room bound
        (headersOf_contentRange transactionId
          ⟨uri, contentRange offset (offset + chunk.length - 1) content.length, chunk⟩)
    have further : content.drop (offset + chunk.length) = rest.flatten := by
      rw [← List.drop_drop, tiles, List.flatten_cons, List.drop_left]
    have known' : taskId ∈ middle.tasks.map TaskNode.id := by
      rw [kept.tasks]
      exact known
    have filled' : Filled content (offset + chunk.length) (logFile middle uri) := by
      rw [written]
      exact filled.write tiles room
    obtain ⟨c', forwarded, kept', -, full⟩ := ih known' occupied.2 further room filled'
    refine ⟨c', ?_, ⟨kept'.runDir.trans kept.runDir, kept'.tasks.trans kept.tasks⟩,
      fun absent => (nomatch absent), full⟩
    rw [puts, forward, handleAll, List.map_cons, List.foldlM_cons, handleMessage_lineOf routed]
    rw [call, stored]
    exact forwarded

/-! ## Two uploads -/

/-- A process of `rstrnt-report-log` that uploads a file with success. -/
structure Upload (content : List UInt8) (resultsUri : Text) (name : FileName) where
  filepath : Text
  file : File
  answers : List Answer
  s : Sending
  size : file.size = .ok content.length
  /-- A file is at most as long as the largest `goffset`. -/
  bound : content.length < 2 ^ 63
  unchanged : Unchanged content answers 0
  succeeds : uploadFile filepath name.text resultsUri file answers ⟨0, []⟩ = (s, some (.ok true))

theorem Upload.sends {resultsUri : Text} {name : FileName} (upload : Upload content resultsUri name) :
    ∃ chunks, upload.s.sent = puts (resultLogUri resultsUri name.text) content.length 0 chunks ∧
      chunks.flatten = content ∧ ∀ chunk ∈ chunks, chunk ≠ [] := by
  obtain ⟨filepath, file, answers, s, size, bound, unchanged, ran⟩ := upload
  unfold uploadFile at ran
  rw [size] at ran
  dsimp only at ran
  split at ran
  · cases ran
  · split at ran
    · cases ran
    · rename_i ended
      rw [ran] at ended
      obtain ⟨chunks, sends, tiles, occupied⟩ :=
        uploadChunks_sends unchanged (Nat.zero_le _) ended
      exact ⟨chunks, sends, tiles, occupied⟩

theorem Filled.whole {file : Option (SparseFile UInt8)} (filled : Filled content content.length file)
    (occupied : content ≠ []) : file = some (content.map some) := by
  rcases filled with empty | ⟨stored, rfl, short, long, same⟩
  · exact absurd (List.eq_nil_of_length_eq_zero empty) occupied
  · rw [List.take_of_length_le (by omega), List.take_of_length_le (Nat.le_refl _)] at same
    rw [same]

section Replace
variable {resultsUri : Text} {name : FileName} {F₁ F₂ : List UInt8}

/-- After an upload the file has the content, unless there is none, or the log is taken for the start
of the recipe: then the file is as before. -/
theorem forward_upload (transactionId : Nat) (upload : Upload content resultsUri name)
    (below : ResultsUri recipeId taskId name resultsUri)
    (named : recipeId ≠ [] ∧ ∀ c ∈ recipeId, c.isAlphanum = true)
    (numbered : taskId ≠ [] ∧ ∀ c ∈ taskId, c.isDigit = true)
    (known : taskId ∈ c.tasks.map TaskNode.id) :
    ∃ c', forward transactionId c upload.s.sent = some c' ∧ Kept c c' ∧
      logFile c' (resultLogUri resultsUri name.text) =
        if name.text = "start".toList ∨ content = [] then logFile c (resultLogUri resultsUri name.text)
        else some (content.map some) := by
  have recipe := slash_not_mem_of_alnum named.2
  have task := slash_not_mem_of_alnum (alnum_of_digit numbered.2)
  have routed := below.routed named numbered
  obtain ⟨chunks, sends, tiles, occupied⟩ := upload.sends
  rw [sends]
  by_cases start : name.text = "start".toList
  · rw [if_pos start] at routed
    obtain ⟨c', forwarded, kept, same⟩ := forward_start transactionId c
      fun put member => (puts_uri member).symm ▸ routed
    refine ⟨c', forwarded, kept, ?_⟩
    rw [if_pos (.inl start), logFile, kept.runDir, same]
    rfl
  · rw [if_neg start] at routed
    have whole : content.drop 0 = chunks.flatten := by rw [List.drop_zero, tiles]
    obtain ⟨c', forwarded, kept, same, full⟩ := forward_puts below.isLog recipe task routed
      upload.bound known occupied whole (Nat.zero_le _) (.inl rfl)
    refine ⟨c', forwarded, kept, ?_⟩
    by_cases empty : content = []
    · rw [if_pos (.inr empty)]
      rw [empty, List.flatten_eq_nil_iff] at tiles
      refine same (List.eq_nil_iff_forall_not_mem.mpr fun chunk member => ?_)
      exact occupied chunk member (tiles chunk member)
    · rw [if_neg (not_or.mpr ⟨start, empty⟩)]
      exact full.whole empty

private theorem forward_append {messages more : List Put} :
    forward transactionId c (messages ++ more) =
      (forward transactionId c messages).bind fun c' => forward transactionId c' more := by
  unfold forward handleAll
  rw [List.map_append, List.foldlM_append]
  rfl

end Replace

/-! ## A log that is emptied -/

def exampleName : FileName where
  text := "a".toList
  named := by decide
  inOne := by decide
  here := by decide
  above := by decide

def exampleUri : Text := taskUrl "1".toList "2".toList ("logs/".toList ++ "a".toList)

def exampleClient : RecipeData where
  runDir := "/run".toList
  status := []
  result := []
  tasks := [LogTransfer.newTask "2".toList]
  distinct := by decide
  files _ := none
  started := true
  connRetries := 0
  watchdog := none

/-- The upload of a byte. -/
def byteUpload : Upload [1] exampleUri exampleName where
  filepath := "a".toList
  file := ⟨.ok 1, .ok ()⟩
  answers := [⟨.ok [1], .ok ()⟩]
  s := ⟨1, [⟨resultLogUri exampleUri "a".toList, "bytes 0-0/1".toList, [1]⟩]⟩
  size := rfl
  bound := by decide
  unchanged := fun _ => ⟨[1], rfl, by decide, List.prefix_rfl, trivial⟩
  succeeds := rfl

def startUri : Text := taskUrl "1".toList "2".toList ("logs/".toList ++ "start".toList)

/-- The upload of the byte in a file named `start`. -/
def startUpload : Upload [1] startUri startName where
  filepath := "start".toList
  file := ⟨.ok 1, .ok ()⟩
  answers := [⟨.ok [1], .ok ()⟩]
  s := ⟨1, [⟨resultLogUri startUri "start".toList, "bytes 0-0/1".toList, [1]⟩]⟩
  size := rfl
  bound := by decide
  unchanged := fun _ => ⟨[1], rfl, by decide, List.prefix_rfl, trivial⟩
  succeeds := rfl

/-- The upload of an empty file. -/
def emptyUpload : Upload [] exampleUri exampleName where
  filepath := "a".toList
  file := ⟨.ok 0, .ok ()⟩
  answers := []
  s := ⟨0, []⟩
  size := rfl
  bound := by decide
  unchanged := trivial
  succeeds := rfl

end Restraint.UploadReplace

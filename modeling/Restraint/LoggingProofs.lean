import Restraint.Logging
import Restraint.MessageProofs
import Restraint.Lib.Tiling

/-! The chunks of a log tile it. Every upload starts where the last one
stopped, at the offset of the task, and takes everything in the file; a flush
leaves nothing behind in the writer thread, so the final upload takes all that
was logged. -/
namespace Restraint.LoggingProofs
open Restraint.Message Restraint.MessageProofs Restraint.Logging Transition Tiling

variable {s t : Logs} {e : Logging.Event} {es : List Logging.Event} {type : LogType}
  {q : Queue Outgoing} {messages : List (MessageData Outgoing)}

/-! ## Cutting into chunks -/

section Chunks
variable {content : List UInt8} {offset contentLen chunkLen fuel left : Nat}

theorem chunkLoop_succ (some : left ≠ 0) :
    chunkLoop type content offset contentLen chunkLen (fuel + 1) left =
      { type := type, start := offset + contentLen - left
        stop := offset + contentLen - left + min left chunkLen - 1
        bytes := (content.drop (offset + contentLen - left)).take (min left chunkLen) } ::
        chunkLoop type content offset contentLen chunkLen fuel (left - min left chunkLen) := by
  have smaller : (if left > chunkLen then chunkLen else left) = min left chunkLen := by
    split <;> omega
  simp [chunkLoop, some, smaller]

/-- The loop tiles what is left of the content, with pieces no longer than a chunk. -/
theorem chunkLoop_tiles (positive : 0 < chunkLen) (enough : left ≤ fuel)
    (inside : left ≤ contentLen) (whole : offset + contentLen = content.length) :
    Tiles content (content.length - left)
      ((chunkLoop type content offset contentLen chunkLen fuel left).map Chunk.piece)
      content.length := by
  induction fuel generalizing left with
  | zero =>
    have none : left = 0 := by omega
    simp [chunkLoop, none]
  | succ fuel ih =>
    by_cases none : left = 0
    · simp [chunkLoop, none]
    rw [chunkLoop_succ none]
    have start : offset + contentLen - left = content.length - left := by omega
    have rest := @ih (left - min left chunkLen) (by omega) (by omega)
    have taken : ((content.drop (content.length - left)).take (min left chunkLen)).length =
        min left chunkLen := by
      simp only [List.length_take, List.length_drop]
      omega
    simp only [start, List.map_cons, Chunk.piece, tiles_cons, taken]
    refine ⟨trivial, ?_, List.take_prefix _ _, ?_⟩
    · intro empty
      rw [empty] at taken
      simp only [List.length_nil] at taken
      omega
    · have next : content.length - left + min left chunkLen =
          content.length - (left - min left chunkLen) := by omega
      rw [next]
      exact rest

theorem chunkLoop_chunk (positive : 0 < chunkLen) (inside : left ≤ contentLen)
    (whole : offset + contentLen = content.length) :
    ∀ chunk ∈ chunkLoop type content offset contentLen chunkLen fuel left,
      chunk.type = type ∧ chunk.bytes.length ≤ chunkLen ∧
        chunk.stop + 1 = chunk.start + chunk.bytes.length := by
  induction fuel generalizing left with
  | zero => simp [chunkLoop]
  | succ fuel ih =>
    by_cases none : left = 0
    · simp [chunkLoop, none]
    rw [chunkLoop_succ none]
    intro chunk member
    rcases List.mem_cons.mp member with rfl | later
    · refine ⟨rfl, ?_, ?_⟩ <;> simp only [List.length_take, List.length_drop] <;> omega
    · exact ih (by omega) chunk later

/-- What is promised of each chunk by itself. -/
structure Wellformed (type : LogType) (chunk : Chunk) : Prop where
  type_eq : chunk.type = type
  length_le : chunk.bytes.length ≤ BKR_MAX_CONTENT_LENGTH
  stop_eq : chunk.stop + 1 = chunk.start + chunk.bytes.length

private theorem chunkLoop_wellformed (inside : left ≤ contentLen)
    (whole : offset + contentLen = content.length) :
    ∀ chunk ∈ chunkLoop type content offset contentLen BKR_MAX_CONTENT_LENGTH fuel left,
      Wellformed type chunk := by
  intro chunk member
  obtain ⟨same, short, stop⟩ := chunkLoop_chunk (by decide) inside whole chunk member
  exact ⟨same, short, stop⟩

/-- Each round takes one of the slots. -/
theorem msgc_eq_succ (positive : 0 < chunkLen) (some : left ≠ 0) :
    msgc left chunkLen = msgc (left - min left chunkLen) chunkLen + 1 := by
  unfold msgc
  by_cases short : left ≤ chunkLen
  · rw [Nat.min_eq_left short, Nat.sub_self]
    rcases Nat.lt_or_eq_of_le short with less | rfl
    · have some : 0 < left := Nat.pos_of_ne_zero some
      simp [Nat.div_eq_of_lt less, Nat.mod_eq_of_lt less, some]
    · simp [Nat.div_self positive]
  · obtain ⟨rest, rfl⟩ := Nat.exists_eq_add_of_le (Nat.le_of_not_le short)
    rw [Nat.min_eq_right (by omega), Nat.add_sub_cancel_left, Nat.add_div_left _ positive,
      Nat.add_mod_left]
    omega

private theorem chunkLoop_length (positive : 0 < chunkLen) (enough : left ≤ fuel) :
    (chunkLoop type content offset contentLen chunkLen fuel left).length = msgc left chunkLen := by
  induction fuel generalizing left with
  | zero =>
    have none : left = 0 := by omega
    simp [chunkLoop, msgc, none]
  | succ fuel ih =>
    by_cases none : left = 0
    · simp [chunkLoop, msgc, none]
    rw [chunkLoop_succ none, List.length_cons, ih (by omega), msgc_eq_succ positive none]

theorem chunkLog_tiles (positive : 0 < chunkLen) (inside : offset ≤ content.length) :
    Tiles content offset ((rstrntChunkLog type content offset chunkLen).map Chunk.piece)
      content.length := by
  have tiles := @chunkLoop_tiles type content offset (content.length - offset) chunkLen _ _ positive
    (Nat.le_refl _) (Nat.le_refl _) (by omega)
  rwa [Nat.sub_sub_self inside] at tiles

private theorem chunkLog_wellformed (inside : offset ≤ content.length) :
    ∀ chunk ∈ rstrntChunkLog type content offset BKR_MAX_CONTENT_LENGTH, Wellformed type chunk :=
  chunkLoop_wellformed (Nat.le_refl _) (by omega)

/-- `rstrnt_chunk_log` fills exactly the slots it allocates. -/
theorem chunkLog_length (positive : 0 < chunkLen) :
    (rstrntChunkLog type content offset chunkLen).length = msgc (content.length - offset) chunkLen :=
  chunkLoop_length positive (Nat.le_refl _)

end Chunks

/-! ## Queueing -/

section Queueing

@[simp] theorem queued_restraintQueueMessage {m : MessageData Outgoing} :
    queued (restraintQueueMessage q m).history = queued q.history ++ [m] := by
  unfold restraintQueueMessage
  dsimp only
  split <;> exact queued_queued

private theorem queued_foldl {requeued : List (MessageData Outgoing)} :
    queued (requeued.foldl restraintQueueMessage q).history = queued q.history ++ requeued := by
  induction requeued generalizing q with
  | nil => simp
  | cons m rest ih => simp [ih]

private theorem queued_dispatch {id : Nat} {next : Queue Outgoing}
    (stepped : Message.step q (.dispatch id) = some next) :
    queued next.history = queued q.history := by
  simp only [Message.step] at stepped
  split at stepped
  · cases stepped
  · cases stepped
    unfold messageHandler
    split <;> rfl

/-- A delivery queues what the callback queues, if it is called. -/
theorem queued_deliver {index status : Nat} {requeued : List (MessageData Outgoing)}
    {next : Queue Outgoing} (stepped : Message.step q (.deliver index status requeued) = some next) :
    queued next.history = queued q.history ∨
      queued next.history = queued q.history ++ requeued := by
  simp only [Message.step] at stepped
  split at stepped
  · cases stepped
  · cases stepped
    unfold messageComplete
    split
    · dsimp only
      split
      · rw [queued_foldl]
        simp only [queued_called, queued_completed, or_true]
      · exact .inl queued_completed
    · exact .inl queued_retried

@[simp] theorem chunks_append {more : List (MessageData Outgoing)} :
    chunks type (messages ++ more) = chunks type messages ++ chunks type more := by
  simp [chunks]

@[simp] theorem chunks_other {tag : Nat} {finishCallback : Bool} :
    chunks type [⟨.other tag, finishCallback⟩] = [] := rfl

@[simp] theorem chunks_finalStatus {finishCallback : Bool} :
    chunks type [⟨.finalStatus, finishCallback⟩] = [] := rfl

private theorem chunks_chunk {chunk : Chunk} {finishCallback : Bool} :
    chunks type [⟨.chunk chunk, finishCallback⟩] = if chunk.type = type then [chunk] else [] := by
  by_cases same : chunk.type = type <;> simp [chunks, same]

/-- All chunks of one log are queued, in order. -/
theorem chunks_queueChunks {other : LogType} {msgv : List Chunk}
    (same : ∀ chunk ∈ msgv, chunk.type = other) :
    chunks type (queued (queueChunks q msgv).history) =
      chunks type (queued q.history) ++ if other = type then msgv else [] := by
  induction msgv generalizing q with
  | nil => simp [queueChunks]
  | cons chunk rest ih =>
    have first := same chunk (by simp)
    cases rest with
    | nil =>
      simp only [queueChunks, queued_restraintQueueMessage, chunks_append, chunks_chunk, first]
    | cons next rest =>
      have later := fun c member => same c (List.mem_cons_of_mem _ member)
      simp only [queueChunks] at ih ⊢
      rw [ih later, queued_restraintQueueMessage, chunks_append, chunks_chunk, first]
      split <;> simp

end Queueing

/-! ## The writer thread -/

/-- The bytes of a log the writer thread still has to write. -/
def pending (type : LogType) : List WriterData → List UInt8
  | [] => []
  | .message other bytes :: rest => (if other = type then bytes else []) ++ pending type rest
  | .sentinel :: rest => pending type rest

@[simp] theorem pending_nil : pending type [] = [] := rfl

private theorem pending_append {jobs more : List WriterData} :
    pending type (jobs ++ more) = pending type jobs ++ pending type more := by
  induction jobs with
  | nil => rfl
  | cons job rest ih => cases job <;> simp [pending, ih]

theorem write_eq {job : WriterData} :
    rstrntWriteLogFunc s job = { s with files := fun type => s.files type ++ pending type [job] } := by
  cases job with
  | message other bytes =>
    simp only [rstrntWriteLogFunc, pending, List.append_nil]
    congr 1
    funext type
    by_cases same : type = other
    · subst same
      simp
    · simp [same, Ne.symm same]
  | sentinel => simp [rstrntWriteLogFunc, pending]

private theorem writeAll_eq {jobs : List WriterData} : jobs.foldl rstrntWriteLogFunc s =
    { s with files := fun type => s.files type ++ pending type jobs } := by
  induction jobs generalizing s with
  | nil => simp
  | cons job rest ih =>
    rw [List.foldl_cons, ih, write_eq]
    simp only [List.append_assoc, ← pending_append, List.singleton_append]

/-- A flush writes everything that was logged. -/
theorem flush_eq : rstrntFlushLogs s = { s with
    files := fun type => s.files type ++ pending type (getTaskData s), pool := some [] } := by
  unfold rstrntFlushLogs
  rw [writeAll_eq]
  simp [pending_append, pending]

/-! ## The invariant -/

/-- Where the next upload of a log starts. -/
def offsetOf (s : Logs) (type : LogType) : Nat :=
  restraintTaskGetOffset s.offsets (rstrntLogTypeGetPath type)

theorem path_inj {other : LogType} :
    rstrntLogTypeGetPath type = rstrntLogTypeGetPath other ↔ type = other := by
  cases type <;> cases other <;> decide

private theorem offset_update {offset : Nat} {other : LogType} :
    restraintTaskGetOffset (Function.update s.offsets (rstrntLogTypeGetPath other) (some offset))
        (rstrntLogTypeGetPath type) =
      if type = other then offset else offsetOf s type := by
  unfold restraintTaskGetOffset offsetOf
  by_cases same : type = other
  · simp [same]
  · have apart := mt path_inj.mp same
    simp [same, apart, restraintTaskGetOffset]

/-- The chunks queued tile each log up to its offset, and the files lack only
what the writer thread has not written. -/
structure Tiled (initial : LogType → List UInt8) (s : Logs) : Prop where
  tiles : ∀ type, Tiles (s.files type) 0
    ((chunks type (queued s.queue.history)).map Chunk.piece) (offsetOf s type)
  wellformed : ∀ type, ∀ chunk ∈ chunks type (queued s.queue.history), Wellformed type chunk
  logged : ∀ type, s.files type ++ pending type (getTaskData s) = initial type ++ s.logged type

variable {initial : LogType → List UInt8}

theorem Tiled.offset_le (tiled : Tiled initial s) (type : LogType) :
    offsetOf s type ≤ (s.files type).length :=
  (tiled.tiles type).le_length (Nat.zero_le _)

/-- Queueing messages that are no chunks changes nothing. -/
theorem Tiled.requeue {queue : Queue Outgoing} (tiled : Tiled initial s)
    (same : ∀ type, chunks type (queued queue.history) = chunks type (queued s.queue.history)) :
    Tiled initial { s with queue := queue } :=
  ⟨fun type => by rw [same]; exact tiled.tiles type, fun type => by rw [same]; exact tiled.wellformed type,
    tiled.logged⟩

/-- The files grow by what the writer thread had to write. -/
theorem Tiled.grow {pool : Option (List WriterData)} {more : LogType → List UInt8}
    (tiled : Tiled initial s)
    (logged : ∀ type, more type ++ pending type (pool.getD []) = pending type (getTaskData s)) :
    Tiled initial { s with files := fun type => s.files type ++ more type, pool := pool } := by
  refine ⟨fun type => (tiled.tiles type).grow, tiled.wellformed, fun type => ?_⟩
  show s.files type ++ more type ++ pending type (pool.getD []) = _
  rw [List.append_assoc, logged]
  exact tiled.logged type

private theorem log_tiled {data : List UInt8} (tiled : Tiled initial s) :
    Tiled initial (restraintLogTask s type data) := by
  unfold restraintLogTask
  split
  · exact tiled
  refine ⟨tiled.tiles, tiled.wellformed, fun other => ?_⟩
  have logged := tiled.logged other
  simp only [getTaskData] at logged
  simp only [rstrntLogBytes, getTaskData, Option.getD_some, pending_append, pending,
    List.append_nil]
  rw [← List.append_assoc, logged]
  by_cases same : type = other
  · subst same
    simp
  · simp [same, Ne.symm same]

private theorem flush_tiled (tiled : Tiled initial s) : Tiled initial (rstrntFlushLogs s) := by
  rw [flush_eq]
  exact tiled.grow fun type => by simp

/-! ## Uploads -/

/-- An upload either finds nothing new, or queues the new content in chunks and
moves the offset to the end of the file. -/
theorem upload_tiled {written : Bool} (tiled : Tiled initial s) :
    Tiled initial (rstrntUploadLog s type written) := by
  have fits : restraintTaskGetOffset s.offsets (rstrntLogTypeGetPath type) ≤
      (s.files type).length := tiled.offset_le type
  unfold rstrntUploadLog
  dsimp only
  split
  · refine ⟨fun other => ?_, tiled.wellformed, tiled.logged⟩
    have kept := tiled.tiles other
    simp only [offsetOf, offset_update]
    split
    · rename_i same
      subst same
      exact kept
    · exact kept
  · rename_i fresh
    have wellformed := @chunkLog_wellformed type _ _ fits
    have queues := fun other => @chunks_queueChunks other s.queue type _
      fun chunk member => (wellformed chunk member).type_eq
    refine ⟨fun other => ?_, fun other => ?_, tiled.logged⟩
    · simp only [offsetOf, queues, Function.update_idem, offset_update, List.map_append,
        tiles_append]
      refine ⟨_, tiled.tiles other, ?_⟩
      by_cases same : type = other
      · subst same
        simpa [offsetOf] using chunkLog_tiles (by decide) fits
      · simp [offsetOf, same, Ne.symm same]
    · simp only [queues]
      intro chunk member
      rcases List.mem_append.mp member with old | new
      · exact tiled.wellformed other chunk old
      · split at new
        · rename_i same
          exact same ▸ wellformed chunk new
        · cases new

/-- After an upload the offset of the log is its length. -/
theorem upload_offset {written : Bool} (tiled : Tiled initial s) :
    offsetOf (rstrntUploadLog s type written) type = (s.files type).length := by
  have fits := tiled.offset_le type
  unfold rstrntUploadLog
  dsimp only
  split
  · rename_i stale
    simp only [offsetOf, offset_update, ↓reduceIte]
    exact Nat.le_antisymm fits stale
  · simp only [offsetOf, Function.update_idem, offset_update, ↓reduceIte]

/-- An upload touches no other log, and no file. -/
theorem upload_frame {written : Bool} {other : LogType} (apart : other ≠ type) :
    offsetOf (rstrntUploadLog s type written) other = offsetOf s other := by
  unfold rstrntUploadLog
  dsimp only
  split <;> simp only [offsetOf, Function.update_idem, offset_update, apart, ↓reduceIte]

@[simp] theorem upload_files {written : Bool} :
    (rstrntUploadLog s type written).files = s.files := by
  unfold rstrntUploadLog
  dsimp only
  split <;> rfl

@[simp] theorem upload_logged {written : Bool} :
    (rstrntUploadLog s type written).logged = s.logged := by
  unfold rstrntUploadLog
  dsimp only
  split <;> rfl

@[simp] theorem upload_pool {written : Bool} :
    (rstrntUploadLog s type written).pool = s.pool := by
  unfold rstrntUploadLog
  dsimp only
  split <;> rfl

/-- After the two uploads of a tick everything logged is in the files, and
everything in the files is queued. -/
theorem uploads_tiled (taskWritten harnessWritten : Bool) (tiled : Tiled initial s) :
    Tiled initial (rstrntUploadLogs s taskWritten harnessWritten) ∧
      ∀ type, offsetOf (rstrntUploadLogs s taskWritten harnessWritten) type =
          ((rstrntUploadLogs s taskWritten harnessWritten).files type).length ∧
        (rstrntUploadLogs s taskWritten harnessWritten).files type =
          initial type ++ s.logged type := by
  have flushed := flush_tiled tiled
  have first := @upload_tiled _ .task _ taskWritten flushed
  refine ⟨upload_tiled first, fun type => ⟨?_, ?_⟩⟩
  · unfold rstrntUploadLogs
    rw [upload_files, upload_files]
    cases type with
    | task => rw [upload_frame (by simp), upload_offset flushed]
    | harness => rw [upload_offset first, upload_files]
  · unfold rstrntUploadLogs
    rw [upload_files, upload_files, ← tiled.logged type, flush_eq]

private theorem complete_tiled {taskWritten harnessWritten : Bool} (tiled : Tiled initial s) :
    Tiled initial (taskCompleted s taskWritten harnessWritten) := by
  have stopped : Tiled initial { s with uploader := false } :=
    ⟨tiled.tiles, tiled.wellformed, tiled.logged⟩
  have uploaded := (uploads_tiled taskWritten harnessWritten stopped).1
  have flushed : (rstrntUploadLogs { s with uploader := false } taskWritten
      harnessWritten).pool = some [] := by
    simp [rstrntUploadLogs, flush_eq]
  have ended := @Tiled.requeue _ _ (restraintQueueMessage _ ⟨.finalStatus, true⟩) uploaded
    fun type => by rw [queued_restraintQueueMessage, chunks_append, chunks_finalStatus,
      List.append_nil]
  refine ⟨ended.tiles, ended.wellformed, fun type => ?_⟩
  have logged := ended.logged type
  simp only [getTaskData, flushed] at logged
  exact logged

/-- Other messages leave the chunks alone. -/
theorem chunks_others {tags : List Nat} :
    chunks type (tags.map fun tag => ⟨.other tag, false⟩) = [] := by
  simp [chunks]

private theorem step_tiled (s : Logs) (e : Logging.Event) (t : Logs) (tiled : Tiled initial s)
    (stepped : only Logging.step uncrashed s e = some t) : Tiled initial t := by
  obtain ⟨running, stepped⟩ := only_eq_some.mp stepped
  cases e with
  | log type data =>
    cases stepped
    exact log_tiled tiled
  | write =>
    simp only [Logging.step] at stepped
    split at stepped
    · rename_i job rest waiting
      cases stepped
      rw [write_eq]
      apply tiled.grow
      intro type
      simp [getTaskData, waiting, ← pending_append]
    · cases stepped
  | tick taskWritten harnessWritten =>
    simp only [Logging.step] at stepped
    split at stepped
    · cases stepped
      exact (uploads_tiled taskWritten harnessWritten tiled).1
    · cases stepped
  | complete taskWritten harnessWritten =>
    cases stepped
    exact complete_tiled tiled
  | post tag =>
    cases stepped
    exact tiled.requeue fun type => by simp
  | dispatch id =>
    simp only [Logging.step, Option.map_eq_some_iff] at stepped
    obtain ⟨queue, moved, rfl⟩ := stepped
    exact tiled.requeue fun type => by rw [queued_dispatch moved]
  | deliver index status tags =>
    simp only [Logging.step] at stepped
    split at stepped
    · cases stepped
    · simp only [Option.map_eq_some_iff] at stepped
      obtain ⟨queue, moved, rfl⟩ := stepped
      have same : ∀ type, chunks type (queued queue.history) =
          chunks type (queued s.queue.history) := by
        intro type
        rcases queued_deliver moved with none | some
        · rw [none]
        · rw [some, chunks_append, chunks_others, List.append_nil]
      have requeued := tiled.requeue same
      exact ⟨requeued.tiles, requeued.wellformed, requeued.logged⟩
  | crash => exact absurd rfl running

private theorem start_tiled : Tiled initial (start initial) :=
  ⟨fun _ => rfl, fun _ _ member => (List.not_mem_nil member).elim, fun _ => rfl⟩

/-! ## Nothing leaves the queue's history -/

theorem queueChunks_grows {msgv : List Chunk} :
    queued q.history <+: queued (queueChunks q msgv).history := by
  induction msgv generalizing q with
  | nil => exact List.prefix_rfl
  | cons chunk rest ih =>
    cases rest with
    | nil =>
      rw [queueChunks, queued_restraintQueueMessage]
      exact List.prefix_append _ _
    | cons next rest =>
      refine List.IsPrefix.trans ?_ ih
      rw [queued_restraintQueueMessage]
      exact List.prefix_append _ _

private theorem upload_grows {written : Bool} :
    queued s.queue.history <+: queued (rstrntUploadLog s type written).queue.history := by
  unfold rstrntUploadLog
  dsimp only
  split
  · exact List.prefix_rfl
  · exact queueChunks_grows

private theorem uploads_grow {taskWritten harnessWritten : Bool} : queued s.queue.history <+:
    queued (rstrntUploadLogs s taskWritten harnessWritten).queue.history := by
  have flushed : (rstrntFlushLogs s).queue = s.queue := by rw [flush_eq]
  rw [← flushed]
  exact upload_grows.trans upload_grows

private theorem step_grows (s : Logs) (e : Logging.Event) (t : Logs)
    (stepped : only Logging.step uncrashed s e = some t) :
    queued s.queue.history <+: queued t.queue.history := by
  obtain ⟨running, stepped⟩ := only_eq_some.mp stepped
  cases e with
  | log type data =>
    cases stepped
    unfold restraintLogTask
    split <;> exact List.prefix_rfl
  | write =>
    simp only [Logging.step] at stepped
    split at stepped
    · cases stepped
      rewrite [write_eq]
      exact List.prefix_rfl
    · cases stepped
  | tick taskWritten harnessWritten =>
    simp only [Logging.step] at stepped
    split at stepped
    · cases stepped
      exact uploads_grow
    · cases stepped
  | complete taskWritten harnessWritten =>
    cases stepped
    unfold taskCompleted
    dsimp only
    rw [queued_restraintQueueMessage]
    exact List.IsPrefix.trans (uploads_grow (s := { s with uploader := false }))
      (List.prefix_append _ _)
  | post tag =>
    cases stepped
    rw [queued_restraintQueueMessage]
    exact List.prefix_append _ _
  | dispatch id =>
    simp only [Logging.step, Option.map_eq_some_iff] at stepped
    obtain ⟨queue, moved, rfl⟩ := stepped
    exact queued_dispatch moved ▸ List.prefix_rfl
  | deliver index status tags =>
    simp only [Logging.step] at stepped
    split at stepped
    · cases stepped
    · simp only [Option.map_eq_some_iff] at stepped
      obtain ⟨queue, moved, rfl⟩ := stepped
      rcases queued_deliver moved with none | some
      · exact none ▸ List.prefix_rfl
      · exact some ▸ List.prefix_append _ _
  | crash => exact absurd rfl running

/-! ## The theorem -/

/-- The chunks queued by the end of a task are all that was logged. -/
theorem complete_transfers {taskWritten harnessWritten : Bool} (tiled : Tiled initial s) :
    ∃ first, queued (taskCompleted s taskWritten harnessWritten).queue.history =
        first ++ [⟨.finalStatus, true⟩] ∧
      ∀ type, ((chunks type first).map Chunk.bytes).flatten = initial type ++ s.logged type := by
  have stopped : Tiled initial { s with uploader := false } :=
    ⟨tiled.tiles, tiled.wellformed, tiled.logged⟩
  obtain ⟨uploaded, whole⟩ := uploads_tiled taskWritten harnessWritten stopped
  refine ⟨_, queued_restraintQueueMessage, fun type => ?_⟩
  obtain ⟨offset, files⟩ := whole type
  have bytes := (uploaded.tiles type).bytes_eq
  rw [offset, List.drop_zero, Nat.sub_zero, List.take_length, files, List.map_map] at bytes
  exact bytes

/-- **The chunks queued tile each log.** In every run without a crash, and at
every moment of it, the chunks of a log are a tiling of a prefix of it in the
order they are queued, none is larger than the limit, and each carries the
bytes of its range; and the chunks queued before the final status of the task
are all that was logged before the task completed. -/
theorem chunks_tile_logs (ran : run (only Logging.step uncrashed) (start initial) es = some s) :
    (∀ type, ∃ n ≤ (s.files type).length, Tiles (s.files type) 0
      ((chunks type (queued s.queue.history)).map Chunk.piece) n) ∧
    (∀ type, ∀ chunk ∈ chunks type (queued s.queue.history),
      chunk.bytes.length ≤ BKR_MAX_CONTENT_LENGTH ∧
        chunk.stop + 1 = chunk.start + chunk.bytes.length) ∧
    ∀ before taskWritten harnessWritten after entering,
      es = before ++ .complete taskWritten harnessWritten :: after →
      run (only Logging.step uncrashed) (start initial) before = some entering →
      ∃ first rest, queued s.queue.history = first ++ ⟨.finalStatus, true⟩ :: rest ∧
        ∀ type, ((chunks type first).map Chunk.bytes).flatten =
          initial type ++ entering.logged type := by
  have tiled : Tiled initial s := run_keeps step_tiled start_tiled ran
  refine ⟨fun type => ⟨_, tiled.offset_le type, tiled.tiles type⟩, ?_, ?_⟩
  · intro type chunk member
    have wellformed := tiled.wellformed type chunk member
    exact ⟨wellformed.length_le, wellformed.stop_eq⟩
  · intro before taskWritten harnessWritten after entering split reached
    rw [split, run_append] at ran
    obtain ⟨middle, same, later⟩ := ran
    rw [reached] at same
    cases same
    obtain ⟨completed, stepped, rest⟩ := run_cons.mp later
    have entered : Tiled initial entering := run_keeps step_tiled start_tiled reached
    obtain ⟨-, stepped⟩ := only_eq_some.mp stepped
    cases stepped
    obtain ⟨first, upTo, transferred⟩ :=
      @complete_transfers _ _ taskWritten harnessWritten entered
    have grown : queued (taskCompleted entering taskWritten harnessWritten).queue.history <+:
        queued s.queue.history :=
      run_related (R := fun a b : Logs => queued a.queue.history <+: queued b.queue.history)
        (fun _ => List.prefix_rfl) (fun _ _ _ => List.IsPrefix.trans) step_grows rest
    obtain ⟨more, shape⟩ := grown
    refine ⟨first, more, ?_, transferred⟩
    rw [← shape, upTo, List.append_assoc]
    rfl

/-- A tick between two writes and the final upload: two chunks, one after the
other. -/
theorem chunks_tile_logs_after_tick :
    ∃ s, run (only Logging.step uncrashed) (start fun _ => [])
        [.log .task [1, 2, 3], .write, .log .task [4], .tick true true, .log .task [5, 6],
          .complete true true] = some s ∧
      (chunks .task (queued s.queue.history)).map Chunk.piece = [(0, [1, 2, 3, 4]), (4, [5, 6])] ∧
      ∃ n ≤ (s.files .task).length, Tiles (s.files .task) 0
        ((chunks .task (queued s.queue.history)).map Chunk.piece) n := by
  refine ⟨_, rfl, by decide, ?_⟩
  have ran : run (only Logging.step uncrashed) (start fun _ => [])
      [.log .task [1, 2, 3], .write, .log .task [4], .tick true true, .log .task [5, 6],
        .complete true true] = some _ := rfl
  exact (chunks_tile_logs ran).1 .task

end Restraint.LoggingProofs

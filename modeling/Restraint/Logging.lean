import Restraint.Message
import Restraint.Lib.SparseFile
import Mathlib.Logic.Function.Basic

/-! The log manager of `logging.c` for one task, with the offsets of `task.c`:
what is logged goes through the writer thread into two files, and the uploader
and the end of the task queue their new content in chunks. The files, the
config file and the lab controller survive a crash of the daemon, the rest does
not. -/
namespace Restraint.Logging
open Restraint.Message

/-- `RstrntLogType`. -/
inductive LogType where
  | task
  | harness
  deriving DecidableEq

/-- `rstrnt_log_type_get_path`. -/
def rstrntLogTypeGetPath : LogType → String
  | .task => "logs/taskout.log"
  | .harness => "logs/harness.log"

def BKR_MAX_CONTENT_LENGTH : Nat := 10 * 1024 * 1024

/-- A `PUT` of the bytes from `start` to `stop`, both included, of a log. -/
structure Chunk where
  type : LogType
  start : Nat
  stop : Nat
  bytes : List UInt8
  deriving DecidableEq

/-- The messages of the queue: chunks, the final status of the task, and
whatever else the daemon sends. -/
inductive Outgoing where
  | chunk (chunk : Chunk)
  | finalStatus
  | other (tag : Nat)
  deriving DecidableEq

/-- `RstrntLogWriterData`. -/
inductive WriterData where
  | message (type : LogType) (bytes : List UInt8)
  | sentinel
  deriving DecidableEq

structure Logs where
  files : LogType → List UInt8
  /-- The section `offsets_<task>` of the config file. -/
  config : String → Option Nat
  /-- What the lab controller has acknowledged of each log. -/
  server : LogType → SparseFile UInt8
  /-- The log manager's entry for the task: what its writer thread still has to do. -/
  pool : Option (List WriterData)
  offsets : String → Option Nat
  /-- `uploader_source_id` is set. -/
  uploader : Bool
  queue : Queue Outgoing
  /-- Everything logged so far. -/
  logged : LogType → List UInt8

/-- A task that was not run before; its log files may hold something already. -/
def start (files : LogType → List UInt8) : Logs where
  files := files
  config := fun _ => none
  server := fun _ => []
  pool := none
  offsets := fun _ => none
  uploader := false
  queue := .start
  logged := fun _ => []

/-- `rstrnt_log_manager_get_task_data`: makes the entry if there is none. -/
def getTaskData (s : Logs) : List WriterData := s.pool.getD []

/-- `rstrnt_log_bytes`. -/
def rstrntLogBytes (s : Logs) (type : LogType) (message : List UInt8) : Logs :=
  { s with
    pool := some (getTaskData s ++ [.message type message])
    logged := Function.update s.logged type (s.logged type ++ message) }

/-- `restraint_log_task` with the log manager enabled; it starts the uploader. -/
def restraintLogTask (s : Logs) (type : LogType) (data : List UInt8) : Logs :=
  if data = [] then s
  else { rstrntLogBytes s type data with uploader := true }

/-- `rstrnt_write_log_func`. -/
def rstrntWriteLogFunc (s : Logs) : WriterData → Logs
  | .message type bytes =>
    { s with files := Function.update s.files type (s.files type ++ bytes) }
  | .sentinel => s

/-- `rstrnt_flush_logs`: waits until the writer thread has taken the sentinel
pushed behind everything logged so far. -/
def rstrntFlushLogs (s : Logs) : Logs :=
  { (getTaskData s ++ [WriterData.sentinel]).foldl rstrntWriteLogFunc s with pool := some [] }

/-- The loop of `rstrnt_chunk_log` with `left` bytes of content left. -/
def chunkLoop (type : LogType) (content : List UInt8) (offset contentLen chunkLen : Nat) :
    Nat → Nat → List Chunk
  | 0, _ => []
  | fuel + 1, left =>
    if left = 0 then []
    else
      let msgLen := if left > chunkLen then chunkLen else left
      let start := offset + contentLen - left
      { type := type, start := start, stop := start + msgLen - 1
        bytes := (content.drop start).take msgLen } ::
        chunkLoop type content offset contentLen chunkLen fuel (left - msgLen)

/-- `rstrnt_chunk_log`; every round of the loop takes at least one byte. -/
def rstrntChunkLog (type : LogType) (content : List UInt8) (offset chunkLen : Nat) : List Chunk :=
  let contentLen := content.length - offset
  chunkLoop type content offset contentLen chunkLen contentLen contentLen

/-- The slots `rstrnt_chunk_log` allocates for its messages. -/
def msgc (contentLen chunkLen : Nat) : Nat :=
  contentLen / chunkLen + if contentLen % chunkLen > 0 then 1 else 0

/-- `restraint_task_get_offset`: a path without an offset gets 0. -/
def restraintTaskGetOffset (offsets : String → Option Nat) (path : String) : Nat :=
  (offsets path).getD 0

/-- Queues the chunks; the last one has a callback, which frees the mapped file. -/
def queueChunks (queue : Queue Outgoing) : List Chunk → Queue Outgoing
  | [] => queue
  | [last] => restraintQueueMessage queue ⟨.chunk last, true⟩
  | chunk :: rest => queueChunks (restraintQueueMessage queue ⟨.chunk chunk, false⟩) rest

/-- `rstrnt_upload_log`, where `written` is whether the config file could be
written. -/
def rstrntUploadLog (s : Logs) (type : LogType) (written : Bool) : Logs :=
  let path := rstrntLogTypeGetPath type
  let offset := restraintTaskGetOffset s.offsets path
  let length := (s.files type).length
  let s := { s with offsets := Function.update s.offsets path (some offset) }
  if length ≤ offset then s
  else
    { s with
      queue := queueChunks s.queue
        (rstrntChunkLog type (s.files type) offset BKR_MAX_CONTENT_LENGTH)
      offsets := Function.update s.offsets path (some length)
      config := if written then Function.update s.config path (some length) else s.config }

/-- `rstrnt_upload_logs`. -/
def rstrntUploadLogs (s : Logs) (taskWritten harnessWritten : Bool) : Logs :=
  rstrntUploadLog (rstrntUploadLog (rstrntFlushLogs s) .task taskWritten) .harness harnessWritten

/-- The logs and the final status in `TASK_COMPLETED` of `task_handler`. -/
def taskCompleted (s : Logs) (taskWritten harnessWritten : Bool) : Logs :=
  let s := rstrntUploadLogs { s with uploader := false } taskWritten harnessWritten
  { s with
    -- rstrnt_close_logs
    pool := none
    queue := restraintQueueMessage s.queue ⟨.finalStatus, true⟩ }

/-- What the lab controller stores when it accepts a message. -/
def acknowledge (server : LogType → SparseFile UInt8) : Outgoing → LogType → SparseFile UInt8
  | .chunk chunk => Function.update server chunk.type
      ((server chunk.type).write chunk.start chunk.bytes)
  | _ => server

/-- The daemon crashes and starts again: `parse_task_config` reads the offsets
back from the config file. -/
def restart (s : Logs) : Logs :=
  { s with
    pool := none
    offsets := s.config
    uploader := false
    queue := .start }

inductive Event where
  | log (type : LogType) (data : List UInt8)
  /-- The writer thread takes one job. -/
  | write
  /-- `uploader_func`. -/
  | tick (taskWritten harnessWritten : Bool)
  | complete (taskWritten harnessWritten : Bool)
  /-- Another message is queued. -/
  | post (tag : Nat)
  | dispatch (id : Nat)
  /-- A message is delivered with this status; its callback may queue others. -/
  | deliver (index status : Nat) (tags : List Nat)
  | crash
  deriving DecidableEq

def step (s : Logs) : Event → Option Logs
  | .log type data => some (restraintLogTask s type data)
  | .write =>
    match s.pool with
    | some (job :: rest) => some { rstrntWriteLogFunc s job with pool := some rest }
    | _ => none
  | .tick taskWritten harnessWritten =>
    if s.uploader then some (rstrntUploadLogs s taskWritten harnessWritten) else none
  | .complete taskWritten harnessWritten => some (taskCompleted s taskWritten harnessWritten)
  | .post tag => some { s with queue := restraintQueueMessage s.queue ⟨.other tag, false⟩ }
  | .dispatch id =>
    (Message.step s.queue (.dispatch id)).map fun queue => { s with queue := queue }
  | .deliver index status tags =>
    match s.queue.inFlight[index]? with
    | none => none
    | some messageData =>
      let requeued := tags.map fun tag => ⟨.other tag, false⟩
      (Message.step s.queue (.deliver index status requeued)).map fun queue =>
        { s with
          queue := queue
          server := if statusIsSuccessful status then acknowledge s.server messageData.msg
            else s.server }
  | .crash => some (restart s)

/-- The daemon does not crash. -/
def uncrashed (_ : Logs) (e : Event) : Prop := e ≠ .crash

instance (s : Logs) (e : Event) : Decidable (uncrashed s e) := inferInstanceAs (Decidable (_ ≠ _))

/-- The chunks of a log among the messages queued, in order. -/
def chunks (type : LogType) (messages : List (MessageData Outgoing)) : List Chunk :=
  messages.filterMap fun messageData => match messageData.msg with
    | .chunk chunk => if chunk.type = type then some chunk else none
    | _ => none

/-- A chunk as the piece of the log it carries. -/
def Chunk.piece (chunk : Chunk) : Nat × List UInt8 := (chunk.start, chunk.bytes)

/-- The offset of a log in the config file; 0 when there is none. -/
def persisted (s : Logs) (type : LogType) : Nat :=
  (s.config (rstrntLogTypeGetPath type)).getD 0

/-- How many bytes of a log the lab controller has acknowledged. -/
def acknowledged (s : Logs) (type : LogType) : Nat := (s.server type).solid

end Restraint.Logging

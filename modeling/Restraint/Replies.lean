import Restraint.MessageProofs
import Restraint.ProcessProofs
import Restraint.Lib.CString
import Restraint.Lib.History

/-! How a request of a task gets its reply. `server_recipe_callback` passes the request on as a
message and pauses it; `server_msg_complete` returns the answer to the message, at once or when the
report plugins are through. The message goes through the queue, or to the client over the standard
output.

Both functions read the current task, whichever it is by then. When the answer comes after the last
task there is none, and the daemon crashes; a run ends there. -/
namespace Restraint.Replies
open CString (Text gStrHasSuffix strstr)
open Transition
open Restraint.Message (Queue MessageData restraintQueueMessage statusIsSuccessful statusIsClientError)
open Restraint.Process (Launch processRun finishes)

/-! ## The way of a message -/

inductive Msg where
  | forward (request : Nat)
  /-- A message that some other part of the daemon sends. -/
  | other (n : Nat)
  deriving DecidableEq

/-- `queue_message` of the daemon, with what it works on. A message to the standard output is done
with but for its `message_finish`; it is kept with its status. -/
inductive Carrier where
  | queue (queue : Queue Msg)
  | stdout (loop : MainLoop (Msg × Nat))

inductive Delivery where
  | dispatch (id : Nat)
  | deliver (index status : Nat)
  | finish (id : Nat)

/-- `restraint_queue_message` or `restraint_stdout_message`; without its client the latter prints
nothing and sets no status. -/
def Carrier.push (carrier : Carrier) (message : MessageData Msg) (clientData : Bool) : Carrier :=
  match carrier with
  | .queue q => .queue (restraintQueueMessage q message)
  | .stdout loop =>
    if message.finishCallback then .stdout (loop.add (message.msg, if clientData then 200 else 0))
    else .stdout loop

/-- A message is taken a step further; the one whose `finish_callback` is called, and its status. A
callback that sends messages itself does so right after. -/
def Carrier.step : Carrier → Delivery → Option (Carrier × Option (Msg × Nat))
  | .queue q, .dispatch id =>
    (Message.step q (.dispatch id)).map fun next => (.queue next, none)
  | .queue q, .deliver index status =>
    let final := statusIsSuccessful status || statusIsClientError status
    let done := q.inFlight[index]?.filter fun message => final && message.finishCallback
    (Message.step q (.deliver index status [])).map fun next =>
      (.queue next, done.map fun message => (message.msg, status))
  | .stdout loop, .finish id =>
    (loop.find? id).map fun done => (.stdout (loop.remove id), some done)
  | _, _ => none

/-! ## The requests -/

/-- What a forwarded request is about. -/
inductive Kind where
  | results (noPlugins : Bool)
  | logs
  | watchdog
  deriving DecidableEq

/-- `server_recipe_callback` of a daemon with a recipe: what it forwards. Everything else it
answers itself. -/
def forwarded (path : Text) (form : List (Text × Text)) : Option Kind :=
  if gStrHasSuffix path "/results/".toList then
    some (.results (form.lookup "no_plugins".toList).isSome)
  else if strstr path "/logs/".toList then some .logs
  else if gStrHasSuffix path "watchdog".toList then some .watchdog
  else none

/-- The report plugins run, but not for results that plugins report. -/
def Kind.plugins : Kind → Bool
  | .results noPlugins => !noPlugins
  | .logs | .watchdog => false

/-- What the requests read of `app_data->tasks->data`: whether its metadata and its environment are
there. -/
structure CurrentTask where
  metadata : Bool
  env : Bool
  deriving DecidableEq

inductive Stage where
  | forwarding
  | plugins (run : Process.Run)
  | returned

structure Request where
  kind : Kind
  stage : Stage

/-- What happened to the requests. -/
inductive Mark where
  /-- `soup_server_pause_message`. -/
  | paused (request : Nat) (kind : Kind)
  /-- `server_msg_complete`. -/
  | answered (request status : Nat)
  /-- `plugin_finish_callback`, with the history of the process. -/
  | reported (request : Nat) (history : List Process.Observed)
  /-- `soup_server_unpause_message`. -/
  | unpaused (request : Nat)
  deriving DecidableEq

structure System where
  /-- The current task; none when `app_data->tasks` is `NULL`. -/
  current : Option CurrentTask
  carrier : Carrier
  requests : List Request
  history : List Mark

/-- What the kernel answers when the plugins are started. -/
structure Fork where
  cancelled : Bool
  pid : Int
  parent : pid ≠ 0
  strerror : String
  killed : Bool

/-- The arguments of `process_run` for the report plugins. -/
def Fork.launch (fork : Fork) : Launch where
  maxTime := 0
  timeoutCallback := false
  ioCallback := true
  contentInput := false
  cancellable := some fork.cancelled
  pid := fork.pid
  parent := fork.parent
  strerror := fork.strerror
  killed := fork.killed

def System.stage (s : System) (request : Nat) (kind : Kind) (stage : Stage) : System :=
  { s with requests := s.requests.set request ⟨kind, stage⟩ }

def System.mark (s : System) (mark : Mark) : System := { s with history := mark :: s.history }

/-- The reply goes to the client. -/
def System.unpause (s : System) (request : Nat) (kind : Kind) : System :=
  (s.stage request kind .returned).mark (.unpaused request)

/-- `server_msg_complete`; none where the task, or for the plugins its environment, is `NULL`. -/
def serverMsgComplete (s : System) (request : Nat) (kind : Kind) (status : Nat) (fork : Fork) :
    Option System :=
  match s.current with
  | none => none
  | some task =>
    let s := s.mark (.answered request status)
    if kind.plugins then
      if task.env then some (s.stage request kind (.plugins (processRun fork.launch))) else none
    else some (s.unpause request kind)

inductive Event where
  /-- A request to a daemon that is not idle. -/
  | request (path : Text) (form : List (Text × Text)) (clientData : Bool)
  /-- `task_handler` goes on: another task is the current one, or it has got more of its parts. -/
  | turn (current : Option CurrentTask)
  | queue (message : Nat) (finishCallback clientData : Bool)
  | carry (delivery : Delivery) (fork : Fork)
  | plugin (request : Nat) (event : Process.Event)

def step : Step System Event := fun s e =>
  match e with
  | .request path form clientData =>
    match s.current with
    | none => none
    | some task =>
      match forwarded path form with
      | some kind =>
        -- the watchdog is adjusted in the metadata of the task
        if kind = .watchdog ∧ task.metadata = false then none
        else
          let request := s.requests.length
          some { s with
            carrier := s.carrier.push ⟨.forward request, true⟩ clientData
            requests := s.requests ++ [⟨kind, .forwarding⟩]
            history := .paused request kind :: s.history }
      | none => some s
  | .turn current => some { s with current := current }
  | .queue message finishCallback clientData =>
    some { s with carrier := s.carrier.push ⟨.other message, finishCallback⟩ clientData }
  | .carry delivery fork =>
    match s.carrier.step delivery with
    | some (carrier, some (.forward request, status)) =>
      (s.requests[request]?).bind fun r =>
        serverMsgComplete { s with carrier := carrier } request r.kind status fork
    | some (carrier, _) => some { s with carrier := carrier }
    | none => none
  | .plugin request event =>
    match s.requests[request]? with
    | some ⟨kind, .plugins run⟩ =>
      (Process.step run event).map fun next =>
        if finishes next.history = [] then s.stage request kind (.plugins next)
        else (s.mark (.reported request next.history)).unpause request kind
    | _ => none

/-- A daemon without a client, or one that a client has started. -/
def start (stdin : Bool) : System := ⟨none, if stdin then .stdout .empty else .queue .start, [], []⟩

/-! ## What is waiting -/

/-- How many messages of a request have not been answered yet. -/
def Carrier.waiting (request : Nat) : Carrier → Nat
  | .queue q => (q.inFlight ++ q.messageQueue).countP (·.msg = .forward request)
  | .stdout loop => loop.count (·.1 = .forward request)

/-- A message of a request is not dropped without an answer. -/
def Carrier.Sound : Carrier → Prop
  | .queue q => MessageProofs.Ordered q ∧
      ∀ message ∈ q.inFlight ++ q.messageQueue, ∀ request, message.msg = .forward request →
        message.finishCallback = true
  | .stdout _ => True

end Restraint.Replies

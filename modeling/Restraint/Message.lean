import Restraint.Lib.MainLoop
import Restraint.Lib.Transition

/-! The message queue of `message.c`, which delivers messages to the lab
controller one at a time and retries the ones it fails to deliver. The three
statics of the file (`message_queue`, `queue_active` and the `delay` of
`message_complete`) are the fields of `Queue`; beside them stand the main loop
and the message handed to libsoup. -/
namespace Restraint.Message

universe u
variable {μ : Type u}

/-- `MessageData`: a message and whether a `finish_callback` waits for it. -/
structure MessageData (μ : Type u) where
  msg : μ
  finishCallback : Bool
  deriving DecidableEq

/-- What the queue attaches to the main loop. Both run `message_handler`, at
once or after a delay in seconds. -/
inductive Source where
  | messageHandler
  | delayed (seconds : Nat)
  deriving DecidableEq

/-- What happened to the messages, in order. -/
inductive Observed (μ : Type u) where
  /-- `restraint_queue_message` was called. -/
  | queued (message : MessageData μ)
  /-- `message_complete` took the message off for good. -/
  | completed (message : MessageData μ)
  /-- The message's `finish_callback` was called. -/
  | called (message : MessageData μ)
  /-- Delivery failed and is tried again after these seconds. -/
  | retried (message : MessageData μ) (seconds : Nat)
  deriving DecidableEq

structure Queue (μ : Type u) where
  messageQueue : List (MessageData μ)
  queueActive : Bool
  delay : Nat
  loop : MainLoop Source
  /-- Messages given to `soup_session_queue_message` whose `message_complete`
  has not run yet. -/
  inFlight : List (MessageData μ)
  history : List (Observed μ)

/-- The state the daemon starts in. -/
def Queue.start : Queue μ where
  messageQueue := []
  queueActive := false
  delay := 2
  loop := .empty
  inFlight := []
  history := []

/-- `SOUP_STATUS_IS_SUCCESSFUL`. -/
def statusIsSuccessful (status : Nat) : Bool := 200 ≤ status && status < 300

/-- `SOUP_STATUS_IS_CLIENT_ERROR`. -/
def statusIsClientError (status : Nat) : Bool := 400 ≤ status && status < 500

/-- `message_handler`, without the removal of the source it runs from. -/
def messageHandler (q : Queue μ) : Queue μ :=
  match q.messageQueue with
  | [] => { q with queueActive := false }
  | messageData :: rest =>
    { q with messageQueue := rest, inFlight := q.inFlight ++ [messageData] }

/-- `restraint_queue_message`. -/
def restraintQueueMessage (q : Queue μ) (messageData : MessageData μ) : Queue μ :=
  let pushed := { q with
    messageQueue := q.messageQueue ++ [messageData]
    history := q.history ++ [.queued messageData] }
  if q.queueActive then pushed
  else { pushed with loop := pushed.loop.add .messageHandler, queueActive := true }

/-- The delay before the next attempt: `(gint) (delay * 1.5)`, at most 625. -/
def nextDelay (delay : Nat) : Nat :=
  let longer := delay * 3 / 2
  if longer > 625 then 625 else longer

/-- `message_complete`. The messages in `requeued` are those the
`finish_callback` itself passes to `restraint_queue_message`. -/
def messageComplete (q : Queue μ) (messageData : MessageData μ) (status : Nat)
    (requeued : List (MessageData μ)) : Queue μ :=
  if statusIsSuccessful status || statusIsClientError status then
    let finished := { q with delay := 2, history := q.history ++ [.completed messageData] }
    let returned :=
      if messageData.finishCallback then
        requeued.foldl restraintQueueMessage
          { finished with history := finished.history ++ [.called messageData] }
      else finished
    { returned with loop := returned.loop.add .messageHandler }
  else
    let delay := nextDelay q.delay
    { q with
      delay := delay
      messageQueue := messageData :: q.messageQueue
      loop := q.loop.add (.delayed delay)
      history := q.history ++ [.retried messageData delay] }

inductive Event (μ : Type u) where
  /-- Some part of the daemon queues a message. -/
  | queue (messageData : MessageData μ)
  /-- The main loop dispatches the source with this id. -/
  | dispatch (id : Nat)
  /-- libsoup is done with the message at this place among those in flight. -/
  | deliver (index : Nat) (status : Nat) (requeued : List (MessageData μ))
  deriving DecidableEq

def step (q : Queue μ) : Event μ → Option (Queue μ)
  | .queue messageData => some (restraintQueueMessage q messageData)
  | .dispatch id =>
    match q.loop.find? id with
    | none => none
    | some _ =>
      let handled := messageHandler q
      some { handled with loop := handled.loop.remove id }
  | .deliver index status requeued =>
    match q.inFlight[index]? with
    | none => none
    | some messageData =>
      some (messageComplete { q with inFlight := q.inFlight.eraseIdx index } messageData status
        requeued)

/-- The messages queued so far, in order. -/
def queued (history : List (Observed μ)) : List (MessageData μ) :=
  history.filterMap fun
    | .queued messageData => some messageData
    | _ => none

/-- The messages completed so far, in order. -/
def completed (history : List (Observed μ)) : List (MessageData μ) :=
  history.filterMap fun
    | .completed messageData => some messageData
    | _ => none

/-- The messages whose `finish_callback` was called, in order. -/
def called (history : List (Observed μ)) : List (MessageData μ) :=
  history.filterMap fun
    | .called messageData => some messageData
    | _ => none

/-- Every retry delay so far, in order. -/
def retries (history : List (Observed μ)) : List Nat :=
  history.filterMap fun
    | .retried _ seconds => some seconds
    | _ => none

/-- The retry delays of the failures since the last completed message. -/
def failures (history : List (Observed μ)) : List Nat :=
  history.foldl (fun delays observed => match observed with
    | .retried _ seconds => delays ++ [seconds]
    | .completed _ => []
    | _ => delays) []

/-- What will next take a message off the queue or put one back: the message
in flight, and every scheduled run of `message_handler`. -/
def drivers (q : Queue μ) : Nat := q.inFlight.length + q.loop.count fun _ => true

end Restraint.Message

import Restraint.Lib.MainLoop
import Restraint.Lib.Transition

/-! `process.c`: a child process, the sources that watch it and the join of
child exit and end of output that calls `finish_callback`. The ids kept in
`ProcessData` are main loop source ids, 0 for none; a descriptor is kept as
whether it is open. What the kernel and the caller's callbacks answer comes
with the launch and with each event. -/
namespace Restraint.Process

/-- `HEARTBEAT`, in seconds. -/
def HEARTBEAT : Nat := 1 * 60

/-- The sources of one process on the main loop, named by their callbacks. -/
inductive Source where
  | processPidCallback
  | processIoCb
  | processTimeoutCallback (seconds : Nat)
  | processPidFinish
  deriving DecidableEq

structure ProcessData where
  maxTime : Nat
  pid : Int
  fdOut : Bool
  fdIn : Bool
  pidResult : Int
  ioHandlerId : Nat
  pidHandlerId : Nat
  finishHandlerId : Nat
  timeoutHandlerId : Nat
  localwatchdog : Bool
  /-- Whether the caller gave a `timeout_callback`. -/
  timeoutCallback : Bool
  /-- The text of `error`, whose only code is `RESTRAINT_PROCESS_FORK_ERROR`. -/
  error : Option String
  /-- Whether `process_cancelled_cb` is connected to the cancellable. -/
  cancelHandler : Bool
  deriving DecidableEq

/-- What happened to the process, in order. -/
inductive Observed where
  /-- `process_pid_callback` ran with this wait status. -/
  | reaped (status : Int)
  /-- `process_io_finish` ran. -/
  | outputEnded
  /-- `kill` was called and did or did not succeed. -/
  | kill (succeeded : Bool)
  /-- `finish_callback` was called with these arguments. -/
  | finished (pidResult : Int) (localwatchdog : Bool) (error : Option String)
  deriving DecidableEq

structure Run where
  data : ProcessData
  loop : MainLoop Source
  history : List Observed

/-- The arguments of `process_run` and what the kernel answers in it. -/
structure Launch where
  maxTime : Nat
  timeoutCallback : Bool
  ioCallback : Bool
  /-- There is input for the child's stdin. -/
  contentInput : Bool
  /-- No cancellable, or one that was cancelled already or was not. -/
  cancellable : Option Bool
  /-- What `restraint_fork` returns in the parent. -/
  pid : Int
  parent : pid ≠ 0
  /-- The text of `errno` when the fork fails. -/
  strerror : String
  /-- Whether `kill` succeeds when the cancellable was cancelled already. -/
  killed : Bool

/-- The `g_idle_add (process_pid_finish)` of the two watches. -/
def scheduleFinish (s : Run) : Run :=
  if s.data.finishHandlerId = 0 then
    { s with
      data := { s.data with finishHandlerId := s.loop.next }
      loop := s.loop.add .processPidFinish }
  else s

/-- `process_kill`, where `killed` is whether `kill` returns 0. -/
def processKill (s : Run) (killed : Bool) : Run :=
  if s.data.pid = 0 then s
  else
    let tried := { s with history := s.history ++ [.kill killed] }
    if killed then { tried with data := { s.data with localwatchdog := true } }
    else if s.data.pidHandlerId ≠ 0 then
      { tried with
        data := { s.data with pidHandlerId := 0 }
        loop := s.loop.remove s.data.pidHandlerId }
    else tried

/-- `process_cancelled_cb`. -/
def processCancelledCb (s : Run) (killed : Bool) : Run :=
  let s := processKill s killed
  if s.data.timeoutHandlerId ≠ 0 then
    { s with
      data := { s.data with timeoutHandlerId := 0 }
      loop := s.loop.remove s.data.timeoutHandlerId }
  else s

/-- The data `process_run` fills in before and by the fork. -/
def forked (launch : Launch) : ProcessData where
  maxTime := launch.maxTime
  pid := launch.pid
  fdOut := 0 < launch.pid
  fdIn := 0 < launch.pid && launch.contentInput
  pidResult := 0
  ioHandlerId := 0
  pidHandlerId := 0
  finishHandlerId := 0
  timeoutHandlerId := 0
  localwatchdog := false
  timeoutCallback := launch.timeoutCallback
  error := none
  cancelHandler := false

/-- `g_cancellable_connect`: a cancellable that was cancelled already calls
back at once and connects nothing. -/
def connectCancellable (launch : Launch) (s : Run) : Run :=
  match launch.cancellable with
  | none => s
  | some true => processCancelledCb s launch.killed
  | some false => { s with data := { s.data with cancelHandler := true } }

/-- Arms the first timer. -/
def armTimeout (s : Run) : Run :=
  if s.data.maxTime ≠ 0 then
    { s with
      data := { s.data with timeoutHandlerId := s.loop.next }
      loop := s.loop.add
        (.processTimeoutCallback (if s.data.maxTime < HEARTBEAT then s.data.maxTime else HEARTBEAT)) }
  else s

def watchIo (s : Run) : Run :=
  { s with
    data := { s.data with ioHandlerId := s.loop.next }
    loop := s.loop.add .processIoCb }

def watchPid (s : Run) : Run :=
  { s with
    data := { s.data with pidHandlerId := s.loop.next }
    loop := s.loop.add .processPidCallback }

/-- `process_run`, in the parent. -/
def processRun (launch : Launch) : Run :=
  let s : Run := { data := forked launch, loop := .empty, history := [] }
  if launch.pid < 0 then
    -- the id of this source is not kept in finish_handler_id
    { s with
      data := { s.data with error := some ("Failed to fork: " ++ launch.strerror) }
      loop := s.loop.add .processPidFinish }
  else
    let s := armTimeout (connectCancellable launch s)
    let s := { s with data := { s.data with fdIn := false } }
    watchPid (if launch.ioCallback then watchIo s else s)

/-- `process_pid_callback`. -/
def processPidCallback (s : Run) (status : Int) : Run :=
  scheduleFinish { s with
    data := { s.data with pidResult := status, pid := 0, fdOut := false, fdIn := false }
    history := s.history ++ [.reaped status] }

/-- `process_io_finish`. -/
def processIoFinish (s : Run) : Run :=
  scheduleFinish { s with
    data := { s.data with fdOut := false, fdIn := false, ioHandlerId := 0 }
    history := s.history ++ [.outputEnded] }

/-- `process_free`; what it frees is not touched again. -/
def processFree (s : Run) : Run := { s with data := { s.data with cancelHandler := false } }

/-- `process_pid_finish`. -/
def processPidFinish (s : Run) : Run :=
  if s.data.pid ≠ 0 ∨ s.data.ioHandlerId ≠ 0 then
    { s with data := { s.data with finishHandlerId := 0 } }
  else
    let s :=
      if s.data.timeoutHandlerId ≠ 0 then
        { s with
          data := { s.data with timeoutHandlerId := 0 }
          loop := s.loop.remove s.data.timeoutHandlerId }
      else s
    processFree { s with
      history := s.history ++ [.finished s.data.pidResult s.data.localwatchdog s.data.error] }

/-- `max_time` after the `timeout_callback`, which leaves `remaining` in it, or
after the deduction made when there is none. -/
def timeLeft (data : ProcessData) (remaining : Nat) : Nat :=
  if data.timeoutCallback then remaining
  else if data.maxTime < HEARTBEAT then 0
  else data.maxTime - HEARTBEAT

/-- `process_timeout_callback`, with whether the timer is kept. -/
def processTimeoutCallback (s : Run) (remaining : Nat) (killed : Bool) : Run × Bool :=
  if s.data.pid = 0 then ({ s with data := { s.data with timeoutHandlerId := 0 } }, false)
  else
    let maxTime := timeLeft s.data remaining
    let s := { s with data := { s.data with maxTime := maxTime } }
    if 0 < maxTime then
      if maxTime < HEARTBEAT then
        ({ s with
          data := { s.data with timeoutHandlerId := s.loop.next }
          loop := s.loop.add (.processTimeoutCallback maxTime) }, false)
      else (s, true)
    else
      let s := processKill s killed
      ({ s with data := { s.data with timeoutHandlerId := 0 } }, false)

/-- A dispatch of the source with this id, or the cancellation of the
cancellable. -/
inductive Event where
  /-- The child exited with this wait status. -/
  | childExit (id : Nat) (status : Int)
  /-- The `io_callback` ran and kept its watch or did not. -/
  | output (id : Nat) (keep : Bool)
  | timeout (id : Nat) (remaining : Nat) (killed : Bool)
  | idle (id : Nat)
  | cancel (killed : Bool)
  deriving DecidableEq

/-- A source is removed when its callback returns `FALSE`. -/
def release (id : Nat) (keep : Bool) (s : Run) : Run :=
  if keep then s else { s with loop := s.loop.remove id }

def step (s : Run) : Event → Option Run
  | .childExit id status =>
    match s.loop.find? id with
    | some .processPidCallback => some (release id false (processPidCallback s status))
    | _ => none
  | .output id keep =>
    match s.loop.find? id with
    | some .processIoCb => some (if keep then s else processIoFinish (release id false s))
    | _ => none
  | .timeout id remaining killed =>
    match s.loop.find? id with
    | some (.processTimeoutCallback _) =>
      let (called, keep) := processTimeoutCallback s remaining killed
      some (release id keep called)
    | _ => none
  | .idle id =>
    match s.loop.find? id with
    | some .processPidFinish => some (release id false (processPidFinish s))
    | _ => none
  | .cancel killed => some (if s.data.cancelHandler then processCancelledCb s killed else s)

/-- The calls of `finish_callback` so far. -/
def finishes (history : List Observed) : List (Int × Bool × Option String) :=
  history.filterMap fun
    | .finished pidResult localwatchdog error => some (pidResult, localwatchdog, error)
    | _ => none

/-- The `kill` an event makes in a state, and whether it succeeds. -/
def attempt (s : Run) : Event → Option Bool
  | .timeout _ remaining killed =>
    if s.data.pid ≠ 0 ∧ timeLeft s.data remaining = 0 then some killed else none
  | .cancel killed => if s.data.cancelHandler ∧ s.data.pid ≠ 0 then some killed else none
  | _ => none

/-- The event makes no `kill` that fails while the child watch is armed. -/
def spares (s : Run) (e : Event) : Prop := attempt s e = some false → s.data.pidHandlerId = 0

instance (s : Run) (e : Event) : Decidable (spares s e) :=
  inferInstanceAs (Decidable (_ → _))

end Restraint.Process

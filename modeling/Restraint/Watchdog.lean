import Restraint.ProcessProofs
import Restraint.Lib.Binary64

/-! The local watchdog of a task: the remaining time the task keeps
(`task_heartbeat_callback` of `task.c`, the watchdog requests of `server.c`)
beside the timer its process keeps (`process_timeout_callback`), in seconds of
one clock. The timers fire exactly when they are due. -/
namespace Restraint.Watchdog
open Restraint.Process Transition

structure Watch where
  /-- `time (NULL)`. -/
  now : Nat
  remainingTime : Int
  timeChged : Option Int
  nolocalwatchdog : Bool
  /-- The time in `expire_time`; none when it says Disabled. -/
  expireTime : Option Int
  /-- The `remaining_time` last written to the config file. -/
  config : Option Int
  process : Run
  /-- When the armed timer fires. -/
  due : Nat
  /-- The time given last, and when it was given: the start of the process or
  the last adjustment before the watchdog killed it, which may be one that was
  waiting at the start. -/
  seconds : Nat
  base : Nat
  /-- When the watchdog first called `process_kill` on the live child. -/
  killedAt : Option Nat

/-- The interval of the armed timer. -/
def armed (p : Run) : Option Nat :=
  match p.loop.find? p.data.timeoutHandlerId with
  | some (.processTimeoutCallback seconds) => some seconds
  | _ => none

/-- `restraint_start_heartbeat`. -/
def restraintStartHeartbeat (now : Nat) (remainingTime : Int) (expireTime : Option Int) :
    Option Int :=
  if remainingTime ≠ 0 ∨ expireTime.isSome then some (expireTime.getD (now + remainingTime))
  else none

/-- `task_heartbeat_callback`. The elapsed seconds are a double, and so is the
difference that is stored back. -/
def taskHeartbeatCallback (s : Watch) : Watch :=
  match s.timeChged with
  | some changed =>
    if s.remainingTime ≠ 0 then
      let delta := Binary64.ofInt (s.now - changed)
      let remaining := Binary64.ofInt s.remainingTime
      let left := if delta < remaining then Binary64.toInt64 (Binary64.sub remaining delta) else 0
      { s with
        remainingTime := left
        timeChged := none
        expireTime := restraintStartHeartbeat s.now left (some (changed + s.remainingTime))
        config := some left }
    else
      { s with
        timeChged := none
        expireTime := restraintStartHeartbeat s.now 0 (some changed)
        config := some 0 }
  | none =>
    let left := if s.remainingTime > HEARTBEAT then s.remainingTime - HEARTBEAT else 0
    { s with remainingTime := left, config := some left }

/-- What `task_timeout_cb` stores through `time_remain`, a `guint64`. -/
def timeRemain (s : Watch) : Nat := (s.remainingTime % 2 ^ 64).toNat

/-- The watchdog branch of `server_recipe_callback`, as far as the local
watchdog goes. `remaining_time` is signed and `max_time` is not. -/
def serverWatchdog (s : Watch) (maxTime : UInt64) : Watch :=
  if s.nolocalwatchdog then s
  else
    { s with
      remainingTime := (maxTime.toNat : Int).bmod (2 ^ 64)
      timeChged := some s.now
      seconds := if s.killedAt.isSome then s.seconds else maxTime.toNat
      base := if s.killedAt.isSome then s.base else s.now }

/-- What `task_run` finds in the task, and the child it forks. -/
structure Entry where
  began : Nat
  remainingTime : Nat
  signed : remainingTime < 2 ^ 63
  /-- When the adjustment was made that still waits. -/
  timeChged : Option Int
  nolocalwatchdog : Bool
  pid : Int
  parent : 0 < pid

/-- The process `task_run` starts. -/
def Entry.launch (entry : Entry) : Launch where
  maxTime := if entry.nolocalwatchdog then 0 else entry.remainingTime
  timeoutCallback := true
  ioCallback := true
  contentInput := false
  cancellable := some false
  pid := entry.pid
  parent := Int.ne_of_gt entry.parent
  strerror := ""
  killed := true

/-- `task_run`. -/
def taskRun (entry : Entry) : Watch :=
  let remaining := if entry.nolocalwatchdog then 0 else entry.remainingTime
  let process := processRun entry.launch
  { now := entry.began
    remainingTime := remaining
    timeChged := entry.timeChged
    nolocalwatchdog := entry.nolocalwatchdog
    expireTime := restraintStartHeartbeat entry.began remaining none
    config := none
    process := process
    due := entry.began + (armed process).getD 0
    seconds := remaining
    base := match entry.timeChged with
      | some changed => changed.toNat
      | none => entry.began
    killedAt := none }

inductive Event where
  /-- Time passes, but not beyond a timer that is due. -/
  | pass (seconds : Nat)
  /-- A request to adjust the watchdog. -/
  | adjust (seconds : UInt64)
  /-- The timer fires; `kill` succeeds or not if it comes to that. -/
  | fire (killed : Bool)
  | childExit (id : Nat) (status : Int)
  | output (id : Nat) (keep : Bool)
  | idle (id : Nat)
  deriving DecidableEq

/-- A step of the process that no timer takes. -/
def liftStep (s : Watch) (e : Process.Event) : Option Watch :=
  (Process.step s.process e).map fun process => { s with process := process }

/-- The dispatch of the timer: `process_timeout_callback` asks
`task_timeout_cb` for the remaining time if the child is alive. -/
def fire (s : Watch) (killed : Bool) : Option Watch :=
  let called := if s.process.data.pid = 0 then s else taskHeartbeatCallback s
  let timeout : Process.Event :=
    .timeout s.process.data.timeoutHandlerId (timeRemain called) killed
  (Process.step s.process timeout).map fun process =>
    { called with
      process := process
      due := s.now + (armed process).getD 0
      killedAt := if (attempt s.process timeout).isSome then s.killedAt.or (some s.now)
        else s.killedAt }

def step (s : Watch) : Event → Option Watch
  | .pass seconds =>
    if (armed s.process).isSome ∧ s.due < s.now + seconds then none
    else some { s with now := s.now + seconds }
  | .adjust seconds => some (serverWatchdog s seconds)
  | .fire killed => if (armed s.process).isSome ∧ s.now = s.due then fire s killed else none
  | .childExit id status => liftStep s (.childExit id status)
  | .output id keep => liftStep s (.output id keep)
  | .idle id => liftStep s (.idle id)

/-- When the watchdog is meant to kill the process. -/
def deadline (s : Watch) : Nat := s.base + s.seconds

/-- When the timer fires, either an adjustment waits and the doubles compute
its remaining time exactly, or the timer was armed for a full heartbeat, or
less than a heartbeat remains. -/
def agrees (s : Watch) (e : Event) : Prop :=
  match e with
  | .fire _ =>
    match s.timeChged with
    | some changed =>
      Binary64.sub (Binary64.ofInt s.remainingTime) (Binary64.ofInt (s.now - changed)) =
        s.remainingTime - (s.now - changed)
    | none => armed s.process = some HEARTBEAT ∨ s.remainingTime < HEARTBEAT
  | _ => True

instance (s : Watch) (e : Event) : Decidable (agrees s e) := by
  unfold agrees
  cases e with
  | fire killed => cases s.timeChged <;> infer_instance
  | _ => infer_instance

end Restraint.Watchdog

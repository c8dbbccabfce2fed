import Restraint.Env
import Restraint.SyncClient
import Restraint.SyncScripts
import Restraint.Lib.History
import Mathlib.Logic.Function.Basic

/-! Hosts that run their tasks in step. When a task is over, the plugin
`85_sync_multihost_tasks` posts DONE under the number after the task's and waits until all the
hosts of its roles have done so. A host that is rebooted loses its server, starts the task again,
and first posts anew what its file holds.

The daemon does not always come to the plugin: a task that cannot be fetched, whose metadata or
packages fail, or whose local watchdog had expired before a reboot is over at once. And an event is
not always posted: where a host went down without ending its server, the socket is left in `/tmp`,
and the first `rstrnt-sync set` after that finds nobody behind it. It may even wait for the socket
for ever, until the plugin or the task is killed. -/
namespace Restraint.Multihost
open CString (Text)
open Transition
open Restraint.Env (varname printInt)
open Restraint.Sync (Server Name handleLconn message replies)
open Restraint.SyncScripts

/-! ## The plugin -/

def getenv (name : Text) (environ : List Text) : Text :=
  ((environ.find? fun evar => varname evar = name).map (·.drop (name.length + 1))).getD []

def TASKORDER : Text := "TASKORDER".toList

def SERVERS : Text := "SERVERS".toList

def CLIENTS : Text := "CLIENTS".toList

def DRIVER : Text := "DRIVER".toList

/-- `$(expr $TASKORDER + 1)`. Without a value `expr` takes the plus for a quote and prints 1. -/
def expr (taskorder : Text) : Text :=
  if taskorder.all Char.isDigit then Decimal.print (Nat.ofDigitChars 10 taskorder 0 + 1) else []

/-- The number under which the plugin posts and waits. -/
def order (environ : List Text) : Text := expr (getenv TASKORDER environ)

def DONE : Text := "DONE".toList

/-- The test of the roles, without which the plugin does nothing. -/
def hasRoles (environ : List Text) : Bool := getenv SERVERS environ ≠ [] && getenv CLIENTS environ ≠ []

/-- `rstrnt-sync-set -s DONE`. -/
def posted (environ : List Text) : Option Text :=
  syncSet "rstrnt-sync-set".toList (order environ) [.state DONE]

/-- `rstrnt-sync-block -s DONE --retry 30 $SERVERS $CLIENTS $DRIVER`. -/
def awaited (environ : List Text) : Option Blocking :=
  syncBlock "rstrnt-sync-block".toList (order environ) 0 [.state DONE, .retry 30]
    (words (getenv SERVERS environ) ++ words (getenv CLIENTS environ) ++ words (getenv DRIVER environ))

/-- The event that the plugin posts. -/
def barrier (environ : List Text) : Text := event (order environ) DONE

/-- The hosts that the plugin waits for. -/
def members (environ : List Text) : List Text := (awaited environ).elim [] Blocking.machines

/-! ## The hosts -/

/-- The tasks of all hosts, each with its environment. `TASKORDER` is twice the place of the task
where it is set at all. -/
structure Job where
  tasks : Text → List (List Text)
  ordered : ∀ host k environ, (tasks host)[k]? = some environ →
    getenv TASKORDER environ = [] ∨ getenv TASKORDER environ = Decimal.print (2 * k)
  bounded : ∀ host, 2 * (tasks host).length ≤ 2 ^ 31

/-- The question of `rstrnt-sync-block` that is under way: the server's host, which of its
servers, and the connection. -/
structure Conn where
  machine : Text
  life : Nat
  sockfd : Nat
  deriving DecidableEq

inductive Phase where
  /-- Before the task: `30_restore_events`, with the events still to be posted. While they are all
  those of the file, the daemon may also be at what it does before, from the fetch on. -/
  | restoring (todo : List Name)
  | running
  | setting
  | recording
  | blocking (loop : Loop) (conn : Option Conn)
  | ended

structure Host where
  /-- The servers that ended with a reboot. -/
  past : List Server
  server : Option Server
  /-- The socket of a server that was not ended is there. -/
  stale : Bool
  /-- `/etc/restraint/rstrnt_events`. -/
  file : List Name
  task : Nat
  phase : Phase

inductive Mark where
  | finished (host : Text) (task : Nat)
  | passed (host : Text) (task : Nat)
  | killed (host : Text) (task : Nat)
  | skipped (host : Text) (task : Nat)
  deriving DecidableEq

structure System where
  hosts : Text → Host
  history : List Mark

/-- All the servers a host has had. -/
def Host.lives (h : Host) : List Server := h.past ++ h.server.toList

/-- `rstrnt-sync set`, which starts the server if there is none. With the socket of another one in
the way the server cannot start and removes it, and nothing is posted; `rstrnt-sync-set` goes on all
the same. -/
def Host.post (h : Host) (name : Name) : Host :=
  if h.stale then { h with stale := false }
  else { h with server := some (handleLconn (h.server.getD Sync.start) (message name.text)) }

def System.put (s : System) (host : Text) (h : Host) : System :=
  { s with hosts := Function.update s.hosts host h }

/-- The server of a host goes on. -/
def System.serve (s : System) (host : Text) (server : Server) : System :=
  s.put host { s.hosts host with server := some server }

def System.mark (s : System) (mark : Mark) : System := { s with history := mark :: s.history }

inductive Event where
  | restore (host : Text)
  /-- The task is killed before all is posted anew. -/
  | expire (host : Text)
  /-- The task posts a state of its own. -/
  | post (host : Text) (name : Name)
  /-- The state goes into the file. -/
  | note (host : Text) (name : Name)
  | finish (host : Text)
  | set (host : Text) (name : Name)
  | record (host : Text) (name : Name)
  | ask (host : Text) (name : Name) (failed : List Nat)
  /-- There is no connection. -/
  | refuse (host : Text) (time : Nat)
  | answer (host : Text) (received : List (List Char)) (time : Nat)
  /-- The plugin is killed. -/
  | kill (host : Text)
  /-- The task is over before its first plugin. -/
  | skip (host : Text)
  | next (host : Text)
  /-- The server ends first, and takes its socket with it. -/
  | reboot (host : Text)
  /-- The host goes down at once. -/
  | crash (host : Text)
  /-- A server that cannot start removes the socket before the one that started it has looked for it.
  That one waits until it is killed. -/
  | remove (host : Text)
  /-- Anybody may connect to the server of a host, and go away. -/
  | remote (host : Text) (event : Sync.Event)

/-- The environment of the task that a host is at. -/
def Job.environ (job : Job) (host : Text) (k : Nat) : List Text := ((job.tasks host)[k]?).getD []

/-- `rstrnt-sync-set` in the task: the state comes after the number of the task. -/
def Job.own (job : Job) (host : Text) (k : Nat) (name : Name) : Bool :=
  (event (getenv TASKORDER (job.environ host k)) []).isPrefixOf name.text && name.text.all (!isIFS ·)

/-- The loop of the plugin goes on with an answer. -/
def System.answered (s : System) (b : Blocking) (host : Text) (loop : Loop) (rc time : Nat) : System :=
  let h := s.hosts host
  match SyncScripts.answered b loop rc time with
  | .left rc =>
    let s := s.put host { h with phase := .ended }
    if rc = 0 then s.mark (.passed host h.task) else s
  | loop => s.put host { h with phase := .blocking loop none }

/-- A piece of what the server has sent so far comes at a time, maybe not all of it. -/
def Delivered (server : Server) (sockfd : Nat) (received : List (List Char)) : Prop :=
  (∀ bytes ∈ received, bytes ≠ [] ∧ bytes.length ≤ Sync.BUFSIZE) ∧
    received.flatten <+: (replies server sockfd).flatten

instance (server : Server) (sockfd : Nat) (received : List (List Char)) :
    Decidable (Delivered server sockfd received) := by
  unfold Delivered
  infer_instance

def step (job : Job) : Step System Event := fun s e =>
  match e with
  | .restore host =>
    let h := s.hosts host
    match h.phase with
    | .restoring (name :: todo) => some (s.put host { h.post name with phase := .restoring todo })
    | .restoring [] => some (s.put host { h with phase := .running })
    | _ => none
  | .expire host =>
    let h := s.hosts host
    match h.phase with
    | .restoring _ => some (s.put host { h with phase := .running })
    | _ => none
  | .post host name =>
    let h := s.hosts host
    match h.phase with
    | .running => if job.own host h.task name then some (s.put host (h.post name)) else none
    | _ => none
  | .note host name =>
    let h := s.hosts host
    match h.phase with
    | .running =>
      if job.own host h.task name then some (s.put host { h with file := h.file ++ [name] }) else none
    | _ => none
  | .finish host =>
    let h := s.hosts host
    match h.phase with
    | .running =>
      let phase := if hasRoles (job.environ host h.task) then Phase.setting else .ended
      some ((s.put host { h with phase := phase }).mark (.finished host h.task))
    | _ => none
  | .set host name =>
    let h := s.hosts host
    match h.phase with
    | .setting =>
      if posted (job.environ host h.task) = some name.text then
        some (s.put host { h.post name with phase := .recording })
      else none
    | _ => none
  | .record host name =>
    let h := s.hosts host
    match h.phase with
    | .recording =>
      if posted (job.environ host h.task) = some name.text then
        let phase :=
          match awaited (job.environ host h.task) with
          | some b => Phase.blocking (start b) none
          | none => .ended
        some (s.put host { h with file := h.file ++ [name], phase := phase })
      else none
    | _ => none
  | .ask host name failed =>
    match (s.hosts host).phase with
    | .blocking (.asking machine machines state states fail) none =>
      match (s.hosts machine).server with
      | some server =>
        if name.text = state then
          (Sync.step server (.block name failed)).map fun next =>
            let s := s.serve machine next
            s.put host { s.hosts host with
              phase := .blocking (.asking machine machines state states fail)
                (some ⟨machine, (s.hosts machine).past.length, server.asked.length⟩) }
        else none
      | none => none
    | _ => none
  | .refuse host time =>
    let h := s.hosts host
    match h.phase, awaited (job.environ host h.task) with
    | .blocking (.asking machine machines state states fail) none, some b =>
      some (s.answered b host (.asking machine machines state states fail) 1 time)
    | _, _ => none
  | .answer host received time =>
    let h := s.hosts host
    match h.phase, awaited (job.environ host h.task) with
    | .blocking (.asking machine machines state states fail) (some conn), some b =>
      match (s.hosts conn.machine).lives[conn.life]? with
      | some server =>
        if Delivered server conn.sockfd received then
          some (s.answered b host (.asking machine machines state states fail)
            (Sync.block state received) time)
        else none
      | none => none
    | _, _ => none
  | .kill host =>
    let h := s.hosts host
    match h.phase with
    | .setting | .recording | .blocking _ _ =>
      some ((s.put host { h with phase := .ended }).mark (.killed host h.task))
    | _ => none
  | .skip host =>
    let h := s.hosts host
    match h.phase with
    | .restoring todo =>
      if todo = h.file then
        some ((s.put host { h with phase := .ended }).mark (.skipped host h.task))
      else none
    | _ => none
  | .next host =>
    let h := s.hosts host
    match h.phase with
    | .ended =>
      if h.task + 1 < (job.tasks host).length then
        some (s.put host { h with task := h.task + 1, phase := .restoring h.file })
      else none
    | _ => none
  | .reboot host =>
    let h := s.hosts host
    some (s.put host { h with past := h.lives, server := none, phase := .restoring h.file })
  | .crash host =>
    let h := s.hosts host
    some (s.put host { h with
      past := h.lives
      server := none
      stale := h.stale || h.server.isSome
      phase := .restoring h.file })
  | .remove host =>
    let h := s.hosts host
    if h.stale then some (s.put host { h with stale := false }) else none
  | .remote host event =>
    match event, (s.hosts host).server with
    | .set _, _ => none
    | _, none => none
    | event, some server => (Sync.step server event).map (s.serve host)

/-- Every host is at its first task. -/
def start : System := ⟨fun _ => ⟨[], none, false, [], 0, .restoring []⟩, []⟩

end Restraint.Multihost

import Restraint.Fetch
import Restraint.Lib.MainLoop
import Restraint.Lib.Transition

/-! Fetching an archive over HTTP: `fetch_uri.c`. libcurl calls back to have sockets watched
and a timer set; a poll waits for the end of the transfer, and then the archive is read entry
by entry. What libcurl, libarchive and the disk answer comes from the world. -/
namespace Restraint.FetchUri
open CString (Text gBuildFilename)
open Restraint.Fetch

def ARCHIVE_WARN : Int := -20

/-! ## Reading the archive -/

/-- `g_strstr_len` without a length: the string from the first occurrence of a word on. -/
def gStrstr (text word : Text) : Option Text := text.tails.find? word.isPrefixOf

/-- The new pathname of an entry, when it is to be extracted. -/
def newPath (fetch : FetchData) (entryPath : Text) : Option Text :=
  match fetch.fragment with
  | none => some (gBuildFilename [fetch.basePath, entryPath])
  | some fragment =>
    (gStrstr entryPath fragment).bind fun found =>
      if entryPath.length = fragment.length + 1 then none
      else some (gBuildFilename [fetch.basePath, found.drop fragment.length])

/-- `strbegin`: what `archive_entry_callback` gets of the new pathname. -/
def strbegin (fetch : FetchData) (pathname : Text) : Option Text :=
  match fetch.fragment with
  | some fragment => gStrstr pathname fragment
  | none =>
    let rest := pathname.drop fetch.basePath.length
    some (if rest.head? = some '/' then rest.drop 1 else rest)

/-- `http_archive_read_callback`; `access` says which paths exist, and `extract2` is how
`archive_read_extract2` fails, if it does. -/
def httpArchiveReadCallback (fetch : FetchData) (header : Header) (access : Text → Bool)
    (extract2 : Option Failure) : Read :=
  match header with
  | .eof =>
    let fetch := if fetch.matchCnt = 0 then
        fetch.setError ARCHIVE_WARN "Nothing was extracted from archive".toList
      else fetch
    ⟨fetch, false, none, none⟩
  | .failed failure =>
    ⟨fetch.setError failure.r ("archive_read_next_header failed: ".toList ++ failure.text),
      false, none, none⟩
  | .entry entryPath =>
    match newPath fetch entryPath with
    | none => ⟨{ fetch with nonmatchCnt := fetch.nonmatchCnt + 1 }, true, none, none⟩
    | some pathname =>
      if fetch.keepchanges = false ∨ access pathname = false then
        match extract2 with
        | some failure =>
          ⟨fetch.setError failure.r ("archive_read_extract2 failed: ".toList ++ failure.text),
            false, none, none⟩
        | none =>
          ⟨{ fetch with matchCnt := fetch.matchCnt + 1 }, true, some pathname,
            strbegin fetch pathname⟩
      else ⟨fetch, true, none, none⟩

/-! ## The sources -/

/-- What is attached to the main loop. -/
inductive Source where
  /-- A socket is watched; calls `event_cb`. -/
  | watch (fd : Nat)
  /-- Calls `timer_cb`. -/
  | timer
  /-- Calls `start_unpack`. -/
  | poll
  /-- Calls `http_archive_read_callback`. -/
  | read
  /-- Calls `archive_finish_callback`. -/
  | finish
  deriving DecidableEq

/-- `struct curl_data`, without the handle. -/
structure CurlData where
  toEv : Nat
  running : Int
  deriving DecidableEq

/-- The arguments of a call of `finish_callback`. -/
structure Finish where
  error : Option GError
  matchCnt : UInt32
  nonmatchCnt : UInt32
  deriving DecidableEq

structure State where
  loop : MainLoop Source
  /-- None once it is freed. -/
  fetch : Option FetchData
  privateData : Option CurlData
  /-- `ev` of the `socket_data` that libcurl keeps for a socket. -/
  sockets : Nat → Option Nat
  /-- The calls of `finish_callback`. -/
  finished : List Finish
  /-- Memory was used that is not there. -/
  crashed : Bool
  /-- A call of libcurl or libarchive has failed, or the transfer has; the code does not keep
  this. -/
  failed : Bool

/-- A call that libcurl makes. -/
inductive Call where
  /-- `sock_cb`; whether `what` is `CURL_POLL_REMOVE`. -/
  | socket (fd : Nat) (remove : Bool)
  /-- `update_timeout_cb`. -/
  | timeout (timeoutMs : Int)
  deriving DecidableEq

/-- A `CURLMsg` that the transfer is done, with the calls of `curl_multi_remove_handle`. -/
structure Message where
  result : Int
  calls : List Call
  deriving DecidableEq

/-- What `curl_multi_socket_action` does and answers, and the messages that it leaves. -/
structure Action where
  calls : List Call
  running : Int
  res : Int
  messages : List Message
  deriving DecidableEq

/-- The answers to the calls of one callback. -/
structure World where
  action : Action
  /-- How `archive_read_open` fails, if it does. -/
  opened : Option Failure
  header : Header
  access : Text → Bool
  extract2 : Option Failure

/-- `if (id != 0) g_source_remove (id)`. -/
def sourceRemove (loop : MainLoop Source) (id : Nat) : MainLoop Source :=
  if id ≠ 0 then loop.remove id else loop

def State.attach (s : State) (source : Source) : State := { s with loop := s.loop.add source }

/-- `g_set_error (&fetch_data->error, ..)` after a failure. -/
def State.fail (s : State) (code : Int) (message : Text) : State :=
  { s with fetch := s.fetch.map fun fetch => fetch.setError code message, failed := true }

def State.toEv (s : State) : Nat := (s.privateData.map CurlData.toEv).getD 0

def State.running (s : State) : Int := (s.privateData.map CurlData.running).getD 0

def State.setToEv (s : State) (toEv : Nat) : State :=
  { s with privateData := s.privateData.map fun cd => { cd with toEv } }

def State.setRunning (s : State) (running : Int) : State :=
  { s with privateData := s.privateData.map fun cd => { cd with running } }

/-- `sock_cb`. -/
def sockCb (s : State) (fd : Nat) (remove : Bool) : State :=
  if remove then
    match s.sockets fd with
    | none => s
    | some ev =>
      { s with loop := sourceRemove s.loop ev, sockets := Function.update s.sockets fd none }
  else
    let loop := sourceRemove s.loop ((s.sockets fd).getD 0)
    { s with
      loop := loop.add (.watch fd)
      sockets := Function.update s.sockets fd (some loop.next) }

/-- `update_timeout_cb`. -/
def updateTimeoutCb (s : State) (timeoutMs : Int) : State :=
  let removed := { s with loop := sourceRemove s.loop s.toEv }
  if 0 ≤ timeoutMs then (removed.attach .timer).setToEv removed.loop.next
  else removed.setToEv 0

def call (s : State) : Call → State
  | .socket fd remove => sockCb s fd remove
  | .timeout timeoutMs => updateTimeoutCb s timeoutMs

/-- `curl_multi_socket_action`. -/
def socketAction (s : State) (action : Action) : State :=
  (action.calls.foldl call s).setRunning action.running

/-- `check_multi_info`: nobody looks at the result of the transfer. -/
def checkMultiInfo (s : State) (messages : List Message) : State :=
  messages.foldl (fun s msg =>
    { msg.calls.foldl call s with failed := s.failed || decide (msg.result ≠ 0) }) s

/-! The callbacks say whether their source stays attached; `none` stands for a crash. -/

/-- `event_cb`. -/
def eventCb (s : State) (action : Action) : Option (State × Bool) :=
  match s.fetch, s.privateData with
  | some _, some _ =>
    let s := socketAction s action
    if action.res ≠ 0 then some ((s.fail action.res "curl failed".toList).attach .finish, false)
    else
      let s := checkMultiInfo s action.messages
      if action.running ≠ 0 then some (s, true)
      else some ({ s with loop := sourceRemove s.loop s.toEv }.setToEv 0, false)
  | _, _ => none

/-- `timer_cb`. -/
def timerCb (s : State) (action : Action) : Option (State × Bool) :=
  match s.fetch, s.privateData with
  | some _, some cd =>
    let clear (s : State) : State := if s.toEv = cd.toEv then s.setToEv 0 else s
    let s := socketAction s action
    if action.res ≠ 0 then
      some (clear ((s.fail action.res "curl failed".toList).attach .finish), false)
    else some (clear (checkMultiInfo s action.messages), false)
  | _, _ => none

/-- `start_unpack`. -/
def startUnpack (s : State) (opened : Option Failure) : Option (State × Bool) :=
  match s.fetch, s.privateData with
  | some _, some cd =>
    if 0 < cd.running then some (s, true)
    else
      match opened with
      | some failure =>
        some ((s.fail failure.r ("archive_read_open failed: ".toList ++ failure.text)).attach .finish,
          false)
      | none => some (s.attach .read, false)
  | _, _ => none

/-- Whether libarchive fails in a call of `http_archive_read_callback`. -/
def readFails (fetch : FetchData) (world : World) : Bool :=
  match world.header with
  | .eof => false
  | .failed _ => true
  | .entry entryPath =>
    match newPath fetch entryPath with
    | none => false
    | some pathname =>
      (fetch.keepchanges = false ∨ world.access pathname = false) ∧ world.extract2.isSome

/-- `http_archive_read_callback` on the main loop. -/
def archiveRead (s : State) (world : World) : Option (State × Bool) :=
  match s.fetch with
  | some fetch =>
    let read := httpArchiveReadCallback fetch world.header world.access world.extract2
    let s := { s with fetch := some read.fetch, failed := s.failed || readFails fetch world }
    some (if read.more then s else s.attach .finish, read.more)
  | none => none

/-- `archive_finish_callback`. -/
def archiveFinishCallback (s : State) : Option (State × Bool) :=
  match s.fetch, s.privateData with
  | some fetch, some _ =>
    some ({ s with
      fetch := none
      privateData := none
      finished := s.finished ++ [⟨fetch.error, fetch.matchCnt, fetch.nonmatchCnt⟩] }, false)
  | _, _ => none

def dispatch (s : State) (world : World) : Source → Option (State × Bool)
  | .watch _ => eventCb s world.action
  | .timer => timerCb s world.action
  | .poll => startUnpack s world.opened
  | .read => archiveRead s world
  | .finish => archiveFinishCallback s

/-- The main loop dispatches an attached source; nothing happens after a crash. -/
def step : Transition.Step State (Nat × World) := fun s (id, world) =>
  if s.crashed then none
  else
    (s.loop.find? id).map fun source =>
      match dispatch s world source with
      | none => { s with crashed := true }
      | some (s, more) => if more then s else { s with loop := s.loop.remove id }

/-! ## The start -/

/-- The answers to the calls of `restraint_fetch_uri`. -/
structure Setup where
  archiveReadNew : Bool
  archiveWriteDiskNew : Bool
  curlMultiInit : Bool
  /-- `curl_multi_add_handle`: its calls, its result and the text it leaves. -/
  calls : List Call
  res : Int
  curlErrorBuf : Text

/-- `restraint_fetch_uri`. The removal of the base path is left to the disk. -/
def restraintFetchUri (fragment : Option Text) (basePath : Text) (keepchanges : Bool)
    (setup : Setup) : State :=
  let s : State :=
    { loop := .empty
      fetch := some ⟨fragment, basePath, keepchanges, none, 0, 0⟩
      privateData := none
      sockets := fun _ => none
      finished := []
      crashed := false
      failed := false }
  if setup.archiveReadNew = false then (s.fail 0 "archive_read_new failed".toList).attach .finish
  else if setup.archiveWriteDiskNew = false then
    (s.fail 0 "archive_write_disk_new failed".toList).attach .finish
  else if setup.curlMultiInit = false then (s.fail 0 "failed to init curl".toList).attach .finish
  else
    let s := setup.calls.foldl call { s with privateData := some ⟨0, 0⟩ }
    if setup.res ≠ 0 then
      (s.fail 0 ("Failed to fetch url: ".toList ++ setup.curlErrorBuf)).attach .finish
    else s.attach .poll

end Restraint.FetchUri

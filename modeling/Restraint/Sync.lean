import Restraint.Lib.CString
import Restraint.Lib.Transition

/-! `rstrnt-sync`. The server keeps the events that were set and the clients that wait for
one; `set` tells it an event, and `block` waits until the server sends the event back. A
client that waits gets a PING now and then, so that the server finds out who has gone. -/
namespace Restraint.Sync
open CString (Text)
open Transition

def BUFSIZE : Nat := 256

def NUL : Char := '\x00'

/-- A string as it is sent. -/
def message (text : Text) : List Char := text ++ [NUL]

def ping : List Char := message "PING".toList

/-- An event: a string that fits into the buffer and is not the server's PING. -/
structure Name where
  text : Text
  noNul : NUL ∉ text
  short : text.length < BUFSIZE
  notPing : text ≠ "PING".toList
  deriving DecidableEq

/-! ## The server -/

structure Wentry where
  event : Text
  sockfd : Nat
  deriving DecidableEq

/-- The server's `sdata`, and what went over the connections of the clients that block. A
connection has the place of its client in `asked` for a number. -/
structure Server where
  events : List Text
  wlist : List Wentry
  asked : List Name
  sent : List (Nat × List Char)
  /-- The clients that have gone away. -/
  gone : List Nat

/-- What was received, up to the NUL that is put behind it or in place of the last byte. -/
def terminate (bytes : List Char) : List Char := bytes.take (BUFSIZE - 1) ++ [NUL]

/-- The buffer read as a string. -/
def bufString (bytes : List Char) : Text := (terminate bytes).takeWhile (· ≠ NUL)

/-- As many bytes of the buffer as were received. -/
def reply (bytes : List Char) : List Char := (terminate bytes).take bytes.length

/-- The first loop over the waiting list: it puts entries in front of `rlist`. -/
def collect (p : Wentry → Bool) (wlist : List Wentry) : List Wentry :=
  wlist.foldl (fun rlist w => if p w then w :: rlist else rlist) []

/-- The second loop: `g_slist_remove` for each entry of `rlist`. -/
def removeAll (wlist rlist : List Wentry) : List Wentry := rlist.foldl List.erase wlist

/-- `handle_rconn` once it has received the bytes, with the connections to which PING cannot be
sent any more. -/
def handleRconn (s : Server) (name : Name) (bytes : List Char) (failed : List Nat) : Server :=
  let rsock := s.asked.length
  let buf := bufString bytes
  let fails (w : Wentry) : Bool := failed.contains w.sockfd
  let sent := s.sent ++ (s.wlist.filter fun w => !fails w).map fun w => (w.sockfd, ping)
  let wlist := removeAll s.wlist (collect fails s.wlist)
  let s := { s with asked := s.asked ++ [name], sent := sent, wlist := wlist }
  if s.events.contains buf then { s with sent := sent ++ [(rsock, reply bytes)] }
  else { s with wlist := ⟨buf, rsock⟩ :: wlist }

/-- `handle_lconn` once it has received the bytes. -/
def handleLconn (s : Server) (bytes : List Char) : Server :=
  let buf := bufString bytes
  let waits (w : Wentry) : Bool := w.event = buf
  { s with
    events := s.events.insert buf
    sent := s.sent ++ (s.wlist.filter waits).map fun w => (w.sockfd, reply bytes)
    wlist := removeAll s.wlist (collect waits s.wlist) }

inductive Event where
  | block (name : Name) (failed : List Nat)
  | set (name : Name)
  /-- `accept` or `recv` fails. -/
  | refused
  /-- A client that blocks goes away. -/
  | hangUp (sockfd : Nat)

/-- A message comes in one piece; PING fails only on the connection of a client that has gone. -/
def step : Step Server Event := fun s e =>
  match e with
  | .block name failed =>
    if ∀ sockfd ∈ failed, sockfd ∈ s.gone then
      some (handleRconn s name (message name.text) failed)
    else none
  | .set name => some (handleLconn s (message name.text))
  | .refused => some s
  | .hangUp sockfd =>
    if sockfd < s.asked.length then some { s with gone := s.gone.insert sockfd } else none

/-- `handler`. -/
def start : Server := ⟨[], [], [], [], []⟩

/-- What the server has sent over a connection. -/
def replies (s : Server) (sockfd : Nat) : List (List Char) :=
  (s.sent.filter fun sent => sent.1 = sockfd).map Prod.snd

/-! ## The client -/

/-- `recv` into the buffer leaves what is behind the bytes received. -/
def overlay (buf bytes : List Char) : List Char := bytes ++ buf.drop bytes.length

/-- `g_strcmp0` of a string and the buffer is 0; it stops at the NUL of the string. -/
def sameString (word : Text) (buf : List Char) : Bool := (message word).isPrefixOf buf

/-- The loop of `main` for `block` without a timeout: the results of `recv`, and then the server
has closed the connection. -/
def blockLoop (event : Text) : List Char → List (List Char) → Nat
  | _, [] => 1
  | buf, bytes :: rest =>
    if bytes = [] then 1
    else
      let buf := overlay buf bytes
      if sameString "PING".toList buf = false ∧ sameString event buf = true then 0
      else blockLoop event buf rest

/-- What `main` returns for `block`. -/
def block (event : Text) (received : List (List Char)) : Nat :=
  blockLoop event (List.replicate BUFSIZE NUL) received

end Restraint.Sync

import Restraint.Fetch
import Restraint.Lib.Decimal
import Restraint.Lib.Hex

/-! Fetching from a git daemon: `fetch_git.c`. Lines come in packets with their length in front;
the archive comes in packets of the side band. A function that stores into a buffer is `none`
when it stores beyond it. -/
namespace Restraint.FetchGit
open CString (Text gBuildFilename)
open Restraint.Fetch

def HDR_LEN_SIZE : Nat := 4
def LARGE_PACKET_MAX : Nat := 65520

inductive RestraintFetchError where
  | gitHup
  | gitProtocol
  | gitNak
  | gitRemote
  deriving DecidableEq

/-- An error of the domain `RESTRAINT_FETCH_ERROR`, or of a stream. -/
inductive PacketError where
  | fetch (code : RestraintFetchError) (message : Text)
  | stream (message : Text)
  deriving DecidableEq

/-! ## Streams -/

/-- What a `GInputStream` still gives: bytes, and errors with their messages. -/
abbrev IStream := List (Except Text Char)

/-- What `g_input_stream_read_all` comes to: the bytes until there are enough, an error comes or
the stream ends. -/
structure ReadAll where
  bytes : List Char
  failure : Option Text
  rest : IStream

def readAll : Nat → IStream → ReadAll
  | 0, istream => ⟨[], none, istream⟩
  | _ + 1, [] => ⟨[], none, []⟩
  | _ + 1, .error message :: rest => ⟨[], some message, rest⟩
  | n + 1, .ok c :: rest =>
    let read := readAll n rest
    { read with bytes := c :: read.bytes }

/-- A `GOutputStream`: what was written, and how much it takes before it fails. -/
structure OStream where
  bytes : List Char
  room : Option (Nat × Text)

/-- `g_output_stream_write_all`. -/
def writeAll (ostream : OStream) (bytes : List Char) : Option Text × OStream :=
  match ostream.room with
  | none => (none, ⟨ostream.bytes ++ bytes, none⟩)
  | some (n, message) =>
    if bytes.length ≤ n then (none, ⟨ostream.bytes ++ bytes, some (n - bytes.length, message)⟩)
    else (some message, ⟨ostream.bytes ++ bytes.take n, some (0, message)⟩)

/-! ## Packets -/

def NUL : Char := '\x00'

/-- `packet_length`; `none` for -1. -/
def packetLength (linelen : List Char) : Option Nat :=
  linelen.foldlM (fun len c => (Hex.digitValue c).map fun val => (len <<< HDR_LEN_SIZE) + val) 0

/-- Stores bytes into a buffer from a place on. -/
def store (buffer : List Char) (place : Nat) (bytes : List Char) : Option (List Char) :=
  if place + bytes.length ≤ buffer.length then
    some (buffer.take place ++ bytes ++ buffer.drop (place + bytes.length))
  else none

/-- What `packet_read_line` comes to: the length or an error, the buffer and what is left. -/
structure Line where
  result : Except PacketError Nat
  buffer : List Char
  rest : IStream

def hangUp : PacketError := .fetch .gitHup "The remote end hung up unexpectedly".toList

def readFailed (message : Text) : PacketError :=
  .stream ("While reading line length from git daemon: ".toList ++ message)

/-- `packet_read_line`; `size` is the length of the buffer. -/
def packetReadLine (istream : IStream) (buffer : List Char) : Option Line :=
  let header := readAll HDR_LEN_SIZE istream
  match header.failure with
  | some message => some ⟨.error (readFailed message), buffer, header.rest⟩
  | none =>
    if header.bytes.length < HDR_LEN_SIZE then some ⟨.error hangUp, buffer, header.rest⟩
    else
      match packetLength header.bytes with
      | none =>
        some ⟨.error (.fetch .gitProtocol ("protocol error: bad line length character: ".toList ++
          header.bytes.takeWhile (· ≠ NUL))), buffer, header.rest⟩
      | some len =>
        if len = 0 then some ⟨.ok 0, buffer, header.rest⟩
        else if len < 4 then
          some ⟨.error (.fetch .gitProtocol ("protocol error: bad line length -".toList ++
            Decimal.print (4 - len))), buffer, header.rest⟩
        else
          let len := len - 4
          if buffer.length ≤ len then
            some ⟨.error (.fetch .gitProtocol ("protocol error: bad line length ".toList ++
              Decimal.print len)), buffer, header.rest⟩
          else
            let body := readAll len header.rest
            (store buffer 0 body.bytes).bind fun buffer =>
              match body.failure with
              | some message => some ⟨.error (readFailed message), buffer, body.rest⟩
              | none =>
                if body.bytes.length < len then some ⟨.error hangUp, buffer, body.rest⟩
                else (store buffer len [NUL]).map fun buffer => ⟨.ok len, buffer, body.rest⟩

/-- `packet_write` of a text that was formatted. -/
def packetWrite (ostream : OStream) (buffer : Text) : Except PacketError Unit × OStream :=
  let n := buffer.length + HDR_LEN_SIZE
  let linelen := Hex.print HDR_LEN_SIZE n
  if HDR_LEN_SIZE < linelen.length then
    (.error (.fetch .gitProtocol ("protocol error: impossibly long line (".toList ++
      Decimal.print n ++ " bytes)".toList)), ostream)
  else
    match writeAll ostream linelen with
    | (some message, ostream) => (.error (.stream message), ostream)
    | (none, ostream) =>
      match writeAll ostream buffer with
      | (some message, ostream) => (.error (.stream message), ostream)
      | (none, ostream) => (.ok (), ostream)

/-! ## The archive -/

/-- What `myread` answers: the length, with the bytes there, or an error. -/
structure Answer where
  len : Int
  bytes : List Char
  error : Option Text
  deriving DecidableEq

/-- The text of an error. -/
def PacketError.message : PacketError → Text
  | .fetch _ message | .stream message => message

/-- `myread`: one packet of the side band; the band is its first byte. -/
def myread (istream : IStream) (buf : List Char) : Option (Answer × List Char × IStream) :=
  (packetReadLine istream buf).map fun line =>
    (match line.result with
      | .error error => ⟨-1, [], some error.message⟩
      | .ok 0 => ⟨0, [], none⟩
      | .ok (len + 1) =>
        let band := (line.buffer.headD NUL).toNat % 256
        let bytes := (line.buffer.drop 1).take len
        if band = 2 then
          ⟨-1, [], some ("Error from remote service: ".toList ++
            (line.buffer.drop 1).takeWhile (· ≠ NUL))⟩
        else if band ≠ 1 then
          ⟨-1, [], some ("Received data over unrecognized side-band ".toList ++ Decimal.print band)⟩
        else ⟨len, bytes, none⟩,
      line.buffer, line.rest)

/-- `git_archive_read_callback`. -/
def gitArchiveReadCallback (fetch : FetchData) (header : Header) (access : Text → Bool)
    (extract2 : Option Failure) : Read :=
  match header with
  | .eof => ⟨fetch, false, none, none⟩
  | .failed failure =>
    ⟨fetch.setError failure.r ("archive_read_next_header failed: ".toList ++ failure.text),
      false, none, none⟩
  | .entry entryPath =>
    let pathname := gBuildFilename [fetch.basePath, entryPath]
    if fetch.keepchanges = false ∨ access pathname = false then
      match extract2 with
      | some failure =>
        ⟨fetch.setError failure.r ("archive_read_extract2 failed: ".toList ++ failure.text),
          false, none, some entryPath⟩
      | none => ⟨{ fetch with matchCnt := fetch.matchCnt + 1 }, true, some pathname, some entryPath⟩
    else ⟨fetch, true, none, some entryPath⟩

end Restraint.FetchGit

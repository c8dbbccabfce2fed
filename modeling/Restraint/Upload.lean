import Restraint.LogTransfer

/-! `upload.c`: a file is sent to the daemon in chunks, each with its range and the size of the
whole file. What a read finds and what a request comes to are answers from outside. -/
namespace Restraint.Upload
open CString (Text)
open Restraint.LogTransfer (soupUriNewWithBase)

/-! ## The URI -/

/-- A digit of an escaped byte. -/
def hexDigit (n : Nat) : Char := "0123456789ABCDEF".toList.getD n '0'

/-- A character in `g_uri_escape_string`; no reserved characters are allowed. -/
def escapeChar (c : Char) : Text :=
  if c.isAlphanum ∨ c ∈ ['-', '.', '_', '~'] then [c]
  else ['%', hexDigit (c.toNat / 16), hexDigit (c.toNat % 16)]

/-- `g_uri_escape_string`. -/
def gUriEscapeString (text : Text) : Text := text.flatMap escapeChar

/-- `result_log_uri` of `upload_file`, its path. -/
def resultLogUri (resultsUri filename : Text) : Text :=
  soupUriNewWithBase resultsUri (gUriEscapeString filename)

/-! ## Chunks -/

def readBufferSize : Nat := 131072

/-- A PUT message. -/
structure Put where
  uri : Text
  contentRange : Text
  data : List UInt8
  deriving DecidableEq

/-- What a round of the upload meets. -/
structure Answer where
  /-- What there is to read at the position in the file; an error has a message. -/
  available : Except Text (List UInt8)
  /-- The response to the message, if one is sent; an unsuccessful one has a reason. -/
  response : Except Text Unit

/-- What a process keeps between the chunks, and what it has sent. -/
structure Sending where
  /-- The static `offset`, which starts at 0 in every process. -/
  offset : Nat
  sent : List Put
  deriving DecidableEq

/-- The Content-Range of `upload_chunk`. -/
def contentRange (start stop filesize : Nat) : Text :=
  "bytes ".toList ++ Decimal.print start ++ '-' :: (Decimal.print stop ++
    '/' :: Decimal.print filesize)

/-- `upload_chunk`: how many bytes were sent, 0 where nothing was read. -/
def uploadChunk (filesize bytesLeft : Nat) (resultLogUri : Text) (answer : Answer) (s : Sending) :
    Sending × Except Text Nat :=
  match answer.available with
  | .error message => (s, .error message)
  | .ok available =>
    let data := available.take (if bytesLeft < readBufferSize then bytesLeft else readBufferSize)
    if data = [] then (s, .ok 0)
    else
      let range := contentRange s.offset (s.offset + data.length - 1) filesize
      let s := { offset := s.offset + data.length, sent := s.sent ++ [⟨resultLogUri, range, data⟩] }
      match answer.response with
      | .ok () => (s, .ok data.length)
      | .error reason => (s, .error reason)

/-- The loop of `upload_file`; without a result where the answers end before the loop does. -/
def uploadChunks (filesize : Nat) (resultLogUri : Text) :
    List Answer → Nat → Sending → Sending × Option (Except Text Bool)
  | [], uploaded, s =>
    if uploaded < filesize then (s, none) else (s, some (.ok (uploaded == filesize)))
  | answer :: rest, uploaded, s =>
    if uploaded < filesize then
      match uploadChunk filesize (filesize - uploaded) resultLogUri answer s with
      | (s, .error message) => (s, some (.error message))
      | (s, .ok ret) => uploadChunks filesize resultLogUri rest (uploaded + ret) s
    else (s, some (.ok (uploaded == filesize)))

/-- What `upload_file` finds of the file before it reads it: its size or an error of the query, and
the error where it cannot be opened. -/
structure File where
  size : Except Text Nat
  opened : Except Text Unit

/-- `upload_file`: TRUE, FALSE, or an error with its message. -/
def uploadFile (filepath filename resultsUri : Text) (file : File) (answers : List Answer)
    (s : Sending) : Sending × Option (Except Text Bool) :=
  match file.size with
  | .error message => (s, some (.error ("Error querying: ".toList ++ filepath ++ [' '] ++ message)))
  | .ok filesize =>
    match file.opened with
    | .error message => (s, some (.error ("Error opening: ".toList ++ filepath ++ [' '] ++ message)))
    | .ok () =>
      match uploadChunks filesize (resultLogUri resultsUri filename) answers 0 s with
      | (s, some (.error message)) =>
        (s, some (.error ("Error uploading: ".toList ++ filepath ++ [' '] ++ message)))
      | (s, result) => (s, result)

end Restraint.Upload

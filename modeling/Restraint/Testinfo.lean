import Restraint.Client
import Restraint.Harness
import Restraint.TimeString
import Restraint.Lib.Lines

/-! `testinfo.desc` of a task, as `metadata.c` reads it: whatever `read` returns goes into a buffer,
and each line is parsed when it has ended. A dereference of a missing string or of something behind
the end of a vector is a crash. -/
namespace Restraint.Testinfo
open CString (Text)
open Restraint.Client (gAsciiIsspace)
open Restraint.Harness (toInt64)
open Restraint.TimeString (GError ErrorCode parseTimeString)

/-- The fields of `MetaData` that a line can set; the lists are kept as they are prepended to. -/
structure MetaData where
  name : Option Text
  dependencies : List Text
  repodeps : List Text
  envvars : List (Text × Text)
  maxTime : Int
  usePty : Bool
  deriving DecidableEq

/-- `g_slice_new0`. -/
def MetaData.new : MetaData := ⟨none, [], [], [], 0, false⟩

inductive Fault where
  | crash
  | error (error : GError)
  deriving DecidableEq

/-- The metadata so far, and what the variable `time_unit` of `parse_time_string` will hold by
chance when the next lines are parsed. -/
structure Parsing where
  metadata : MetaData
  timeUnits : Nat → Char

def NUL : Char := '\x00'

/-- The string that starts where a buffer does. -/
def cString (buffer : Text) : Text := buffer.takeWhile (· != NUL)

/-- `g_strstrip`. -/
def gStrstrip (text : Text) : Text :=
  ((text.dropWhile gAsciiIsspace).reverse.dropWhile gAsciiIsspace).reverse

/-- `g_ascii_strup`. -/
def gAsciiStrup (text : Text) : Text := text.map Char.toUpper

/-- `g_strsplit` or `g_strsplit_set` into two pieces at most; the empty string has none. -/
def gStrsplitTwo (delimiter : Char → Bool) (text : Text) : List Text :=
  if text = [] then []
  else
    match text.dropWhile (!delimiter ·) with
    | [] => [text]
    | _ :: rest => [text.takeWhile (!delimiter ·), rest]

/-- `g_strsplit_set` into all the pieces. -/
def gStrsplitSet (delimiter : Char → Bool) (text : Text) : List Text :=
  if text = [] then [] else text.splitOnP delimiter

/-- An element of a vector that `NULL` ends. -/
def element (vector : List Text) (i : Nat) : Except Fault (Option Text) :=
  match (vector.map some ++ [none])[i]? with
  | some entry => .ok entry
  | none => .error .crash

/-- A vector that the code dereferences; the split of `NULL` is `NULL`. -/
def dereferenced (vector : Option (List Text)) : Except Fault (List Text) :=
  match vector with
  | some vector => .ok vector
  | none => .error .crash

/-- The pieces between commas and blanks that are not empty. -/
def requirements (vector : List Text) : List Text := vector.filter (· ≠ [])

/-- What a key and a value do to the metadata. -/
def setValue (timeUnit : Char) (metadata : MetaData) (key value : Option Text) :
    Except Fault MetaData :=
  let isKey (name : String) := key = some name.toList
  if isKey "TESTTIME" then
    match parseTimeString timeUnit value with
    | (_, some error) => .error (.error error)
    | (time, none) => .ok { metadata with maxTime := toInt64 time }
  else if isKey "NAME" then .ok { metadata with name := value.map gStrstrip }
  else if isKey "USE_PTY" then
    .ok { metadata with usePty := decide (value.map gAsciiStrup = some "TRUE".toList) }
  else if isKey "REQUIRES" ∨ isKey "RHTSREQUIRES" then
    (dereferenced (value.map (gStrsplitSet fun c => c == ',' || c == ' '))).map fun vector =>
      { metadata with
        dependencies := (requirements vector).foldl (fun list entry => entry :: list)
          metadata.dependencies }
  else if isKey "REPOREQUIRES" then
    (dereferenced (value.map (gStrsplitSet fun c => c == ',' || c == ' '))).map fun vector =>
      { metadata with
        repodeps := (requirements vector).foldl (fun list entry => entry :: list) metadata.repodeps }
  else if isKey "ENVIRONMENT" then
    (dereferenced (value.map (gStrsplitTwo fun c => c == '=' || c == ' '))).map fun
      | [name, value] => { metadata with envvars := (name, value) :: metadata.envvars }
      | _ => metadata
  else .ok metadata

/-- `parse_line`. -/
def parseLine (s : Parsing) (line : Text) : Except Fault Parsing := do
  let keyValue := gStrsplitTwo (· == ':') (cString line)
  let key ← element keyValue 0
  let value ← element keyValue 1
  let metadata ← setValue (s.timeUnits 0) s.metadata (key.map fun key => gAsciiStrup (gStrstrip key))
    (value.map gStrstrip)
  return { metadata := metadata, timeUnits := fun n => s.timeUnits (n + 1) }

/-- A parser, with `parse_buffer`. -/
structure Parser where
  parsing : Parsing
  parseBuffer : Text

/-- `flush_parse_buffer`. -/
def flushParseBuffer (s : Parser) : Except Fault Parser :=
  if s.parseBuffer ≠ [] then (parseLine s.parsing s.parseBuffer).map fun parsing => ⟨parsing, []⟩
  else .ok s

/-- The carriage return that a newline takes away. -/
def eraseCr (line : Text) : Text := if line.getLast? = some '\r' then line.dropLast else line

/-- `file_parse_data`. -/
def fileParseData (s : Parser) (data : Text) : Except Fault Parser :=
  match data with
  | [] => .ok s
  | c :: rest =>
    if c = '\n' then do
      let s ← flushParseBuffer { s with parseBuffer := eraseCr s.parseBuffer }
      fileParseData s rest
    else
      -- memchr: up to the next newline or the end of the data
      fileParseData { s with parseBuffer := s.parseBuffer ++ c :: rest.takeWhile (· != '\n') }
        (rest.dropWhile (· != '\n'))
termination_by data.length
decreasing_by
  · exact Nat.lt_succ_self _
  · exact Nat.lt_succ_of_le (List.dropWhile_suffix _).length_le

/-- What `read` returns: bytes, none at the end of the file, or an error. -/
inductive Read where
  | data (bytes : Text)
  | failed (errno : Nat) (strerror : Text)

def EINTR : Nat := 4
def EAGAIN : Nat := 11

/-- The loop of `parse_testinfo_from_fd`. A file that is not read on is at its end. -/
def readOn (s : Parser) : List Read → Except Fault Parser
  | [] | .data [] :: _ => .ok s
  | .data (c :: bytes) :: reads => do
    let s ← fileParseData s (c :: bytes)
    readOn s reads
  | .failed errno strerror :: reads =>
    if errno = EINTR ∨ errno = EAGAIN then readOn s reads
    else .error (.error ⟨.file errno, strerror⟩)

/-- The file as the calls on it answer. -/
structure File where
  /-- The error of `g_open`. -/
  openError : Option (Nat × Text)
  /-- The error of `fstat`. -/
  fstatError : Option (Nat × Text)
  regular : Bool
  reads : List Read

/-- `parse_testinfo_from_fd`. -/
def parseTestinfoFromFd (parsing : Parsing) (file : File) : Except Fault Parsing :=
  match file.fstatError with
  | some (errno, strerror) => .error (.error ⟨.file errno, strerror⟩)
  | none =>
    if file.regular = false then .error (.error ⟨.restraintOpen, "Not a regular file".toList⟩)
    else do
      let s ← readOn ⟨parsing, []⟩ file.reads
      let s ← flushParseBuffer s
      return s.parsing

/-- `restraint_parse_testinfo`. -/
def restraintParseTestinfo (timeUnits : Nat → Char) (file : File) : Except Fault MetaData :=
  match file.openError with
  | some (errno, strerror) => .error (.error ⟨.file errno, strerror⟩)
  | none => (parseTestinfoFromFd ⟨.new, timeUnits⟩ file).map Parsing.metadata

end Restraint.Testinfo

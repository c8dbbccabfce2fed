import Restraint.Lib.CString
import Restraint.Lib.Ranges

/-! The plugin `01_dmesg_check`: after a result it looks through the messages of the kernel. The traces
are cut out and judged each as a whole, the other lines one by one. What it reports ends with a note on
the patterns and where they come from. -/
namespace Restraint.DmesgCheck
open CString (Text strstr)
open Ranges

/-- What the script is run with, and how the commands answer that it calls. Files are lists of lines. -/
structure World where
  /-- `RSTRNT_RESULT_URL`. -/
  resultUrl : Text
  /-- What is in `FAILUREFILENM` and `FALSEFILENM`, if there are such files. -/
  failureFile : Option (List Text)
  falseFile : Option (List Text)
  /-- `FAILURESTRINGS` and `FALSESTRINGS`. -/
  failureStrings : Text
  falseStrings : Text
  /-- `dmesg`, unless it fails. -/
  dmesg : Option (List Text)
  /-- `rstrnt-report-log` succeeds. -/
  logAccepted : Bool
  /-- The traces in the order of the names of their files. -/
  glob : List (List Text) → List (List Text)
  /-- The lines that match the pattern of a `grep -E`; none where that is not a valid one. -/
  grepE : Text → Option (Text → Bool)
  /-- A line matches the pattern of a `grep -P`, which is valid then. -/
  grepP : Text → Text → Bool
  /-- The lines that `echo -e` prints for a text. -/
  echo : Text → List Text

/-- `sed '/^ *$/d' file | paste -sd "|"`. -/
def joinLines (file : List Text) : Text := ['|'].intercalate (file.filter fun line => !line.all (· = ' '))

/-- The variable, else the file unless it is empty, else the default. -/
def selected (file : Option (List Text)) (given default : Text) : Text :=
  if given ≠ [] then given
  else
    match file with
    | some (line :: lines) => joinLines (line :: lines)
    | _ => default

def FAILURESTRINGS (w : World) : Text :=
  selected w.failureFile w.failureStrings "Oops|BUG|NMI appears to be stuck|Badness at".toList

def FALSESTRINGS (w : World) : Text :=
  selected w.falseFile w.falseStrings
    "BIOS BUG|DEBUG|mapping multiple BARs.*IBM System X3250 M4".toList

/-- Where the pattern was found, in words. -/
def selector (name file : Text) (content : Option (List Text)) (given : Text) : Text :=
  if given ≠ [] then name ++ " Environment Variable".toList
  else
    match content with
    | some (_ :: _) => file ++ " file".toList
    | _ => "Default ".toList ++ name

def DMESG_FAIL_SELECTOR (w : World) : Text :=
  selector "FAILURESTRINGS".toList "failurestrings".toList w.failureFile w.failureStrings

def DMESG_FALSE_SELECTOR (w : World) : Text :=
  selector "FALSESTRINGS".toList "falsestrings".toList w.falseFile w.falseStrings

def bar : Text := List.replicate 52 '='

/-- What is said about one of the two files. -/
def fileNote (file : Text) (content : Option (List Text)) : List Text :=
  match content with
  | some [] => [file ++ " file found but empty.".toList]
  | some lines => (file ++ " file found and contains:".toList) :: lines
  | none => [file ++ " file not found.".toList]

/-- What the script appends to the findings. -/
def patternNote (w : World) : List Text :=
  [bar, "DMESG Selectors:".toList,
      "Used ".toList ++ DMESG_FAIL_SELECTOR w ++ " and ".toList ++ DMESG_FALSE_SELECTOR w, bar] ++
    w.echo ("FAILURESTRINGS: ".toList ++ FAILURESTRINGS w) ++
    fileNote "FailureStrings".toList w.failureFile ++ [bar] ++
    w.echo ("FALSESTRINGS: ".toList ++ FALSESTRINGS w) ++
    fileNote "FalseStrings".toList w.falseFile ++ [bar]

def cutHere (line : Text) : Bool := strstr line "cut here".toList

def endTrace (line : Text) : Bool := strstr line "end trace".toList

/-- `paste -s "$TRACE"`. -/
def paste (trace : List Text) : Text := ['\t'].intercalate trace

/-- What the script sends: the log, and what it has found as the output of a failed result. -/
structure Outcome where
  log : Option (List Text)
  result : Option (List Text)
  deriving DecidableEq

/-- `trace-*.log`: every paragraph of what lies between the patterns. -/
def traceFiles (log : List Text) : List (List Text) :=
  paragraphs List.isEmpty (spaced endTrace [] (inside cutHere endTrace false log))

/-- The traces that are kept, from the first one on. -/
def keptTraces (w : World) (log : List Text) : List (List Text) :=
  (w.glob (traceFiles log)).filter fun trace => !w.grepP (FALSESTRINGS w) (paste trace)

/-- The line is a failure, and no false one. -/
def fails (w : World) (line : Text) : Bool :=
  match w.grepE (FALSESTRINGS w), w.grepE (FAILURESTRINGS w) with
  | some false', some failure => !false' line && failure line
  | _, _ => false

/-- The failures outside the traces. A `grep` with a pattern that is not valid prints nothing, also with
`-v`. -/
def failures (w : World) (log : List Text) : List Text :=
  match w.grepE (FALSESTRINGS w), w.grepE (FAILURESTRINGS w) with
  | some false', some failure =>
    ((outside cutHere endTrace false log).filter fun line => !false' line).filter failure
  | _, _ => []

/-- The script. With `set -e` it ends at the first command that fails. -/
def dmesgCheck (w : World) : Outcome :=
  if w.resultUrl = [] then ⟨none, none⟩
  else
    match w.dmesg with
    | none => ⟨none, none⟩
    | some log =>
      let sent := if log ≠ [] then some log else none
      if log ≠ [] ∧ w.logAccepted = false then ⟨sent, none⟩
      else
        let outputFile := (keptTraces w log).flatten
        match failures w log with
        -- the last `grep` of the pipeline has found nothing
        | [] => ⟨sent, none⟩
        | found => ⟨sent, some (outputFile ++ found ++ patternNote w)⟩

variable {w : World} {log : List Text} {traces : List (List Text)} {rest : List Text}

private theorem failures_eq (parts : Parts cutHere endTrace log traces rest) :
    failures w log = rest.filter (fails w) := by
  unfold failures fails
  rw [parts.outside]
  split
  · rw [List.filter_filter]
    exact List.filter_congr fun line _ => Bool.and_comm _ _
  · exact (List.filter_eq_nil_iff.mpr fun _ _ => Bool.false_ne_true).symm

private theorem traceFiles_eq (parts : Parts cutHere endTrace log traces rest)
    (clean : ∀ trace ∈ traces, Clean endTrace List.isEmpty trace) : traceFiles log = traces := by
  rw [traceFiles, parts.inside]
  exact parts.paragraphs clean rfl

/-- The script goes through to its end. -/
theorem dmesgCheck_eq (url : w.resultUrl ≠ []) (here : w.dmesg = some log)
    (accepted : log ≠ [] → w.logAccepted = true) :
    (dmesgCheck w).result =
      if failures w log = [] then none
      else some ((keptTraces w log).flatten ++ failures w log ++ patternNote w) := by
  have through : ¬(log ≠ [] ∧ w.logAccepted = false) := fun ⟨any, refused⟩ => by
    rw [accepted any] at refused
    cases refused
  unfold dmesgCheck
  rw [if_neg url, here]
  dsimp only
  rw [if_neg through]
  cases found : failures w log with
  | nil => rfl
  | cons line lines => rw [if_neg (List.cons_ne_nil _ _)]

/-- **A failure is reported if and only if a line outside the traces is one.** The report holds the
traces that are no false ones, in some order, then all those lines, and then the note on the patterns;
no trace is reported on its own, because the script ends when it finds no line beside the traces. -/
theorem dmesg_reported (orders : ∀ files, (w.glob files).Perm files) (url : w.resultUrl ≠ [])
    (here : w.dmesg = some log) (accepted : log ≠ [] → w.logAccepted = true) :
    (∃ traces rest, Parts cutHere endTrace log traces rest) ∧
    ∀ traces rest, Parts cutHere endTrace log traces rest →
      ((dmesgCheck w).result.isSome = true ↔ ∃ line ∈ rest, fails w line = true) ∧
      ((∀ trace ∈ traces, Clean endTrace List.isEmpty trace) → ∀ found, (dmesgCheck w).result = some found →
        ∃ kept : List (List Text),
          kept.Perm (traces.filter fun trace => !w.grepP (FALSESTRINGS w) (paste trace)) ∧
          found = kept.flatten ++ rest.filter (fails w) ++ patternNote w) := by
  refine ⟨exists_parts log, fun traces rest parts => ⟨?_, fun clean found reported => ?_⟩⟩
  · rw [dmesgCheck_eq url here accepted, failures_eq parts]
    constructor
    · intro reported
      split at reported
      · cases reported
      · rename_i any
        obtain ⟨line, lines, found⟩ := List.exists_cons_of_ne_nil any
        have member : line ∈ rest.filter (fails w) := found ▸ List.mem_cons_self
        exact ⟨line, List.mem_filter.mp member⟩
    · rintro ⟨line, member, failure⟩
      have any : rest.filter (fails w) ≠ [] := List.ne_nil_of_mem (List.mem_filter.mpr ⟨member, failure⟩)
      rw [if_neg any]
      rfl
  · rw [dmesgCheck_eq url here accepted, failures_eq parts] at reported
    split at reported
    · cases reported
    · cases reported
      exact ⟨_, traceFiles_eq parts clean ▸ (orders (traceFiles log)).filter _, rfl⟩

/-! ## A trace and a failure -/

def trace : List Text := ["--[ cut here ]--".toList, "Call Trace:".toList, "--[ end trace ]--".toList]

/-- Plain words for patterns, and the files in the order of their numbers. -/
def plainWorld (log : List Text) : World where
  resultUrl := "http://localhost".toList
  failureFile := none
  falseFile := none
  failureStrings := "Oops".toList
  falseStrings := "DEBUG".toList
  dmesg := some log
  logAccepted := true
  glob := id
  grepE := fun pattern => some fun line => strstr line pattern
  grepP := fun pattern line => strstr line pattern
  echo := fun text => [text]

private theorem parts_beside :
    Parts cutHere endTrace (trace ++ ["Oops".toList]) [trace] ["Oops".toList] := by
  have oops : Parts cutHere endTrace ["Oops".toList] [] ["Oops".toList] := .plain (by decide) .nil
  have body : ∀ line ∈ ["Call Trace:".toList], endTrace line = false := by
    rw [List.forall_mem_singleton]
    decide
  have whole : Parts cutHere endTrace ("--[ cut here ]--".toList ::
      (["Call Trace:".toList] ++ "--[ end trace ]--".toList :: ["Oops".toList])) _ _ :=
    .range (by decide) body (by decide) oops
  exact whole

private theorem clean_trace : Clean endTrace List.isEmpty trace := by
  refine ⟨fun line member => ?_, fun line head => ?_⟩
  · have all : trace.all (!·.isEmpty) = true := by decide
    simpa using List.all_eq_true.mp all line member
  · cases head
    decide

/-- The trace is reported beside the failure. -/
theorem dmesg_reported_beside : ∃ kept : List (List Text), kept.Perm [trace] ∧
    (dmesgCheck (plainWorld (trace ++ ["Oops".toList]))).result =
      some (kept.flatten ++ ["Oops".toList] ++ patternNote (plainWorld (trace ++ ["Oops".toList]))) := by
  obtain ⟨-, reported⟩ := dmesg_reported (w := plainWorld (trace ++ ["Oops".toList]))
    (fun _ => .refl _) (by decide) rfl fun _ => rfl
  obtain ⟨any, all⟩ := reported [trace] ["Oops".toList] parts_beside
  obtain ⟨found, result⟩ := Option.isSome_iff_exists.mp
    (any.mpr ⟨"Oops".toList, List.mem_cons_self, by decide⟩)
  obtain ⟨kept, order, same⟩ := all (List.forall_mem_singleton.mpr clean_trace) found result
  refine ⟨kept, order, ?_⟩
  rw [result, same]
  rfl

/-- No failure beside the trace. -/
example : dmesgCheck (plainWorld trace) = ⟨some trace, none⟩ := by decide

end Restraint.DmesgCheck

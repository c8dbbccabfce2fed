import Restraint.ProcessProofs

/-! The output of a child process: the pipe between the child and
`io_callback`, and what of it is read before `finish_callback` runs. The child
exit callback closes the descriptor, so what is still in the pipe then is lost. -/
namespace Restraint.ProcessOutput
open Restraint.Process Restraint.ProcessProofs Transition

/-- `IO_BUFFER_SIZE`. -/
def IO_BUFFER_SIZE : Nat := 8192

structure Session where
  process : Process.Run
  /-- The bytes in the pipe or pty, oldest first. -/
  pipe : List UInt8
  written : List UInt8
  /-- The buffers `io_callback` has passed on, one after the other. -/
  read : List UInt8
  exited : Bool
  /-- Some process still holds the write end. -/
  writable : Bool

def start (launch : Launch) : Session where
  process := processRun launch
  pipe := []
  written := []
  read := []
  exited := false
  writable := true

/-- The `GIOCondition` of the output descriptor. -/
structure Condition where
  input : Bool
  hangUp : Bool
  invalid : Bool
  deriving DecidableEq

/-- What `poll` reports; a closed descriptor is invalid. -/
def poll (s : Session) : Condition where
  input := s.process.data.fdOut && !s.pipe.isEmpty
  hangUp := s.process.data.fdOut && !s.writable
  invalid := !s.process.data.fdOut

/-- The status of `g_io_channel_read_chars`. -/
inductive Status where
  | normal (bytes : List UInt8)
  | error
  | eof
  | again
  deriving DecidableEq

/-- A read that returns `count` bytes when there are that many. -/
def readChars (s : Session) (count : Nat) : Status :=
  if !s.process.data.fdOut then .error
  else if s.pipe.isEmpty then (if s.writable then .again else .eof)
  else .normal (s.pipe.take count)

/-- `io_callback`, with whether the watch is kept. -/
def ioCallback (s : Session) (condition : Condition) (status : Status) : Session × Bool :=
  if condition.input then
    match status with
    | .normal bytes => ({ s with pipe := s.pipe.drop bytes.length, read := s.read ++ bytes }, true)
    | .error => (s, false)
    | .eof => (s, false)
    | .again => (s, true)
  else (s, false)

inductive Event where
  /-- The child writes. -/
  | write (bytes : List UInt8)
  | exit
  /-- The last write end is closed. -/
  | hangUp
  /-- The output watch is dispatched and its read returns so many bytes. -/
  | ready (id : Nat) (count : Nat)
  /-- The child watch, after the child exited. -/
  | childExit (id : Nat) (status : Int)
  | timeout (id : Nat) (remaining : Nat) (killed : Bool)
  | idle (id : Nat)
  | cancel (killed : Bool)
  deriving DecidableEq

/-- An event of the process that leaves the pipe alone. -/
def liftStep (s : Session) (e : Process.Event) : Option Session :=
  (Process.step s.process e).map fun process => { s with process := process }

def step (s : Session) : Event → Option Session
  | .write bytes =>
    if s.exited || !s.writable then none
    else some { s with pipe := s.pipe ++ bytes, written := s.written ++ bytes }
  | .exit => some { s with exited := true }
  | .hangUp => some { s with writable := false }
  | .ready id count =>
    let condition := poll s
    if (condition.input || condition.hangUp || condition.invalid) &&
        0 < count && count ≤ IO_BUFFER_SIZE - 1 then
      let (called, keep) := ioCallback s condition (readChars s count)
      liftStep called (.output id keep)
    else none
  | .childExit id status => if s.exited then liftStep s (.childExit id status) else none
  | .timeout id remaining killed => liftStep s (.timeout id remaining killed)
  | .idle id => liftStep s (.idle id)
  | .cancel killed => liftStep s (.cancel killed)

/-- The child exit is dispatched only when the pipe is empty. -/
def drained (s : Session) (e : Event) : Prop :=
  match e with
  | .childExit _ _ => s.pipe = []
  | _ => True

instance (s : Session) (e : Event) : Decidable (drained s e) := by
  unfold drained
  cases e <;> infer_instance

variable {s t : Session} {e : Event} {es : List Event} {launch : Launch}

private theorem liftStep_eq_some {e : Process.Event} : liftStep s e = some t ↔
    ∃ process, Process.step s.process e = some process ∧ t = { s with process := process } := by
  simp only [liftStep, Option.map_eq_some_iff, eq_comm (a := t)]

/-- What a dispatch of the output watch does: it moves bytes from the pipe to
the reader while the descriptor is open, and then the process takes the step. -/
theorem ready_spec {id count : Nat} (stepped : step s (.ready id count) = some t) :
    ∃ bytes rest keep process, s.pipe = bytes ++ rest ∧
      (bytes ≠ [] → s.process.data.fdOut = true) ∧
      Process.step s.process (.output id keep) = some process ∧
      t = { s with process := process, pipe := rest, read := s.read ++ bytes } := by
  simp only [step] at stepped
  split at stepped
  · obtain ⟨process, moved, rfl⟩ := liftStep_eq_some.mp stepped
    by_cases input : (poll s).input = true
    · have filled : s.process.data.fdOut = true ∧ s.pipe ≠ [] := by simpa [poll] using input
      have chars : readChars s count = .normal (s.pipe.take count) := by
        simp [readChars, filled]
      simp only [ioCallback, input, ↓reduceIte, chars] at moved ⊢
      refine ⟨s.pipe.take count, s.pipe.drop count, true, process, by simp, fun _ => filled.1,
        moved, ?_⟩
      simp [List.drop_eq_drop_iff]
    · simp only [ioCallback, input, Bool.false_eq_true, ↓reduceIte] at moved ⊢
      exact ⟨[], s.pipe, false, process, rfl, fun none => absurd rfl none, moved, by simp⟩
  · cases stepped

private theorem write_spec {bytes : List UInt8} (stepped : step s (.write bytes) = some t) :
    s.exited = false ∧ t = { s with pipe := s.pipe ++ bytes, written := s.written ++ bytes } := by
  simp only [step] at stepped
  split at stepped
  · cases stepped
  · rename_i running
    cases stepped
    simp only [Bool.or_eq_true, not_or, Bool.not_eq_true] at running
    exact ⟨running.1, rfl⟩

/-- The child exit is dispatched to the process once the child has exited. -/
theorem childExit_spec {id : Nat} {status : Int}
    (stepped : step s (.childExit id status) = some t) :
    s.exited = true ∧ ∃ process, Process.step s.process (.childExit id status) = some process ∧
      t = { s with process := process } := by
  simp only [step] at stepped
  split at stepped
  · rename_i exited
    exact ⟨exited, liftStep_eq_some.mp stepped⟩
  · cases stepped

/-- Every byte written is read or still in the pipe. -/
def Accounted (s : Session) : Prop := s.written = s.read ++ s.pipe

private theorem step_accounted (s : Session) (e : Event) (t : Session) (accounted : Accounted s)
    (stepped : step s e = some t) : Accounted t := by
  cases e with
  | write bytes =>
    obtain ⟨-, rfl⟩ := write_spec stepped
    unfold Accounted at accounted ⊢
    rw [accounted, List.append_assoc]
  | exit => cases stepped; exact accounted
  | hangUp => cases stepped; exact accounted
  | ready id count =>
    obtain ⟨bytes, rest, keep, process, shape, -, -, rfl⟩ := ready_spec stepped
    simpa [Accounted, shape] using accounted
  | childExit id status =>
    obtain ⟨-, process, -, rfl⟩ := childExit_spec stepped
    exact accounted
  | _ =>
    obtain ⟨process, -, rfl⟩ := liftStep_eq_some.mp stepped
    exact accounted

/-- The child exit was dispatched, and what is left in the pipe cannot be read
any more. -/
structure Lost (s : Session) : Prop where
  reaped : s.process.data.pid = 0
  shut : s.process.data.fdOut = false
  exited : s.exited = true
  left : s.pipe ≠ []

/-- A step of the process that is no child exit keeps lost output lost. -/
theorem lift_lost {e : Process.Event} (lost : Lost s)
    (other : ∀ id status, e ≠ .childExit id status) (stepped : liftStep s e = some t) :
    Lost t := by
  obtain ⟨process, moved, rfl⟩ := liftStep_eq_some.mp stepped
  obtain ⟨pid, shut⟩ := step_data moved other
  exact ⟨pid.trans lost.reaped, shut lost.shut, lost.exited, lost.left⟩

private theorem step_lost (s : Session) (e : Event) (t : Session) (lost : Lost s)
    (stepped : step s e = some t) : Lost t := by
  cases e with
  | write bytes =>
    have running := (write_spec stepped).1
    simp [lost.exited] at running
  | exit =>
    cases stepped
    exact ⟨lost.reaped, lost.shut, rfl, lost.left⟩
  | hangUp =>
    cases stepped
    exact ⟨lost.reaped, lost.shut, lost.exited, lost.left⟩
  | ready id count =>
    obtain ⟨bytes, rest, keep, process, shape, opened, moved, rfl⟩ := ready_spec stepped
    obtain ⟨pid, shut⟩ := step_data moved (by simp)
    have none : bytes = [] := by
      by_contra some
      simp [lost.shut] at opened
      exact some opened
    refine ⟨pid.trans lost.reaped, shut lost.shut, lost.exited, ?_⟩
    simpa [shape, none] using lost.left
  | childExit id status =>
    obtain ⟨exited, process, moved, rfl⟩ := childExit_spec stepped
    obtain ⟨pid, shut⟩ := childExit_data moved
    exact ⟨pid, shut, exited, lost.left⟩
  | timeout id remaining killed => exact lift_lost lost (by simp) stepped
  | idle id => exact lift_lost lost (by simp) stepped
  | cancel killed => exact lift_lost lost (by simp) stepped

/-- A child exit dispatched over a filled pipe loses what is in it. -/
theorem undrained_lost (s : Session) (e : Event) (t : Session) (stepped : step s e = some t)
    (undrained : ¬drained s e) : Lost t := by
  cases e with
  | childExit id status =>
    obtain ⟨exited, process, moved, rfl⟩ := childExit_spec stepped
    obtain ⟨pid, shut⟩ := childExit_data moved
    exact ⟨pid, shut, exited, undrained⟩
  | _ => exact absurd trivial undrained

/-- Once the child is reaped, nothing is left to read or to come. -/
structure Drained (s : Session) : Prop where
  exited : s.process.data.pid = 0 → s.exited = true
  empty : s.process.data.pid = 0 → s.pipe = []

private theorem lift_drained {e : Process.Event} (dry : Drained s)
    (other : ∀ id status, e ≠ .childExit id status) (stepped : liftStep s e = some t) :
    Drained t := by
  obtain ⟨process, moved, rfl⟩ := liftStep_eq_some.mp stepped
  obtain ⟨pid, -⟩ := step_data moved other
  exact ⟨fun reaped => dry.exited (pid ▸ reaped), fun reaped => dry.empty (pid ▸ reaped)⟩

private theorem step_drained (s : Session) (e : Event) (t : Session) (dry : Drained s)
    (stepped : only step drained s e = some t) : Drained t := by
  obtain ⟨drains, stepped⟩ := only_eq_some.mp stepped
  cases e with
  | write bytes =>
    obtain ⟨running, rfl⟩ := write_spec stepped
    refine ⟨dry.exited, fun reaped => ?_⟩
    simp [dry.exited reaped] at running
  | exit =>
    cases stepped
    exact ⟨fun _ => rfl, dry.empty⟩
  | hangUp =>
    cases stepped
    exact ⟨dry.exited, dry.empty⟩
  | ready id count =>
    obtain ⟨bytes, rest, keep, process, shape, -, moved, rfl⟩ := ready_spec stepped
    obtain ⟨pid, -⟩ := step_data moved (by simp)
    refine ⟨fun reaped => dry.exited (pid ▸ reaped), fun reaped => ?_⟩
    have empty := dry.empty (pid ▸ reaped)
    rw [shape] at empty
    exact (List.append_eq_nil_iff.mp empty).2
  | childExit id status =>
    obtain ⟨exited, process, -, rfl⟩ := childExit_spec stepped
    exact ⟨fun _ => exited, fun _ => drains⟩
  | timeout id remaining killed => exact lift_drained dry (by simp) stepped
  | idle id => exact lift_drained dry (by simp) stepped
  | cancel killed => exact lift_drained dry (by simp) stepped

/-- The process of a session takes the steps of a process. -/
theorem step_refines (stepped : step s e = some t) :
    t.process = s.process ∨ ∃ e, Process.step s.process e = some t.process := by
  cases e with
  | write bytes =>
    obtain ⟨-, rfl⟩ := write_spec stepped
    exact .inl rfl
  | exit => cases stepped; exact .inl rfl
  | hangUp => cases stepped; exact .inl rfl
  | ready id count =>
    obtain ⟨bytes, rest, keep, process, -, -, moved, rfl⟩ := ready_spec stepped
    exact .inr ⟨_, moved⟩
  | childExit id status =>
    obtain ⟨-, process, moved, rfl⟩ := childExit_spec stepped
    exact .inr ⟨_, moved⟩
  | _ =>
    obtain ⟨process, moved, rfl⟩ := liftStep_eq_some.mp stepped
    exact .inr ⟨_, moved⟩

/-- What every step of a process keeps, the process of a session keeps. -/
theorem process_keeps {Inv : Process.Run → Prop}
    (keeps : ∀ p e q, Inv p → Process.step p e = some q → Inv q) (holds : Inv s.process)
    (ran : run step s es = some t) : Inv t.process := by
  refine run_keeps (I := fun s : Session => Inv s.process) ?_ holds ran
  intro s e t inv stepped
  rcases step_refines stepped with same | ⟨e, moved⟩
  · exact same ▸ inv
  · exact keeps _ e _ inv moved

end Restraint.ProcessOutput

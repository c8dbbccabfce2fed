import Restraint.Process

/-! `finish_callback` is called once, after both joins. The ids in
`ProcessData` say exactly which sources are attached, so a finished process
leaves nothing behind. What can go wrong is known too: a process whose fork
failed, or whose child watch was removed by a failed `kill`, never finishes. -/
namespace Restraint.ProcessProofs
open Restraint.Process Transition

variable {s t : Run} {e : Event} {es : List Event} {launch : Launch} {history : List Observed}

section History

@[simp] theorem finishes_reaped {status : Int} :
    finishes (history ++ [.reaped status]) = finishes history := by simp [finishes]

@[simp] theorem finishes_outputEnded :
    finishes (history ++ [.outputEnded]) = finishes history := by simp [finishes]

@[simp] theorem finishes_kill {succeeded : Bool} :
    finishes (history ++ [.kill succeeded]) = finishes history := by simp [finishes]

@[simp] theorem finishes_finished {pidResult : Int} {localwatchdog : Bool}
    {error : Option String} :
    finishes (history ++ [.finished pidResult localwatchdog error]) =
      finishes history ++ [(pidResult, localwatchdog, error)] := by simp [finishes]

end History

/-! ## The ids and the attached sources -/

/-- The ids in `ProcessData` are exactly the sources on the main loop. The id
of the child watch goes stale once the child is reaped, that of the idle source
once the process is finished. -/
structure Watched (s : Run) : Prop where
  pid : ∀ id, (id, .processPidCallback) ∈ s.loop.sources ↔
    s.data.pid ≠ 0 ∧ s.data.pidHandlerId = id ∧ id ≠ 0
  io : ∀ id, (id, .processIoCb) ∈ s.loop.sources ↔ s.data.ioHandlerId = id ∧ id ≠ 0
  timeout : ∀ id, (∃ seconds, (id, .processTimeoutCallback seconds) ∈ s.loop.sources) ↔
    s.data.timeoutHandlerId = id ∧ id ≠ 0
  finish : ∀ id, (id, .processPidFinish) ∈ s.loop.sources ↔
    s.data.finishHandlerId = id ∧ id ≠ 0

/-- Only the ids and the pid matter to `Watched`. -/
theorem Watched.congr {s' : Run} (watched : Watched s) (loop : s'.loop = s.loop)
    (pid : s'.data.pid = s.data.pid) (pidId : s'.data.pidHandlerId = s.data.pidHandlerId)
    (ioId : s'.data.ioHandlerId = s.data.ioHandlerId)
    (timeoutId : s'.data.timeoutHandlerId = s.data.timeoutHandlerId)
    (finishId : s'.data.finishHandlerId = s.data.finishHandlerId) : Watched s' :=
  ⟨by rw [loop, pid, pidId]; exact watched.pid, by rw [loop, ioId]; exact watched.io,
    by rw [loop, timeoutId]; exact watched.timeout,
    by rw [loop, finishId]; exact watched.finish⟩

private theorem scheduleFinish_watched (watched : Watched s) : Watched (scheduleFinish s) := by
  unfold scheduleFinish
  split
  · rename_i unscheduled
    refine ⟨by simpa using watched.pid, by simpa using watched.io, by simpa using watched.timeout,
      ?_⟩
    intro id
    have absent : (id, Source.processPidFinish) ∉ s.loop.sources := by
      rw [watched.finish, unscheduled]
      rintro ⟨rfl, nonzero⟩
      exact nonzero rfl
    simp only [MainLoop.mem_add, absent, false_or, Prod.mk.injEq, and_true]
    constructor
    · rintro rfl
      exact ⟨rfl, MainLoop.next_ne_zero⟩
    · rintro ⟨rfl, -⟩
      rfl
  · exact watched

/-- Removing the timer and clearing its id. -/
theorem removeTimeout_watched (watched : Watched s) (armed : s.data.timeoutHandlerId ≠ 0) :
    Watched { s with
      data := { s.data with timeoutHandlerId := 0 }
      loop := s.loop.remove s.data.timeoutHandlerId } := by
  obtain ⟨seconds, held⟩ := (watched.timeout s.data.timeoutHandlerId).mpr ⟨rfl, armed⟩
  refine ⟨?_, ?_, ?_, ?_⟩ <;> intro id
  · rw [MainLoop.mem_remove_other held (by simp)]
    exact watched.pid id
  · rw [MainLoop.mem_remove_other held (by simp)]
    exact watched.io id
  · simp only [MainLoop.mem_remove]
    constructor
    · rintro ⟨seconds, member, other⟩
      exact absurd ((watched.timeout id).mp ⟨seconds, member⟩).1.symm other
    · rintro ⟨rfl, nonzero⟩
      exact absurd rfl nonzero
  · rw [MainLoop.mem_remove_other held (by simp)]
    exact watched.finish id

private theorem processKill_watched {killed : Bool} (watched : Watched s) :
    Watched (processKill s killed) := by
  unfold processKill
  split
  · exact watched
  rename_i alive
  dsimp only
  split
  · exact watched.congr rfl rfl rfl rfl rfl rfl
  split
  · rename_i armed
    have held := (watched.pid s.data.pidHandlerId).mpr ⟨alive, rfl, armed⟩
    refine ⟨?_, ?_, ?_, ?_⟩ <;> intro id
    · simp only [MainLoop.mem_remove, watched.pid]
      constructor
      · rintro ⟨⟨-, rfl, -⟩, other⟩
        exact absurd rfl other
      · rintro ⟨-, rfl, nonzero⟩
        exact absurd rfl nonzero
    · rw [MainLoop.mem_remove_other held (by simp)]
      exact watched.io id
    · simp only [MainLoop.mem_remove_other held (b := Source.processTimeoutCallback _) (by simp)]
      exact watched.timeout id
    · rw [MainLoop.mem_remove_other held (by simp)]
      exact watched.finish id
  · exact watched.congr rfl rfl rfl rfl rfl rfl

private theorem processCancelledCb_watched {killed : Bool} (watched : Watched s) :
    Watched (processCancelledCb s killed) := by
  unfold processCancelledCb
  dsimp only
  split
  · rename_i armed
    exact removeTimeout_watched (processKill_watched watched) armed
  · exact processKill_watched watched

/-- Watching a process on a fresh timer. -/
theorem addTimeout_watched {seconds : Nat} (watched : Watched s)
    (unarmed : s.data.timeoutHandlerId = 0) :
    Watched { s with
      data := { s.data with timeoutHandlerId := s.loop.next }
      loop := s.loop.add (.processTimeoutCallback seconds) } := by
  refine ⟨by simpa using watched.pid, by simpa using watched.io, ?_, by simpa using watched.finish⟩
  intro id
  have absent : ¬∃ seconds, (id, Source.processTimeoutCallback seconds) ∈ s.loop.sources := by
    rw [watched.timeout, unarmed]
    rintro ⟨rfl, nonzero⟩
    exact nonzero rfl
  simp only [MainLoop.mem_add, Prod.mk.injEq, Source.processTimeoutCallback.injEq]
  constructor
  · rintro ⟨seconds', member | ⟨rfl, -⟩⟩
    · exact absurd ⟨seconds', member⟩ absent
    · exact ⟨rfl, MainLoop.next_ne_zero⟩
  · rintro ⟨rfl, -⟩
    exact ⟨seconds, .inr ⟨rfl, rfl⟩⟩

section ProcessKill
variable {killed : Bool}

@[simp] theorem processKill_pid : (processKill s killed).data.pid = s.data.pid := by
  unfold processKill
  grind

@[simp] theorem processKill_timeoutCallback :
    (processKill s killed).data.timeoutCallback = s.data.timeoutCallback := by
  unfold processKill
  grind

@[simp] theorem processKill_maxTime :
    (processKill s killed).data.maxTime = s.data.maxTime := by
  unfold processKill
  grind

@[simp] theorem processKill_fdOut : (processKill s killed).data.fdOut = s.data.fdOut := by
  unfold processKill
  grind

@[simp] theorem processKill_io :
    (processKill s killed).data.ioHandlerId = s.data.ioHandlerId := by
  unfold processKill
  grind

@[simp] theorem processKill_timeout :
    (processKill s killed).data.timeoutHandlerId = s.data.timeoutHandlerId := by
  unfold processKill
  grind

@[simp] theorem processKill_finish :
    (processKill s killed).data.finishHandlerId = s.data.finishHandlerId := by
  unfold processKill
  grind

@[simp] theorem processKill_cancelHandler :
    (processKill s killed).data.cancelHandler = s.data.cancelHandler := by
  unfold processKill
  grind

/-- The child watch goes only with a `kill` that fails on a live child. -/
theorem processKill_pidHandlerId : (processKill s killed).data.pidHandlerId =
    if s.data.pid ≠ 0 ∧ killed = false then 0 else s.data.pidHandlerId := by
  unfold processKill
  grind

@[simp] theorem processKill_finishes :
    finishes (processKill s killed).history = finishes s.history := by
  unfold processKill
  grind [finishes_kill]

private theorem processKill_member {observed : Observed}
    (other : ∀ succeeded, observed ≠ .kill succeeded) :
    observed ∈ (processKill s killed).history ↔ observed ∈ s.history := by
  unfold processKill
  grind

end ProcessKill

section ScheduleFinish

@[simp] theorem scheduleFinish_pid : (scheduleFinish s).data.pid = s.data.pid := by
  unfold scheduleFinish
  split <;> rfl

@[simp] theorem scheduleFinish_timeout :
    (scheduleFinish s).data.timeoutHandlerId = s.data.timeoutHandlerId := by
  unfold scheduleFinish
  split <;> rfl

@[simp] theorem scheduleFinish_timeoutCallback :
    (scheduleFinish s).data.timeoutCallback = s.data.timeoutCallback := by
  unfold scheduleFinish
  split <;> rfl

@[simp] theorem scheduleFinish_maxTime :
    (scheduleFinish s).data.maxTime = s.data.maxTime := by
  unfold scheduleFinish
  split <;> rfl

@[simp] theorem scheduleFinish_fdOut : (scheduleFinish s).data.fdOut = s.data.fdOut := by
  unfold scheduleFinish
  split <;> rfl

@[simp] theorem scheduleFinish_pidHandlerId :
    (scheduleFinish s).data.pidHandlerId = s.data.pidHandlerId := by
  unfold scheduleFinish
  split <;> rfl

@[simp] theorem scheduleFinish_io :
    (scheduleFinish s).data.ioHandlerId = s.data.ioHandlerId := by
  unfold scheduleFinish
  split <;> rfl

@[simp] theorem scheduleFinish_history : (scheduleFinish s).history = s.history := by
  unfold scheduleFinish
  split <;> rfl

private theorem scheduleFinish_scheduled : (scheduleFinish s).data.finishHandlerId ≠ 0 := by
  unfold scheduleFinish
  split
  · exact MainLoop.next_ne_zero
  · assumption

theorem scheduleFinish_sources {entry : Nat × Source} (other : entry.2 ≠ .processPidFinish) :
    entry ∈ (scheduleFinish s).loop.sources ↔ entry ∈ s.loop.sources := by
  unfold scheduleFinish
  split
  · rw [MainLoop.mem_add, or_iff_left]
    rintro rfl
    exact other rfl
  · rfl

/-- The dispatched source can be removed before the idle source is added. -/
theorem release_scheduleFinish {id : Nat} (old : id ≠ s.loop.next) :
    release id false (scheduleFinish s) = scheduleFinish (release id false s) := by
  simp only [release, scheduleFinish, Bool.false_eq_true, ↓reduceIte]
  split <;> simp [MainLoop.remove_add old]

end ScheduleFinish

section ProcessCancelledCb
variable {killed : Bool}

@[simp] theorem processCancelledCb_pid :
    (processCancelledCb s killed).data.pid = s.data.pid := by
  unfold processCancelledCb
  dsimp only
  split <;> simp

@[simp] theorem processCancelledCb_fdOut :
    (processCancelledCb s killed).data.fdOut = s.data.fdOut := by
  unfold processCancelledCb
  dsimp only
  split <;> simp

@[simp] theorem processCancelledCb_io :
    (processCancelledCb s killed).data.ioHandlerId = s.data.ioHandlerId := by
  unfold processCancelledCb
  dsimp only
  split <;> simp

@[simp] theorem processCancelledCb_finish :
    (processCancelledCb s killed).data.finishHandlerId = s.data.finishHandlerId := by
  unfold processCancelledCb
  dsimp only
  split <;> simp

@[simp] theorem processCancelledCb_maxTime :
    (processCancelledCb s killed).data.maxTime = s.data.maxTime := by
  unfold processCancelledCb
  dsimp only
  split <;> simp

@[simp] theorem processCancelledCb_timeoutCallback :
    (processCancelledCb s killed).data.timeoutCallback = s.data.timeoutCallback := by
  unfold processCancelledCb
  dsimp only
  split <;> simp

/-- The cancellation leaves no timer. -/
@[simp] theorem processCancelledCb_timeout :
    (processCancelledCb s killed).data.timeoutHandlerId = 0 := by
  unfold processCancelledCb
  dsimp only
  split
  · rfl
  · rename_i unarmed
    exact not_not.mp unarmed

@[simp] theorem processCancelledCb_pidHandlerId :
    (processCancelledCb s killed).data.pidHandlerId =
      (processKill s killed).data.pidHandlerId := by
  unfold processCancelledCb
  dsimp only
  split <;> rfl

@[simp] theorem processCancelledCb_history :
    (processCancelledCb s killed).history = (processKill s killed).history := by
  unfold processCancelledCb
  dsimp only
  split <;> rfl

end ProcessCancelledCb

section ProcessTimeoutCallback
variable {remaining : Nat} {killed : Bool}

@[simp] theorem processTimeoutCallback_pid :
    (processTimeoutCallback s remaining killed).1.data.pid = s.data.pid := by
  unfold processTimeoutCallback
  grind [processKill_pid]

@[simp] theorem processTimeoutCallback_fdOut :
    (processTimeoutCallback s remaining killed).1.data.fdOut = s.data.fdOut := by
  unfold processTimeoutCallback
  grind [processKill_fdOut]

@[simp] theorem processTimeoutCallback_timeoutCallback :
    (processTimeoutCallback s remaining killed).1.data.timeoutCallback =
      s.data.timeoutCallback := by
  unfold processTimeoutCallback
  grind [processKill_timeoutCallback]

@[simp] theorem processTimeoutCallback_finishes :
    finishes (processTimeoutCallback s remaining killed).1.history = finishes s.history := by
  unfold processTimeoutCallback
  grind [processKill_finishes]

end ProcessTimeoutCallback

section ProcessPidFinish

@[simp] theorem processPidFinish_pid : (processPidFinish s).data.pid = s.data.pid := by
  unfold processPidFinish processFree
  grind

@[simp] theorem processPidFinish_fdOut : (processPidFinish s).data.fdOut = s.data.fdOut := by
  unfold processPidFinish processFree
  grind

@[simp] theorem processPidFinish_timeoutCallback :
    (processPidFinish s).data.timeoutCallback = s.data.timeoutCallback := by
  unfold processPidFinish processFree
  grind

@[simp] theorem processPidFinish_maxTime :
    (processPidFinish s).data.maxTime = s.data.maxTime := by
  unfold processPidFinish processFree
  grind

/-- With both joins made no timer is left. -/
theorem processPidFinish_timeout (reaped : s.data.pid = 0) (ended : s.data.ioHandlerId = 0) :
    (processPidFinish s).data.timeoutHandlerId = 0 := by
  unfold processPidFinish processFree
  grind

end ProcessPidFinish

section Release
variable {id : Nat} {keep : Bool}

@[simp] theorem release_data : (release id keep s).data = s.data := by
  unfold release
  split <;> rfl

@[simp] theorem release_history : (release id keep s).history = s.history := by
  unfold release
  split <;> rfl

end Release

/-! ## One step -/

/-- What an event needs and what it makes of the process. -/
inductive Dispatches (s : Run) : Event → Run → Prop where
  | childExit {id : Nat} {status : Int} (held : (id, .processPidCallback) ∈ s.loop.sources) :
      Dispatches s (.childExit id status) (release id false (processPidCallback s status))
  | output {id : Nat} (held : (id, .processIoCb) ∈ s.loop.sources) :
      Dispatches s (.output id true) s
  | outputEnd {id : Nat} (held : (id, .processIoCb) ∈ s.loop.sources) :
      Dispatches s (.output id false) (processIoFinish (release id false s))
  | timeout {id remaining seconds : Nat} {killed : Bool}
      (held : (id, .processTimeoutCallback seconds) ∈ s.loop.sources) :
      Dispatches s (.timeout id remaining killed)
        (release id (processTimeoutCallback s remaining killed).2
          (processTimeoutCallback s remaining killed).1)
  | early {id : Nat} (held : (id, .processPidFinish) ∈ s.loop.sources)
      (waiting : s.data.pid ≠ 0 ∨ s.data.ioHandlerId ≠ 0) :
      Dispatches s (.idle id)
        (release id false { s with data := { s.data with finishHandlerId := 0 } })
  | finish {id : Nat} (held : (id, .processPidFinish) ∈ s.loop.sources)
      (reaped : s.data.pid = 0) (ended : s.data.ioHandlerId = 0) :
      Dispatches s (.idle id) (release id false (processPidFinish s))
  | cancel {killed : Bool} (connected : s.data.cancelHandler = true) :
      Dispatches s (.cancel killed) (processCancelledCb s killed)
  | unconnected {killed : Bool} (unconnected : s.data.cancelHandler = false) :
      Dispatches s (.cancel killed) s

/-- The cases of a step. Everything below about single steps starts from them. -/
theorem step_dispatches (stepped : step s e = some t) : Dispatches s e t := by
  cases e with
  | childExit id status =>
    simp only [step] at stepped
    split at stepped
    · rename_i found
      cases stepped
      exact .childExit (MainLoop.find?_eq_some.mp found)
    · cases stepped
  | output id keep =>
    simp only [step] at stepped
    split at stepped
    · rename_i found
      cases stepped
      cases keep with
      | true => exact .output (MainLoop.find?_eq_some.mp found)
      | false => exact .outputEnd (MainLoop.find?_eq_some.mp found)
    · cases stepped
  | timeout id remaining killed =>
    simp only [step] at stepped
    split at stepped
    · rename_i seconds found
      cases stepped
      exact .timeout (MainLoop.find?_eq_some.mp found)
    · cases stepped
  | idle id =>
    simp only [step] at stepped
    split at stepped
    · rename_i found
      have held := MainLoop.find?_eq_some.mp found
      cases stepped
      by_cases waiting : s.data.pid ≠ 0 ∨ s.data.ioHandlerId ≠ 0
      · have early := Dispatches.early held waiting
        simpa only [processPidFinish, waiting, ↓reduceIte] using early
      · simp only [not_or, not_not] at waiting
        exact .finish held waiting.1 waiting.2
    · cases stepped
  | cancel killed =>
    cases stepped
    split
    · rename_i connected
      exact .cancel connected
    · rename_i unconnected
      exact .unconnected (by simpa using unconnected)

/-- An unfinished process: the history records what its two joins wait for,
and once nothing is left to wait for the idle source is there. -/
structure Open (io : Bool) (s : Run) : Prop where
  watched : Watched s
  unfinished : finishes s.history = []
  reaped : s.data.pid = 0 ↔ ∃ status, .reaped status ∈ s.history
  ended : s.data.ioHandlerId = 0 ↔ (io = true → .outputEnded ∈ s.history)
  scheduled : s.data.pid = 0 → s.data.ioHandlerId = 0 → s.data.finishHandlerId ≠ 0

/-- A finished process: both joins came first, and nothing is left that could
call back into the freed data. -/
structure Closed (io : Bool) (s : Run) : Prop where
  called : ∃ before pidResult localwatchdog error,
    s.history = before ++ [.finished pidResult localwatchdog error] ∧ finishes before = [] ∧
      (∃ status, .reaped status ∈ before) ∧ (io = true → .outputEnded ∈ before)
  dead : s.data.pid = 0
  detached : s.loop.sources = []
  disconnected : s.data.cancelHandler = false

variable {io : Bool} {id : Nat}

/-- A step that leaves the history, the pid and the idle and output ids alone
keeps the process open. -/
theorem Open.quiet (opened : Open io s) (watched : Watched t)
    (finished : finishes t.history = finishes s.history)
    (kept : ∀ observed, (∀ succeeded, observed ≠ .kill succeeded) →
      (observed ∈ t.history ↔ observed ∈ s.history))
    (pid : t.data.pid = s.data.pid) (ioId : t.data.ioHandlerId = s.data.ioHandlerId)
    (finishId : t.data.finishHandlerId = s.data.finishHandlerId) : Open io t where
  watched := watched
  unfinished := finished.trans opened.unfinished
  reaped := by
    simp only [pid, opened.reaped]
    exact exists_congr fun status => (kept (.reaped status) (by simp)).symm
  ended := by rw [ioId, opened.ended, kept .outputEnded (by simp)]
  scheduled := by rw [pid, ioId, finishId]; exact opened.scheduled

private theorem childExit_open {status : Int} (opened : Open io s)
    (held : (id, .processPidCallback) ∈ s.loop.sources) :
    Open io (release id false (processPidCallback s status)) := by
  have watched := opened.watched
  have old : id ≠ s.loop.next := Nat.ne_of_lt (s.loop.below _ held)
  unfold processPidCallback
  rw [release_scheduleFinish (by exact old)]
  refine ⟨scheduleFinish_watched ⟨?_, ?_, ?_, ?_⟩, by simpa [release] using opened.unfinished,
    by simp [release], by simpa [release] using opened.ended,
    fun _ _ => scheduleFinish_scheduled⟩ <;> intro i
  · simp only [release, Bool.false_eq_true, ↓reduceIte, MainLoop.mem_remove, watched.pid]
    have same := ((watched.pid id).mp held).2.1
    constructor
    · rintro ⟨⟨-, rfl, -⟩, other⟩
      exact absurd same other
    · rintro ⟨alive, -⟩
      exact absurd rfl alive
  · simpa [release, MainLoop.mem_remove_other held] using watched.io i
  · simpa [release, MainLoop.mem_remove_other held] using watched.timeout i
  · simpa [release, MainLoop.mem_remove_other held] using watched.finish i

private theorem outputEnd_open (opened : Open io s) (held : (id, .processIoCb) ∈ s.loop.sources) :
    Open io (processIoFinish (release id false s)) := by
  have watched := opened.watched
  unfold processIoFinish
  refine ⟨scheduleFinish_watched ⟨?_, ?_, ?_, ?_⟩, by simpa [release] using opened.unfinished,
    by simpa [release] using opened.reaped, by simp [release],
    fun _ _ => scheduleFinish_scheduled⟩ <;> intro i
  · simpa [release, MainLoop.mem_remove_other held] using watched.pid i
  · simp only [release, Bool.false_eq_true, ↓reduceIte, MainLoop.mem_remove, watched.io]
    have same := ((watched.io id).mp held).1
    constructor
    · rintro ⟨⟨rfl, -⟩, other⟩
      exact absurd same other
    · rintro ⟨rfl, nonzero⟩
      exact absurd rfl nonzero
  · simpa [release, MainLoop.mem_remove_other held] using watched.timeout i
  · simpa [release, MainLoop.mem_remove_other held] using watched.finish i

/-- The timer under this id is the armed one. -/
theorem Watched.timer {seconds : Nat} (watched : Watched s)
    (held : (id, .processTimeoutCallback seconds) ∈ s.loop.sources) :
    s.data.timeoutHandlerId = id ∧ id ≠ 0 :=
  (watched.timeout id).mp ⟨seconds, held⟩

/-- The timer fires once more and is gone. -/
theorem spent_watched {seconds : Nat} (watched : Watched s)
    (held : (id, .processTimeoutCallback seconds) ∈ s.loop.sources) :
    Watched { s with
      data := { s.data with timeoutHandlerId := 0 }, loop := s.loop.remove id } := by
  obtain ⟨rfl, armed⟩ := watched.timer held
  exact removeTimeout_watched watched armed

private theorem timeout_open {seconds : Nat} (remaining : Nat) (killed : Bool) (opened : Open io s)
    (held : (id, .processTimeoutCallback seconds) ∈ s.loop.sources) :
    Open io (release id (processTimeoutCallback s remaining killed).2
      (processTimeoutCallback s remaining killed).1) := by
  have watched := opened.watched
  have spent := spent_watched watched held
  have old : id ≠ s.loop.next := Nat.ne_of_lt (s.loop.below _ held)
  unfold processTimeoutCallback
  split
  · exact opened.quiet spent rfl (fun _ _ => Iff.rfl) rfl rfl rfl
  dsimp only
  split
  · split
    · refine opened.quiet ?_ rfl (fun _ _ => Iff.rfl) rfl rfl rfl
      simp only [release, Bool.false_eq_true, ↓reduceIte, MainLoop.remove_add old]
      exact (addTimeout_watched spent rfl).congr rfl rfl rfl rfl rfl rfl
    · exact opened.quiet (watched.congr rfl rfl rfl rfl rfl rfl) rfl (fun _ _ => Iff.rfl) rfl rfl rfl
  · refine opened.quiet ?_ (by simp [release]) ?_ (by simp [release]) (by simp [release])
      (by simp [release])
    · simp only [release, Bool.false_eq_true, ↓reduceIte]
      have killedWatched : Watched (processKill
          { s with data := { s.data with maxTime := timeLeft s.data remaining } } killed) :=
        processKill_watched (watched.congr rfl rfl rfl rfl rfl rfl)
      obtain ⟨same, armed⟩ := watched.timer held
      subst same
      have removed := removeTimeout_watched killedWatched (by simpa using armed)
      simpa using removed
    · intro observed other
      simp [release, processKill_member other]

private theorem cancel_open {killed : Bool} (opened : Open io s) :
    Open io (processCancelledCb s killed) := by
  refine opened.quiet (processCancelledCb_watched opened.watched) (by simp) ?_ (by simp) (by simp)
    (by simp)
  intro observed other
  rw [processCancelledCb_history, processKill_member other]

/-- An idle source that comes too early only clears its id. -/
theorem early_open (opened : Open io s) (held : (id, .processPidFinish) ∈ s.loop.sources)
    (waiting : s.data.pid ≠ 0 ∨ s.data.ioHandlerId ≠ 0) :
    Open io (release id false { s with data := { s.data with finishHandlerId := 0 } }) := by
  have watched := opened.watched
  refine ⟨⟨?_, ?_, ?_, ?_⟩, opened.unfinished, opened.reaped, opened.ended, ?_⟩
  · simpa [release, MainLoop.mem_remove_other held] using watched.pid
  · simpa [release, MainLoop.mem_remove_other held] using watched.io
  · simpa [release, MainLoop.mem_remove_other held] using watched.timeout
  · intro i
    simp only [release, Bool.false_eq_true, ↓reduceIte, MainLoop.mem_remove, watched.finish]
    have same := ((watched.finish id).mp held).1
    constructor
    · rintro ⟨⟨rfl, -⟩, other⟩
      exact absurd same other
    · rintro ⟨rfl, nonzero⟩
      exact absurd rfl nonzero
  · intro reaped ended
    rcases waiting with alive | watching
    · exact absurd reaped alive
    · exact absurd ended watching

/-- 0 is the id of no source. -/
theorem Watched.nonzero {source : Source} (watched : Watched s)
    (held : (id, source) ∈ s.loop.sources) : id ≠ 0 := by
  cases source with
  | processPidCallback => exact ((watched.pid id).mp held).2.2
  | processIoCb => exact ((watched.io id).mp held).2
  | processTimeoutCallback seconds => exact (watched.timer held).2
  | processPidFinish => exact ((watched.finish id).mp held).2

/-- With both joins made only the timer and this idle source are left, and
both are removed. -/
theorem close_detached (watched : Watched s) (held : (id, .processPidFinish) ∈ s.loop.sources)
    (reaped : s.data.pid = 0) (ended : s.data.ioHandlerId = 0) :
    (release id false (processPidFinish s)).loop.sources = [] := by
  have joined : ¬(s.data.pid ≠ 0 ∨ s.data.ioHandlerId ≠ 0) := by simp [reaped, ended]
  rw [List.eq_nil_iff_forall_not_mem]
  rintro ⟨i, source⟩ member
  have left : (i, source) ∈ s.loop.sources ∧ i ≠ id ∧ i ≠ s.data.timeoutHandlerId := by
    simp only [processPidFinish, joined, ↓reduceIte, processFree, release, Bool.false_eq_true,
      MainLoop.mem_remove] at member
    split at member
    · rw [MainLoop.mem_remove] at member
      exact ⟨member.1.1, member.2, member.1.2⟩
    · rename_i unarmed
      have unarmed := not_not.mp unarmed
      exact ⟨member.1, member.2, by rw [unarmed]; exact watched.nonzero member.1⟩
  obtain ⟨attached, other, untimed⟩ := left
  cases source with
  | processPidCallback => exact ((watched.pid i).mp attached).1 reaped
  | processIoCb =>
    have same := (watched.io i).mp attached
    exact same.2 (same.1.symm.trans ended)
  | processTimeoutCallback seconds => exact untimed (watched.timer attached).1.symm
  | processPidFinish =>
    have these := (watched.finish i).mp attached
    have dispatched := (watched.finish id).mp held
    exact other (these.1.symm.trans dispatched.1)

private theorem close_closed (opened : Open io s) (held : (id, .processPidFinish) ∈ s.loop.sources)
    (reaped : s.data.pid = 0) (ended : s.data.ioHandlerId = 0) :
    Closed io (release id false (processPidFinish s)) := by
  have joined : ¬(s.data.pid ≠ 0 ∨ s.data.ioHandlerId ≠ 0) := by simp [reaped, ended]
  refine ⟨⟨s.history, s.data.pidResult, s.data.localwatchdog, s.data.error, ?_,
    opened.unfinished, opened.reaped.mp reaped, opened.ended.mp ended⟩,
    ?_, close_detached opened.watched held reaped ended, ?_⟩
  · simp only [processPidFinish, joined, ↓reduceIte, processFree, release, Bool.false_eq_true]
    split <;> rfl
  · simp only [processPidFinish, joined, ↓reduceIte, processFree, release, Bool.false_eq_true]
    split <;> exact reaped
  · simp [processPidFinish, joined, processFree, release]

/-- A process that was started properly is unfinished, or finished for good. -/
def Sound (io : Bool) (s : Run) : Prop := Open io s ∨ Closed io s

theorem open_step (opened : Open io s) (stepped : step s e = some t) : Sound io t := by
  cases step_dispatches stepped with
  | childExit held => exact .inl (childExit_open opened held)
  | output => exact .inl opened
  | outputEnd held => exact .inl (outputEnd_open opened held)
  | timeout held => exact .inl (timeout_open _ _ opened held)
  | early held waiting => exact .inl (early_open opened held waiting)
  | finish held reaped ended => exact .inr (close_closed opened held reaped ended)
  | cancel => exact .inl (cancel_open opened)
  | unconnected => exact .inl opened

/-- Nothing happens to a finished process any more. -/
theorem closed_step (closed : Closed io s) (stepped : step s e = some t) : t = s := by
  have nothing : ∀ id, s.loop.find? id = none := by
    intro id
    simp [MainLoop.find?, closed.detached]
  cases e with
  | cancel killed => simpa [step, closed.disconnected] using stepped.symm
  | _ => simp [step, nothing] at stepped

theorem step_sound (s : Run) (e : Event) (t : Run) (sound : Sound io s)
    (stepped : step s e = some t) : Sound io t := by
  rcases sound with opened | closed
  · exact open_step opened stepped
  · exact .inr (closed_step closed stepped ▸ closed)

theorem childExit_data {status : Int} (stepped : step s (.childExit id status) = some t) :
    t.data.pid = 0 ∧ t.data.fdOut = false := by
  cases step_dispatches stepped with
  | childExit => simp [processPidCallback]

/-- Only the child exit changes the pid, and nothing opens the descriptor again. -/
theorem step_data (stepped : step s e = some t) (other : ∀ id status, e ≠ .childExit id status) :
    t.data.pid = s.data.pid ∧ (s.data.fdOut = false → t.data.fdOut = false) := by
  cases step_dispatches stepped with
  | childExit => exact absurd rfl (other _ _)
  | outputEnd => simp [processIoFinish]
  | _ => simp

/-! ## The process that never finishes -/

/-- The child is not reaped and nothing watches it. -/
structure Orphaned (s : Run) : Prop where
  unreaped : s.data.pid ≠ 0
  unwatched : ∀ id, (id, .processPidCallback) ∉ s.loop.sources
  unfinished : finishes s.history = []

private theorem processKill_orphaned {killed : Bool} (orphaned : Orphaned s) :
    Orphaned (processKill s killed) := by
  refine ⟨by simpa using orphaned.unreaped, ?_, by simpa using orphaned.unfinished⟩
  intro id member
  unfold processKill at member
  have held := orphaned.unwatched id
  grind [MainLoop.mem_remove]

private theorem remove_orphaned {data : ProcessData} (orphaned : Orphaned s)
    (same : data.pid = s.data.pid) :
    Orphaned { s with data := data, loop := s.loop.remove id } := by
  refine ⟨by simpa [same] using orphaned.unreaped, ?_, orphaned.unfinished⟩
  intro i member
  exact orphaned.unwatched i (MainLoop.mem_remove.mp member).1

private theorem cancel_orphaned {killed : Bool} (orphaned : Orphaned s) :
    Orphaned (processCancelledCb s killed) := by
  unfold processCancelledCb
  dsimp only
  split
  · exact remove_orphaned (processKill_orphaned orphaned) rfl
  · exact processKill_orphaned orphaned

private theorem timeout_orphaned {remaining : Nat} {killed : Bool} (orphaned : Orphaned s) :
    Orphaned (release id (processTimeoutCallback s remaining killed).2
      (processTimeoutCallback s remaining killed).1) := by
  unfold processTimeoutCallback
  have alive := orphaned.unreaped
  simp only [alive, ↓reduceIte]
  split
  · split
    · refine ⟨alive, ?_, orphaned.unfinished⟩
      intro i member
      have added := (MainLoop.mem_remove.mp member).1
      rw [MainLoop.mem_add] at added
      rcases added with old | new
      · exact orphaned.unwatched i old
      · cases new
    · exact ⟨alive, orphaned.unwatched, orphaned.unfinished⟩
  · have kept : Orphaned { s with data := { s.data with
        maxTime := timeLeft s.data remaining } } :=
      ⟨alive, orphaned.unwatched, orphaned.unfinished⟩
    have tried := @processKill_orphaned _ killed kept
    exact ⟨tried.unreaped, fun i member => tried.unwatched i (MainLoop.mem_remove.mp member).1,
      tried.unfinished⟩

private theorem scheduleFinish_orphaned (orphaned : Orphaned s) : Orphaned (scheduleFinish s) := by
  refine ⟨by simpa using orphaned.unreaped, ?_, by simpa using orphaned.unfinished⟩
  intro id member
  exact orphaned.unwatched id ((scheduleFinish_sources (by simp)).mp member)

private theorem outputEnd_orphaned (orphaned : Orphaned s) :
    Orphaned (processIoFinish (release id false s)) := by
  have removed : Orphaned (release id false s) := remove_orphaned orphaned rfl
  exact scheduleFinish_orphaned
    ⟨removed.unreaped, removed.unwatched, by simpa using removed.unfinished⟩

/-- Nothing brings an orphaned process back. -/
theorem step_orphaned (s : Run) (e : Event) (t : Run) (orphaned : Orphaned s)
    (stepped : step s e = some t) : Orphaned t := by
  cases step_dispatches stepped with
  | childExit held => exact absurd held (orphaned.unwatched _)
  | output => exact orphaned
  | outputEnd => exact outputEnd_orphaned orphaned
  | timeout => exact timeout_orphaned orphaned
  | early =>
    have cleared : Orphaned { s with data := { s.data with finishHandlerId := 0 } } :=
      ⟨orphaned.unreaped, orphaned.unwatched, orphaned.unfinished⟩
    exact remove_orphaned cleared rfl
  | finish held reaped => exact absurd reaped orphaned.unreaped
  | cancel => exact cancel_orphaned orphaned
  | unconnected => exact orphaned

theorem Open.orphaned (opened : Open io s) (alive : s.data.pid ≠ 0)
    (unarmed : s.data.pidHandlerId = 0) : Orphaned s := by
  refine ⟨alive, ?_, opened.unfinished⟩
  intro id member
  have these := (opened.watched.pid id).mp member
  exact these.2.2 (these.2.1.symm.trans unarmed)

/-- A failed `kill` of a watched child orphans it. -/
theorem unspared_orphaned (opened : Open io s) (stepped : step s e = some t)
    (unspared : ¬spares s e) : Orphaned t := by
  simp only [spares, Classical.not_imp] at unspared
  obtain ⟨failed, -⟩ := unspared
  cases step_dispatches stepped with
  | timeout held =>
    simp only [attempt, Option.ite_none_right_eq_some, Option.some.injEq] at failed
    obtain ⟨⟨alive, expired⟩, rfl⟩ := failed
    refine (timeout_open _ false opened held).orphaned (by simpa using alive) ?_
    simp [processTimeoutCallback, alive, expired, processKill_pidHandlerId]
  | cancel =>
    simp only [attempt, Option.ite_none_right_eq_some, Option.some.injEq] at failed
    obtain ⟨⟨connected, alive⟩, rfl⟩ := failed
    refine (cancel_open opened).orphaned (by simpa using alive) ?_
    simp [processKill_pidHandlerId, alive]
  | unconnected unconnected => simp [attempt, unconnected] at failed
  | _ => simp [attempt] at failed

theorem unspared_falls (s : Run) (e : Event) (t : Run) (sound : Sound io s)
    (stepped : step s e = some t) (unspared : ¬spares s e) : Orphaned t := by
  rcases sound with opened | closed
  · exact unspared_orphaned opened stepped unspared
  · have dead := closed.dead
    cases e <;> simp [spares, attempt, dead] at unspared

/-- A child that is not reaped is watched. -/
def Armed (s : Run) : Prop := s.data.pid ≠ 0 → s.data.pidHandlerId ≠ 0

private theorem kill_armed {killed : Bool} (armed : Armed s)
    (spared : s.data.pid ≠ 0 → killed = false → s.data.pidHandlerId = 0) :
    Armed (processKill s killed) := by
  intro alive
  rw [processKill_pid] at alive
  rw [processKill_pidHandlerId]
  split
  · rename_i failed
    exact absurd (spared alive failed.2) (armed alive)
  · exact armed alive

private theorem timeout_armed {remaining : Nat} {killed : Bool} (armed : Armed s)
    (spared : spares s (.timeout id remaining killed)) :
    Armed (release id (processTimeoutCallback s remaining killed).2
      (processTimeoutCallback s remaining killed).1) := by
  unfold processTimeoutCallback
  split
  · rename_i reaped
    exact fun alive => absurd reaped alive
  rename_i alive
  dsimp only
  split
  · split <;> exact armed
  · rename_i left
    apply @kill_armed _ killed (by exact armed)
    rintro - rfl
    exact spared (by simp only [attempt]; rw [if_pos ⟨alive, by omega⟩])

theorem step_armed (s : Run) (e : Event) (t : Run) (armed : Armed s)
    (stepped : only step spares s e = some t) : Armed t := by
  obtain ⟨spared, stepped⟩ := only_eq_some.mp stepped
  cases step_dispatches stepped with
  | childExit =>
    intro alive
    simp [processPidCallback] at alive
  | output => exact armed
  | outputEnd =>
    intro alive
    simp only [processIoFinish, scheduleFinish_pid, scheduleFinish_pidHandlerId] at alive ⊢
    exact armed alive
  | timeout => exact timeout_armed armed spared
  | early => exact armed
  | finish held reaped =>
    intro alive
    simp only [release_data, processPidFinish_pid] at alive
    exact absurd reaped alive
  | @cancel killed connected =>
    have kept : Armed (processKill s killed) := by
      apply kill_armed armed
      rintro alive rfl
      exact spared (by simp [attempt, connected, alive])
    intro alive
    rw [processCancelledCb_pid] at alive
    rw [processCancelledCb_pidHandlerId]
    exact kept (by simpa using alive)
  | unconnected => exact armed

/-! ## `process_run` -/

theorem processRun_unforked (failed : launch.pid < 0) : Orphaned (processRun launch) := by
  refine ⟨by simpa [processRun, failed, forked] using launch.parent, ?_,
    by simp [processRun, failed, finishes]⟩
  intro id member
  simp [processRun, failed] at member

/-- What holds before anything is attached. -/
theorem forked_watched : Watched { data := forked launch, loop := .empty, history := [] } := by
  refine ⟨?_, ?_, ?_, ?_⟩ <;> intro id <;> simp only [forked, MainLoop.sources_empty] <;> grind

/-- Connecting the cancellable attaches nothing; it may have killed the child. -/
theorem connectCancellable_forked (launch : Launch) :
    ∃ (kills : List Bool) (localwatchdog : Bool), connectCancellable launch
        { data := forked launch, loop := .empty, history := [] } =
      { data := { forked launch with
          localwatchdog := localwatchdog, cancelHandler := launch.cancellable == some false }
        loop := .empty, history := kills.map .kill } := by
  cases cancellable : launch.cancellable with
  | none => exact ⟨[], false, by simp [connectCancellable, cancellable, forked]⟩
  | some cancelled =>
    cases cancelled with
    | false => exact ⟨[], false, by simp [connectCancellable, cancellable, forked]⟩
    | true =>
      refine ⟨[launch.killed], launch.killed, ?_⟩
      cases killed : launch.killed <;>
        simp [connectCancellable, cancellable, processCancelledCb, processKill, forked,
          launch.parent, killed]

private theorem armTimeout_watched (watched : Watched s) (unarmed : s.data.timeoutHandlerId = 0) :
    Watched (armTimeout s) := by
  unfold armTimeout
  split
  · exact addTimeout_watched watched unarmed
  · exact watched

private theorem watchIo_watched (watched : Watched s) (unwatched : s.data.ioHandlerId = 0) :
    Watched (watchIo s) := by
  refine ⟨by simpa [watchIo] using watched.pid, ?_, by simpa [watchIo] using watched.timeout,
    by simpa [watchIo] using watched.finish⟩
  intro id
  have absent : (id, Source.processIoCb) ∉ s.loop.sources := by
    rw [watched.io, unwatched]
    rintro ⟨rfl, nonzero⟩
    exact nonzero rfl
  simp only [watchIo, MainLoop.mem_add, absent, false_or, Prod.mk.injEq, and_true]
  constructor
  · rintro rfl
    exact ⟨rfl, MainLoop.next_ne_zero⟩
  · rintro ⟨rfl, -⟩
    rfl

private theorem watchPid_watched (watched : Watched s) (alive : s.data.pid ≠ 0)
    (unwatched : s.data.pidHandlerId = 0) : Watched (watchPid s) := by
  refine ⟨?_, by simpa [watchPid] using watched.io, by simpa [watchPid] using watched.timeout,
    by simpa [watchPid] using watched.finish⟩
  intro id
  have absent : (id, Source.processPidCallback) ∉ s.loop.sources := by
    rw [watched.pid, unwatched]
    rintro ⟨-, rfl, nonzero⟩
    exact nonzero rfl
  simp only [watchPid, MainLoop.mem_add, absent, false_or, Prod.mk.injEq, and_true]
  constructor
  · rintro rfl
    exact ⟨alive, rfl, MainLoop.next_ne_zero⟩
  · rintro ⟨-, rfl, -⟩
    rfl

private theorem finishes_kills (kills : List Bool) : finishes (kills.map .kill) = [] := by
  simp [finishes]

@[simp] theorem armTimeout_pid : (armTimeout s).data.pid = s.data.pid := by
  unfold armTimeout
  split <;> rfl

@[simp] theorem armTimeout_io : (armTimeout s).data.ioHandlerId = s.data.ioHandlerId := by
  unfold armTimeout
  split <;> rfl

@[simp] theorem armTimeout_pidHandlerId :
    (armTimeout s).data.pidHandlerId = s.data.pidHandlerId := by
  unfold armTimeout
  split <;> rfl

@[simp] theorem armTimeout_history : (armTimeout s).history = s.history := by
  unfold armTimeout
  split <;> rfl

/-- Watching the output and the child of a process that has done nothing yet. -/
theorem watch_open {kills : List Bool} (watched : Watched s) (alive : s.data.pid ≠ 0)
    (ioId : s.data.ioHandlerId = 0) (pidId : s.data.pidHandlerId = 0)
    (history : s.history = kills.map .kill) :
    Open io (watchPid (if io then watchIo s else s)) ∧
      Armed (watchPid (if io then watchIo s else s)) := by
  cases io with
  | true =>
    have both := watchPid_watched (watchIo_watched watched ioId) alive pidId
    refine ⟨⟨both, by simpa [watchPid, watchIo, history] using finishes_kills kills, ?_, ?_, ?_⟩,
      fun _ => MainLoop.next_ne_zero⟩
    · simp [watchPid, watchIo, alive, history]
    · simp [watchPid, watchIo, history, MainLoop.next_ne_zero]
    · simp [watchPid, watchIo, alive]
  | false =>
    refine ⟨⟨watchPid_watched watched alive pidId,
      by simpa [watchPid, history] using finishes_kills kills, ?_, ?_, ?_⟩,
      fun _ => MainLoop.next_ne_zero⟩
    · simp [watchPid, alive, history]
    · simp [watchPid, ioId]
    · simp [watchPid, alive]

/-- A forked process starts open, with its child watched. -/
theorem processRun_open (parent : 0 < launch.pid) :
    Open launch.ioCallback (processRun launch) ∧ Armed (processRun launch) := by
  obtain ⟨kills, localwatchdog, connected⟩ := connectCancellable_forked launch
  have notFailed : ¬launch.pid < 0 := by omega
  unfold processRun
  dsimp only
  rw [if_neg notFailed, connected]
  refine watch_open (Watched.congr (armTimeout_watched ?_ ?_) rfl rfl rfl rfl rfl rfl) ?_ ?_ ?_
    (armTimeout_history (s := _))
  · exact forked_watched.congr rfl rfl rfl rfl rfl rfl
  · rfl
  · simpa [forked] using launch.parent
  · simp [forked]
  · simp [forked]

theorem processRun_pid (parent : 0 < launch.pid) : (processRun launch).data.pid ≠ 0 := by
  obtain ⟨kills, localwatchdog, connected⟩ := connectCancellable_forked launch
  have notFailed : ¬launch.pid < 0 := by omega
  unfold processRun
  dsimp only
  rw [if_neg notFailed, connected]
  split <;> simpa [watchPid, watchIo, forked] using launch.parent

/-! ## The theorem -/

theorem Open.attached (opened : Open io s) (armed : Armed s) : s.loop.sources ≠ [] := by
  intro none
  have absent : ∀ entry, entry ∉ s.loop.sources := by simp [none]
  have watched := opened.watched
  have ended : s.data.ioHandlerId = 0 := by
    by_contra watching
    exact absent _ ((watched.io _).mpr ⟨rfl, watching⟩)
  have reaped : s.data.pid = 0 := by
    by_contra alive
    exact absent _ ((watched.pid _).mpr ⟨alive, rfl, armed alive⟩)
  have scheduled := opened.scheduled reaped ended
  exact absent _ ((watched.finish _).mpr ⟨rfl, scheduled⟩)

/-- A closed process finished once, and both joins came before. -/
theorem Closed.once (closed : Closed io s) : (finishes s.history).length = 1 := by
  obtain ⟨before, pidResult, localwatchdog, error, history, unfinished, -⟩ := closed.called
  simp [history, unfinished]

theorem Closed.joined (closed : Closed io s) {before after : List Observed} {pidResult : Int}
    {localwatchdog : Bool} {error : Option String}
    (history : s.history = before ++ .finished pidResult localwatchdog error :: after) :
    (∃ status, .reaped status ∈ before) ∧ (io = true → .outputEnded ∈ before) := by
  obtain ⟨before', pidResult', localwatchdog', error', called, unfinished, reaped, ended⟩ :=
    closed.called
  rw [called] at history
  rcases List.append_eq_append_iff.mp history with ⟨more, rfl, rest⟩ | ⟨more, rfl, rest⟩
  · exact ⟨reaped.imp fun status member => List.mem_append_left _ member,
      fun watched => List.mem_append_left _ (ended watched)⟩
  · cases more with
    | nil =>
      rw [List.append_nil] at reaped ended
      exact ⟨reaped, ended⟩
    | cons first more =>
      simp only [List.cons_append, List.cons.injEq] at rest
      rw [← rest.1] at unfinished
      simp [finishes] at unfinished

/-- **`finish_callback` is called at most once and never early.** In every run
it comes after the child is reaped and the output watch has ended, and leaves
no source behind. A run with no source left called it exactly once if and only
if the fork succeeded and no `kill` failed while the child watch was armed. -/
theorem finish_callback_once (ran : run step (processRun launch) es = some s) :
    (finishes s.history).length ≤ 1 ∧
      (∀ before after pidResult localwatchdog error,
        s.history = before ++ .finished pidResult localwatchdog error :: after →
          (∃ status, .reaped status ∈ before) ∧
            (launch.ioCallback = true → .outputEnded ∈ before)) ∧
      (finishes s.history ≠ [] → s.loop.sources = []) ∧
      (s.loop.sources = [] →
        ((finishes s.history).length = 1 ↔
          0 < launch.pid ∧ run (only step spares) (processRun launch) es = some s)) := by
  by_cases parent : 0 < launch.pid
  · obtain ⟨opened, armed⟩ := processRun_open parent
    have sound : Sound launch.ioCallback s := run_keeps step_sound (.inl opened) ran
    refine ⟨?_, ?_, ?_, ?_⟩
    · rcases sound with opened | closed
      · simp [opened.unfinished]
      · simp [closed.once]
    · intro before after pidResult localwatchdog error history
      rcases sound with opened | closed
      · have none := opened.unfinished
        simp [history, finishes] at none
      · exact closed.joined history
    · intro called
      rcases sound with opened | closed
      · exact absurd opened.unfinished called
      · exact closed.detached
    · intro detached
      constructor
      · intro once
        refine ⟨parent, run_only_of_trap step_sound unspared_falls step_orphaned (.inl opened) ran ?_⟩
        intro orphaned
        simp [orphaned.unfinished] at once
      · rintro ⟨-, spared⟩
        have stillArmed : Armed s := run_keeps step_armed armed spared
        rcases sound with opened | closed
        · exact absurd detached (opened.attached stillArmed)
        · exact closed.once
  · have orphaned := run_keeps step_orphaned (processRun_unforked (by have := launch.parent; omega)) ran
    have none := orphaned.unfinished
    refine ⟨by simp [none], ?_, fun some => absurd none some, by simp [none, parent]⟩
    intro before after pidResult localwatchdog error history
    simp [history, finishes] at none

/-- A process that writes nothing and exits. -/
def quietLaunch : Launch where
  maxTime := 1
  timeoutCallback := false
  ioCallback := true
  contentInput := false
  cancellable := none
  pid := 7
  parent := by decide
  strerror := ""
  killed := true

/-- The child exits and its output ends in either order, and the idle source
that comes between the two is early. -/
theorem finish_callback_once_after_exit :
    ∃ s, run step (processRun quietLaunch)
        [.childExit 3 0, .idle 4, .output 2 false, .idle 5] = some s ∧
      (finishes s.history).length = 1 := by
  refine ⟨_, rfl, ?_⟩
  have ran : run step (processRun quietLaunch)
      [.childExit 3 0, .idle 4, .output 2 false, .idle 5] = some _ := rfl
  exact ((finish_callback_once ran).2.2.2 rfl).mpr ⟨by decide, rfl⟩

/-- A failed fork is never reported, and neither is a child whose exit was
collected but not yet dispatched when the timer's `kill` failed. -/
theorem finish_callback_lost :
    (∃ s, run step (processRun { quietLaunch with pid := -1, parent := by decide }) [.idle 1] =
        some s ∧ s.loop.sources = [] ∧ finishes s.history = []) ∧
      ∃ s, run step (processRun quietLaunch) [.timeout 1 0 false, .output 2 false, .idle 4] =
        some s ∧ s.loop.sources = [] ∧ finishes s.history = [] :=
  ⟨⟨_, rfl, rfl, rfl⟩, ⟨_, rfl, rfl, rfl⟩⟩

end Restraint.ProcessProofs

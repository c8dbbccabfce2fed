import Restraint.Countdown
import Restraint.TaskHandler

/-! The localwatchdog flag of a process. `process_kill` sets it whenever the child could be killed,
for the timer and for the cancellable alike, and `task_finish_callback` takes it for an overrun. An
overrun is read off the run and not off the flag: the timer has to be dispatched while the child is
there. Cancellation kills it by the same function, and that is where the two come apart. -/
namespace Restraint.Overrun
open CString (Text)
open Transition
open Restraint.Process Restraint.ProcessProofs
open Restraint.Watchdog (armed)
open Restraint.Harness (AppData World)
open Restraint.TaskHandler (taskFinishCallback)

/-- The watchdog time runs out while the child is alive, that is, not reaped. -/
def overruns (s : Run) : Event → Option Unit
  | .timeout _ remaining _ =>
    if s.data.pid ≠ 0 ∧ timeLeft s.data remaining = 0 then some () else none
  | _ => none

def Overran (launch : Launch) (es : List Event) : Prop :=
  trace step overruns (processRun launch) es ≠ []

/-- `RSTRNT_PLUGINS_DIR` as `task_finish_callback` sets it. -/
def pluginsDir (localwatchdog : Bool) : Text :=
  ("RSTRNT_PLUGINS_DIR=/usr/share/restraint/plugins/completed.d" ++
    if localwatchdog then " /usr/share/restraint/plugins/localwatchdog.d" else "").toList

/-- The flag that `finish_callback` gets means an overrun, and so does what `task_finish_callback`
makes of it. -/
structure Honest (launch : Launch) (es : List Event) (s : Run) : Prop where
  flag : ∀ report ∈ finishes s.history, report.2.1 = true → Overran launch es
  persisted : ∀ report ∈ finishes s.history, ¬Overran launch es →
    ∀ (app app' : AppData) (w : World), w.pidResult = report.1 → w.localwatchdog = report.2.1 →
      taskFinishCallback app w = some app' → app'.config = app.config
  plugins : ∀ report ∈ finishes s.history, ¬Overran launch es →
    pluginsDir report.2.1 = pluginsDir false

/-- The cancellation kills no child that the timer has not killed before. -/
def unaborted (s : Run) : Event → Prop
  | .cancel killed =>
    killed = true → s.data.cancelHandler = true → s.data.pid ≠ 0 → s.data.localwatchdog = true
  | _ => True

instance (s : Run) (e : Event) : Decidable (unaborted s e) := by
  cases e <;> unfold unaborted <;> infer_instance

/-- The cancellable was cancelled already, and the child is killed as soon as it is there. -/
def CancelledBefore (launch : Launch) : Prop :=
  launch.cancellable = some true ∧ launch.killed = true

variable {launch : Launch} {s t : Run} {e : Event} {es : List Event} {io : Bool}
variable {seen : List Unit}

/-! ## The flag -/

theorem processKill_localwatchdog {killed : Bool} : (processKill s killed).data.localwatchdog =
    (s.data.localwatchdog || (s.data.pid ≠ 0 && killed)) := by
  unfold processKill
  split
  · simp_all
  · dsimp only
    split
    · simp_all
    · split <;> simp_all

@[simp] theorem scheduleFinish_localwatchdog :
    (scheduleFinish s).data.localwatchdog = s.data.localwatchdog := by
  unfold scheduleFinish
  split <;> rfl

@[simp] theorem processCancelledCb_localwatchdog {killed : Bool} :
    (processCancelledCb s killed).data.localwatchdog =
      (processKill s killed).data.localwatchdog := by
  unfold processCancelledCb
  dsimp only
  split <;> rfl

@[simp] theorem processPidFinish_localwatchdog :
    (processPidFinish s).data.localwatchdog = s.data.localwatchdog := by
  unfold processPidFinish processFree
  grind

/-- The timer sets the flag when the time is over and the child can be killed. -/
theorem processTimeoutCallback_localwatchdog {remaining : Nat} {killed : Bool} :
    (processTimeoutCallback s remaining killed).1.data.localwatchdog =
      (s.data.localwatchdog || (s.data.pid ≠ 0 && timeLeft s.data remaining = 0 && killed)) := by
  unfold processTimeoutCallback
  split
  · rename_i reaped
    simp [reaped]
  rename_i alive
  dsimp only
  split
  · rename_i left
    have more : timeLeft s.data remaining ≠ 0 := Nat.ne_of_gt left
    split <;> simp [more]
  · rename_i left
    have spent : timeLeft s.data remaining = 0 := by omega
    simp [processKill_localwatchdog, alive, spent]

/-- The flag is set by a `kill` that succeeds, and by nothing else. -/
theorem step_localwatchdog (stepped : step s e = some t) :
    t.data.localwatchdog = (s.data.localwatchdog || decide (attempt s e = some true)) := by
  cases step_dispatches stepped with
  | childExit => simp [processPidCallback, attempt]
  | outputEnd => simp [processIoFinish, attempt]
  | timeout => simp [processTimeoutCallback_localwatchdog, attempt]
  | cancel connected => simp [processKill_localwatchdog, attempt, connected]
  | unconnected unconnected => simp [attempt, unconnected]
  | _ => simp [attempt]

private theorem processPidFinish_finishes (reaped : s.data.pid = 0) (ended : s.data.ioHandlerId = 0) :
    finishes (processPidFinish s).history = finishes s.history ++
      [((processPidFinish s).data.pidResult, (processPidFinish s).data.localwatchdog,
        (processPidFinish s).data.error)] := by
  unfold processPidFinish processFree
  grind [finishes_finished]

/-- What is reported is the flag. -/
theorem step_reports (stepped : step s e = some t) :
    finishes t.history = finishes s.history ∨
      finishes t.history = finishes s.history ++ [(t.data.pidResult, t.data.localwatchdog, t.data.error)] := by
  cases step_dispatches stepped with
  | childExit => simp [processPidCallback]
  | outputEnd => simp [processIoFinish]
  | finish held reaped ended =>
    right
    simpa only [release_history, release_data] using processPidFinish_finishes reaped ended
  | _ => simp

/-- Every report so far is of the flag as it is. -/
def Reported (s : Run) : Prop := ∀ report ∈ finishes s.history, report.2.1 = s.data.localwatchdog

private theorem step_reported (sound : Sound io s) (reported : Reported s)
    (stepped : step s e = some t) :
    Reported t := by
  rcases sound with opened | closed
  · intro report member
    rcases step_reports stepped with same | more
    · rw [same, opened.unfinished] at member
      cases member
    · rw [more, opened.unfinished, List.nil_append, List.mem_singleton] at member
      rw [member]
  · rw [closed_step closed stepped]
    exact reported

/-! ## Overruns -/

theorem attempt_overruns {killed : Bool} (kill : attempt s e = some killed) :
    overruns s e = some () ∨ e = .cancel killed ∧ s.data.cancelHandler = true ∧ s.data.pid ≠ 0 := by
  cases e with
  | timeout id remaining succeeds =>
    simp only [attempt, Option.ite_none_right_eq_some] at kill
    exact .inl (if_pos kill.1)
  | cancel succeeds =>
    simp only [attempt, Option.ite_none_right_eq_some, Option.some.injEq] at kill
    exact .inr ⟨by rw [kill.2], kill.1⟩
  | _ => cases kill

private theorem overruns_attempt (overran : overruns s e = some ()) :
    ∃ killed, attempt s e = some killed ∧ s.data.pid ≠ 0 := by
  cases e with
  | timeout id remaining killed =>
    have spent : s.data.pid ≠ 0 ∧ timeLeft s.data remaining = 0 := by
      by_contra left
      simp [overruns, left] at overran
    exact ⟨killed, if_pos spent, spent.1⟩
  | _ => cases overran

/-- After an overrun the flag is set, or the process never finishes. -/
structure Tracked (io : Bool) (seen : List Unit) (s : Run) : Prop where
  sound : Sound io s
  reported : Reported s
  overran : seen ≠ [] → s.data.localwatchdog = true ∨ Orphaned s

theorem step_tracked (tracked : Tracked io seen s) (stepped : step s e = some t) :
    Tracked io (seen ++ (overruns s e).toList) t where
  sound := step_sound s e t tracked.sound stepped
  reported := step_reported tracked.sound tracked.reported stepped
  overran := by
    intro some
    have kept (before : s.data.localwatchdog = true ∨ Orphaned s) :
        t.data.localwatchdog = true ∨ Orphaned t := by
      refine before.imp (fun flag => ?_) fun orphaned => step_orphaned s e t orphaned stepped
      rw [step_localwatchdog stepped, flag, Bool.true_or]
    cases now : overruns s e with
    | none =>
      rw [now, Option.toList_none, List.append_nil] at some
      exact kept (tracked.overran some)
    | some _ =>
      obtain ⟨killed, kill, alive⟩ := overruns_attempt now
      cases killed with
      | true => exact .inl (by rw [step_localwatchdog stepped, kill]; simp)
      | false =>
        -- a failed `kill` removes the child watch, if it was not removed before
        refine .inr ?_
        by_cases spared : spares s e
        · rcases tracked.sound with opened | closed
          · exact step_orphaned s e t (opened.orphaned alive (spared kill)) stepped
          · exact absurd closed.dead alive
        · exact unspared_falls s e t tracked.sound stepped spared

/-- The flag is set and no timer is left to run out. -/
structure Flagged (io : Bool) (s : Run) : Prop where
  sound : Sound io s
  flag : s.data.localwatchdog = true
  untimed : armed s = none

theorem Flagged.no_timeout {id remaining : Nat} {killed : Bool} (flagged : Flagged io s) :
    step s (.timeout id remaining killed) ≠ some t := by
  intro stepped
  obtain ⟨interval, -, timer, -⟩ := Countdown.waited_armed flagged.sound stepped
  rw [flagged.untimed] at timer
  cases timer

private theorem step_flagged (flagged : Flagged io s) (stepped : step s e = some t) :
    Flagged io t ∧ overruns s e = none := by
  have untimed : ∀ id remaining killed, e ≠ .timeout id remaining killed := by
    rintro id remaining killed rfl
    exact flagged.no_timeout stepped
  refine ⟨⟨step_sound s e t flagged.sound stepped, ?_, ?_⟩, ?_⟩
  · rw [step_localwatchdog stepped, flagged.flag, Bool.true_or]
  · rcases (Countdown.other_armed flagged.sound stepped untimed).1 with same | gone
    · rw [same, flagged.untimed]
    · exact gone
  · cases e with
    | timeout id remaining killed => exact absurd rfl (untimed id remaining killed)
    | _ => rfl

private theorem run_flagged (flagged : Flagged io s) (ran : run step s es = some t) :
    Flagged io t ∧ trace step overruns s es = [] := by
  have kept := run_keeps_trace overruns (I := fun seen s => Flagged io s ∧ seen = [])
    (fun seen s e t both stepped => ?_) ⟨flagged, rfl⟩ ran
  · exact kept
  · obtain ⟨after, silent⟩ := step_flagged both.1 stepped
    exact ⟨after, by rw [both.2, silent]; rfl⟩

/-- A cancellation that kills sets the flag and takes the timer away. -/
theorem cancel_flagged (sound : Sound io s) (connected : s.data.cancelHandler = true)
    (alive : s.data.pid ≠ 0) (stepped : step s (.cancel true) = some t) : Flagged io t := by
  have after : Sound io t := step_sound s _ t sound stepped
  have flag : t.data.localwatchdog = true := by
    rw [step_localwatchdog stepped]
    simp [attempt, connected, alive]
  refine ⟨after, flag, Countdown.unarmed after ?_⟩
  cases step_dispatches stepped with
  | cancel => exact processCancelledCb_timeout
  | unconnected unconnected =>
    rw [connected] at unconnected
    cases unconnected

/-! ## `process_run` -/

theorem processRun_localwatchdog (parent : 0 < launch.pid) :
    (processRun launch).data.localwatchdog = true ↔ CancelledBefore launch := by
  have notFailed : ¬launch.pid < 0 := by omega
  have started : (processRun launch).data.localwatchdog = (connectCancellable launch
      { data := forked launch, loop := .empty, history := [] }).data.localwatchdog := by
    simp only [processRun, if_neg notFailed]
    split <;> (unfold watchPid; unfold armTimeout; dsimp only) <;> split <;> rfl
  rw [started, CancelledBefore, connectCancellable]
  cases cancellable : launch.cancellable with
  | none => simp [forked]
  | some cancelled =>
    cases cancelled with
    | false => simp [forked]
    | true => simp [processKill_localwatchdog, forked, launch.parent]

private theorem processRun_tracked (parent : 0 < launch.pid) :
    Tracked launch.ioCallback [] (processRun launch) := by
  obtain ⟨opened, -⟩ := processRun_open parent
  refine ⟨.inl opened, ?_, fun some => absurd rfl some⟩
  intro report member
  rw [opened.unfinished] at member
  cases member

/-! ## The theorem -/

/-- Without the flag `task_finish_callback` writes nothing to the config file. -/
theorem taskFinishCallback_config {app app' : AppData} {w : World} (unset : w.localwatchdog = false)
    (finished : taskFinishCallback app w = some app') : app'.config = app.config := by
  unfold taskFinishCallback at finished
  split at finished
  · cases finished
  · split at finished
    · cases finished
    · simp only [unset, Bool.false_eq_true, ↓reduceIte] at finished
      split at finished
      · cases finished
        split <;> rfl
      · split at finished <;> cases finished <;> rfl

/-- All of it follows from the flag. -/
theorem honest_of_flag
    (flag : ∀ report ∈ finishes s.history, report.2.1 = true → Overran launch es) :
    Honest launch es s := by
  have unset : ∀ report ∈ finishes s.history, ¬Overran launch es → report.2.1 = false := by
    intro report member quiet
    rw [← Bool.not_eq_true]
    exact fun set => quiet (flag report member set)
  refine ⟨flag, ?_, ?_⟩
  · intro report member quiet app app' w _ same finished
    exact taskFinishCallback_config (same.trans (unset report member quiet)) finished
  · intro report member quiet
    rw [unset report member quiet]

/-- As long as the cancellation kills no live child, the flag comes from the timer, or from the
start. -/
theorem flag_traced (parent : 0 < launch.pid)
    (ran : run (only step unaborted) (processRun launch) es = some s)
    (flag : s.data.localwatchdog = true) : Overran launch es ∨ CancelledBefore launch := by
  have traced := run_keeps_trace overruns
    (I := fun seen s => s.data.localwatchdog = true → seen ≠ [] ∨ CancelledBefore launch)
    (fun seen s e t before taken set => ?_)
    (fun set => .inr ((processRun_localwatchdog parent).mp set)) ran
  · rw [trace_of_only ran] at traced
    exact traced flag
  · obtain ⟨uncut, stepped⟩ := only_eq_some.mp taken
    rw [step_localwatchdog stepped, Bool.or_eq_true, decide_eq_true_iff] at set
    have earlier (set : s.data.localwatchdog = true) :
        seen ++ (overruns s e).toList ≠ [] ∨ CancelledBefore launch :=
      (before set).imp_left fun some => List.append_ne_nil_of_left_ne_nil some _
    rcases set with set | kill
    · exact earlier set
    · rcases attempt_overruns kill with now | ⟨rfl, connected, alive⟩
      · exact .inl (by simp [now])
      · exact earlier (uncut rfl connected alive)

/-- **A reported flag means an overrun if and only if no cancellation has killed the child.**
A child that is killed at its start because the cancellable was cancelled before has to
overrun after that. -/
theorem flag_honest (ran : run step (processRun launch) es = some s) : Honest launch es s ↔
    (finishes s.history ≠ [] → (CancelledBefore launch → Overran launch es) ∧
      run (only step unaborted) (processRun launch) es = some s) := by
  by_cases parent : 0 < launch.pid
  swap
  · -- a failed fork is not reported
    have unforked : launch.pid < 0 := by
      have := launch.parent
      omega
    have none := (run_keeps step_orphaned (processRun_unforked unforked) ran).unfinished
    exact iff_of_true (honest_of_flag fun report member => by rw [none] at member; cases member)
      fun some => absurd none some
  have tracked := run_keeps_trace overruns (fun _ _ _ _ => step_tracked) (processRun_tracked parent) ran
  constructor
  · intro honest finished
    obtain ⟨report, member⟩ := List.exists_mem_of_ne_nil _ finished
    have flagged (set : s.data.localwatchdog = true) : Overran launch es :=
      honest.flag report member ((tracked.reported report member).trans set)
    refine ⟨fun cancelled => flagged ?_, (run_only_iff ran).mpr ?_⟩
    · exact run_keeps (I := fun s : Run => s.data.localwatchdog = true)
        (fun s e t set stepped => by rw [step_localwatchdog stepped, set, Bool.true_or])
        ((processRun_localwatchdog parent).mpr cancelled) ran
    · rintro before e after middle rfl reached
      obtain ⟨middle', same, onward⟩ := run_append.mp ran
      cases reached.symm.trans same
      obtain ⟨next, taken, rest⟩ := run_cons.mp onward
      by_contra cut
      have earlier :=
        run_keeps_trace overruns (fun _ _ _ _ => step_tracked) (processRun_tracked parent) reached
      cases e with
      | cancel killed =>
        simp only [unaborted, Classical.not_imp, Bool.not_eq_true] at cut
        obtain ⟨rfl, connected, alive, unset⟩ := cut
        obtain ⟨still, silent⟩ := run_flagged
          (cancel_flagged earlier.sound connected alive taken) rest
        -- the timer did not run out before, since the flag was not set, nor does it after
        have quiet : trace step overruns (processRun launch) before = [] := by
          by_contra some
          rcases earlier.overran some with set | orphaned
          · rw [unset] at set
            cases set
          · have none := (run_keeps step_orphaned orphaned onward).unfinished
            exact finished none
        apply flagged still.flag
        rw [trace_append reached, trace_cons taken, quiet, silent]
        rfl
      | _ => exact cut trivial
  · intro spared
    apply honest_of_flag
    intro report member set
    have flag : s.data.localwatchdog = true := (tracked.reported report member).symm.trans set
    obtain ⟨overran, uncut⟩ := spared (List.ne_nil_of_mem member)
    exact (flag_traced parent uncut flag).elim id overran

/-- A process that can be cancelled, with a second to run. -/
def abortable : Launch := { quietLaunch with cancellable := some false, ioCallback := false }

/-- The timer runs out; the child is killed, reaped and reported. -/
theorem flag_honest_timeout : ∃ s, run step (processRun abortable)
    [.timeout 1 0 true, .childExit 2 9, .idle 3] = some s ∧
    Honest abortable [.timeout 1 0 true, .childExit 2 9, .idle 3] s := by
  refine ⟨_, rfl, (flag_honest rfl).mpr fun _ => ⟨fun cancelled => ?_, rfl⟩⟩
  cases cancelled.1

/-- The user aborts the task: the child is killed, reaped and reported as an overrun. -/
theorem flag_of_abort : ∃ s, run step (processRun abortable)
    [.cancel true, .childExit 2 9, .idle 3] = some s ∧
    finishes s.history = [(9, true, none)] ∧
    ¬Honest abortable [.cancel true, .childExit 2 9, .idle 3] s := by
  refine ⟨_, rfl, rfl, fun honest => ?_⟩
  exact honest.flag (9, true, none) List.mem_cons_self rfl rfl

end Restraint.Overrun

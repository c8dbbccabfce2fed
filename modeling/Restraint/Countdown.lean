import Restraint.WatchdogProofs
import Restraint.Lib.Trace

/-! The two countdowns of `process.c`: its own, when there is no `timeout_callback`,
and that of `task_timeout_cb`. Both wait whole heartbeats and then what is left, though
one compares with less and the other with more, and one keeps the timer where the other
arms a new one. -/
namespace Restraint.Countdown
open Restraint.Process Restraint.ProcessProofs Restraint.Watchdog Restraint.WatchdogProofs Transition

/-- The intervals in which a time is waited for. -/
def intervals (time : Nat) : List Nat :=
  List.replicate (time / HEARTBEAT) HEARTBEAT ++
    if time % HEARTBEAT = 0 then [] else [time % HEARTBEAT]

/-- What is left of a time after its first interval. -/
def afterFirst (time : Nat) : Nat := time - min time HEARTBEAT

/-- The interval of the timer that an event dispatches. -/
def waited (p : Run) : Process.Event → Option Nat
  | .timeout id _ _ =>
    match p.loop.find? id with
    | some (.processTimeoutCallback seconds) => some seconds
    | _ => none
  | _ => none

/-- The interval of the timer that fires. -/
def fired (s : Watch) : Watchdog.Event → Option Nat
  | .fire _ => armed s.process
  | _ => none

/-- The timer that is dispatched comes to `process_kill`. -/
def expires (p : Run) : Process.Event → Prop
  | .timeout id remaining killed => (attempt p (.timeout id remaining killed)).isSome
  | _ => False

/-- The timer that fires is the first to come to `process_kill`. -/
def kills (s : Watch) (e : Watchdog.Event) : Prop :=
  s.killedAt = none ∧ ((Watchdog.step s e).bind Watch.killedAt).isSome

/-- A countdown waits these intervals: at every moment it has waited the first of them
and is armed for the next one, it has waited all of them when it comes to
`process_kill`, and it can get there. -/
structure Waits {σ ε : Type} (step : Step σ ε) (start : σ) (shows : σ → ε → Option Nat)
    (timer : σ → Option Nat) (kills : σ → ε → Prop) (intervals : List Nat) : Prop where
  along : ∀ es s, run step start es = some s →
    trace step shows start es ++ (timer s).toList <+: intervals
  all : ∀ es s e t, run step start es = some s → step s e = some t → kills s e →
    trace step shows start (es ++ [e]) = intervals
  reached : ∃ es s e t, run step start es = some s ∧ step s e = some t ∧ kills s e

/-- The event is no adjustment by the user. -/
def unadjusted : Watchdog.Event → Prop
  | .adjust _ => False
  | _ => True

instance : DecidablePred unadjusted
  | .adjust _ => inferInstanceAs (Decidable False)
  | .pass _ | .fire _ | .childExit .. | .output .. | .idle _ => inferInstanceAs (Decidable True)

section Intervals
variable {time interval : Nat}

@[simp] theorem intervals_zero : intervals 0 = [] := rfl

/-- A time that is not over starts with a heartbeat, or with all that is left. -/
theorem intervals_first (positive : 0 < time) :
    intervals time = min time HEARTBEAT :: intervals (afterFirst time) := by
  unfold intervals afterFirst
  by_cases short : time < HEARTBEAT
  · have none : time / HEARTBEAT = 0 := Nat.div_eq_of_lt short
    have all : time % HEARTBEAT = time := Nat.mod_eq_of_lt short
    simp [none, all, Nat.ne_of_gt positive, Nat.min_eq_left (Nat.le_of_lt short)]
  · have long : HEARTBEAT ≤ time := Nat.le_of_not_lt short
    have one : time / HEARTBEAT = (time - HEARTBEAT) / HEARTBEAT + 1 :=
      Nat.div_eq_sub_div (by decide) long
    have same : time % HEARTBEAT = (time - HEARTBEAT) % HEARTBEAT := Nat.mod_eq_sub_mod long
    rw [Nat.min_eq_right long, one, same, List.replicate_succ, List.cons_append]

/-- The intervals take all of the time, each a heartbeat at most. -/
theorem intervals_sum : (intervals time).sum = time := by
  have whole := Nat.div_add_mod' time HEARTBEAT
  unfold intervals
  rw [List.sum_append, List.sum_replicate_nat]
  split
  · simp only [List.sum_nil]
    omega
  · simp only [List.sum_cons, List.sum_nil]
    omega

private theorem intervals_le (member : interval ∈ intervals time) :
    0 < interval ∧ interval ≤ HEARTBEAT := by
  have below : time % HEARTBEAT < HEARTBEAT := Nat.mod_lt time (by decide)
  rcases List.mem_append.mp member with whole | rest
  · rw [List.eq_of_mem_replicate whole]
    decide
  · split at rest
    · cases rest
    · rw [List.mem_singleton.mp rest]
      omega

end Intervals

/-! ## One process -/

variable {p q : Run} {time interval : Nat} {seen : List Nat}

private theorem armed_congr (same : q.data.timeoutHandlerId = p.data.timeoutHandlerId)
    (kept : ∀ interval, (p.data.timeoutHandlerId, .processTimeoutCallback interval) ∈ q.loop.sources ↔
      (p.data.timeoutHandlerId, .processTimeoutCallback interval) ∈ p.loop.sources) :
    armed q = armed p := by
  ext interval
  rw [armed_eq_some, armed_eq_some, same]
  exact kept interval

/-- Without an id there is no timer. -/
theorem unarmed {io : Bool} (sound : Sound io p) (none : p.data.timeoutHandlerId = 0) :
    armed p = .none := by
  rw [Option.eq_none_iff_forall_ne_some]
  intro interval timer
  have held := armed_eq_some.mp timer
  rw [none] at held
  rcases sound with opened | closed
  · exact opened.watched.nonzero held rfl
  · rw [closed.detached] at held
    cases held

/-- What the other events do to the countdown: the timer stays or goes. -/
theorem other_armed {io : Bool} {e : Process.Event} (sound : Sound io p)
    (stepped : Process.step p e = some q)
    (untimed : ∀ id remaining killed, e ≠ .timeout id remaining killed) :
    (armed q = armed p ∨ armed q = none) ∧ q.data.maxTime = p.data.maxTime ∧
      q.data.timeoutCallback = p.data.timeoutCallback ∧ (p.data.pid = 0 → q.data.pid = 0) := by
  have after := step_sound p e q sound stepped
  cases step_dispatches stepped with
  | timeout => exact absurd rfl (untimed _ _ _)
  | childExit held =>
    refine ⟨.inl (armed_congr (by simp [processPidCallback]) fun interval => ?_), ?_⟩
    · simp only [release, Bool.false_eq_true, ↓reduceIte, processPidCallback, MainLoop.mem_remove]
      rw [scheduleFinish_sources (by simp), ← MainLoop.mem_remove,
        MainLoop.mem_remove_other held (by simp)]
    · simp [processPidCallback]
  | output => simp
  | outputEnd held =>
    refine ⟨.inl (armed_congr (by simp [processIoFinish]) fun interval => ?_), ?_⟩
    · simp only [processIoFinish]
      rw [scheduleFinish_sources (by simp)]
      exact MainLoop.mem_remove_other held (by simp)
    · simp [processIoFinish]
  | early held =>
    refine ⟨.inl (armed_congr rfl fun interval => ?_), by simp⟩
    exact MainLoop.mem_remove_other held (by simp)
  | finish held reaped ended =>
    have none := processPidFinish_timeout reaped ended
    exact ⟨.inr (unarmed after (by simpa using none)), by simp⟩
  | cancel => exact ⟨.inr (unarmed after (by simp)), by simp⟩
  | unconnected => simp

/-- The timer of a live child fires: it goes on with what is left after its interval. -/
theorem timeout_counts {remaining : Nat} {killed : Bool} {io : Bool} (sound : Sound io p)
    (alive : p.data.pid ≠ 0) (timer : armed p = some interval)
    (first : interval = min p.data.maxTime HEARTBEAT)
    (left : timeLeft p.data remaining = afterFirst p.data.maxTime)
    (stepped : Process.step p (.timeout p.data.timeoutHandlerId remaining killed) = some q) :
    q.data.maxTime = afterFirst p.data.maxTime ∧
      armed q = if afterFirst p.data.maxTime = 0 then none
        else some (min (afterFirst p.data.maxTime) HEARTBEAT) := by
  have after := step_sound p _ q sound stepped
  have member := armed_eq_some.mp timer
  have held := MainLoop.find?_eq_some.mpr member
  have old : p.data.timeoutHandlerId ≠ p.loop.next := Nat.ne_of_lt (p.loop.below _ member)
  simp only [Process.step, held, processTimeoutCallback, alive, left, ↓reduceIte,
    Option.some.injEq] at stepped
  by_cases spent : afterFirst p.data.maxTime = 0
  · -- nothing is left: the process is killed and the timer is gone
    simp only [spent, Nat.lt_irrefl, ↓reduceIte, release, Bool.false_eq_true] at stepped
    subst stepped
    exact ⟨by simp [spent], by rw [if_pos spent]; exact unarmed after rfl⟩
  · have positive : 0 < afterFirst p.data.maxTime := Nat.pos_of_ne_zero spent
    rw [if_pos positive] at stepped
    rw [if_neg spent]
    by_cases short : afterFirst p.data.maxTime < HEARTBEAT
    · rw [if_pos short] at stepped
      subst stepped
      refine ⟨rfl, ?_⟩
      rw [armed_eq_some, Nat.min_eq_left (Nat.le_of_lt short)]
      simp [release, MainLoop.mem_remove, old.symm]
    · -- the timer that is kept was armed for a heartbeat
      rw [if_neg short] at stepped
      subst stepped
      have long : interval = min (afterFirst p.data.maxTime) HEARTBEAT := by
        rw [first]
        unfold afterFirst at short ⊢
        omega
      exact ⟨rfl, long ▸ timer⟩

/-- The intervals that were waited and the armed one are those of the time, in order. -/
structure Counting (io : Bool) (time : Nat) (seen : List Nat) (p : Run) : Prop where
  sound : Sound io p
  along : seen ++ (armed p).toList <+: intervals time
  left : ∀ interval ∈ armed p, p.data.pid ≠ 0 →
    0 < p.data.maxTime ∧ interval = min p.data.maxTime HEARTBEAT ∧
      seen ++ intervals p.data.maxTime = intervals time

variable {io : Bool}

/-- An event that dispatches no timer. -/
theorem Counting.other {e : Process.Event} (counting : Counting io time seen p)
    (stepped : Process.step p e = some q)
    (untimed : ∀ id remaining killed, e ≠ .timeout id remaining killed) :
    Counting io time seen q := by
  obtain ⟨timer, maxTime, -, dead⟩ := other_armed counting.sound stepped untimed
  refine ⟨step_sound p e q counting.sound stepped, ?_, ?_⟩
  · rcases timer with same | none
    · rw [same]
      exact counting.along
    · rw [none, Option.toList_none, List.append_nil]
      exact (List.prefix_append _ _).trans counting.along
  · intro interval armed alive
    rcases timer with same | none
    · rw [same] at armed
      rw [maxTime]
      exact counting.left interval armed fun reaped => alive (dead reaped)
    · rw [none] at armed
      cases armed

/-- The armed timer is dispatched. -/
theorem Counting.timeout {remaining : Nat} {killed : Bool} (counting : Counting io time seen p)
    (timer : armed p = some interval)
    (left : p.data.pid ≠ 0 → timeLeft p.data remaining = afterFirst p.data.maxTime)
    (stepped : Process.step p (.timeout p.data.timeoutHandlerId remaining killed) = some q) :
    Counting io time (seen ++ [interval]) q := by
  have sound := step_sound p _ q counting.sound stepped
  have along := counting.along
  rw [timer, Option.toList_some] at along
  by_cases alive : p.data.pid = 0
  · -- the child was reaped: the timer stops
    have held := MainLoop.find?_eq_some.mpr (armed_eq_some.mp timer)
    simp only [Process.step, held, processTimeoutCallback, alive, ↓reduceIte, release,
      Bool.false_eq_true, Option.some.injEq] at stepped
    have none := unarmed sound (by rw [← stepped])
    refine ⟨sound, by rwa [none, Option.toList_none, List.append_nil], ?_⟩
    intro interval armed
    rw [none] at armed
    cases armed
  · obtain ⟨positive, first, counted⟩ := counting.left interval timer alive
    obtain ⟨maxTime, next⟩ := timeout_counts counting.sound alive timer first (left alive) stepped
    have counted : (seen ++ [interval]) ++ intervals (afterFirst p.data.maxTime) = intervals time := by
      rw [← counted, intervals_first positive, first, List.append_assoc, List.singleton_append]
    by_cases spent : afterFirst p.data.maxTime = 0
    · rw [if_pos spent] at next
      rw [spent, intervals_zero, List.append_nil] at counted
      refine ⟨sound, by simp [next, counted], ?_⟩
      intro interval armed
      rw [next] at armed
      cases armed
    · rw [if_neg spent] at next
      have goesOn : 0 < afterFirst p.data.maxTime := Nat.pos_of_ne_zero spent
      refine ⟨sound, ?_, ?_⟩
      · rw [next, ← counted, intervals_first goesOn, Option.toList_some]
        exact (List.prefix_append_right_inj _).mpr (List.prefix_append [_] _)
      · intro interval armed alive
        rw [next] at armed
        rw [maxTime]
        exact ⟨goesOn, (Option.some.inj armed).symm, counted⟩

/-- When the timer comes to `process_kill`, all of the time was waited for. -/
theorem Counting.killed {remaining : Nat} {killed : Bool} (counting : Counting io time seen p)
    (timer : armed p = some interval)
    (left : p.data.pid ≠ 0 → timeLeft p.data remaining = afterFirst p.data.maxTime)
    (attempts : (attempt p (.timeout p.data.timeoutHandlerId remaining killed)).isSome) :
    seen ++ [interval] = intervals time := by
  simp only [attempt] at attempts
  split at attempts
  · rename_i expires
    obtain ⟨positive, first, counted⟩ := counting.left interval timer expires.1
    have spent : afterFirst p.data.maxTime = 0 := (left expires.1).symm.trans expires.2
    rw [← counted, intervals_first positive, spent, intervals_zero, ← first]
  · cases attempts

/-- The countdown of a process that was forked starts with its first interval. -/
theorem processRun_counts (launch : Launch) (forked : 0 < launch.pid) (positive : 0 < launch.maxTime) :
    Counting launch.ioCallback launch.maxTime [] (processRun launch) ∧
      (processRun launch).data.maxTime = launch.maxTime ∧
      (processRun launch).data.timeoutCallback = launch.timeoutCallback ∧
      armed (processRun launch) = some (min launch.maxTime HEARTBEAT) := by
  obtain ⟨kills, localwatchdog, connected⟩ := connectCancellable_forked launch
  have notFailed : ¬launch.pid < 0 := by omega
  have timed : launch.maxTime ≠ 0 := Nat.ne_of_gt positive
  have first : (if launch.maxTime < HEARTBEAT then launch.maxTime else HEARTBEAT) =
      min launch.maxTime HEARTBEAT := by
    split <;> omega
  have data : (processRun launch).data.maxTime = launch.maxTime ∧
      (processRun launch).data.timeoutCallback = launch.timeoutCallback := by
    unfold processRun
    dsimp only
    rw [if_neg notFailed, connected]
    split <;> simp [watchPid, watchIo, armTimeout, Process.forked, timed]
  have timer : armed (processRun launch) = some (min launch.maxTime HEARTBEAT) := by
    rw [armed_eq_some, ← first]
    unfold processRun
    dsimp only
    rw [if_neg notFailed, connected]
    split
    all_goals
      simp [watchPid, watchIo, armTimeout, Process.forked, timed]
      rfl
  refine ⟨⟨.inl (processRun_open forked).1, ?_, ?_⟩, data.1, data.2, timer⟩
  · rw [timer, intervals_first positive, Option.toList_some, List.nil_append]
    exact List.prefix_append [_] _
  · intro interval armed _
    rw [timer] at armed
    rw [data.1]
    exact ⟨positive, (Option.some.inj armed).symm, rfl⟩

/-- A timer that is dispatched is the armed one. -/
theorem waited_armed {id remaining : Nat} {killed : Bool} (sound : Sound io p)
    (stepped : Process.step p (.timeout id remaining killed) = some q) :
    ∃ interval, id = p.data.timeoutHandlerId ∧ armed p = some interval ∧
      waited p (.timeout id remaining killed) = some interval := by
  cases step_dispatches stepped with
  | @timeout _ _ interval _ held =>
    have own : id = p.data.timeoutHandlerId := by
      rcases sound with opened | closed
      · exact (opened.watched.timer held).1.symm
      · rw [closed.detached] at held
        cases held
    have found := MainLoop.find?_eq_some.mpr held
    exact ⟨interval, own, armed_eq_some.mpr (own ▸ held), by simp only [waited, found]⟩

/-! ## The two systems -/

/-- Its own countdown takes a heartbeat, or all that is left. -/
theorem own_left (own : p.data.timeoutCallback = false) (remaining : Nat) :
    timeLeft p.data remaining = afterFirst p.data.maxTime := by
  simp only [timeLeft, own, Bool.false_eq_true, ↓reduceIte, afterFirst]
  split <;> omega

/-- The own countdown. -/
structure Own (io : Bool) (time : Nat) (seen : List Nat) (p : Run) : Prop where
  counting : Counting io time seen p
  callback : p.data.timeoutCallback = false

private theorem step_own (seen : List Nat) (p : Run) (e : Process.Event) (q : Run)
    (counting : Own io time seen p) (stepped : Process.step p e = some q) :
    Own io time (seen ++ (waited p e).toList) q := by
  obtain ⟨counting, own⟩ := counting
  cases e with
  | timeout id remaining killed =>
    obtain ⟨interval, rfl, timer, shown⟩ := waited_armed counting.sound stepped
    rw [shown]
    exact ⟨counting.timeout timer (fun _ => own_left own remaining) stepped,
      (timeout_data stepped).1.trans own⟩
  | _ =>
    obtain ⟨-, -, callback, -⟩ := other_armed counting.sound stepped (by simp)
    simpa [waited] using Own.mk (counting.other stepped (by simp)) (callback.trans own)

variable {s t : Watch} {entry : Entry}

/-- The countdown of the task, with nothing changed by the user. -/
structure Tasks (time : Nat) (seen : List Nat) (s : Watch) : Prop where
  counting : Counting true time seen s.process
  callback : s.process.data.timeoutCallback = true
  unchanged : s.timeChged = none
  small : s.process.data.maxTime < 2 ^ 63
  agrees : ∀ interval ∈ armed s.process, s.process.data.pid ≠ 0 →
    s.remainingTime = s.process.data.maxTime
  killed : s.killedAt.isSome → seen = intervals time ∧ armed s.process = none
  ahead : (armed s.process).isSome → s.now ≤ s.due

/-- `task_timeout_cb` leaves what the own countdown would leave. -/
theorem heartbeat_left {maxTime : Nat} (unchanged : s.timeChged = none) (small : maxTime < 2 ^ 63)
    (same : s.remainingTime = maxTime) :
    (taskHeartbeatCallback s).remainingTime = afterFirst maxTime ∧
      timeRemain (taskHeartbeatCallback s) = afterFirst maxTime := by
  have left : (taskHeartbeatCallback s).remainingTime = afterFirst maxTime := by
    simp only [taskHeartbeatCallback, unchanged, afterFirst, same]
    split <;> omega
  refine ⟨left, timeRemain_eq left ?_⟩
  unfold afterFirst
  omega

/-- A step of the process that no timer takes. -/
theorem lift_tasks {e : Process.Event} {seen : List Nat} (tasks : Tasks time seen s)
    (untimed : ∀ id remaining killed, e ≠ .timeout id remaining killed)
    (stepped : liftStep s e = some t) : Tasks time seen t := by
  obtain ⟨process, moved, rfl⟩ := Option.map_eq_some_iff.mp stepped
  obtain ⟨timer, maxTime, callback, dead⟩ := other_armed tasks.counting.sound moved untimed
  refine ⟨tasks.counting.other moved untimed, callback.trans tasks.callback, tasks.unchanged,
    ?_, ?_, ?_, ?_⟩
  · exact maxTime ▸ tasks.small
  · intro interval armed alive
    rcases timer with same | none
    · rw [maxTime]
      exact tasks.agrees interval (same ▸ armed) fun reaped => alive (dead reaped)
    · rw [none] at armed
      cases armed
  · intro killed
    obtain ⟨all, none⟩ := tasks.killed killed
    refine ⟨all, ?_⟩
    rcases timer with same | none'
    · exact same.trans none
    · exact none'
  · rintro still
    rcases timer with same | none
    · exact tasks.ahead (same ▸ still)
    · rw [none] at still
      cases still

private theorem fire_tasks {killed : Bool} {seen : List Nat} (tasks : Tasks time seen s)
    (timer : armed s.process = some interval) (stepped : fire s killed = some t) :
    Tasks time (seen ++ [interval]) t := by
  obtain ⟨process, moved, rfl⟩ := Option.map_eq_some_iff.mp stepped
  obtain ⟨callback, pid⟩ := timeout_data moved
  have unchanged := (heartbeat_frame s).1
  have fresh : s.killedAt = none := by
    by_contra some
    have none := (tasks.killed (Option.isSome_iff_ne_none.mpr some)).2
    rw [timer] at none
    cases none
  by_cases reaped : s.process.data.pid = 0
  · have idle (remaining : Nat) :
        attempt s.process (.timeout s.process.data.timeoutHandlerId remaining killed) = none := by
      simp [attempt, reaped]
    simp only [reaped, ↓reduceIte, idle, Option.isSome_none, Bool.false_eq_true] at moved ⊢
    refine ⟨tasks.counting.timeout timer (fun alive => absurd reaped alive) moved,
      callback.trans tasks.callback, tasks.unchanged, ?_, ?_, by simp [fresh], fun _ => ?_⟩
    · have held := MainLoop.find?_eq_some.mpr (armed_eq_some.mp timer)
      simp only [Process.step, held, processTimeoutCallback, reaped, ↓reduceIte, release,
        Bool.false_eq_true, Option.some.injEq] at moved
      rw [← moved]
      exact tasks.small
    · exact fun _ _ alive => absurd (pid.trans reaped) alive
    · exact Nat.le_add_right _ _
  · obtain ⟨left, told⟩ :=
      heartbeat_left tasks.unchanged tasks.small (tasks.agrees interval timer reaped)
    simp only [reaped, ↓reduceIte] at moved ⊢
    have leaves : timeLeft s.process.data (timeRemain (taskHeartbeatCallback s)) =
        afterFirst s.process.data.maxTime := by
      simp only [timeLeft, tasks.callback, ↓reduceIte, told]
    obtain ⟨positive, first, -⟩ := tasks.counting.left interval timer reaped
    obtain ⟨maxTime, next⟩ := timeout_counts tasks.counting.sound reaped timer first leaves moved
    refine ⟨tasks.counting.timeout timer (fun _ => leaves) moved, callback.trans tasks.callback,
      unchanged, ?_, ?_, ?_, fun _ => ?_⟩
    · have small := tasks.small
      rw [maxTime]
      unfold afterFirst
      omega
    · exact fun _ _ _ => maxTime ▸ left
    · intro tried
      dsimp only at tried
      split at tried
      · rename_i attempts
        refine ⟨tasks.counting.killed timer (fun _ => leaves) attempts, ?_⟩
        simp only [attempt, leaves] at attempts
        split at attempts
        · rename_i expires
          rw [next, if_pos expires.2]
        · cases attempts
      · rw [fresh] at tried
        cases tried
    · rw [(heartbeat_frame s).2.1]
      exact Nat.le_add_right _ _

private theorem step_tasks (seen : List Nat) (s : Watch) (e : Watchdog.Event) (t : Watch)
    (tasks : Tasks time seen s) (stepped : only Watchdog.step (fun _ => unadjusted) s e = some t) :
    Tasks time (seen ++ (fired s e).toList) t := by
  obtain ⟨quiet, stepped⟩ := only_eq_some.mp stepped
  cases e with
  | pass seconds =>
    simp only [Watchdog.step] at stepped
    split at stepped
    · cases stepped
    · rename_i within
      cases stepped
      simp only [fired, Option.toList_none, List.append_nil]
      refine ⟨tasks.counting, tasks.callback, tasks.unchanged, tasks.small, tasks.agrees,
        tasks.killed, fun armed => ?_⟩
      exact Nat.le_of_not_lt fun beyond => within ⟨armed, beyond⟩
  | adjust seconds => exact absurd quiet id
  | fire killed =>
    simp only [Watchdog.step] at stepped
    split at stepped
    · rename_i due
      obtain ⟨interval, timer⟩ := Option.isSome_iff_exists.mp due.1
      rw [show fired s (.fire killed) = some interval from timer]
      exact fire_tasks tasks timer stepped
    · cases stepped
  | childExit id status => simpa [fired] using lift_tasks tasks (by simp) stepped
  | output id keep => simpa [fired] using lift_tasks tasks (by simp) stepped
  | idle id => simpa [fired] using lift_tasks tasks (by simp) stepped

private theorem taskRun_tasks (watched : entry.nolocalwatchdog = false)
    (positive : 0 < entry.remainingTime)
    (unchanged : entry.timeChged = none) : Tasks entry.remainingTime [] (taskRun entry) := by
  have same : entry.launch.maxTime = entry.remainingTime := by simp [Entry.launch, watched]
  obtain ⟨counting, maxTime, callback, -⟩ :=
    processRun_counts entry.launch entry.parent (same.symm ▸ positive)
  rw [same] at counting maxTime
  refine ⟨counting, callback, unchanged, ?_, ?_, by simp [taskRun], fun _ => by simp [taskRun]⟩
  · exact maxTime ▸ entry.signed
  · intro _ _ _
    simp only [taskRun, watched, Bool.false_eq_true, ↓reduceIte]
    exact congrArg Int.ofNat maxTime.symm

/-! ## The way to `process_kill` -/

theorem afterFirst_lt {time : Nat} (positive : 0 < time) : afterFirst time < time := by
  have heartbeat : 0 < HEARTBEAT := by decide
  unfold afterFirst
  omega

/-- With the timer alone the own countdown comes to `process_kill`. -/
theorem own_reached (counting : Own io time seen p) (alive : p.data.pid ≠ 0)
    (timer : armed p = some interval) :
    ∃ es q e t, run Process.step p es = some q ∧ Process.step q e = some t ∧ expires q e := by
  generalize bound : p.data.maxTime = left
  induction left using Nat.strong_induction_on generalizing p seen interval with
  | _ left shorter =>
  obtain ⟨positive, first, -⟩ := counting.counting.left interval timer alive
  have held := MainLoop.find?_eq_some.mpr (armed_eq_some.mp timer)
  have leaves := own_left counting.callback 0
  obtain ⟨t, taken⟩ : ∃ t, Process.step p (.timeout p.data.timeoutHandlerId 0 true) = some t := by
    simp [Process.step, held]
  by_cases spent : afterFirst p.data.maxTime = 0
  · refine ⟨[], p, _, t, rfl, taken, ?_⟩
    simp [expires, attempt, alive, leaves, spent]
  · obtain ⟨maxTime, next⟩ :=
      timeout_counts counting.counting.sound alive timer first leaves taken
    rw [if_neg spent] at next
    obtain ⟨es, q, e, u, ran, last, killed⟩ :=
      shorter _ (bound ▸ afterFirst_lt positive) (step_own seen p _ t counting taken)
        ((timeout_data taken).2 ▸ alive) next maxTime
    exact ⟨_ :: es, q, e, u, run_cons.mpr ⟨t, taken, ran⟩, last, killed⟩

/-- What a firing timer with time left makes of the countdown of the task. -/
theorem fire_goes (tasks : Tasks time seen s) (alive : s.process.data.pid ≠ 0)
    (fresh : s.killedAt = none) (timer : armed s.process = some interval) :
    ∃ t, fire s true = some t ∧
      (afterFirst s.process.data.maxTime = 0 → t.killedAt.isSome) ∧
      (afterFirst s.process.data.maxTime ≠ 0 → t.killedAt = none ∧ t.process.data.pid ≠ 0 ∧
        t.process.data.maxTime = afterFirst s.process.data.maxTime ∧ (armed t.process).isSome) := by
  obtain ⟨-, told⟩ := heartbeat_left tasks.unchanged tasks.small (tasks.agrees interval timer alive)
  have leaves : timeLeft s.process.data (timeRemain (taskHeartbeatCallback s)) =
      afterFirst s.process.data.maxTime := by
    simp only [timeLeft, tasks.callback, ↓reduceIte, told]
  obtain ⟨-, first, -⟩ := tasks.counting.left interval timer alive
  have held := MainLoop.find?_eq_some.mpr (armed_eq_some.mp timer)
  obtain ⟨process, moved⟩ : ∃ process, Process.step s.process
      (.timeout s.process.data.timeoutHandlerId (timeRemain (taskHeartbeatCallback s)) true) =
        some process := by
    simp [Process.step, held]
  obtain ⟨maxTime, next⟩ := timeout_counts tasks.counting.sound alive timer first leaves moved
  have pid := (timeout_data moved).2
  obtain ⟨t, called⟩ : ∃ t, fire s true = some t := by
    simp [fire, alive, moved]
  refine ⟨t, called, ?_⟩
  simp only [fire, alive, ↓reduceIte, moved, Option.map_some, Option.some.injEq] at called
  subst called
  refine ⟨?_, ?_⟩
  · intro spent
    simp [attempt, alive, leaves, spent, fresh]
  · intro goesOn
    rw [if_neg goesOn] at next
    simp [attempt, alive, leaves, goesOn, fresh, pid, maxTime, next]

/-- With the clock and the timer alone the countdown of the task comes to `process_kill`. -/
theorem tasks_reached (tasks : Tasks time seen s) (alive : s.process.data.pid ≠ 0)
    (fresh : s.killedAt = none) (timer : armed s.process = some interval) :
    ∃ es t e u, run (only Watchdog.step fun _ => unadjusted) s es = some t ∧
      only Watchdog.step (fun _ => unadjusted) t e = some u ∧ kills t e := by
  generalize bound : s.process.data.maxTime = left
  induction left using Nat.strong_induction_on generalizing s seen interval with
  | _ left shorter =>
  obtain ⟨positive, -, -⟩ := tasks.counting.left interval timer alive
  have ahead := tasks.ahead (by rw [timer]; rfl)
  -- the clock goes on until the timer is due
  have passed : only Watchdog.step (fun _ => unadjusted) s (.pass (s.due - s.now)) =
      some { s with now := s.now + (s.due - s.now) } := by
    refine only_eq_some.mpr ⟨trivial, if_neg ?_⟩
    rintro ⟨-, beyond⟩
    omega
  generalize waits : { s with now := s.now + (s.due - s.now) } = s' at passed
  have due : s'.now = s'.due := by
    rw [← waits]
    show s.now + (s.due - s.now) = s.due
    omega
  have tasks' := step_tasks seen s _ s' tasks passed
  have timer' : armed s'.process = some interval := by rw [← waits]; exact timer
  have alive' : s'.process.data.pid ≠ 0 := by rw [← waits]; exact alive
  have fresh' : s'.killedAt = none := by rw [← waits]; exact fresh
  have bound' : s'.process.data.maxTime = left := by rw [← waits]; exact bound
  obtain ⟨t, called, ends, goes⟩ := fire_goes tasks' alive' fresh' timer'
  have taken : Watchdog.step s' (.fire true) = some t := by
    simp only [Watchdog.step, timer', Option.isSome_some, due, and_self, ↓reduceIte, called]
  have allowed : only Watchdog.step (fun _ => unadjusted) s' (.fire true) = some t :=
    only_eq_some.mpr ⟨trivial, taken⟩
  by_cases spent : afterFirst s'.process.data.maxTime = 0
  · refine ⟨[_], s', .fire true, t, run_cons.mpr ⟨s', passed, rfl⟩, allowed, fresh', ?_⟩
    rw [taken]
    exact ends spent
  · obtain ⟨fresh, alive, maxTime, armed⟩ := goes spent
    obtain ⟨next, timer⟩ := Option.isSome_iff_exists.mp armed
    obtain ⟨es, u, e, v, ran, last, killed⟩ :=
      shorter _ (bound ▸ afterFirst_lt positive) (step_tasks _ s' _ t tasks' allowed) alive fresh timer
        (by rw [maxTime, bound'])
    exact ⟨_ :: _ :: es, u, e, v,
      run_cons.mpr ⟨s', passed, run_cons.mpr ⟨t, allowed, ran⟩⟩, last, killed⟩

/-! ## The theorem -/

/-- **The two countdowns wait the same intervals**, each a heartbeat at most, and come
to `process_kill` after exactly the time they were given. -/
theorem countdowns_agree {launch : Launch} (own : launch.timeoutCallback = false)
    (forked : 0 < launch.pid) (watched : entry.nolocalwatchdog = false)
    (unchanged : entry.timeChged = none) (same : launch.maxTime = entry.remainingTime)
    (positive : 0 < entry.remainingTime) :
    Waits Process.step (processRun launch) waited armed expires (intervals entry.remainingTime) ∧
      Waits (only Watchdog.step fun _ => unadjusted) (taskRun entry) fired
        (fun s => armed s.process) kills (intervals entry.remainingTime) ∧
      (∀ interval ∈ intervals entry.remainingTime, 0 < interval ∧ interval ≤ HEARTBEAT) ∧
      (intervals entry.remainingTime).sum = entry.remainingTime := by
  have positive' : 0 < launch.maxTime := same ▸ positive
  obtain ⟨counting, maxTime, callback, timer⟩ := processRun_counts launch forked positive'
  rw [← same]
  have start : Own launch.ioCallback launch.maxTime [] (processRun launch) :=
    ⟨counting, callback.trans own⟩
  have tasks := taskRun_tasks watched positive unchanged
  rw [← same] at tasks
  refine ⟨⟨?_, ?_, ?_⟩, ⟨?_, ?_, ?_⟩, fun _ => intervals_le, intervals_sum⟩
  · exact fun es p ran => (run_keeps_trace waited step_own start ran).counting.along
  · intro es p e q ran taken ends
    have here := run_keeps_trace waited step_own start ran
    rw [trace_step ran taken]
    cases e with
    | timeout id remaining killed =>
      obtain ⟨interval, rfl, timer, shown⟩ := waited_armed here.counting.sound taken
      rw [shown]
      exact here.counting.killed timer (fun _ => own_left here.callback remaining) ends
    | _ => exact absurd ends id
  · exact own_reached start (processRun_pid forked) timer
  · exact fun es s ran => (run_keeps_trace fired step_tasks tasks ran).counting.along
  · intro es s e t ran taken ends
    have after := run_keeps_trace fired step_tasks tasks
      (run_append.mpr ⟨s, ran, run_cons.mpr ⟨t, taken, run_nil.mpr rfl⟩⟩)
    obtain ⟨-, killed⟩ := ends
    rw [(only_eq_some.mp taken).2] at killed
    exact (after.killed killed).1
  · have first : armed (taskRun entry).process = _ := launch_armed watched positive
    exact tasks_reached tasks (processRun_pid entry.parent) rfl first

/-- A task with two and a half minutes left. -/
def shortTask : Entry where
  began := 0
  remainingTime := 150
  signed := by decide
  timeChged := none
  nolocalwatchdog := false
  pid := 7
  parent := by decide

theorem countdowns_agree_shortTask :
    intervals 150 = [60, 60, 30] ∧
      Waits Process.step (processRun { shortTask.launch with timeoutCallback := false }) waited armed
        expires (intervals 150) ∧
      Waits (only Watchdog.step fun _ => unadjusted) (taskRun shortTask) fired
        (fun s => armed s.process) kills (intervals 150) := by
  have agree := @countdowns_agree shortTask { shortTask.launch with timeoutCallback := false }
    rfl (by decide) rfl rfl rfl (by decide)
  exact ⟨by decide, agree.1, agree.2.1⟩

end Restraint.Countdown

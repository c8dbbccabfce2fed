import Restraint.Watchdog

/-! The watchdog kills on time. The remaining time in the task and the timer
in the process agree at every moment: without an adjustment the remaining time
is what is left of the deadline counted from the arming of the timer, with one
it counts from the adjustment, which the armed timer brackets. -/
namespace Restraint.WatchdogProofs
open Restraint.Process Restraint.ProcessProofs Restraint.Watchdog Transition

variable {s t : Watch} {p q : Run} {e : Watchdog.Event} {es : List Watchdog.Event} {entry : Entry}

/-! ## The timer of the process -/

theorem armed_eq_some {interval : Nat} : armed p = some interval ↔
    (p.data.timeoutHandlerId, .processTimeoutCallback interval) ∈ p.loop.sources := by
  rw [← MainLoop.find?_eq_some]
  unfold armed
  split
  · rename_i seconds found
    simp [found]
  · rename_i other
    constructor
    · simp
    · exact fun found => absurd found (other interval)

/-- A timer that was told at least a heartbeat stays armed for its interval. -/
theorem timeout_kept {interval remaining : Nat} {killed : Bool}
    (callback : p.data.timeoutCallback = true) (alive : p.data.pid ≠ 0)
    (timer : armed p = some interval) (long : HEARTBEAT ≤ remaining)
    (stepped : Process.step p (.timeout p.data.timeoutHandlerId remaining killed) = some q) :
    armed q = some interval := by
  have held := MainLoop.find?_eq_some.mpr (armed_eq_some.mp timer)
  have positive : 0 < remaining := Nat.lt_of_lt_of_le (by decide) long
  have notShort : ¬remaining < HEARTBEAT := by omega
  simp only [Process.step, held, processTimeoutCallback, alive, timeLeft, callback, positive,
    notShort, release, ↓reduceIte, Option.some.injEq] at stepped
  subst stepped
  exact timer

/-- A timer that was told less than a heartbeat is armed for that. -/
theorem timeout_residual {interval remaining : Nat} {killed : Bool}
    (callback : p.data.timeoutCallback = true) (alive : p.data.pid ≠ 0)
    (timer : armed p = some interval) (positive : 0 < remaining) (short : remaining < HEARTBEAT)
    (stepped : Process.step p (.timeout p.data.timeoutHandlerId remaining killed) = some q) :
    armed q = some remaining := by
  have member := armed_eq_some.mp timer
  have held := MainLoop.find?_eq_some.mpr member
  have old : p.data.timeoutHandlerId ≠ p.loop.next := Nat.ne_of_lt (p.loop.below _ member)
  simp only [Process.step, held, processTimeoutCallback, alive, timeLeft, callback, positive,
    short, release, ↓reduceIte, Bool.false_eq_true, Option.some.injEq] at stepped
  subst stepped
  rw [armed_eq_some]
  simp [MainLoop.mem_remove, old.symm]

/-- The callback and the pid of a process whose timer fires stay. -/
theorem timeout_data {remaining id : Nat} {killed : Bool}
    (stepped : Process.step p (.timeout id remaining killed) = some q) :
    q.data.timeoutCallback = p.data.timeoutCallback ∧ q.data.pid = p.data.pid := by
  cases step_dispatches stepped with
  | timeout => simp

/-- The other events of the process neither touch an armed timer nor the
callback while the child lives. -/
theorem other_timer {e : Process.Event} {interval : Nat} (stepped : Process.step p e = some q)
    (untimed : ∀ id remaining killed, e ≠ .timeout id remaining killed)
    (uncancelled : ∀ killed, e ≠ .cancel killed) (alive : q.data.pid ≠ 0)
    (timer : armed p = some interval) : armed q = some interval := by
  rw [armed_eq_some] at timer ⊢
  cases step_dispatches stepped with
  | childExit => exact absurd (childExit_data stepped).1 alive
  | output => exact timer
  | outputEnd held =>
    simp only [processIoFinish, scheduleFinish_timeout]
    rw [scheduleFinish_sources (by simp)]
    exact (MainLoop.mem_remove_other held (by simp)).mpr timer
  | timeout => exact absurd rfl (untimed _ _ _)
  | early held => exact (MainLoop.mem_remove_other held (by simp)).mpr timer
  | finish held reaped =>
    simp only [release_data, processPidFinish_pid] at alive
    exact absurd reaped alive
  | cancel => exact absurd rfl (uncancelled _)
  | unconnected => exact timer

theorem other_callback {e : Process.Event} (stepped : Process.step p e = some q)
    (untimed : ∀ id remaining killed, e ≠ .timeout id remaining killed)
    (uncancelled : ∀ killed, e ≠ .cancel killed) :
    q.data.timeoutCallback = p.data.timeoutCallback ∧ (p.data.pid = 0 → q.data.pid = 0) := by
  cases step_dispatches stepped with
  | childExit => simp [processPidCallback]
  | outputEnd => simp [processIoFinish]
  | timeout => exact absurd rfl (untimed _ _ _)
  | cancel => exact absurd rfl (uncancelled _)
  | _ => simp

/-! ## The books -/

/-- How the remaining time is counted while the timer is armed for `interval`. -/
def Booked (s : Watch) (interval : Nat) : Prop :=
  match s.timeChged with
  | none =>
    s.remainingTime + s.due = s.base + s.seconds + interval ∧ interval ≤ s.remainingTime ∧
      (s.remainingTime < HEARTBEAT → s.remainingTime = interval) ∧ s.seconds < 2 ^ 63 ∧
      s.base + interval ≤ s.due
  | some changed =>
    changed = s.base ∧ s.remainingTime = (s.seconds : Int).bmod (2 ^ 64) ∧
      s.seconds < 2 ^ 64 ∧ s.base ≤ s.now ∧ s.due ≤ s.base + s.seconds + HEARTBEAT

/-- The timer is armed for at most a heartbeat and fires on time. -/
structure Ticking (s : Watch) (interval : Nat) : Prop where
  timer : armed s.process = some interval
  positive : 0 < interval
  short : interval ≤ HEARTBEAT
  ahead : s.now ≤ s.due
  near : s.due ≤ s.now + interval
  booked : Booked s interval

/-- What holds in every state of a run that agrees. -/
structure OnTime (s : Watch) : Prop where
  callback : s.process.data.timeoutCallback = true
  watching : s.process.data.pid ≠ 0 → s.killedAt = none → ∃ interval, Ticking s interval
  killed : ∀ time, s.killedAt = some time → s.seconds < 2 ^ 63 →
    deadline s ≤ time ∧ time ≤ deadline s + HEARTBEAT

private theorem pass_onTime {seconds : Nat} (onTime : OnTime s)
    (before : ¬((armed s.process).isSome ∧ s.due < s.now + seconds)) :
    OnTime { s with now := s.now + seconds } := by
  refine ⟨onTime.callback, ?_, onTime.killed⟩
  intro alive unkilled
  obtain ⟨interval, ticking⟩ := onTime.watching alive unkilled
  have ahead : s.now + seconds ≤ s.due := by
    have timer := ticking.timer
    simp only [timer, Option.isSome_some, true_and, not_lt] at before
    exact before
  refine ⟨interval, ticking.timer, ticking.positive, ticking.short, ahead, ?_, ?_⟩
  · have near := ticking.near
    show s.due ≤ s.now + seconds + interval
    omega
  · have booked := ticking.booked
    unfold Booked at booked ⊢
    cases changed : s.timeChged with
    | none => simpa [changed] using booked
    | some changed' =>
      simp only [changed] at booked ⊢
      omega

private theorem adjust_onTime {seconds : UInt64} (onTime : OnTime s) :
    OnTime (serverWatchdog s seconds) := by
  unfold serverWatchdog
  split
  · exact onTime
  refine ⟨onTime.callback, ?_, ?_⟩
  · intro alive unkilled
    have unkilled : s.killedAt = none := unkilled
    obtain ⟨interval, ticking⟩ := onTime.watching alive unkilled
    have near := ticking.near
    have short := ticking.short
    refine ⟨interval, ticking.timer, ticking.positive, ticking.short, ticking.ahead, near, ?_⟩
    simp only [Booked, unkilled, Option.isSome_none, Bool.false_eq_true, ↓reduceIte]
    exact ⟨trivial, trivial, seconds.toNat_lt, Nat.le_refl _, by omega⟩
  · intro time killed small
    have killed : s.killedAt = some time := killed
    simp only [killed, Option.isSome_some, ↓reduceIte, deadline] at small ⊢
    exact onTime.killed time killed small

/-- What the heartbeat leaves: the time to the deadline, or nothing at a time
when the process may be killed. -/
def Settles (s : Watch) (left : Int) : Prop :=
  (0 < left ∧ left + s.now = s.base + s.seconds ∧ s.seconds < 2 ^ 63 ∧ left < 2 ^ 63) ∨
    (left = 0 ∧ (s.seconds < 2 ^ 63 → deadline s ≤ s.now ∧ s.now ≤ deadline s + HEARTBEAT))

/-- Without an adjustment the interval of the timer is deducted, because it was
either a full heartbeat or all that remained. -/
theorem unadjusted_settles {interval : Nat} {killed : Bool} (ticking : Ticking s interval)
    (due : s.now = s.due) (unchanged : s.timeChged = none)
    (agreed : agrees s (.fire killed)) :
    Settles s (taskHeartbeatCallback s).remainingTime := by
  have booked := ticking.booked
  have timer := ticking.timer
  have short := ticking.short
  simp only [Booked, unchanged] at booked
  simp only [agrees, unchanged, timer, Option.some.injEq] at agreed
  obtain ⟨counted, fits, least, small, later⟩ := booked
  simp only [HEARTBEAT] at short agreed least
  simp only [taskHeartbeatCallback, unchanged, Settles, deadline, HEARTBEAT]
  by_cases long : s.remainingTime > (1 * 60 : Nat)
  · simp only [long, ↓reduceIte]
    left
    omega
  · simp only [long, ↓reduceIte]
    refine .inr ⟨trivial, fun _ => ?_⟩
    omega

/-- The remaining time counts as a signed number. -/
theorem signed_seconds {seconds : Nat} (unsigned : seconds < 2 ^ 64)
    (nonneg : 0 ≤ (seconds : Int).bmod (2 ^ 64)) :
    (seconds : Int).bmod (2 ^ 64) = seconds ∧ seconds < 2 ^ 63 := by
  rw [Int.bmod_def] at nonneg ⊢
  split at nonneg <;> omega

/-- With an adjustment the time since it is deducted. -/
theorem adjusted_settles {interval : Nat} {changed : Int} {killed : Bool}
    (ticking : Ticking s interval) (due : s.now = s.due) (adjusted : s.timeChged = some changed)
    (agreed : agrees s (.fire killed)) :
    Settles s (taskHeartbeatCallback s).remainingTime := by
  have booked := ticking.booked
  simp only [Booked, adjusted] at booked
  simp only [agrees, adjusted] at agreed
  obtain ⟨rfl, counted, unsigned, after, bracketed⟩ := booked
  have signed : s.seconds < 2 ^ 63 → s.remainingTime = s.seconds := by
    intro small
    rw [counted, Int.bmod_def]
    split <;> omega
  have backwards : 0 < s.remainingTime → s.seconds < 2 ^ 63 := by
    intro positive
    exact (signed_seconds unsigned (by omega)).2
  simp only [taskHeartbeatCallback, adjusted, Settles, deadline]
  by_cases some : s.remainingTime ≠ 0
  · simp only [some, ne_eq, not_false_eq_true, ↓reduceIte]
    split
    · rename_i later
      -- the double is still positive, and so is the integer it is rounded from
      have positive : 0 < s.remainingTime - (s.now - s.base) := by
        rw [← agreed]
        exact Binary64.ofInt_pos (by omega)
      have small := backwards (by omega)
      have whole := signed small
      rw [agreed, Binary64.toInt64_of_lt (by omega) (by omega)]
      left
      omega
    · rename_i passed
      right
      refine ⟨rfl, fun small => ?_⟩
      have whole := signed small
      have none : s.remainingTime - (s.now - s.base) ≤ 0 := by
        rw [← agreed]
        exact Binary64.ofInt_nonpos (by omega)
      omega
  · simp only [some, ↓reduceIte]
    have zero : s.remainingTime = 0 := not_not.mp some
    right
    refine ⟨zero, fun small => ?_⟩
    have whole := signed small
    simp only [HEARTBEAT] at bracketed ⊢
    omega

private theorem fire_settles {interval : Nat} {killed : Bool} (ticking : Ticking s interval)
    (due : s.now = s.due) (agreed : agrees s (.fire killed)) :
    Settles s (taskHeartbeatCallback s).remainingTime := by
  cases changed : s.timeChged with
  | none => exact unadjusted_settles ticking due changed agreed
  | some at' => exact adjusted_settles ticking due changed agreed

/-- The heartbeat uses up the adjustment and touches nothing but the books. -/
theorem heartbeat_frame (s : Watch) :
    (taskHeartbeatCallback s).timeChged = none ∧ (taskHeartbeatCallback s).now = s.now ∧
      (taskHeartbeatCallback s).base = s.base ∧ (taskHeartbeatCallback s).seconds = s.seconds ∧
      (taskHeartbeatCallback s).killedAt = s.killedAt := by
  unfold taskHeartbeatCallback
  split
  · split <;> exact ⟨rfl, rfl, rfl, rfl, rfl⟩
  · rename_i changed
    exact ⟨changed, rfl, rfl, rfl, rfl⟩

/-- The small positive seconds survive the trip through `guint64`. -/
theorem timeRemain_eq {left : Nat} (remaining : s.remainingTime = left) (small : left < 2 ^ 63) :
    timeRemain s = left := by
  unfold timeRemain
  omega

theorem Ticking.after {interval : Nat} (ticking : Ticking s interval) : s.base ≤ s.now := by
  have booked := ticking.booked
  have near := ticking.near
  unfold Booked at booked
  split at booked <;> omega

/-- The watchdog kills when the heartbeat leaves nothing. -/
theorem fire_attempt {killed : Bool} (callback : s.process.data.timeoutCallback = true)
    (alive : s.process.data.pid ≠ 0)
    (settles : Settles s (taskHeartbeatCallback s).remainingTime) :
    (attempt s.process (.timeout s.process.data.timeoutHandlerId
        (timeRemain (taskHeartbeatCallback s)) killed)).isSome ↔
      (taskHeartbeatCallback s).remainingTime = 0 := by
  simp only [attempt, alive, timeLeft, callback, ↓reduceIte, ne_eq, not_false_eq_true, true_and]
  unfold timeRemain
  constructor
  · intro tried
    split at tried
    · rcases settles with ⟨positive, -, -, signed⟩ | ⟨zero, -⟩ <;> omega
    · simp at tried
  · intro zero
    simp [zero]

/-- A live process whose timer fires with time left goes on ticking. -/
theorem fire_ticking {interval : Nat} {killed : Bool} (callback : s.process.data.timeoutCallback)
    (alive : s.process.data.pid ≠ 0) (ticking : Ticking s interval) (due : s.now = s.due)
    (left : 0 < (taskHeartbeatCallback s).remainingTime ∧
      (taskHeartbeatCallback s).remainingTime + s.now = s.base + s.seconds ∧
      s.seconds < 2 ^ 63 ∧ (taskHeartbeatCallback s).remainingTime < 2 ^ 63)
    (stepped : Process.step s.process (.timeout s.process.data.timeoutHandlerId
      (timeRemain (taskHeartbeatCallback s)) killed) = some q) (killedAt : Option Nat) :
    ∃ interval, Ticking { taskHeartbeatCallback s with
      process := q, due := s.now + (armed q).getD 0, killedAt := killedAt } interval := by
  obtain ⟨positive, counted, small, signed⟩ := left
  obtain ⟨unchanged, now, base, seconds, -⟩ := heartbeat_frame s
  obtain ⟨remaining, whole⟩ := Int.eq_ofNat_of_zero_le (Int.le_of_lt positive)
  rw [whole] at positive counted signed
  have told := timeRemain_eq whole (by omega)
  rw [told] at stepped
  have short := ticking.short
  have nonzero := ticking.positive
  have after := ticking.after
  by_cases long : HEARTBEAT ≤ remaining
  · have timer := timeout_kept callback alive ticking.timer long stepped
    refine ⟨interval, timer, nonzero, short, by simp [now, timer], by simp [now, timer], ?_⟩
    simp only [Booked, unchanged, whole, base, seconds, timer, Option.getD_some]
    simp only [HEARTBEAT] at long short ⊢
    omega
  · have timer := timeout_residual callback alive ticking.timer (by omega) (by omega) stepped
    refine ⟨remaining, timer, by omega, by omega, by simp [now, timer], by simp [now, timer], ?_⟩
    simp only [Booked, unchanged, whole, base, seconds, timer, Option.getD_some]
    exact ⟨by omega, Int.le_refl _, fun _ => trivial, small, by omega⟩

/-- A step of the process that no timer takes keeps the watchdog on time. -/
theorem lift_onTime {e : Process.Event} (onTime : OnTime s)
    (untimed : ∀ id remaining killed, e ≠ .timeout id remaining killed)
    (uncancelled : ∀ killed, e ≠ .cancel killed) (stepped : liftStep s e = some t) :
    OnTime t := by
  simp only [liftStep, Option.map_eq_some_iff] at stepped
  obtain ⟨process, moved, rfl⟩ := stepped
  obtain ⟨callback, dead⟩ := other_callback moved untimed uncancelled
  refine ⟨callback.trans onTime.callback, ?_, onTime.killed⟩
  intro alive unkilled
  have before : s.process.data.pid ≠ 0 := fun reaped => alive (dead reaped)
  obtain ⟨interval, ticking⟩ := onTime.watching before unkilled
  have timer := other_timer moved untimed uncancelled alive ticking.timer
  exact ⟨interval, timer, ticking.positive, ticking.short, ticking.ahead, ticking.near,
    ticking.booked⟩

private theorem fire_onTime {killed : Bool} (onTime : OnTime s) (due : s.now = s.due)
    (agreed : agrees s (.fire killed)) (stepped : fire s killed = some t) : OnTime t := by
  simp only [fire, Option.map_eq_some_iff] at stepped
  obtain ⟨process, moved, rfl⟩ := stepped
  obtain ⟨callback, pid⟩ := timeout_data moved
  obtain ⟨unchanged, now, base, seconds, dead⟩ := heartbeat_frame s
  by_cases reaped : s.process.data.pid = 0
  · have idle : attempt s.process (.timeout s.process.data.timeoutHandlerId (timeRemain s)
        killed) = none := by simp [attempt, reaped]
    simp only [reaped, ↓reduceIte, idle, Option.isSome_none, Bool.false_eq_true]
    exact ⟨callback.trans onTime.callback, fun alive => absurd (pid.trans reaped) alive,
      onTime.killed⟩
  simp only [reaped, ↓reduceIte] at moved ⊢
  have tried : ∀ interval, Ticking s interval → ((attempt s.process
      (.timeout s.process.data.timeoutHandlerId (timeRemain (taskHeartbeatCallback s))
        killed)).isSome ↔ (taskHeartbeatCallback s).remainingTime = 0) :=
    fun interval ticking => fire_attempt onTime.callback reaped (fire_settles ticking due agreed)
  refine ⟨callback.trans onTime.callback, ?_, ?_⟩
  · intro alive unkilled
    dsimp only at unkilled
    split at unkilled
    · simp at unkilled
    · rename_i untried
      obtain ⟨interval, ticking⟩ := onTime.watching reaped unkilled
      rcases fire_settles ticking due agreed with left | ⟨zero, -⟩
      · exact fire_ticking onTime.callback reaped ticking due left moved _
      · exact absurd ((tried interval ticking).mpr zero) untried
  · intro time killedAt small
    simp only [seconds] at small
    simp only [deadline, base, seconds]
    cases already : s.killedAt with
    | some before =>
      simp only [already, Option.some_or, ite_self, Option.some.injEq] at killedAt
      subst killedAt
      exact onTime.killed before already small
    | none =>
      obtain ⟨interval, ticking⟩ := onTime.watching reaped already
      simp only [already, Option.none_or] at killedAt
      split at killedAt
      · rename_i attempted
        have zero := (tried interval ticking).mp attempted
        simp only [Option.some.injEq] at killedAt
        subst killedAt
        rcases fire_settles ticking due agreed with ⟨positive, -⟩ | ⟨-, timely⟩
        · omega
        · exact timely small
      · simp at killedAt

private theorem step_onTime (s : Watch) (e : Watchdog.Event) (t : Watch) (onTime : OnTime s)
    (stepped : only Watchdog.step agrees s e = some t) : OnTime t := by
  obtain ⟨agreed, stepped⟩ := only_eq_some.mp stepped
  cases e with
  | pass seconds =>
    simp only [Watchdog.step] at stepped
    split at stepped
    · cases stepped
    · rename_i before
      cases stepped
      exact pass_onTime onTime before
  | adjust seconds =>
    cases stepped
    exact adjust_onTime onTime
  | fire killed =>
    simp only [Watchdog.step] at stepped
    split at stepped
    · rename_i due
      exact fire_onTime onTime due.2 agreed stepped
    · cases stepped
  | childExit id status => exact lift_onTime onTime (by simp) (by simp) stepped
  | output id keep => exact lift_onTime onTime (by simp) (by simp) stepped
  | idle id => exact lift_onTime onTime (by simp) (by simp) stepped

/-! ## The start -/

/-- The first timer is armed for all of a short time and a heartbeat of a long one. -/
theorem launch_armed (watched : entry.nolocalwatchdog = false)
    (positive : 0 < entry.remainingTime) :
    armed (processRun entry.launch) =
      some (if entry.remainingTime < HEARTBEAT then entry.remainingTime else HEARTBEAT) := by
  have parent : ¬entry.pid < 0 := Int.not_lt.mpr (Int.le_of_lt entry.parent)
  have timed : entry.remainingTime ≠ 0 := Nat.ne_of_gt positive
  rw [armed_eq_some]
  simp [processRun, Entry.launch, parent, connectCancellable, armTimeout, forked, watched, timed,
    watchIo, watchPid]

private theorem launch_callback (watched : entry.nolocalwatchdog = false)
    (positive : 0 < entry.remainingTime) :
    (processRun entry.launch).data.timeoutCallback = true := by
  have parent : ¬entry.pid < 0 := Int.not_lt.mpr (Int.le_of_lt entry.parent)
  have timed : entry.remainingTime ≠ 0 := Nat.ne_of_gt positive
  simp [processRun, Entry.launch, parent, connectCancellable, armTimeout, forked, watched, timed,
    watchIo, watchPid]

/-- An adjustment that waits at the start was made before it, and the first timer comes no later than
a heartbeat after the deadline. -/
def Timely (entry : Entry) : Prop :=
  ∀ changed, entry.timeChged = some changed → 0 ≤ changed ∧ changed ≤ entry.began ∧
    entry.began + min entry.remainingTime HEARTBEAT ≤ changed + entry.remainingTime + HEARTBEAT

private theorem taskRun_onTime (watched : entry.nolocalwatchdog = false)
    (positive : 0 < entry.remainingTime) (timely : Timely entry) : OnTime (taskRun entry) := by
  refine ⟨launch_callback watched positive, ?_, by simp [taskRun]⟩
  intro _ _
  have timer := launch_armed watched positive
  have signed := entry.signed
  refine ⟨_, timer, ?_, ?_, ?_, ?_, ?_⟩
  · split
    · exact positive
    · decide
  · split <;> omega
  · simp [taskRun]
  · simp [taskRun, timer]
  · cases waiting : entry.timeChged with
    | none =>
      simp only [Booked, taskRun, waiting, watched, timer, Bool.false_eq_true, ↓reduceIte,
        Option.getD_some]
      split <;> omega
    | some changed =>
      obtain ⟨nonneg, earlier, near⟩ := timely changed waiting
      have whole : ((entry.remainingTime : Int)).bmod (2 ^ 64) = entry.remainingTime :=
        Int.bmod_eq_of_le (by omega) (by omega)
      simp only [Booked, taskRun, waiting, watched, timer, Bool.false_eq_true, ↓reduceIte,
        Option.getD_some, whole]
      refine ⟨by omega, trivial, by omega, by omega, ?_⟩
      split <;> omega

/-! ## The theorem -/

/-- **The local watchdog kills on time.** A process started with a watchdog, and with no adjustment
waiting or with one that the first timer does not come too late for, in a run that agrees at every
fire: the watchdog never kills it before the deadline given last, nor later than one heartbeat after
it, and while it is neither killed nor dead its timer is armed and due by then. -/
theorem watchdog_kills_on_time (watched : entry.nolocalwatchdog = false)
    (positive : 0 < entry.remainingTime) (timely : Timely entry)
    (ran : run (only Watchdog.step agrees) (taskRun entry) es = some s)
    (fits : deadline s < 2 ^ 63) :
    (∀ time, s.killedAt = some time → deadline s ≤ time ∧ time ≤ deadline s + HEARTBEAT) ∧
      (s.process.data.pid ≠ 0 → s.killedAt = none →
        (armed s.process).isSome ∧ s.now ≤ s.due ∧ s.due ≤ deadline s + HEARTBEAT) := by
  have onTime : OnTime s :=
    run_keeps step_onTime (taskRun_onTime watched positive timely) ran
  have small : s.seconds < 2 ^ 63 := Nat.lt_of_le_of_lt (Nat.le_add_left _ _) fits
  refine ⟨fun time killed => onTime.killed time killed small, ?_⟩
  intro alive unkilled
  obtain ⟨interval, ticking⟩ := onTime.watching alive unkilled
  refine ⟨by simp [ticking.timer], ticking.ahead, ?_⟩
  have booked := ticking.booked
  have short := ticking.short
  unfold Booked at booked
  unfold deadline
  split at booked <;> omega

/-- A task that starts 100 seconds after it was adjusted to 350 seconds, and is adjusted to 70
seconds after 100 more, is killed at 270 seconds. -/
theorem watchdog_kills_on_time_adjusted :
    ∃ s, run (only Watchdog.step agrees)
        (taskRun ⟨100, 350, by decide, some 0, false, 7, by decide⟩)
        [.pass 60, .fire true, .pass 40, .adjust 70, .pass 20, .fire true, .pass 50, .fire true] =
        some s ∧ s.killedAt = some 270 ∧ deadline s = 270 ∧ 270 ≤ deadline s + HEARTBEAT := by
  refine ⟨_, rfl, rfl, rfl, ?_⟩
  have ran : run (only Watchdog.step agrees)
      (taskRun ⟨100, 350, by decide, some 0, false, 7, by decide⟩)
      [.pass 60, .fire true, .pass 40, .adjust 70, .pass 20, .fire true, .pass 50, .fire true] =
      some _ := rfl
  have timely : Timely ⟨100, 350, by decide, some 0, false, 7, by decide⟩ := by
    rintro changed ⟨⟩
    decide
  exact ((watchdog_kills_on_time rfl (by decide) timely ran (by decide)).1 270 rfl).2

/-- A task of one second adjusted to 61 seconds at its start is killed after
two seconds: the timer stays at one second while a full heartbeat is deducted. -/
theorem watchdog_kills_early :
    ∃ s, run Watchdog.step (taskRun ⟨0, 1, by decide, none, false, 7, by decide⟩)
        [.adjust 61, .pass 1, .fire true, .pass 1, .fire true] = some s ∧
      s.killedAt = some 2 ∧ deadline s = 61 :=
  ⟨_, rfl, rfl, rfl⟩

end Restraint.WatchdogProofs

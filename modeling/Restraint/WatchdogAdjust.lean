import Restraint.WatchdogProofs
import Restraint.Lib.CString
import Restraint.Lib.Decimal

/-! The arithmetic of a watchdog adjustment: what is forwarded to the lab controller, and what the
next heartbeat leaves of it. Both sides compute with 64 bits, and the heartbeat goes through a
double on the way. An adjustment is honoured when neither of them shows. -/
namespace Restraint.WatchdogAdjust
open Transition
open CString (Text)
open Restraint.Process Restraint.Watchdog Restraint.WatchdogProofs

/-- `EWD_TIME`. -/
def EWD_TIME : UInt64 := 30 * 60

/-- `max_time` of the watchdog request; a form without `seconds` asks for 0. -/
def maxTime (seconds : Option Text) : UInt64 :=
  UInt64.ofNat ((seconds.map fun seconds => (Decimal.strtoull seconds).1).getD 0)

/-- The watchdog branch of `server_recipe_callback`: what becomes of the task, and the seconds in
the form for the lab controller. -/
def watchdogRequest (s : Watch) (seconds : Option Text) : Watch × Text :=
  (serverWatchdog s (maxTime seconds), Decimal.print (maxTime seconds + EWD_TIME).toNat)

/-- The next heartbeat after an adjustment, so many seconds later. -/
def nextHeartbeat (s : Watch) (seconds : Option Text) (elapsed : Nat) : Watch :=
  { (watchdogRequest s seconds).1 with now := s.now + elapsed }

/-- An adjustment is honoured: the lab controller gets the seconds and `EWD_TIME`, and a heartbeat
before they are over leaves the rest of them and does not kill the task. -/
structure Honoured (s : Watch) (seconds : Option Text) : Prop where
  forwarded : (watchdogRequest s seconds).2 = Decimal.print ((maxTime seconds).toNat + 30 * 60)
  remaining (elapsed : Nat) (early : elapsed < (maxTime seconds).toNat) :
    (taskHeartbeatCallback (nextHeartbeat s seconds elapsed)).remainingTime =
      (maxTime seconds).toNat - elapsed
  positive (elapsed : Nat) (early : elapsed < (maxTime seconds).toNat) :
    0 < (taskHeartbeatCallback (nextHeartbeat s seconds elapsed)).remainingTime
  spared (elapsed : Nat) (early : elapsed < (maxTime seconds).toNat) (killed : Bool) :
    attempt s.process (.timeout s.process.data.timeoutHandlerId
      (timeRemain (taskHeartbeatCallback (nextHeartbeat s seconds elapsed))) killed) = none

variable {s t : Watch} {entry : Entry} {e : Watchdog.Event} {es : List Watchdog.Event}
  {seconds : Option Text} {elapsed : Nat}

/-- A watched task is asked for its remaining time. -/
structure Watched (s : Watch) : Prop where
  watched : s.nolocalwatchdog = false
  callback : s.process.data.timeoutCallback = true

private theorem heartbeat_watched (s : Watch) :
    (taskHeartbeatCallback s).nolocalwatchdog = s.nolocalwatchdog := by
  unfold taskHeartbeatCallback
  split
  · split <;> rfl
  · rfl

private theorem taskRun_watched (watched : entry.nolocalwatchdog = false) : Watched (taskRun entry) := by
  have parent : ¬entry.pid < 0 := Int.not_lt.mpr (Int.le_of_lt entry.parent)
  refine ⟨watched, ?_⟩
  simp only [taskRun, processRun, Entry.launch, parent, connectCancellable, armTimeout, forked,
    ↓reduceIte, watchIo, watchPid]
  split
  · split <;> rfl
  · split <;> rfl

private theorem step_watched (watched : Watched s) (stepped : Watchdog.step s e = some t) :
    Watched t := by
  have lift {e : Process.Event} (lifted : liftStep s e = some t)
      (untimed : ∀ id remaining killed, e ≠ .timeout id remaining killed)
      (uncancelled : ∀ killed, e ≠ .cancel killed) : Watched t := by
    obtain ⟨process, taken, rfl⟩ := Option.map_eq_some_iff.mp lifted
    exact ⟨watched.watched, (other_callback taken untimed uncancelled).1.trans watched.callback⟩
  cases e with
  | pass seconds =>
    simp only [Watchdog.step] at stepped
    split at stepped
    · cases stepped
    · cases stepped
      exact ⟨watched.watched, watched.callback⟩
  | adjust seconds =>
    cases stepped
    unfold serverWatchdog
    split <;> exact ⟨watched.watched, watched.callback⟩
  | fire killed =>
    simp only [Watchdog.step] at stepped
    split at stepped
    · obtain ⟨process, fired, rfl⟩ := Option.map_eq_some_iff.mp stepped
      refine ⟨?_, (timeout_data fired).1.trans watched.callback⟩
      dsimp only
      split
      · exact watched.watched
      · exact (heartbeat_watched s).trans watched.watched
    · cases stepped
  | childExit id status => exact lift stepped (by simp) (by simp)
  | output id keep => exact lift stepped (by simp) (by simp)
  | idle id => exact lift stepped (by simp) (by simp)

private theorem run_watched (watched : entry.nolocalwatchdog = false)
    (reached : run Watchdog.step (taskRun entry) es = some s) : Watched s :=
  run_keeps (fun _ _ _ => step_watched) (taskRun_watched watched) reached

/-! ## The lab controller -/

theorem forwarded_iff (s : Watch) : (watchdogRequest s seconds).2 =
      Decimal.print ((maxTime seconds).toNat + 30 * 60) ↔
    (maxTime seconds).toNat + 30 * 60 < 2 ^ 64 := by
  have bound : (maxTime seconds).toNat < 2 ^ 64 := (maxTime seconds).toNat_lt
  have sum : (maxTime seconds + EWD_TIME).toNat = ((maxTime seconds).toNat + 30 * 60) % 2 ^ 64 :=
    UInt64.toNat_add _ _
  rw [watchdogRequest, sum]
  constructor
  · intro forwarded
    have same := Decimal.print_injective forwarded
    omega
  · intro fits
    rw [Nat.mod_eq_of_lt fits]

/-! ## The heartbeat -/

/-- What a heartbeat leaves of the seconds, after a while: the seconds go through a signed number
and a double. -/
def left (seconds elapsed : Nat) : Int :=
  if Binary64.ofInt elapsed < Binary64.ofInt ((seconds : Int).bmod (2 ^ 64)) then
    Binary64.toInt64 (Binary64.sub (Binary64.ofInt ((seconds : Int).bmod (2 ^ 64)))
      (Binary64.ofInt elapsed))
  else 0

private theorem signed_of_lt {seconds : Nat} (small : seconds < 2 ^ 63) :
    (seconds : Int).bmod (2 ^ 64) = seconds :=
  Int.bmod_eq_of_le (by omega) (by omega)

private theorem signed_of_le {seconds : Nat} (large : 2 ^ 63 ≤ seconds) (bound : seconds < 2 ^ 64) :
    (seconds : Int).bmod (2 ^ 64) = seconds - 2 ^ 64 := by
  rw [Int.bmod_def]
  split <;> omega

private theorem signed_ne_zero {seconds : Nat} (positive : 0 < seconds) (bound : seconds < 2 ^ 64) :
    (seconds : Int).bmod (2 ^ 64) ≠ 0 := by
  rcases Nat.lt_or_ge seconds (2 ^ 63) with small | large
  · rw [signed_of_lt small]
    omega
  · rw [signed_of_le large bound]
    omega

private theorem nextHeartbeat_remaining (watched : s.nolocalwatchdog = false)
    (positive : 0 < (maxTime seconds).toNat) :
    (taskHeartbeatCallback (nextHeartbeat s seconds elapsed)).remainingTime =
      left (maxTime seconds).toNat elapsed := by
  have asked := signed_ne_zero positive (maxTime seconds).toNat_lt
  have passed : ((s.now + elapsed : Nat) : Int) - (s.now : Int) = elapsed := by omega
  simp only [taskHeartbeatCallback, nextHeartbeat, watchdogRequest, serverWatchdog, watched,
    Bool.false_eq_true, ↓reduceIte, asked, ne_eq, not_false_eq_true, passed, left]

/-- Up to 2⁵³ seconds the doubles are exact. -/
theorem left_of_le {seconds : Nat} (small : seconds ≤ 2 ^ 53) (early : elapsed < seconds) :
    left seconds elapsed = seconds - elapsed := by
  have difference : (seconds : Int) - (elapsed : Int) = (seconds - elapsed : Nat) := by omega
  rw [left, signed_of_lt (by omega), Binary64.ofInt_natCast small,
    Binary64.ofInt_natCast (by omega), if_pos (by omega), Binary64.sub, difference,
    Binary64.ofInt_natCast (by omega), Binary64.toInt64_of_lt (by omega) (by omega)]

/-- Seconds that are negative as a signed number are over at once. -/
theorem left_of_negative {seconds : Nat} (large : 2 ^ 63 ≤ seconds) (bound : seconds < 2 ^ 64) :
    left seconds 0 = 0 := by
  have negative : Binary64.ofInt ((seconds : Int).bmod (2 ^ 64)) ≤ 0 := by
    rw [signed_of_le large bound]
    exact Binary64.ofInt_nonpos (by omega)
  have zero : Binary64.ofInt ((0 : Nat) : Int) = 0 := rfl
  rw [left, zero, if_neg (Int.not_lt.mpr negative)]

/-- A double is even or below 2⁵³, and so is its integer. -/
theorem toInt64_ofInt_even_or_small (n : Int) :
    2 ∣ Binary64.toInt64 (Binary64.ofInt n) ∨ Binary64.toInt64 (Binary64.ofInt n) < 2 ^ 53 := by
  unfold Binary64.toInt64
  split
  · rcases Int.lt_or_le n (2 ^ 53) with small | large
    · right
      rcases Int.lt_or_le 0 n with positive | nonpositive
      · rw [Binary64.ofInt_of_lt (by omega)]
        exact small
      · have rounded := Binary64.ofInt_nonpos nonpositive
        omega
    · left
      obtain ⟨m, rfl⟩ := Int.eq_ofNat_of_zero_le (a := n) (by omega)
      exact Int.natCast_dvd_natCast.mpr (Binary64.two_dvd_roundNat (by omega))
  · exact .inl (by decide)

/-- Beyond 2⁵³ seconds some heartbeat does not leave the rest of them. -/
theorem exists_left_ne {seconds : Nat} (large : 2 ^ 53 < seconds) (bound : seconds < 2 ^ 64) :
    ∃ elapsed : Nat, elapsed < seconds ∧ left seconds elapsed ≠ seconds - elapsed := by
  rcases Nat.lt_or_ge seconds (2 ^ 63) with signed | negative
  · -- the rest is odd and not small
    refine ⟨1 - seconds % 2, by omega, fun kept => ?_⟩
    unfold left at kept
    split at kept
    · have rounded := toInt64_ofInt_even_or_small
        (Binary64.ofInt ((seconds : Int).bmod (2 ^ 64)) -
          Binary64.ofInt ((1 - seconds % 2 : Nat) : Int))
      rw [← Binary64.sub, kept] at rounded
      omega
    · omega
  · refine ⟨0, by omega, ?_⟩
    rw [left_of_negative negative bound]
    omega

/-- The process goes on when it is told a time that is not over. -/
theorem attempt_of_remaining {remaining id : Nat} {killed : Bool}
    (callback : s.process.data.timeoutCallback = true) (positive : 0 < remaining) :
    attempt s.process (.timeout id remaining killed) = none := by
  simp [attempt, timeLeft, callback, Nat.ne_of_gt positive]

/-! ## Adjustments -/

/-- Whenever a task with a local watchdog runs, an adjustment is honoured if and only if it is for
no more than 2⁵³ seconds. -/
theorem adjustment_honoured_iff (watched : entry.nolocalwatchdog = false)
    (reached : run Watchdog.step (taskRun entry) es = some s) :
    Honoured s seconds ↔ (maxTime seconds).toNat ≤ 2 ^ 53 := by
  have guarded := run_watched watched reached
  have bound : (maxTime seconds).toNat < 2 ^ 64 := (maxTime seconds).toNat_lt
  constructor
  · intro honoured
    by_contra large
    obtain ⟨elapsed, early, lost⟩ := exists_left_ne (Nat.not_le.mp large) bound
    have remaining := honoured.remaining elapsed early
    rw [nextHeartbeat_remaining guarded.watched (by omega)] at remaining
    exact lost remaining
  · intro small
    have remaining (elapsed : Nat) (early : elapsed < (maxTime seconds).toNat) :
        (taskHeartbeatCallback (nextHeartbeat s seconds elapsed)).remainingTime =
          (maxTime seconds).toNat - elapsed := by
      rw [nextHeartbeat_remaining guarded.watched (by omega), left_of_le small early]
    refine ⟨(forwarded_iff s).mpr (by omega), remaining, ?_, ?_⟩
    · intro elapsed early
      rw [remaining elapsed early]
      omega
    · intro elapsed early killed
      apply attempt_of_remaining guarded.callback
      rw [timeRemain, remaining elapsed early]
      omega

/-- A task with ten minutes. -/
def tenMinutes : Entry where
  began := 0
  remainingTime := 600
  signed := by decide
  timeChged := none
  nolocalwatchdog := false
  pid := 42
  parent := by decide

theorem adjustment_honoured_iff_hour :
    ∃ s, run Watchdog.step (taskRun tenMinutes) [.pass 30, .adjust 60, .pass 5] = some s ∧
      Honoured s (some "3600".toList) := by
  refine ⟨_, rfl, ?_⟩
  have reached : run Watchdog.step (taskRun tenMinutes) [.pass 30, .adjust 60, .pass 5] = some _ :=
    rfl
  exact (adjustment_honoured_iff rfl reached).mpr (by decide)

/-- 2⁵³ + 1 seconds lose one at once, 2⁶³ seconds kill the task at once, and the lab controller is
told half an hour less a second instead of 2⁶⁴ - 1 seconds. -/
theorem adjustment_not_honoured :
    ¬Honoured (taskRun tenMinutes) (some "9007199254740993".toList) ∧
      (taskHeartbeatCallback (nextHeartbeat (taskRun tenMinutes)
        (some "9007199254740993".toList) 0)).remainingTime = 9007199254740992 ∧
      attempt (taskRun tenMinutes).process
        (.timeout (taskRun tenMinutes).process.data.timeoutHandlerId
          (timeRemain (taskHeartbeatCallback (nextHeartbeat (taskRun tenMinutes)
            (some "9223372036854775808".toList) 0))) true) = some true ∧
      (watchdogRequest (taskRun tenMinutes) (some "18446744073709551615".toList)).2 =
        "1799".toList := by
  have lost : (taskHeartbeatCallback (nextHeartbeat (taskRun tenMinutes)
      (some "9007199254740993".toList) 0)).remainingTime = 9007199254740992 := by decide
  refine ⟨fun honoured => ?_, lost, by decide, by decide⟩
  have kept := honoured.remaining 0 (by decide)
  rw [lost] at kept
  exact absurd kept (by decide)

end Restraint.WatchdogAdjust

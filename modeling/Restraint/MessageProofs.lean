import Restraint.Message

/-! The queue loses no message and never runs two pumps. One invariant carries
everything: the messages queued so far are, in order, those completed, the one
in flight and those still waiting, and `queue_active` says exactly whether one
driver (a scheduled `message_handler` or the message in flight) exists. -/
namespace Restraint.MessageProofs
open Restraint.Message Transition

universe u
variable {μ : Type u} {q next : Queue μ} {m : MessageData μ} {es : List (Event μ)}
  {history : List (Observed μ)} {requeued : List (MessageData μ)}

section History

@[simp] theorem queued_queued : queued (history ++ [.queued m]) = queued history ++ [m] := by
  simp [queued]

@[simp] theorem queued_completed : queued (history ++ [.completed m]) = queued history := by
  simp [queued]

@[simp] theorem queued_called : queued (history ++ [.called m]) = queued history := by
  simp [queued]

@[simp] theorem queued_retried {seconds : Nat} :
    queued (history ++ [.retried m seconds]) = queued history := by simp [queued]

@[simp] theorem completed_queued : completed (history ++ [.queued m]) = completed history := by
  simp [completed]

@[simp] theorem completed_completed :
    completed (history ++ [.completed m]) = completed history ++ [m] := by simp [completed]

@[simp] theorem completed_called : completed (history ++ [.called m]) = completed history := by
  simp [completed]

@[simp] theorem completed_retried {seconds : Nat} :
    completed (history ++ [.retried m seconds]) = completed history := by simp [completed]

@[simp] theorem called_queued : called (history ++ [.queued m]) = called history := by
  simp [called]

@[simp] theorem called_completed : called (history ++ [.completed m]) = called history := by
  simp [called]

@[simp] theorem called_called : called (history ++ [.called m]) = called history ++ [m] := by
  simp [called]

@[simp] theorem called_retried {seconds : Nat} :
    called (history ++ [.retried m seconds]) = called history := by simp [called]

@[simp] theorem retries_queued : retries (history ++ [.queued m]) = retries history := by
  simp [retries]

@[simp] theorem retries_completed : retries (history ++ [.completed m]) = retries history := by
  simp [retries]

@[simp] theorem retries_called : retries (history ++ [.called m]) = retries history := by
  simp [retries]

@[simp] theorem retries_retried {seconds : Nat} :
    retries (history ++ [.retried m seconds]) = retries history ++ [seconds] := by simp [retries]

@[simp] theorem failures_queued : failures (history ++ [.queued m]) = failures history := by
  simp [failures]

@[simp] theorem failures_completed : failures (history ++ [.completed m]) = [] := by
  simp [failures]

@[simp] theorem failures_called : failures (history ++ [.called m]) = failures history := by
  simp [failures]

@[simp] theorem failures_retried {seconds : Nat} :
    failures (history ++ [.retried m seconds]) = failures history ++ [seconds] := by
  simp [failures]

end History

/-! ## What one call does -/

/-- Everything the queue promises in every reachable state. -/
structure Ordered (q : Queue μ) : Prop where
  conserved : queued q.history = completed q.history ++ q.inFlight ++ q.messageQueue
  calledBack : called q.history = (completed q.history).filter (·.finishCallback)
  driven : drivers q = if q.queueActive then 1 else 0
  awake : q.messageQueue ≠ [] → q.queueActive = true

/-- While a driver exists, queueing a message only appends it. -/
theorem restraintQueueMessage_active (active : q.queueActive = true) :
    restraintQueueMessage q m = { q with
      messageQueue := q.messageQueue ++ [m], history := q.history ++ [.queued m] } := by
  simp [restraintQueueMessage, active]

/-- The calls a `finish_callback` makes while a driver exists append their
messages and touch nothing else. -/
theorem requeue_active (active : q.queueActive = true) :
    requeued.foldl restraintQueueMessage q = { q with
      messageQueue := q.messageQueue ++ requeued
      history := q.history ++ requeued.map .queued } := by
  induction requeued generalizing q with
  | nil => simp
  | cons m rest ih =>
    rw [List.foldl_cons, restraintQueueMessage_active active, ih (by exact active)]
    simp

private theorem queued_map_queued :
    queued (history ++ requeued.map .queued) = queued history ++ requeued := by
  simp [queued]

private theorem completed_map_queued :
    completed (history ++ requeued.map .queued) = completed history := by
  simp [completed]

private theorem called_map_queued : called (history ++ requeued.map .queued) = called history := by
  simp [called]

/-- An attached source is the only driver there is: nothing is in flight, and
the queue is active. -/
theorem sole_source {id : Nat} {source : Source} (ordered : Ordered q)
    (found : q.loop.find? id = some source) :
    q.queueActive = true ∧ q.inFlight = [] ∧
      (q.loop.remove id).count (fun _ => true) = 0 := by
  have driven := ordered.driven
  have left := MainLoop.count_remove (p := fun _ => true) found
  simp only [drivers, ↓reduceIte] at driven left
  cases active : q.queueActive with
  | false => simp only [active, Bool.false_eq_true, ↓reduceIte] at driven; omega
  | true =>
    simp only [active, ↓reduceIte] at driven
    exact ⟨rfl, List.eq_nil_of_length_eq_zero (by omega), by omega⟩

/-- A message in flight is the only driver there is: no run of
`message_handler` is scheduled. -/
theorem sole_flight {index : Nat} (ordered : Ordered q) (flying : q.inFlight[index]? = some m) :
    q.queueActive = true ∧ q.inFlight = [m] ∧ q.inFlight.eraseIdx index = [] ∧
      q.loop.count (fun _ => true) = 0 := by
  have driven := ordered.driven
  obtain ⟨bound, atIndex⟩ := List.getElem?_eq_some_iff.mp flying
  simp only [drivers] at driven
  cases active : q.queueActive with
  | false => simp only [active, Bool.false_eq_true, ↓reduceIte] at driven; omega
  | true =>
    simp only [active, ↓reduceIte] at driven
    obtain ⟨only, shape⟩ := List.length_eq_one_iff.mp (show q.inFlight.length = 1 by omega)
    have first : index = 0 := by omega
    subst first
    simp only [shape, List.getElem_cons_zero] at atIndex
    subst atIndex
    exact ⟨rfl, shape, by simp [shape], by omega⟩

/-! ## The step lemma -/

theorem queue_ordered (ordered : Ordered q) : Ordered (restraintQueueMessage q m) := by
  cases active : q.queueActive with
  | true =>
    rw [restraintQueueMessage_active active]
    exact ⟨by simp [ordered.conserved], by simpa using ordered.calledBack,
      by simpa [drivers, active] using ordered.driven, fun _ => active⟩
  | false =>
    have driven := ordered.driven
    simp only [active, Bool.false_eq_true, ↓reduceIte] at driven
    refine ⟨?_, ?_, ?_, ?_⟩
    · simp [restraintQueueMessage, active, ordered.conserved]
    · simpa [restraintQueueMessage, active] using ordered.calledBack
    · simp only [drivers] at driven
      simp only [restraintQueueMessage, active, Bool.false_eq_true, ↓reduceIte, drivers,
        MainLoop.count_add]
      omega
    · simp [restraintQueueMessage, active]

private theorem dispatch_ordered {id : Nat} {source : Source} (ordered : Ordered q)
    (found : q.loop.find? id = some source) :
    Ordered { messageHandler q with loop := (messageHandler q).loop.remove id } := by
  obtain ⟨active, grounded, rest⟩ := sole_source ordered found
  have conserved := ordered.conserved
  cases waiting : q.messageQueue with
  | nil =>
    exact ⟨by simpa [messageHandler, waiting] using conserved,
      by simpa [messageHandler, waiting] using ordered.calledBack,
      by simp [messageHandler, waiting, drivers, grounded, rest],
      by simp [messageHandler, waiting]⟩
  | cons head tail =>
    exact ⟨by simpa [messageHandler, waiting, grounded] using conserved,
      by simpa [messageHandler, waiting] using ordered.calledBack,
      by simp [messageHandler, waiting, drivers, grounded, rest, active],
      by simp [messageHandler, waiting, active]⟩

private theorem deliver_ordered {index status : Nat} (ordered : Ordered q)
    (flying : q.inFlight[index]? = some m) :
    Ordered (messageComplete { q with inFlight := q.inFlight.eraseIdx index } m status
      requeued) := by
  obtain ⟨active, shape, erased, idle⟩ := sole_flight ordered flying
  have conserved := ordered.conserved
  have calledBack := ordered.calledBack
  rw [shape] at conserved
  unfold messageComplete
  split
  · cases callback : m.finishCallback with
    | true =>
      simp only [↓reduceIte]
      rw [requeue_active (by exact active)]
      refine ⟨?_, ?_, by simp [drivers, erased, idle, active], fun _ => active⟩
      · dsimp only
        rw [queued_map_queued, completed_map_queued, queued_called, queued_completed,
          completed_called, completed_completed]
        simp [conserved, erased]
      · dsimp only
        rw [called_map_queued, completed_map_queued, called_called, called_completed,
          completed_called, completed_completed]
        simp [calledBack, callback]
    | false =>
      exact ⟨by simpa [erased] using conserved, by simpa [callback] using calledBack,
        by simp [drivers, erased, idle, active], fun _ => active⟩
  · exact ⟨by simpa [erased] using conserved, by simpa using calledBack,
      by simp [drivers, erased, idle, active], fun _ => active⟩

/-- Every event keeps the order of the queue and its single driver. -/
theorem step_ordered (q : Queue μ) (e : Event μ) (next : Queue μ) (ordered : Ordered q)
    (stepped : step q e = some next) : Ordered next := by
  cases e with
  | queue m =>
    cases stepped
    exact queue_ordered ordered
  | dispatch id =>
    simp only [step] at stepped
    split at stepped
    · cases stepped
    · rename_i source found
      cases stepped
      exact dispatch_ordered ordered found
  | deliver index status requeued =>
    simp only [step] at stepped
    split at stepped
    · cases stepped
    · rename_i m flying
      cases stepped
      exact deliver_ordered ordered flying

theorem start_ordered : Ordered (Queue.start : Queue μ) :=
  ⟨rfl, rfl, rfl, fun waiting => absurd rfl waiting⟩

/-! ## The retry delay -/

/-- The delay stays between its first value and its cap, and the delays of the
failures since the last success climb up to it. -/
structure BoundedDelay (q : Queue μ) : Prop where
  least : 2 ≤ q.delay
  capped : q.delay ≤ 625
  past : ∀ seconds ∈ retries q.history, seconds ≤ 625
  climbing : (failures q.history).Pairwise (· ≤ ·)
  reached : ∀ seconds ∈ failures q.history, seconds ≤ q.delay

private theorem nextDelay_le (delay : Nat) : nextDelay delay ≤ 625 := by
  unfold nextDelay
  grind

/-- A failure never shortens the delay. -/
theorem le_nextDelay {delay : Nat} (capped : delay ≤ 625) : delay ≤ nextDelay delay := by
  unfold nextDelay
  grind

private theorem bounded_of_same {q' : Queue μ} (bounded : BoundedDelay q) (delay : q'.delay = q.delay)
    (past : retries q'.history = retries q.history)
    (streak : failures q'.history = failures q.history) : BoundedDelay q' :=
  ⟨delay ▸ bounded.least, delay ▸ bounded.capped, past ▸ bounded.past,
    streak ▸ bounded.climbing, by rw [streak, delay]; exact bounded.reached⟩

private theorem queue_bounded (bounded : BoundedDelay q) : BoundedDelay (restraintQueueMessage q m) := by
  unfold restraintQueueMessage
  dsimp only
  split <;> exact bounded_of_same bounded rfl (by simp) (by simp)

private theorem requeue_bounded (requeued : List (MessageData μ)) (bounded : BoundedDelay q) :
    BoundedDelay (requeued.foldl restraintQueueMessage q) := by
  induction requeued generalizing q with
  | nil => exact bounded
  | cons m rest ih => exact ih (queue_bounded bounded)

/-- A completed message starts a new streak at the first delay. -/
theorem completed_bounded (past : ∀ seconds ∈ retries q.history, seconds ≤ 625) :
    BoundedDelay { q with delay := 2, history := q.history ++ [.completed m] } :=
  ⟨by simp, by simp, by simpa using past, by simp, by simp⟩

private theorem retried_bounded (bounded : BoundedDelay q) :
    BoundedDelay { q with
      delay := nextDelay q.delay, history := q.history ++ [.retried m (nextDelay q.delay)] } := by
  have longer := le_nextDelay bounded.capped
  refine ⟨Nat.le_trans bounded.least longer, nextDelay_le _, ?_, ?_, ?_⟩
  · intro seconds member
    rw [retries_retried] at member
    rcases List.mem_append.mp member with old | new
    · exact bounded.past seconds old
    · rw [List.mem_singleton.mp new]; exact nextDelay_le _
  · simp only [failures_retried]
    refine List.pairwise_append.mpr ⟨bounded.climbing, by simp, ?_⟩
    intro earlier old last new
    rw [List.mem_singleton.mp new]
    exact Nat.le_trans (bounded.reached earlier old) longer
  · intro seconds member
    rw [failures_retried] at member
    rcases List.mem_append.mp member with old | new
    · exact Nat.le_trans (bounded.reached seconds old) longer
    · exact Nat.le_of_eq (List.mem_singleton.mp new)

private theorem complete_bounded {status : Nat} (bounded : BoundedDelay q) :
    BoundedDelay (messageComplete q m status requeued) := by
  unfold messageComplete
  dsimp only
  split
  · have fresh := completed_bounded (m := m) bounded.past
    split
    · have returned : BoundedDelay { q with
          delay := 2, history := q.history ++ [.completed m] ++ [.called m] } :=
        bounded_of_same fresh rfl retries_called failures_called
      exact bounded_of_same (requeue_bounded requeued returned) rfl rfl rfl
    · exact bounded_of_same fresh rfl rfl rfl
  · exact bounded_of_same (retried_bounded bounded) rfl rfl rfl

private theorem step_bounded (q : Queue μ) (e : Event μ) (next : Queue μ) (bounded : BoundedDelay q)
    (stepped : step q e = some next) : BoundedDelay next := by
  cases e with
  | queue m =>
    cases stepped
    exact queue_bounded bounded
  | dispatch id =>
    simp only [step] at stepped
    split at stepped
    · cases stepped
    · cases stepped
      unfold messageHandler
      split <;> exact bounded_of_same bounded rfl rfl rfl
  | deliver index status requeued =>
    simp only [step] at stepped
    split at stepped
    · cases stepped
    · cases stepped
      exact complete_bounded (bounded_of_same bounded rfl rfl rfl)

private theorem start_bounded : BoundedDelay (Queue.start : Queue μ) :=
  ⟨by simp [Queue.start], by simp [Queue.start], by simp [Queue.start, retries],
    by simp [Queue.start, failures], by simp [Queue.start, failures]⟩

/-! ## The theorem -/

/-- **The queue delivers in order and is never forgotten.** After any
interleaving of new messages, dispatches and delivery outcomes: the completed
messages are the first ones queued, in order; each completed message had its
`finish_callback` called exactly once, in the same order; the rest wait in
order behind at most one message in flight; and a queue with a message in it
has exactly one driver. The retry delay stays at or below its cap and does not
decrease from one failure to the next. -/
theorem queue_delivers_in_order (ran : run step Queue.start es = some q) :
    queued q.history = completed q.history ++ q.inFlight ++ q.messageQueue ∧
      called q.history = (completed q.history).filter (·.finishCallback) ∧
      q.inFlight.length ≤ 1 ∧
      drivers q ≤ 1 ∧ (q.messageQueue ≠ [] → drivers q = 1) ∧
      (∀ seconds ∈ retries q.history, seconds ≤ 625) ∧
      (failures q.history).Pairwise (· ≤ ·) := by
  have ordered : Ordered q := run_keeps step_ordered start_ordered ran
  have bounded : BoundedDelay q := run_keeps step_bounded start_bounded ran
  have driven := ordered.driven
  have atMost : drivers q ≤ 1 := by
    rw [driven]
    split <;> omega
  refine ⟨ordered.conserved, ordered.calledBack, ?_, atMost, ?_, bounded.past, bounded.climbing⟩
  · exact Nat.le_trans (Nat.le_add_right _ _) atMost
  · intro waiting
    rw [driven, ordered.awake waiting]
    rfl

/-- Two messages, the first refused by the server once, the second queueing a
third from its callback: all of it is delivered in order. -/
theorem queue_delivers_in_order_after_retry :
    ∃ q : Queue Nat, run step Queue.start
        [.queue ⟨1, false⟩, .queue ⟨2, true⟩, .dispatch 1, .deliver 0 503 [], .dispatch 2,
          .deliver 0 404 [], .dispatch 3, .deliver 0 200 [⟨3, true⟩]] = some q ∧
      completed q.history = [⟨1, false⟩, ⟨2, true⟩] ∧ q.messageQueue = [⟨3, true⟩] ∧
      drivers q = 1 := by
  refine ⟨_, rfl, by decide, by decide, ?_⟩
  have ran : run step (Queue.start : Queue Nat)
      [.queue ⟨1, false⟩, .queue ⟨2, true⟩, .dispatch 1, .deliver 0 503 [], .dispatch 2,
        .deliver 0 404 [], .dispatch 3, .deliver 0 200 [⟨3, true⟩]] = some _ := rfl
  have promised := queue_delivers_in_order ran
  exact promised.2.2.2.2.1 (by decide)

end Restraint.MessageProofs

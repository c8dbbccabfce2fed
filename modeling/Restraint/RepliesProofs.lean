import Restraint.Replies

/-! Every forwarded request gets one reply: not before its message has been answered and its report
plugins have ended, and not twice. Until then its message waits, or its plugins have a process. A
daemon that crashes answers no one, and the proof says on which answers it does. For all others the
reply is found in the history, behind the entries that have to come before it. -/
namespace Restraint.Replies
open Transition
open Restraint.Message (Queue MessageData restraintQueueMessage messageHandler messageComplete
  statusIsSuccessful statusIsClientError)
open Restraint.MessageProofs (Ordered sole_source sole_flight)
open Restraint.Process (finishes)

variable {carrier next : Carrier} {delivery : Delivery} {done : Option (Msg × Nat)} {msg : Msg}
variable {s t : System} {e : Event} {es : List Event} {history older : List Mark} {mark : Mark}
variable {n request status : Nat} {kind : Kind} {stage : Stage} {run' : Process.Run} {q : Queue Msg}
variable {callback clientData : Bool} {message : MessageData Msg} {current : Option CurrentTask}

/-! ## Messages -/

theorem queueMessage_inFlight : (restraintQueueMessage q message).inFlight = q.inFlight := by
  unfold restraintQueueMessage
  dsimp only
  split <;> rfl

private theorem queueMessage_messageQueue :
    (restraintQueueMessage q message).messageQueue = q.messageQueue ++ [message] := by
  unfold restraintQueueMessage
  dsimp only
  split <;> rfl

private theorem push_sound (sound : carrier.Sound)
    (called : ∀ request, msg = .forward request → callback = true) :
    (carrier.push ⟨msg, callback⟩ clientData).Sound := by
  cases carrier with
  | queue q =>
    obtain ⟨ordered, heard⟩ := sound
    refine ⟨MessageProofs.queue_ordered ordered, ?_⟩
    rw [queueMessage_inFlight, queueMessage_messageQueue, ← List.append_assoc]
    intro message member request same
    rcases List.mem_append.mp member with old | new
    · exact heard message old request same
    · obtain rfl := List.mem_singleton.mp new
      exact called request same
  | stdout loop =>
    simp only [Carrier.push]
    split <;> trivial

/-- A message more waits, if it is one of the request. -/
theorem push_waiting (called : ∀ request, msg = .forward request → callback = true) :
    (carrier.push ⟨msg, callback⟩ clientData).waiting n =
      carrier.waiting n + if msg = .forward n then 1 else 0 := by
  cases carrier with
  | queue q =>
    simp only [Carrier.push, Carrier.waiting]
    rw [queueMessage_inFlight, queueMessage_messageQueue, ← List.append_assoc, List.countP_append,
      List.countP_singleton]
    simp
  | stdout loop =>
    unfold Carrier.push
    dsimp only
    split
    · simp [Carrier.waiting]
    · rename_i silent
      have other : msg ≠ .forward n := fun same => silent (called n same)
      simp [Carrier.waiting, other]

private theorem handler_waiting (grounded : q.inFlight = []) :
    ((messageHandler q).inFlight ++ (messageHandler q).messageQueue) = q.inFlight ++ q.messageQueue := by
  unfold messageHandler
  split
  · rfl
  · rename_i first rest waiting
    rw [grounded, waiting]
    rfl

/-- What `message_complete` leaves in the queue. -/
theorem complete_left (q : Queue Msg) (message : MessageData Msg) (status : Nat) :
    (messageComplete q message status []).inFlight = q.inFlight ∧
    (messageComplete q message status []).messageQueue =
      if statusIsSuccessful status || statusIsClientError status then q.messageQueue
      else message :: q.messageQueue := by
  unfold messageComplete
  dsimp only
  split
  · split <;> exact ⟨rfl, rfl⟩
  · exact ⟨rfl, rfl⟩

/-- A message is answered, or everything goes on waiting. -/
theorem carry_spec (sound : carrier.Sound) (stepped : carrier.step delivery = some (next, done)) :
    next.Sound ∧ ∀ n, carrier.waiting n =
      next.waiting n + if done.map Prod.fst = some (.forward n) then 1 else 0 := by
  cases carrier with
  | queue q =>
    obtain ⟨ordered, heard⟩ := sound
    cases delivery with
    | dispatch id =>
      obtain ⟨q', taken, same⟩ := Option.map_eq_some_iff.mp stepped
      obtain ⟨rfl, rfl⟩ := Prod.mk.inj same
      have ordered' := MessageProofs.step_ordered _ _ _ ordered taken
      simp only [Message.step] at taken
      split at taken
      · cases taken
      · rename_i source found
        cases taken
        have kept := handler_waiting (sole_source ordered found).2.1
        refine ⟨⟨ordered', ?_⟩, fun n => ?_⟩
        · dsimp only
          rwa [kept]
        · dsimp only [Carrier.waiting]
          rw [kept]
          simp
    | deliver index status =>
      obtain ⟨q', taken, same⟩ := Option.map_eq_some_iff.mp stepped
      obtain ⟨rfl, rfl⟩ := Prod.mk.inj same
      have ordered' := MessageProofs.step_ordered _ _ _ ordered taken
      simp only [Message.step] at taken
      split at taken
      · cases taken
      · rename_i m flying
        obtain ⟨-, shape, erased, -⟩ := sole_flight ordered flying
        cases taken
        obtain ⟨air, line⟩ := complete_left { q with inFlight := q.inFlight.eraseIdx index } m status
        rw [erased] at air line
        have before : q.inFlight ++ q.messageQueue = m :: q.messageQueue := by rw [shape]; rfl
        rw [before] at heard
        rw [flying, erased]
        cases final : statusIsSuccessful status || statusIsClientError status with
        | false =>
          rw [final] at line
          have kept : (messageComplete { q with inFlight := [] } m status []).inFlight ++
              (messageComplete { q with inFlight := [] } m status []).messageQueue =
              m :: q.messageQueue := by rw [air, line]; rfl
          refine ⟨⟨erased ▸ ordered', by rw [kept]; exact heard⟩, fun n => ?_⟩
          simp [Carrier.waiting, kept, before]
        | true =>
          rw [final] at line
          have kept : (messageComplete { q with inFlight := [] } m status []).inFlight ++
              (messageComplete { q with inFlight := [] } m status []).messageQueue =
              q.messageQueue := by rw [air, line]; rfl
          refine ⟨⟨erased ▸ ordered', ?_⟩, fun n => ?_⟩
          · rw [kept]
            exact fun message member => heard message (List.mem_cons_of_mem _ member)
          · simp only [Carrier.waiting, kept, before, List.countP_cons]
            by_cases own : m.msg = .forward n
            · have called := heard m List.mem_cons_self n own
              simp [own, called]
            · simp [own]
    | finish id => cases stepped
  | stdout loop =>
    cases delivery with
    | finish id =>
      obtain ⟨source, found, same⟩ := Option.map_eq_some_iff.mp stepped
      obtain ⟨rfl, rfl⟩ := Prod.mk.inj same
      refine ⟨trivial, fun n => ?_⟩
      have removed := MainLoop.count_remove (p := fun source => source.1 = .forward n) found
      simpa [Carrier.waiting] using removed.symm
    | dispatch id => cases stepped
    | deliver index status => cases stepped

/-! ## Plugins -/

/-- The process of the plugins has something to wait for, or the child cannot be reaped. -/
def Pending (run : Process.Run) : Prop :=
  ProcessProofs.Open true run ∧ ProcessProofs.Armed run ∨ ProcessProofs.Orphaned run

theorem Pending.unfinished (pending : Pending run') : finishes run'.history = [] := by
  rcases pending with ⟨opened, -⟩ | orphaned
  · exact opened.unfinished
  · exact orphaned.unfinished

private theorem pending_start (fork : Fork) : Pending (Process.processRun fork.launch) := by
  rcases Int.lt_or_le 0 fork.pid with parent | failed
  · have parent : 0 < fork.launch.pid := parent
    exact .inl (ProcessProofs.processRun_open parent)
  · have other := fork.parent
    have failed : fork.launch.pid < 0 := by
      dsimp only [Fork.launch]
      omega
    exact .inr (ProcessProofs.processRun_unforked failed)

/-- The process goes on, or it calls back once the child is reaped and the output has ended. -/
theorem pending_step {event : Process.Event} {after : Process.Run} (pending : Pending run')
    (stepped : Process.step run' event = some after) :
    Pending after ∨ ProcessProofs.Closed true after := by
  rcases pending with ⟨opened, armed⟩ | orphaned
  · rcases ProcessProofs.open_step opened stepped with still | closed
    · by_cases spared : Process.spares run' event
      · exact .inl (.inl ⟨still, ProcessProofs.step_armed _ _ _ armed (only_eq_some.mpr ⟨spared, stepped⟩)⟩)
      · exact .inl (.inr (ProcessProofs.unspared_orphaned opened stepped spared))
    · exact .inr closed
  · exact .inl (.inr (ProcessProofs.step_orphaned _ _ _ orphaned stepped))

/-! ## The invariant -/

def Mark.about : Mark → Nat
  | .paused request _ | .answered request _ | .reported request _ | .unpaused request => request

/-- What each mark takes of the marks before it. -/
def Proper (older : List Mark) : Mark → Prop
  | .paused n _ => ∀ mark ∈ older, mark.about ≠ n
  | .answered n _ => (∃ kind, .paused n kind ∈ older) ∧ ∀ status, .answered n status ∉ older
  | .reported n history => (∃ kind, .paused n kind ∈ older ∧ kind.plugins = true) ∧
      (∃ status, .answered n status ∈ older) ∧ (∀ history, .reported n history ∉ older) ∧
      (∃ status, .reaped status ∈ history) ∧ .outputEnded ∈ history
  | .unpaused n => .unpaused n ∉ older ∧ ∃ kind status, .paused n kind ∈ older ∧
      .answered n status ∈ older ∧ (kind.plugins = true → ∃ history, .reported n history ∈ older)

/-- What has happened to a request. -/
def Told (history : List Mark) (n : Nat) : Option Request → Prop
  | none => ∀ mark ∈ history, mark.about ≠ n
  | some ⟨kind, .forwarding⟩ =>
    .paused n kind ∈ history ∧ ∀ mark ∈ history, mark.about = n → mark = .paused n kind
  | some ⟨kind, .plugins run⟩ => kind.plugins = true ∧ Pending run ∧ .paused n kind ∈ history ∧
      (∃ status, .answered n status ∈ history) ∧
      ∀ mark ∈ history, mark.about = n → mark = .paused n kind ∨ ∃ status, mark = .answered n status
  | some ⟨_, .returned⟩ => .unpaused n ∈ history

/-- How many messages there are for a request. -/
def awaits : Option Request → Nat
  | some ⟨_, .forwarding⟩ => 1
  | _ => 0

structure Good (s : System) : Prop where
  sound : s.carrier.Sound
  waiting : ∀ n, s.carrier.waiting n = awaits s.requests[n]?
  told : ∀ n, Told s.history n s.requests[n]?
  proper : History.Always Proper s.history

/-- What happens to another request does not matter. -/
theorem Told.other {r : Option Request} (told : Told history n r) (other : mark.about ≠ n) :
    Told (mark :: history) n r := by
  have absent {P : Mark → Prop} (all : ∀ mark ∈ history, mark.about = n → P mark) :
      ∀ m ∈ mark :: history, m.about = n → P m := by
    intro m member own
    rcases List.mem_cons.mp member with rfl | old
    · exact absurd own other
    · exact all m old own
  match r, told with
  | none, told =>
    intro m member own
    exact absent (P := fun _ => False) (fun m member own => told m member own) m member own
  | some ⟨kind, .forwarding⟩, told => exact ⟨List.mem_cons_of_mem _ told.1, absent told.2⟩
  | some ⟨kind, .plugins run⟩, told =>
    obtain ⟨runs, pending, paused, ⟨status, answered⟩, all⟩ := told
    exact ⟨runs, pending, List.mem_cons_of_mem _ paused, ⟨status, List.mem_cons_of_mem _ answered⟩,
      absent all⟩
  | some ⟨kind, .returned⟩, told => exact List.mem_cons_of_mem _ told

/-- A request comes to a stage. -/
theorem stage_good {requests : List Request} {r : Request} (sound : carrier.Sound)
    (inside : request < requests.length)
    (waiting : ∀ n ≠ request, carrier.waiting n = awaits requests[n]?)
    (waits : carrier.waiting request = awaits (some r))
    (told : ∀ n ≠ request, Told history n requests[n]?) (tells : Told history request (some r))
    (proper : History.Always Proper history) :
    Good ⟨current, carrier, requests.set request r, history⟩ where
  sound := sound
  waiting := by
    intro n
    by_cases own : n = request
    · subst own
      rw [List.getElem?_set_self inside]
      exact waits
    · rw [List.getElem?_set_ne (Ne.symm own)]
      exact waiting n own
  told := by
    intro n
    by_cases own : n = request
    · subst own
      rw [List.getElem?_set_self inside]
      exact tells
    · rw [List.getElem?_set_ne (Ne.symm own)]
      exact told n own
  proper := proper

/-! ## Steps -/

theorem Good.awaited (good : Good s) (waits : 0 < s.carrier.waiting n) :
    ∃ kind, s.requests[n]? = some ⟨kind, .forwarding⟩ := by
  rw [good.waiting n] at waits
  match here : s.requests[n]? with
  | some ⟨kind, .forwarding⟩ => exact ⟨kind, rfl⟩
  | some ⟨kind, .plugins run⟩ => simp [here, awaits] at waits
  | some ⟨kind, .returned⟩ => simp [here, awaits] at waits
  | none => simp [here, awaits] at waits

private theorem request_good (good : Good s) : Good
    { s with
      carrier := s.carrier.push ⟨.forward s.requests.length, true⟩ clientData
      requests := s.requests ++ [⟨kind, .forwarding⟩]
      history := .paused s.requests.length kind :: s.history } where
  sound := push_sound good.sound fun _ _ => rfl
  waiting := by
    intro n
    rw [push_waiting (fun _ _ => rfl), good.waiting n]
    rcases Nat.lt_trichotomy n s.requests.length with old | rfl | beyond
    · rw [List.getElem?_append_left old, if_neg (by simp; omega), Nat.add_zero]
    · rw [List.getElem?_concat_length, List.getElem?_eq_none (Nat.le_refl _), if_pos rfl]
      rfl
    · rw [List.getElem?_eq_none (Nat.le_of_lt beyond), List.getElem?_eq_none (by simp; omega),
        if_neg (by simp; omega), Nat.add_zero]
  told := by
    intro n
    have told := good.told n
    rcases Nat.lt_trichotomy n s.requests.length with old | rfl | beyond
    · rw [List.getElem?_append_left old]
      exact told.other (Nat.ne_of_gt old)
    · rw [List.getElem?_eq_none (Nat.le_refl _)] at told
      rw [List.getElem?_concat_length]
      refine ⟨List.mem_cons_self, fun mark member own => ?_⟩
      rcases List.mem_cons.mp member with same | old
      · exact same
      · exact absurd own (told mark old)
    · rw [List.getElem?_eq_none (Nat.le_of_lt beyond)] at told
      rw [List.getElem?_eq_none (by simp; omega)]
      exact told.other (Nat.ne_of_lt beyond)
  proper := by
    have told := good.told s.requests.length
    rw [List.getElem?_eq_none (Nat.le_refl _)] at told
    exact ⟨told, good.proper⟩

private theorem queue_good {text : Nat} (good : Good s) :
    Good { s with carrier := s.carrier.push ⟨.other text, callback⟩ clientData } where
  sound := push_sound good.sound fun _ same => by cases same
  waiting := by
    intro n
    rw [push_waiting (fun _ same => by cases same), good.waiting n, if_neg (by simp), Nat.add_zero]
  told := good.told
  proper := good.proper

/-- The messages go on, without an answer for a request. -/
theorem carry_good (good : Good s) (stepped : s.carrier.step delivery = some (carrier, done))
    (other : ∀ n, done.map Prod.fst ≠ some (.forward n)) : Good { s with carrier := carrier } where
  sound := (carry_spec good.sound stepped).1
  waiting := by
    intro n
    have counts := (carry_spec good.sound stepped).2 n
    rw [if_neg (other n), Nat.add_zero] at counts
    exact counts ▸ good.waiting n
  told := good.told
  proper := good.proper

/-- `server_msg_complete` comes once for a request. -/
theorem answer_good {r : Request} (good : Good s) (fork : Fork)
    (stepped : s.carrier.step delivery = some (carrier, some (.forward request, status)))
    (here : s.requests[request]? = some r)
    (completed : serverMsgComplete { s with carrier := carrier } request r.kind status fork = some t) :
    Good t := by
  obtain ⟨sound, counts⟩ := carry_spec good.sound stepped
  obtain ⟨kind, forwarding⟩ := good.awaited (n := request) (by rw [counts request]; simp)
  obtain rfl := Option.some.inj (here.symm.trans forwarding)
  have inside := (List.getElem?_eq_some_iff.mp forwarding).1
  have told := good.told request
  rw [forwarding] at told
  obtain ⟨paused, only⟩ := told
  have fresh : ∀ status, Mark.answered request status ∉ s.history := fun status member => by
    cases only _ member rfl
  have proper : History.Always Proper (.answered request status :: s.history) :=
    ⟨⟨⟨kind, paused⟩, fresh⟩, good.proper⟩
  have waiting : ∀ n, n ≠ request → carrier.waiting n = awaits s.requests[n]? := by
    intro n apart
    have counted := counts n
    rw [if_neg (by simpa using Ne.symm apart), Nat.add_zero] at counted
    exact counted ▸ good.waiting n
  have gone : carrier.waiting request = 0 := by
    have counted := counts request
    rw [good.waiting request, forwarding] at counted
    simpa [awaits] using counted
  have others : ∀ n ≠ request, Told (.answered request status :: s.history) n s.requests[n]? :=
    fun n apart => (good.told n).other (Ne.symm apart)
  unfold serverMsgComplete at completed
  dsimp only at completed
  split at completed
  · cases completed
  split at completed
  · rename_i runs
    split at completed <;> cases completed
    refine stage_good sound inside waiting gone others ?_ proper
    refine ⟨runs, pending_start fork, List.mem_cons_of_mem _ paused, ⟨status, List.mem_cons_self⟩, ?_⟩
    intro mark member own
    rcases List.mem_cons.mp member with rfl | old
    · exact .inr ⟨status, rfl⟩
    · exact .inl (only mark old own)
  · rename_i quiet
    cases completed
    refine stage_good sound inside waiting gone (fun n apart => (others n apart).other (Ne.symm apart))
      List.mem_cons_self ⟨⟨?_, kind, status, ?_, List.mem_cons_self, fun runs => absurd runs quiet⟩, proper⟩
    · intro member
      rcases List.mem_cons.mp member with same | old
      · cases same
      · cases only _ old rfl
    · exact List.mem_cons_of_mem _ paused

/-- The plugins' process goes on, or it is through and the reply is returned. -/
theorem plugin_good {event : Process.Event} {after : Process.Run} (good : Good s)
    (here : s.requests[request]? = some ⟨kind, .plugins run'⟩)
    (stepped : Process.step run' event = some after) :
    Good (if finishes after.history = [] then s.stage request kind (.plugins after)
      else (s.mark (.reported request after.history)).unpause request kind) := by
  have inside := (List.getElem?_eq_some_iff.mp here).1
  have told := good.told request
  have waits := good.waiting request
  rw [here] at told waits
  obtain ⟨runs, pending, paused, answered, only⟩ := told
  have waiting : ∀ n ≠ request, s.carrier.waiting n = awaits s.requests[n]? := fun n _ => good.waiting n
  split
  · rename_i unfinished
    refine stage_good good.sound inside waiting waits (fun n _ => good.told n) ?_ good.proper
    refine ⟨runs, ?_, paused, answered, only⟩
    rcases pending_step pending stepped with still | closed
    · exact still
    · have once := closed.once
      rw [unfinished] at once
      cases once
  · rename_i finished
    rcases pending_step pending stepped with still | closed
    · exact absurd still.unfinished finished
    · obtain ⟨before, result, watchdog, error, shape, -, ⟨code, reaped⟩, ended⟩ := closed.called
      have joined : (∃ status, .reaped status ∈ after.history) ∧ .outputEnded ∈ after.history := by
        rw [shape]
        exact ⟨⟨code, List.mem_append_left _ reaped⟩, List.mem_append_left _ (ended rfl)⟩
      have reported : Proper s.history (.reported request after.history) := by
        refine ⟨⟨kind, paused, runs⟩, answered, fun history member => ?_, joined⟩
        rcases only _ member rfl with same | ⟨status, same⟩ <;> cases same
      have others : ∀ n ≠ request, Told (.reported request after.history :: s.history) n s.requests[n]? :=
        fun n apart => (good.told n).other (Ne.symm apart)
      obtain ⟨status, answered⟩ := answered
      refine stage_good good.sound inside waiting waits
        (fun n apart => (others n apart).other (Ne.symm apart)) List.mem_cons_self
        ⟨⟨?_, kind, status, List.mem_cons_of_mem _ paused, List.mem_cons_of_mem _ answered,
          fun _ => ⟨_, List.mem_cons_self⟩⟩, reported, good.proper⟩
      intro member
      rcases List.mem_cons.mp member with same | old
      · cases same
      · rcases only _ old rfl with same | ⟨status, same⟩ <;> cases same

theorem step_good (good : Good s) (taken : step s e = some t) : Good t := by
  cases e with
  | request path form clientData =>
    simp only [step] at taken
    split at taken
    · cases taken
    split at taken
    · split at taken
      · cases taken
      · cases taken
        exact request_good good
    · cases taken
      exact good
  | turn current =>
    cases taken
    exact ⟨good.sound, good.waiting, good.told, good.proper⟩
  | queue message callback clientData =>
    cases taken
    exact queue_good good
  | carry delivery fork =>
    simp only [step] at taken
    split at taken
    · rename_i carrier request status carried
      obtain ⟨r, here, completed⟩ := Option.bind_eq_some_iff.mp taken
      exact answer_good good fork carried here completed
    · rename_i carrier done other carried
      cases taken
      refine carry_good good carried fun n same => ?_
      obtain ⟨⟨msg, status⟩, rfl, rfl⟩ := Option.map_eq_some_iff.mp same
      exact other n status rfl
    · cases taken
  | plugin request event =>
    simp only [step] at taken
    split at taken
    · rename_i kind run here
      obtain ⟨after, stepped, rfl⟩ := Option.map_eq_some_iff.mp taken
      exact plugin_good good here stepped
    · cases taken

theorem start_good (stdin : Bool) : Good (start stdin) where
  sound := by
    cases stdin
    · exact ⟨MessageProofs.start_ordered, fun _ member => by cases member⟩
    · trivial
  waiting := fun n => by cases stdin <;> rfl
  told := fun n mark member => by cases member
  proper := trivial

/-- The answer to a request of this kind crashes the daemon: there is no current task any more, or
the plugins would need an environment that it has not got. -/
def Crashes (kind : Kind) (current : Option CurrentTask) : Prop :=
  ∀ task ∈ current, kind.plugins = true ∧ task.env = false

private theorem serverMsgComplete_eq_none {fork : Fork} :
    serverMsgComplete s request kind status fork = none ↔ Crashes kind s.current := by
  unfold serverMsgComplete Crashes
  cases s.current with
  | none => exact iff_of_true rfl fun _ absent => nomatch absent
  | some task =>
    cases runs : kind.plugins
    · simp
    · cases task.env <;> simp

/-- The answer to a request comes to the daemon. -/
theorem Good.completes {fork : Fork} (good : Good s)
    (answered : s.carrier.step delivery = some (carrier, some (.forward n, status))) :
    ∃ kind, .paused n kind ∈ s.history ∧
      (step s (.carry delivery fork) = none ↔ Crashes kind s.current) := by
  obtain ⟨kind, here⟩ := good.awaited (n := n) (by rw [(carry_spec good.sound answered).2 n]; simp)
  have told := good.told n
  rw [here] at told
  refine ⟨kind, told.1, ?_⟩
  simp only [step, answered, here, Option.bind_some]
  exact serverMsgComplete_eq_none

/-- **A forwarded request is replied to once.** In every run its reply is returned at most once, after
the request was paused and its message was answered, and after the report plugins were reaped and
their output had ended, if the request reports a result that is not a plugin's own. As long as the
daemon runs no reply is lost: while it is not returned the message waits to be answered, or the
plugins have a process that is watched, or whose fork or `kill` has failed. The daemon goes on with
every answer, but for one that comes when there is no current task, or none with an environment for
the plugins: that one crashes it. -/
theorem reply_once {stdin : Bool} (ran : run step (start stdin) es = some s) :
    History.Always Proper s.history ∧
    (∀ n kind, .paused n kind ∈ s.history → .unpaused n ∉ s.history →
      s.carrier.waiting n = 1 ∨ ∃ run', s.requests[n]? = some ⟨kind, .plugins run'⟩ ∧
        (run'.loop.sources ≠ [] ∨ ProcessProofs.Orphaned run')) ∧
    ∀ delivery fork carrier n status,
      s.carrier.step delivery = some (carrier, some (.forward n, status)) →
        ∃ kind, .paused n kind ∈ s.history ∧
          (step s (.carry delivery fork) = none ↔ Crashes kind s.current) := by
  have good : Good s := run_keeps (fun _ _ _ => step_good) (start_good stdin) ran
  refine ⟨good.proper, fun n kind paused waits => ?_, fun _ _ _ _ _ answered => good.completes answered⟩
  have told := good.told n
  have waiting := good.waiting n
  match here : s.requests[n]?, told with
  | none, told => exact absurd rfl (told _ paused)
  | some ⟨kind', .forwarding⟩, told =>
    rw [here] at waiting
    exact .inl waiting
  | some ⟨kind', .plugins run'⟩, told =>
    obtain ⟨-, pending, -, -, only⟩ := told
    obtain rfl : kind = kind' := by
      rcases only _ paused rfl with same | ⟨status, same⟩ <;> cases same
      rfl
    refine .inr ⟨run', rfl, ?_⟩
    rcases pending with ⟨opened, armed⟩ | orphaned
    · exact .inl (opened.attached armed)
    · exact .inr orphaned
  | some ⟨kind', .returned⟩, told => exact absurd told waits

def pluginFork : Fork := ⟨false, 4711, by decide, "", true⟩

/-- A result: the queue sends it, the report plugins write and exit, and the reply is returned. -/
def resultEvents : List Event :=
  [.turn (some ⟨true, true⟩), .request "/recipes/1/tasks/2/results/".toList [] true,
    .carry (.dispatch 1) pluginFork, .carry (.deliver 0 201) pluginFork, .plugin 0 (.output 1 true),
    .plugin 0 (.childExit 2 0), .plugin 0 (.output 1 false), .plugin 0 (.idle 3)]

theorem reply_once_result : ∃ s, run step (start false) resultEvents = some s ∧
    .unpaused 0 ∈ s.history ∧ History.Always Proper s.history := by
  have runs : ((run step (start false) resultEvents).map fun s => s.history.head?) =
      some (some (.unpaused 0)) := by decide +kernel
  obtain ⟨s, ran, last⟩ := Option.map_eq_some_iff.mp runs
  exact ⟨s, ran, List.mem_of_mem_head? last, (reply_once ran).1⟩

end Restraint.Replies

import Restraint.FetchUri

/-! A fetch finishes once. A poll, then the reading of the archive and then the finishing idle
follow each other; the sockets and the timer of libcurl are watched beside the poll only. Which of
its callbacks libcurl makes, and when, is left open. The steps that are not allowed are named one by
one; with them the code never finishes, or runs on memory that it has freed. -/
namespace Restraint.FetchOnce
open CString (Text)
open Restraint.Fetch Restraint.FetchUri
open Transition (run only run_keeps only_eq_some)

/-- The sources that libcurl asks for. -/
def isCurl : Source → Bool
  | .watch _ | .timer => true
  | .poll | .read | .finish => false

/-- The sources of which one is attached at a time. -/
def isOwn (source : Source) : Bool := !isCurl source

/-- `finish_callback` is called once, with an error when something has failed, and nothing of
the fetch runs afterwards. -/
structure FinishesOnce (s : State) : Prop where
  once : s.finished.length ≤ 1
  ends : s.loop.sources = [] → s.finished.length = 1
  quiet : s.finished ≠ [] → s.loop.sources = []
  safe : s.crashed = false
  error : s.failed = true → ∀ finish ∈ s.finished, finish.error ≠ none

/-- No socket is watched and no timer is set. -/
def Quiet (s : State) : Prop := s.loop.kinds isCurl = []

instance (s : State) : Decidable (Quiet s) := inferInstanceAs (Decidable (_ = _))

/-- The handle of libcurl is there, and nothing is attached yet. -/
def begun (fetch : Option FetchData) : State :=
  ⟨.empty, fetch, some ⟨0, 0⟩, fun _ => none, [], false, false⟩

/-- The archives and the handle of libcurl are there, and the calls that libcurl makes for a transfer
that cannot be added leave nothing to watch. -/
structure Sound (setup : Setup) : Prop where
  archiveReadNew : setup.archiveReadNew = true
  archiveWriteDiskNew : setup.archiveWriteDiskNew = true
  curlMultiInit : setup.curlMultiInit = true
  quiet : setup.res ≠ 0 → Quiet (setup.calls.foldl call (begun none))

/-- libcurl does not fail in an action; when the poll finds no transfer running, libcurl watches
nothing; and when the transfer has failed, the archive does not end after something was
extracted. -/
def Allowed (s : State) (event : Nat × World) : Prop :=
  (∀ source ∈ s.loop.find? event.1, isCurl source = true → event.2.action.res = 0) ∧
  (s.loop.find? event.1 = some .poll → s.running ≤ 0 → Quiet s) ∧
  (s.loop.find? event.1 = some .read → event.2.header = .eof → s.failed = true →
    ∀ fetch ∈ s.fetch, fetch.matchCnt = 0)

instance (s : State) (event : Nat × World) : Decidable (Allowed s event) :=
  inferInstanceAs (Decidable (_ ∧ _ ∧ _))

variable {s t : State} {loop : MainLoop Source} {id : Nat} {source : Source}

/-! ## The calls of libcurl -/

/-- An id that the code keeps: 0, or that of a source that libcurl asked for. -/
def Kept (loop : MainLoop Source) (id : Nat) : Prop := id ≠ 0 → loop.Owned isCurl id

/-- What the code keeps for libcurl. -/
structure Held (s : State) : Prop where
  timer : Kept s.loop s.toEv
  watch : ∀ fd, Kept s.loop ((s.sockets fd).getD 0)
  live : s.privateData.isSome = true

/-- What libcurl leaves as it is. -/
structure Beside (s t : State) : Prop where
  owned : ∀ id, s.loop.Owned isCurl id → t.loop.Owned isCurl id
  own : t.loop.kinds isOwn = s.loop.kinds isOwn
  fetch : t.fetch = s.fetch
  finished : t.finished = s.finished
  crashed : t.crashed = s.crashed

theorem Beside.refl (s : State) : Beside s s := ⟨fun _ owned => owned, rfl, rfl, rfl, rfl⟩

theorem Beside.trans {u : State} (first : Beside s t) (second : Beside t u) : Beside s u :=
  ⟨fun id owned => second.owned id (first.owned id owned), second.own.trans first.own, second.fetch.trans first.fetch,
    second.finished.trans first.finished, second.crashed.trans first.crashed⟩

private theorem owned_sourceRemove {i : Nat} (owned : loop.Owned isCurl id) :
    (sourceRemove loop i).Owned isCurl id := by
  unfold sourceRemove
  split
  · exact owned.remove
  · exact owned

private theorem isOwn_of_isCurl (source : Source) (curl : isCurl source = true) :
    isOwn source = false := by
  rw [isOwn, curl]
  rfl

theorem Kept.remove {i : Nat} (kept : Kept loop id) : Kept (sourceRemove loop i) id :=
  fun some => owned_sourceRemove (kept some)

theorem Kept.add (kept : Kept loop id) : Kept (loop.add source) id := fun some => (kept some).add

private theorem kept_next (curl : isCurl source = true) : Kept (loop.add source) loop.next :=
  fun _ => MainLoop.owned_next curl

private theorem kept_zero : Kept loop 0 := fun some => absurd rfl some

private theorem kinds_sourceRemove (kept : Kept loop id) :
    (sourceRemove loop id).kinds isOwn = loop.kinds isOwn := by
  unfold sourceRemove
  split
  · rename_i some
    exact (kept some).kinds_remove isOwn_of_isCurl
  · rfl

theorem Held.setToEv (held : Held s) (kept : Kept s.loop id) : Held (s.setToEv id) := by
  obtain ⟨cd, live⟩ := Option.isSome_iff_exists.mp held.live
  refine ⟨?_, held.watch, ?_⟩
  · simpa [State.setToEv, State.toEv, live] using kept
  · simp [State.setToEv, live]

theorem Held.setRunning (held : Held s) (running : Int) : Held (s.setRunning running) := by
  obtain ⟨cd, live⟩ := Option.isSome_iff_exists.mp held.live
  refine ⟨?_, held.watch, ?_⟩
  · simpa [State.setRunning, State.toEv, live] using held.timer
  · simp [State.setRunning, live]

theorem Held.removed (held : Held s) (i : Nat) : Held { s with loop := sourceRemove s.loop i } :=
  ⟨held.timer.remove, fun fd => (held.watch fd).remove, held.live⟩

theorem Held.attach (held : Held s) : Held (s.attach source) :=
  ⟨held.timer.add, fun fd => (held.watch fd).add, held.live⟩

theorem Held.sockCb (held : Held s) (fd : Nat) (remove : Bool) : Held (sockCb s fd remove) := by
  unfold FetchUri.sockCb
  cases remove with
  | true =>
    cases socket : s.sockets fd with
    | none => exact held
    | some ev =>
      refine ⟨held.timer.remove, fun other => ?_, held.live⟩
      by_cases same : other = fd
      · subst same
        simpa using kept_zero
      · simpa [same] using (held.watch other).remove
  | false =>
    refine ⟨held.timer.remove.add, fun other => ?_, held.live⟩
    by_cases same : other = fd
    · subst same
      simpa using kept_next rfl
    · simpa [same] using (held.watch other).remove.add

private theorem beside_sockCb (held : Held s) (fd : Nat) (remove : Bool) :
    Beside s (sockCb s fd remove) := by
  unfold sockCb
  cases remove with
  | true =>
    cases socket : s.sockets fd with
    | none => exact Beside.refl s
    | some ev =>
      have kept : Kept s.loop ev := by simpa [socket] using held.watch fd
      exact ⟨fun _ => owned_sourceRemove, kinds_sourceRemove kept, rfl, rfl, rfl⟩
  | false =>
    refine ⟨fun _ owned => (owned_sourceRemove owned).add, ?_, rfl, rfl, rfl⟩
    simp only [Bool.false_eq_true, if_false, MainLoop.kinds_add, kinds_sourceRemove (held.watch fd)]
    exact List.append_nil _

/-- A call of libcurl. -/
theorem Held.call (held : Held s) (c : Call) : Held (call s c) := by
  cases c with
  | socket fd remove => exact held.sockCb fd remove
  | timeout timeoutMs =>
    rw [FetchUri.call, updateTimeoutCb]
    split
    · exact (held.removed _).attach.setToEv (kept_next rfl)
    · exact (held.removed _).setToEv kept_zero

private theorem beside_call (held : Held s) (c : Call) : Beside s (call s c) := by
  cases c with
  | socket fd remove => exact beside_sockCb held fd remove
  | timeout timeoutMs =>
    rw [call, updateTimeoutCb]
    have same := kinds_sourceRemove held.timer
    split
    · refine ⟨fun _ owned => (owned_sourceRemove owned).add, ?_, rfl, rfl, rfl⟩
      simp only [State.setToEv, State.attach, MainLoop.kinds_add, same]
      exact List.append_nil _
    · exact ⟨fun _ => owned_sourceRemove, same, rfl, rfl, rfl⟩

private theorem calls_beside (held : Held s) (calls : List Call) :
    Held (calls.foldl call s) ∧ Beside s (calls.foldl call s) := by
  induction calls generalizing s with
  | nil => exact ⟨held, Beside.refl s⟩
  | cons c calls ih =>
    obtain ⟨still, beside⟩ := ih (held.call c)
    exact ⟨still, (beside_call held c).trans beside⟩

/-- The calls of libcurl know nothing of the fetch. -/
theorem calls_fetch (s : State) (fetch : Option FetchData) (calls : List Call) :
    calls.foldl call { s with fetch } = { calls.foldl call s with fetch } := by
  induction calls generalizing s with
  | nil => rfl
  | cons c calls ih =>
    have same : call { s with fetch } c = { call s c with fetch } := by
      cases c with
      | socket fd remove =>
        rw [call, call, sockCb, sockCb]
        cases remove with
        | true => cases s.sockets fd <;> simp
        | false => rfl
      | timeout timeoutMs =>
        rw [call, call, updateTimeoutCb, updateTimeoutCb]
        split <;> rfl
    rw [List.foldl_cons, same, ih]
    rfl

private theorem checkMultiInfo_beside (held : Held s) (messages : List Message) :
    Held (checkMultiInfo s messages) ∧ Beside s (checkMultiInfo s messages) := by
  induction messages generalizing s with
  | nil => exact ⟨held, Beside.refl s⟩
  | cons msg messages ih =>
    obtain ⟨still, beside⟩ := calls_beside held msg.calls
    obtain ⟨later, onward⟩ := ih
      (s := { msg.calls.foldl call s with failed := s.failed || decide (msg.result ≠ 0) })
      ⟨still.timer, still.watch, still.live⟩
    refine ⟨later, Beside.trans ?_ onward⟩
    exact ⟨beside.owned, beside.own, beside.fetch, beside.finished, beside.crashed⟩

private theorem socketAction_beside (held : Held s) (action : Action) :
    Held (socketAction s action) ∧ Beside s (socketAction s action) := by
  obtain ⟨still, beside⟩ := calls_beside held action.calls
  exact ⟨still.setRunning _, beside.owned, beside.own, beside.fetch, beside.finished, beside.crashed⟩

/-- `event_cb` without a failure of libcurl. -/
theorem eventCb_beside {fetch : FetchData} {action : Action} (held : Held s)
    (here : s.fetch = some fetch) (good : action.res = 0) :
    ∃ t more, eventCb s action = some (t, more) ∧ Held t ∧ Beside s t := by
  obtain ⟨cd, live⟩ := Option.isSome_iff_exists.mp held.live
  obtain ⟨acted, first⟩ := socketAction_beside held action
  obtain ⟨still, second⟩ := checkMultiInfo_beside acted action.messages
  have beside := first.trans second
  unfold eventCb
  simp only [here, live, good, ne_eq, not_true_eq_false, if_false]
  split
  · exact ⟨_, _, rfl, still, beside⟩
  · refine ⟨_, _, rfl, (still.removed _).setToEv kept_zero, ?_⟩
    exact ⟨fun _ owned => owned_sourceRemove (beside.owned _ owned),
      (kinds_sourceRemove still.timer).trans beside.own, beside.fetch, beside.finished, beside.crashed⟩

/-- `timer_cb` without a failure of libcurl. -/
theorem timerCb_beside {fetch : FetchData} {action : Action} (held : Held s)
    (here : s.fetch = some fetch) (good : action.res = 0) :
    ∃ t more, timerCb s action = some (t, more) ∧ Held t ∧ Beside s t := by
  obtain ⟨cd, live⟩ := Option.isSome_iff_exists.mp held.live
  obtain ⟨acted, first⟩ := socketAction_beside held action
  obtain ⟨still, second⟩ := checkMultiInfo_beside acted action.messages
  have beside := first.trans second
  unfold timerCb
  simp only [here, live, good, ne_eq, not_true_eq_false, if_false]
  refine ⟨_, _, rfl, ?_⟩
  split
  · exact ⟨still.setToEv kept_zero, beside.owned, beside.own, beside.fetch, beside.finished, beside.crashed⟩
  · exact ⟨still, beside⟩

/-! ## The phases of a fetch -/

/-- How far a fetch is. An error is set only when the fetch is about to finish. -/
inductive Phase (s : State) : Prop where
  | polling (own : s.loop.kinds isOwn = [.poll]) (held : Held s) (here : s.fetch = some fetch)
      (clean : fetch.error = none) (before : s.finished = [])
  | reading (own : s.loop.kinds isOwn = [.read]) (quiet : Quiet s) (live : s.privateData.isSome = true)
      (here : s.fetch = some fetch) (clean : fetch.error = none) (before : s.finished = [])
  | finishing (own : s.loop.kinds isOwn = [.finish]) (quiet : Quiet s)
      (live : s.privateData.isSome = true) (here : s.fetch = some fetch)
      (error : s.failed = true → fetch.error ≠ none) (before : s.finished = [])
  | closed (own : s.loop.kinds isOwn = []) (quiet : Quiet s) (after : s.finished = [finish])
      (error : s.failed = true → finish.error ≠ none)

structure Inv (s : State) : Prop where
  safe : s.crashed = false
  phase : Phase s

theorem Inv.finishesOnce (inv : Inv s) : FinishesOnce s := by
  obtain ⟨safe, phase⟩ := inv
  have busy {source : Source} (own : s.loop.kinds isOwn = [source]) : s.loop.sources ≠ [] := by
    intro none
    rw [MainLoop.kinds, none] at own
    cases own
  cases phase with
  | polling own _ _ _ before | reading own _ _ _ _ before | finishing own _ _ _ _ before =>
    exact ⟨by simp [before], fun none => absurd none (busy own), fun some => absurd before some, safe,
      by simp [before]⟩
  | closed own quiet after error =>
    have all (source : Source) : isOwn source = true ∨ isCurl source = true := by
      cases source <;> simp [isOwn, isCurl]
    have none := MainLoop.sources_eq_nil all own quiet
    refine ⟨by simp [after], fun _ => by simp [after], fun _ => none, safe, ?_⟩
    simpa [after] using error

/-- A source of the fetch itself is the one that its phase has. -/
theorem own_of_find? (found : s.loop.find? id = some source) (kind : isOwn source = true)
    {list : List Source} (own : s.loop.kinds isOwn = list) : source ∈ list :=
  own ▸ MainLoop.mem_kinds found kind

/-- libcurl watches beside the poll only. -/
theorem not_quiet (found : s.loop.find? id = some source) (kind : isCurl source = true) : ¬Quiet s :=
  List.ne_nil_of_mem (MainLoop.mem_kinds found kind)

private theorem polling_of_curl (found : s.loop.find? id = some source) (kind : isCurl source = true)
    (phase : Phase s) : s.loop.kinds isOwn = [.poll] ∧ Held s ∧
      (∃ fetch, s.fetch = some fetch ∧ fetch.error = none) ∧ s.finished = [] := by
  have busy := not_quiet found kind
  cases phase with
  | polling own held here clean before => exact ⟨own, held, ⟨_, here, clean⟩, before⟩
  | reading _ quiet | finishing _ quiet | closed _ quiet => exact absurd quiet busy

/-- The source that was dispatched may go. -/
theorem Held.dropped (held : Held s) (i : Nat) : Held { s with loop := s.loop.remove i } :=
  ⟨fun some => (held.timer some).remove, fun fd some => (held.watch fd some).remove, held.live⟩

private theorem error_setError {fetch : FetchData} {code : Int} {message : Text} :
    (fetch.setError code message).error ≠ none := by
  unfold FetchData.setError
  cases fetch.error <;> simp

/-- What follows the only source of a fetch. -/
theorem kinds_next (found : s.loop.find? id = some source) (kind : isOwn source = true)
    (own : s.loop.kinds isOwn = [source]) (next : Source) (kind' : isOwn next = true) :
    ((s.loop.add next).remove id).kinds isOwn = [next] := by
  rw [MainLoop.remove_add (MainLoop.ne_next found), MainLoop.kinds_add, if_pos kind',
    MainLoop.kinds_remove_only found kind own, List.nil_append]

private theorem quiet_next (found : s.loop.find? id = some source) (kind : isOwn source = true)
    (quiet : Quiet s) (next : Source) (kind' : isCurl next = false) :
    ((s.loop.add next).remove id).kinds isCurl = [] := by
  have other : isCurl source = false := by simpa [isOwn] using kind
  rw [MainLoop.remove_add (MainLoop.ne_next found), MainLoop.kinds_add, kind',
    MainLoop.kinds_remove_other found other, quiet]
  rfl

/-! ## The steps -/

/-- A step dispatches an attached source; it is detached unless it stays. -/
theorem step_cases {world : World} (taken : step s (id, world) = some t) :
    ∃ source, s.loop.find? id = some source ∧
      ∀ u more, dispatch s world source = some (u, more) →
        t = if more then u else { u with loop := u.loop.remove id } := by
  simp only [step] at taken
  split at taken
  · cases taken
  · obtain ⟨source, found, rfl⟩ := Option.map_eq_some_iff.mp taken
    refine ⟨source, found, fun u more result => ?_⟩
    rw [result]

/-- libcurl acts. -/
theorem inv_curl {u : State} {more : Bool} (inv : Inv s)
    (found : s.loop.find? id = some source) (kind : isCurl source = true)
    (held : Held u) (beside : Beside s u) :
    Inv (if more then u else { u with loop := u.loop.remove id }) := by
  obtain ⟨own, -, ⟨fetch, here, clean⟩, before⟩ := polling_of_curl found kind inv.phase
  have owned := beside.owned id (MainLoop.owned_of_find? found kind)
  have own := beside.own.trans own
  have here := beside.fetch.trans here
  have before := beside.finished.trans before
  have safe := beside.crashed.trans inv.safe
  cases more with
  | true => exact ⟨safe, .polling own held here clean before⟩
  | false =>
    refine ⟨safe, .polling ?_ (held.dropped id) here clean before⟩
    exact (owned.kinds_remove isOwn_of_isCurl).trans own

private theorem fetch_fail {fetch : FetchData} {code : Int} {message : Text}
    (here : s.fetch = some fetch) :
    (s.fail code message).fetch = some (fetch.setError code message) := congrArg (Option.map _) here

/-- The poll. -/
theorem inv_poll {opened : Option Failure} (inv : Inv s) (found : s.loop.find? id = some .poll)
    (quiet : s.running ≤ 0 → Quiet s) : ∃ u more, startUnpack s opened = some (u, more) ∧
      Inv (if more then u else { u with loop := u.loop.remove id }) := by
  obtain ⟨safe, phase⟩ := inv
  cases phase with
  | polling own held here clean before =>
    obtain ⟨cd, live⟩ := Option.isSome_iff_exists.mp held.live
    simp only [startUnpack, here, live]
    by_cases running : 0 < cd.running
    · exact ⟨s, true, by rw [if_pos running], safe, .polling own held here clean before⟩
    · have quiet : Quiet s := quiet (by simpa [State.running, live] using running)
      rw [if_neg running]
      cases opened with
      | some failure =>
        refine ⟨_, false, rfl, safe, .finishing (kinds_next found rfl own .finish rfl)
          (quiet_next found rfl quiet .finish rfl) held.live (fetch_fail here)
          (fun _ => error_setError) before⟩
      | none =>
        exact ⟨_, false, rfl, safe, .reading (kinds_next found rfl own .read rfl)
          (quiet_next found rfl quiet .read rfl) held.live here clean before⟩
  | reading own | finishing own | closed own => exact absurd (own_of_find? found rfl own) (by simp)

/-- An error is set exactly when the archive is not read on, except at its end. -/
theorem httpArchiveReadCallback_error (fetch : FetchData) (header : Header) (access : Text → Bool)
    (extract2 : Option Failure) :
    ((httpArchiveReadCallback fetch header access extract2).more = true →
      (httpArchiveReadCallback fetch header access extract2).fetch.error = fetch.error) ∧
    ((httpArchiveReadCallback fetch header access extract2).more = false →
      (header = .eof → fetch.matchCnt = 0) →
      (httpArchiveReadCallback fetch header access extract2).fetch.error ≠ none) := by
  cases header with
  | eof =>
    refine ⟨fun more => (Bool.false_ne_true more).elim, fun _ zero => ?_⟩
    rw [httpArchiveReadCallback, if_pos (zero rfl)]
    exact error_setError
  | failed failure =>
    exact ⟨fun more => (Bool.false_ne_true more).elim, fun _ _ => error_setError⟩
  | entry entryPath =>
    rw [httpArchiveReadCallback]
    split
    · exact ⟨fun _ => rfl, fun more => (Bool.false_ne_true more.symm).elim⟩
    · split
      · split
        · exact ⟨fun more => (Bool.false_ne_true more).elim, fun _ _ => error_setError⟩
        · exact ⟨fun _ => rfl, fun more => (Bool.false_ne_true more.symm).elim⟩
      · exact ⟨fun _ => rfl, fun more => (Bool.false_ne_true more.symm).elim⟩

/-- The archive is read. -/
theorem inv_read {world : World} (inv : Inv s) (found : s.loop.find? id = some .read)
    (ends : world.header = .eof → s.failed = true → ∀ fetch ∈ s.fetch, fetch.matchCnt = 0) :
    ∃ u more, archiveRead s world = some (u, more) ∧
      Inv (if more then u else { u with loop := u.loop.remove id }) := by
  obtain ⟨safe, phase⟩ := inv
  cases phase with
  | @reading fetch own quiet live here clean before =>
    obtain ⟨goesOn, stops⟩ :=
      httpArchiveReadCallback_error fetch world.header world.access world.extract2
    simp only [archiveRead, here]
    refine ⟨_, _, rfl, ?_⟩
    cases more : (httpArchiveReadCallback fetch world.header world.access world.extract2).more with
    | true => exact ⟨safe, .reading own quiet live rfl ((goesOn more).trans clean) before⟩
    | false =>
      refine ⟨safe, .finishing (kinds_next found rfl own .finish rfl)
        (quiet_next found rfl quiet .finish rfl) live rfl (fun failed => stops more fun eof => ?_) before⟩
      -- the end of the archive is no failure itself
      have failed : s.failed = true := by simpa [State.attach, readFails, eof] using failed
      exact ends eof failed fetch here
  | polling own | finishing own | closed own => exact absurd (own_of_find? found rfl own) (by simp)

/-- The fetch finishes. -/
theorem inv_finish (inv : Inv s) (found : s.loop.find? id = some .finish) :
    ∃ u more, archiveFinishCallback s = some (u, more) ∧
      Inv (if more then u else { u with loop := u.loop.remove id }) := by
  obtain ⟨safe, phase⟩ := inv
  cases phase with
  | finishing own quiet live here error before =>
    obtain ⟨cd, live⟩ := Option.isSome_iff_exists.mp live
    simp only [archiveFinishCallback, here, live, before]
    refine ⟨_, false, rfl, safe, .closed (MainLoop.kinds_remove_only found rfl own) ?_ rfl error⟩
    exact (MainLoop.kinds_remove_other found rfl).trans quiet
  | polling own | reading own | closed own => exact absurd (own_of_find? found rfl own) (by simp)

/-- A step that is allowed keeps the invariant. -/
theorem inv_step {event : Nat × World} (inv : Inv s) (allowed : Allowed s event)
    (taken : step s event = some t) : Inv t := by
  obtain ⟨id, world⟩ := event
  obtain ⟨curl, poll, read⟩ := allowed
  obtain ⟨source, found, result⟩ := step_cases taken
  have acts (kind : isCurl source = true)
      (acted : ∃ u more, dispatch s world source = some (u, more) ∧ Held u ∧ Beside s u) : Inv t := by
    obtain ⟨u, more, dispatched, held, beside⟩ := acted
    rw [result u more dispatched]
    exact inv_curl inv found kind held beside
  have moves (moved : ∃ u more, dispatch s world source = some (u, more) ∧
      Inv (if more then u else { u with loop := u.loop.remove id })) : Inv t := by
    obtain ⟨u, more, dispatched, kept⟩ := moved
    rw [result u more dispatched]
    exact kept
  cases source with
  | watch fd =>
    obtain ⟨-, held, ⟨fetch, here, -⟩, -⟩ := polling_of_curl found rfl inv.phase
    exact acts rfl (eventCb_beside held here (curl _ found rfl))
  | timer =>
    obtain ⟨-, held, ⟨fetch, here, -⟩, -⟩ := polling_of_curl found rfl inv.phase
    exact acts rfl (timerCb_beside held here (curl _ found rfl))
  | poll => exact moves (inv_poll inv found (poll found))
  | read => exact moves (inv_read inv found (read found))
  | finish => exact moves (inv_finish inv found)

/-! ## The runs -/

theorem start_inv (fragment : Option Text) (basePath : Text) (keepchanges : Bool) {setup : Setup}
    (sound : Sound setup) : Inv (restraintFetchUri fragment basePath keepchanges setup) := by
  have begins : restraintFetchUri fragment basePath keepchanges setup =
      let s := setup.calls.foldl call (begun (some ⟨fragment, basePath, keepchanges, none, 0, 0⟩))
      if setup.res ≠ 0 then
        (s.fail 0 ("Failed to fetch url: ".toList ++ setup.curlErrorBuf)).attach .finish
      else s.attach .poll := by
    simp only [restraintFetchUri, sound.archiveReadNew, sound.archiveWriteDiskNew,
      sound.curlMultiInit, Bool.true_eq_false, if_false]
    rfl
  rw [begins]
  obtain ⟨held, beside⟩ := calls_beside
    (s := begun (some ⟨fragment, basePath, keepchanges, none, 0, 0⟩))
    ⟨kept_zero, fun _ => kept_zero, rfl⟩ setup.calls
  have quiet : setup.res ≠ 0 → Quiet (setup.calls.foldl call
      (begun (some ⟨fragment, basePath, keepchanges, none, 0, 0⟩))) := by
    intro bad
    have same := calls_fetch (begun none) (some ⟨fragment, basePath, keepchanges, none, 0, 0⟩)
      setup.calls
    exact (congrArg (fun s : State => s.loop.kinds isCurl) same).trans (sound.quiet bad)
  generalize setup.calls.foldl call _ = s at held beside quiet
  have next (source : Source) (kind : isOwn source = true) :
      (s.loop.add source).kinds isOwn = [source] := by
    rw [MainLoop.kinds_add, beside.own, if_pos kind]
    rfl
  by_cases bad : setup.res ≠ 0
  · rw [if_pos bad]
    have still : Quiet ((s.fail 0 ("Failed to fetch url: ".toList ++ setup.curlErrorBuf)).attach
        .finish) := by
      have added : (s.loop.add .finish).kinds isCurl = s.loop.kinds isCurl ++ [] :=
        MainLoop.kinds_add
      exact added.trans ((List.append_nil _).trans (quiet bad))
    exact ⟨beside.crashed, .finishing (next .finish rfl) still held.live (fetch_fail beside.fetch)
      (fun _ => error_setError) beside.finished⟩
  · rw [if_neg bad]
    exact ⟨beside.crashed, .polling (next .poll rfl) held.attach beside.fetch rfl beside.finished⟩

/-- **A fetch finishes once in every run whose steps are allowed**, whatever the order in which
the sources are dispatched. -/
theorem fetch_once (fragment : Option Text) (basePath : Text) (keepchanges : Bool) (setup : Setup)
    (sound : Sound setup) (events : List (Nat × World)) (s : State)
    (ran : run (only step Allowed) (restraintFetchUri fragment basePath keepchanges setup) events =
      some s) : FinishesOnce s := by
  refine (run_keeps (I := Inv) ?_ (start_inv fragment basePath keepchanges sound) ran).finishesOnce
  intro s event t inv taken
  obtain ⟨allowed, taken⟩ := only_eq_some.mp taken
  exact inv_step inv allowed taken

/-- Everything is there, and libcurl sets a timer. -/
def goodSetup : Setup := ⟨true, true, true, [.timeout 0], 0, []⟩

/-- Answers that nothing fails in. -/
def answer (action : Action) (header : Header) : World := ⟨action, none, header, fun _ => false, none⟩

def noAction : Action := ⟨[], 0, 0, []⟩

/-- The timer starts the transfer, the poll comes too early once, the socket ends the transfer,
and an archive with one file is read. -/
def download : List (Nat × World) :=
  [(1, answer ⟨[.socket 7 false], 1, 0, []⟩ .eof), (2, answer noAction .eof),
    (3, answer ⟨[], 0, 0, [⟨0, [.socket 7 true]⟩]⟩ .eof), (2, answer noAction .eof),
    (4, answer noAction (.entry "top/a".toList)), (4, answer noAction .eof), (5, answer noAction .eof)]

theorem fetch_once_download : ∃ s,
    run (only step Allowed) (restraintFetchUri none "/tmp".toList false goodSetup) download = some s ∧
      s.finished = [⟨none, 1, 0⟩] ∧ FinishesOnce s := by
  refine ⟨_, rfl, by decide, fetch_once none "/tmp".toList false goodSetup ?_ download _ rfl⟩
  exact ⟨rfl, rfl, rfl, fun bad => absurd rfl bad⟩

/-- libcurl fails while the poll is attached. -/
def curlFails : List (Nat × World) :=
  [(1, answer ⟨[], 0, 4, []⟩ .eof), (3, answer noAction .eof), (2, answer noAction .eof)]

/-- `archive_read_new` fails: the finishing idle uses curl state that is not there, and
`finish_callback` is never called. libcurl fails: the poll runs on freed memory. -/
theorem fetch_crashes :
    (∃ s, run step (restraintFetchUri none "/tmp".toList false
        { goodSetup with archiveReadNew := false }) [(1, answer noAction .eof)] = some s ∧
      s.finished = [] ∧ s.crashed = true ∧ ¬FinishesOnce s) ∧
    ∃ s, run step (restraintFetchUri none "/tmp".toList false goodSetup) curlFails = some s ∧
      s.finished = [⟨some ⟨4, "curl failed".toList⟩, 0, 0⟩] ∧ s.crashed = true ∧ ¬FinishesOnce s := by
  have broken {s : State} (crashed : s.crashed = true) : ¬FinishesOnce s := fun once => by
    rw [once.safe] at crashed
    cases crashed
  exact ⟨⟨_, rfl, by decide, rfl, broken rfl⟩, ⟨_, rfl, by decide, rfl, broken rfl⟩⟩

end Restraint.FetchOnce

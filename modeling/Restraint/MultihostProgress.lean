import Restraint.Lib.Reaches
import Restraint.MultihostProofs
import Mathlib.Algebra.Order.BigOperators.Group.List
import Mathlib.Algebra.Order.Group.Nat
import Mathlib.Data.Nat.Find

/-! No job comes to a halt at its barriers. Where the hosts of the roles have the same tasks, and each
host came to its plugins and ended its server before it went down, all hosts can still end all their
tasks, whatever was rebooted before: a host that has posted holds its event until it is rebooted, and
posts it anew then.

A host that skips a plugin never posts, and one that went down at once loses the next event that it
posts, so that a host which waits for it may wait for ever; such runs are left out here. -/
namespace Restraint.Multihost
open CString (Text)
open Transition
open Restraint.Sync (Server Name handleLconn message replies)
open Restraint.SyncScripts

variable {job : Job} {s t : System} {e : Event} {es : List Event} {host machine : Text}
variable {h h' : Host} {name : Name} {server server' : Server} {k : Nat} {b : Blocking}

/-! ## What a host has posted -/

/-- The host has come to the end of its task, or waits there for the others. -/
def Arrived : Phase → Prop
  | .blocking _ _ | .ended => True
  | _ => False

/-- The host has posted after the task. -/
def Behind (h : Host) (k : Nat) : Prop := k < h.task ∨ k = h.task ∧ Arrived h.phase

/-- The event is on the server, or is going to be posted anew. -/
def Live (h : Host) (name : Name) : Prop :=
  (∃ todo, h.phase = .restoring todo ∧ name ∈ todo) ∨ ∃ server, h.server = some server ∧ name.text ∈ server.events

/-- The plugin is past the test of the roles. -/
def AtBarrier : Phase → Prop
  | .setting | .recording | .blocking _ _ => True
  | _ => False

/-- What a host whose plugins are not killed has posted. -/
structure Tells (job : Job) (host : Text) (h : Host) : Prop where
  posted : ∀ k, hasRoles (job.environ host k) = true → Behind h k →
    ∃ name ∈ h.file, name.text = barrier (job.environ host k) ∧ Live h name
  recording : h.phase = .recording →
    ∃ server, h.server = some server ∧ barrier (job.environ host h.task) ∈ server.events
  roles : AtBarrier h.phase → hasRoles (job.environ host h.task) = true
  asking : ∀ loop conn, h.phase = .blocking loop conn → ∃ machine machines state states fail,
    loop = .asking machine machines state states fail

private theorem events_handleLconn {x : Text} : x ∈ (handleLconn server (message name.text)).events ↔
    x = name.text ∨ x ∈ server.events := by
  have set : (handleLconn server (message name.text)).events = server.events.insert name.text := by
    rw [handleLconn, SyncServer.bufString_message]
  rw [set, List.mem_insert_iff]

/-- Posting leaves what was posted. -/
theorem live_post (live : Live h name) {more : Name} : Live (h.post more) name := by
  unfold Host.post
  split
  · exact live
  rcases live with restoring | ⟨server, held, member⟩
  · exact .inl restoring
  · refine .inr ⟨_, rfl, events_handleLconn.mpr (.inr ?_)⟩
    rwa [held, Option.getD_some]

/-- Without an old socket in the way the event is on the server afterwards. -/
theorem post_of_fresh (fresh : h.stale = false) : h.post name =
    { h with server := some (handleLconn (h.server.getD Sync.start) (message name.text)) } :=
  if_neg (Bool.eq_false_iff.mp fresh)

theorem Live.held (live : Live h name) (settled : ∀ todo, h.phase ≠ .restoring todo) :
    ∃ server, h.server = some server ∧ name.text ∈ server.events :=
  live.resolve_left fun ⟨todo, phase, _⟩ => settled todo phase

/-- A host that keeps its file and what is live, and has not posted after more tasks. -/
theorem Tells.keep (tells : Tells job host h) (file : ∀ name ∈ h.file, name ∈ h'.file)
    (live : ∀ name ∈ h.file, Live h name → Live h' name) (behind : ∀ k, Behind h' k → Behind h k)
    (recording : h'.phase = .recording →
      ∃ server, h'.server = some server ∧ barrier (job.environ host h'.task) ∈ server.events)
    (roles : AtBarrier h'.phase → hasRoles (job.environ host h'.task) = true)
    (asking : ∀ loop conn, h'.phase = .blocking loop conn → ∃ machine machines state states fail,
      loop = .asking machine machines state states fail) : Tells job host h' where
  posted := by
    intro k roles later
    obtain ⟨name, member, text, alive⟩ := tells.posted k roles (behind k later)
    exact ⟨name, file name member, text, live name member alive⟩
  recording := recording
  roles := roles
  asking := asking

/-- Away from the barrier only the file and the server count. -/
theorem Tells.away (away : ¬AtBarrier h.phase) (posted : ∀ k, hasRoles (job.environ host k) = true → Behind h k →
    ∃ name ∈ h.file, name.text = barrier (job.environ host k) ∧ Live h name) : Tells job host h where
  posted := posted
  recording := fun here => (away (by rw [here]; trivial)).elim
  roles := fun here => (away here).elim
  asking := fun _ _ here => (away (by rw [here]; trivial)).elim

/-- A host that starts a task has its file to restore. -/
theorem Tells.restart (tells : Tells job host h) (behind : ∀ k, Behind h' k → Behind h k)
    (file : h'.file = h.file) (phase : h'.phase = .restoring h.file) : Tells job host h' := by
  refine .away (by rw [phase]; exact id) fun k roles later => ?_
  obtain ⟨name, member, text, -⟩ := tells.posted k roles (behind k later)
  exact ⟨name, file ▸ member, text, .inl ⟨_, phase, member⟩⟩

/-- The server goes on and keeps its events. -/
theorem Tells.serve (tells : Tells job host h) (held : h.server = some server)
    (same : server'.events = server.events) : Tells job host { h with server := some server' } := by
  refine tells.keep (fun _ => id) (fun name _ live => ?_) (fun _ => id) (fun phase => ?_) tells.roles
    tells.asking
  · rcases live with restoring | ⟨server, here, member⟩
    · exact .inl restoring
    · obtain rfl := Option.some.inj (held.symm.trans here)
      exact .inr ⟨server', rfl, same ▸ member⟩
  · obtain ⟨server, here, member⟩ := tells.recording phase
    obtain rfl := Option.some.inj (held.symm.trans here)
    exact ⟨server', rfl, same ▸ member⟩

/-- All hosts, with what holds of them anyway. -/
structure Telling (job : Job) (s : System) : Prop where
  good : Good job s
  fresh : ∀ host, (s.hosts host).stale = false
  tells : ∀ host, Tells job host (s.hosts host)

/-- No plugin is killed or left out, and no host goes down without ending its server. -/
def Orderly : Event → Prop
  | .kill _ | .skip _ | .expire _ | .crash _ | .remove _ => False
  | _ => True

@[simp] theorem hosts_put : (s.put host h).hosts host = h := Function.update_self ..

private theorem hosts_put_of_ne {other : Text} (different : other ≠ host) :
    (s.put host h).hosts other = s.hosts other := Function.update_of_ne different ..

private theorem tells_put (tells : ∀ host, Tells job host (s.hosts host)) (here : Tells job host h)
    (other : Text) :
    Tells job other ((s.put host h).hosts other) := by
  by_cases own : other = host
  · subst own
    rwa [hosts_put]
  · rw [hosts_put_of_ne own]
    exact tells other

private theorem tells_serve (tells : ∀ host, Tells job host (s.hosts host))
    (held : (s.hosts host).server = some server) (grew : Grew server server') (other : Text) :
    Tells job other ((s.serve host server').hosts other) :=
  tells_put tells ((tells host).serve held grew.events) other

/-- Where the loop of the plugin goes. -/
def phaseOf : Loop → Phase
  | .left _ => .ended
  | loop => .blocking loop none

private theorem hosts_answered {loop : Loop} {rc time : Nat} :
    (s.answered b host loop rc time).hosts =
      (s.put host { s.hosts host with phase := phaseOf (SyncScripts.answered b loop rc time) }).hosts := by
  unfold System.answered
  cases SyncScripts.answered b loop rc time with
  | asking => rfl
  | left rc =>
    dsimp only
    split <;> rfl

/-- The plugin asks until it has left its loop. -/
theorem asking_of_phaseOf {loop loop' : Loop} {conn : Option Conn} (here : phaseOf loop = .blocking loop' conn) :
    ∃ machine machines state states fail, loop' = .asking machine machines state states fail := by
  cases loop with
  | left rc => cases here
  | asking machine machines state states fail =>
    cases here
    exact ⟨_, _, _, _, _, rfl⟩

private theorem phaseOf_ne_recording {loop : Loop} : phaseOf loop ≠ .recording := by
  cases loop <;> intro same <;> cases same

theorem Live.move {phase : Phase} (here : Live h name) (settled : ∀ todo, h.phase ≠ .restoring todo) :
    Live { h with phase := phase } name := .inr (here.held settled)

/-- The plugin goes on with an answer. -/
theorem Tells.loop {loop next : Loop} {conn : Option Conn} (tells : Tells job host h)
    (phase : h.phase = .blocking loop conn) : Tells job host { h with phase := phaseOf next } := by
  have settled : ∀ todo, h.phase ≠ .restoring todo := fun todo same => by
    rw [phase] at same
    cases same
  refine tells.keep (fun _ => id) (fun name _ live => live.move settled) (fun k behind => ?_)
    (fun recording => absurd recording phaseOf_ne_recording)
    (fun _ => tells.roles (by rw [phase]; trivial)) fun _ _ => asking_of_phaseOf
  rcases behind with before | ⟨same, -⟩
  · exact .inl before
  · exact .inr ⟨same, by rw [phase]; trivial⟩

private theorem tells_answered {loop : Loop} {conn : Option Conn} {rc time : Nat}
    (tells : ∀ host, Tells job host (s.hosts host)) (phase : (s.hosts host).phase = .blocking loop conn)
    (other : Text) : Tells job other ((s.answered b host loop rc time).hosts other) := by
  rw [hosts_answered]
  exact tells_put tells ((tells host).loop phase) other

/-- No orderly event makes a host forget what it has posted. -/
theorem step_tells (tells : ∀ host, Tells job host (s.hosts host))
    (fresh : ∀ host, (s.hosts host).stale = false) (orderly : Orderly e)
    (taken : step job s e = some t) (other : Text) : Tells job other (t.hosts other) := by
  cases e with
  | restore host =>
    simp only [step] at taken
    split at taken
    · rename_i name todo phase
      cases taken
      rw [post_of_fresh (fresh host)]
      refine tells_put tells (.away id fun k roles behind => ?_) other
      obtain ⟨name', member, text, live⟩ :=
        (tells host).posted k roles (behind.imp_right fun both => both.2.elim)
      refine ⟨name', member, text, ?_⟩
      rcases live with ⟨todo', restoring, held⟩ | ⟨server, held, set⟩
      · rw [phase] at restoring
        cases restoring
        rcases List.mem_cons.mp held with rfl | later
        · exact .inr ⟨_, rfl, events_handleLconn.mpr (.inl rfl)⟩
        · exact .inl ⟨todo, rfl, later⟩
      · refine .inr ⟨_, rfl, events_handleLconn.mpr (.inr ?_)⟩
        rwa [held, Option.getD_some]
    · rename_i phase
      cases taken
      refine tells_put tells (.away id fun k roles behind => ?_) other
      obtain ⟨name', member, text, live⟩ :=
        (tells host).posted k roles (behind.imp_right fun both => both.2.elim)
      refine ⟨name', member, text, .inr (live.resolve_left ?_)⟩
      rintro ⟨todo', restoring, held⟩
      rw [phase] at restoring
      cases restoring
      cases held
    · cases taken
  | post host name =>
    simp only [step] at taken
    split at taken
    · rename_i phase
      split at taken
      · cases taken
        have running : ((s.hosts host).post name).phase = .running := post_phase.trans phase
        have kept (name' : Name) (here : Live (s.hosts host) name') :
            Live ((s.hosts host).post name) name' := live_post here
        rw [post_of_fresh (fresh host)] at running kept ⊢
        refine tells_put tells ?_ other
        refine (tells host).keep (fun _ => id) (fun name' _ here => kept name' here) (fun _ => id)
          (fun recording => ?_) (tells host).roles (tells host).asking
        rw [running] at recording
        cases recording
      · cases taken
    · cases taken
  | note host name =>
    simp only [step] at taken
    split at taken
    · split at taken
      · cases taken
        refine tells_put tells ?_ other
        exact (tells host).keep (fun _ => List.mem_append_left _) (fun _ _ => id) (fun _ => id)
          (tells host).recording (tells host).roles (tells host).asking
      · cases taken
    · cases taken
  | finish host =>
    simp only [step] at taken
    split at taken
    · rename_i phase
      cases taken
      have settled : ∀ todo, (s.hosts host).phase ≠ .restoring todo := fun todo same => by
        rw [phase] at same
        cases same
      refine tells_put tells ?_ other
      by_cases roles : hasRoles (job.environ host (s.hosts host).task) = true
      · rw [if_pos roles]
        exact (tells host).keep (fun _ => id) (fun name _ here => here.move settled)
          (fun k behind => behind.imp_right fun both => both.2.elim) (fun recording => by cases recording)
          (fun _ => roles) fun _ _ blocking => by cases blocking
      · rw [if_neg roles]
        refine .away id fun k required behind => ?_
        rcases behind with before | ⟨same, -⟩
        · obtain ⟨name, member, text, here⟩ := (tells host).posted k required (.inl before)
          exact ⟨name, member, text, here.move settled⟩
        · rw [same] at required
          exact absurd required roles
    · cases taken
  | set host name =>
    simp only [step] at taken
    split at taken
    · rename_i phase
      split at taken
      · rename_i own
        cases taken
        have roles := (tells host).roles (by rw [phase]; trivial)
        have settled : ∀ todo, ((s.hosts host).post name).phase ≠ .restoring todo := fun todo same => by
          rw [post_phase.trans phase] at same
          cases same
        have kept (name' : Name) (here : Live (s.hosts host) name') :
            Live ((s.hosts host).post name) name' := live_post here
        rw [post_of_fresh (fresh host)] at settled kept ⊢
        refine tells_put tells ?_ other
        refine (tells host).keep (fun _ => id) (fun name' _ here => (kept name' here).move settled)
          (fun k behind => behind.imp_right fun both => both.2.elim) (fun _ => ?_) (fun _ => roles)
          fun _ _ blocking => by cases blocking
        rw [posted_eq] at own
        exact ⟨_, rfl, events_handleLconn.mpr (.inl (Option.some.inj own))⟩
      · cases taken
    · cases taken
  | record host name =>
    simp only [step] at taken
    split at taken
    · rename_i phase
      split at taken
      · rename_i own
        cases taken
        rw [posted_eq] at own
        have before := tells host
        have settled : ∀ todo, (s.hosts host).phase ≠ .restoring todo := fun todo same => by
          rw [phase] at same
          cases same
        have roles := before.roles (by rw [phase]; trivial)
        refine tells_put tells ?_ other
        refine ⟨?_, (fun recording => ?_), (fun _ => roles), ?_⟩
        · rintro k required (early | ⟨same, -⟩)
          · obtain ⟨name', member, text, here⟩ := before.posted k required (.inl early)
            exact ⟨name', List.mem_append_left _ member, text, .inr (here.held settled)⟩
          · obtain ⟨server, held, member⟩ := before.recording phase
            refine ⟨name, List.mem_append_right _ List.mem_cons_self, ?_, .inr ⟨server, held, ?_⟩⟩
            · rw [same]
              exact (Option.some.inj own).symm
            · rwa [← Option.some.inj own]
        · dsimp only at recording
          split at recording <;> cases recording
        · intro loop conn blocking
          dsimp only at blocking
          split at blocking
          · rename_i b waits
            cases blocking
            obtain ⟨-, -, -, -, asks⟩ := awaited_spec waits
            obtain ⟨machine, machines, some⟩ := List.exists_cons_of_ne_nil asks.machines
            obtain ⟨state, states, named⟩ := List.exists_cons_of_ne_nil asks.states
            exact ⟨machine, machines, state, states, false, by simp [SyncScripts.start, some, named]⟩
          · cases blocking
      · cases taken
    · cases taken
  | ask host name failed =>
    simp only [step] at taken
    split at taken
    · rename_i machine machines state states fail phase
      split at taken
      · rename_i server lives
        split at taken
        · obtain ⟨server', served, rfl⟩ := Option.map_eq_some_iff.mp taken
          have tells := tells_serve tells lives (step_grew served fun _ same => by cases same)
          have phase' : ((s.serve machine server').hosts host).phase =
              .blocking (.asking machine machines state states fail) none := by
            by_cases own : host = machine
            · subst own
              rw [System.serve, hosts_put]
              exact phase
            · rw [System.serve, hosts_put_of_ne own]
              exact phase
          have settled : ∀ todo, ((s.serve machine server').hosts host).phase ≠ .restoring todo :=
            fun todo same => by
              rw [phase'] at same
              cases same
          refine tells_put tells ?_ other
          refine (tells host).keep (fun _ => id) (fun name _ live => live.move settled)
            (fun k behind => ?_) (fun recording => by cases recording)
            (fun _ => (tells host).roles (by rw [phase']; trivial)) fun _ _ blocking => ?_
          · exact behind.imp_right fun both => ⟨both.1, by rw [phase']; trivial⟩
          · cases blocking
            exact ⟨_, _, _, _, _, rfl⟩
        · cases taken
      · cases taken
    · cases taken
  | refuse host time =>
    simp only [step] at taken
    split at taken
    · rename_i phase waits
      cases taken
      exact tells_answered tells phase other
    · cases taken
  | answer host received time =>
    simp only [step] at taken
    split at taken
    · rename_i machine machines state states fail conn b phase waits
      split at taken
      · split at taken
        · cases taken
          exact tells_answered tells phase other
        · cases taken
      · cases taken
    · cases taken
  | kill host | skip host | expire host | crash host | remove host => exact orderly.elim
  | next host =>
    simp only [step] at taken
    split at taken
    · rename_i phase
      split at taken
      · cases taken
        refine tells_put tells ?_ other
        refine (tells host).restart (fun k behind => ?_) rfl rfl
        rcases behind with early | ⟨-, arrived⟩
        · rcases Nat.lt_succ_iff_lt_or_eq.mp early with before | same
          · exact .inl before
          · exact .inr ⟨same, by rw [phase]; trivial⟩
        · cases arrived
      · cases taken
    · cases taken
  | reboot host =>
    cases taken
    refine tells_put tells ?_ other
    exact (tells host).restart (fun k behind => behind.imp_right fun both => both.2.elim) rfl rfl
  | remote host event =>
    simp only [step] at taken
    split at taken
    · cases taken
    · cases taken
    · rename_i server unset lives
      obtain ⟨server', served, rfl⟩ := Option.map_eq_some_iff.mp taken
      exact tells_serve tells lives (step_grew served unset) other

private theorem fresh_put (fresh : ∀ host, (s.hosts host).stale = false) (here : h.stale = false)
    (other : Text) :
    ((s.put host h).hosts other).stale = false := by
  by_cases own : other = host
  · subst own
    rwa [hosts_put]
  · rw [hosts_put_of_ne own]
    exact fresh other

/-- Only a host that goes down at once leaves its socket behind. -/
theorem step_fresh (fresh : ∀ host, (s.hosts host).stale = false) (orderly : Orderly e)
    (taken : step job s e = some t) (other : Text) : (t.hosts other).stale = false := by
  cases e with
  | kill host | skip host | expire host | crash host | remove host => exact orderly.elim
  | restore host =>
    simp only [step] at taken
    split at taken <;> cases taken
    · rw [post_of_fresh (fresh host)]
      refine fresh_put fresh ?_ other
      exact fresh host
    · refine fresh_put fresh ?_ other
      exact fresh host
  | post host name =>
    simp only [step] at taken
    split at taken
    · split at taken <;> cases taken
      rw [post_of_fresh (fresh host)]
      refine fresh_put fresh ?_ other
      exact fresh host
    · cases taken
  | set host name =>
    simp only [step] at taken
    split at taken
    · split at taken <;> cases taken
      rw [post_of_fresh (fresh host)]
      refine fresh_put fresh ?_ other
      exact fresh host
    · cases taken
  | note host name | record host name | next host =>
    simp only [step] at taken
    split at taken
    · split at taken <;> cases taken
      refine fresh_put fresh ?_ other
      exact fresh host
    · cases taken
  | finish host =>
    simp only [step] at taken
    split at taken <;> cases taken
    refine fresh_put fresh ?_ other
    exact fresh host
  | reboot host =>
    cases taken
    refine fresh_put fresh ?_ other
    exact fresh host
  | refuse host time =>
    simp only [step] at taken
    split at taken <;> cases taken
    rw [hosts_answered]
    refine fresh_put fresh ?_ other
    exact fresh host
  | answer host received time =>
    simp only [step] at taken
    split at taken
    · split at taken
      · split at taken <;> cases taken
        rw [hosts_answered]
        refine fresh_put fresh ?_ other
        exact fresh host
      · cases taken
    · cases taken
  | ask host name failed =>
    simp only [step] at taken
    split at taken
    · rename_i machine machines state states fail phase
      split at taken
      · split at taken
        · obtain ⟨server', -, rfl⟩ := Option.map_eq_some_iff.mp taken
          have served (other : Text) : ((s.serve machine server').hosts other).stale = false := by
            refine fresh_put fresh ?_ other
            exact fresh machine
          refine fresh_put served ?_ other
          exact served host
        · cases taken
      · cases taken
    · cases taken
  | remote host event =>
    simp only [step] at taken
    split at taken
    · cases taken
    · cases taken
    · obtain ⟨server', -, rfl⟩ := Option.map_eq_some_iff.mp taken
      refine fresh_put fresh ?_ other
      exact fresh host

private theorem start_tells (host : Text) : Tells job host (start.hosts host) := by
  refine .away id fun k roles behind => ?_
  rcases behind with early | ⟨-, arrived⟩
  · cases early
  · cases arrived

/-! ## A host comes to the end of its task -/

/-- What the hosts do by themselves. -/
def Calm : Event → Prop
  | .kill _ | .skip _ | .expire _ | .reboot _ | .crash _ | .remove _ | .remote _ _ => False
  | _ => True

theorem Calm.orderly (calm : Calm e) : Orderly e := by
  cases e <;> first | exact trivial | exact calm

/-- Only this host went on, with the same task. -/
structure Alone (host : Text) (s t : System) : Prop where
  task : (t.hosts host).task = (s.hosts host).task
  others : ∀ other, other ≠ host → t.hosts other = s.hosts other

theorem Alone.refl : Alone host s s := ⟨rfl, fun _ _ => rfl⟩

theorem Alone.trans {u : System} (first : Alone host s t) (second : Alone host t u) : Alone host s u :=
  ⟨second.task.trans first.task, fun other apart => (second.others other apart).trans (first.others other apart)⟩

private theorem alone_put (task : h.task = (s.hosts host).task) : Alone host s (s.put host h) :=
  ⟨by rw [hosts_put, task], fun _ apart => hosts_put_of_ne apart⟩

theorem Alone.mark {mark : Mark} (alone : Alone host s t) : Alone host s (t.mark mark) :=
  ⟨alone.task, alone.others⟩

/-- The event of the plugin can be sent. -/
theorem exists_name (good : Good job s) (host : Text) :
    ∃ name : Name, name.text = barrier (job.environ host (s.hosts host).task) := by
  have small : (order (job.environ host (s.hosts host).task)).length ≤ 10 := by
    have fits : 2 * (s.hosts host).task + 1 < 10 ^ 10 := by
      have bounded := job.bounded host
      rcases Nat.eq_zero_or_pos (s.hosts host).task with zero | positive
      · omega
      · have within := (good.fair host).within positive
        omega
    rcases order_cases job host (s.hosts host).task with one | odd
    · rw [one]
      decide
    · rw [odd]
      exact (Nat.length_toDigits_le_iff (by decide) (by decide)).mpr fits
  have inside : '_' ∈ barrier (job.environ host (s.hosts host).task) :=
    List.mem_append_right _ List.mem_cons_self
  refine ⟨⟨barrier (job.environ host (s.hosts host).task), ?_, ?_, ?_⟩, rfl⟩
  · intro member
    rcases List.mem_append.mp member with digit | rest
    · exact absurd (order_digits digit) (by decide)
    · exact absurd rest (by decide)
  · rw [barrier, event, List.length_append]
    have rest : ('_' :: DONE).length = 5 := by decide
    rw [rest]
    unfold Sync.BUFSIZE
    omega
  · intro same
    rw [same] at inside
    exact absurd inside (by decide)

/-- Somewhere onward the host has arrived. -/
def Arrives (job : Job) (host : Text) (s : System) : Prop :=
  ∃ t, Reaches (step job) Calm s t ∧ Alone host s t ∧ Arrived (t.hosts host).phase

theorem Arrives.after {e : Event} (arrives : Arrives job host t) (taken : step job s e = some t)
    (calm : Calm e) (alone : Alone host s t) : Arrives job host s := by
  obtain ⟨u, reaches, later, arrived⟩ := arrives
  exact ⟨u, reaches.after taken calm, alone.trans later, arrived⟩

private theorem arrives_recording (good : Good job s) (phase : (s.hosts host).phase = .recording) :
    Arrives job host s := by
  obtain ⟨name, text⟩ := exists_name good host
  have own : posted (job.environ host (s.hosts host).task) = some name.text := by rw [posted_eq, text]
  obtain ⟨later, taken, arrived⟩ : ∃ later, step job s (.record host name) =
      some (s.put host
        { s.hosts host with file := (s.hosts host).file ++ [name], phase := later }) ∧
      Arrived later := by
    simp only [step, phase]
    refine ⟨_, if_pos own, ?_⟩
    split <;> trivial
  refine ⟨_, .single taken trivial, alone_put rfl, ?_⟩
  rw [hosts_put]
  exact arrived

private theorem arrives_setting (good : Good job s) (phase : (s.hosts host).phase = .setting) :
    Arrives job host s := by
  obtain ⟨name, text⟩ := exists_name good host
  have own : posted (job.environ host (s.hosts host).task) = some name.text := by rw [posted_eq, text]
  have taken : step job s (.set host name) =
      some (s.put host { (s.hosts host).post name with phase := .recording }) := by
    simp only [step, phase, if_pos own]
  refine (arrives_recording (step_good good taken) ?_).after taken trivial (alone_put post_task)
  rw [hosts_put]

private theorem arrives_running (good : Good job s) (phase : (s.hosts host).phase = .running) :
    Arrives job host s := by
  have taken : step job s (.finish host) = some ((s.put host { s.hosts host with
      phase := if hasRoles (job.environ host (s.hosts host).task) then Phase.setting else .ended }).mark
      (.finished host (s.hosts host).task)) := by
    simp only [step, phase]
  have alone : Alone host s (s.put host { s.hosts host with
      phase := if hasRoles (job.environ host (s.hosts host).task) then Phase.setting else .ended }) :=
    alone_put rfl
  by_cases roles : hasRoles (job.environ host (s.hosts host).task) = true
  · refine (arrives_setting (step_good good taken) ?_).after taken trivial alone.mark
    rw [System.mark, hosts_put, if_pos roles]
  · refine ⟨_, .single taken trivial, alone.mark, ?_⟩
    rw [System.mark, hosts_put, if_neg roles]
    trivial

private theorem arrives_restoring {todo : List Name} (good : Good job s)
    (phase : (s.hosts host).phase = .restoring todo) : Arrives job host s := by
  induction todo generalizing s with
  | nil =>
    have taken : step job s (.restore host) =
        some (s.put host { s.hosts host with phase := .running }) := by
      simp only [step, phase]
    refine (arrives_running (step_good good taken) ?_).after taken trivial (alone_put rfl)
    rw [hosts_put]
  | cons name todo ih =>
    have taken : step job s (.restore host) =
        some (s.put host { (s.hosts host).post name with phase := .restoring todo }) := by
      simp only [step, phase]
    refine (ih (step_good good taken) ?_).after taken trivial (alone_put post_task)
    rw [hosts_put]

/-- A host comes to the end of its task without the others. -/
theorem arrives (good : Good job s) (host : Text) : Arrives job host s := by
  cases phase : (s.hosts host).phase with
  | restoring todo => exact arrives_restoring good phase
  | running => exact arrives_running good phase
  | setting => exact arrives_setting good phase
  | recording => exact arrives_recording good phase
  | blocking loop conn => exact ⟨s, .refl s, .refl, by rw [phase]; trivial⟩
  | ended => exact ⟨s, .refl s, .refl, by rw [phase]; trivial⟩

/-! ## A host hears from the others -/

/-- The host goes on where it waits; the servers get to know more clients only. -/
structure Heard (host : Text) (s t : System) : Prop where
  task : ∀ other, (t.hosts other).task = (s.hosts other).task
  phase : ∀ other, other ≠ host → (t.hosts other).phase = (s.hosts other).phase
  events : ∀ machine server, (s.hosts machine).server = some server →
    ∃ server', (t.hosts machine).server = some server' ∧ server'.events = server.events

theorem Heard.refl : Heard host s s :=
  ⟨fun _ => rfl, fun _ _ => rfl, fun _ server here => ⟨server, here, rfl⟩⟩

theorem Heard.trans {u : System} (first : Heard host s t) (second : Heard host t u) : Heard host s u where
  task := fun other => (second.task other).trans (first.task other)
  phase := fun other apart => (second.phase other apart).trans (first.phase other apart)
  events := by
    intro machine server here
    obtain ⟨server', there, same⟩ := first.events machine server here
    obtain ⟨server'', onward, same'⟩ := second.events machine server' there
    exact ⟨server'', onward, same'.trans same⟩

private theorem heard_serve (held : (s.hosts machine).server = some server)
    (same : server'.events = server.events) : Heard host s (s.serve machine server') := by
  have others (other : Text) (apart : other ≠ machine) :
      (s.serve machine server').hosts other = s.hosts other := hosts_put_of_ne apart
  have here : (s.serve machine server').hosts machine = { s.hosts machine with server := some server' } :=
    hosts_put
  refine ⟨fun other => ?_, fun other _ => ?_, fun other last lives => ?_⟩
  · by_cases own : other = machine
    · rw [own, here]
    · rw [others other own]
  · by_cases own : other = machine
    · rw [own, here]
    · rw [others other own]
  · by_cases own : other = machine
    · subst own
      obtain rfl := Option.some.inj (held.symm.trans lives)
      exact ⟨server', by rw [here], same⟩
    · exact ⟨last, (others other own).symm ▸ lives, rfl⟩

private theorem heard_move {phase : Phase}
    (moved : t.hosts = (s.put host { s.hosts host with phase := phase }).hosts) :
    Heard host s t := by
  refine ⟨fun other => ?_, fun other apart => ?_, fun other last lives => ?_⟩
  · rw [moved]
    by_cases own : other = host
    · rw [own, hosts_put]
    · rw [hosts_put_of_ne own]
  · rw [moved, hosts_put_of_ne apart]
  · rw [moved]
    by_cases own : other = host
    · subst own
      exact ⟨last, by rw [hosts_put]; exact lives, rfl⟩
    · exact ⟨last, by rw [hosts_put_of_ne own]; exact lives, rfl⟩

/-- The hosts by themselves let the plugin of one go on. -/
structure Onward (job : Job) (host : Text) (s t : System) : Prop where
  reaches : Reaches (step job) Calm s t
  heard : Heard host s t

theorem Onward.trans {u : System} (first : Onward job host s t) (second : Onward job host t u) :
    Onward job host s u := ⟨first.reaches.trans second.reaches, first.heard.trans second.heard⟩

theorem Onward.good (onward : Onward job host s t) (good : Good job s) : Good job t :=
  onward.reaches.keeps (fun _ _ _ _ good taken => step_good good taken) good

/-- The event is on the servers of the machines. -/
def Held (s : System) (machines : List Text) (state : Text) : Prop :=
  ∀ machine ∈ machines, ∃ server, (s.hosts machine).server = some server ∧ state ∈ server.events

theorem Held.heard {machines : List Text} {state : Text} (held : Held s machines state)
    (heard : Heard host s t) : Held t machines state := by
  intro machine member
  obtain ⟨server, here, set⟩ := held machine member
  obtain ⟨server', there, same⟩ := heard.events machine server here
  exact ⟨server', there, same ▸ set⟩

/-- A server that has the event sends it to a client that asks. -/
theorem block_set {failed : List Nat} (sound : SyncServer.Sound server) (set : name.text ∈ server.events)
    (taken : Sync.step server (.block name failed) = some server') :
    replies server' server.asked.length = [message name.text] := by
  simp only [Sync.step] at taken
  split at taken
  · rename_i dead
    cases taken
    have kept := SyncServer.pinged_sound sound dead
    rw [SyncServer.handleRconn_eq sound]
    dsimp only
    rw [if_pos (show name.text ∈ (SyncServer.pinged server failed).events from set)]
    apply SyncServer.replies_append.trans
    have new : replies (SyncServer.pinged server failed) server.asked.length = [] :=
      SyncServer.replies_new kept
    have same : (SyncServer.pinged server failed).asked = server.asked := rfl
    simp [new, same]
  · cases taken

private theorem delivered_message {sockfd : Nat} (told : replies server sockfd = [message name.text]) :
    Delivered server sockfd [message name.text] ∧ Sync.block name.text [message name.text] = 0 := by
  have pieces : SyncClient.Pieces [message name.text] := by
    intro bytes member
    rw [List.mem_singleton.mp member]
    have short := name.short
    refine ⟨by simp [message], ?_⟩
    rw [message, List.length_append]
    exact short
  have whole : message name.text ++ [] ∈ [message name.text] := by simp
  exact ⟨⟨pieces, by rw [told]⟩, SyncClient.block_of_whole pieces whole⟩

/-- What came over the connection answers the question. -/
theorem answer {machines states : List Text} {state : Text} {fail : Bool} {conn : Conn}
    {received : List (List Char)}
    (phase : (s.hosts host).phase = .blocking (.asking machine machines state states fail) (some conn))
    (waits : awaited (job.environ host (s.hosts host).task) = some b)
    (lives : (s.hosts conn.machine).lives[conn.life]? = some server)
    (delivered : Delivered server conn.sockfd received) :
    ∃ t, Onward job host s t ∧ (t.hosts host).phase = phaseOf (SyncScripts.answered b
      (.asking machine machines state states fail) (Sync.block state received) 0) := by
  have taken : step job s (.answer host received 0) = some (s.answered b host
      (.asking machine machines state states fail) (Sync.block state received) 0) := by
    simp only [step, phase, waits, lives, if_pos delivered]
  refine ⟨_, ⟨.single taken trivial, heard_move hosts_answered⟩, ?_⟩
  rw [hosts_answered, hosts_put]

/-- A question to a machine that has the event. -/
theorem ask {machines states : List Text} {fail : Bool} (good : Good job s)
    (phase : (s.hosts host).phase = .blocking (.asking machine machines name.text states fail) none)
    (lives : (s.hosts machine).server = some server) (set : name.text ∈ server.events) :
    ∃ t conn server', Onward job host s t ∧
      (t.hosts host).phase = .blocking (.asking machine machines name.text states fail) (some conn) ∧
      (t.hosts conn.machine).lives[conn.life]? = some server' ∧
      replies server' conn.sockfd = [message name.text] := by
  have sound := (good.fair machine).sound server (mem_lives lives)
  have dead : ∀ sockfd ∈ ([] : List Nat), sockfd ∈ server.gone := fun _ member => by cases member
  obtain ⟨server', served⟩ : ∃ server', Sync.step server (.block name []) = some server' := by
    rw [Sync.step, if_pos dead]
    exact ⟨_, rfl⟩
  have same := (step_grew served fun _ same => by cases same).events
  have past : ((s.serve machine server').hosts machine).past = (s.hosts machine).past := by
    rw [System.serve, hosts_put]
  have taken : step job s (.ask host name []) = some ((s.serve machine server').put host
      { (s.serve machine server').hosts host with
        phase := .blocking (.asking machine machines name.text states fail)
          (some ⟨machine, (s.hosts machine).past.length, server.asked.length⟩) }) := by
    simp only [step, phase, lives, if_true, served, Option.map_some, past]
  refine ⟨_, ⟨machine, (s.hosts machine).past.length, server.asked.length⟩, server',
    ⟨.single taken trivial, (heard_serve lives same).trans (heard_move rfl)⟩, ?_, ?_, ?_⟩
  · rw [hosts_put]
  · rw [lives_put]
    simp [System.serve, System.put, Host.lives]
  · exact block_set sound set served

/-- The machine has the event. -/
theorem hear {machines states : List Text} {fail : Bool} (good : Good job s)
    (phase : (s.hosts host).phase = .blocking (.asking machine machines name.text states fail) none)
    (waits : awaited (job.environ host (s.hosts host).task) = some b)
    (lives : (s.hosts machine).server = some server) (set : name.text ∈ server.events) :
    ∃ t, Onward job host s t ∧ (t.hosts host).phase =
      phaseOf (SyncScripts.answered b (.asking machine machines name.text states fail) 0 0) := by
  obtain ⟨t, conn, server', onward, phase', lives', told⟩ := ask good phase lives set
  obtain ⟨delivered, success⟩ := delivered_message told
  have waits' : awaited (job.environ host (t.hosts host).task) = some b := by rwa [onward.heard.task]
  obtain ⟨u, later, phase''⟩ := answer phase' waits' lives' delivered
  rw [success] at phase''
  exact ⟨u, onward.trans later, phase''⟩

/-- All the machines that are left in a round have the event. -/
theorem hear_round {machines : List Text} {fail : Bool} (good : Good job s)
    (phase : (s.hosts host).phase = phaseOf (next b 0 fail machines))
    (waits : awaited (job.environ host (s.hosts host).task) = some b) (states : b.states = [name.text])
    (all : b.any = false) (held : Held s machines name.text) :
    ∃ t, Onward job host s t ∧ (t.hosts host).phase = phaseOf (next b 0 fail []) := by
  induction machines generalizing s with
  | nil => exact ⟨s, ⟨.refl s, .refl⟩, phase⟩
  | cons machine machines ih =>
    rw [next, states] at phase
    obtain ⟨server, lives, set⟩ := held machine List.mem_cons_self
    obtain ⟨t, onward, phase'⟩ := hear good phase waits lives set
    have heard : SyncScripts.answered b (.asking machine machines name.text [] fail) 0 0 =
        next b 0 fail machines := by
      simp [SyncScripts.answered, all]
    rw [heard] at phase'
    have waits' : awaited (job.environ host (t.hosts host).task) = some b := by rwa [onward.heard.task]
    obtain ⟨u, later, left⟩ := ih (onward.good good) phase' waits'
      (.heard (fun machine member => held machine (List.mem_cons_of_mem _ member)) onward.heard)
    exact ⟨u, onward.trans later, left⟩

/-- A round that did not fail before ends the loop, any other one leads to one that does. -/
theorem leave {machines : List Text} {fail : Bool} (good : Good job s)
    (phase : (s.hosts host).phase = phaseOf (next b 0 fail machines))
    (waits : awaited (job.environ host (s.hosts host).task) = some b) (states : b.states = [name.text])
    (all : b.any = false) (asks : Asks b) (within : machines ⊆ b.machines)
    (held : Held s b.machines name.text) :
    ∃ t, Onward job host s t ∧ (t.hosts host).phase = .ended := by
  obtain ⟨t, onward, phase'⟩ :=
    hear_round good phase waits states all fun machine member => held machine (within member)
  cases fail with
  | false => exact ⟨t, onward, phase'⟩
  | true =>
    rw [next, if_pos rfl, start_eq_next asks] at phase'
    have waits' : awaited (job.environ host (t.hosts host).task) = some b := by rwa [onward.heard.task]
    obtain ⟨u, later, left⟩ :=
      hear_round (onward.good good) phase' waits' states all (held.heard onward.heard)
    exact ⟨u, onward.trans later, left⟩

/-- A host passes when the servers of its members have the event, whatever question is under way. -/
theorem pass {loop : Loop} {conn : Option Conn} (good : Good job s) (tells : Tells job host (s.hosts host))
    (phase : (s.hosts host).phase = .blocking loop conn)
    (held : Held s (members (job.environ host (s.hosts host).task))
      (barrier (job.environ host (s.hosts host).task))) :
    ∃ t, Onward job host s t ∧ (t.hosts host).phase = .ended := by
  have stage : Stage job s.history host (s.hosts host).task (.blocking loop conn) :=
    phase ▸ (good.fair host).stage
  obtain ⟨name, text⟩ := exists_name good host
  obtain ⟨machine, machines, state, states, fail, rfl⟩ := tells.asking loop conn phase
  obtain ⟨b, answers, waits, ran, -⟩ := stage
  obtain ⟨members, named, all, untimed, asks⟩ := awaited_spec waits
  obtain ⟨-, done, -, passed, -, split, states', -⟩ := run_progress asks ran
  rw [← members, ← text] at held
  rw [← text] at named
  obtain ⟨rfl, rfl⟩ : state = name.text ∧ states = [] := by
    rw [named] at states'
    cases passed with
    | nil => simpa using states'.symm
    | cons first rest => simp at states'
  have within : machine :: machines ⊆ b.machines := split ▸ List.subset_append_right ..
  cases conn with
  | none =>
    have here : (s.hosts host).phase = phaseOf (next b 0 fail (machine :: machines)) := by
      rw [phase, next, named]
      rfl
    exact leave good here waits named all asks within held
  | some conn =>
    -- whatever the server has to say, the connection may as well be lost
    obtain ⟨server, -, -, -, -, lives, -, -⟩ := by simpa only [Linked, phase] using good.linked host
    have nothing : Delivered server conn.sockfd [] :=
      ⟨fun _ member => absurd member List.not_mem_nil, List.nil_prefix⟩
    obtain ⟨t, onward, phase'⟩ := answer phase waits lives nothing
    have failed : SyncScripts.answered b (.asking machine machines name.text [] fail)
        (Sync.block name.text []) 0 = next b 0 true machines := by
      have lost : Sync.block name.text [] = 1 := rfl
      rw [lost]
      cases machines <;> simp [SyncScripts.answered, exceeded, untimed, next]
    rw [failed] at phase'
    have waits' : awaited (job.environ host (t.hosts host).task) = some b := by rwa [onward.heard.task]
    obtain ⟨u, later, left⟩ := leave (onward.good good) phase' waits' named all asks
      (List.subset_of_cons_subset within) (held.heard onward.heard)
    exact ⟨u, onward.trans later, left⟩

/-! ## All hosts -/

/-- The tasks of the hosts belong together: who is waited for after a task has one in the same place
that waits under the same number. -/
def Matched (job : Job) (hosts : List Text) : Prop :=
  ∀ host ∈ hosts, ∀ k, hasRoles (job.environ host k) = true → ∀ machine ∈ members (job.environ host k),
    machine ∈ hosts ∧ hasRoles (job.environ machine k) = true ∧
      order (job.environ machine k) = order (job.environ host k)

/-- The host has ended its last task. -/
def Over (job : Job) (s : System) (host : Text) : Prop :=
  (s.hosts host).phase = .ended ∧ (job.tasks host).length ≤ (s.hosts host).task + 1

/-- What a host has to do in a phase before it can go on to the next task. -/
def Phase.steps : Phase → Nat
  | .ended => 0
  | .blocking _ _ => 1
  | _ => 2

/-- What a host has to do yet. -/
def toDo (job : Job) (host : Text) (h : Host) : Nat :=
  3 * ((job.tasks host).length - h.task) + h.phase.steps

def allToDo (job : Job) (hosts : List Text) (s : System) : Nat :=
  (hosts.map fun host => toDo job host (s.hosts host)).sum

variable {hosts : List Text}

private theorem steps_arrived {phase : Phase} (arrived : Arrived phase) : phase.steps < 2 := by
  cases phase with
  | blocking loop conn => exact Nat.lt_succ_self 1
  | ended => exact Nat.zero_lt_two
  | _ => exact arrived.elim

private theorem steps_of_not_arrived {phase : Phase} (way : ¬Arrived phase) : phase.steps = 2 := by
  cases phase with
  | blocking loop conn => exact absurd trivial way
  | ended => exact absurd trivial way
  | _ => rfl

/-- The roles are told to tasks only. -/
theorem within_of_hasRoles (roles : hasRoles (job.environ host k) = true) : k < (job.tasks host).length := by
  by_contra beyond
  rw [Job.environ, List.getElem?_eq_none (Nat.not_lt.mp beyond)] at roles
  exact absurd roles (by decide)

private theorem allToDo_lt (member : host ∈ hosts) (others : ∀ other, other ≠ host →
      (t.hosts other).task = (s.hosts other).task ∧ (t.hosts other).phase = (s.hosts other).phase)
    (less : toDo job host (t.hosts host) < toDo job host (s.hosts host)) :
    allToDo job hosts t < allToDo job hosts s := by
  refine List.sum_lt_sum _ _ (fun other _ => ?_) ⟨host, member, less⟩
  by_cases own : other = host
  · subst own
    exact Nat.le_of_lt less
  · obtain ⟨task, phase⟩ := others other own
    rw [toDo, toDo, task, phase]

/-- A host that is under way comes to the end of its task. -/
theorem arrives_toDo (good : Good job s) (member : host ∈ hosts) (way : ¬Arrived (s.hosts host).phase) :
    ∃ t, Reaches (step job) Calm s t ∧ allToDo job hosts t < allToDo job hosts s := by
  obtain ⟨t, reaches, alone, arrived⟩ := arrives good host
  refine ⟨t, reaches, allToDo_lt member (fun other apart => ?_) ?_⟩
  · rw [alone.others other apart]
    exact ⟨rfl, rfl⟩
  · have after := steps_arrived arrived
    rw [toDo, toDo, alone.task, steps_of_not_arrived way]
    omega

/-- A host that has ended a task goes on to the next one. -/
theorem next_toDo (member : host ∈ hosts) (phase : (s.hosts host).phase = .ended)
    (more : (s.hosts host).task + 1 < (job.tasks host).length) :
    ∃ t, Reaches (step job) Calm s t ∧ allToDo job hosts t < allToDo job hosts s := by
  have taken : step job s (.next host) = some (s.put host { s.hosts host with
      task := (s.hosts host).task + 1, phase := .restoring (s.hosts host).file }) := by
    simp only [step, phase, if_pos more]
  refine ⟨_, .single taken trivial, allToDo_lt member (fun other apart => ?_) ?_⟩
  · rw [hosts_put_of_ne apart]
    exact ⟨rfl, rfl⟩
  · rw [hosts_put, toDo, toDo, phase]
    simp only [Phase.steps]
    omega

def Waits (s : System) (host : Text) : Prop := ∃ loop conn, (s.hosts host).phase = .blocking loop conn

/-- Of the hosts that wait, one is the last of all. -/
theorem exists_last (member : host ∈ hosts) (waits : Waits s host) : ∃ last ∈ hosts, Waits s last ∧
    ∀ other ∈ hosts, Waits s other → (s.hosts last).task ≤ (s.hosts other).task := by
  classical
  have some : ∃ n, ∃ last ∈ hosts, Waits s last ∧ (s.hosts last).task = n :=
    ⟨_, host, member, waits, rfl⟩
  obtain ⟨last, member, waits, task⟩ := Nat.find_spec some
  refine ⟨last, member, waits, fun other held waits => ?_⟩
  rw [task]
  exact Nat.find_min' some ⟨other, held, waits, rfl⟩

/-- When all hosts have come as far as they can by themselves, the last one passes. -/
theorem pass_toDo (telling : Telling job s) (matched : Matched job hosts)
    (arrived : ∀ host ∈ hosts, Arrived (s.hosts host).phase)
    (ended : ∀ host ∈ hosts, (s.hosts host).phase = .ended → Over job s host)
    (member : host ∈ hosts) (waits : Waits s host) :
    ∃ t, Reaches (step job) Calm s t ∧ allToDo job hosts t < allToDo job hosts s := by
  obtain ⟨last, member, ⟨loop, conn, phase⟩, least⟩ := exists_last member waits
  have roles : hasRoles (job.environ last (s.hosts last).task) = true :=
    (telling.tells last).roles (by rw [phase]; trivial)
  have held : Held s (members (job.environ last (s.hosts last).task))
      (barrier (job.environ last (s.hosts last).task)) := by
    intro machine waited
    obtain ⟨machine_mem, roles', same⟩ := matched last member _ roles machine waited
    have within := within_of_hasRoles roles'
    have here := arrived machine machine_mem
    have behind : Behind (s.hosts machine) (s.hosts last).task := by
      have le : (s.hosts last).task ≤ (s.hosts machine).task := by
        cases at_end : (s.hosts machine).phase with
        | blocking loop conn => exact least machine machine_mem ⟨loop, conn, at_end⟩
        | ended =>
          have done := (ended machine machine_mem at_end).2
          omega
        | _ =>
          rw [at_end] at here
          exact here.elim
      rcases Nat.lt_or_eq_of_le le with before | equal
      · exact .inl before
      · exact .inr ⟨equal, here⟩
    obtain ⟨name, -, text, live⟩ := (telling.tells machine).posted _ roles' behind
    obtain ⟨server, lives, set⟩ := live.held fun todo restoring => by
      rw [restoring] at here
      exact here
    refine ⟨server, lives, ?_⟩
    rw [barrier, ← same, ← barrier, ← text]
    exact set
  obtain ⟨t, onward, left⟩ := pass telling.good (telling.tells last) phase held
  refine ⟨t, onward.reaches, allToDo_lt member (fun other apart => ?_) ?_⟩
  · exact ⟨onward.heard.task other, onward.heard.phase other apart⟩
  · rw [toDo, toDo, onward.heard.task, left, phase]
    exact Nat.lt_succ_self _

private theorem step_telling (orderly : Orderly e) (telling : Telling job s)
    (taken : step job s e = some t) : Telling job t :=
  ⟨step_good telling.good taken, step_fresh telling.fresh orderly taken,
    step_tells telling.tells telling.fresh orderly taken⟩

/-- While a host has something to do, the hosts can do some of it. -/
theorem progress (matched : Matched job hosts) (telling : Telling job s)
    (unfinished : ¬∀ host ∈ hosts, Over job s host) :
    ∃ t, Reaches (step job) Calm s t ∧ allToDo job hosts t < allToDo job hosts s := by
  by_cases arrived : ∀ host ∈ hosts, Arrived (s.hosts host).phase
  · by_cases ended : ∀ host ∈ hosts, (s.hosts host).phase = .ended → Over job s host
    · simp only [not_forall] at unfinished
      obtain ⟨host, member, unfinished⟩ := unfinished
      have here := arrived host member
      cases phase : (s.hosts host).phase with
      | blocking loop conn => exact pass_toDo telling matched arrived ended member ⟨loop, conn, phase⟩
      | ended => exact absurd (ended host member phase) unfinished
      | _ =>
        rw [phase] at here
        exact here.elim
    · simp only [not_forall] at ended
      obtain ⟨host, member, phase, more⟩ := ended
      exact next_toDo member phase (Nat.lt_of_not_le fun last => more ⟨phase, last⟩)
  · simp only [not_forall] at arrived
    obtain ⟨host, member, way⟩ := arrived
    exact arrives_toDo telling.good member way

end Restraint.Multihost

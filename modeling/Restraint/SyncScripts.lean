import Restraint.Lib.CString
import Restraint.Lib.Transition
import Mathlib.Data.List.Induction

/-! `rstrnt-sync-set` and `rstrnt-sync-block`, the scripts around `rstrnt-sync`. A state is
posted and awaited as the event `order_state`. The second script asks each machine for each
state, and starts a new round as long as a machine of the round had none of them. -/
namespace Restraint.SyncScripts
open CString (Text)
open Transition

/-- What separates the words of an unquoted variable. -/
def isIFS (c : Char) : Bool := c = ' ' || c = '\t' || c = '\n'

/-- An unquoted variable in a list of words. -/
def words (text : Text) : List Text := (text.splitOnP isIFS).filter (· ≠ [])

/-! ## Options -/

/-- An option as `getopt` hands it over. -/
inductive Opt where
  | state (state : Text)
  | testorder (order : Text)
  | any
  | timeout (seconds : Nat)
  | retry (pause : Nat)
  /-- `-R`, `-m` or `-r` with its argument. -/
  | legacy
  | help

/-- The order is part of the event under the names of the scripts for tasks. -/
def XTRA (basename taskorder : Text) (names : List Text) : Text :=
  if basename ∈ names then taskorder else []

/-- `${XTRA}_${state}`. -/
def event (xtra state : Text) : Text := xtra ++ '_' :: state

/-- The loop over the options of `rstrnt-sync-set`: the state and `TASKORDER`, and nothing when
it shows its usage. -/
def setOptions : Text → Text → List Opt → Option (Text × Text)
  | state, taskorder, [] => some (state, taskorder)
  | _, taskorder, .state state :: rest => setOptions state taskorder rest
  | state, _, .testorder order :: rest => setOptions state order rest
  | state, taskorder, .legacy :: rest => setOptions state taskorder rest
  | _, _, _ => none

def setNames : List Text :=
  ["rhts-sync-set".toList, "rhts_sync_set".toList, "rstrnt-sync-set".toList]

/-- What `rstrnt-sync-set` posts and puts into its file. -/
def syncSet (basename taskorder : Text) (opts : List Opt) : Option Text :=
  match setOptions [] taskorder opts with
  | some (state, taskorder) =>
    if state = [] then none else some (event (XTRA basename taskorder setNames) state)
  | none => none

def blockNames : List Text :=
  ["rhts-sync-block".toList, "rhts_sync_block".toList, "rstrnt-sync-block".toList]

/-- The variables that the options of `rstrnt-sync-block` set. -/
structure Options where
  states : Text
  any : Bool
  timeout : Option Nat
  pause : Nat

/-- The loop over the options of `rstrnt-sync-block`. `-t` is read and forgotten. -/
def blockOptions (xtra : Text) (now : Nat) : Options → List Opt → Option Options
  | options, [] => some options
  | options, .state state :: rest =>
    blockOptions xtra now { options with states := options.states ++ ' ' :: event xtra state } rest
  | options, .any :: rest => blockOptions xtra now { options with any := true } rest
  | options, .timeout seconds :: rest =>
    blockOptions xtra now { options with timeout := some (now + seconds) } rest
  | options, .retry pause :: rest => blockOptions xtra now { options with pause := pause } rest
  | options, .testorder _ :: rest => blockOptions xtra now options rest
  | _, _ => none

/-- What the loop of `rstrnt-sync-block` reads. -/
structure Blocking where
  machines : List Text
  states : List Text
  any : Bool
  timeout : Option Nat

/-- `rstrnt-sync-block` up to its loop. -/
def syncBlock (basename taskorder : Text) (now : Nat) (opts : List Opt) (arguments : List Text) :
    Option Blocking :=
  match blockOptions (XTRA basename taskorder blockNames) now ⟨[], false, none, 60⟩ opts with
  | some options =>
    if [' '].intercalate arguments = [] then none
    else some ⟨arguments.flatMap words, words options.states, options.any, options.timeout⟩
  | none => none

/-! ## The loop -/

/-- Where the loop is: at `rstrnt-sync block state machine 10` with what is left of both lists, or
left with the exit status. -/
inductive Loop where
  | asking (machine : Text) (machines : List Text) (state : Text) (states : List Text) (fail : Bool)
  | left (rc : Nat)
  deriving DecidableEq

/-- `while true`. Without a machine or a state nothing sets `rc`, and no test fails. -/
def start (b : Blocking) : Loop :=
  match b.machines, b.states with
  | machine :: machines, state :: states => .asking machine machines state states false
  | _, _ => .left 0

/-- The next machine of the round. After the last one the loop is left if none failed. -/
def next (b : Blocking) (rc : Nat) (fail : Bool) : List Text → Loop
  | [] => if fail then start b else .left rc
  | machine :: machines =>
    match b.states with
    | state :: states => .asking machine machines state states fail
    | [] => .left 0

/-- `[ "$timeout" -le "$time" ]`, if there is a timeout. -/
def exceeded (b : Blocking) (time : Nat) : Bool := b.timeout.any (· ≤ time)

/-- What `rstrnt-sync block` returned to a question, and the time when it did. -/
structure Answer where
  machine : Text
  state : Text
  rc : Nat
  time : Nat
  deriving DecidableEq

/-- The loop goes on with an answer. The pause before the next question is left out. -/
def answered (b : Blocking) (loop : Loop) (rc time : Nat) : Loop :=
  match loop with
  | .left rc => .left rc
  | .asking machine machines _ states fail =>
    if rc = 0 then if b.any then .left 0 else next b 0 fail machines
    else
      match states with
      | state :: states => .asking machine machines state states fail
      | [] => if exceeded b time then .left rc else next b rc true machines

/-- A question is answered. -/
def step (b : Blocking) : Step Loop Answer := fun loop a =>
  match loop with
  | .asking machine _ state _ _ =>
    if a.machine = machine ∧ a.state = state then some (answered b loop a.rc a.time) else none
  | .left _ => none

/-- A machine refuses states, in order. -/
inductive Refused (machine : Text) : List Text → List Answer → Prop where
  | nil : Refused machine [] []
  | cons (no : rc ≠ 0) (more : Refused machine states answers) :
      Refused machine (state :: states) (⟨machine, state, rc, time⟩ :: answers)

/-- Every machine refuses some of the states and then has the next one. -/
inductive Round (states : List Text) : List Text → List Answer → Prop where
  | nil : Round states [] []
  | cons {refused : List Text} (split : states = refused ++ state :: later)
      (first : Refused machine refused answers) (more : Round states machines rest) :
      Round states (machine :: machines) (answers ++ ⟨machine, state, 0, time⟩ :: rest)

variable {b : Blocking} {loop : Loop} {a : Answer} {answers before round rest : List Answer}
variable {machine state : Text} {machines states later done : List Text} {fail : Bool} {rc time : Nat}

/-! ## Words -/

theorem words_word (word : ∀ c ∈ state, isIFS c = false) (some : state ≠ []) : words state = [state] := by
  simp [words, List.splitOnP_eq_singleton word, some]

theorem words_ifs {c : Char} (ifs : isIFS c = true) : words (c :: state) = words state := by
  simp [words, List.splitOnP_cons_eq_if_modifyHead, ifs]

/-- What is between two separators has none. -/
theorem not_ifs_piece {text : Text} : ∀ piece ∈ text.splitOnP isIFS, ∀ c ∈ piece, isIFS c = false := by
  induction text with
  | nil => simp
  | cons first rest ih =>
    rw [List.splitOnP_cons_eq_if_modifyHead]
    obtain ⟨head, tail, shape⟩ := List.exists_cons_of_ne_nil (List.splitOnP_ne_nil isIFS rest)
    rw [shape] at ih ⊢
    split
    · simpa using ih
    · rename_i plain
      intro piece member c held
      rcases List.mem_cons.mp member with rfl | later
      · rcases List.mem_cons.mp held with rfl | held
        · exact Bool.eq_false_iff.mpr plain
        · exact ih head List.mem_cons_self c held
      · exact ih piece (List.mem_cons_of_mem _ later) c held

theorem words_spec {text word : Text} (member : word ∈ words text) :
    word ≠ [] ∧ ∀ c ∈ word, isIFS c = false := by
  obtain ⟨piece, some⟩ := List.mem_filter.mp member
  exact ⟨of_decide_eq_true some, not_ifs_piece word piece⟩

/-! ## A round -/

theorem Refused.concat (refused : Refused machine states answers) (no : rc ≠ 0) :
    Refused machine (states ++ [state]) (answers ++ [⟨machine, state, rc, time⟩]) := by
  induction refused with
  | nil => exact .cons no .nil
  | cons first more ih => exact .cons first ih

theorem Round.append (round : Round states done before) (more : Round states machines rest) :
    Round states (done ++ machines) (before ++ rest) := by
  induction round with
  | nil => exact more
  | cons split first more' ih =>
    rw [List.append_assoc]
    exact .cons split first ih

/-- One more machine has a state. -/
theorem Round.concat {refused : List Text} (round : Round states done before)
    (split : states = refused ++ state :: later) (last : Refused machine refused answers) :
    Round states (done ++ [machine]) (before ++ (answers ++ [⟨machine, state, 0, time⟩])) :=
  round.append (.cons split last .nil)

/-- Every machine of a round has had a state. -/
theorem Round.answer (round : Round states machines answers) (member : machine ∈ machines) :
    ∃ a ∈ answers, a.machine = machine ∧ a.state ∈ states ∧ a.rc = 0 := by
  induction round with
  | nil => cases member
  | cons split first more ih =>
    rcases List.mem_cons.mp member with rfl | member
    · refine ⟨_, List.mem_append_right _ List.mem_cons_self, rfl, ?_, rfl⟩
      rw [split]
      exact List.mem_append_right _ List.mem_cons_self
    · obtain ⟨a, held, same⟩ := ih member
      exact ⟨a, List.mem_append_right _ (List.mem_cons_of_mem _ held), same⟩

/-- Refusals lead to the next state of the machine. -/
theorem run_refused (b : Blocking) (fail : Bool) {refused : List Text} (asked : Refused machine refused answers)
    (split : states = refused ++ state :: later) :
    ∃ first others, states = first :: others ∧
      run (step b) (.asking machine machines first others fail) answers =
        some (.asking machine machines state later fail) := by
  induction asked generalizing states with
  | nil => exact ⟨state, later, split, rfl⟩
  | cons no more ih =>
    rename_i rc passed answers first time
    obtain ⟨second, others, same, onward⟩ := ih rfl
    refine ⟨first, second :: others, by rw [split, List.cons_append, same], ?_⟩
    refine run_cons.mpr ⟨_, ?_, onward⟩
    simp [step, answered, no]

/-- A round in which every machine has a state leaves the loop. -/
theorem run_round (all : b.any = false) (round : Round b.states machines answers) :
    run (step b) (next b 0 false machines) answers = some (.left 0) := by
  induction round with
  | nil => rfl
  | cons split first more ih =>
    obtain ⟨state, states, shape, onward⟩ := run_refused b false first split
    rw [next, shape]
    refine run_append.mpr ⟨_, onward, run_cons.mpr ⟨_, ?_, ih⟩⟩
    simp [step, answered, all]

/-! ## The whole loop -/

/-- What makes the script end with success. -/
def Succeeds (b : Blocking) (answers : List Answer) : Prop :=
  if b.any then ∃ a ∈ answers, a.rc = 0
  else ∃ before round, answers = before ++ round ∧
    run (step b) (start b) before = some (start b) ∧ Round b.states b.machines round

/-- With `--any` nothing but refusals so far. -/
def Alone (b : Blocking) (answers : List Answer) : Prop := b.any = true → ∀ a ∈ answers, a.rc ≠ 0

/-- What has been answered when the loop is somewhere. -/
def Progress (b : Blocking) (answers : List Answer) : Loop → Prop
  | .asking machine machines state states fail =>
    Alone b answers ∧ ∃ done earlier passed refused, b.machines = done ++ machine :: machines ∧
      b.states = passed ++ state :: states ∧ answers = earlier ++ refused ∧
      Refused machine passed refused ∧
      (fail = false → ∃ before round, earlier = before ++ round ∧
        run (step b) (start b) before = some (start b) ∧ Round b.states done round)
  | .left rc =>
    if rc = 0 then Succeeds b answers
    else Alone b answers ∧ ∃ earlier refused last limit, answers = earlier ++ (refused ++ [last]) ∧
      Refused last.machine b.states (refused ++ [last]) ∧ last.machine ∈ b.machines ∧
      last.rc = rc ∧ b.timeout = some limit ∧ limit ≤ last.time

/-- The script has something to ask for. -/
structure Asks (b : Blocking) : Prop where
  machines : b.machines ≠ []
  states : b.states ≠ []

theorem Alone.concat (alone : Alone b answers) (no : a.rc ≠ 0) : Alone b (answers ++ [a]) := by
  intro any a' member
  rcases List.mem_append.mp member with old | new
  · exact alone any a' old
  · rwa [List.mem_singleton.mp new]

private theorem start_progress (asks : Asks b) (alone : Alone b answers)
    (here : run (step b) (start b) answers = some (start b)) : Progress b answers (start b) := by
  obtain ⟨machine, machines, some⟩ := List.exists_cons_of_ne_nil asks.machines
  obtain ⟨state, states, named⟩ := List.exists_cons_of_ne_nil asks.states
  have shape : start b = .asking machine machines state states false := by simp [start, some, named]
  rw [shape]
  exact ⟨alone, [], answers, [], [], some, named, (List.append_nil _).symm, .nil,
    fun _ => ⟨answers, [], (List.append_nil _).symm, here, .nil⟩⟩

/-- The next machine is asked for the first state. -/
theorem next_progress (asks : Asks b) (alone : Alone b answers)
    (split : b.machines = done ++ machine :: machines)
    (whole : fail = false → ∃ before round, answers = before ++ round ∧
      run (step b) (start b) before = some (start b) ∧ Round b.states done round) :
    Progress b answers (next b rc fail (machine :: machines)) := by
  obtain ⟨state, states, named⟩ := List.exists_cons_of_ne_nil asks.states
  simp only [next, named]
  exact ⟨alone, done, answers, [], [], split, named, (List.append_nil _).symm, .nil, whole⟩

private theorem answered_progress {states : List Text} (asks : Asks b)
    (before : Progress b answers (.asking machine machines state states fail))
    (ran : run (step b) (start b) (answers ++ [⟨machine, state, rc, time⟩]) =
      some (answered b (.asking machine machines state states fail) rc time)) :
    Progress b (answers ++ [⟨machine, state, rc, time⟩])
      (answered b (.asking machine machines state states fail) rc time) := by
  obtain ⟨alone, done, earlier, passed, refused, split, named, rfl, no, whole⟩ := before
  have onward : b.machines = (done ++ [machine]) ++ machines := by rw [split, List.append_assoc]; rfl
  by_cases zero : rc = 0
  · subst zero
    cases any : b.any with
    | true =>
      simp only [answered, any, if_true, Progress, Succeeds]
      exact ⟨_, List.mem_append_right _ List.mem_cons_self, rfl⟩
    | false =>
      -- the machine has the state, so the round goes on with the next one
      have longer (calm : fail = false) : ∃ before round,
          (earlier ++ refused) ++ [⟨machine, state, 0, time⟩] = before ++ round ∧
            run (step b) (start b) before = some (start b) ∧
            Round b.states (done ++ [machine]) round := by
        obtain ⟨before, round, rfl, here, rounds⟩ := whole calm
        exact ⟨before, round ++ (refused ++ [⟨machine, state, 0, time⟩]),
          by simp only [List.append_assoc], here, rounds.concat named no⟩
      have alone : Alone b ((earlier ++ refused) ++ [⟨machine, state, 0, time⟩]) := fun set => by
        rw [any] at set
        cases set
      simp only [answered, any, if_true, Bool.false_eq_true, if_false] at ran ⊢
      cases machines with
      | cons second machines => exact next_progress asks alone onward longer
      | nil =>
        rw [List.append_nil] at onward
        cases fail with
        | true => exact start_progress asks alone ran
        | false =>
          rw [← onward] at longer
          simp only [next, Bool.false_eq_true, if_false, Progress, if_true, Succeeds, any]
          exact longer rfl
  · have alone : Alone b ((earlier ++ refused) ++ [⟨machine, state, rc, time⟩]) := alone.concat zero
    simp only [answered, if_neg zero] at ran ⊢
    cases states with
    | cons second states =>
      exact ⟨alone, done, earlier, passed ++ [state], refused ++ [⟨machine, state, rc, time⟩], split,
        by rw [named, List.append_assoc]; rfl, List.append_assoc .., no.concat zero, whole⟩
    | nil =>
      dsimp only at ran ⊢
      by_cases late : exceeded b time = true
      · rw [if_pos late] at ran ⊢
        obtain ⟨limit, held, reached⟩ := (Option.any_eq_true ..).mp late
        have last : Refused machine b.states (refused ++ [⟨machine, state, rc, time⟩]) :=
          named ▸ no.concat zero
        simp only [Progress, if_neg zero]
        exact ⟨alone, earlier, refused, ⟨machine, state, rc, time⟩, limit, List.append_assoc .., last,
          by simp [split], rfl, held, of_decide_eq_true reached⟩
      · rw [if_neg late] at ran ⊢
        cases machines with
        | cons second machines =>
          exact next_progress asks alone onward fun calm => by cases calm
        | nil => exact start_progress asks alone ran

/-- Between two answers the loop is where its answers have led it. -/
theorem run_progress (asks : Asks b) (ran : run (step b) (start b) answers = some loop) :
    Progress b answers loop := by
  induction answers using List.reverseRecOn generalizing loop with
  | nil =>
    obtain rfl := run_nil.mp ran
    exact start_progress asks (fun _ _ member => by cases member) rfl
  | append_singleton answers a ih =>
    obtain ⟨middle, earlier, last⟩ := run_append.mp ran
    obtain ⟨loop', taken, same⟩ := run_cons.mp last
    obtain rfl := run_nil.mp same
    have before := ih earlier
    cases middle with
    | left rc => cases taken
    | asking machine machines state states fail =>
      simp only [step] at taken
      split at taken
      · rename_i asked
        obtain ⟨machine', state', rc, time⟩ := a
        obtain ⟨rfl, rfl⟩ := asked
        cases taken
        exact answered_progress asks before ran
      · cases taken

theorem start_eq_next (asks : Asks b) : start b = next b 0 false b.machines := by
  obtain ⟨machine, machines, some⟩ := List.exists_cons_of_ne_nil asks.machines
  obtain ⟨state, states, named⟩ := List.exists_cons_of_ne_nil asks.states
  simp [start, next, some, named]

/-- **`rstrnt-sync-block` ends with success if and only if every machine of its last round had one
of the states**, each after it had refused the ones before; with `--any` as soon as one machine
has one of them. Any other exit status comes from the last refusal of a machine that had none of
the states, and only when the timeout was over by then. -/
theorem syncBlock_exits (asks : Asks b) (ran : run (step b) (start b) answers = some loop) :
    (loop = .left 0 ↔ Succeeds b answers) ∧
    ∀ rc ≠ 0, loop = .left rc → Alone b answers ∧
      ∃ earlier refused last limit, answers = earlier ++ (refused ++ [last]) ∧
        Refused last.machine b.states (refused ++ [last]) ∧ last.machine ∈ b.machines ∧
        last.rc = rc ∧ b.timeout = some limit ∧ limit ≤ last.time := by
  have progress := run_progress asks ran
  refine ⟨⟨?_, fun succeeds => ?_⟩, ?_⟩
  · rintro rfl
    exact progress
  · cases any : b.any with
    | false =>
      obtain ⟨before, round, rfl, here, rounds⟩ := by simpa only [Succeeds, any] using succeeds
      obtain ⟨middle, there, onward⟩ := run_append.mp ran
      obtain rfl := Option.some.inj (here.symm.trans there)
      rw [start_eq_next asks, run_round any rounds] at onward
      exact (Option.some.inj onward).symm
    | true =>
      obtain ⟨a, member, zero⟩ := by simpa only [Succeeds, any, if_true] using succeeds
      cases loop with
      | asking machine machines state states fail => exact absurd zero (progress.1 any a member)
      | left rc =>
        by_contra other
        have failed : rc ≠ 0 := fun same => other (by rw [same])
        simp only [Progress, if_neg failed] at progress
        exact progress.1 any a member zero
  · rintro rc other rfl
    simpa only [Progress, if_neg other] using progress

/-- Two machines; the first one has the state in the second round only. -/
theorem syncBlock_exits_retry : ∃ answers,
    Succeeds ⟨[['a'], ['b']], [['s']], false, none⟩ answers ∧ answers.length = 4 := by
  refine ⟨[⟨['a'], ['s'], 1, 0⟩, ⟨['b'], ['s'], 0, 9⟩, ⟨['a'], ['s'], 0, 60⟩, ⟨['b'], ['s'], 0, 61⟩],
    (syncBlock_exits ⟨by decide, by decide⟩ (by decide)).1.mp rfl, rfl⟩

end Restraint.SyncScripts

import Restraint.TaskRefinement

/-! One activation of the task machine at a time, and one final status for each task that was not
finished before, in the order of the recipe. The machine's trace holds what was noted, so that a
second activation would show there as a second final status. Which source may be attached at all is
settled with the machine; here only the order of what it notes is added to its invariant. -/
namespace Restraint.ActivationProofs
open Transition
open Restraint.Harness Restraint.TaskMachine Restraint.TaskRefinement Restraint.Server

/-- The task of a final status. -/
def finalPlace : Observed → Option Nat
  | .status place .completed _ | .status place .aborted _ => some place
  | _ => none

/-- The tasks whose final status was queued, in the order of the messages. -/
def finals (trace : List Observed) : List Nat := trace.filterMap finalPlace

/-- Final statuses came in order, one for each task that is done with and was not
finished before. -/
structure Ordered (m : Machine) : Prop where
  sorted : (finals m.trace).Pairwise (· < ·)
  reached : ∀ place ∈ finals m.trace, place < m.past.length ∨
    place = m.past.length ∧ ∃ life ∈ m.tasks.head?, life.state = .next
  due : ∀ place ∈ finals m.trace, (m.past ++ m.tasks.map Life.finished)[place]? = some false
  done : ∀ place : Nat, m.past[place]? = some false → place ∈ finals m.trace
  current : ∀ life ∈ m.tasks.head?, life.state = .next → life.finished = false →
    m.past.length ∈ finals m.trace
  waiting : ∀ life ∈ m.tasks.head?, life.finished = true → life.state = .idle ∨ life.state = .next
  ended : .recipeComplete ∈ m.trace → m.tasks = [] ∧
    ∃ before, m.trace = before ++ [.recipeComplete] ∧ .recipeComplete ∉ before

variable {m n : Machine} {life life' : Life} {cancelled reads : Bool} {aborted : StateAborted}
  {state : TaskSetupState} {notes : List Observed} {place : Nat}

@[simp] theorem finals_append {trace : List Observed} :
    finals (trace ++ notes) = finals trace ++ finals notes := List.filterMap_append

/-- Notes about a running task are no final statuses. -/
theorem finals_notes (noted : ∀ observed ∈ notes, Noted place cancelled state observed) :
    finals notes = [] := by
  apply List.filterMap_eq_nil_iff.mpr
  intro observed member
  cases noted observed member <;> rfl

private theorem recipeComplete_not_noted
    (noted : ∀ observed ∈ notes, Noted place cancelled state observed) :
    .recipeComplete ∉ notes := by
  intro member
  cases noted _ member

theorem move_finished (move : Move cancelled aborted reads life life') :
    life'.finished = life.finished := by
  cases move <;> rfl

/-- A task that is done with is not moved any more. -/
theorem move_of_next (move : Move cancelled aborted reads life life') (next : life.state = .next) :
    life' = life := by
  cases move with
  | wait => rfl
  | pass idle => simp [next] at idle
  | begin idle => simp [next] at idle
  | giveUp idle => simp [next] at idle
  | unread idle => simp [next] at idle
  | work before => simp [next, working] at before
  | complete before => simp [next] at before

/-- Without a final status only a task that was finished before gets done with. -/
theorem move_to_next (move : Move cancelled aborted reads life life') (next : life'.state = .next) :
    life.state = .next ∨ life.finished = true := by
  cases move with
  | wait => exact .inl next
  | pass idle done => exact .inr done
  | begin idle due live busy =>
    dsimp only at next
    rw [next] at busy
    cases busy
  | giveUp => cases next
  | unread => cases next
  | work before after =>
    dsimp only at next
    rw [next] at after
    rcases after with after | after <;> cases after
  | complete => cases next

/-- A task that was finished before is passed over. -/
theorem move_waiting (move : Move cancelled aborted true life life') (done : life.finished = true)
    (waiting : life.state = .idle ∨ life.state = .next) :
    life'.state = .idle ∨ life'.state = .next := by
  cases move with
  | wait => exact waiting
  | pass => exact .inr rfl
  | begin idle due => simp [done] at due
  | giveUp idle due => simp [done] at due
  | unread idle unreadable => cases unreadable
  | work before => rcases waiting with here | here <;> simp [here, working] at before
  | complete before => rcases waiting with here | here <;> simp [here] at before

/-- A task that the current one joins is done with before it or is this one. -/
theorem done_cases {past : List Bool} {finished : Bool}
    (due : (past ++ [finished])[place]? = some false) :
    past[place]? = some false ∨ place = past.length ∧ finished = false := by
  rcases Nat.lt_or_ge place past.length with old | new
  · rw [List.getElem?_append_left old] at due
    exact .inl due
  · rw [List.getElem?_append_right new, List.getElem?_singleton] at due
    split at due
    case isTrue here => exact .inr ⟨by omega, Option.some.inj due⟩
    case isFalse => cases due

/-- The current task may be done with once it is in `TASK_NEXT`. -/
theorem done_with (ordered : Ordered m) (head : life ∈ m.tasks.head?) (next : life.state = .next)
    (due : (m.past ++ [life.finished])[place]? = some false) : place ∈ finals m.trace := by
  rcases done_cases due with old | ⟨rfl, unfinished⟩
  · exact ordered.done place old
  · exact ordered.current life head next unfinished

/-- What is observed besides final statuses does not matter. -/
theorem Ordered.extend (ordered : Ordered m) (current : m.tasks ≠ []) {added : List Observed}
    (none : finals added = []) (other : .recipeComplete ∉ added) :
    Ordered { m with trace := m.trace ++ added } := by
  have same : finals (m.trace ++ added) = finals m.trace := by
    rw [finals_append, none, List.append_nil]
  refine ⟨?_, ?_, ?_, ?_, ?_, ordered.waiting, ?_⟩
  · rw [same]; exact ordered.sorted
  · rw [same]; exact ordered.reached
  · rw [same]; exact ordered.due
  · rw [same]; exact ordered.done
  · rw [same]; exact ordered.current
  · intro member
    rcases List.mem_append.mp member with before | after
    · exact absurd (ordered.ended before).1 current
    · exact absurd after other

/-- A move of the current task leaves the order as it is. -/
theorem move_ordered {rest : List Life} (ordered : Ordered m) (current : m.tasks = life :: rest)
    (move : Move cancelled aborted true life life') :
    Ordered { m with tasks := life' :: rest } := by
  have head : life ∈ m.tasks.head? := by rw [current]; rfl
  have kept : (life' :: rest).map Life.finished = m.tasks.map Life.finished := by
    rw [current, List.map_cons, List.map_cons, move_finished move]
  refine ⟨ordered.sorted, ?_, ?_, ordered.done, ?_, ?_, ?_⟩
  · intro place member
    rcases ordered.reached place member with old | ⟨here, first, isHead, next⟩
    · exact .inl old
    · cases isHead.symm.trans head
      refine .inr ⟨here, life', rfl, ?_⟩
      rw [move_of_next move next]
      exact next
  · rw [kept]; exact ordered.due
  · intro first isHead next due
    cases isHead
    rw [move_finished move] at due
    rcases move_to_next move next with before | before
    · exact ordered.current life head before due
    · rw [before] at due
      cases due
  · intro first isHead done
    cases isHead
    rw [move_finished move] at done
    exact move_waiting move done (ordered.waiting life head done)
  · intro complete
    simp [(ordered.ended complete).1] at current

/-- The final status of the current task comes after all others. -/
theorem report_ordered {rest : List Life} (ordered : Ordered m) (current : m.tasks = life :: rest)
    (completed : life.state = .completed) :
    Ordered { m with
      tasks := { life with
        error := none
        state := .next } :: rest
      trace := m.trace ++ [.status m.past.length (verdict life.error) life.error] } := by
  have head : life ∈ m.tasks.head? := by rw [current]; rfl
  have due : life.finished = false := by
    cases finished : life.finished with
    | false => rfl
    | true =>
      rcases ordered.waiting life head finished with here | here <;> simp [completed] at here
  have before : ∀ place ∈ finals m.trace, place < m.past.length := by
    intro place member
    rcases ordered.reached place member with old | ⟨-, first, isHead, next⟩
    · exact old
    · cases isHead.symm.trans head
      simp [completed] at next
  have queued : finals [.status m.past.length (verdict life.error) life.error] = [m.past.length] := by
    unfold verdict
    split <;> rfl
  have kept : ({ life with
      error := none
      state := .next } :: rest).map Life.finished = m.tasks.map Life.finished := by
    rw [current]
    rfl
  refine ⟨?_, ?_, ?_, ?_, ?_, ?_, ?_⟩
  · rw [finals_append, queued, List.pairwise_append]
    exact ⟨ordered.sorted, List.pairwise_singleton _ _, by simpa using before⟩
  · intro place member
    rw [finals_append, queued, List.mem_append, List.mem_singleton] at member
    rcases member with old | rfl
    · exact .inl (before place old)
    · exact .inr ⟨rfl, _, rfl, rfl⟩
  · intro place member
    rw [finals_append, queued, List.mem_append, List.mem_singleton] at member
    rw [kept]
    rcases member with old | rfl
    · exact ordered.due place old
    · simp [current, due]
  · intro place member
    rw [finals_append]
    exact List.mem_append_left _ (ordered.done place member)
  · simp [queued]
  · intro first isHead _
    cases isHead
    exact .inr rfl
  · intro member
    have old : .recipeComplete ∈ m.trace := by simpa using member
    simp [(ordered.ended old).1] at current

/-- The next task becomes the current one. -/
theorem advance_ordered {next : Life} {later : List Life} (ordered : Ordered m)
    (current : m.tasks = life :: next :: later) (done : life.state = .next) :
    Ordered { m with
      past := m.past ++ [life.finished]
      tasks := { next with state := .idle } :: later } := by
  have head : life ∈ m.tasks.head? := by rw [current]; rfl
  have kept : m.past ++ [life.finished] ++ ({ next with state := .idle } :: later).map Life.finished =
      m.past ++ m.tasks.map Life.finished := by
    simp [current]
  refine ⟨ordered.sorted, ?_, ?_, fun place => done_with ordered head done, ?_, ?_, ?_⟩
  · intro place member
    left
    rw [List.length_append, List.length_singleton]
    rcases ordered.reached place member with old | ⟨here, -⟩ <;> omega
  · rw [kept]; exact ordered.due
  · intro first isHead next
    cases isHead
    cases next
  · intro first isHead _
    cases isHead
    exact .inl rfl
  · intro complete
    simp [(ordered.ended complete).1] at current

/-- The last task is done with. -/
theorem finish_ordered (ordered : Ordered m) (current : m.tasks = [life])
    (done : life.state = .next) :
    Ordered { m with
      past := m.past ++ [life.finished]
      tasks := []
      trace := m.trace ++ [.recipeComplete] } := by
  have head : life ∈ m.tasks.head? := by rw [current]; rfl
  have same : finals (m.trace ++ [.recipeComplete]) = finals m.trace := by
    rw [finals_append]
    exact List.append_nil _
  have kept : m.past ++ [life.finished] ++ ([] : List Life).map Life.finished =
      m.past ++ m.tasks.map Life.finished := by
    simp [current]
  refine ⟨?_, ?_, ?_, ?_, by simp, by simp, ?_⟩
  · rw [same]; exact ordered.sorted
  · intro place member
    left
    rw [same] at member
    rw [List.length_append, List.length_singleton]
    rcases ordered.reached place member with old | ⟨here, -⟩ <;> omega
  · rw [same, kept]; exact ordered.due
  · rw [same]; exact fun place => done_with ordered head done
  · refine fun _ => ⟨rfl, m.trace, rfl, fun complete => ?_⟩
    simp [(ordered.ended complete).1] at current

/-- A step keeps the order, as long as the config file can be read. -/
theorem turn_ordered {act : Act} (sound : Sound m) (ordered : Ordered m) (reads : act.reads = true)
    (turn : Turn act m n) : Ordered n := by
  cases turn with
  | still => exact ordered
  | retrieve => exact { ordered with }
  | launch => exact { ordered with }
  | stop => exact { ordered with }
  | close => exact { ordered with }
  | parse parsed fresh =>
    obtain ⟨-, noPast, -, noTrace⟩ := sound.before (by rw [parsed]; rfl)
    have none : finals m.trace = [] := by rw [noTrace]; rfl
    refine { ordered with reached := ?_, due := ?_, current := ?_, waiting := ?_, ended := ?_ }
    · simp [none]
    · simp [none]
    · intro life head next
      have idle := (fresh life (List.mem_of_mem_head? head)).1
      simp [next] at idle
    · exact fun life head _ => .inl (fresh life (List.mem_of_mem_head? head)).1
    · simp [noTrace]
  | work current turn move fits noted =>
    rw [reads] at move
    have extended := ordered.extend (by simp [current]) (finals_notes noted)
      (recipeComplete_not_noted noted)
    exact { move_ordered extended current move with }
  | report current turn completed step => exact { report_ordered ordered current completed with }
  | advance current turn done step => exact advance_ordered ordered current done
  | finish current turn done step => exact { finish_ordered ordered current done with }
  | @abort life rest level _ current stops =>
    have extended : Ordered { m with trace := m.trace ++ [noticed m level] } := by
      apply ordered.extend (by simp [current])
      · cases level <;> rfl
      · cases level <;> simp [noticed]
    exact { extended with }

/-- `RECIPE_COMPLETE` comes when everything is done with. -/
theorem Ordered.complete {before after : List Observed} (ordered : Ordered m)
    (trace : m.trace = before ++ .recipeComplete :: after) :
    m.tasks = [] ∧ finals m.trace = finals before := by
  obtain ⟨none, first, whole, absent⟩ := ordered.ended (by simp [trace])
  refine ⟨none, ?_⟩
  have last : after = [] := by
    rw [trace] at whole
    rcases List.append_eq_append_iff.mp whole with ⟨between, split, rest⟩ | ⟨between, split, rest⟩
    · cases between with
      | nil => exact (List.cons.inj rest).2
      | cons head tail =>
        obtain ⟨rfl, -⟩ := List.cons.inj rest
        exact absurd (by simp [split]) absent
    · cases between with
      | nil => exact (List.cons.inj rest).2.symm
      | cons head tail => simp at rest
  rw [trace, last, finals_append]
  exact List.append_nil _

section
variable {stdin : Bool} {config : CString.Text → Section} {events : List Event} {s : AppData}

/-- **One activation at most, and one final status for each task that was not
finished before, in the order of the recipe.** The config file can be read in
every event of the run. -/
theorem tasks_complete_in_order
    (ran : run (only step fun _ e => readable e = true) (start stdin config) events = some s) :
    s.loop.count activates ≤ 1 ∧ (finals s.trace).Pairwise (· < ·) ∧
      (∀ place ∈ finals s.trace,
        ∃ task, (s.past ++ s.tasks)[place]? = some task ∧ task.finished = false) ∧
      ∀ before after, s.trace = before ++ .recipeComplete :: after →
        ∀ place task, (s.past ++ s.tasks)[place]? = some task → task.finished = false →
          place ∈ finals before := by
  have begins : Ordered (view (start stdin config)) := by
    constructor <;> simp [view, start, finals]
  obtain ⟨sound, ordered⟩ := run_turns (fun s e n sound ordered reads turn =>
    turn_ordered sound ordered reads turn) begins ran
  have flags : (view s).past ++ (view s).tasks.map Life.finished =
      (s.past ++ s.tasks).map Task.finished := by
    simp [view, life]
  refine ⟨?_, ordered.sorted, ?_, ?_⟩
  · rw [← MainLoop.length_kinds]
    exact sound.single
  · intro place member
    have due := ordered.due place member
    rw [flags, List.getElem?_map] at due
    obtain ⟨task, there, finished⟩ := Option.map_eq_some_iff.mp due
    exact ⟨task, there, finished⟩
  · intro before after trace place task there due
    obtain ⟨none, same⟩ := ordered.complete (m := view s) trace
    have noTasks : s.tasks = [] := List.map_eq_nil_iff.mp none
    rw [← same]
    apply ordered.done
    rw [noTasks, List.append_nil] at there
    simp [view, there, due]

/-- A world in which nothing fails, with these tasks in the recipe. -/
def calm (tasks : List TaskXml) : World where
  configReads := true
  configWrites := true
  healthy := true
  synchronous := false
  error := none
  pidResult := 0
  localwatchdog := false
  metadata := some ⟨600, false⟩
  rhtsCompat := false
  rolesUpdated := true
  document := true
  recipe := some ("1".toList, tasks)

/-- The package of the first task cannot be installed; up to its final status. -/
def packageFails (tasks : List TaskXml) : List Event :=
  ([1, 2, 2, 3, 4, 5].map fun id => .dispatch id (calm tasks)) ++
    .dispatch 6 { calm tasks with error := some 1 } ::
      [.dispatch 7 (calm tasks), .dispatch 7 (calm tasks)]

def twoTasks (status : CString.Text) : List TaskXml :=
  [⟨"10".toList, .installPackage, none, "New".toList⟩, ⟨"11".toList, .installPackage, none, status⟩]

/-- The second task was finished before. -/
theorem tasks_complete_in_order_failed :
    ∃ s, run (only step fun _ e => readable e = true) (start true fun _ => .empty)
        (packageFails (twoTasks "Completed".toList) ++
          [8, 9, 9, 9].map fun id => .dispatch id (calm [])) = some s ∧
      s.trace = [.status 0 .running none, .status 0 .aborted (some (.operation 1)), .recipeComplete] ∧
      s.loop.count activates ≤ 1 ∧ (finals s.trace).Pairwise (· < ·) := by
  have trace : (run (only step fun _ e => readable e = true) (start true fun _ => .empty)
      (packageFails (twoTasks "Completed".toList) ++
        [8, 9, 9, 9].map fun id => .dispatch id (calm []))).map AppData.trace =
      some [.status 0 .running none, .status 0 .aborted (some (.operation 1)), .recipeComplete] := by
    decide +kernel
  obtain ⟨s, ran, trace⟩ := Option.map_eq_some_iff.mp trace
  obtain ⟨single, sorted, -, -⟩ := tasks_complete_in_order ran
  exact ⟨s, ran, trace, single, sorted⟩

end
end Restraint.ActivationProofs

import Restraint.TaskAbort

/-! An abort of the recipe against the tasks that come after. The abort of a task that is accepted
later takes its place, and what clears the one clears the other. So an abort can be taken back by
what comes later. The invariant holds along the steps that do not do this, and the condition on a
step is about the state before it. -/
namespace Restraint.RecipeAbort
open Transition
open Restraint.Harness Restraint.TaskMachine Restraint.TaskRefinement Restraint.TaskAbort
open Restraint.Server
open Restraint.ActivationProofs (calm done_cases move_finished move_of_next move_to_next twoTasks)

section
variable {m n : Machine} {life life' : Life} {cancelled reads : Bool} {aborted : StateAborted}
  {notes : List Observed} {place : Nat}

/-- Nothing is run for this task, and it will not be reported as completed. -/
def Settled (life : Life) : Prop :=
  working life.state = false ∧ (life.state = .completed → life.error.isSome = true)

/-- The abort was cleared, but nothing comes after that could be run: the current
task has its final status, or it was finished before as all later ones were. -/
def Spent (place : Nat) (m : Machine) : Prop :=
  (∀ life ∈ m.tasks.tail, life.finished = true) ∧
    ∀ life ∈ m.tasks.head?, life.state = .next ∨
      place < m.past.length ∧ life.finished = true ∧
        (life.state = .complete → life.error.isSome = true)

/-- An abort of the recipe, accepted while the task at this place was the current
one, holds for all tasks that come after. -/
structure Final (m : Machine) (place : Nat) : Prop where
  stopped : m.tasks ≠ [] → m.cancelled = true ∧ m.aborted ≠ .none ∨ Spent place m
  settled : ∀ life ∈ m.tasks.head?, place < m.past.length → Settled life
  entry : ∀ later > place, .entryPoint later ∉ m.trace
  never : ∀ later > place, ∀ reason, .status later .completed reason ∉ m.trace
  reported : ∀ later > place, m.past[later]? = some false →
    ∃ reason, .status later .aborted reason ∈ m.trace
  current : ∀ life ∈ m.tasks.head?, place < m.past.length → life.state = .next →
    life.finished = false → ∃ reason, .status m.past.length .aborted reason ∈ m.trace

/-- Every abort of the recipe is final. -/
structure AllFinal (m : Machine) : Prop where
  final : ∀ place, .abortRecipe place ∈ m.trace → Final m place
  passed : ∀ life ∈ m.tasks.head?, life.finished = true → working life.state = false
  ended : .recipeComplete ∈ m.trace → m.tasks = []

/-- Nothing is run for a task that was finished before. -/
theorem move_passed (move : Move cancelled aborted reads life life')
    (passed : life.finished = true → working life.state = false) (done : life'.finished = true) :
    working life'.state = false := by
  cases move with
  | wait => exact passed done
  | pass => rfl
  | begin idle due =>
    rw [due] at done
    cases done
  | giveUp => rfl
  | unread => rfl
  | work before =>
    rw [passed done] at before
    cases before
  | complete => rfl

/-- A settled task stays settled as long as the abort is there, or if there is
nothing left to be done for it. -/
theorem move_settled (move : Move cancelled aborted reads life life')
    (stopped : cancelled = true ∧ aborted ≠ .none ∨ life.state = .next ∨
      life.finished = true ∧ (life.state = .complete → life.error.isSome = true))
    (settled : Settled life) : Settled life' := by
  cases move with
  | wait => exact settled
  | pass => exact ⟨rfl, by simp⟩
  | begin idle due live =>
    rcases stopped with ⟨stopped, -⟩ | next | ⟨done, -⟩
    · simp [live] at stopped
    · simp [idle] at next
    · simp [due] at done
  | giveUp => exact ⟨rfl, by simp⟩
  | unread => exact ⟨rfl, by simp⟩
  | work before =>
    rw [settled.1] at before
    cases before
  | complete before =>
    refine ⟨rfl, fun _ => ?_⟩
    rcases stopped with stopped | next | ⟨-, failed⟩
    · simp [stopped]
    · simp [before] at next
    · dsimp only
      split
      · rfl
      · exact failed before

/-- What is spent stays spent. -/
theorem move_spent (move : Move cancelled aborted reads life life')
    (passed : life.finished = true → working life.state = false)
    (spent : life.state = .next ∨
      place < m.past.length ∧ life.finished = true ∧
        (life.state = .complete → life.error.isSome = true)) :
    life'.state = .next ∨
      place < m.past.length ∧ life'.finished = true ∧
        (life'.state = .complete → life'.error.isSome = true) := by
  rcases spent with next | ⟨later, done, failed⟩
  · exact .inl (by rw [move_of_next move next]; exact next)
  refine .inr ⟨later, by rw [move_finished move]; exact done, ?_⟩
  cases move with
  | wait => exact failed
  | pass => simp
  | begin idle due => simp [done] at due
  | giveUp idle due => simp [done] at due
  | unread idle unreadable failed => exact fun _ => failed
  | work before => simp [passed done] at before
  | complete => simp

/-- Work on the current task leaves an abort final. -/
theorem work_final {act : Act} {rest : List Life} {activations : List Source}
    (all : AllFinal m) (current : m.tasks = life :: rest)
    (move : Move m.cancelled m.aborted act.reads life life')
    (noted : ∀ observed ∈ notes, Noted m.past.length m.cancelled life.state observed)
    (accepted : .abortRecipe place ∈ m.trace) :
    Final { m with
      tasks := life' :: rest
      activations := activations
      trace := m.trace ++ notes } place := by
  have head : life ∈ m.tasks.head? := by rw [current]; rfl
  have final := all.final place accepted
  have stopped := final.stopped (by simp [current])
  refine ⟨fun _ => ?_, ?_, ?_, ?_, ?_, ?_⟩
  · refine stopped.imp id fun ⟨tail, spent⟩ => ⟨by rw [current] at tail; exact tail, ?_⟩
    intro first isHead
    cases isHead
    exact move_spent move (all.passed life head) (spent life head)
  · intro first isHead later
    cases isHead
    refine move_settled move (stopped.imp id fun ⟨_, spent⟩ => ?_) (final.settled life head later)
    exact (spent life head).imp id And.right
  · intro later after member
    rcases List.mem_append.mp member with old | new
    · exact final.entry later after old
    · cases noted _ new with
      | entryPoint run =>
        have settled := (final.settled life head after).1
        rw [run] at settled
        cases settled
  · intro later after reason member
    rcases List.mem_append.mp member with old | new
    · exact final.never later after reason old
    · cases noted _ new
  · intro later after due
    obtain ⟨reason, member⟩ := final.reported later after due
    exact ⟨reason, List.mem_append_left _ member⟩
  · intro first isHead later next due
    cases isHead
    rw [move_finished move] at due
    rcases move_to_next move next with before | done
    · obtain ⟨reason, member⟩ := final.current life head later before due
      exact ⟨reason, List.mem_append_left _ member⟩
    · simp [done] at due

/-- The final status of the current task leaves an abort final, unless it clears
the abort while there are tasks to be run. -/
theorem report_final {rest : List Life} (all : AllFinal m) (current : m.tasks = life :: rest)
    (completed : life.state = .completed)
    (held : m.aborted = .task → ∀ next ∈ rest, next.finished = true)
    (accepted : .abortRecipe place ∈ m.trace) :
    Final { m with
      tasks := { life with
        error := none
        state := .next } :: rest
      activations := [.taskMessage]
      cancelled := m.cancelled && m.aborted ≠ .task
      aborted := if m.cancelled ∧ m.aborted = .task then .none else m.aborted
      trace := m.trace ++ [.status m.past.length (verdict life.error) life.error] } place := by
  have head : life ∈ m.tasks.head? := by rw [current]; rfl
  have final := all.final place accepted
  have verdictAborted (later : place < m.past.length) : verdict life.error = .aborted := by
    rw [verdict, if_pos ((final.settled life head later).2 completed)]
  have next (life' : Life) (isHead : life' ∈ ({ life with
      error := none
      state := .next } :: rest).head?) : life'.state = .next := by
    cases isHead
    rfl
  refine ⟨fun _ => ?_, ?_, ?_, ?_, ?_, ?_⟩
  · rcases final.stopped (by simp [current]) with ⟨stopped, level⟩ | ⟨tail, -⟩
    · by_cases own : m.aborted = .task
      · exact .inr ⟨held own, fun life' isHead => .inl (next life' isHead)⟩
      · exact .inl (by simp [stopped, own, level])
    · rw [current] at tail
      exact .inr ⟨tail, fun life' isHead => .inl (next life' isHead)⟩
  · intro first isHead _
    cases isHead
    exact ⟨rfl, by simp⟩
  · intro later after member
    exact final.entry later after (by simpa using member)
  · intro later after reason member
    rcases List.mem_append.mp member with old | new
    · exact final.never later after reason old
    · simp only [List.mem_singleton, Observed.status.injEq] at new
      obtain ⟨rfl, completed, -⟩ := new
      rw [verdictAborted after] at completed
      cases completed
  · intro later after due
    obtain ⟨reason, member⟩ := final.reported later after due
    exact ⟨reason, List.mem_append_left _ member⟩
  · intro first isHead later _ _
    exact ⟨life.error, by simp [verdictAborted later]⟩

/-- The current task is done with. -/
theorem done_reported (all : AllFinal m) (head : life ∈ m.tasks.head?) (next : life.state = .next)
    (accepted : .abortRecipe place ∈ m.trace) (later : Nat) (after : place < later)
    (due : (m.past ++ [life.finished])[later]? = some false) :
    ∃ reason, .status later .aborted reason ∈ m.trace := by
  have final := all.final place accepted
  rcases done_cases due with old | ⟨rfl, unfinished⟩
  · exact final.reported later after old
  · exact final.current life head after next unfinished

/-- Going on to the next task leaves an abort final. -/
theorem advance_final {next : Life} {later : List Life} (placed : Placed m) (all : AllFinal m)
    (current : m.tasks = life :: next :: later) (done : life.state = .next)
    (accepted : .abortRecipe place ∈ m.trace) :
    Final { m with
      past := m.past ++ [life.finished]
      tasks := { next with state := .idle } :: later } place := by
  have head : life ∈ m.tasks.head? := by rw [current]; rfl
  have final := all.final place accepted
  have before : place < (m.past ++ [life.finished]).length := by
    rw [List.length_append]
    exact Nat.lt_succ_of_le (placed _ accepted)
  refine ⟨fun _ => ?_, ?_, final.entry, final.never, ?_, ?_⟩
  · refine (final.stopped (by simp [current])).imp id fun ⟨tail, _⟩ => ?_
    rw [current] at tail
    refine ⟨fun life member => tail life (List.mem_cons_of_mem _ member), ?_⟩
    intro first isHead
    cases isHead
    exact .inr ⟨before, tail next List.mem_cons_self, by simp⟩
  · intro first isHead _
    cases isHead
    exact ⟨rfl, by simp⟩
  · exact fun later after => done_reported all head done accepted later after
  · intro first isHead _ next
    cases isHead
    cases next

/-- The recipe is over. -/
theorem finish_final (all : AllFinal m) (current : m.tasks = [life]) (done : life.state = .next)
    (accepted : .abortRecipe place ∈ m.trace) :
    Final { m with
      recipe := .complete
      past := m.past ++ [life.finished]
      tasks := []
      aborted := .none
      activations := []
      trace := m.trace ++ [.recipeComplete] } place := by
  have head : life ∈ m.tasks.head? := by rw [current]; rfl
  have final := all.final place accepted
  refine ⟨fun some => absurd rfl some, by simp, ?_, ?_, ?_, by simp⟩
  · exact fun later after member => final.entry later after (by simpa using member)
  · exact fun later after reason member => final.never later after reason (by simpa using member)
  · intro later after due
    obtain ⟨reason, member⟩ := done_reported all head done accepted later after due
    exact ⟨reason, List.mem_append_left _ member⟩

/-- An abort of the recipe is final from the start: nothing was observed of the
tasks that come after. -/
theorem accepted_final (placed : Placed m) (stopped : m.cancelled = true ∧ m.aborted ≠ .none)
    (here : place = m.past.length) : Final m place := by
  subst here
  refine ⟨fun _ => .inl stopped, ?_, ?_, ?_, ?_, ?_⟩
  · exact fun life head later => absurd later (Nat.lt_irrefl _)
  · exact fun later after member => absurd (placed _ member) (Nat.not_le_of_gt after)
  · exact fun later after reason member => absurd (placed _ member) (Nat.not_le_of_gt after)
  · intro later after due
    rw [List.getElem?_eq_none (Nat.le_of_lt after)] at due
    cases due
  · exact fun life head later => absurd later (Nat.lt_irrefl _)

/-- Another abort leaves one final, and is final itself if it is one of the recipe. -/
theorem abort_final {level : StateAborted} (placed : Placed m) (all : AllFinal m)
    (stops : level ≠ .none) (accepted : .abortRecipe place ∈ m.trace ++ [noticed m level]) :
    Final { m with
      cancelled := true
      aborted := level
      trace := m.trace ++ [noticed m level] } place := by
  rcases List.mem_append.mp accepted with old | new
  · have final := all.final place old
    refine ⟨fun _ => .inl ⟨rfl, stops⟩, final.settled, ?_, ?_, ?_, ?_⟩
    · intro later after member
      apply final.entry later after
      cases level <;> simpa [noticed] using member
    · intro later after reason member
      apply final.never later after reason
      cases level <;> simpa [noticed] using member
    · intro later after due
      obtain ⟨reason, member⟩ := final.reported later after due
      exact ⟨reason, List.mem_append_left _ member⟩
    · intro life head later next due
      obtain ⟨reason, member⟩ := final.current life head later next due
      exact ⟨reason, List.mem_append_left _ member⟩
  · have here : place = m.past.length := by
      cases level with
      | none => exact absurd rfl stops
      | task => simp [noticed] at new
      | recipe => simpa [noticed] using new
    refine accepted_final ?_ ⟨rfl, stops⟩ here
    apply placed.extend
    intro observed member
    rw [List.mem_singleton.mp member]
    cases level <;> exact Nat.le_refl _

/-- A step leaves all aborts of the recipe final, unless it clears one while there
are tasks to be run. -/
theorem turn_final {act : Act} (sound : Sound m) (placed : Placed m) (all : AllFinal m)
    (held : ¬((∃ place, .abortRecipe place ∈ m.trace) ∧ act.handled = some .completed ∧
      m.aborted = .task ∧ ∃ life ∈ m.tasks.tail, life.finished = false))
    (turn : Turn act m n) : AllFinal n := by
  cases turn with
  | still => exact all
  | retrieve =>
    exact { all with final := fun place accepted => { all.final place accepted with } }
  | launch =>
    exact { all with final := fun place accepted => { all.final place accepted with } }
  | stop =>
    exact { all with final := fun place accepted => { all.final place accepted with } }
  | close complete =>
    have none := sound.ended (.inl complete)
    exact { all with final := fun place accepted =>
      { all.final place accepted with stopped := fun some => absurd none some } }
  | parse parsed fresh =>
    obtain ⟨-, -, -, noTrace⟩ := sound.before (by rw [parsed]; rfl)
    refine ⟨?_, ?_, ?_⟩
    · simp [noTrace]
    · intro life head _
      rw [(fresh life (List.mem_of_mem_head? head)).1]
      rfl
    · simp [noTrace]
  | @work life rest source life' notes _ sources current turn move fits noted =>
    have head : life ∈ m.tasks.head? := by rw [current]; rfl
    refine ⟨?_, ?_, ?_⟩
    · intro place accepted
      apply work_final all current move noted
      rcases List.mem_append.mp accepted with old | new
      · exact old
      · cases noted _ new
    · intro first isHead
      cases isHead
      exact move_passed move (all.passed life head)
    · intro complete
      rcases List.mem_append.mp complete with old | new
      · simp [all.ended old] at current
      · cases noted _ new
  | @report life rest _ current turn completed step =>
    refine ⟨?_, ?_, ?_⟩
    · intro place accepted
      have accepted : .abortRecipe place ∈ m.trace := by simpa using accepted
      refine report_final all current completed (fun own next member => ?_) accepted
      cases due : next.finished with
      | true => rfl
      | false =>
        have later : next ∈ m.tasks.tail := by simpa [current] using member
        exact absurd ⟨⟨place, accepted⟩, step, own, next, later, due⟩ held
    · intro first isHead _
      cases isHead
      rfl
    · intro complete
      have old : .recipeComplete ∈ m.trace := by simpa using complete
      simp [all.ended old] at current
  | @advance life next later _ current turn done step =>
    refine ⟨fun place => advance_final placed all current done, ?_, ?_⟩
    · intro first isHead _
      cases isHead
      rfl
    · intro complete
      simp [all.ended complete] at current
  | @finish life _ current turn done step =>
    refine ⟨?_, by simp, fun _ => rfl⟩
    intro place accepted
    exact finish_final all current done (by simpa using accepted)
  | @abort life rest level _ current stops =>
    refine ⟨fun place => abort_final placed all stops, all.passed, ?_⟩
    intro complete
    have old : .recipeComplete ∈ m.trace := by
      cases level <;> simpa [noticed] using complete
    exact all.ended old

end

section
variable {stdin : Bool} {config : CString.Text → Section} {events : List Event} {s : AppData}
  {e : Event} {p : Nat}

def isAbortRecipe : Observed → Bool
  | .abortRecipe _ => true
  | _ => false

private theorem any_isAbortRecipe {trace : List Observed} :
    trace.any isAbortRecipe = true ↔ ∃ place, .abortRecipe place ∈ trace := by
  rw [List.any_eq_true]
  constructor
  · rintro ⟨observed, member, kind⟩
    cases observed with
    | abortRecipe place => exact ⟨place, member⟩
    | _ => cases kind
  · exact fun ⟨place, member⟩ => ⟨_, member, rfl⟩

/-- The final status of a task that was aborted after the recipe was clears the
abort of the recipe too, and a task that was not finished before is still to come. -/
def Revokes (s : AppData) (e : Event) : Prop :=
  s.trace.any isAbortRecipe = true ∧ handled s e = some .completed ∧ s.aborted = .task ∧
    ∃ task ∈ s.tasks.tail, task.finished = false

instance : Decidable (Revokes s e) := inferInstanceAs (Decidable (_ ∧ _ ∧ _ ∧ _))

/-- **An abort of the recipe is final unless a step revokes it**: of the tasks after
the one that was the current one then, none is run or reported as completed, and
those that were not finished before are reported as aborted until the recipe is
complete. -/
theorem recipe_abort_final
    (ran : run (only step fun s e => ¬Revokes s e) (start stdin config) events = some s)
    (accepted : .abortRecipe p ∈ s.trace) :
    (∀ later > p, .entryPoint later ∉ s.trace ∧
      (∀ reason, .status later .completed reason ∉ s.trace) ∧
      ∀ task, s.past[later]? = some task → task.finished = false →
        ∃ reason, .status later .aborted reason ∈ s.trace) ∧
      (.recipeComplete ∈ s.trace → s.tasks = []) := by
  have begins : Placed (view (start stdin config)) ∧ AllFinal (view (start stdin config)) := by
    refine ⟨by simp [Placed, view, start], ?_⟩
    constructor <;> simp [view, start]
  have keeps (s : AppData) (e : Event) (n : Machine) (sound : Sound (view s))
      (both : Placed (view s) ∧ AllFinal (view s)) (held : ¬Revokes s e)
      (turn : Turn (act s e) (view s) n) : Placed n ∧ AllFinal n := by
    refine ⟨turn_placed both.1 turn, turn_final sound both.1 both.2 ?_ turn⟩
    rintro ⟨accepted, step, level, life', member, due⟩
    have later : life' ∈ s.tasks.tail.map life := by simpa [view, List.map_tail] using member
    obtain ⟨task, there, rfl⟩ := List.mem_map.mp later
    exact held ⟨any_isAbortRecipe.mpr accepted, step, level, task, there, due⟩
  obtain ⟨-, -, all⟩ := run_turns (I := fun m => Placed m ∧ AllFinal m) keeps begins ran
  have final := all.final p accepted
  refine ⟨fun later after => ⟨final.entry later after, final.never later after, ?_⟩, ?_⟩
  · intro task there due
    exact final.reported later after (by simp [view, there, due])
  · exact fun complete => List.map_eq_nil_iff.mp (all.ended complete)

/-- A request that aborts the recipe. -/
def abortRecipe : Event :=
  .request "/recipes/1/status".toList "status=Aborted".toList [] 0

/-- Up to the final status of the first task, which is aborted by these requests
before its package is fetched. -/
def abortedEarly (requests : List Event) : List Event :=
  ([1, 2, 2, 3].map fun id => .dispatch id (calm (twoTasks "New".toList))) ++ requests ++
    .dispatch 4 (calm []) :: .dispatch 5 (calm []) ::
      .dispatch 6 { calm [] with error := some 1 } :: [7, 7].map fun id => .dispatch id (calm [])

/-- The recipe is aborted, and the second task is skipped. -/
theorem recipe_abort_final_skipped :
    ∃ s, run (only step fun s e => ¬Revokes s e) (start true fun _ => .empty)
        (abortedEarly [abortRecipe] ++ [8, 9, 9, 9, 9, 10, 11].map fun id =>
          .dispatch id (calm [])) = some s ∧
      s.trace = [.status 0 .running none, .abortRecipe 0, .status 0 .aborted (some .aborted),
        .skipped 1, .status 1 .aborted (some .aborted), .recipeComplete] ∧
      .entryPoint 1 ∉ s.trace ∧ s.tasks = [] := by
  have trace : (run (only step fun s e => ¬Revokes s e) (start true fun _ => .empty)
      (abortedEarly [abortRecipe] ++ [8, 9, 9, 9, 9, 10, 11].map fun id =>
        .dispatch id (calm []))).map AppData.trace =
      some [.status 0 .running none, .abortRecipe 0, .status 0 .aborted (some .aborted),
        .skipped 1, .status 1 .aborted (some .aborted), .recipeComplete] := by
    decide +kernel
  obtain ⟨s, ran, trace⟩ := Option.map_eq_some_iff.mp trace
  obtain ⟨later, complete⟩ := recipe_abort_final (p := 0) ran (by simp [trace])
  exact ⟨s, ran, trace, (later 1 Nat.one_pos).1, complete (by simp [trace])⟩

/-- An abort of the first task after the one of the recipe: the second task is run
and reported as completed. -/
theorem recipe_abort_overridden :
    ∃ s, run step (start true fun _ => .empty)
        (abortedEarly [abortRecipe, abortFirst] ++
          [8, 9, 9, 10, 11, 12, 13, 14, 15, 15, 15, 16, 17, 18, 19, 20, 21, 22, 22].map fun id =>
            .dispatch id (calm [])) = some s ∧
      s.trace = [.status 0 .running none, .abortRecipe 0, .abortTask 0,
        .status 0 .aborted (some .aborted), .status 1 .running none, .entryPoint 1, .result 1 true,
        .status 1 .completed none] := by
  have trace : (run step (start true fun _ => .empty)
      (abortedEarly [abortRecipe, abortFirst] ++
        [8, 9, 9, 10, 11, 12, 13, 14, 15, 15, 15, 16, 17, 18, 19, 20, 21, 22, 22].map fun id =>
          .dispatch id (calm []))).map AppData.trace =
      some [.status 0 .running none, .abortRecipe 0, .abortTask 0,
        .status 0 .aborted (some .aborted), .status 1 .running none, .entryPoint 1, .result 1 true,
        .status 1 .completed none] := by
    decide +kernel
  obtain ⟨s, ran, trace⟩ := Option.map_eq_some_iff.mp trace
  exact ⟨s, ran, trace⟩

end
end Restraint.RecipeAbort

import Restraint.ClientLoopProofs

/-! The end of a job. Each time a recipe ends, `recipe_finish` looks through all tasks of
the job, while other recipes may still report; the status of a recipe is folded from
those of its tasks. -/
namespace Restraint.JobEnd
open CString (Text)
open Transition
open Restraint.Client ClientLoop ClientLoopProofs

/-- A line that reports a status reports Running, Completed or Aborted. -/
def known : Event → Bool
  | .message _ line => (reports line).all fun report =>
    ["Running".toList, "Completed".toList, "Aborted".toList].contains report.2
  | _ => true

/-- The steps of the client on what restraintd reports. -/
abbrev reported : Step AppData Event := only step fun _ e => known e

/-- What holds of a recipe at all times. -/
structure Sound (recipe : Recipe) : Prop where
  statuses : ∀ task ∈ recipe.data.tasks, unended task ∨ taskFinished task
  aborted : ∀ task ∈ recipe.data.tasks, task.status = "Aborted".toList →
    recipe.data.status = "Aborted".toList
  finished : recipe.connection = .finished → tasksFinished recipe.data

variable {job : Job} {s t : AppData} {e : Event} {es : List Event} {id : Text} {recipe : Recipe}

/-! ## One recipe -/

theorem taskFinished_iff {task : TaskNode} :
    taskFinished task ↔ task.status = "Completed".toList ∨ task.status = "Aborted".toList := by
  rw [taskFinished, Bool.or_eq_true, decide_eq_true_iff, decide_eq_true_iff]

/-- A task that has ended is finished after `recipe_finish`, and so is one that has not. -/
theorem abortUnended_finished (statuses : ∀ task ∈ recipe.data.tasks, unended task ∨ taskFinished task) :
    tasksFinished (abortUnended recipe.data) := by
  rw [tasksFinished, List.all_eq_true]
  intro task member
  obtain ⟨old, held, rfl⟩ := List.mem_map.mp member
  split
  · exact taskFinished_iff.mpr (.inr rfl)
  · rename_i ended
    exact (statuses old held).resolve_left ended

theorem Sound.finish (sound : Sound recipe) : Sound (finishedRecipe recipe) where
  statuses := by
    intro task member
    exact .inr (List.all_eq_true.mp (abortUnended_finished sound.statuses) task member)
  aborted := by
    intro task member aborted
    obtain ⟨old, held, rfl⟩ := List.mem_map.mp member
    change (if recipe.data.tasks.any unended then _ else recipe.data.status) = _
    split
    · rfl
    · rename_i ended
      -- no task was aborted by `recipe_finish`, so the task was Aborted before
      have kept : unended old = false := by
        cases open' : unended old with
        | false => rfl
        | true => exact absurd (List.any_eq_true.mpr ⟨old, held, open'⟩) ended
      rw [kept] at aborted
      exact sound.aborted old held aborted
  finished := fun _ => abortUnended_finished sound.statuses

/-- A known line for a recipe that is connected. -/
theorem Sound.message {c data : RecipeData} {line : Line} (sound : Sound recipe)
    (handled : Handled c line data) (tasks : c.tasks = recipe.data.tasks)
    (status : c.status = recipe.data.status) (known : known (.message id line))
    (connected : recipe.connection = .connected) : Sound { recipe with data := data } where
  statuses := by
    intro task member
    rcases handled.task_status member with ⟨old, held, same⟩ | ⟨taskId, report, -⟩
    · have before := sound.statuses old (tasks ▸ held)
      rwa [unended, taskFinished, same] at before
    · simp only [JobEnd.known, report, Option.all_some, List.contains_iff_mem, List.mem_cons,
        List.not_mem_nil, or_false] at known
      rcases known with running | ended
      · exact .inl (by rw [unended, Bool.or_eq_true, decide_eq_true_iff, decide_eq_true_iff]
                       exact .inr running)
      · exact .inr (taskFinished_iff.mpr ended)
  aborted := by
    intro task member aborted
    rcases handled.task_status member with ⟨old, held, same⟩ | ⟨taskId, -, folded⟩
    · have before := sound.aborted old (tasks ▸ held) (same.trans aborted)
      exact handled.stays_aborted (status.trans before)
    · apply folded.trans
      rw [sticky, aborted]
      split
      · assumption
      · rfl
  finished := by
    intro finished
    rw [connected] at finished
    cases finished

theorem Sound.reconnect {connection : Connection} (sound : Sound recipe)
    (open' : connection ≠ .finished) : Sound { recipe with connection := connection } :=
  ⟨sound.statuses, sound.aborted, fun finished => absurd finished open'⟩

theorem Sound.watchdog (sound : Sound recipe) :
    Sound { recipe with data := { recipe.data with watchdog := none }, cancelled := true } :=
  ⟨sound.statuses, sound.aborted, sound.finished⟩

/-! ## The job -/

/-- One step keeps every recipe sound. -/
theorem step_sound (sound : ∀ id ∈ s.ids, Sound (s.recipes id)) (taken : reported s e = some t) :
    ∀ id ∈ t.ids, Sound (t.recipes id) := by
  obtain ⟨known, taken⟩ := only_eq_some.mp taken
  intro id member
  have before := sound id ((step_frame taken).1 ▸ member)
  have enabled := (step_eq_some.mp taken).2.1
  obtain ⟨recipe, after, moves⟩ := step_moves taken id
  rw [after]
  cases moves with
  | apart => exact before
  | connect => exact before.reconnect (by simp)
  | message handled => exact before.message handled rfl rfl known enabled.2
  | reconnect => exact before.reconnect (by simp)
  | finish => exact before.finish
  | expire => exact before.watchdog

/-- Every recipe is over. -/
def Over (s : AppData) : Prop := ∀ id ∈ s.ids, (s.recipes id).connection = .finished

private theorem jobFinished_of_sound (sound : ∀ id ∈ s.ids, Sound (s.recipes id)) (finished : Over s) :
    jobFinished s = true :=
  List.all_eq_true.mpr fun id member => (sound id member).finished (finished id member)

/-- A recipe that an event leaves open. -/
theorem not_over {connection : Connection} (member : id ∈ t.ids)
    (left : (t.recipes id).connection = connection) (open' : connection ≠ .finished) : ¬Over t :=
  fun finished => open' (left.symm.trans (finished id member))

/-- When the last recipe ends, the quit handler is attached. -/
theorem step_quits (sound : ∀ id ∈ t.ids, Sound (t.recipes id)) (quits : Over s → 0 < s.quits)
    (taken : step s e = some t) : Over t → 0 < t.quits := by
  intro finished
  obtain ⟨ids, -, frame⟩ := step_frame taken
  obtain ⟨-, enabled, took⟩ := step_eq_some.mp taken
  cases e with
  | connect id =>
    cases took
    exact absurd finished (not_over enabled.1 (congrArg Recipe.connection setRecipe_self) (by simp))
  | message id line =>
    obtain ⟨data, -, rfl⟩ := handleLine_eq_some took
    refine absurd finished (not_over enabled.1 (congrArg Recipe.connection setRecipe_self) ?_)
    simp [enabled.2]
  | finish id error =>
    cases took
    unfold remoteProcessFinish at finished sound ⊢
    split at finished
    · exact absurd finished (not_over enabled.1 (congrArg Recipe.connection setRecipe_self) (by simp))
    · rename_i ends
      rw [if_neg ends] at sound ⊢
      rw [recipeFinish_quits, if_pos (jobFinished_of_sound sound finished)]
      exact Nat.succ_pos _
  | watchdogTimeout id =>
    cases took
    apply quits
    intro other member
    have now := finished other member
    by_cases same : other = id
    · subst same
      simpa [watchdogTimeoutCb] using now
    · simpa [watchdogTimeoutCb, setRecipe_other same] using now
  | quit =>
    cases took
    exact quits finished

/-- The quit handler is attached when all tasks are finished, and only then. -/
theorem step_quits_lt (taken : step s e = some t) (raised : s.quits < t.quits) :
    jobFinished t = true := by
  obtain ⟨-, -, took⟩ := step_eq_some.mp taken
  cases e with
  | connect id =>
    cases took
    exact absurd raised (Nat.lt_irrefl _)
  | message id line =>
    obtain ⟨data, -, rfl⟩ := handleLine_eq_some took
    exact absurd raised (Nat.lt_irrefl _)
  | finish id error =>
    cases took
    unfold remoteProcessFinish at raised ⊢
    split at raised
    · exact absurd raised (Nat.lt_irrefl _)
    · rename_i ends
      rw [if_neg ends]
      rw [recipeFinish_quits] at raised
      by_contra unfinished
      rw [if_neg unfinished] at raised
      exact absurd raised (Nat.lt_irrefl _)
  | watchdogTimeout id =>
    cases took
    exact absurd raised (Nat.lt_irrefl _)
  | quit =>
    cases took
    exact absurd raised (Nat.lt_irrefl _)

/-- A recipe that is Aborted stays Aborted. -/
theorem step_stays_aborted (taken : step s e = some t)
    (aborted : (s.recipes id).data.status = "Aborted".toList) :
    (t.recipes id).data.status = "Aborted".toList := by
  obtain ⟨recipe, after, moves⟩ := step_moves taken id
  rw [after]
  cases moves with
  | message handled => exact handled.stays_aborted aborted
  | finish =>
    change (if (s.recipes id).data.tasks.any unended then _ else _) = _
    split
    · rfl
    · exact aborted
  | apart | connect | reconnect | expire => exact aborted

private theorem run_stays_aborted (ran : run step s es = some t)
    (aborted : (s.recipes id).data.status = "Aborted".toList) :
    (t.recipes id).data.status = "Aborted".toList :=
  run_keeps (I := fun s : AppData => (s.recipes id).data.status = "Aborted".toList)
    (fun _ _ _ aborted taken => step_stays_aborted taken aborted) aborted ran

theorem start_sound : ∀ id ∈ job.start.ids, Sound (job.start.recipes id) := fun id member =>
  ⟨job.statuses id member, job.aborted id member, fun finished => by cases finished⟩

private theorem run_sound (ran : run reported job.start es = some s) :
    (∀ id ∈ s.ids, Sound (s.recipes id)) ∧ (Over s → 0 < s.quits) := by
  refine run_keeps
    (I := fun s : AppData => (∀ id ∈ s.ids, Sound (s.recipes id)) ∧ (Over s → 0 < s.quits))
    ?_ ⟨start_sound, ?_⟩ ran
  · rintro s e t ⟨sound, quits⟩ taken
    have after := step_sound sound taken
    exact ⟨after, step_quits after quits (only_eq_some.mp taken).2⟩
  · -- an unfinished job has a recipe, and that one waits for its first connection
    obtain ⟨id, member, -⟩ := job.unfinished
    have waits : (job.start.recipes id).connection = .waiting := rfl
    exact fun finished => absurd finished (not_over member waits (by simp))

/-- **The client ends when the job is over.** The quit handler has been attached when every
recipe has ended; when it is attached, every task is finished, and a recipe with a task that
was Aborted at any time is Aborted. -/
theorem client_ends (ran : run reported job.start es = some s) :
    ((∀ id ∈ job.ids, (s.recipes id).connection = .finished) → 0 < s.quits) ∧
      ∀ e t, reported s e = some t → s.quits < t.quits → ∀ id ∈ job.ids,
        (∀ task ∈ (t.recipes id).data.tasks,
          task.status = "Completed".toList ∨ task.status = "Aborted".toList) ∧
        ∀ before after u, es ++ [e] = before ++ after → run reported job.start before = some u →
          (∃ task ∈ (u.recipes id).data.tasks, task.status = "Aborted".toList) →
          (t.recipes id).data.status = "Aborted".toList := by
  have ids : s.ids = job.ids := (run_frame (run_of_only ran)).1
  refine ⟨fun finished => (run_sound ran).2 fun id member => finished id (ids ▸ member), ?_⟩
  intro e t taken raised id member
  have finished := step_quits_lt (only_eq_some.mp taken).2 raised
  refine ⟨fun task held => ?_, ?_⟩
  · have here : id ∈ t.ids := by
      rw [(step_frame (only_eq_some.mp taken).2).1, ids]
      exact member
    exact taskFinished_iff.mp (List.all_eq_true.mp (List.all_eq_true.mp finished id here) task held)
  · rintro before after u split reached ⟨task, held, aborted⟩
    have here : id ∈ u.ids := (run_frame (run_of_only reached)).1 ▸ member
    have then' := ((run_sound reached).1 id here).aborted task held aborted
    have whole : run reported job.start (es ++ [e]) = some t :=
      run_append.mpr ⟨s, ran, run_cons.mpr ⟨t, taken, run_nil.mpr rfl⟩⟩
    rw [split] at whole
    obtain ⟨middle, first, rest⟩ := run_append.mp whole
    cases first.symm.trans reached
    exact run_stays_aborted (run_of_only rest) then'

/-- A recipe with one task, as `copy_job_as_template` writes it. -/
def newRecipe : RecipeData where
  runDir := "job.01".toList
  status := "New".toList
  result := "None".toList
  tasks := [⟨"1".toList, "New".toList, "None".toList, [], []⟩]
  distinct := by decide
  files := fun _ => none
  started := false
  connRetries := 0
  watchdog := none

/-- A job of two recipes. -/
def twoRecipes (maxRetries : Nat) : Job where
  maxRetries := maxRetries
  ids := ["1".toList, "2".toList]
  distinct := by decide
  recipeId := fun id => if id = "1".toList then 1 else 2
  recipe := fun _ => newRecipe
  tasks := fun _ _ => List.cons_ne_nil _ _
  numbered := by
    intro _ _ task member
    cases List.mem_singleton.mp member
    exact ⟨by decide, List.all_eq_true.mp (by decide)⟩
  statuses := by
    intro _ _ task member
    cases List.mem_singleton.mp member
    decide
  aborted := by
    intro _ _ task member
    cases List.mem_singleton.mp member
    decide
  unfinished := ⟨_, List.mem_cons_self, _, List.mem_cons_self, by decide⟩

/-- A line with a path and one string in its body. -/
def line (path key value : String) : Line where
  headers := fun name =>
    if name = "rstrnt-path".toList then some (.string path.toList) else none
  body := .object fun name => if name = key.toList then some (.string value.toList) else none

def status (recipe status : String) : Event :=
  .message recipe.toList (line s!"/recipes/{recipe}/tasks/1/status" "status" status)

/-- The first recipe is completed while the second one is running, whose host then goes away. -/
def hostLost : List Event :=
  [.connect "1".toList, .connect "2".toList, status "2" "Running", status "1" "Running",
    status "1" "Completed", .finish "1".toList none]

/-- The quit handler and the tasks of the second recipe. -/
def ending (s : AppData) : Nat × List Text :=
  (s.quits, (s.recipes "2".toList).data.tasks.map TaskNode.status)

theorem client_ends_hostLost : ∃ s t, run reported (twoRecipes 0).start hostLost = some s ∧
    reported s (.finish "2".toList none) = some t ∧ s.quits = 0 ∧ t.quits = 1 ∧
    (t.recipes "2".toList).data.status = "Aborted".toList := by
  have first : (run reported (twoRecipes 0).start hostLost).map ending =
      some (0, ["Running".toList]) := by decide +kernel
  have whole : (run reported (twoRecipes 0).start (hostLost ++ [.finish "2".toList none])).map ending =
      some (1, ["Aborted".toList]) := by decide +kernel
  obtain ⟨t, ran, after⟩ := Option.map_eq_some_iff.mp whole
  obtain ⟨s, reached, last⟩ := run_append.mp ran
  obtain ⟨t', taken, rest⟩ := run_cons.mp last
  cases run_nil.mp rest
  obtain ⟨quits', statuses⟩ := Prod.mk.inj after
  rw [reached] at first
  have quits : s.quits = 0 := (Prod.mk.inj (Option.some.inj first)).1
  refine ⟨s, t, reached, taken, quits, quits', ?_⟩
  have ends := (client_ends reached).2 _ t taken (by omega) "2".toList (by decide)
  apply ends.2 _ [] t (List.append_nil _).symm ran
  obtain ⟨task, member, aborted⟩ := List.mem_map.mp (statuses ▸ List.mem_singleton_self _)
  exact ⟨task, member, aborted⟩

end Restraint.JobEnd

import Restraint.Requests

/-! A request for a status, with its response. Which recipe and which task are meant is counted from
the end of the path. A path can be too short for either. The pieces are taken one by one as the code
does, and a request is accepted or refused by what they are; nothing is recorded for a request that
is refused. -/
namespace Restraint.StatusRequest
open CString (Text gStrsplit gStrHasSuffix gStrHasSuffix_other strstr)
open Restraint.Harness Restraint.Requests
open Restraint.Server (abort abortRequested serverRecipeCallback)

/-- What is sent back: the status code and the reason phrase. -/
structure Response where
  statusCode : Nat
  reasonPhrase : Text
  deriving DecidableEq

/-- `SOUP_STATUS_BAD_REQUEST` with a phrase. -/
def badRequest (reasonPhrase : Text) : Response := ⟨400, reasonPhrase⟩

/-- `SOUP_STATUS_OK`. -/
def statusOk : Response := ⟨200, "OK".toList⟩

/-- `*(splitpath + pathlen - back)`; there is none before the first piece. -/
def piece (splitpath : List Text) (back : Nat) : Option Text :=
  if back ≤ splitpath.length then splitpath[splitpath.length - back]? else none

/-- What is done once it is known which recipe is named, and which task if one is. The recipe may
have no id. -/
def abortNamed (s : AppData) (recipeId : Option Text) (task : Task) (recipe : Text)
    (taskId : Option Text) : AppData × Response :=
  if recipeId ≠ some recipe then (s, badRequest "Wrong recipe id".toList)
  else
    match taskId with
    | some taskId =>
      if taskId ≠ task.taskId then (s, badRequest "Wrong task id".toList)
      else (abort s .task, statusOk)
    | none => (abort s .recipe, statusOk)

/-- The status branch of `server_recipe_callback`; `none` where a piece is read that is not there. -/
def statusBranch (s : AppData) (recipeId : Option Text) (task : Task) (path body : Text) :
    Option (AppData × Response) :=
  let splitpath := gStrsplit path
  (piece splitpath 3).bind fun type =>
    if gStrHasSuffix body "Aborted".toList = false then
      some (s, badRequest "Unknown status".toList)
    else if type = "recipes".toList then
      (piece splitpath 2).map fun recipe => abortNamed s recipeId task recipe none
    else if type = "tasks".toList then
      (piece splitpath 2).bind fun taskId =>
        (piece splitpath 4).map fun recipe => abortNamed s recipeId task recipe (some taskId)
    else some (s, badRequest "Malformed status url".toList)

/-- `server_recipe_callback` for the path of a status, when the recipe is parsed; `none` where there
is no current task. -/
def statusCallback (s : AppData) (recipeId : Option Text) (path body : Text) :
    Option (AppData × Response) :=
  if s.state = .idle then some (s, badRequest "No Recipe Running".toList)
  else
    match s.tasks with
    | [] => none
    | task :: _ => statusBranch s recipeId task path body

variable {s t : AppData} {task : Task} {rest : List Task} {recipeId : Option Text}
  {path body : Text} {before splitpath : List Text} {a b c d : Text}

/-! ## The pieces of the path -/

theorem piece_append (before after : List Text) : piece (before ++ after) after.length = after.head? := by
  have inside : after.length ≤ (before ++ after).length := by simp
  unfold piece
  rw [if_pos inside, List.length_append, Nat.add_sub_cancel, List.getElem?_append_right le_rfl,
    Nat.sub_self, List.head?_eq_getElem?]

/-- A path under `/recipes` that ends in a status has three pieces, the first of them empty. -/
theorem gStrsplit_status (under : underRecipes path)
    (status : gStrHasSuffix path "status".toList = true) :
    ∃ before a b c, gStrsplit path = before ++ [a, b, c] ∧ (before = [] → a = []) := by
  rcases under with rfl | under
  · exact absurd status (by decide)
  obtain ⟨rest, pieces, nonempty⟩ := gStrsplit_recipes under
  rw [pieces]
  obtain rfl | ⟨rest, c, rfl⟩ := rest.eq_nil_or_concat
  · exact absurd rfl nonempty
  obtain rfl | ⟨rest, b, rfl⟩ := rest.eq_nil_or_concat
  · exact ⟨[], _, _, _, rfl, fun _ => rfl⟩
  obtain rfl | ⟨rest, a, rfl⟩ := rest.eq_nil_or_concat
  · exact ⟨[[]], _, _, _, rfl, fun none => nomatch none⟩
  · exact ⟨[] :: "recipes".toList :: rest, a, b, c, by simp, fun none => nomatch none⟩

/-- What the end of the path names: the recipe by its id, or the task by both ids. -/
inductive Names (recipeId : Option Text) (taskId path : Text) : StateAborted → Prop where
  | recipe (before : List Text) (recipe status : Text)
      (pieces : gStrsplit path = before ++ ["recipes".toList, recipe, status])
      (same : recipeId = some recipe) : Names recipeId taskId path .recipe
  | task (before : List Text) (recipe status : Text)
      (pieces : gStrsplit path = before ++ [recipe, "tasks".toList, taskId, status])
      (same : recipeId = some recipe) : Names recipeId taskId path .task

private theorem names_recipe_iff {taskId : Text} (pieces : gStrsplit path = before ++ [a, b, c]) :
    Names recipeId taskId path .recipe ↔ a = "recipes".toList ∧ recipeId = some b := by
  constructor
  · intro named
    cases named with
    | recipe start recipe status pieces' same =>
      rw [pieces] at pieces'
      obtain ⟨-, last⟩ := List.append_inj' pieces' rfl
      obtain ⟨rfl, rfl, -⟩ : a = _ ∧ b = recipe ∧ c = status := by simpa using last
      exact ⟨rfl, same⟩
  · rintro ⟨rfl, same⟩
    exact .recipe before b c pieces same

private theorem names_task_iff {taskId : Text} (pieces : gStrsplit path = before ++ [a, b, c]) :
    Names recipeId taskId path .task ↔
      a = "tasks".toList ∧ b = taskId ∧ recipeId = before.getLast? ∧ before ≠ [] := by
  constructor
  · intro named
    cases named with
    | task start recipe status pieces' same =>
      have shape : before ++ [a, b, c] = (start ++ [recipe]) ++ ["tasks".toList, taskId, status] := by
        rw [← pieces, pieces', List.append_assoc]
        rfl
      obtain ⟨rfl, last⟩ := List.append_inj' shape rfl
      obtain ⟨rfl, rfl, -⟩ : a = _ ∧ b = taskId ∧ c = status := by simpa using last
      exact ⟨rfl, rfl, by simpa using same, by simp⟩
  · rintro ⟨rfl, rfl, same, nonempty⟩
    obtain rfl | ⟨before, recipe, rfl⟩ := before.eq_nil_or_concat
    · exact absurd rfl nonempty
    · apply Names.task before recipe c
      · rw [pieces, List.concat_append]
      · simpa using same

/-! ## All or nothing -/

/-- The request is one that is accepted: a recipe is under way, the body ends in aborted, and the path
has the ids of the recipe and, for a task, of the current one. -/
structure Due (s : AppData) (recipeId : Option Text) (task : Task) (path body : Text)
    (wanted : StateAborted) : Prop where
  running : s.state ≠ .idle
  body : gStrHasSuffix body "Aborted".toList = true
  names : Names recipeId task.taskId path wanted

/-- The abort is recorded and everything that runs is cancelled. -/
structure Accepted (s t : AppData) (wanted : StateAborted) (response : Response) : Prop where
  aborted : t.aborted = wanted
  cancelled : t.cancelled = true
  tasks : t.tasks = s.tasks
  response : response = statusOk

/-- An error is sent, and nothing is changed. -/
structure Rejected (s t : AppData) (response : Response) : Prop where
  same : t = s
  response : 400 ≤ response.statusCode

/-- One of the two, as the request is due or not. -/
def Answered (s : AppData) (recipeId : Option Text) (task : Task) (path body : Text)
    (answer : AppData × Response) : Prop :=
  (∃ wanted, Due s recipeId task path body wanted ∧ Accepted s answer.1 wanted answer.2) ∨
    (∀ wanted, ¬Due s recipeId task path body wanted) ∧ Rejected s answer.1 answer.2

private theorem abort_accepted (wanted : StateAborted) (asked : wanted ≠ .none) :
    Accepted s (abort s wanted) wanted statusOk := by
  cases wanted with
  | none => exact absurd rfl asked
  | task => exact ⟨rfl, rfl, rfl, rfl⟩
  | recipe => exact ⟨rfl, rfl, rfl, rfl⟩

theorem rejected (phrase : Text) (undue : ∀ wanted, ¬Due s recipeId task path body wanted) :
    Answered s recipeId task path body (s, badRequest phrase) :=
  .inr ⟨undue, rfl, Nat.le_refl _⟩

private theorem abortNamed_recipe (live : s.state ≠ .idle)
    (ending : gStrHasSuffix body "Aborted".toList = true)
    (pieces : gStrsplit path = before ++ ["recipes".toList, b, c]) :
    Answered s recipeId task path body (abortNamed s recipeId task b none) := by
  unfold abortNamed
  split
  · rename_i other
    apply rejected
    rintro wanted ⟨-, -, names⟩
    cases wanted with
    | none => cases names
    | recipe => exact other ((names_recipe_iff pieces).mp names).2
    | task => exact absurd ((names_task_iff pieces).mp names).1 (by decide)
  · rename_i same
    have same := not_not.mp same
    exact .inl ⟨.recipe, ⟨live, ending, .recipe before b c pieces same⟩, abort_accepted .recipe (by simp)⟩

private theorem abortNamed_task (live : s.state ≠ .idle)
    (ending : gStrHasSuffix body "Aborted".toList = true)
    (pieces : gStrsplit path = (before ++ [d]) ++ ["tasks".toList, b, c]) :
    Answered s recipeId task path body (abortNamed s recipeId task d (some b)) := by
  have due (wanted : StateAborted) (names : Names recipeId task.taskId path wanted) :
      wanted = .task ∧ recipeId = some d ∧ b = task.taskId := by
    cases wanted with
    | none => cases names
    | recipe => exact absurd ((names_recipe_iff pieces).mp names).1 (by decide)
    | task =>
      obtain ⟨-, same, recipe, -⟩ := (names_task_iff pieces).mp names
      exact ⟨rfl, by simpa using recipe, same⟩
  unfold abortNamed
  split
  · rename_i other
    exact rejected _ fun wanted ⟨_, _, names⟩ => other (due wanted names).2.1
  · rename_i same
    dsimp only
    split
    · rename_i other
      exact rejected _ fun wanted ⟨_, _, names⟩ => other (due wanted names).2.2
    · rename_i current
      obtain rfl := not_not.mp current
      have named : Names recipeId task.taskId path .task :=
        .task before d c (by simpa using pieces) (not_not.mp same)
      exact .inl ⟨.task, ⟨live, ending, named⟩, abort_accepted .task (by simp)⟩

/-- The branch reads only pieces that are there, and accepts or rejects. -/
theorem statusBranch_answered (live : s.state ≠ .idle) (under : underRecipes path)
    (status : gStrHasSuffix path "status".toList = true) :
    ∃ answer, statusBranch s recipeId task path body = some answer ∧
      Answered s recipeId task path body answer := by
  obtain ⟨before, a, b, c, pieces, first⟩ := gStrsplit_status under status
  have second : piece (before ++ [a, b, c]) 2 = some b := by
    rw [List.append_cons]
    exact piece_append _ [b, c]
  have third : piece (before ++ [a, b, c]) 3 = some a := piece_append _ [a, b, c]
  unfold statusBranch
  simp only [pieces, second, third, Option.bind_some, Option.map_some]
  split
  · rename_i silent
    exact ⟨_, rfl, rejected _ fun wanted due => Bool.false_ne_true (silent.symm.trans due.body)⟩
  rename_i ending
  have ending := eq_true_of_ne_false ending
  split
  · rename_i recipes
    subst recipes
    exact ⟨_, rfl, abortNamed_recipe live ending pieces⟩
  rename_i notRecipes
  split
  · rename_i tasks
    subst tasks
    -- `recipes` comes before, so there is a fourth piece from the end
    obtain rfl | ⟨before, d, rfl⟩ := before.eq_nil_or_concat
    · exact absurd (first rfl) (by decide)
    · have fourth : piece ((before ++ [d]) ++ ["tasks".toList, b, c]) 4 = some d := by
        rw [List.append_assoc]
        exact piece_append _ [d, "tasks".toList, b, c]
      rw [List.concat_eq_append] at pieces ⊢
      rw [fourth]
      exact ⟨_, rfl, abortNamed_task live ending pieces⟩
  · rename_i notTasks
    refine ⟨_, rfl, rejected _ ?_⟩
    rintro wanted ⟨-, -, names⟩
    cases wanted with
    | none => cases names
    | recipe => exact notRecipes ((names_recipe_iff pieces).mp names).1
    | task => exact notTasks ((names_task_iff pieces).mp names).1

/-! ## The same daemon -/

theorem abortNamed_fst {id recipe : Text} {taskId : Option Text} :
    (abortNamed s (some id) task recipe taskId).1 = abort s (if recipe = id then
      match taskId with
      | some taskId => if taskId = task.taskId then .task else .none
      | none => .recipe
    else .none) := by
  unfold abortNamed
  by_cases same : recipe = id
  · subst same
    cases taskId with
    | none => simp only [ne_eq, not_true_eq_false, ↓reduceIte]
    | some taskId =>
      by_cases current : taskId = task.taskId
      · simp only [ne_eq, current, not_true_eq_false, ↓reduceIte]
      · simp only [ne_eq, current, not_true_eq_false, not_false_eq_true, ↓reduceIte]
        rfl
  · simp only [ne_eq, Option.some.injEq, Ne.symm same, same, not_false_eq_true, ↓reduceIte]
    rfl

/-- What is left of the branch without the responses. -/
theorem statusBranch_fst {id : Text} : (statusBranch s (some id) task path body).map Prod.fst =
    (abortRequested id task.taskId path body).map (abort s) := by
  unfold statusBranch abortRequested
  dsimp only
  generalize gStrsplit path = splitpath
  by_cases short : splitpath.length < 3
  · have outside : piece splitpath 3 = none := if_neg (by omega)
    rw [outside, if_pos short]
    rfl
  have third : piece splitpath 3 = some splitpath[splitpath.length - 3] := by
    rw [piece, if_pos (by omega)]
    exact List.getElem?_eq_getElem _
  have second : piece splitpath 2 = some splitpath[splitpath.length - 2] := by
    rw [piece, if_pos (by omega)]
    exact List.getElem?_eq_getElem _
  rw [third, second, if_neg short]
  rw [List.getElem?_eq_getElem (by omega : splitpath.length - 3 < splitpath.length),
    List.getElem?_eq_getElem (by omega : splitpath.length - 2 < splitpath.length)]
  generalize splitpath[splitpath.length - 3] = type
  generalize splitpath[splitpath.length - 2] = last
  simp only [Option.bind_some, Option.map_some, Option.some.injEq]
  split
  · rfl
  split
  · rw [Option.map_some, abortNamed_fst]
    split <;> rfl
  split
  · by_cases few : splitpath.length < 4
    · have outside : piece splitpath 4 = none := if_neg (by omega)
      rw [outside, if_pos few]
      rfl
    · have fourth : piece splitpath 4 = splitpath[splitpath.length - 4]? := if_pos (by omega)
      rw [fourth, if_neg few]
      rw [List.getElem?_eq_getElem (by omega : splitpath.length - 4 < splitpath.length)]
      generalize splitpath[splitpath.length - 4] = recipe
      rw [Option.map_some, Option.map_some, abortNamed_fst]
      by_cases same : recipe = id
      · by_cases current : last = task.taskId
        · simp only [same, current, and_self, ↓reduceIte, Option.map_some]
        · simp only [same, current, and_false, ↓reduceIte, Option.map_some]
      · simp only [same, Option.some.injEq, false_and, ↓reduceIte, Option.map_some]
  · rfl

/-- The daemon after the answer is the one that `server_recipe_callback` leaves. -/
theorem statusCallback_fst {id : Text} {form : List (Text × Text)} {time : Nat}
    (parsed : s.recipe = some id) (status : gStrHasSuffix path "status".toList = true)
    (other : strstr path "/logs/".toList = false) :
    (statusCallback s (some id) path body).map Prod.fst =
      serverRecipeCallback s path body form time := by
  have results : gStrHasSuffix path "/results/".toList = false :=
    gStrHasSuffix_other status (by decide) (by decide)
  have watchdog : gStrHasSuffix path "watchdog".toList = false :=
    gStrHasSuffix_other status (by decide) (by decide)
  unfold serverRecipeCallback statusCallback
  split
  · rfl
  cases s.tasks with
  | nil => rfl
  | cons task rest =>
    simp only [results, other, watchdog, Bool.false_eq_true, ↓reduceIte, parsed, Option.bind_some]
    exact statusBranch_fst

/-- **A request for a status is all or nothing.** For a path under `/recipes` that ends in a status,
no piece is read that is not there, and either the request names the recipe or the current task
and the abort is recorded, or an error is sent and nothing changes. -/
theorem status_all_or_nothing (current : s.tasks = task :: rest) (under : underRecipes path)
    (status : gStrHasSuffix path "status".toList = true)
    (other : strstr path "/logs/".toList = false) :
    ∃ answer, statusCallback s recipeId path body = some answer ∧
      Answered s recipeId task path body answer ∧
      ∀ id form time, recipeId = some id → s.recipe = some id →
        serverRecipeCallback s path body form time = some answer.1 := by
  have answered : ∃ answer, statusCallback s recipeId path body = some answer ∧
      Answered s recipeId task path body answer := by
    unfold statusCallback
    split
    · rename_i idle
      exact ⟨_, rfl, rejected _ fun wanted due => due.running idle⟩
    · rename_i live
      rw [current]
      exact statusBranch_answered live under status
  obtain ⟨answer, sent, answered⟩ := answered
  refine ⟨answer, sent, answered, ?_⟩
  rintro id form time rfl parsed
  rw [← statusCallback_fst parsed status other, sent]
  rfl

open ActivationProofs (twoTasks)

/-- Recipe 1 runs, and task 10 is the current one. -/
def recipeRuns : AppData :=
  { Server.start true fun _ => .empty with
    state := .running
    recipe := some "1".toList
    tasks := (twoTasks "New".toList).map parseTask }

theorem status_all_or_nothing_task :
    ∃ answer, statusCallback recipeRuns (some "1".toList) "/recipes/1/tasks/10/status".toList
        "status=Aborted".toList = some answer ∧
      Answered recipeRuns (some "1".toList) (parseTask ⟨"10".toList, .installPackage, none, "New".toList⟩)
        "/recipes/1/tasks/10/status".toList "status=Aborted".toList answer ∧
      ∀ id form time, some "1".toList = some id → recipeRuns.recipe = some id →
        serverRecipeCallback recipeRuns "/recipes/1/tasks/10/status".toList "status=Aborted".toList
          form time = some answer.1 :=
  status_all_or_nothing rfl (.inr ⟨_, rfl⟩) (by decide) (by decide)

end Restraint.StatusRequest

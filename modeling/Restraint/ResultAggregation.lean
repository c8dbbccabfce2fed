import Restraint.Client
import Restraint.Lib.Greatest
import Mathlib.Data.List.MinMax

/-! The results of the tasks and of the recipe, as `record_result` folds them from the
results that are reported. The table of `init_result_hash` has no entry for SKIP, so
that a SKIP ranks with None. -/
namespace Restraint.ResultAggregation
open CString (Text)
open Restraint.Client Greatest

/-- The results that can be reported, by increasing severity. -/
inductive Verdict where
  | skip
  | pass
  | warn
  | fail
  deriving DecidableEq

def Verdict.severity : Verdict → Nat
  | .skip => 0
  | .pass => 1
  | .warn => 2
  | .fail => 3

theorem Verdict.severity_injective : Function.Injective Verdict.severity := by
  intro left right same
  cases left <;> cases right <;> first | rfl | cases same

instance : LinearOrder Verdict := LinearOrder.lift' Verdict.severity Verdict.severity_injective

def Verdict.text : Verdict → Text
  | .skip => "SKIP".toList
  | .pass => "PASS".toList
  | .warn => "WARN".toList
  | .fail => "FAIL".toList

/-- A result attribute: the verdict, or None. -/
def resultProp : WithBot Verdict → Text := WithBot.recBotCoe "None".toList Verdict.text

/-- What `record_result` gets for a task. -/
structure Report where
  taskId : Text
  id : Text
  path : Text
  verdict : Verdict
  message : Option Text
  score : Option Text

def Report.node (report : Report) : ResultNode where
  id := report.id
  path := report.path
  result := report.verdict.text
  message := report.message
  score := report.score
  logs := []

/-- The results recorded one after the other. -/
def record (c : RecipeData) (reports : List Report) : RecipeData :=
  reports.foldl (fun c report => recordResult c report.taskId report.node) c

/-- The verdicts that came for a task. -/
def verdicts (reports : List Report) (taskId : Text) : List Verdict :=
  (reports.filter (·.taskId = taskId)).map Report.verdict

/-- No result was recorded yet. -/
structure Fresh (c : RecipeData) : Prop where
  recipe : c.result = "None".toList
  tasks : ∀ task ∈ c.tasks, task.result = "None".toList

/-- The result of each task is the most severe one that came for it, and that of the
recipe is the most severe one over its tasks. -/
structure Aggregates (c : RecipeData) (reports : List Report) : Prop where
  tasks : ∀ task ∈ (record c reports).tasks,
    task.result = resultProp (verdicts reports task.id).maximum
  recipe : (record c reports).result =
    resultProp (c.tasks.flatMap fun task => verdicts reports task.id).maximum

variable {c : RecipeData} {reports : List Report} {list : List Verdict}

/-! ## One attribute -/

theorem resultToId_none : resultToId "None".toList = 0 := by decide +kernel

private theorem resultToId_text (verdict : Verdict) : resultToId verdict.text =
    match verdict with
    | .skip => 0
    | .pass => 2
    | .warn => 3
    | .fail => 4 := by
  cases verdict <;> decide +kernel

/-- Apart from SKIP the table orders the results as their severity does. -/
theorem resultToId_le {verdict greatest : Verdict} (le : verdict ≤ greatest) :
    resultToId verdict.text ≤ resultToId greatest.text := by
  have le : verdict.severity ≤ greatest.severity := le
  rw [resultToId_text, resultToId_text]
  cases verdict <;> cases greatest <;> simp_all [Verdict.severity]

/-- The attribute that is folded from the verdicts that came. -/
def folded (verdicts : List Verdict) : Text :=
  (verdicts.map Verdict.text).foldl (adopt resultToId) "None".toList

/-- With nothing but SKIP the attribute stays None. -/
theorem folded_skips (skips : ∀ verdict ∈ list, verdict = .skip) : folded list = "None".toList := by
  apply foldl_adopt_first
  intro text member
  obtain ⟨verdict, came, rfl⟩ := List.mem_map.mp member
  rw [skips verdict came, resultToId_text]
  exact Nat.zero_le _

private theorem folded_greatest {greatest : Verdict} (most : list.maximum = greatest)
    (other : greatest ≠ .skip) : folded list = greatest.text := by
  obtain ⟨member, below⟩ := List.maximum_eq_coe_iff.mp most
  refine foldl_adopt_greatest (List.mem_map_of_mem member) ?_ ?_ ?_
  · rw [resultToId_none, resultToId_text]
    cases greatest <;> simp_all
  · intro text came
    obtain ⟨verdict, member, rfl⟩ := List.mem_map.mp came
    exact resultToId_le (below verdict member)
  · intro text came same
    obtain ⟨verdict, -, rfl⟩ := List.mem_map.mp came
    rw [resultToId_text, resultToId_text] at same
    cases verdict <;> cases greatest <;> simp_all

/-- It is the most severe one, unless all that came is SKIP. -/
theorem folded_eq : folded list = resultProp list.maximum ↔
    list = [] ∨ ∃ verdict ∈ list, verdict ≠ .skip := by
  cases most : list.maximum with
  | bot =>
    obtain rfl := List.maximum_eq_bot.mp most
    exact iff_of_true rfl (.inl rfl)
  | coe greatest =>
    obtain ⟨member, below⟩ := List.maximum_eq_coe_iff.mp most
    by_cases skip : greatest = .skip
    · have skips : ∀ verdict ∈ list, verdict = .skip := by
        intro verdict came
        have le := below verdict came
        subst skip
        cases verdict with
        | skip => rfl
        | _ => revert le; decide
      rw [folded_skips skips, skip]
      apply iff_of_false (by decide +kernel)
      rintro (rfl | ⟨verdict, came, other⟩)
      · cases member
      · exact other (skips verdict came)
    · exact iff_of_true (folded_greatest most skip) (.inr ⟨greatest, member, skip⟩)

/-! ## The tasks and the recipe -/

/-- The id of a task and its result. -/
def standing (task : TaskNode) : Text × Text := (task.id, task.result)

/-- What becomes of it with more reports. -/
def advanced (reports : List Report) (entry : Text × Text) : Text × Text :=
  (entry.1, ((verdicts reports entry.1).map Verdict.text).foldl (adopt resultToId) entry.2)

private theorem advanced_cons (report : Report) (entry : Text × Text) :
    advanced (report :: reports) entry = advanced reports
      (entry.1, if entry.1 = report.taskId then adopt resultToId entry.2 report.verdict.text
        else entry.2) := by
  unfold advanced verdicts
  by_cases own : entry.1 = report.taskId
  · simp [own]
  · simp [own, Ne.symm own]

private theorem recordResult_standing (taskId : Text) (node : ResultNode) :
    (recordResult c taskId node).tasks.map standing = c.tasks.map fun task =>
      (task.id, if task.id = taskId then adopt resultToId task.result node.result else task.result) := by
  refine map_changed.trans (List.map_congr_left fun task _ => ?_)
  simp only [standing]
  split <;> rfl

/-- The result of a task is folded from what came for it. -/
theorem record_standing :
    (record c reports).tasks.map standing = c.tasks.map fun task => advanced reports (standing task) := by
  induction reports generalizing c with
  | nil => rfl
  | cons report reports ih =>
    have first := recordResult_standing (c := c) report.taskId report.node
    calc (record (recordResult c report.taskId report.node) reports).tasks.map standing
      _ = ((recordResult c report.taskId report.node).tasks.map standing).map (advanced reports) := by
        rw [ih, List.map_map]
        rfl
      _ = c.tasks.map fun task => advanced (report :: reports) (standing task) := by
        rw [first, List.map_map]
        exact List.map_congr_left fun task _ => (advanced_cons report (standing task)).symm

private theorem record_recipe : (record c reports).result =
    ((reports.map Report.verdict).map Verdict.text).foldl (adopt resultToId) c.result := by
  induction reports generalizing c with
  | nil => rfl
  | cons report reports ih => exact ih

private theorem record_task (fresh : Fresh c) {task : TaskNode}
    (member : task ∈ (record c reports).tasks) :
    task.result = folded (verdicts reports task.id) ∧ ∃ before ∈ c.tasks, before.id = task.id := by
  have here : standing task ∈ (record c reports).tasks.map standing := List.mem_map_of_mem member
  rw [record_standing] at here
  obtain ⟨before, old, same⟩ := List.mem_map.mp here
  have none := fresh.tasks before old
  obtain ⟨id, result⟩ := Prod.mk.inj same
  simp only [standing] at id result
  refine ⟨?_, before, old, id⟩
  rw [← result, none, ← id]
  rfl

/-- Every task is still there. -/
theorem record_kept {before : TaskNode} (reports : List Report) (member : before ∈ c.tasks) :
    ∃ task ∈ (record c reports).tasks, task.id = before.id := by
  have here : advanced reports (standing before) ∈ (record c reports).tasks.map standing := by
    rw [record_standing]
    exact List.mem_map_of_mem (f := fun task => advanced reports (standing task)) member
  obtain ⟨task, now, same⟩ := List.mem_map.mp here
  exact ⟨task, now, (Prod.mk.inj same).1⟩

/-- What came for the tasks is all that came. -/
theorem mem_verdicts (known : ∀ report ∈ reports, ∃ task ∈ c.tasks, task.id = report.taskId)
    (verdict : Verdict) :
    verdict ∈ (c.tasks.flatMap fun task => verdicts reports task.id) ↔
      verdict ∈ reports.map Report.verdict := by
  simp only [List.mem_flatMap, verdicts, List.mem_map, List.mem_filter, decide_eq_true_eq]
  constructor
  · rintro ⟨task, -, report, ⟨came, -⟩, rfl⟩
    exact ⟨report, came, rfl⟩
  · rintro ⟨report, came, rfl⟩
    obtain ⟨task, member, own⟩ := known report came
    exact ⟨task, member, report, ⟨came, own.symm⟩, rfl⟩

private theorem maximum_congr {left right : List Verdict}
    (same : ∀ verdict, verdict ∈ left ↔ verdict ∈ right) :
    left.maximum = right.maximum :=
  le_antisymm (List.maximum_mono fun verdict => (same verdict).mp)
    (List.maximum_mono fun verdict => (same verdict).mpr)

/-! ## The theorem -/

/-- **The results are the most severe ones that came if and only if no task got SKIP
alone.** The order in which they came does not matter. -/
theorem results_aggregate (fresh : Fresh c)
    (known : ∀ report ∈ reports, ∃ task ∈ c.tasks, task.id = report.taskId) :
    Aggregates c reports ↔ ∀ task ∈ c.tasks, verdicts reports task.id = [] ∨
      ∃ verdict ∈ verdicts reports task.id, verdict ≠ .skip := by
  constructor
  · intro aggregates before member
    obtain ⟨task, now, id⟩ := record_kept reports member
    have most := aggregates.tasks task now
    rw [(record_task fresh now).1, id] at most
    exact folded_eq.mp most
  · intro others
    refine ⟨?_, ?_⟩
    · intro task now
      obtain ⟨result, before, member, id⟩ := record_task fresh now
      rw [result]
      exact folded_eq.mpr (id ▸ others before member)
    · rw [record_recipe, fresh.recipe, maximum_congr (mem_verdicts known)]
      apply folded_eq.mpr
      cases came : reports.map Report.verdict with
      | nil => exact .inl rfl
      | cons first more =>
        -- the task that the first report is for got something else than SKIP
        have here : first ∈ c.tasks.flatMap fun task => verdicts reports task.id := by
          rw [mem_verdicts known, came]
          exact List.mem_cons_self
        obtain ⟨task, member, mine⟩ := List.mem_flatMap.mp here
        obtain ⟨verdict, own, other⟩ := (others task member).resolve_left (List.ne_nil_of_mem mine)
        refine .inr ⟨verdict, ?_, other⟩
        rw [← came, ← mem_verdicts known]
        exact List.mem_flatMap.mpr ⟨task, member, own⟩

/-- A recipe with two tasks, as the client starts it. -/
def twoTasks : RecipeData where
  runDir := "job.01".toList
  status := "New".toList
  result := "None".toList
  tasks :=
    [⟨"1".toList, "New".toList, "None".toList, [], []⟩, ⟨"2".toList, "New".toList, "None".toList, [], []⟩]
  distinct := by decide
  files := fun _ => none
  started := false
  connRetries := 0
  watchdog := some 300

private theorem twoTasks_fresh : Fresh twoTasks where
  recipe := rfl
  tasks := List.forall_mem_cons.mpr ⟨rfl, List.forall_mem_singleton.mpr rfl⟩

/-- A report of `rstrnt-report-result`. -/
def report (taskId : String) (verdict : Verdict) : Report :=
  ⟨taskId.toList, "1".toList, "/".toList, verdict, none, none⟩

theorem results_aggregate_mixed :
    Aggregates twoTasks [report "1" .skip, report "2" .warn, report "1" .pass, report "1" .skip] := by
  refine (results_aggregate twoTasks_fresh ?_).mpr (by decide +kernel)
  have first : ∃ task ∈ twoTasks.tasks, task.id = "1".toList := ⟨_, List.mem_cons_self, rfl⟩
  have second : ∃ task ∈ twoTasks.tasks, task.id = "2".toList :=
    ⟨_, List.mem_cons_of_mem _ List.mem_cons_self, rfl⟩
  intro report member
  simp only [List.mem_cons, List.not_mem_nil, or_false] at member
  rcases member with rfl | rfl | rfl | rfl
  · exact first
  · exact second
  · exact first
  · exact first

/-- A task that reports SKIP and nothing else has the result None. -/
theorem skip_leaves_none :
    Fresh twoTasks ∧ (∃ task ∈ twoTasks.tasks, task.id = (report "1" .skip).taskId) ∧
      ¬Aggregates twoTasks [report "1" .skip] := by
  refine ⟨twoTasks_fresh, ⟨_, List.mem_cons_self, rfl⟩, fun aggregates => ?_⟩
  have none : (record twoTasks [report "1" .skip]).result = "None".toList := by decide +kernel
  have most := aggregates.recipe
  rw [none] at most
  revert most
  decide +kernel

end Restraint.ResultAggregation

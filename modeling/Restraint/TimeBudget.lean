import Restraint.Restart

/-! The time budget of a task over restarts. Each heartbeat writes what is left of it
to the config file, and `metadata_finish_cb` takes it from there again; a budget that
is used up is written as 0, which reads as none. -/
namespace Restraint.TimeBudget
open Transition History
open CString (Text)
open Restraint.Harness Restraint.TaskHandler Restraint.TaskMachine Restraint.TaskRefinement
open Restraint.TaskSteps Restraint.TaskDeeds Restraint.Restart

/-- The entry point is started with no more time than each heartbeat has left, unless
the user has adjusted the watchdog. -/
def WithinBudget (older : List Note) (note : Note) : Prop :=
  ∀ remainingTime rhtsCompat env, note.done = .launched remainingTime rhtsCompat env →
    .adjusted ∉ lately note.taskId older →
    ∀ left, .beat left ∈ lately note.taskId older → remainingTime ≤ left

/-- A heartbeat has left less than this. -/
def exceeds (budget : Int) : Done → Bool
  | .beat left => left < budget
  | _ => false

/-- `metadata_finish_cb` reads 0 as the remaining time of a task, and its budget is more
than a heartbeat has left. -/
def refills (m : Snapshot) (notes : List Note) (source : Source) (w : World) (task : Task) : Prop :=
  CallsBack w .metadata source ∧ task.state = .metadataParse ∧
    (configGet m.config w task.taskId).remainingTime = 0 ∧ .adjusted ∉ lately task.taskId notes ∧
    (w.metadata.any fun metadata => !metadata.nolocalwatchdog &&
      (lately task.taskId notes).any (exceeds (budget task metadata))) = true

instance {m : Snapshot} {notes : List Note} {source : Source} {w : World} {task : Task} :
    Decidable (refills m notes source w task) := by
  unfold refills CallsBack
  infer_instance

/-- The states of a task in which its remaining time is settled. -/
def timed : TaskSetupState → Bool
  | .refreshRoles | .env | .watchdog | .dependencies | .run => true
  | _ => false

/-- The time of a task that is not adjusted, against what the heartbeats have left. -/
structure Within (lefts : Int → Prop) (activations : List Source) (task : Task) : Prop where
  unchanged : task.state ≠ .next → task.timeChged = none
  settled : timed task.state = true →
    task.remainingTime < 2 ^ 63 ∧ ∀ left, lefts left → runTime task ≤ left
  running : activations = [.entryPoint] → task.timeChged = none ∧ task.remainingTime < 2 ^ 63 ∧
    ∀ left, lefts left → task.remainingTime ≤ left

/-- What a heartbeat has left. -/
def leftBy (notes : List Note) (taskId : Text) (left : Int) : Prop := .beat left ∈ lately taskId notes

structure Budgeted (m : Snapshot) (notes : List Note) : Prop where
  stored : ∀ taskId, .adjusted ∉ lately taskId notes → ∀ left, leftBy notes taskId left →
    0 ≤ left ∧ (m.config taskId).remainingTime ≤ left
  small : ∀ taskId, (m.config taskId).remainingTime < 2 ^ 63
  current : ∀ task ∈ m.tasks.head?, .adjusted ∉ lately task.taskId notes →
    Within (leftBy notes task.taskId) m.activations task
  later : ∀ task ∈ m.tasks.tail, task.timeChged = none

section
variable {m n : Snapshot} {did : Option Effect} {source : Option Source} {active : Source}
  {e : Server.Event} {w : World} {task task' : Task} {rest : List Task} {next : Option Source}
  {config config' : Text → Section} {cancelled : Bool} {aborted : StateAborted}
  {notes : List Note} {taskId : Text} {env : List Text} {lefts : Int → Prop}
  {activations : List Source}

private theorem toInt64_lt {n : Int} : toInt64 n < 2 ^ 63 := by
  unfold toInt64
  omega

/-- The sections that a deed leaves have the remaining times they had. -/
theorem deed_remainingTime (deed : Deed config cancelled aborted w did active task task' config' next) :
    (config' taskId).remainingTime = (config taskId).remainingTime := by
  cases deed with
  | launch =>
    rw [written_apply]
    split
    · rename_i own
      rw [own.2]
      rfl
    · rfl
  | expire =>
    rw [written_apply]
    split
    · rename_i own
      rw [own.2]
      rfl
    · rfl
  | _ => rfl

/-- The time that `metadata_finish_cb` gives a task. -/
theorem remainingTime_settled {metadata : Metadata}
    (stored : ∀ left, lefts left → 0 ≤ left ∧ (config task.taskId).remainingTime ≤ left)
    (small : (config task.taskId).remainingTime < 2 ^ 63)
    (kept : (configGet config w task.taskId).remainingTime = 0 → metadata.nolocalwatchdog = false →
      ∀ left, lefts left → budget task metadata ≤ left) :
    remainingTime task metadata (configGet config w task.taskId) < 2 ^ 63 ∧
      ∀ left, lefts left → (if metadata.nolocalwatchdog then 0 else
        remainingTime task metadata (configGet config w task.taskId)) ≤ left := by
  unfold remainingTime
  split
  · rename_i none
    refine ⟨toInt64_lt, fun left member => ?_⟩
    split
    · exact (stored left member).1
    · rename_i watched
      exact kept none (by simpa using watched) left member
  · rename_i some
    unfold configGet at some ⊢
    split at some
    · rename_i reads
      rw [if_pos reads]
      refine ⟨small, fun left member => ?_⟩
      split
      · exact (stored left member).1
      · exact (stored left member).2
    · exact absurd rfl some

theorem Within.same (within : Within lefts activations task) (state : task'.state = task.state)
    (timeChged : task'.timeChged = task.timeChged)
    (remainingTime : task'.remainingTime = task.remainingTime) (metadata : task'.metadata = task.metadata) :
    Within lefts activations task' := by
  have time : runTime task' = runTime task := by rw [runTime, runTime, metadata, remainingTime]
  refine ⟨?_, ?_, ?_⟩
  · rw [state, timeChged]
    exact within.unchanged
  · rw [state, remainingTime, time]
    exact within.settled
  · rw [timeChged, remainingTime]
    exact within.running

/-- No entry point is attached. -/
theorem not_turn (apart : next ≠ some .entryPoint) : next.toList ≠ [.entryPoint] := by
  cases next with
  | none => nofun
  | some source => simpa using apart

/-- A task goes on with the time it has. -/
theorem Within.goOn (within : Within lefts activations task) (live : task.state ≠ .next)
    (before : timed task'.state = true → timed task.state = true)
    (same : task'.timeChged = task.timeChged ∧ task'.remainingTime = task.remainingTime ∧
      runTime task' = runTime task)
    (apart : next ≠ some .entryPoint) : Within lefts next.toList task' := by
  obtain ⟨timeChged, remainingTime, time⟩ := same
  refine ⟨fun _ => ?_, fun settled => ?_, fun turn => absurd turn (not_turn apart)⟩
  · rw [timeChged]
    exact within.unchanged live
  · rw [remainingTime, time]
    exact within.settled (before settled)

/-- A task whose time is not settled. -/
theorem Within.untimed (within : Within lefts activations task) (live : task.state ≠ .next)
    (after : timed task'.state = false) (timeChged : task'.timeChged = task.timeChged)
    (apart : next ≠ some .entryPoint) : Within lefts next.toList task' := by
  refine ⟨fun _ => timeChged ▸ within.unchanged live, fun settled => ?_,
    fun turn => absurd turn (not_turn apart)⟩
  rw [after] at settled
  cases settled

private theorem deed_within
    (deed : Deed m.config m.cancelled m.aborted w did active task task' config next)
    (stored : ∀ left, leftBy notes task.taskId left →
      0 ≤ left ∧ (m.config task.taskId).remainingTime ≤ left)
    (small : (m.config task.taskId).remainingTime < 2 ^ 63)
    (unadjusted : .adjusted ∉ lately task.taskId notes)
    (within : Within (leftBy notes task.taskId) [active] task) (avoided : ¬refills m notes active w task) :
    Within (leftBy notes task.taskId) next.toList task' := by
  cases deed with
  | @keep next _ _ _ calm =>
    have apart : next ≠ .entryPoint := by
      rintro rfl
      cases calm
    exact ⟨within.unchanged, within.settled, fun turn => absurd turn (by simpa using apart)⟩
  | unread idle => exact within.untimed (by simp [idle]) rfl rfl (by simp)
  | pass idle => exact within.untimed (by simp [idle]) rfl rfl (by simp)
  | drop idle => exact within.untimed (by simp [idle]) rfl rfl (by simp)
  | expired idle => exact within.untimed (by simp [idle]) rfl rfl (by simp)
  | resume idle => exact within.untimed (by simp [idle]) rfl rfl (by simp)
  | begin idle => exact within.untimed (by simp [idle]) rfl rfl (by simp)
  | fetched fetch => exact within.untimed (by simp [fetch]) rfl rfl (by simp)
  | fail busy => exact within.untimed (by rcases busy with busy | busy | busy <;> simp [busy]) rfl rfl (by simp)
  | prepare parse => exact within.untimed (by simp [parse]) (by simp [parse, timed]) rfl (by simp)
  | described parse called clean given =>
    have live : task.state ≠ .next := by simp [parse]
    obtain ⟨least, bound⟩ := remainingTime_settled stored small (by
      intro none watched left member
      by_contra above
      refine avoided ⟨called, parse, none, unadjusted, ?_⟩
      rw [given, Option.any_some, watched]
      exact List.any_eq_true.mpr ⟨_, member, by simpa [exceeds] using above⟩)
    refine ⟨fun _ => within.unchanged live, fun _ => ⟨least, ?_⟩, nofun⟩
    simpa [runTime] using bound
  | undescribed parse => exact within.untimed (by simp [parse]) rfl rfl (by simp)
  | unparsed parse => exact within.untimed (by simp [parse]) rfl rfl (by simp)
  | roles refresh =>
    exact within.goOn (by simp [refresh]) (fun _ => by rw [refresh]; rfl) ⟨rfl, rfl, rfl⟩ (by simp)
  | environment env =>
    exact within.goOn (by simp [env]) (fun _ => by rw [env]; rfl) ⟨rfl, rfl, rfl⟩ (by simp)
  | post watchdog =>
    exact within.goOn (by simp [watchdog]) (fun _ => by rw [watchdog]; rfl) ⟨rfl, rfl, rfl⟩
      (by split <;> simp)
  | unposted watchdog =>
    exact within.goOn (by simp [watchdog]) (fun _ => by rw [watchdog]; rfl) ⟨rfl, rfl, rfl⟩ (by simp)
  | uninstalled dependencies =>
    exact within.goOn (by simp [dependencies]) (fun _ => by rw [dependencies]; rfl) ⟨rfl, rfl, rfl⟩
      (by simp)
  | install dependencies =>
    exact within.goOn (by simp [dependencies]) (fun _ => by rw [dependencies]; rfl) ⟨rfl, rfl, rfl⟩
      (by simp)
  | installed dependencies =>
    exact within.goOn (by simp [dependencies]) (fun _ => by rw [dependencies]; rfl) ⟨rfl, rfl, rfl⟩
      (by simp)
  | skip run => exact within.untimed (by simp [run]) rfl rfl (by simp)
  | @launch metadata _ run live described =>
    obtain ⟨least, bound⟩ := within.settled (by rw [run]; rfl)
    have unchanged := within.unchanged (by simp [run])
    simp only [runTime, described, Option.any_some] at bound
    have less : (if metadata.nolocalwatchdog then 0 else task.remainingTime) < 2 ^ 63 := by
      split
      · decide
      · exact least
    refine ⟨fun _ => unchanged, fun _ => ⟨less, fun left member => ?_⟩, fun _ => ⟨unchanged, less, bound⟩⟩
    have time := bound left member
    simp only [runTime, described, Option.any_some]
    split <;> simp_all
  | exit run => exact within.untimed (by simp [run]) rfl rfl (by simp)
  | exitFails run => exact within.untimed (by simp [run]) rfl rfl (by simp)
  | expire run => exact within.untimed (by simp [run]) rfl rfl (by simp)
  | conclude complete => exact within.untimed (by simp [complete]) rfl rfl (by simp)

/-- What a heartbeat has left was left before, and nothing was removed since. -/
theorem left_before {left : Int} (member : leftBy ((noted m env e did).toList ++ notes) taskId left) :
    leftBy notes taskId left ∧
      ∀ done ∈ lately taskId notes, done ∈ lately taskId ((noted m env e did).toList ++ notes) := by
  unfold leftBy at member ⊢
  cases did with
  | none => exact ⟨member, fun done before => before⟩
  | some effect =>
    cases current : m.tasks with
    | nil =>
      simp only [noted, current] at member ⊢
      exact ⟨member, fun done before => before⟩
    | cons task rest =>
      by_cases own : taskId = task.taskId
      · subst own
        rw [lately_own current] at member ⊢
        cases effect with
        | report =>
          cases written : writes e with
          | true => simp [doneBy, clears, written] at member
          | false => simp_all [doneBy, clears]
        | _ => simp_all [doneBy, clears]
      · rw [lately_other current own] at member ⊢
        exact ⟨member, fun done before => before⟩

theorem Within.mono {lefts' : Int → Prop} (within : Within lefts activations task)
    (fewer : ∀ left, lefts' left → lefts left) : Within lefts' activations task where
  unchanged := within.unchanged
  settled := fun settled =>
    ⟨(within.settled settled).1, fun left member => (within.settled settled).2 left (fewer left member)⟩
  running := fun turn =>
    ⟨(within.running turn).1, (within.running turn).2.1, fun left member =>
      (within.running turn).2.2 left (fewer left member)⟩

/-- A task that is new, or done with. -/
theorem within_fresh (timeChged : task.state ≠ .next → task.timeChged = none)
    (state : timed task.state = false) (none : activations ≠ [.entryPoint]) :
    Within lefts activations task where
  unchanged := timeChged
  settled := by simp [state]
  running := fun turn => absurd turn none

private theorem stride_budgeted (staged : Staged m) (budgeted : Budgeted m notes)
    (stride : Stride source e did m n)
    (avoided : ∀ active ∈ source, ∀ id w, e = .dispatch id w → ∀ task ∈ m.tasks.head?,
      ¬refills m notes active w task) :
    Budgeted n ((noted m env e did).toList ++ notes) := by
  obtain ⟨stored, small, current, later⟩ := budgeted
  have before {task : Task} {rest : List Task} (tasks : m.tasks = task :: rest)
      (unadjusted : .adjusted ∉ lately task.taskId notes) :
      Within (leftBy notes task.taskId) m.activations task :=
    current task (by rw [tasks]; rfl) unadjusted
  refine ⟨?_, ?_, ?_, ?_⟩
  · intro taskId unadjusted left member
    obtain ⟨old, kept⟩ := left_before member
    obtain ⟨least, above⟩ := stored taskId (fun adjusted => unadjusted (kept _ adjusted)) left old
    refine ⟨least, ?_⟩
    cases stride with
    | work event here tasks turn deed => exact (deed_remainingTime deed).trans_le above
    | report =>
      simp only [written_apply]
      split
      · exact least
      · exact above
    | _ => exact above
  · intro taskId
    cases stride with
    | work event here tasks turn deed => exact (deed_remainingTime deed).trans_lt (small taskId)
    | report =>
      simp only [written_apply]
      split
      · decide
      · exact small taskId
    | _ => exact small taskId
  · cases stride with
    | parse event parsed =>
      intro task head _
      obtain ⟨xml, -, rfl⟩ := List.mem_map.mp (List.mem_of_mem_head? head)
      have none := (staged.before (by rw [parsed]; rfl)).2.2
      exact within_fresh (fun _ => rfl) rfl (by simp [none])
    | launch ready =>
      intro task head unadjusted
      have idle := (staged.ready ready).2 task (List.mem_of_mem_head? head)
      exact within_fresh (current task head unadjusted).unchanged (by rw [idle]; rfl) (by simp)
    | work event here tasks turn deed =>
      rintro _ ⟨⟩ unadjusted
      rw [deed_taskId deed] at unadjusted ⊢
      have unadjusted := fun adjusted => unadjusted (lately_kept (deed_unreported deed) adjusted)
      exact (deed_within deed (stored _ unadjusted) (small _) unadjusted (turn ▸ before tasks unadjusted)
        (avoided _ here _ _ event _ (by rw [tasks]; rfl))).mono fun left member => (left_before member).1
    | report =>
      rintro _ ⟨⟩ -
      exact within_fresh (by simp) rfl (by simp)
    | advance here tasks turn =>
      rintro _ ⟨⟩ -
      rw [tasks] at later
      have fresh := later _ List.mem_cons_self
      exact within_fresh (fun _ => fresh) rfl (by simp [turn])
    | finish => simp
    | stop none => simp [none]
    | results tasks =>
      rintro _ ⟨⟩ unadjusted
      exact (before tasks unadjusted).same rfl rfl rfl rfl
    | adjust event request asked live tasks =>
      rintro _ ⟨⟩ unadjusted
      rw [adjustWatchdog_alike.taskId, lately_own tasks] at unadjusted
      simp [doneBy, clears] at unadjusted
    | close complete => simp [staged.ended (.inl complete)]
    | _ => exact current
  · cases stride with
    | parse =>
      intro task member
      obtain ⟨xml, -, rfl⟩ := List.mem_map.mp (List.mem_of_mem_tail member)
      rfl
    | work event here tasks =>
      rw [tasks] at later
      exact later
    | report event here tasks =>
      rw [tasks] at later
      exact later
    | advance here tasks =>
      rw [tasks] at later
      exact fun task member => later task (List.mem_cons_of_mem _ member)
    | finish => simp
    | results tasks =>
      rw [tasks] at later
      exact later
    | adjust event request asked live tasks =>
      rw [tasks] at later
      exact later
    | _ => exact later

/-- A heartbeat takes some of the remaining time, or all of it. -/
theorem heartbeatLeft_spec (now : Nat) (unchanged : task.timeChged = none)
    (small : task.remainingTime < 2 ^ 63) :
    0 ≤ heartbeatLeft task now ∧ heartbeatLeft task now < 2 ^ 63 ∧
      ∀ left, 0 ≤ left → task.remainingTime ≤ left → heartbeatLeft task now ≤ left := by
  unfold heartbeatLeft
  rw [unchanged]
  dsimp only
  split
  · refine ⟨by omega, by omega, fun left least above => by omega⟩
  · exact ⟨Int.le_refl 0, by decide, fun left least above => least⟩

private theorem storedInt64_of_lt {left : Int} (least : 0 ≤ left) (small : left < 2 ^ 63) :
    storedInt64 left = left := by
  unfold storedInt64
  omega

private theorem storedInt64_lt {left : Int} : storedInt64 left < 2 ^ 63 := by
  unfold storedInt64
  omega

private theorem beatConfig_remainingTime {left : Int} {writes : Bool} {other : Text} :
    (beatConfig config taskId left writes other).remainingTime =
      if writes = true ∧ other = taskId then storedInt64 left else (config other).remainingTime := by
  unfold beatConfig
  cases writes with
  | false => simp
  | true => by_cases own : other = taskId <;> simp [own]

private theorem beat_budgeted (budgeted : Budgeted m notes) (tasks : m.tasks = task :: rest)
    (turn : m.activations = [.entryPoint]) (now : Nat) (writes : Bool) :
    Budgeted (beaten m task rest (heartbeatLeft task now) writes)
      ((beatNote m.past.length task.taskId (heartbeatLeft task now) writes).toList ++ notes) := by
  obtain ⟨stored, small, current, later⟩ := budgeted
  have before (taskId : Text) (unadjusted : .adjusted ∉ lately taskId
      ((beatNote m.past.length task.taskId (heartbeatLeft task now) writes).toList ++ notes)) :
      .adjusted ∉ lately taskId notes := by
    rw [lately_beat] at unadjusted
    split at unadjusted
    · simpa using unadjusted
    · exact unadjusted
  have own (unadjusted : .adjusted ∉ lately task.taskId notes) (left : Int) (member : leftBy
      ((beatNote m.past.length task.taskId (heartbeatLeft task now) writes).toList ++ notes)
      task.taskId left) :
      0 ≤ left ∧ heartbeatLeft task now ≤ left := by
    obtain ⟨unchanged, less, above⟩ :=
      (current task (by rw [tasks]; rfl) unadjusted).running turn
    obtain ⟨least, most, bound⟩ := heartbeatLeft_spec now unchanged less
    have old (member : leftBy notes task.taskId left) : 0 ≤ left ∧ heartbeatLeft task now ≤ left :=
      ⟨(stored _ unadjusted left member).1, bound left (stored _ unadjusted left member).1 (above left member)⟩
    rw [leftBy, lately_beat] at member
    split at member
    · rw [storedInt64_of_lt least most] at member
      rcases List.mem_cons.mp member with same | member
      · cases same
        exact ⟨least, Int.le_refl _⟩
      · exact old member
    · exact old member
  refine ⟨?_, ?_, ?_, ?_⟩
  · intro taskId unadjusted left member
    have unadjusted := before taskId unadjusted
    simp only [beaten, beatConfig_remainingTime]
    split
    · rename_i here
      obtain ⟨-, rfl⟩ := here
      obtain ⟨unchanged, less, -⟩ := (current task (by rw [tasks]; rfl) unadjusted).running turn
      obtain ⟨least, most, -⟩ := heartbeatLeft_spec now unchanged less
      rw [storedInt64_of_lt least most]
      exact own unadjusted left member
    · rename_i other
      rw [leftBy, lately_beat, if_neg other] at member
      exact stored taskId unadjusted left member
  · intro taskId
    simp only [beaten, beatConfig_remainingTime]
    split
    · exact storedInt64_lt
    · exact small taskId
  · rintro _ ⟨⟩ unadjusted
    have unadjusted := before task.taskId unadjusted
    obtain ⟨unchanged, less, -⟩ := (current task (by rw [tasks]; rfl) unadjusted).running turn
    obtain ⟨-, most, -⟩ := heartbeatLeft_spec now unchanged less
    refine ⟨fun _ => rfl, fun _ => ⟨most, fun left member => ?_⟩, fun _ => ⟨rfl, most, fun left member => ?_⟩⟩
    · rw [runTime]
      split
      · exact (own unadjusted left member).1
      · exact (own unadjusted left member).2
    · exact (own unadjusted left member).2
  · rw [tasks] at later
    exact later

/-- The config file alone is left after a restart. -/
theorem start_budgeted {stdin : Bool} (stored : ∀ taskId, .adjusted ∉ lately taskId notes →
      ∀ left, leftBy notes taskId left → 0 ≤ left ∧ (config taskId).remainingTime ≤ left)
    (small : ∀ taskId, (config taskId).remainingTime < 2 ^ 63) :
    Budgeted (snapshot (Server.start stdin config)) notes where
  stored := stored
  small := small
  current := by simp [snapshot, Server.start]
  later := by simp [snapshot, Server.start]

/-- What is noted of a stride is the start of an entry point within its budget, or
something else. -/
theorem noted_within (budgeted : Budgeted m notes) (stride : Stride source e did m n) :
    ∀ note ∈ noted m env e did, WithinBudget notes note := by
  intro note member remainingTime rhtsCompat env' launched unadjusted left beat
  obtain ⟨rfl, -, task, head, own, rfl, -⟩ := noted_launched member launched
  obtain ⟨task', rest, current, run, -⟩ := stride_launch stride
  obtain rfl : task' = task := by simpa [current] using head
  rw [own] at unadjusted beat
  exact ((budgeted.current task' head unadjusted).settled (by rw [run]; rfl)).2 left beat

private theorem budgeted_keeps : Keeps refills Budgeted WithinBudget where
  apart := by
    rintro _ _ _ _ _ ⟨-, parse, -⟩ run
    simp [parse] at run
  first := fun _ => start_budgeted (by simp [leftBy]) (by simp [Section.empty])
  stride := fun staged budgeted stride avoided _ => stride_budgeted staged budgeted stride avoided
  note := fun budgeted stride _ => noted_within budgeted stride
  beat := fun budgeted tasks turn now writes => beat_budgeted budgeted tasks turn now writes
  beatNote := nofun
  restart := fun budgeted _ => start_budgeted budgeted.stored budgeted.small
  half := by
    intro _ _ _ _ _ _ _ budgeted stdin
    refine start_budgeted ?_ ?_
    · simp only [halfRan_remainingTime]
      exact budgeted.stored
    · simp only [halfRan_remainingTime]
      exact budgeted.small

end

variable {h : Host} {stdin : Bool} {recipeId : Text} {recipe : List TaskXml} {events : List Event}

/-- **The entry point of a task is never started with more time than a heartbeat has left
of its budget, over all restarts**, as long as a budget that was written as 0, or cannot be read,
is not taken from the metadata again. -/
theorem budget_never_refilled
    (ran : run (only step (avoids refills)) (start stdin recipeId recipe) events = some h) :
    Always WithinBudget h.notes :=
  (budgeted_keeps.run ran).always

/-- The task has run for a minute when the daemon is started again. -/
theorem budget_never_refilled_resumed :
    ∃ h env, run (only step (avoids refills)) (start false "1".toList oneTask)
        (untilLaunched ++ .heartbeat 60 true :: untilResumed) = some h ∧
      h.notes.take 2 = [⟨0, "10".toList, .launched 540 false env⟩, ⟨0, "10".toList, .beat 540⟩] ∧
      Always WithinBudget h.notes := by
  have shown : ((run (only step (avoids refills)) (start false "1".toList oneTask)
      (untilLaunched ++ .heartbeat 60 true :: untilResumed)).map fun h =>
        decide (h.notes.take 2 = [⟨0, "10".toList, .launched 540 false h.env⟩,
          ⟨0, "10".toList, .beat 540⟩])) = some true := by
    decide +kernel
  obtain ⟨h, ran, newest⟩ := Option.map_eq_some_iff.mp shown
  exact ⟨h, h.env, ran, of_decide_eq_true newest, budget_never_refilled ran⟩

/-- The task has used up its time when the daemon is started again, and gets all of it again. -/
theorem budget_refilled_after_restart :
    ∃ h, run step (start false "1".toList oneTask)
        (untilLaunched ++ List.replicate 10 (.heartbeat 600 true) ++ untilResumed) = some h ∧
      ¬Always WithinBudget h.notes := by
  have shown : ((run step (start false "1".toList oneTask)
      (untilLaunched ++ List.replicate 10 (.heartbeat 600 true) ++ untilResumed)).map fun h =>
        decide (h.notes.take 2 = [⟨0, "10".toList, .launched 600 false h.env⟩,
          ⟨0, "10".toList, .beat 0⟩] ∧ .adjusted ∉ lately "10".toList (h.notes.drop 2))) = some true := by
    decide +kernel
  obtain ⟨h, ran, shown⟩ := Option.map_eq_some_iff.mp shown
  obtain ⟨newest, unadjusted⟩ := of_decide_eq_true shown
  refine ⟨h, ran, fun always => ?_⟩
  rw [← List.take_append_drop 2 h.notes, newest] at always
  have own : lately "10".toList (⟨0, "10".toList, .beat 0⟩ :: h.notes.drop 2) =
      .beat 0 :: lately "10".toList (h.notes.drop 2) := by
    rw [lately_cons, if_pos rfl]
    exact if_neg Bool.false_ne_true
  have refilled : (600 : Int) ≤ 0 := by
    refine always.1 600 false h.env rfl ?_ 0 ?_
    · exact own ▸ fun member => unadjusted ((List.mem_cons.mp member).resolve_left (by simp))
    · exact own ▸ List.mem_cons_self
  exact absurd refilled (by decide)

end Restraint.TimeBudget

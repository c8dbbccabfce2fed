import Restraint.TaskSteps

/-! Every step of the daemon is a stride: a deed for the current task, or one of the few steps that
are about the recipe or a request. The proofs about budgets, reboots and verdicts start from here
and leave the step of the daemon closed. -/
namespace Restraint.TaskSteps
open Transition
open Restraint.Harness Restraint.TaskHandler Restraint.TaskMachine Restraint.TaskRefinement
open CString (Text gStrHasSuffix strstr)
open Restraint.Server (fetchCompleted restraintXmlParseFromUrl recipeHandler recipeHandlerFinish
  serverRecipeCallback)

variable {s t : AppData} {task task' : Task} {rest : List Task} {w : World} {source : Source}
  {next : Option Source} {id : Nat} {e : Server.Event}

/-- A step of the daemon is a stride. -/
def Strides (s : AppData) (e : Server.Event) (t : AppData) : Prop :=
  Stride (dispatched s e) e (acts s e) (snapshot s) (snapshot t)

private theorem acts_of (found : s.loop.find? id = some source) (current : s.tasks = task :: rest) :
    acts s (.dispatch id w) = acted s w source task := by
  simp [acts, found, current]

/-- A stride of a source that does nothing for the current task. -/
theorem strides_of {n : Snapshot} (found : s.loop.find? id = some source)
    (quiet : Quiet s w source) (shown : snapshot t = n)
    (stride : Stride (some source) (.dispatch id w) none (snapshot s) n) :
    Strides s (.dispatch id w) t := by
  have none : acts s (.dispatch id w) = none := by
    cases current : s.tasks with
    | nil => simp [acts, found, current]
    | cons task rest => rw [acts_of found current, quiet.act current]
  have here : dispatched s (.dispatch id w) = some source := found
  rw [Strides, here, none, shown]
  exact stride

/-- A deed is a stride, whatever the loop is left with. -/
theorem Does.strides {loop : MainLoop Source} (loop' : MainLoop Source)
    (does : Does w source next { s with loop := loop } t) (found : s.loop.find? id = some source)
    (turn : s.loop.kinds activates = [source]) (active : loop'.kinds activates = next.toList)
    (other : loop'.kinds handles = s.loop.kinds handles) :
    Strides s (.dispatch id w) { t with loop := loop' } := by
  obtain ⟨task, task', rest, current, changed, deed⟩ := does.deed
  have shown : snapshot { t with loop := loop' } = { snapshot s with
      tasks := task' :: rest
      config := t.config
      activations := next.toList } := by
    simp [snapshot, changed, active, other, does.state, does.recipe, does.past, does.cancelled,
      does.aborted]
  have here : dispatched s (.dispatch id w) = some source := found
  rw [Strides, here, acts_of found current, shown]
  exact .work rfl rfl current turn deed

/-- The activation is over, and what came of it is attached. -/
theorem Calls.strides (calls : Calls w source { s with loop := s.loop.remove id } t)
    (sound : Sound (view s)) (found : s.loop.find? id = some source)
    (kind : activates source = true) : Strides s (.dispatch id w) t := by
  obtain ⟨next, does, loop⟩ := calls
  have only := activation sound found kind
  have gone := MainLoop.kinds_remove_only found kind only
  have other := MainLoop.kinds_remove_other found (handles_of_activates kind)
  obtain ⟨task, task', rest, -, -, deed⟩ := does.deed
  refine does.strides t.loop found only ?_ ?_
  all_goals
    rw [loop]
    cases next with
    | none => assumption
    | some next =>
      have kind := deed.activates next rfl
      simp [attached, gone, other, kind, handles_of_activates kind]

/-- A step of `task_handler` that does a deed. -/
theorem Handled.strides {stays : Bool} (handled : Handled w stays s t) (sound : Sound (view s))
    (found : s.loop.find? id = some .taskHandler) :
    Strides s (.dispatch id w) (if stays then t else { t with loop := t.loop.remove id }) := by
  obtain ⟨next, does, leaves⟩ := handled
  have only := activation sound found rfl
  cases stays with
  | true =>
    obtain ⟨rfl, same⟩ := leaves
    refine does.strides t.loop found only ?_ (by rw [same])
    rw [same, only]
    rfl
  | false =>
    have loop : t.loop = attached next s.loop := leaves
    have gone := MainLoop.kinds_remove_only found rfl only
    have other := MainLoop.kinds_remove_other found (p := handles) rfl
    obtain ⟨task, task', rest, -, -, deed⟩ := does.deed
    refine does.strides (t.loop.remove id) found only ?_ ?_
    all_goals
      rw [loop]
      cases next with
      | none => assumption
      | some next =>
        have kind := deed.activates next rfl
        simp [attached, MainLoop.remove_add (MainLoop.ne_next found), gone, other, kind,
          handles_of_activates kind]

/-- The recipe handlers after a step of `task_handler` that attaches a source and leaves. -/
theorem handlers_over (added : Source) (found : s.loop.find? id = some .taskHandler) :
    ((s.loop.add added).remove id).kinds handles =
      s.loop.kinds handles ++ if handles added then [added] else [] := by
  rw [MainLoop.remove_add (MainLoop.ne_next found), MainLoop.kinds_add,
    MainLoop.kinds_remove_other found rfl]

/-- The final status of the current task. -/
theorem taskCompleted_strides (sound : Sound (view s)) (found : s.loop.find? id = some .taskHandler)
    (current : s.tasks = task :: rest) (completed : task.state = .completed)
    (done : taskCompleted s w task rest = t) :
    Strides s (.dispatch id w) { t with loop := t.loop.remove id } := by
  have only := activation sound found rfl
  have active := (handed_over .taskMessage sound found).1
  have other := handlers_over .taskMessage found
  have shown : snapshot { t with loop := t.loop.remove id } = { snapshot s with
      tasks := { task with
        error := none
        state := .next } :: rest
      config := written s.config w task.taskId fun _ => .empty
      activations := [.taskMessage]
      cancelled := s.cancelled && s.aborted ≠ .task
      aborted := if s.cancelled ∧ s.aborted = .task then .none else s.aborted } := by
    subst done
    simp only [taskCompleted, configSet_written]
    by_cases own : s.cancelled = true ∧ s.aborted = .task
    · simp [snapshot, restraintTaskStatus, attach, observe, own, active, activates, other, handles]
    · have kept : s.cancelled = true → ¬s.aborted = .task := fun stopped level => own ⟨stopped, level⟩
      simpa [snapshot, restraintTaskStatus, attach, observe, own, active, activates, other, handles]
        using kept
  have here : dispatched s (.dispatch id w) = some .taskHandler := found
  have act : acted s w .taskHandler task = some .report := by simp only [acted, completed]
  rw [Strides, here, acts_of found current, act, shown]
  exact .report rfl rfl current only completed

private theorem restraintNextTask_strides (sound : Sound (view s))
    (found : s.loop.find? id = some .taskHandler) (current : s.tasks = task :: rest)
    (done : task.state = .next) {stays : Bool} (called : restraintNextTask s task rest = (t, stays)) :
    Strides s (.dispatch id w) (if stays then t else { t with loop := t.loop.remove id }) := by
  have only := activation sound found rfl
  have quiet : Quiet s w .taskHandler := by
    rw [Quiet, current]
    rintro _ ⟨⟩
    simp only [acted, done]
  unfold restraintNextTask at called
  split at called
  case h_1 next later =>
    cases called
    exact strides_of found quiet rfl (.advance rfl current only done)
  case h_2 =>
    cases called
    have active := (handed_over .recipeHandler sound found).1
    have other := handlers_over .recipeHandler found
    refine strides_of found quiet ?_ (.finish rfl current only done)
    simp [snapshot, attach, observe, active, activates, other, handles]

/-- A step of `task_handler`. -/
theorem taskHandler_strides (sound : Sound (view s)) (found : s.loop.find? id = some .taskHandler)
    {stays : Bool} (called : taskHandler s w = some (t, stays)) :
    Strides s (.dispatch id w) (if stays then t else { t with loop := t.loop.remove id }) := by
  cases current : s.tasks with
  | nil =>
    simp only [taskHandler, current, Option.some.injEq, Prod.mk.injEq] at called
    obtain ⟨rfl, rfl⟩ := called
    have only := activation sound found rfl
    have gone := MainLoop.kinds_remove_only found rfl only
    have other := MainLoop.kinds_remove_other found (p := handles) rfl
    refine strides_of found (by simp [Quiet, current]) ?_ (.stop current rfl only)
    simp [snapshot, gone, other]
  | cons task rest =>
    by_cases completed : task.state = .completed
    · simp only [taskHandler, current, completed, Option.some.injEq, Prod.mk.injEq] at called
      obtain ⟨done, rfl⟩ := called
      exact taskCompleted_strides sound found current completed done
    · by_cases next : task.state = .next
      · simp only [taskHandler, current, next, Option.some.injEq] at called
        exact restraintNextTask_strides sound found current next called
      · exact (taskHandler_handled current completed next called).strides sound found

/-- The recipe was fetched, or it will be tried again. -/
theorem fetchCompleted_snapshot (fetching : s.state = .fetching) :
    ∃ state, snapshot (fetchCompleted s w) = { snapshot s with state := state, recipe := s.recipe } ∧
      (early state = true ∨ state = .complete) := by
  unfold fetchCompleted
  split
  · split
    · exact ⟨.fetching, by simp [snapshot, attach, activates, handles, fetching], .inl rfl⟩
    · exact ⟨.complete, rfl, .inr rfl⟩
  · exact ⟨.parse, rfl, .inl rfl⟩

/-- The recipe is being fetched or fetched, and nothing is done for a task. -/
theorem retrieve_strides (state : RecipeSetupState) (recipe : Option Text)
    (found : s.loop.find? id = some source) (quiet : Quiet s w source)
    (shown : snapshot t = { snapshot s with
      state := state
      recipe := recipe })
    (before : early s.state = true) (after : early state = true ∨ state = .complete) :
    Strides s (.dispatch id w) t :=
  strides_of found quiet shown (.retrieve before after)

/-- A step of `recipe_handler` that stays attached. -/
theorem recipeHandler_stays_strides (sound : Sound (view s))
    (found : s.loop.find? id = some .recipeHandler) (called : recipeHandler s w = (t, true)) :
    Strides s (.dispatch id w) t := by
  have quiet : Quiet s w .recipeHandler := fun _ _ => rfl
  unfold recipeHandler at called
  split at called
  case h_1 fetch =>
    have early : early s.state = true := by rw [fetch]; rfl
    split at called
    · cases called
      exact strides_of found quiet rfl .still
    · cases called
      unfold restraintXmlParseFromUrl
      split
      · exact retrieve_strides .fetching s.recipe found quiet rfl early (.inl rfl)
      split
      · obtain ⟨state, shown, after⟩ :=
          fetchCompleted_snapshot (s := { s with state := .fetching }) (w := w) rfl
        exact retrieve_strides state s.recipe found quiet shown early after
      · refine retrieve_strides .fetching s.recipe found quiet ?_ early (.inl rfl)
        simp [snapshot, attach, activates, handles]
  case h_2 parse =>
    split at called
    · rename_i recipeId tasks parsed
      cases called
      have recipe : w.recipe = some (recipeId, tasks) := by
        split at parsed
        · cases parsed
        · exact parsed
      exact strides_of found quiet rfl (.parse rfl parse recipe)
    · cases called
      have early : early s.state = true := by rw [parse]; rfl
      exact retrieve_strides .complete none found quiet rfl early (.inr rfl)
  case h_3 ready =>
    cases called
    have none : s.loop.kinds activates = [] := (sound.ready ready).1
    refine strides_of found quiet ?_ (.launch ready)
    simp [snapshot, attach, none, activates, handles]
  case h_4 => cases called
  case h_5 => cases called
  all_goals
    cases called
    exact strides_of found quiet rfl .still

/-- A step of `recipe_handler` that leaves. -/
theorem recipeHandler_leaves_strides (found : s.loop.find? id = some .recipeHandler)
    (called : recipeHandler s w = (t, false)) :
    Strides s (.dispatch id w) (recipeHandlerFinish { t with loop := t.loop.remove id }) := by
  have quiet : Quiet s w .recipeHandler := fun _ _ => rfl
  have active := MainLoop.kinds_remove_other found (p := activates) rfl
  unfold recipeHandler at called
  split at called
  case h_1 => split at called <;> cases called
  case h_2 => split at called <;> cases called
  case h_4 running =>
    cases called
    have stride : Stride (some .recipeHandler) (.dispatch id w) none (snapshot s)
        { snapshot s with handlers := (s.loop.remove id).kinds handles } := .leave running
    refine strides_of found quiet ?_ stride
    simp [snapshot, recipeHandlerFinish, active]
  case h_5 complete =>
    cases called
    have stride : Stride (some .recipeHandler) (.dispatch id w) none (snapshot s)
        { snapshot s with
          state := .idle
          recipe := none
          cancelled := false
          handlers := (s.loop.remove id).kinds handles } := .close complete
    refine strides_of found quiet ?_ stride
    simp [snapshot, recipeHandlerFinish, active]
  all_goals cases called

/-- A request is a stride. -/
theorem request_strides {path body : Text} {form : List (Text × Text)} {time : Nat}
    (called : serverRecipeCallback s path body form time = some t) :
    Strides s (.request path body form time) t := by
  have other (notAsked : watchdogAsked path = false) {n : Snapshot} (shown : snapshot t = n)
      (stride : Stride none (.request path body form time) none (snapshot s) n) :
      Strides s (.request path body form time) t := by
    have none : acts s (.request path body form time) = none := by simp [acts, notAsked]
    rw [Strides, none, shown]
    exact stride
  unfold serverRecipeCallback at called
  split at called
  · rename_i idle
    cases called
    have none : acts s (.request path body form time) = none := by simp [acts, idle]
    rw [Strides, none]
    exact .still
  rename_i live
  split at called
  · cases called
  rename_i task rest current
  split at called
  · rename_i results
    obtain rfl := Option.some.inj called
    refine other (by rw [watchdogAsked, results]; rfl) ?_ (.results current rfl)
    simp [snapshot, attach, activates, handles]
  rename_i noResults
  split at called
  · rename_i logs
    obtain rfl := Option.some.inj called
    refine other (by rw [watchdogAsked, logs]; simp) ?_ .still
    simp [snapshot, attach, activates, handles]
  rename_i noLogs
  split at called
  · rename_i watchdog
    obtain ⟨metadata, described, rfl⟩ := Option.map_eq_some_iff.mp called
    have asked : watchdogAsked path = true := by
      rw [watchdogAsked, Bool.eq_false_iff.mpr noResults, Bool.eq_false_iff.mpr noLogs, watchdog]
      rfl
    have act : acts s (.request path body form time) = some .adjust := by
      simp [acts, live, current, asked]
    have adjust : Stride none (.request path body form time) (some .adjust) (snapshot s)
        { snapshot s with
          tasks := Server.adjustWatchdog task metadata (form.lookup "seconds".toList) time :: rest } :=
      .adjust rfl rfl asked live current described
    rw [Strides, act]
    simpa [dispatched, snapshot, attach, activates, handles] using adjust
  rename_i noWatchdog
  have notAsked : watchdogAsked path = false := by
    rw [watchdogAsked, Bool.eq_false_iff.mpr noWatchdog, Bool.and_false]
  split at called
  · obtain ⟨recipeId, -, accepted⟩ := Option.bind_eq_some_iff.mp called
    obtain ⟨level, -, rfl⟩ := Option.map_eq_some_iff.mp accepted
    cases level with
    | none => exact other notAsked rfl .still
    | task | recipe => exact other notAsked rfl (.abort current rfl (by rintro ⟨⟩))
  · cases called
    exact other notAsked rfl .still

/-- A source that is over gives way to `task_handler`. -/
theorem handler_strides (sound : Sound (view s)) (found : s.loop.find? id = some source)
    (kind : activates source = true) (apart : source ≠ .taskHandler) (other : source ≠ .entryPoint)
    (quiet : Quiet s w source) :
    Strides s (.dispatch id w) (attach { s with loop := s.loop.remove id } .taskHandler) := by
  by_cases none : s.tasks = []
  · have only := sound.empty (by simp [view, none]) source (MainLoop.mem_kinds found kind)
    exact absurd only apart
  · obtain ⟨task, rest, current⟩ := List.exists_cons_of_ne_nil none
    have calls : Calls w source { s with loop := s.loop.remove id }
        (attach { s with loop := s.loop.remove id } .taskHandler) :=
      ⟨_, attach_does .taskHandler current rfl (.inl (quiet.act current)) other, rfl⟩
    exact calls.strides sound found kind

private theorem serverMsgComplete_snapshot {results noPlugins : Bool}
    (called : Server.serverMsgComplete s results noPlugins = some t) : snapshot t = snapshot s := by
  unfold Server.serverMsgComplete at called
  split at called
  · cases called
  · split at called
    · split at called
      · cases called
        simp [snapshot, attach, activates, handles]
      · cases called
    · cases called
      rfl

/-- A dispatch is a stride. -/
theorem dispatch_strides (sound : Sound (view s)) (found : s.loop.find? id = some source)
    (called : Server.dispatch s id w source = some t) : Strides s (.dispatch id w) t := by
  have ready : activates source = true → Ready { s with loop := s.loop.remove id } source := by
    intro kind task head
    exact sound.fits (life task) (by simpa [view] using ⟨task, head, rfl⟩) source
      (MainLoop.mem_kinds found kind)
  have gone (other : activates source = false) (notHandler : handles source = false) :
      snapshot { s with loop := s.loop.remove id } = snapshot s := by
    simp [snapshot, MainLoop.kinds_remove_other found other, MainLoop.kinds_remove_other found notHandler]
  cases source with
  | recipeHandler =>
    cases handled : recipeHandler s w with
    | mk u stays =>
      simp only [Server.dispatch, handled, Option.some.injEq] at called
      subst called
      cases stays with
      | true => exact recipeHandler_stays_strides sound found handled
      | false => exact recipeHandler_leaves_strides found handled
  | taskHandler =>
    obtain ⟨⟨u, stays⟩, handled, same⟩ := Option.map_eq_some_iff.mp called
    have strides := taskHandler_strides sound found handled
    rwa [← same]
  | recipeFetch =>
    cases called
    have fetching := retrieving sound found rfl
    obtain ⟨state, shown, after⟩ :=
      fetchCompleted_snapshot (s := { s with loop := s.loop.remove id }) (w := w) fetching.1
    rw [gone rfl rfl] at shown
    exact retrieve_strides state s.recipe found (fun _ _ => rfl) shown (by rw [fetching.1]; rfl) after
  | recipeFetchRetry =>
    cases called
    have fetching := retrieving sound found rfl
    have shown : snapshot { s with
        error := false
        state := .fetch
        loop := s.loop.remove id } = { snapshot s with
          state := .fetch
          recipe := s.recipe } := by
      simp [snapshot, MainLoop.kinds_remove_other found (p := activates) rfl,
        MainLoop.kinds_remove_other found (p := handles) rfl]
    exact retrieve_strides .fetch s.recipe found (fun _ _ => rfl) shown (by rw [fetching.1]; rfl)
      (.inl rfl)
  | fetchRetry => exact (fetchRetry_calls (ready rfl) called).strides sound found rfl
  | refreshRoleRetry =>
    exact (refreshRoleRetry_calls (ready rfl) called).strides sound found rfl
  | fetch =>
    exact (fetchFinishCallback_calls (ready rfl) (fun _ _ => .inl rfl) (by simp) called).strides sound found rfl
  | fetchPackage =>
    exact (taskHandlerCallback_calls (ready rfl) called).strides sound found rfl
  | metadata => exact (metadataFinishCb_calls (ready rfl) called).strides sound found rfl
  | roleRefresh =>
    exact (recipeFetchComplete_calls (ready rfl) (fun _ _ => rfl) (by simp) called).strides sound found rfl
  | dependencies =>
    exact (dependencyFinishCb_calls (ready rfl) called).strides sound found rfl
  | entryPoint => exact (taskFinishCallback_calls (ready rfl) called).strides sound found rfl
  | plugins =>
    cases called
    exact handler_strides sound found rfl (by simp) (by simp) (fun _ _ => rfl)
  | taskMessage =>
    cases called
    exact handler_strides sound found rfl (by simp) (by simp) (fun _ _ => rfl)
  | serverMessage results noPlugins =>
    exact strides_of found (fun _ _ => rfl)
      ((serverMsgComplete_snapshot called).trans (gone rfl rfl)) .still
  | reportPlugins =>
    cases called
    exact strides_of found (fun _ _ => rfl) (gone rfl rfl) .still

/-- **Every step of the daemon is a stride.** -/
theorem step_strides (sound : Sound (view s)) (stepped : Server.step s e = some t) :
    Strides s e t := by
  cases e with
  | dispatch id w =>
    simp only [Server.step] at stepped
    split at stepped
    · cases stepped
    · obtain ⟨source, found, called⟩ := Option.bind_eq_some_iff.mp stepped
      exact dispatch_strides sound found called
  | request path body form time =>
    simp only [Server.step] at stepped
    split at stepped
    · cases stepped
    · exact request_strides stepped

end Restraint.TaskSteps

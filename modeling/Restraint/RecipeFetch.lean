import Restraint.ActivationProofs

/-! The recipe is fetched, and fetched again when that fails, until it is there or
the retries are used up. It comes from a URL, or the first time from standard
input; only a URL can be fetched again. -/
namespace Restraint.RecipeFetch
open Transition
open Restraint.Harness Restraint.TaskMachine Restraint.TaskRefinement
open Restraint.Server (fetchCompleted restraintXmlParseFromUrl recipeHandler recipeHandlerFinish
  serverRecipeCallback)

/-- The daemon, with what came of the fetches of the recipe. -/
structure Retrieval where
  daemon : AppData
  /-- How often the recipe was fetched. -/
  attempts : Nat
  failures : Nat
  /-- `recipe_parse` gave no recipe. -/
  unparsed : Bool
  /-- `recipe_handler` printed the error. -/
  reported : Bool

/-- The answers of the world if an event is a step of `recipe_handler`. -/
def recipeHandled (s : AppData) : Server.Event → Option World
  | .dispatch id w => if s.loop.find? id = some .recipeHandler then some w else none
  | .request .. => none

/-- `recipe_handler` fetches the recipe. -/
def fetchStarts (s : AppData) (e : Server.Event) : Bool :=
  (recipeHandled s e).any fun w => s.state = .fetch && (s.stdin || w.healthy)

/-- `fetch_completed` is called with an error. -/
def fetchFails (s : AppData) (e : Server.Event) : Bool :=
  match e with
  | .dispatch id w =>
    w.error.isSome &&
      (s.loop.find? id = some .recipeFetch || fetchStarts s e && s.recipeUrl && w.synchronous)
  | .request .. => false

/-- `recipe_handler` gets no recipe from `recipe_parse`. -/
def parseFails (s : AppData) (e : Server.Event) : Bool :=
  (recipeHandled s e).any fun w =>
    s.state = .parse && (!s.recipeXmldoc || s.error || w.recipe.isNone)

/-- `recipe_handler` prints the error of the recipe. -/
def reportsError (s : AppData) (e : Server.Event) : Bool :=
  (recipeHandled s e).any fun _ => s.state = .complete && s.error

def step (r : Retrieval) (e : Server.Event) : Option Retrieval :=
  (Server.step r.daemon e).map fun t =>
    { daemon := t
      attempts := r.attempts + (fetchStarts r.daemon e).toNat
      failures := r.failures + (fetchFails r.daemon e).toNat
      unparsed := r.unparsed || parseFails r.daemon e
      reported := r.reported || reportsError r.daemon e }

/-- From standard input the recipe is read before the main loop runs. -/
def start (stdin : Bool) (config : CString.Text → Section) : Retrieval where
  daemon := Server.start stdin config
  attempts := stdin.toNat
  failures := 0
  unparsed := false
  reported := false

/-- The recipe is being fetched, or will be; there are not too many attempts, and
the last failure ends with an error that is reported. -/
structure Progress (r : Retrieval) : Prop where
  outstanding : r.daemon.state = .fetching → r.daemon.loop.kinds fetches ≠ []
  bounded : r.attempts ≤ RECIPE_FETCH_RETRIES + 1
  failed : RECIPE_FETCH_RETRIES < r.failures ∨ r.unparsed = true →
    r.daemon.state = .complete ∧ r.daemon.error = true ∨ r.daemon.state = .idle ∧ r.reported = true

/-- `recipe_handler` fetches only what has a URL, and parses only a document. -/
def sourced (r : Retrieval) (e : Server.Event) : Prop :=
  ∀ w ∈ recipeHandled r.daemon e,
    (r.daemon.state = .fetch → r.daemon.stdin || w.healthy → r.daemon.recipeUrl = true) ∧
      (r.daemon.state = .parse → r.daemon.recipeXmldoc = true)

instance (r : Retrieval) (e : Server.Event) : Decidable (sourced r e) := by
  unfold sourced
  infer_instance

/-- How far the fetches have come, by the state of the recipe. -/
def Stage (r : Retrieval) : Prop :=
  match r.daemon.state with
  | .fetch => r.daemon.error = false ∧ r.unparsed = false ∧ r.daemon.fetchRetries = r.failures ∧
      r.failures ≤ RECIPE_FETCH_RETRIES ∧ r.attempts = r.failures
  | .fetching => r.daemon.error = false ∧ r.unparsed = false ∧ r.daemon.fetchRetries = r.failures ∧
      r.failures ≤ RECIPE_FETCH_RETRIES ∧
      (r.daemon.loop.kinds fetches = [.recipeFetch] ∧ r.attempts = r.failures + 1 ∨
        r.daemon.loop.kinds fetches = [.recipeFetchRetry] ∧ r.attempts = r.failures)
  | .parse => r.daemon.error = false ∧ r.unparsed = false ∧
      r.failures ≤ RECIPE_FETCH_RETRIES ∧ r.attempts = r.failures + 1
  | .complete => r.attempts ≤ RECIPE_FETCH_RETRIES + 1 ∧
      (r.daemon.error = true ∨ r.unparsed = false ∧ r.failures ≤ RECIPE_FETCH_RETRIES)
  | .idle => r.attempts ≤ RECIPE_FETCH_RETRIES + 1 ∧
      (r.reported = true ∨ r.unparsed = false ∧ r.failures ≤ RECIPE_FETCH_RETRIES)
  | .run | .running | .fail => r.attempts ≤ RECIPE_FETCH_RETRIES + 1 ∧ r.unparsed = false ∧
      r.failures ≤ RECIPE_FETCH_RETRIES

variable {r : Retrieval} {s t : AppData} {w : World} {id : Nat} {e : Server.Event} {source : Source}

theorem Stage.progress (stage : Stage r) : Progress r := by
  unfold Stage at stage
  split at stage
  case h_2 state =>
    obtain ⟨-, parsed, -, few, sources⟩ := stage
    refine ⟨fun _ => ?_, ?_, ?_⟩
    · rcases sources with ⟨only, -⟩ | ⟨only, -⟩ <;> simp [only]
    · rcases sources with ⟨-, count⟩ | ⟨-, count⟩ <;> omega
    · simp [parsed]
      omega
  case h_4 state =>
    refine ⟨by simp [state], stage.1, fun failed => .inl ⟨state, ?_⟩⟩
    rcases stage.2 with error | ⟨parsed, few⟩
    · exact error
    · simp [parsed] at failed
      omega
  case h_5 state =>
    refine ⟨by simp [state], stage.1, fun failed => .inr ⟨state, ?_⟩⟩
    rcases stage.2 with reported | ⟨parsed, few⟩
    · exact reported
    · simp [parsed] at failed
      omega
  all_goals
    rename_i state
    refine ⟨by simp [state], ?_, ?_⟩
    · omega
    · simp only [stage, Bool.false_eq_true, or_false]
      omega

/-- Nothing of the recipe's retrieval is changed. -/
structure Still (s t : AppData) : Prop where
  state : t.state = s.state
  error : t.error = s.error
  retries : t.fetchRetries = s.fetchRetries
  sources : t.loop.kinds fetches = s.loop.kinds fetches

theorem Stage.still (stage : Stage r) (still : Still r.daemon t) :
    Stage { r with daemon := t } := by
  unfold Stage at stage ⊢
  simp only [still.state, still.error, still.retries, still.sources]
  exact stage

/-- A fetch of the recipe is over. -/
theorem fetchCompleted_stage (state : s.state = .fetching) (error : s.error = false)
    (count : s.fetchRetries = r.failures) (few : r.failures ≤ RECIPE_FETCH_RETRIES)
    (quiet : s.loop.kinds fetches = []) (parsed : r.unparsed = false) :
    Stage { r with
      daemon := fetchCompleted s w
      attempts := r.failures + 1
      failures := r.failures + w.error.isSome.toNat } := by
  unfold fetchCompleted
  cases failed : w.error with
  | none => exact ⟨error, parsed, few, rfl⟩
  | some code =>
    dsimp only [Option.isSome_some, Bool.toNat_true]
    split
    case isTrue again =>
      have sources : (s.loop.add .recipeFetchRetry).kinds fetches = [.recipeFetchRetry] := by
        simp [quiet, fetches]
      simp only [Stage, attach, state]
      exact ⟨error, parsed, by omega, by omega, .inr ⟨sources, trivial⟩⟩
    case isFalse last => exact ⟨by dsimp only; omega, .inl rfl⟩

private theorem handled_of (found : s.loop.find? id = some .recipeHandler) :
    recipeHandled s (.dispatch id w) = some w := by simp [recipeHandled, found]

private theorem not_handled (found : s.loop.find? id = some source) (other : source ≠ .recipeHandler) :
    recipeHandled s (.dispatch id w) = none := by simp [recipeHandled, found, other]

/-- A fetch that `recipe_handler` starts with a URL. -/
theorem fetch_stage (fetch : r.daemon.state = .fetch) (sound : Sound (view r.daemon))
    (url : r.daemon.recipeUrl = true) (stage : Stage r) :
    Stage { r with
      daemon := restraintXmlParseFromUrl { r.daemon with state := .fetching } w
      attempts := r.attempts + 1
      failures := r.failures + (w.error.isSome && w.synchronous).toNat } := by
  have quiet := quiet_of sound (by simp [fetch])
  simp only [Stage, fetch] at stage
  obtain ⟨error, parsed, count, few, same⟩ := stage
  simp only [restraintXmlParseFromUrl, url, Bool.true_eq_false, if_false, same]
  split
  case isTrue synchronous =>
    rw [synchronous, Bool.and_true]
    exact fetchCompleted_stage rfl error count few quiet parsed
  case isFalse later =>
    have later : w.synchronous = false := by simpa using later
    have sources : (r.daemon.loop.add .recipeFetch).kinds fetches = [.recipeFetch] := by
      simp [quiet, fetches]
    simp only [later, Bool.and_false, Bool.toNat_false, Nat.add_zero, Stage, attach]
    exact ⟨error, parsed, count, few, .inl ⟨sources, trivial⟩⟩

/-- The retrieval after a step of `recipe_handler` in this state. -/
theorem handled_step (found : r.daemon.loop.find? id = some .recipeHandler) {next : Retrieval}
    (stepped : step r (.dispatch id w) = some next) :
    next = { daemon := if (recipeHandler r.daemon w).2 then (recipeHandler r.daemon w).1
               else recipeHandlerFinish { (recipeHandler r.daemon w).1 with
                 loop := (recipeHandler r.daemon w).1.loop.remove id }
             attempts := r.attempts + (r.daemon.state = .fetch && (r.daemon.stdin || w.healthy)).toNat
             failures := r.failures + (w.error.isSome && (r.daemon.state = .fetch &&
               (r.daemon.stdin || w.healthy) && r.daemon.recipeUrl && w.synchronous)).toNat
             unparsed := r.unparsed || r.daemon.state = .parse &&
               (!r.daemon.recipeXmldoc || r.daemon.error || w.recipe.isNone)
             reported := r.reported || r.daemon.state = .complete && r.daemon.error } := by
  obtain ⟨t, taken, rfl⟩ := Option.map_eq_some_iff.mp stepped
  simp only [Server.step] at taken
  split at taken
  · cases taken
  · simp only [found, Option.bind_some, Server.dispatch, Option.some.injEq] at taken
    subst taken
    simp [fetchStarts, fetchFails, parseFails, reportsError, recipeHandled, found]

/-- `recipe_handler` brings the fetches to their next stage. -/
theorem recipeHandler_stage (found : r.daemon.loop.find? id = some .recipeHandler)
    (sound : Sound (view r.daemon)) (stage : Stage r) (permitted : sourced r (.dispatch id w))
    {next : Retrieval} (stepped : step r (.dispatch id w) = some next) : Stage next := by
  obtain ⟨url, document⟩ := permitted w (handled_of found)
  rw [handled_step found stepped]
  cases state : r.daemon.state with
  | fetch =>
    by_cases due : (r.daemon.stdin || w.healthy) = true
    · have fetched := fetch_stage (w := w) state sound (url state due) stage
      have go : (!r.daemon.stdin && !w.healthy) = false := by
        cases stdin : r.daemon.stdin <;> simp_all
      simpa [recipeHandler, state, due, go, url state due] using fetched
    · have wait : (!r.daemon.stdin && !w.healthy) = true := by simpa using due
      simpa [recipeHandler, state, due, wait] using stage
  | parse =>
    simp only [Stage, state] at stage
    obtain ⟨error, parsed, few, same⟩ := stage
    cases recipe : w.recipe with
    | none =>
      simp only [recipeHandler, state, document state, error, recipe, Stage]
      simp [same]
      omega
    | some recipe =>
      simp only [recipeHandler, state, document state, error, recipe, Stage]
      simp [same, parsed]
      omega
  | run =>
    simpa [recipeHandler, state, attach, Stage] using stage
  | running =>
    simpa [recipeHandler, recipeHandlerFinish, state, Stage] using stage
  | complete =>
    simp only [Stage, state] at stage
    have ended : r.attempts ≤ RECIPE_FETCH_RETRIES + 1 ∧ (r.reported = true ∨ r.daemon.error = true ∨
        r.unparsed = false ∧ r.failures ≤ RECIPE_FETCH_RETRIES) := ⟨stage.1, .inr stage.2⟩
    simpa [recipeHandler, recipeHandlerFinish, state, Stage, or_assoc] using ended
  | idle => simpa [recipeHandler, state] using stage
  | fetching => simpa [recipeHandler, state] using stage
  | fail => simpa [recipeHandler, state] using stage

/-- What is not `recipe_handler` nor the end of a fetch counts nothing. -/
theorem quiet_step (apart : recipeHandled r.daemon e = none)
    (notFetch : fetchFails r.daemon e = false) {next : Retrieval} (stepped : step r e = some next) :
    ∃ t, Server.step r.daemon e = some t ∧ next = { r with daemon := t } := by
  obtain ⟨t, taken, rfl⟩ := Option.map_eq_some_iff.mp stepped
  refine ⟨t, taken, ?_⟩
  simp [fetchStarts, parseFails, reportsError, apart, notFetch]

theorem serverMsgComplete_still {results noPlugins : Bool}
    (called : Server.serverMsgComplete s results noPlugins = some t) : Still s t := by
  unfold Server.serverMsgComplete at called
  split at called
  · cases called
  · split at called
    · split at called
      · cases called
        exact ⟨rfl, rfl, rfl, by simp [attach, fetches]⟩
      · cases called
    · cases called
      exact ⟨rfl, rfl, rfl, rfl⟩

theorem request_still {path body : CString.Text} {form : List (CString.Text × CString.Text)}
    {time : Nat} (called : serverRecipeCallback s path body form time = some t) : Still s t := by
  unfold serverRecipeCallback at called
  split at called
  · cases called
    exact ⟨rfl, rfl, rfl, rfl⟩
  split at called
  · cases called
  split at called
  · obtain rfl := Option.some.inj called
    exact ⟨rfl, rfl, rfl, by simp [attach, fetches]⟩
  split at called
  · obtain rfl := Option.some.inj called
    exact ⟨rfl, rfl, rfl, by simp [attach, fetches]⟩
  split at called
  · obtain ⟨metadata, -, rfl⟩ := Option.map_eq_some_iff.mp called
    exact ⟨rfl, rfl, rfl, by simp [attach, fetches]⟩
  split at called
  · obtain ⟨recipeId, -, accepted⟩ := Option.bind_eq_some_iff.mp called
    obtain ⟨level, -, rfl⟩ := Option.map_eq_some_iff.mp accepted
    cases level <;> exact ⟨rfl, rfl, rfl, rfl⟩
  · cases called
    exact ⟨rfl, rfl, rfl, rfl⟩

/-- While there are tasks the recipe stays, or it is complete. -/
theorem turn_recipe {m n : Machine} {a : Act} (sound : Sound m) (turn : Turn a m n)
    (current : m.tasks ≠ []) (started : m.recipe ≠ .run) :
    n.recipe = m.recipe ∨ n.recipe = .complete := by
  obtain ⟨there, notOver, -⟩ := sound.under_way current
  cases turn with
  | retrieve before => rw [there] at before; cases before
  | parse parsed => rw [parsed] at there; cases there
  | launch ready => exact absurd ready started
  | finish => exact .inr rfl
  | close complete => exact absurd complete notOver
  | _ => exact .inl rfl

/-- The stages at which the tasks are taken. -/
theorem Stage.under_way (stage : Stage r) (there : early r.daemon.state = false)
    (notOver : r.daemon.state ≠ .complete) (notIdle : r.daemon.state ≠ .idle) :
    r.attempts ≤ RECIPE_FETCH_RETRIES + 1 ∧ r.unparsed = false ∧
      r.failures ≤ RECIPE_FETCH_RETRIES := by
  unfold Stage at stage
  split at stage <;> simp_all [early]

/-- A step of the task machine leaves what came of the fetches. -/
theorem activation_stage (found : r.daemon.loop.find? id = some source)
    (kind : activates source = true) (sound : Sound (view r.daemon)) (stage : Stage r)
    (stepped : Server.step r.daemon (.dispatch id w) = some t) : Stage { r with daemon := t } := by
  have started := sound.started (List.ne_nil_of_mem (MainLoop.mem_kinds found kind))
  by_cases none : r.daemon.tasks = []
  · obtain rfl := sound.empty (by simp [view, none]) source (MainLoop.mem_kinds found kind)
    apply stage.still
    simp only [Server.step] at stepped
    split at stepped
    · cases stepped
    · simp only [found, Option.bind_some, Server.dispatch, TaskHandler.taskHandler, none,
        Option.map_some, Bool.false_eq_true, if_false, Option.some.injEq] at stepped
      subst stepped
      exact ⟨rfl, rfl, rfl, MainLoop.kinds_remove_other found rfl⟩
  · have current : (view r.daemon).tasks ≠ [] := by simpa [view] using none
    obtain ⟨there, notOver, notIdle⟩ := sound.under_way current
    have way := stage.under_way there notOver notIdle
    have turn := step_turn sound stepped
    rcases turn_recipe sound turn current started.2 with same | ended
    · have same : t.state = r.daemon.state := same
      have ready : r.daemon.state ≠ .run := started.2
      unfold Stage at stage ⊢
      simp only [same]
      split <;> simp_all [view, early]
    · have ended : t.state = .complete := ended
      simp only [Stage, ended]
      exact ⟨way.1, .inr way.2⟩

/-- A fetch that is ended, or its retry. -/
theorem retrieved_stage (found : r.daemon.loop.find? id = some source)
    (kind : fetches source = true) (sound : Sound (view r.daemon)) (stage : Stage r)
    {next : Retrieval} (stepped : step r (.dispatch id w) = some next) : Stage next := by
  obtain ⟨fetching, gone⟩ := retrieving sound found kind
  have only := MainLoop.kinds_single found kind sound.alone
  have apart : recipeHandled r.daemon (.dispatch id w) = none :=
    not_handled found (by rintro rfl; cases kind)
  simp only [Stage, fetching] at stage
  obtain ⟨error, parsed, count, few, sources⟩ := stage
  obtain ⟨t, taken, rfl⟩ := Option.map_eq_some_iff.mp stepped
  simp only [Server.step] at taken
  split at taken
  · cases taken
  simp only [found, Option.bind_some] at taken
  rw [only] at sources
  cases source with
  | recipeFetch =>
    have attempts : r.attempts = r.failures + 1 := by simpa using sources
    cases taken
    have ended := fetchCompleted_stage (r := r) (w := w) (s := { r.daemon with loop := r.daemon.loop.remove id })
      fetching error count few gone parsed
    simpa [fetchStarts, fetchFails, parseFails, reportsError, apart, found, attempts, parsed] using ended
  | recipeFetchRetry =>
    have attempts : r.attempts = r.failures := by simpa using sources
    cases taken
    have fails : fetchFails r.daemon (.dispatch id w) = false := by
      simp [fetchFails, fetchStarts, apart, found]
    simp [Stage, fetchStarts, fails, parseFails, apart, attempts, parsed, count, few]
  | _ => cases kind

/-- A step keeps the stage, as long as the recipe has a source. -/
theorem step_stage (sound : Sound (view r.daemon)) (stage : Stage r) (permitted : sourced r e)
    {next : Retrieval} (stepped : step r e = some next) : Stage next := by
  cases e with
  | request path body form time =>
    obtain ⟨t, taken, rfl⟩ := quiet_step rfl rfl stepped
    simp only [Server.step] at taken
    split at taken
    · cases taken
    · exact stage.still (request_still taken)
  | dispatch id w =>
    cases found : r.daemon.loop.find? id with
    | none =>
      obtain ⟨t, taken, rfl⟩ := Option.map_eq_some_iff.mp stepped
      simp [Server.step, found] at taken
    | some source =>
      by_cases handler : source = .recipeHandler
      · subst handler
        exact recipeHandler_stage found sound stage permitted stepped
      by_cases fetch : fetches source = true
      · exact retrieved_stage found fetch sound stage stepped
      have apart := not_handled (w := w) found handler
      have notFetch : fetchFails r.daemon (.dispatch id w) = false := by
        have other : source ≠ .recipeFetch := by rintro rfl; exact fetch rfl
        simp [fetchFails, fetchStarts, apart, found, other]
      obtain ⟨t, taken, rfl⟩ := quiet_step apart notFetch stepped
      by_cases active : activates source = true
      · exact activation_stage found active sound stage taken
      apply stage.still
      have gone := MainLoop.kinds_remove_other found (p := fetches) (by simpa using fetch)
      simp only [Server.step] at taken
      split at taken
      · cases taken
      simp only [found, Option.bind_some] at taken
      cases source with
      | serverMessage results noPlugins =>
        have still := serverMsgComplete_still taken
        exact ⟨still.state, still.error, still.retries, still.sources.trans gone⟩
      | reportPlugins =>
        cases taken
        exact ⟨rfl, rfl, rfl, gone⟩
      | recipeHandler => exact absurd rfl handler
      | recipeFetch => exact absurd rfl fetch
      | recipeFetchRetry => exact absurd rfl fetch
      | _ => exact absurd rfl active

theorem step_sound (sound : Sound (view r.daemon)) {next : Retrieval} (stepped : step r e = some next) :
    Sound (view next.daemon) := by
  obtain ⟨t, taken, rfl⟩ := Option.map_eq_some_iff.mp stepped
  exact turn_sound sound (step_turn sound taken)

/-- Without a source the recipe is not fetched, or its failure is not reported. -/
theorem unsourced_breaks (sound : Sound (view r.daemon)) (stage : Stage r)
    (forbidden : ¬sourced r e) {next : Retrieval} (stepped : step r e = some next) :
    ¬Progress next := by
  intro progress
  simp only [sourced, not_forall] at forbidden
  obtain ⟨w, handled, bad⟩ := forbidden
  cases e with
  | request => cases handled
  | dispatch id w' =>
    have found : r.daemon.loop.find? id = some .recipeHandler := by
      by_contra other
      simp [recipeHandled, other] at handled
    obtain rfl : w' = w := by simpa [recipeHandled, found] using handled
    rw [handled_step found stepped] at progress
    rcases not_and_or.mp bad with bad | bad
    · obtain ⟨fetch, due, url⟩ : r.daemon.state = .fetch ∧ (r.daemon.stdin || w'.healthy) = true ∧
          r.daemon.recipeUrl = false := by simpa using bad
      have go : (!r.daemon.stdin && !w'.healthy) = false := by
        cases stdin : r.daemon.stdin <;> simp_all
      have quiet := quiet_of sound (by simp [fetch])
      refine progress.outstanding ?_ ?_
      · simp [recipeHandler, fetch, go, restraintXmlParseFromUrl, url]
      · simpa [recipeHandler, fetch, go, restraintXmlParseFromUrl, url] using quiet
    · obtain ⟨parse, document⟩ : r.daemon.state = .parse ∧ r.daemon.recipeXmldoc = false := by
        simpa using bad
      simp only [Stage, parse] at stage
      have failed := progress.failed
      simp [recipeHandler, parse, document, stage.1] at failed

/-- **The recipe is fetched until it is there or the retries are used up, and its
failure is reported, exactly as long as it has a source**: it is not fetched again
after it was read from standard input, and what was read is not empty. -/
theorem recipe_fetch_progress {stdin : Bool} {config : CString.Text → Section}
    {events : List Server.Event} (ran : run step (start stdin config) events = some r) :
    (∀ before after middle, events = before ++ after →
        run step (start stdin config) before = some middle → Progress middle) ↔
      run (only step sourced) (start stdin config) events = some r := by
  refine always_iff_only (I := fun r => Sound (view r.daemon) ∧ Stage r)
    (fun r invariant => invariant.2.progress) ⟨start_sound, ?_⟩ ?_ ?_ ran
  · cases stdin <;> simp [Stage, start, Server.start, fetches]
  · rintro r e next ⟨sound, stage⟩ permitted stepped
    exact ⟨step_sound sound stepped, step_stage sound stage permitted stepped⟩
  · rintro r e next ⟨sound, stage⟩ forbidden stepped
    exact unsourced_breaks sound stage forbidden stepped

open ActivationProofs (calm)

/-- Every fetch fails, and the recipe has a URL. -/
def fetchesFail : List Server.Event :=
  (List.range (RECIPE_FETCH_RETRIES + 1)).flatMap fun n =>
    [.dispatch 1 (calm []), .dispatch (2 * n + 2) { calm [] with error := some 1 }] ++
      if n < RECIPE_FETCH_RETRIES then [.dispatch (2 * n + 3) (calm [])] else []

theorem recipe_fetch_progress_exhausted :
    ∃ r, run step (start false fun _ => .empty) fetchesFail = some r ∧ Progress r ∧
      r.attempts = 13 ∧ r.daemon.state = .complete ∧ r.daemon.error = true := by
  have restricted : (run (only step sourced) (start false fun _ => .empty) fetchesFail).map (fun r =>
      (r.attempts, r.daemon.state, r.daemon.error)) = some (13, .complete, true) := by
    decide +kernel
  obtain ⟨r, restricted, shown⟩ := Option.map_eq_some_iff.mp restricted
  have ran := run_of_only restricted
  have always := (recipe_fetch_progress ran).mpr restricted
  simp only [Prod.mk.injEq] at shown
  exact ⟨r, ran, always _ [] r (List.append_nil _).symm ran, shown⟩

/-- A job that cannot be read from standard input is never fetched again, and an
empty one ends without an error. -/
theorem recipe_fetch_stuck :
    (∃ r, run step (start true fun _ => .empty) [.dispatch 1 { calm [] with error := some 1 },
        .dispatch 3 (calm []), .dispatch 2 (calm [])] = some r ∧
      r.daemon.state = .fetching ∧ r.daemon.loop.kinds fetches = []) ∧
    ∃ r, run step (start true fun _ => .empty) [.dispatch 1 { calm [] with document := false },
        .dispatch 2 { calm [] with recipe := none }] = some r ∧
      r.unparsed = true ∧ r.daemon.state = .complete ∧ r.daemon.error = false := by
  constructor
  · have stuck : (run step (start true fun _ => .empty) [.dispatch 1 { calm [] with error := some 1 },
        .dispatch 3 (calm []), .dispatch 2 (calm [])]).map (fun r =>
        (r.daemon.state, r.daemon.loop.kinds fetches)) = some (.fetching, []) := by
      decide +kernel
    obtain ⟨r, ran, shown⟩ := Option.map_eq_some_iff.mp stuck
    exact ⟨r, ran, Prod.mk.inj shown⟩
  · have silent : (run step (start true fun _ => .empty) [.dispatch 1 { calm [] with document := false },
        .dispatch 2 { calm [] with recipe := none }]).map (fun r =>
        (r.unparsed, r.daemon.state, r.daemon.error)) = some (true, .complete, false) := by
      decide +kernel
    obtain ⟨r, ran, shown⟩ := Option.map_eq_some_iff.mp silent
    simp only [Prod.mk.injEq] at shown
    exact ⟨r, ran, shown⟩

end Restraint.RecipeFetch

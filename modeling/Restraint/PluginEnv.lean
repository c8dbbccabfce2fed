import Restraint.Lib.Trace
import Restraint.Overrun

/-! The environment of plugins. `build_env` leaves four empty slots behind the variables of a
task; `server_msg_complete` and `task_finish_callback` fill them in place, each in its own way,
and start the plugins with the array. -/
namespace Restraint.PluginEnv
open CString (Text)
open Transition
open Restraint.Overrun (pluginsDir)

/-- `task->env`; a process gets what stands before the first `NULL`. -/
abbrev EnvArray := List (Option Text)

/-- The end of `build_env`: four slots, and the end of the array. -/
def withSlots (base : List Text) : EnvArray := base.map some ++ List.replicate 5 none

/-- `pdata[len - k]` is replaced. -/
def replace (env : EnvArray) (k : Nat) (value : Text) : EnvArray := env.set (env.length - k) (some value)

/-- The variables a process is started with. -/
def environ (env : EnvArray) : List Text := (env.takeWhile Option.isSome).filterMap id

/-- A request that reports a result. -/
structure Report where
  /-- The form that its body decodes to. -/
  form : List (Text × Text)
  /-- The header `Location` of the response. -/
  location : Option Text
  deriving DecidableEq

def Report.noPlugins (report : Report) : Bool := (report.form.lookup "no_plugins".toList).isSome

def Report.disablePlugin (report : Report) : Option Text := report.form.lookup "disable_plugin".toList

def resultUrl (report : Report) : Text :=
  "RSTRNT_RESULT_URL=".toList ++ report.location.getD "(null)".toList

def reportDir : Text := "RSTRNT_PLUGINS_DIR=/usr/share/restraint/plugins/report_result.d".toList

def noPlugins : Text := "RSTRNT_NOPLUGINS=1".toList

def disabled (plugins : Text) : Text := "RSTRNT_DISABLED=".toList ++ plugins

def localwatchdogVar (localwatchdog : Bool) : Text :=
  ("RSTRNT_LOCALWATCHDOG=" ++ if localwatchdog then "TRUE" else "FALSE").toList

/-- `server_msg_complete` for a report whose plugins are run. -/
def serverMsgComplete (env : EnvArray) (report : Report) : EnvArray :=
  let env := replace env 5 (resultUrl report)
  let env := replace env 4 reportDir
  let env := replace env 3 noPlugins
  match report.disablePlugin with
  | some plugins => replace env 2 (disabled plugins)
  | none => env

/-- `task_finish_callback`. -/
def taskFinishCallback (env : EnvArray) (localwatchdog : Bool) : EnvArray :=
  let env := replace env 5 (pluginsDir localwatchdog)
  let env := replace env 4 noPlugins
  replace env 3 (localwatchdogVar localwatchdog)

inductive Event where
  | report (report : Report)
  /-- The entry point has ended; the completed plugins are run. -/
  | finish (localwatchdog : Bool)
  deriving DecidableEq

/-- The array with which the plugins of an event are started. -/
def started (env : EnvArray) : Event → Option EnvArray
  | .report report => if report.noPlugins then none else some (serverMsgComplete env report)
  | .finish localwatchdog => some (taskFinishCallback env localwatchdog)

/-- The array is left as the plugins got it. -/
def step : Step EnvArray Event := fun env event => some ((started env event).getD env)

/-- The environments of the plugins, in order. -/
def environs (base : List Text) (events : List Event) : List (List Text) :=
  trace step (fun env event => (started env event).map environ) (withSlots base) events

/-- A task that reports some results and then ends. -/
def reported (reports : List Report) (localwatchdog : Bool) : List Event :=
  reports.map .report ++ [.finish localwatchdog]

/-- The environment that an event alone gives. -/
def own (base : List Text) : Event → Option (List Text)
  | .report report =>
    if report.noPlugins then none
    else some (base ++ [resultUrl report, reportDir, noPlugins] ++
      (report.disablePlugin.map disabled).toList)
  | .finish localwatchdog =>
    some (base ++ [pluginsDir localwatchdog, noPlugins, localwatchdogVar localwatchdog])

/-- The array with something in its slots. -/
def slots (base : List Text) (first second third fourth : Option Text) : EnvArray :=
  base.map some ++ [first, second, third, fourth, none]

variable {base : List Text} {first second third fourth : Option Text} {value : Text}
  {env : EnvArray} {reports : List Report} {report : Report} {event : Event} {events : List Event}

/-! ## The slots -/

@[simp] theorem replace_first : replace (slots base first second third fourth) 5 value =
    slots base (some value) second third fourth := by
  simp [replace, slots]

@[simp] theorem replace_second : replace (slots base first second third fourth) 4 value =
    slots base first (some value) third fourth := by
  simp [replace, slots]

@[simp] theorem replace_third : replace (slots base first second third fourth) 3 value =
    slots base first second (some value) fourth := by
  simp [replace, slots]

@[simp] theorem replace_fourth : replace (slots base first second third fourth) 2 value =
    slots base first second third (some value) := by
  simp [replace, slots]

private theorem environ_slots {a b c : Text} : environ (slots base (some a) (some b) (some c) fourth) =
    base ++ [a, b, c] ++ fourth.toList := by
  have whole : ∀ entry ∈ base.map some, entry.isSome = true := by simp
  have same : (base.map some).filterMap id = base := by simp [List.filterMap_map]
  rw [environ, slots, List.takeWhile_append_of_pos whole, List.filterMap_append, same]
  cases fourth <;> simp

/-! ## Histories -/

/-- The report runs plugins and disables some of them. -/
def Disables (report : Report) : Prop := report.noPlugins = false ∧ report.disablePlugin.isSome

/-- What an event leaves in the last slot. -/
def carry (fourth : Option Text) : Event → Option Text
  | .report report =>
    if report.noPlugins then fourth else report.disablePlugin.map disabled <|> fourth
  | .finish _ => fourth

private theorem step_slots : ∃ a b c, step (slots base first second third fourth) event =
    some (slots base a b c (carry fourth event)) := by
  cases event with
  | report report =>
    cases plugins : report.noPlugins with
    | true => exact ⟨first, second, third, by simp [step, started, carry, plugins]⟩
    | false =>
      refine ⟨some (resultUrl report), some reportDir, some noPlugins, ?_⟩
      cases disable : report.disablePlugin <;>
        simp [step, started, carry, serverMsgComplete, plugins, disable]
  | finish localwatchdog =>
    exact ⟨some (pluginsDir localwatchdog), some noPlugins, some (localwatchdogVar localwatchdog),
      by simp [step, started, carry, taskFinishCallback]⟩

private theorem run_slots : ∃ a b c, run step (slots base first second third fourth) events =
    some (slots base a b c (events.foldl carry fourth)) := by
  induction events generalizing first second third fourth with
  | nil => exact ⟨first, second, third, rfl⟩
  | cons event events ih =>
    obtain ⟨a, b, c, taken⟩ := step_slots
    obtain ⟨a', b', c', ran⟩ := ih
    exact ⟨a', b', c', run_cons.mpr ⟨_, taken, ran⟩⟩

/-- What is in the last slot stays, unless it is replaced. -/
theorem carry_isSome (held : fourth.isSome) : (carry fourth event).isSome := by
  cases event with
  | report report =>
    simp only [carry]
    split
    · exact held
    · cases report.disablePlugin with
      | none => exact held
      | some plugins => rfl
  | finish localwatchdog => exact held

private theorem foldl_carry_isSome (held : fourth.isSome) : (events.foldl carry fourth).isSome := by
  induction events generalizing fourth with
  | nil => exact held
  | cons event events ih => exact ih (carry_isSome held)

private theorem disables_isSome (member : report ∈ reports) (disables : Disables report) :
    ((reports.map Event.report).foldl carry fourth).isSome := by
  induction reports generalizing fourth with
  | nil => cases member
  | cons first reports ih =>
    rw [List.map_cons, List.foldl_cons]
    rcases List.mem_cons.mp member with rfl | member
    · apply foldl_carry_isSome
      obtain ⟨plugins, given⟩ := Option.isSome_iff_exists.mp disables.2
      simp [carry, disables.1, given]
    · exact ih member

/-- As long as nothing was disabled, an event gives its own environment. -/
theorem started_own (clean : ∀ report, event = .report report → ¬Disables report) :
    (started (slots base first second third none) event).map environ = own base event ∧
      carry none event = none := by
  cases event with
  | report report =>
    have clean := clean report rfl
    cases plugins : report.noPlugins with
    | true => simp [started, own, carry, plugins]
    | false =>
      cases disable : report.disablePlugin with
      | none => simp [started, own, carry, serverMsgComplete, plugins, disable, environ_slots]
      | some value => exact absurd ⟨plugins, by rw [disable, Option.isSome_some]⟩ clean
  | finish localwatchdog => simp [started, own, carry, taskFinishCallback, environ_slots]

private theorem trace_own (clean : ∀ report, .report report ∈ events → ¬Disables report) :
    trace step (fun env event => (started env event).map environ)
      (slots base first second third none) events = events.filterMap (own base) := by
  induction events generalizing first second third with
  | nil => rfl
  | cons event events ih =>
    obtain ⟨here, empty⟩ : (started (slots base first second third none) event).map environ =
        own base event ∧ carry none event = none :=
      started_own fun report same => clean report (same ▸ List.mem_cons_self)
    obtain ⟨a, b, c, taken⟩ : ∃ a b c, step (slots base first second third none) event =
        some (slots base a b c (carry none event)) := step_slots
    rw [empty] at taken
    rw [trace_cons taken, here, ih fun report member => clean report (List.mem_cons_of_mem _ member),
      List.filterMap_cons]
    cases own base event <;> rfl

/-- **Every plugin gets an environment of its own report if and only if no report that runs
plugins disables some.** The plugins that a report disables stay disabled for the reports
after it and for the end of the task. -/
theorem environs_own (base : List Text) (reports : List Report) (localwatchdog : Bool) :
    environs base (reported reports localwatchdog) =
        (reported reports localwatchdog).filterMap (own base) ↔
      ∀ report ∈ reports, report.noPlugins = false → report.disablePlugin = none := by
  constructor
  · intro same report member plugins
    by_contra given
    have disables : Disables report := ⟨plugins, Option.ne_none_iff_isSome.mp given⟩
    obtain ⟨a, b, c, ran⟩ : ∃ a b c, run step (withSlots base) (reports.map .report) =
        some (slots base a b c ((reports.map Event.report).foldl carry none)) := run_slots
    obtain ⟨left, held⟩ : ∃ left, (reports.map Event.report).foldl carry none = some left :=
      Option.isSome_iff_exists.mp (disables_isSome member disables)
    rw [held] at ran
    -- the environment of the completed plugins has one variable more than it should
    rw [environs, reported, trace_append ran, List.filterMap_append] at same
    rw [trace_cons rfl, trace_nil, List.append_nil] at same
    have last := List.append_inj_right' same rfl
    simp [started, own, taskFinishCallback, environ_slots] at last
  · intro clean
    apply trace_own
    intro report member
    rcases List.mem_append.mp member with member | member
    · obtain ⟨_, held, same⟩ := List.mem_map.mp member
      cases same
      rintro ⟨plugins, given⟩
      rw [clean _ held plugins] at given
      cases given
    · simp at member

/-- A report that disables a plugin. -/
def avcReport : Report where
  form := [("result".toList, "PASS".toList), ("disable_plugin".toList, "10_avc_check".toList)]
  location := some "http://localhost/recipes/1/tasks/1/results/1".toList

/-- The completed plugins run without the plugin that a report has disabled. -/
theorem environs_leak : environs ["HOME=/root".toList] (reported [avcReport] false) =
      [["HOME=/root".toList, "RSTRNT_RESULT_URL=http://localhost/recipes/1/tasks/1/results/1".toList,
          reportDir, noPlugins, "RSTRNT_DISABLED=10_avc_check".toList],
        ["HOME=/root".toList, pluginsDir false, noPlugins, "RSTRNT_LOCALWATCHDOG=FALSE".toList,
          "RSTRNT_DISABLED=10_avc_check".toList]] ∧
    (reported [avcReport] false).filterMap (own ["HOME=/root".toList]) ≠
      environs ["HOME=/root".toList] (reported [avcReport] false) := by decide +kernel

end Restraint.PluginEnv

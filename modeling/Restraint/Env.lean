import Restraint.Harness
import Restraint.Lib.Decimal
import Mathlib.Data.List.Perm.Basic

/-! The environment of a task: `build_env` of `env.c`. It is an array of texts `name=value` to which
variables are added one after the other; a parameter first removes the variables of its name. The
order in which variables are added decides which of two with one name a process sees. That order is
kept here as in the code; what follows from it for plugins and for overrides is proved in the
modules that import this one. -/
namespace Restraint.Env
open CString (Text)
open Restraint.Harness

/-- `Param`; a role is read as one, with its systems as the value. -/
structure Param where
  name : Text
  value : Text
  deriving DecidableEq

/-- What `build_env` reads besides the task of `Harness`. A value that is `NULL` is
not added. -/
structure Settings where
  envvars : List Param
  recipeRoles : List Param
  roles : List Param
  recipeParams : List Param
  params : List Param
  restraintUrl : Text
  recipeId : Text
  owner : Option Text
  jobId : Option Text
  recipeSetId : Option Text
  osdistro : Option Text
  osvariant : Option Text
  osmajor : Option Text
  osarch : Option Text
  name : Option Text
  path : Option Text
  order : Int
  deriving DecidableEq

def ENV_PREFIX : String := "RSTRNT_"

/-- `%d` and `%ld`. -/
def printInt (n : Int) : Text := if n < 0 then '-' :: Decimal.print n.natAbs else Decimal.print n.natAbs

/-- A variable as it stands in the array. -/
def assignment (name value : Text) : Text := name ++ '=' :: value

/-- The name of a variable: `g_strsplit (evar, "=", 2)[0]`. -/
def varname (evar : Text) : Text := evar.takeWhile (· ≠ '=')

/-- `g_ptr_array_remove_fast` at a place: the last element takes it. -/
def removeFast (env : List Text) (place : Nat) : List Text :=
  (env.set place (env.getLastD [])).dropLast

/-- `g_ptr_array_foreach` with `remove_env_var`, from a place on. An element that
takes the place of a removed one is not looked at. -/
def removeEnvVar (name : Text) : Nat → Nat → List Text → List Text
  | 0, _, env => env
  | fuel + 1, place, env =>
    match env[place]? with
    | none => env
    | some evar =>
      removeEnvVar name fuel (place + 1)
        (if varname evar = name then removeFast env place else env)

/-- `build_param_var`. -/
def buildParamVar (env : List Text) (param : Param) : List Text :=
  removeEnvVar param.name env.length 0 env ++ [assignment param.name param.value]

/-- `array_add`, with the prefix in the name. -/
def arrayAdd (env : List Text) (name : Text) (value : Option Text) : List Text :=
  match value with
  | some value => env ++ [assignment name value]
  | none => env

/-- `get_recipe_members`: the hosts of the roles, each once, the last one first. -/
def getRecipeMembers (hosts : List Text) (rolehosts : List Param) : List Text :=
  rolehosts.foldl (fun hosts param =>
    (if param.value = [] then [] else param.value.splitOn ' ').foldl (fun hosts host =>
      if host ∈ hosts then hosts else host :: hosts) hosts) hosts

/-- The variables that legacy tasks get besides the prefixed ones. -/
def legacyVariables (settings : Settings) (task : Task) : List (Text × Option Text) :=
  [("RESULT_SERVER".toList, some "LEGACY".toList),
    ("SUBMITTER".toList, settings.owner),
    ("JOBID".toList, settings.jobId),
    ("RECIPESETID".toList, settings.recipeSetId),
    ("RECIPEID".toList, some settings.recipeId),
    ("RECIPETESTID".toList, some task.taskId),
    ("TASKID".toList, some task.taskId),
    ("DISTRO".toList, settings.osdistro),
    ("VARIANT".toList, settings.osvariant),
    ("FAMILY".toList, settings.osmajor),
    ("ARCH".toList, settings.osarch),
    ("TESTNAME".toList, settings.name),
    ("TESTPATH".toList, settings.path),
    ("MAXTIME".toList, some (printInt task.remainingTime)),
    ("REBOOTCOUNT".toList, some (Decimal.print task.reboots)),
    ("TASKORDER".toList, some (printInt settings.order))]

def prefixed (name : String) : Text := ENV_PREFIX.toList ++ name.toList

/-- The variables that every task gets. -/
def taskVariables (settings : Settings) (task : Task) : List (Text × Option Text) :=
  [("TESTID".toList, some task.taskId),
    ("HARNESS_PREFIX".toList, some ENV_PREFIX.toList),
    (prefixed "RECIPE_URL", some (settings.restraintUrl ++ "/recipes/".toList ++ settings.recipeId)),
    (prefixed "OWNER", settings.owner),
    (prefixed "JOBID", settings.jobId),
    (prefixed "RECIPESETID", settings.recipeSetId),
    (prefixed "RECIPEID", some settings.recipeId),
    (prefixed "TASKID", some task.taskId),
    (prefixed "OSDISTRO", settings.osdistro),
    (prefixed "OSMAJOR", settings.osmajor),
    (prefixed "OSVARIANT", settings.osvariant),
    (prefixed "OSARCH", settings.osarch),
    (prefixed "TASKNAME", settings.name),
    (prefixed "TASKPATH", settings.path),
    (prefixed "MAXTIME", some (printInt task.remainingTime)),
    (prefixed "REBOOTCOUNT", some (Decimal.print task.reboots)),
    (prefixed "TASKORDER", some (printInt settings.order)),
    ("HOME".toList, some "/root".toList),
    ("TERM".toList, some "vt100".toList),
    ("LANG".toList, some "en_US.UTF-8".toList),
    ("PATH".toList, some "/usr/local/bin:/usr/bin:/bin:/usr/local/sbin:/usr/sbin:/sbin".toList)]

/-- `array_add` of one variable after the other. -/
def addAll (env : List Text) (entries : List (Text × Option Text)) : List Text :=
  entries.foldl (fun env entry => arrayAdd env entry.1 entry.2) env

/-- `build_env`, without the empty slots at the end. -/
def buildEnv (settings : Settings) (task : Task) : List Text :=
  let env := (settings.envvars ++ settings.recipeRoles ++ settings.roles).foldl buildParamVar []
  let members := getRecipeMembers (getRecipeMembers [] settings.recipeRoles) settings.roles
  let env := arrayAdd env "RECIPE_MEMBERS".toList (some ([' '].intercalate members))
  let env := if task.rhtsCompat then addAll env (legacyVariables settings task) else env
  let env := addAll env (taskVariables settings task)
  (settings.recipeParams ++ settings.params).foldl buildParamVar env

variable {env : List Text} {name : Text} {place fuel : Nat} {settings : Settings} {task : Task}

/-- The variables of a name. -/
def valuesOf (name : Text) (env : List Text) : List Text := env.filter fun evar => varname evar = name

theorem valuesOf_append {later : List Text} :
    valuesOf name (env ++ later) = valuesOf name env ++ valuesOf name later :=
  List.filter_append ..

theorem varname_assignment {value : Text} (plain : '=' ∉ name) :
    varname (assignment name value) = name := by
  unfold varname assignment
  rw [List.takeWhile_append_of_pos]
  · simp
  · intro c member
    have other : c ≠ '=' := fun same => plain (same ▸ member)
    simpa using other

/-- The array without the element at a place, in another order. -/
theorem removeFast_perm (inside : place < env.length) :
    (removeFast env place).Perm (env.eraseIdx place) := by
  have some : env ≠ [] := List.ne_nil_of_length_pos (by omega)
  obtain ⟨before, last, rfl⟩ : ∃ before last, env = before ++ [last] :=
    ⟨_, _, (List.dropLast_append_getLast some).symm⟩
  have moved : removeFast (before ++ [last]) place = ((before ++ [last]).set place last).dropLast := by
    simp [removeFast, List.getLastD_eq_getLast?]
  rw [moved]
  rcases Nat.lt_or_ge place before.length with early | late
  · rw [List.set_append_left _ _ early, List.dropLast_concat, List.eraseIdx_append_of_lt_length early]
    exact (List.set_perm_cons_eraseIdx early last).trans (List.perm_append_singleton _ _).symm
  · have place : place = before.length := by simp at inside; omega
    subst place
    rw [List.set_append_right _ _ (Nat.le_refl _), List.eraseIdx_append_of_length_le (Nat.le_refl _)]
    simp

/-- `remove_env_var` keeps the variables of other names. -/
theorem removeEnvVar_valuesOf {other : Text} (apart : other ≠ name) :
    (valuesOf name (removeEnvVar other fuel place env)).Perm (valuesOf name env) := by
  induction fuel generalizing place env with
  | zero => exact List.Perm.refl _
  | succ fuel ih =>
    unfold removeEnvVar
    split
    · exact List.Perm.refl _
    · rename_i evar here
      apply ih.trans
      split
      · rename_i own
        obtain ⟨inside, rfl⟩ := List.getElem?_eq_some_iff.mp here
        have removed := ((removeFast_perm inside).cons env[place]).trans (List.getElem_cons_eraseIdx_perm inside)
        have kept := removed.filter fun evar => varname evar = name
        rwa [List.filter_cons_of_neg (by simpa [own] using apart)] at kept
      · exact List.Perm.refl _

/-- No parameter sets a variable of this name. -/
def unset (name : Text) (params : List Param) : Prop :=
  ∀ param ∈ params, param.name ≠ name ∧ varname (assignment param.name param.value) ≠ name

instance (params : List Param) : Decidable (unset name params) := by
  unfold unset
  infer_instance

/-- Parameters keep the variables of other names. -/
theorem buildParamVar_valuesOf {params : List Param} (other : unset name params) :
    (valuesOf name (params.foldl buildParamVar env)).Perm (valuesOf name env) := by
  induction params generalizing env with
  | nil => exact List.Perm.refl _
  | cons param params ih =>
    obtain ⟨apart, varies⟩ := other param List.mem_cons_self
    refine (ih fun param member => other param (List.mem_cons_of_mem _ member)).trans ?_
    rw [buildParamVar, valuesOf_append, valuesOf, valuesOf, List.filter_cons_of_neg (by simpa using varies),
      List.filter_nil, List.append_nil]
    exact removeEnvVar_valuesOf apart

/-- The variables that have a value, as they stand in the array. -/
def assigned (entries : List (Text × Option Text)) : List Text :=
  entries.filterMap fun entry => entry.2.map (assignment entry.1)

theorem addAll_eq {entries : List (Text × Option Text)} : addAll env entries = env ++ assigned entries := by
  unfold addAll assigned
  induction entries generalizing env with
  | nil => simp
  | cons entry entries ih =>
    obtain ⟨name, value⟩ := entry
    rw [List.foldl_cons, ih]
    cases value <;> simp [arrayAdd]

theorem valuesOf_assigned {entries : List (Text × Option Text)} (plain : ∀ entry ∈ entries, '=' ∉ entry.1) :
    valuesOf name (assigned entries) = assigned (entries.filter fun entry => entry.1 = name) := by
  induction entries with
  | nil => rfl
  | cons entry entries ih =>
    obtain ⟨first, value⟩ := entry
    have ih := ih fun entry member => plain entry (List.mem_cons_of_mem _ member)
    have named (value : Text) : varname (assignment first value) = first :=
      varname_assignment (plain _ List.mem_cons_self)
    unfold valuesOf assigned at ih ⊢
    rw [List.filterMap_cons, List.filter_cons]
    cases value with
    | none =>
      rw [Option.map_none, ih]
      split <;> simp
    | some value =>
      simp only [Option.map_some, List.filter_cons, named, ih]
      split <;> simp

/-- The names under which a task gets its reboot count. -/
def countNames (rhtsCompat : Bool) : List Text :=
  prefixed "REBOOTCOUNT" :: if rhtsCompat then ["REBOOTCOUNT".toList] else []

/-- What is read from the recipe sets no variable of this name. -/
def Settings.leaves (settings : Settings) (name : Text) : Prop :=
  unset name (settings.envvars ++ settings.recipeRoles ++ settings.roles) ∧
    unset name (settings.recipeParams ++ settings.params)

instance : Decidable (settings.leaves name) := by
  unfold Settings.leaves
  infer_instance

/-- The names of variables have no `=` in them. -/
theorem taskVariables_plain : ∀ entry ∈ taskVariables settings task, '=' ∉ entry.1 := by
  have names : ((taskVariables settings task).all fun entry => !entry.1.contains '=') = true := rfl
  intro entry member
  simpa using List.all_eq_true.mp names entry member

theorem legacyVariables_plain : ∀ entry ∈ legacyVariables settings task, '=' ∉ entry.1 := by
  have names : ((legacyVariables settings task).all fun entry => !entry.1.contains '=') = true := rfl
  intro entry member
  simpa using List.all_eq_true.mp names entry member

/-- The variables of a task by the name of its kind: its reboot count is there once. -/
theorem ownVariables_reboots (settings : Settings) (named : name ∈ countNames task.rhtsCompat) :
    valuesOf name (assigned ((if task.rhtsCompat then legacyVariables settings task else []) ++
      taskVariables settings task)) = [assignment name (Decimal.print task.reboots)] := by
  rw [valuesOf_assigned]
  · unfold countNames at named
    cases compat : task.rhtsCompat with
    | false =>
      obtain rfl : name = prefixed "REBOOTCOUNT" := by simpa [compat] using named
      rfl
    | true =>
      rcases List.mem_cons.mp named with rfl | named
      · rfl
      · obtain rfl : name = "REBOOTCOUNT".toList := by simpa [compat] using named
        rfl
  · intro entry member
    rcases List.mem_append.mp member with legacy | own
    · split at legacy
      · exact legacyVariables_plain entry legacy
      · cases legacy
    · exact taskVariables_plain entry own

/-- The variables that are added after one of another name. -/
theorem addAll_valuesOf {other value : Text} {entries : List (Text × Option Text)}
    (none : valuesOf name env = []) (plain : '=' ∉ other) (apart : other ≠ name) :
    valuesOf name (addAll (arrayAdd env other (some value)) entries) =
      valuesOf name (assigned entries) := by
  have left : valuesOf name [assignment other value] = [] := by
    simp [valuesOf, varname_assignment plain, apart]
  rw [addAll_eq, arrayAdd, valuesOf_append, valuesOf_append, none, left]
  rfl

/-- **A task gets its reboot count once, unless what is read from the recipe sets a
variable of that name.** -/
theorem buildEnv_reboots (named : name ∈ countNames task.rhtsCompat) (leaves : settings.leaves name) :
    valuesOf name (buildEnv settings task) = [assignment name (Decimal.print task.reboots)] := by
  obtain ⟨first, last⟩ := leaves
  have plain : '=' ∉ "RECIPE_MEMBERS".toList := by decide
  have apart : "RECIPE_MEMBERS".toList ≠ name := by
    rintro rfl
    unfold countNames at named
    split at named <;> simp [prefixed, ENV_PREFIX] at named
  have none : valuesOf name
      ((settings.envvars ++ settings.recipeRoles ++ settings.roles).foldl buildParamVar []) = [] :=
    (buildParamVar_valuesOf first).eq_nil
  refine List.perm_singleton.mp ((buildParamVar_valuesOf last).trans (List.Perm.of_eq ?_))
  rw [← ownVariables_reboots settings named]
  split
  · rw [addAll, addAll, ← List.foldl_append]
    exact addAll_valuesOf none plain apart
  · exact addAll_valuesOf none plain apart

/-- The variables of a task by a name that nothing in the recipe sets: what `build_env` itself adds. -/
theorem valuesOf_buildEnv (leaves : settings.leaves name) (apart : "RECIPE_MEMBERS".toList ≠ name) :
    (valuesOf name (buildEnv settings task)).Perm
      (assigned (((if task.rhtsCompat then legacyVariables settings task else []) ++
        taskVariables settings task).filter fun entry => entry.1 = name)) := by
  obtain ⟨first, last⟩ := leaves
  have plain : '=' ∉ "RECIPE_MEMBERS".toList := by decide
  have none : valuesOf name
      ((settings.envvars ++ settings.recipeRoles ++ settings.roles).foldl buildParamVar []) = [] :=
    (buildParamVar_valuesOf first).eq_nil
  refine (buildParamVar_valuesOf last).trans (List.Perm.of_eq ?_)
  rw [← valuesOf_assigned]
  · split
    · rw [addAll, addAll, ← List.foldl_append]
      exact addAll_valuesOf none plain apart
    · exact addAll_valuesOf none plain apart
  · intro entry member
    rcases List.mem_append.mp member with legacy | own
    · split at legacy
      · exact legacyVariables_plain entry legacy
      · cases legacy
    · exact taskVariables_plain entry own

end Restraint.Env

import Restraint.Env

/-! Parameters override the other variables of a task. `build_param_var` removes the variables
of its name while it goes through the array, and each time the last element takes the place
that is free; it is not looked at there. -/
namespace Restraint.EnvOverride
open CString (Text)
open Restraint.Harness (Task)
open Restraint.Env

/-- The value of the last parameter of a name. -/
def lastValue (name : Text) (params : List Param) : Option Text :=
  ((params.filter fun param => param.name = name).getLast?).map Param.value

/-- The parameters of a task and of its recipe override what else is in the environment. -/
def Overrides (settings : Settings) (task : Task) : Prop :=
  ∀ name value,
    (lastValue name settings.params = some value →
      valuesOf name (buildEnv settings task) = [assignment name value]) ∧
    (lastValue name settings.params = none → lastValue name settings.recipeParams = some value →
      valuesOf name (buildEnv settings task) = [assignment name value])

def PATH : Text := "PATH".toList

/-- The metadata or a role sets `PATH`, and the first parameters, and no others, do so too. -/
def Clash (settings : Settings) : Prop :=
  (∃ param ∈ settings.envvars ++ settings.recipeRoles ++ settings.roles, param.name = PATH) ∧
    ∃ first rest, settings.recipeParams ++ settings.params = first ++ rest ∧ first ≠ [] ∧
      (∀ param ∈ first, param.name = PATH) ∧ ∀ param ∈ rest, param.name ≠ PATH

/-- The names of parameters and roles have no `=` in them. -/
def Plain (settings : Settings) : Prop :=
  ∀ param ∈ settings.envvars ++ settings.recipeRoles ++ settings.roles ++
    (settings.recipeParams ++ settings.params), '=' ∉ param.name

instance (settings : Settings) : Decidable (Plain settings) := List.decidableBAll ..

variable {env before after : List Text} {name value evar last : Text} {place fuel : Nat}
  {settings : Settings} {task : Task} {param : Param} {params : List Param}

/-! ## One removal -/

/-- There is nothing to remove. -/
theorem removeEnvVar_none (none : ∀ evar ∈ env.drop place, varname evar ≠ name) :
    removeEnvVar name fuel place env = env := by
  induction fuel generalizing place with
  | zero => rfl
  | succ fuel ih =>
    unfold removeEnvVar
    split
    · rfl
    · rename_i evar here
      obtain ⟨inside, rfl⟩ := List.getElem?_eq_some_iff.mp here
      have split := List.drop_eq_getElem_cons inside
      rw [split] at none
      rw [if_neg (none _ List.mem_cons_self)]
      exact ih fun evar member => none evar (List.mem_cons_of_mem _ member)

/-- The first variable to remove is come to. -/
theorem removeEnvVar_first (early : place ≤ before.length) (own : varname evar = name)
    (none : ∀ evar ∈ before, varname evar ≠ name) (enough : before.length - place < fuel) :
    removeEnvVar name fuel place (before ++ evar :: after) =
      removeEnvVar name (fuel - (before.length - place) - 1) (before.length + 1)
        (removeFast (before ++ evar :: after) before.length) := by
  induction fuel generalizing place with
  | zero => omega
  | succ fuel ih =>
    rw [removeEnvVar]
    rcases Nat.lt_or_eq_of_le early with less | rfl
    · rw [List.getElem?_append_left less, List.getElem?_eq_getElem less]
      simp only [if_neg (none _ (List.getElem_mem less))]
      rw [ih less (by omega)]
      congr 1
      omega
    · rw [List.getElem?_append_right (Nat.le_refl _), Nat.sub_self]
      simp [own]

private theorem removeFast_last : removeFast (before ++ [evar]) before.length = before := by
  simp [removeFast]

private theorem removeFast_inside : removeFast (before ++ evar :: (after ++ [last])) before.length =
    before ++ last :: after := by
  have same : before ++ evar :: (after ++ [last]) = (before ++ evar :: after) ++ [last] := by simp
  have lastD : (before ++ evar :: (after ++ [last])).getLastD [] = last := by
    rw [same, List.getLastD_concat]
  rw [removeFast, lastD, List.set_append_right _ _ (Nat.le_refl _), Nat.sub_self, List.set_cons_zero,
    ← List.cons_append, ← List.append_assoc, List.dropLast_concat]

private theorem valuesOf_eq_nil : valuesOf name env = [] ↔ ∀ evar ∈ env, varname evar ≠ name := by
  simp [valuesOf]

/-- Only one variable has the name: it is removed. -/
theorem removeEnvVar_one (early : place ≤ before.length) (own : varname evar = name)
    (none : ∀ evar ∈ before, varname evar ≠ name) (none' : ∀ evar ∈ after, varname evar ≠ name)
    (enough : before.length - place < fuel) :
    valuesOf name (removeEnvVar name fuel place (before ++ evar :: after)) = [] := by
  rw [removeEnvVar_first early own none enough]
  rcases List.eq_nil_or_concat after with rfl | ⟨after, last, rfl⟩
  · rw [removeFast_last, removeEnvVar_none]
    · exact valuesOf_eq_nil.mpr none
    · exact fun evar member => none evar (List.mem_of_mem_drop member)
  · rw [List.concat_eq_append, removeFast_inside]
    have rest : ∀ evar ∈ before ++ last :: after, varname evar ≠ name := by
      intro evar member
      rcases List.mem_append.mp member with member | member
      · exact none evar member
      · exact none' evar (by simpa [or_comm] using member)
    rw [removeEnvVar_none fun evar member => rest evar (List.mem_of_mem_drop member)]
    exact valuesOf_eq_nil.mpr rest

/-- One variable of the name at most. -/
theorem removeEnvVar_once (once : (valuesOf name env).length ≤ 1) :
    valuesOf name (removeEnvVar name env.length 0 env) = [] := by
  cases held : valuesOf name env with
  | nil =>
    have none := valuesOf_eq_nil.mp held
    rw [removeEnvVar_none fun evar member => none evar (List.mem_of_mem_drop member), held]
  | cons evar others =>
    obtain ⟨before, after, rfl, none, own, rest⟩ := List.filter_eq_cons_iff.mp held
    have empty : valuesOf name after = [] := by
      rw [held] at once
      have short : others = [] := List.length_eq_zero_iff.mp (by simpa using once)
      rw [valuesOf, rest, short]
    exact removeEnvVar_one (Nat.zero_le _) (by simpa using own)
      (by simpa using none) (valuesOf_eq_nil.mp empty) (by simp)

/-- The last variable has the name. -/
def Ends (name : Text) (env : List Text) : Prop := ∃ evar ∈ env.getLast?, varname evar = name

private theorem ends_append : Ends name (before ++ [evar]) ↔ varname evar = name := by
  simp [Ends]

/-- Two variables of the name. If one of them is the last, it comes to the place of the other
one, where it is not looked at. -/
theorem removeEnvVar_twice (twice : (valuesOf name env).length = 2) :
    (¬Ends name env → valuesOf name (removeEnvVar name env.length 0 env) = []) ∧
      (Ends name env → (valuesOf name (removeEnvVar name env.length 0 env)).length = 1) := by
  obtain ⟨first, second, held⟩ := List.length_eq_two.mp twice
  obtain ⟨before, after, rfl, none, own, rest⟩ := List.filter_eq_cons_iff.mp held
  have none : ∀ evar ∈ before, varname evar ≠ name := by simpa using none
  have own : varname first = name := by simpa using own
  have enough : before.length - 0 < (before ++ first :: after).length := by simp
  rcases List.eq_nil_or_concat after with rfl | ⟨middle, last, rfl⟩
  · cases rest
  rw [List.concat_eq_append] at *
  rw [removeEnvVar_first (Nat.zero_le _) own none enough, removeFast_inside]
  have whole : before ++ first :: (middle ++ [last]) = (before ++ first :: middle) ++ [last] := by simp
  rw [whole, ends_append]
  constructor
  · intro other
    rw [List.filter_append, List.filter_cons_of_neg (by simpa using other), List.filter_nil,
      List.append_nil] at rest
    obtain ⟨left, right, rfl, none', own', rest'⟩ := List.filter_eq_cons_iff.mp rest
    have none' : ∀ evar ∈ left, varname evar ≠ name := by simpa using none'
    have moved : before ++ last :: (left ++ second :: right) =
        (before ++ last :: left) ++ second :: right := by simp
    rw [moved]
    refine removeEnvVar_one (by simp) (by simpa using own') ?_ (valuesOf_eq_nil.mp rest') (by simp; omega)
    intro evar member
    rcases List.mem_append.mp member with member | member
    · exact none evar member
    · rcases List.mem_cons.mp member with rfl | member
      · exact other
      · exact none' evar member
  · intro ends
    rw [List.filter_append, List.filter_cons_of_pos (by simpa using ends), List.filter_nil] at rest
    have empty : valuesOf name middle = [] := by
      have lengths := congrArg List.length rest
      exact valuesOf_eq_nil.mpr (by simpa using lengths)
    rw [removeEnvVar_none, valuesOf_append, valuesOf_eq_nil.mpr none, List.nil_append, valuesOf,
      List.filter_cons_of_pos (by simpa using ends), ← valuesOf, empty, List.length_singleton]
    intro evar member
    rw [← List.singleton_append, ← List.append_assoc, List.drop_append_of_le_length (by simp)] at member
    rcases List.mem_append.mp member with member | member
    · simp at member
    · exact valuesOf_eq_nil.mp empty evar member

/-! ## The parameters -/

/-- A parameter stands at the end. -/
theorem ends_buildParamVar (plain : '=' ∉ param.name) :
    Ends name (buildParamVar env param) ↔ param.name = name := by
  rw [buildParamVar, ends_append, varname_assignment plain]

private theorem valuesOf_buildParamVar (plain : '=' ∉ param.name) (own : param.name = name) :
    valuesOf name (buildParamVar env param) =
      valuesOf name (removeEnvVar name env.length 0 env) ++ [assignment name param.value] := by
  subst own
  rw [buildParamVar, valuesOf_append]
  congr 1
  simp [valuesOf, varname_assignment plain]

private theorem length_buildParamVar (plain : '=' ∉ param.name) (other : param.name ≠ name) :
    (valuesOf name (buildParamVar env param)).length = (valuesOf name env).length := by
  have unset : unset name [param] := by
    intro _ member
    cases List.mem_singleton.mp member
    exact ⟨other, by rwa [varname_assignment plain]⟩
  exact (buildParamVar_valuesOf unset).length_eq

private theorem lastValue_append {more : List Param} : lastValue name (params ++ more) =
    (lastValue name more <|> lastValue name params) := by
  rw [lastValue, List.filter_append, List.getLast?_append]
  unfold lastValue
  cases (more.filter fun param => param.name = name).getLast? <;> rfl

private theorem lastValue_singleton : lastValue name [param] =
    if param.name = name then some param.value else none := by
  unfold lastValue
  by_cases own : param.name = name <;> simp [own]

private theorem lastValue_cons : lastValue name (param :: params) =
    (lastValue name params <|> if param.name = name then some param.value else none) := by
  rw [← List.singleton_append, lastValue_append, lastValue_singleton]

private theorem lastValue_eq_none :
    lastValue name params = none ↔ ∀ param ∈ params, param.name ≠ name := by
  simp [lastValue]

/-- Parameters of other names. -/
theorem foldl_other (plain : ∀ param ∈ params, '=' ∉ param.name)
    (none : ∀ param ∈ params, param.name ≠ name) :
    (valuesOf name (params.foldl buildParamVar env)).Perm (valuesOf name env) := by
  refine buildParamVar_valuesOf fun param member => ⟨none param member, ?_⟩
  rw [varname_assignment (plain param member)]
  exact none param member

/-- A parameter of the name will remove all variables of it. -/
def Settled (name : Text) (env : List Text) : Prop :=
  (valuesOf name env).length ≤ 1 ∨ (valuesOf name env).length = 2 ∧ ¬Ends name env

theorem Settled.removes (settled : Settled name env) :
    valuesOf name (removeEnvVar name env.length 0 env) = [] := by
  rcases settled with once | ⟨twice, apart⟩
  · exact removeEnvVar_once once
  · exact (removeEnvVar_twice twice).1 apart

theorem Settled.foldl (settled : Settled name env) (plain : ∀ param ∈ params, '=' ∉ param.name)
    (last : lastValue name params = some value) :
    valuesOf name (params.foldl buildParamVar env) = [assignment name value] := by
  induction params generalizing env with
  | nil => cases last
  | cons param params ih =>
    obtain ⟨here, later⟩ := List.forall_mem_cons.mp plain
    rw [List.foldl_cons]
    rw [lastValue_cons] at last
    by_cases own : param.name = name
    · have replaced : valuesOf name (buildParamVar env param) = [assignment name param.value] := by
        rw [valuesOf_buildParamVar here own, settled.removes, List.nil_append]
      cases more : lastValue name params with
      | none =>
        have same : (valuesOf name (params.foldl buildParamVar (buildParamVar env param))).Perm
            (valuesOf name (buildParamVar env param)) :=
          foldl_other later (lastValue_eq_none.mp more)
        rw [replaced, List.perm_singleton] at same
        rw [same]
        rw [more, if_pos own] at last
        cases last
        rfl
      | some other =>
        rw [more] at last
        cases last
        exact ih (.inl (by rw [replaced, List.length_singleton])) later more
    · have last : lastValue name params = some value := by
        cases more : lastValue name params with
        | none => simp [more, own] at last
        | some other => simpa [more] using last
      refine ih ?_ later last
      rw [Settled, length_buildParamVar here own, ends_buildParamVar here]
      exact settled.imp_right fun twice => ⟨twice.1, own⟩

/-- Two variables of the name, one of them at the end: a parameter of the name leaves two
again, one of them at the end. -/
theorem foldl_own (plain : ∀ param ∈ params, '=' ∉ param.name)
    (own : ∀ param ∈ params, param.name = name) (twice : (valuesOf name env).length = 2)
    (ends : Ends name env) :
    (valuesOf name (params.foldl buildParamVar env)).length = 2 ∧
      Ends name (params.foldl buildParamVar env) := by
  induction params generalizing env with
  | nil => exact ⟨twice, ends⟩
  | cons param params ih =>
    obtain ⟨here, later⟩ := List.forall_mem_cons.mp plain
    obtain ⟨same, others⟩ := List.forall_mem_cons.mp own
    refine ih later others ?_ ((ends_buildParamVar here).mpr same)
    rw [valuesOf_buildParamVar here same, List.length_append, (removeEnvVar_twice twice).2 ends,
      List.length_singleton]

/-- One at the end is removed by a parameter of the name, unless all of these come first. -/
theorem foldl_apart (plain : ∀ param ∈ params, '=' ∉ param.name)
    (twice : (valuesOf name env).length = 2) (ends : Ends name env)
    (last : lastValue name params = some value)
    (mixed : ¬∃ first rest, params = first ++ rest ∧ first ≠ [] ∧
      (∀ param ∈ first, param.name = name) ∧ ∀ param ∈ rest, param.name ≠ name) :
    valuesOf name (params.foldl buildParamVar env) = [assignment name value] := by
  have split := (List.takeWhile_append_dropWhile (p := fun param : Param => param.name = name)
    (l := params)).symm
  have own : ∀ param ∈ params.takeWhile (fun param => param.name = name), param.name = name :=
    fun param member => by simpa using List.all_eq_true.mp List.all_takeWhile param member
  generalize params.takeWhile (fun param => param.name = name) = first at split own
  cases drop : params.dropWhile (fun param => param.name = name) with
  | nil =>
    rw [drop, List.append_nil] at split
    subst split
    refine absurd ⟨params, [], (List.append_nil _).symm, ?_, own, by simp⟩ mixed
    rintro rfl
    cases last
  | cons param rest =>
    have other : param.name ≠ name := by
      have head := List.head?_dropWhile_not (fun param : Param => param.name = name) params
      rw [drop] at head
      simpa using head
    rw [drop] at split
    subst split
    rw [lastValue_append, lastValue_cons] at last
    cases more : lastValue name rest with
    | none =>
      rw [more, if_neg other] at last
      refine absurd ⟨first, param :: rest, rfl, ?_, own, ?_⟩ mixed
      · rintro rfl
        cases last
      · exact List.forall_mem_cons.mpr ⟨other, lastValue_eq_none.mp more⟩
    | some found =>
      rw [more] at last
      cases last
      obtain ⟨early, late⟩ := List.forall_mem_append.mp plain
      obtain ⟨here, later⟩ := List.forall_mem_cons.mp late
      obtain ⟨twice, ends⟩ := foldl_own early own twice ends
      rw [List.foldl_append, List.foldl_cons]
      refine Settled.foldl (.inr ?_) later more
      rw [length_buildParamVar here other, ends_buildParamVar here]
      exact ⟨twice, other⟩

/-! ## The environment before the parameters -/

/-- The variables that the harness has for a task. -/
def builtins (settings : Settings) (task : Task) : List (Text × Option Text) :=
  let members := getRecipeMembers (getRecipeMembers [] settings.recipeRoles) settings.roles
  ("RECIPE_MEMBERS".toList, some ([' '].intercalate members)) ::
    ((if task.rhtsCompat then legacyVariables settings task else []) ++ taskVariables settings task)

/-- What is in the environment before the parameters of the recipe. -/
def prepared (settings : Settings) (task : Task) : List Text :=
  (settings.envvars ++ settings.recipeRoles ++ settings.roles).foldl buildParamVar [] ++
    assigned (builtins settings task)

private theorem buildEnv_eq : buildEnv settings task =
    (settings.recipeParams ++ settings.params).foldl buildParamVar (prepared settings task) := by
  unfold buildEnv prepared builtins
  simp only [addAll_eq, arrayAdd]
  cases task.rhtsCompat <;> simp [assigned]

private theorem builtins_nodup : ((builtins settings task).map Prod.fst).Nodup := by
  unfold builtins legacyVariables taskVariables
  cases task.rhtsCompat <;>
    simp only [if_true, Bool.false_eq_true, if_false, List.map_cons, List.map_nil,
      List.nil_append, List.cons_append] <;>
    decide +kernel

private theorem builtins_plain : ∀ entry ∈ builtins settings task, '=' ∉ entry.1 := by
  intro entry member
  rcases List.mem_cons.mp member with rfl | member
  · change '=' ∉ "RECIPE_MEMBERS".toList
    decide
  · rcases List.mem_append.mp member with legacy | own
    · split at legacy
      · exact legacyVariables_plain entry legacy
      · cases legacy
    · exact taskVariables_plain entry own

/-- The value that the harness has for `PATH`. -/
def searchPath : Text := "/usr/local/bin:/usr/bin:/bin:/usr/local/sbin:/usr/sbin:/sbin".toList

private theorem taskVariables_ends :
    taskVariables settings task = (taskVariables settings task).dropLast ++ [(PATH, some searchPath)] :=
  rfl

private theorem assigned_append {entries more : List (Text × Option Text)} :
    assigned (entries ++ more) = assigned entries ++ assigned more := List.filterMap_append ..

private theorem prepared_ends : Ends name (prepared settings task) ↔ name = PATH := by
  rw [prepared, builtins, taskVariables_ends, ← List.append_assoc, ← List.cons_append,
    assigned_append, ← List.append_assoc]
  rw [show assigned [(PATH, some searchPath)] = [assignment PATH searchPath] from rfl, ends_append,
    varname_assignment (by decide), eq_comm]

/-- The harness has one variable of a name at most. -/
theorem builtins_once : (valuesOf name (assigned (builtins settings task))).length ≤ 1 := by
  rw [valuesOf_assigned builtins_plain]
  apply (List.length_filterMap_le _ _).trans
  have nodup : ((builtins settings task).map Prod.fst).Nodup := builtins_nodup
  have once := List.nodup_iff_count_le_one.mp nodup name
  rw [List.count, List.countP_map, List.countP_eq_length_filter] at once
  simp only [Function.comp_def, beq_eq_decide] at once
  exact once

private theorem builtins_path : (valuesOf PATH (assigned (builtins settings task))).length = 1 := by
  apply Nat.le_antisymm builtins_once
  rw [builtins, taskVariables_ends, ← List.append_assoc, ← List.cons_append, assigned_append,
    valuesOf_append, List.length_append]
  exact Nat.le_add_left _ _

/-- The metadata and the roles give one variable to each of their names. -/
theorem first_values (plain : ∀ param ∈ params, '=' ∉ param.name) :
    (valuesOf name (params.foldl buildParamVar [])).length =
      if ∃ param ∈ params, param.name = name then 1 else 0 := by
  cases last : lastValue name params with
  | none =>
    have none := lastValue_eq_none.mp last
    rw [(foldl_other plain none).length_eq, if_neg (by simpa using none)]
    rfl
  | some value =>
    have some : ∃ param ∈ params, param.name = name := by
      by_contra none
      rw [lastValue_eq_none.mpr (by simpa using none)] at last
      cases last
    have settled : Settled name [] := .inl (Nat.zero_le 1)
    rw [settled.foldl plain last, if_pos some, List.length_singleton]

/-- Before the parameters a name has a variable of the metadata and the roles, and one of the
harness. -/
theorem prepared_count (plain : ∀ param ∈ settings.envvars ++ settings.recipeRoles ++ settings.roles,
    '=' ∉ param.name) : (valuesOf name (prepared settings task)).length =
      (if ∃ param ∈ settings.envvars ++ settings.recipeRoles ++ settings.roles, param.name = name
        then 1 else 0) + (valuesOf name (assigned (builtins settings task))).length := by
  rw [prepared, valuesOf_append, List.length_append, first_values plain]

/-- In a clash both variables stay: the one of the harness and that of the last parameter. -/
theorem Clash.twice (clash : Clash settings) (plain : Plain settings) :
    (valuesOf PATH (buildEnv settings task)).length = 2 := by
  obtain ⟨set, first, rest, split, -, own, none⟩ := clash
  obtain ⟨early, late⟩ := List.forall_mem_append.mp plain
  obtain ⟨before, after⟩ := List.forall_mem_append.mp (split ▸ late)
  have twice : (valuesOf PATH (prepared settings task)).length = 2 := by
    rw [prepared_count early, if_pos set, builtins_path]
  rw [buildEnv_eq, split, List.foldl_append, (foldl_other after none).length_eq]
  exact (foldl_own before own twice (prepared_ends.mpr rfl)).1

/-- Without a clash the last parameter of a name overrides what has it. -/
theorem overridden (plain : Plain settings) (apart : ¬Clash settings)
    (last : lastValue name (settings.recipeParams ++ settings.params) = some value) :
    valuesOf name (buildEnv settings task) = [assignment name value] := by
  obtain ⟨early, late⟩ := List.forall_mem_append.mp plain
  rw [buildEnv_eq]
  by_cases path : name = PATH
  · subst path
    by_cases set : ∃ param ∈ settings.envvars ++ settings.recipeRoles ++ settings.roles,
        param.name = PATH
    · refine foldl_apart late ?_ (prepared_ends.mpr rfl) last fun mixed => apart ⟨set, mixed⟩
      rw [prepared_count early, if_pos set, builtins_path]
    · have settled : Settled PATH (prepared settings task) := by
        refine .inl ?_
        rw [prepared_count early, if_neg set, builtins_path]
      exact settled.foldl late last
  · have settled : Settled name (prepared settings task) := by
      have once : (valuesOf name (assigned (builtins settings task))).length ≤ 1 := builtins_once
      have counted : (valuesOf name (prepared settings task)).length = _ := prepared_count early
      rw [Settled, prepared_ends]
      by_cases few : (valuesOf name (prepared settings task)).length ≤ 1
      · exact .inl few
      · refine .inr ⟨?_, path⟩
        split at counted <;> omega
    exact settled.foldl late last

/-- **The parameters override the rest of the environment if and only if there is no clash over
`PATH`.** The variable that the harness has for `PATH` is the last one when the parameters come;
when the metadata or a role has set one as well, a parameter removes that one only. -/
theorem overrides_iff (settings : Settings) (task : Task) (plain : Plain settings) :
    Overrides settings task ↔ ¬Clash settings := by
  constructor
  · intro overrides clash
    have twice : (valuesOf PATH (buildEnv settings task)).length = 2 := clash.twice plain
    -- but the last of the parameters should be the only one
    have single {value : Text}
        (only : valuesOf PATH (buildEnv settings task) = [assignment PATH value]) : False := by
      rw [only] at twice
      cases twice
    cases own : lastValue PATH settings.params with
    | some value => exact single ((overrides PATH value).1 own)
    | none =>
      cases recipe : lastValue PATH settings.recipeParams with
      | some value => exact single ((overrides PATH value).2 own recipe)
      | none =>
        obtain ⟨-, first, rest, split, some, named, -⟩ := clash
        have absent : lastValue PATH (first ++ rest) = Option.none := by
          rw [← split, lastValue_append, own, recipe]
          rfl
        obtain ⟨param, member⟩ := List.exists_mem_of_ne_nil first some
        exact lastValue_eq_none.mp absent param (List.mem_append_left _ member) (named param member)
  · intro apart name value
    refine ⟨fun last => overridden plain apart ?_, fun none last => overridden plain apart ?_⟩
    · rw [lastValue_append, last]
      rfl
    · rw [lastValue_append, none, last]
      rfl

/-- The metadata of the task sets the search path, and these are its parameters. -/
def pathSettings (params : List Param) : Settings where
  envvars := [⟨PATH, "/opt/bin".toList⟩]
  recipeRoles := []
  roles := []
  recipeParams := []
  params := params
  restraintUrl := "http://localhost".toList
  recipeId := ['1']
  owner := none
  jobId := none
  recipeSetId := none
  osdistro := none
  osvariant := none
  osmajor := none
  osarch := none
  name := none
  path := none
  order := 1

def pathTask : Task := Harness.parseTask ⟨['1'], .installPackage, none, []⟩

/-- A parameter of another name comes first. -/
def langParams : List Param := [⟨"LANG".toList, ['C']⟩, ⟨PATH, "/usr/bin".toList⟩]

theorem overrides_iff_lang : Overrides (pathSettings langParams) pathTask := by
  apply (overrides_iff _ _ (by decide)).mpr
  rintro ⟨_, first, rest, split, some, own, _⟩
  cases first with
  | nil => exact some rfl
  | cons param first =>
    obtain ⟨rfl, _⟩ := List.cons.inj split
    exact absurd (own _ List.mem_cons_self) (by decide)

/-- The only parameter is the search path: both values are in the environment. -/
theorem overrides_path : Plain (pathSettings [⟨PATH, "/usr/bin".toList⟩]) ∧
    valuesOf PATH (buildEnv (pathSettings [⟨PATH, "/usr/bin".toList⟩]) pathTask) =
      [assignment PATH searchPath, assignment PATH "/usr/bin".toList] ∧
    ¬Overrides (pathSettings [⟨PATH, "/usr/bin".toList⟩]) pathTask := by
  have held : valuesOf PATH (buildEnv (pathSettings [⟨PATH, "/usr/bin".toList⟩]) pathTask) =
      [assignment PATH searchPath, assignment PATH "/usr/bin".toList] := by decide +kernel
  refine ⟨by decide, held, fun overrides => ?_⟩
  have only := (overrides PATH "/usr/bin".toList).1 rfl
  have lengths := congrArg List.length (held.symm.trans only)
  exact absurd lengths (by simp only [List.length_cons, List.length_nil]; omega)

end Restraint.EnvOverride

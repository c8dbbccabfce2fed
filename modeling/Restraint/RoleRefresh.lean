import Restraint.RecipeGrammar

/-! Before each task the recipe is fetched again for its roles. What a document says of them
replaces what was known; a refresh that fails half way leaves the rest as it was. A list of
documents is folded into the one that says the roles last, for the recipe and for each task apart.
Documents that break off count up to where they do. -/
namespace Restraint.RoleRefresh
open CString (Text)
open Xml Restraint.RecipeParse Restraint.RecipeGrammar

variable {Uri : Type}

/-- The loop of `restraint_recipe_update_roles` over the children, with the roles of the recipe and the
tasks from the next one on. What has been set before an error stays set. -/
def updateChildren (recipeId : Option Text) : List Node → List Role → List (RecipeParse.Task Uri) →
    (List Role × List (RecipeParse.Task Uri)) × Option GError
  | [], roles, tasks => ((roles, tasks), none)
  | child :: rest, roles, tasks =>
    if child.isNamed "roles" then
      match parseRoles child with
      | (_, some tmpError) =>
        ((roles, tasks), prefixed ("Recipe ".toList ++ shown recipeId ++ " has ".toList) tmpError)
      | (roles, none) => updateChildren recipeId rest roles tasks
    else if child.isNamed "task" then
      match tasks with
      -- g_return_if_fail
      | [] => ((roles, []), none)
      | task :: tasks =>
        match child.firstNamed "roles" with
        | none =>
          let ((roles, tasks), error) := updateChildren recipeId rest roles tasks
          ((roles, task :: tasks), error)
        | some rolesNode =>
          match parseRoles rolesNode with
          | (_, some tmpError) =>
            ((roles, task :: tasks), prefixed ("Task ".toList ++ task.taskId ++ " has ".toList) tmpError)
          | (own, none) =>
            let ((roles, tasks), error) := updateChildren recipeId rest roles tasks
            ((roles, { task with roles := own } :: tasks), error)
    else updateChildren recipeId rest roles tasks

/-- `restraint_recipe_update_roles`: the recipe as it is left, and the error that may be set. -/
def updateRoles (recipe : Recipe Uri) (doc : Option Node) : Recipe Uri × Option GError :=
  match doc.bind findRecipe with
  | none => (recipe, unrecognised "<recipe/> element not found".toList)
  | some recipeNode =>
    let ((roles, tasks), error) :=
      updateChildren recipe.recipeId recipeNode.children recipe.roles recipe.tasks
    ({ recipe with roles, tasks }, error)

/-- A recipe after some refreshes. -/
def refreshes (recipe : Recipe Uri) (docs : List (Option Node)) : Recipe Uri :=
  docs.foldl (fun recipe doc => (updateRoles recipe doc).1) recipe

/-! ## What a document says -/

/-- The roles of a child can be read. -/
def readable (child : Node) : Bool :=
  if child.isNamed "roles" then (parseRoles child).2.isNone
  else if child.isNamed "task" then (parseOptional parseRoles (child.firstNamed "roles")).2.isNone
  else true

/-- The children that a refresh of so many tasks comes to and can read. -/
def reached : Nat → List Node → List Node
  | _, [] => []
  | n, child :: rest =>
    if readable child then
      if child.isNamed "task" then
        match n with
        | 0 => []
        | n + 1 => child :: reached n rest
      else child :: reached n rest
    else []

def said (n : Nat) (doc : Option Node) : List Node :=
  reached n ((doc.bind findRecipe).elim [] Node.children)

/-- The roles that the last of some elements gives. -/
def rolesIn (nodes : List Node) : Option (List Role) :=
  (nodes.filter (Node.isNamed "roles")).getLast?.map fun node => (parseRoles node).1

/-- The roles of the task in a place. -/
def taskRolesIn (nodes : List Node) (k : Nat) : Option (List Role) :=
  (nodes.filter (Node.isNamed "task"))[k]?.bind fun task =>
    (task.firstNamed "roles").map fun node => (parseRoles node).1

variable {recipeId : Option Text} {child node : Node} {rest nodes : List Node} {roles : List Role}
  {task : RecipeParse.Task Uri} {tasks : List (RecipeParse.Task Uri)} {n i k : Nat}

private theorem not_task (named : child.isNamed "roles" = true) : child.isNamed "task" = false :=
  RecipeGrammar.isNamed_eq_false named (by decide)

private theorem not_roles (named : child.isNamed "task" = true) : child.isNamed "roles" = false :=
  RecipeGrammar.isNamed_eq_false named (by decide)

private theorem rolesIn_cons_roles (named : child.isNamed "roles" = true) :
    (rolesIn (child :: rest)).getD roles = (rolesIn rest).getD (parseRoles child).1 := by
  rw [rolesIn, rolesIn, List.filter_cons_of_pos named, List.getLast?_cons]
  cases (rest.filter (Node.isNamed "roles")).getLast? <;> rfl

private theorem rolesIn_cons_other (other : child.isNamed "roles" = false) :
    rolesIn (child :: rest) = rolesIn rest := by
  rw [rolesIn, rolesIn, List.filter_cons_of_neg (by simp [other])]

private theorem taskRolesIn_cons_other (other : child.isNamed "task" = false) :
    taskRolesIn (child :: rest) k = taskRolesIn rest k := by
  rw [taskRolesIn, taskRolesIn, List.filter_cons_of_neg (by simp [other])]

private theorem taskRolesIn_cons_task (named : child.isNamed "task" = true) :
    taskRolesIn (child :: rest) (k + 1) = taskRolesIn rest k := by
  rw [taskRolesIn, taskRolesIn, List.filter_cons_of_pos named, List.getElem?_cons_succ]

private theorem taskRolesIn_cons_zero (named : child.isNamed "task" = true) :
    taskRolesIn (child :: rest) 0 =
    (child.firstNamed "roles").map fun node => (parseRoles node).1 := by
  rw [taskRolesIn, List.filter_cons_of_pos named, List.getElem?_cons_zero, Option.bind_some]

/-- What the elements say of the tasks. -/
def withRoles (nodes : List Node) (tasks : List (RecipeParse.Task Uri)) : List (RecipeParse.Task Uri) :=
  tasks.mapIdx fun k task => { task with roles := (taskRolesIn nodes k).getD task.roles }

private theorem mapIdx_same {α : Type} {f : Nat → α → α} {items : List α} (same : ∀ k a, f k a = a) :
    items.mapIdx f = items := by
  apply List.ext_getElem?
  intro k
  rw [List.getElem?_mapIdx]
  cases items[k]? <;> simp [same]

private theorem withRoles_nil : withRoles [] tasks = tasks := mapIdx_same fun _ _ => rfl

private theorem withRoles_cons_other (other : child.isNamed "task" = false) :
    withRoles (child :: rest) tasks = withRoles rest tasks := by
  simp only [withRoles, taskRolesIn_cons_other other]

private theorem withRoles_cons_task (named : child.isNamed "task" = true) :
    withRoles (child :: rest) (task :: tasks) =
      { task with roles := (((child.firstNamed "roles").map fun node => (parseRoles node).1).getD task.roles) } ::
        withRoles rest tasks := by
  simp only [withRoles, List.mapIdx_cons, taskRolesIn_cons_zero named, taskRolesIn_cons_task named]

/-! ## One refresh -/

theorem updateChildren_roles {own : List Role} (named : child.isNamed "roles" = true)
    (parsed : parseRoles child = (own, none)) :
    updateChildren recipeId (child :: rest) roles tasks = updateChildren recipeId rest own tasks := by
  show (if child.isNamed "roles" then _ else _) = _
  rw [if_pos named, parsed]

/-- The roles that an element gives a task that had others. -/
def ownRoles (child : Node) (before : List Role) : List Role :=
  ((child.firstNamed "roles").map fun node => (parseRoles node).1).getD before

private theorem updateChildren_task (named : child.isNamed "task" = true)
    (read : (parseOptional parseRoles (child.firstNamed "roles")).2 = none) :
    updateChildren recipeId (child :: rest) roles (task :: tasks) =
      let ((roles, tasks), error) := updateChildren recipeId rest roles tasks
      ((roles, { task with roles := ownRoles child task.roles } :: tasks), error) := by
  show (if child.isNamed "roles" then _ else _) = _
  rw [if_neg (by simp [not_roles named]), if_pos named]
  unfold ownRoles
  cases inner : child.firstNamed "roles" with
  | none => rfl
  | some rolesNode =>
    rw [inner, parseOptional] at read
    dsimp only
    rcases parsed : parseRoles rolesNode with ⟨own, error⟩
    rw [parsed] at read
    obtain rfl : error = none := read
    rw [Option.map_some, parsed, Option.getD_some]

private theorem updateChildren_other (noRoles : child.isNamed "roles" = false)
    (noTask : child.isNamed "task" = false) :
    updateChildren recipeId (child :: rest) roles tasks = updateChildren recipeId rest roles tasks := by
  show (if child.isNamed "roles" then _ else _) = _
  rw [if_neg (by simp [noRoles]), if_neg (by simp [noTask])]

/-- A task too many ends the refresh. -/
theorem updateChildren_exhausted (named : child.isNamed "task" = true) :
    updateChildren recipeId (child :: rest) roles ([] : List (RecipeParse.Task Uri)) =
      ((roles, []), none) := by
  show (if child.isNamed "roles" then _ else _) = _
  rw [if_neg (by simp [not_roles named]), if_pos named]

/-- Roles that cannot be read end the refresh. -/
theorem updateChildren_unreadable (bad : readable child = false) :
    (updateChildren recipeId (child :: rest) roles tasks).1 = (roles, tasks) := by
  unfold readable at bad
  show (if child.isNamed "roles" then _ else _ : (List Role × List (RecipeParse.Task Uri)) × _).1 = _
  by_cases named : child.isNamed "roles" = true
  · rw [if_pos named] at bad ⊢
    rcases parsed : parseRoles child with ⟨own, _ | error⟩
    · simp [parsed] at bad
    · rfl
  · rw [if_neg named] at bad ⊢
    by_cases task : child.isNamed "task" = true
    · rw [if_pos task] at bad ⊢
      cases tasks with
      | nil => rfl
      | cons first tasks =>
        dsimp only
        cases inner : child.firstNamed "roles" with
        | none => simp [inner, parseOptional] at bad
        | some rolesNode =>
          dsimp only
          rcases parsed : parseRoles rolesNode with ⟨own, _ | error⟩
          · simp [inner, parseOptional, parsed] at bad
          · rfl
    · simp [task] at bad

/-- The kinds of children. -/
theorem kinds (child : Node) : child.isNamed "roles" = true ∨ child.isNamed "task" = true ∨
    child.isNamed "roles" = false ∧ child.isNamed "task" = false := by
  cases child.isNamed "roles" <;> cases child.isNamed "task" <;> simp

@[simp] theorem reached_nil : reached n [] = [] := rfl

private theorem reached_unreadable (bad : readable child = false) : reached n (child :: rest) = [] := by
  show (if readable child then _ else _) = _
  rw [if_neg (by simp [bad])]

private theorem reached_cons_zero (good : readable child = true) (named : child.isNamed "task" = true) :
    reached 0 (child :: rest) = [] := by
  show (if readable child then _ else _) = _
  rw [if_pos good]
  exact if_pos named

private theorem reached_cons_task (good : readable child = true) (named : child.isNamed "task" = true) :
    reached (n + 1) (child :: rest) = child :: reached n rest := by
  show (if readable child then _ else _) = _
  rw [if_pos good]
  exact if_pos named

private theorem reached_cons_other (good : readable child = true)
    (other : child.isNamed "task" = false) :
    reached n (child :: rest) = child :: reached n rest := by
  show (if readable child then _ else _) = _
  rw [if_pos good]
  exact if_neg (by simp [other])

private theorem readable_roles (good : readable child = true) (named : child.isNamed "roles" = true) :
    parseRoles child = ((parseRoles child).1, none) := by
  rw [readable, if_pos named, Option.isNone_iff_eq_none] at good
  rw [← good]

private theorem readable_task (good : readable child = true) (named : child.isNamed "task" = true) :
    (parseOptional parseRoles (child.firstNamed "roles")).2 = none := by
  rwa [readable, if_neg (by simp [not_roles named]), if_pos named, Option.isNone_iff_eq_none] at good

/-- A refresh takes over what the elements say that it comes to. -/
theorem updateChildren_takes : (updateChildren recipeId nodes roles tasks).1 =
    ((rolesIn (reached tasks.length nodes)).getD roles, withRoles (reached tasks.length nodes) tasks) := by
  induction nodes generalizing roles tasks with
  | nil => rw [reached_nil, withRoles_nil]; rfl
  | cons child rest ih =>
    cases good : readable child with
    | false =>
      rw [updateChildren_unreadable good, reached_unreadable good, withRoles_nil]
      rfl
    | true =>
      rcases kinds child with named | named | ⟨noRoles, noTask⟩
      · rw [reached_cons_other good (not_task named), updateChildren_roles named (readable_roles good named), ih,
          rolesIn_cons_roles named, withRoles_cons_other (not_task named)]
      · cases tasks with
        | nil =>
          rw [updateChildren_exhausted named, List.length_nil, reached_cons_zero good named]
          rfl
        | cons task tasks =>
          rw [updateChildren_task named (readable_task good named), List.length_cons, reached_cons_task good named,
            rolesIn_cons_other (not_roles named), withRoles_cons_task named]
          obtain ⟨own, others⟩ := Prod.ext_iff.mp (@ih roles tasks)
          dsimp only at own others ⊢
          rw [own, others]
          rfl
      · rw [reached_cons_other good noTask, updateChildren_other noRoles noTask, ih, rolesIn_cons_other noRoles,
          withRoles_cons_other noTask]

private theorem reached_complete (good : ∀ child ∈ nodes, readable child = true)
    (enough : (nodes.filter (Node.isNamed "task")).length ≤ n) : reached n nodes = nodes := by
  induction nodes generalizing n with
  | nil => exact reached_nil
  | cons child rest ih =>
    obtain ⟨own, good⟩ := List.forall_mem_cons.mp good
    cases task : child.isNamed "task" with
    | false =>
      rw [List.filter_cons_of_neg (by simp [task])] at enough
      rw [reached_cons_other own task, ih good enough]
    | true =>
      rw [List.filter_cons_of_pos task, List.length_cons] at enough
      cases n with
      | zero => cases enough
      | succ n => rw [reached_cons_task own task, ih good (Nat.le_of_succ_le_succ enough)]

/-- A document with roles that can all be read, and no task too many, is taken over without an error. -/
theorem updateChildren_complete (good : ∀ child ∈ nodes, readable child = true)
    (enough : (nodes.filter (Node.isNamed "task")).length ≤ tasks.length) :
    (updateChildren recipeId nodes roles tasks).2 = none := by
  induction nodes generalizing roles tasks with
  | nil => rfl
  | cons child rest ih =>
    obtain ⟨own, good⟩ := List.forall_mem_cons.mp good
    rcases kinds child with named | named | ⟨noRoles, noTask⟩
    · rw [List.filter_cons_of_neg (by simp [not_task named])] at enough
      rw [updateChildren_roles named (readable_roles own named)]
      exact ih good enough
    · rw [List.filter_cons_of_pos named, List.length_cons] at enough
      cases tasks with
      | nil => cases enough
      | cons task tasks =>
        rw [updateChildren_task named (readable_task own named)]
        exact ih good (Nat.le_of_succ_le_succ enough)
    · rw [List.filter_cons_of_neg (by simp [noTask])] at enough
      rw [updateChildren_other noRoles noTask]
      exact ih good enough

/-! ## The parser of the recipe -/

variable {world : World Uri} {result fresh : Recipe Uri} {recipe : Recipe Uri} {doc : Option Node}
  {docs : List (Option Node)}

/-- The parser of a task takes the roles of its first element. -/
theorem parseTask_roles {error : Option GError} (parsed : parseTask world result i node = (some task, error)) :
    parseOptional parseRoles (node.firstNamed "roles") = (task.roles, none) := by
  unfold parseTask at parsed
  split at parsed
  · cases parsed
  · dsimp only at parsed
    split at parsed
    · cases parsed
    · split at parsed
      · cases parsed
      · split at parsed
        · cases parsed
        · rename_i roles read
          cases parsed
          exact read

/-- What the parser has made of the children of a recipe. -/
structure Taken (nodes : List Node) (before : List Role) (tasks : List (RecipeParse.Task Uri))
    (fresh : Recipe Uri) : Prop where
  good : ∀ child ∈ nodes, readable child = true
  roles : fresh.roles = (rolesIn nodes).getD before
  tasks : ∃ items, fresh.tasks = tasks.reverse ++ items ∧
    items.length = (nodes.filter (Node.isNamed "task")).length ∧
    ∀ k task, items[k]? = some task → task.roles = (taskRolesIn nodes k).getD []

theorem Taken.cons_other (good : readable child = true) (noTask : child.isNamed "task" = false)
    {before : List Role} (roles : (rolesIn (child :: rest)).getD before = (rolesIn rest).getD result.roles)
    (taken : Taken rest result.roles tasks fresh) : Taken (child :: rest) before tasks fresh where
  good := List.forall_mem_cons.mpr ⟨good, taken.good⟩
  roles := taken.roles.trans roles.symm
  tasks := by
    rw [List.filter_cons_of_neg (by simp [noTask])]
    simpa only [taskRolesIn_cons_other noTask] using taken.tasks

theorem Taken.cons_task (named : child.isNamed "task" = true)
    (read : parseOptional parseRoles (child.firstNamed "roles") = (task.roles, none)) {before : List Role}
    (taken : Taken rest before (task :: tasks) fresh) : Taken (child :: rest) before tasks fresh := by
  obtain ⟨items, whole, counted, each⟩ := taken.tasks
  have own : task.roles = ((child.firstNamed "roles").map fun node => (parseRoles node).1).getD [] := by
    cases inner : child.firstNamed "roles" with
    | none =>
      rw [inner] at read
      exact (Prod.mk.inj read).1.symm
    | some rolesNode =>
      rw [inner, parseOptional] at read
      rw [Option.map_some, Option.getD_some, read]
  refine ⟨List.forall_mem_cons.mpr ⟨?_, taken.good⟩, ?_, task :: items, ?_, ?_, ?_⟩
  · rw [readable, if_neg (by simp [not_roles named]), if_pos named, read]
    rfl
  · rw [taken.roles, rolesIn_cons_other (not_roles named)]
  · rw [whole, List.reverse_cons, List.append_assoc]
    rfl
  · rw [List.filter_cons_of_pos named, List.length_cons, List.length_cons, counted]
  · intro k other found
    cases k with
    | zero =>
      cases found
      rw [taskRolesIn_cons_zero named, own]
    | succ k =>
      rw [taskRolesIn_cons_task named]
      exact each k other found

private theorem parseRecipe_taken
    (parsed : parseRecipe world nodes i tasks result = (some fresh, none)) :
    Taken nodes result.roles tasks fresh := by
  induction nodes generalizing i tasks result with
  | nil =>
    cases parsed
    exact ⟨by simp, rfl, [], by simp, rfl, fun k task found => by simp at found⟩
  | cons child rest ih =>
    simp only [parseRecipe] at parsed
    split at parsed
    · rename_i named
      split at parsed
      · cases parsed
      · rename_i task error own
        exact (ih parsed).cons_task named (parseTask_roles own)
    · rename_i noTask
      split at parsed
      · rename_i named
        split at parsed
        · cases parsed
        · rename_i params read
          have noRoles : child.isNamed "roles" = false := RecipeGrammar.isNamed_eq_false named (by decide)
          have good : readable child = true := by
            rw [readable, if_neg (by simp [noRoles]), if_neg noTask]
          refine (ih parsed).cons_other good (Bool.eq_false_iff.mpr noTask) ?_
          rw [rolesIn_cons_other noRoles]
      · split at parsed
        · rename_i named
          split at parsed
          · cases parsed
          · rename_i roles read
            have good : readable child = true := by
              rw [readable, if_pos named, read]
              rfl
            refine (ih parsed).cons_other good (not_task named) ?_
            rw [rolesIn_cons_roles named, read]
        · rename_i noRoles
          have good : readable child = true := by
            rw [readable, if_neg noRoles, if_neg noTask]
          refine (ih parsed).cons_other good (Bool.eq_false_iff.mpr noTask) ?_
          rw [rolesIn_cons_other (Bool.eq_false_iff.mpr noRoles)]

/-! ## Refreshes -/

/-- What a document says of the roles of the recipe, and of those of the task in a place. -/
def recipeSays (n : Nat) (doc : Option Node) : Option (List Role) := rolesIn (said n doc)

def taskSays (n k : Nat) (doc : Option Node) : Option (List Role) := taskRolesIn (said n doc) k

/-- A recipe that takes over what is said. -/
def taking (recipe : Recipe Uri) (own : Option (List Role)) (each : Nat → Option (List Role)) : Recipe Uri :=
  { recipe with
    roles := own.getD recipe.roles
    tasks := recipe.tasks.mapIdx fun k task => { task with roles := (each k).getD task.roles } }

/-- A recipe with what was said last. -/
def latest (recipe : Recipe Uri) (docs : List (Option Node)) : Recipe Uri :=
  taking recipe (docs.filterMap (recipeSays recipe.tasks.length)).getLast? fun k =>
    (docs.filterMap (taskSays recipe.tasks.length k)).getLast?

private theorem taking_none : taking recipe none (fun _ => none) = recipe := by
  unfold taking
  simp only [Option.getD_none]
  rw [mapIdx_same fun _ _ => rfl]

private theorem taking_taking {own later : Option (List Role)} {each onward : Nat → Option (List Role)} :
    taking (taking recipe own each) later onward =
      taking recipe (later.or own) fun k => (onward k).or (each k) := by
  simp only [taking, List.mapIdx_mapIdx, Option.getD_or]
  rfl

private theorem updateRoles_takes : (updateRoles recipe doc).1 =
    taking recipe (recipeSays recipe.tasks.length doc) fun k => taskSays recipe.tasks.length k doc := by
  unfold updateRoles recipeSays taskSays said
  cases doc.bind findRecipe with
  | none => exact taking_none.symm
  | some recipeNode =>
    have taken : (updateChildren recipe.recipeId recipeNode.children recipe.roles recipe.tasks).1 = _ :=
      updateChildren_takes
    obtain ⟨own, others⟩ := Prod.ext_iff.mp taken
    dsimp only at own others ⊢
    rw [own, others]
    rfl

private theorem refreshes_latest : refreshes recipe docs = latest recipe docs := by
  induction docs using List.reverseRecOn with
  | nil => exact taking_none.symm
  | append_singleton docs doc ih =>
    have counted : (latest recipe docs).tasks.length = recipe.tasks.length := List.length_mapIdx
    have last (told : Option Node → Option (List Role)) : ((docs ++ [doc]).filterMap told).getLast? =
        (told doc).or (docs.filterMap told).getLast? := by
      rw [List.filterMap_append, List.getLast?_append]
      cases here : told doc <;> simp [here]
    rw [refreshes, List.foldl_append, List.foldl_cons, List.foldl_nil, ← refreshes, ih, updateRoles_takes, counted]
    unfold latest
    rw [taking_taking]
    simp only [last]

/-- **The roles of a task are those that were said last**, in whatever number of refreshes, also when
some of them failed or broke off, and nothing else of the recipe changes. A document that
`recipe_parse` accepts with the same number of tasks is taken over without an error, and says what
`recipe_parse` would make of it. -/
theorem roles_refreshed (recipe : Recipe Uri) (docs : List (Option Node)) :
    refreshes recipe docs = latest recipe docs ∧
    ∀ world doc uri (fresh : Recipe Uri), recipeParse world doc uri = (some fresh, none) →
      fresh.tasks.length = recipe.tasks.length →
      (updateRoles (refreshes recipe docs) doc).2 = none ∧
      fresh.roles = (recipeSays recipe.tasks.length doc).getD [] ∧
      ∀ k task, fresh.tasks[k]? = some task → task.roles = (taskSays recipe.tasks.length k doc).getD [] := by
  refine ⟨refreshes_latest, fun world doc uri fresh parsed same => ?_⟩
  unfold recipeParse at parsed
  cases doc with
  | none => cases parsed
  | some job =>
    dsimp only at parsed
    cases found : findRecipe job with
    | none =>
      rw [found] at parsed
      cases parsed
    | some recipeNode =>
      rw [found] at parsed
      have taken := parseRecipe_taken parsed
      obtain ⟨items, whole, counted, each⟩ := taken.tasks
      have all : fresh.tasks = items := whole
      have enough : (recipeNode.children.filter (Node.isNamed "task")).length ≤ recipe.tasks.length := by
        rw [← same, all, counted]
      have kept : (refreshes recipe docs).tasks.length = recipe.tasks.length := by
        rw [refreshes_latest]
        exact List.length_mapIdx
      have complete : said recipe.tasks.length (some job) = recipeNode.children := by
        rw [said, Option.bind_some, found, Option.elim_some]
        exact reached_complete taken.good enough
      refine ⟨?_, ?_, fun k task here => ?_⟩
      · unfold updateRoles
        rw [Option.bind_some, found]
        exact updateChildren_complete taken.good (kept ▸ enough)
      · rw [recipeSays, complete]
        exact taken.roles
      · rw [taskSays, complete]
        exact each k task (all ▸ here)

def roleNode (system : List Node) : Node :=
  .element "roles" [] [.element "role" [("value", "SERVERS".toList)] system]

def system : Node := .element "system" [("value", "a".toList)] []

/-- A job with a role of its task. -/
def serverJob : Node := exampleJob [exampleFetch, roleNode [system]]

/-- The recipe of the job after a refresh that failed. -/
theorem roles_refreshed_server : ∃ fresh : Recipe Text,
    recipeParse exampleWorld (some serverJob) none = (some fresh, none) ∧
      (updateRoles (refreshes fresh [none]) (some serverJob)).2 = none ∧
      fresh.tasks.map RecipeParse.Task.roles = [[⟨"SERVERS".toList, ['a']⟩]] ∧
      ∀ k task, fresh.tasks[k]? = some task →
        task.roles = (taskSays 1 k (some serverJob)).getD [] := by
  refine ⟨_, rfl, ?_⟩
  obtain ⟨quiet, -, each⟩ :=
    (roles_refreshed _ [none]).2 exampleWorld (some serverJob) none _ rfl rfl
  exact ⟨quiet, rfl, each⟩

/-! ## A refresh that breaks off -/

/-- Two tasks, the second one with a system that has no name. -/
def brokenJob : Node :=
  .element "recipe" [("id", "1".toList)] [.element "task" [] [roleNode [system]],
    .element "task" [] [roleNode [.element "system" [] []]]]

def exampleTask (id : Text) : RecipeParse.Task Text :=
  ⟨id, none, none, [], .installPackage [], false, false, [], [], false, false, 0⟩

/-- The first task has got its roles by then. -/
example : (updateChildren none brokenJob.children [] [exampleTask ['1'], exampleTask ['2']]).2 =
      some ⟨"Task 2 has 'system' element without 'value' attribute".toList⟩ ∧
    (updateChildren none brokenJob.children [] [exampleTask ['1'], exampleTask ['2']]).1.2.map
        RecipeParse.Task.roles = [[⟨"SERVERS".toList, ['a']⟩], []] := by
  decide

end Restraint.RoleRefresh

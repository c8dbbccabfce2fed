import Restraint.JobTemplateProofs

/-! The hosts that the parameters of a task list, against the effective roles: the role of the task
where it has one, the role of its recipe otherwise. Members are read from the template alone, with
no reference to how the tables are filled; where the role of a recipe is kept beside that of its
task the two can differ, and the condition says when. -/
namespace Restraint.EffectiveRoles
open CString (Text)
open Xml HashTable Restraint.JobTemplate Restraint.JobTemplateProofs

/-- A recipe of a set as far as roles go. -/
structure Member where
  host : Host
  role : Option Text
  /-- The roles of its tasks. -/
  tasks : List (Option Text)
  deriving DecidableEq

/-- The role kept at a position of the tables: at 0 the recipe's, at `j + 1` the task's. -/
def Member.roleAt (m : Member) : Nat → Option Text
  | 0 => m.role
  | j + 1 => (m.tasks[j]?).join

/-- The effective role at position `j`. -/
def Member.effective (m : Member) (j : Nat) : Option Text := (m.roleAt (j + 1)).or m.role

/-- The table kept at a position. -/
def tableAt (rsroles : RsRoles) (position : Nat) : Roles := (rsroles.lookup position).getD ∅

/-- The hosts of a role in a table. -/
def hostsOf (table : Roles) (role : Text) : List Host := (table.lookup role).getD []

/-- A table lists exactly these hosts for a role, each once, and no role without a host. -/
structure Lists (table : Roles) (role : Text) (hosts : Host → Prop) : Prop where
  occupied : table.lookup role ≠ some []
  once : (hostsOf table role).Nodup
  exactly (host : Host) : host ∈ hostsOf table role ↔ hosts host

variable {world : World} {table : Roles} {rsroles : RsRoles} {host : Host} {role : Text}
  {node : Node} {hosts : Host → Prop} {members : List Member} {position j : Nat}

theorem Lists.congr {others : Host → Prop} (lists : Lists table role hosts)
    (same : ∀ host, hosts host ↔ others host) : Lists table role others :=
  ⟨lists.occupied, lists.once, fun host => (lists.exactly host).trans (same host)⟩

theorem Lists.lookup_eq_none_iff (lists : Lists table role hosts) :
    table.lookup role = none ↔ ∀ host, ¬hosts host := by
  constructor
  · intro missing host member
    have listed := (lists.exactly host).mpr member
    rw [hostsOf, missing] at listed
    cases listed
  · intro nobody
    cases found : table.lookup role with
    | none => rfl
    | some hostlist =>
      cases hostlist with
      | nil => exact absurd found lists.occupied
      | cons host rest =>
        have listed : host ∈ hostsOf table role := by simp [hostsOf, found]
        exact absurd ((lists.exactly host).mp listed) (nobody host)

/-! ## Collection -/

theorem hostsOf_insert {own : Text} {hostlist : List Host} :
    hostsOf (table.insert own hostlist) role = if role = own then hostlist else hostsOf table role := by
  unfold hostsOf
  split
  · rename_i same
    rw [same, AList.lookup_insert]
    rfl
  · rename_i differ
    rw [AList.lookup_insert_ne differ]

private theorem getNodeRole_of_none (without : node.prop "role" = none) :
    getNodeRole node table host = (table, false) := by
  simp only [getNodeRole, without]

private theorem getNodeRole_of_some (own : node.prop "role" = some role) : getNodeRole node table host =
    (if host ∈ hostsOf table role then table else table.insert role (host :: hostsOf table role),
      true) := by
  simp only [getNodeRole, own]
  split
  · rename_i empty
    rw [hostsOf, empty, if_neg List.not_mem_nil]
  · rename_i hostlist occupied
    change (if host ∈ hostsOf table role then (table, true) else _) = _
    split <;> rfl

/-- A node with a role adds its host to the role, and to no other. -/
theorem getNodeRole_lists (lists : Lists table role hosts) :
    Lists (getNodeRole node table host).1 role
      (fun other => hosts other ∨ other = host ∧ node.prop "role" = some role) := by
  cases found : node.prop "role" with
  | none =>
    rw [getNodeRole_of_none found]
    exact lists.congr (by simp)
  | some own =>
    rw [getNodeRole_of_some found]
    dsimp only
    by_cases same : own = role
    · subst own
      split
      · rename_i known
        refine lists.congr fun other => ⟨Or.inl, ?_⟩
        rintro (member | ⟨rfl, -⟩)
        · exact member
        · exact (lists.exactly _).mp known
      · rename_i unknown
        refine ⟨by simp, ?_, fun other => ?_⟩
        · rw [hostsOf_insert, if_pos rfl]
          exact List.nodup_cons.mpr ⟨unknown, lists.once⟩
        · rw [hostsOf_insert, if_pos rfl]
          simp only [List.mem_cons, and_true, lists.exactly other]
          exact or_comm
    · have unchanged : Lists (if host ∈ hostsOf table own then table
          else table.insert own (host :: hostsOf table own)) role hosts := by
        split
        · exact lists
        · refine ⟨?_, ?_, fun other => ?_⟩
          · rw [AList.lookup_insert_ne (Ne.symm same)]
            exact lists.occupied
          · rw [hostsOf_insert, if_neg (Ne.symm same)]
            exact lists.once
          · rw [hostsOf_insert, if_neg (Ne.symm same)]
            exact lists.exactly other
      exact unchanged.congr (by simp [same])

private theorem tableAt_insert : tableAt (rsroles.insert position table) j =
    if j = position then table else tableAt rsroles j := by
  unfold tableAt
  split
  · rename_i same
    rw [same, AList.lookup_insert]
    rfl
  · rename_i differ
    rw [AList.lookup_insert_ne differ]

private theorem tableAt_collectTask : tableAt (collectTask host j node rsroles) position =
    if position = j + 1 then (getNodeRole node (tableAt rsroles (j + 1)) host).1
    else tableAt rsroles position := by
  unfold collectTask
  split
  · rename_i trole found
    rw [tableAt_insert, show tableAt rsroles (j + 1) = trole by simp [tableAt, found]]
  · rename_i missing
    have empty : tableAt rsroles (j + 1) = ∅ := by simp [tableAt, missing]
    cases own : node.prop "role" with
    | none =>
      simp only [getNodeRole_of_none own, empty]
      split
      · rename_i same
        rw [same, empty]
      · rfl
    | some role => simp only [getNodeRole_of_some own, tableAt_insert, empty]

/-- The tasks of a recipe change the tables of their positions. -/
theorem tableAt_collectTasks {tasks : List Node} :
    tableAt (collectTasks host j tasks rsroles) (position + 1) =
      match if j ≤ position then tasks[position - j]? else none with
      | some tnode => (getNodeRole tnode (tableAt rsroles (position + 1)) host).1
      | none => tableAt rsroles (position + 1) := by
  induction tasks generalizing j rsroles with
  | nil => simp [collectTasks]
  | cons tnode rest ih =>
    rw [collectTasks, ih, tableAt_collectTask]
    rcases Nat.lt_trichotomy position j with before | rfl | after
    · rw [if_neg (by omega), if_neg (by omega), if_neg (by omega)]
    · rw [if_neg (by omega), if_pos (Nat.le_refl _), if_pos rfl, Nat.sub_self]
      rfl
    · have later : ¬position + 1 = j + 1 := by omega
      have further : position - j = position - (j + 1) + 1 := by omega
      rw [if_neg later, if_pos (Nat.succ_le_of_lt after), if_pos (Nat.le_of_lt after), further,
        List.getElem?_cons_succ]

private theorem tableAt_collectTasks_zero {tasks : List Node} :
    tableAt (collectTasks host j tasks rsroles) 0 = tableAt rsroles 0 := by
  induction tasks generalizing j rsroles with
  | nil => rfl
  | cons tnode rest ih => rw [collectTasks, ih, tableAt_collectTask, if_neg (by omega)]

/-- The tables of a set hold the roles of its recipes and their tasks. -/
def Recorded (rsroles : RsRoles) (members : List Member) : Prop :=
  ∀ position role, Lists (tableAt rsroles position) role
    fun host => ∃ m ∈ members, m.roleAt position = some role ∧ m.host = host

/-- The member a recipe of the template is. -/
def member (host : Host) (node : Node) : Member where
  host := host
  role := node.prop "role"
  tasks := (node.named "task").map (Node.prop "role")

private theorem recorded_start : Recorded ((∅ : RsRoles).insert 0 ∅) [] := by
  intro position role
  have empty : tableAt ((∅ : RsRoles).insert 0 ∅) position = ∅ := by
    rw [tableAt_insert]
    split <;> rfl
  rw [empty]
  exact ⟨by simp, List.nodup_nil, by simp [hostsOf]⟩

/-- A recipe is added to the tables of a set. -/
theorem recorded_recipe (recorded : Recorded rsroles members) :
    Recorded (collectTasks host 0 (node.named "task")
      (rsroles.insert 0 (getNodeRole node (tableAt rsroles 0) host).1))
      (members ++ [member host node]) := by
  intro position role
  have extended : ∀ other, ((∃ m ∈ members, m.roleAt position = some role ∧ m.host = other) ∨
      other = host ∧ (member host node).roleAt position = some role) ↔
      ∃ m ∈ members ++ [member host node], m.roleAt position = some role ∧ m.host = other := by
    intro other
    simp only [List.mem_append, List.mem_singleton, or_and_right, exists_or, exists_eq_left]
    apply or_congr_right
    rw [and_comm, eq_comm (a := other)]
    rfl
  cases position with
  | zero =>
    rw [tableAt_collectTasks_zero, tableAt_insert, if_pos rfl]
    exact (getNodeRole_lists (recorded 0 role)).congr extended
  | succ position =>
    have before : tableAt (rsroles.insert 0 (getNodeRole node (tableAt rsroles 0) host).1)
        (position + 1) = tableAt rsroles (position + 1) := by
      rw [tableAt_insert, if_neg (Nat.succ_ne_zero _)]
    have own : (member host node).roleAt (position + 1) =
        ((node.named "task")[position]?).bind (Node.prop "role") := by
      simp only [Member.roleAt, member, List.getElem?_map]
      cases (node.named "task")[position]? <;> rfl
    rw [tableAt_collectTasks, if_pos (Nat.zero_le _), Nat.sub_zero, before]
    cases task : (node.named "task")[position]? with
    | none =>
      apply (recorded (position + 1) role).congr
      intro other
      rw [← extended, own, task]
      simp
    | some tnode =>
      apply (getNodeRole_lists (recorded (position + 1) role)).congr
      intro other
      rw [← extended, own, task]
      rfl

/-- The recipes of a set as members. -/
def membersOf (world : World) (recipes : List (Text × Node)) : List Member :=
  recipes.filterMap fun recipe => (world.hosts recipe.1).map fun host => member host recipe.2

/-- The loop over the recipes records each of them. -/
theorem recorded_recipes {recipes : List Node} {s t : Copying}
    (recorded : Recorded s.rsroles members)
    (copied : recipes.foldlM (copyRecipe world) s = .ok t) :
    Recorded t.rsroles (members ++ membersOf world (numbered s.recipeId recipes)) := by
  induction recipes generalizing s members with
  | nil =>
    cases copied
    simpa [numbered, membersOf] using recorded
  | cons node rest ih =>
    obtain ⟨u, first, others⟩ := bind_ok copied
    obtain ⟨host, found, rfl⟩ := copyRecipe_ok first
    have later := ih (recorded_recipe recorded) others
    rw [List.append_assoc] at later
    simpa only [numbered, membersOf, List.filterMap_cons, found, Option.map_some,
      List.singleton_append] using later

private theorem recorded_set {rsnode : Node} {next : UInt32} {created : Nat} {s : Copying}
    (copied : copySet world next created rsnode = .ok s) :
    Recorded s.rsroles (membersOf world (numbered next (rsnode.named "recipe"))) :=
  recorded_recipes recorded_start (copySet_ok copied)

/-! ## Distribution -/

/-- The value of the first parameter of that name. -/
def value (role : Text) (rParams : List Node) : Option (Option Text) :=
  (rParams.find? (isParam role)).map (Node.prop "value")

/-- The value of a parameter of a task. -/
def taskParam (role : Text) (tnode : Node) : Option (Option Text) :=
  (tnode.firstNamed "params").bind fun params => value role params.children

private theorem isParam_setParam {hostlist : List Host} {own : Text}
    (element : node.isNamed "param" = true) :
    isParam role (setParam own hostlist node) = (own == role) := by
  have named : (setParam own hostlist node).prop "name" = some own :=
    (prop_setProp_of_ne (by decide)).trans (prop_setProp element)
  have kept : (setParam own hostlist node).isNamed "param" = true :=
    isNamed_setProp.trans (isNamed_setProp.trans element)
  rw [isParam, kept, named]
  rfl

private theorem value_setParam {hostlist : List Host} (element : node.isNamed "param" = true) :
    (setParam role hostlist node).prop "value" = some (hoststr hostlist) :=
  prop_setProp (isNamed_setProp.trans element)

private theorem isNamed_of_isParam (found : isParam role node = true) : node.isNamed "param" = true :=
  (Bool.and_eq_true_iff.mp found).1

private theorem isParam_unique {own : Text} (found : isParam own node = true) :
    isParam role node = (own == role) := by
  obtain ⟨element, named⟩ := Bool.and_eq_true_iff.mp found
  rw [isParam, element, eq_of_beq named]
  rfl

/-- One parameter is set and the others stay. -/
theorem value_addRParams {hostlist : List Host} {own : Text} {rParams : List Node} :
    value role (addRParams own hostlist rParams) =
      if own = role then some (some (hoststr hostlist)) else value role rParams := by
  have fresh : (Node.element "param" [] []).isNamed "param" = true := rfl
  unfold value addRParams
  split
  · rename_i same
    subst own
    have element : ((rParams.find? (isParam role)).getD (.element "param" [] [])).isNamed "param" =
        true := by
      cases found : rParams.find? (isParam role) with
      | none => rfl
      | some param => exact isNamed_of_isParam (List.find?_some found)
    rw [find?_updateFirst ((isParam_setParam fresh).trans (beq_self_eq_true role)) fun node found =>
      (isParam_setParam (isNamed_of_isParam found)).trans (beq_self_eq_true role),
      Option.map_some, value_setParam element]
  · rename_i differ
    have apart : (own == role) = false := beq_false_of_ne differ
    rw [find?_updateFirst_of_other ((isParam_setParam fresh).trans apart) fun node found =>
      ⟨(isParam_unique found).trans apart,
        (isParam_setParam (isNamed_of_isParam found)).trans apart⟩]

/-- The roles of a position: the tasks' where they have the role, the recipes' otherwise. -/
theorem lookup_localRoles : (localRoles world rsroles j).lookup role =
    ((tableAt rsroles (j + 1)).lookup role).or ((tableAt rsroles 0).lookup role) := by
  unfold localRoles tableAt
  dsimp only
  cases rsroles.lookup (j + 1) with
  | none => rfl
  | some troles =>
    simp only [mergeRoles, lookup_foldl_insert_missing, lookup_foldl_insert, Walk.dlookup,
      AList.lookup_empty, Option.or_none, Option.getD_some]

/-- Setting the parameters of all roles of a table. -/
theorem value_foldl_addRParams {rParams : List Node} :
    value role ((world.walk.entries table).foldl
      (fun rParams entry => addRParams entry.1 entry.2 rParams) rParams) =
      ((table.lookup role).map fun hostlist => some (some (hoststr hostlist))).getD
        (value role rParams) := by
  rw [← Walk.dlookup]
  exact foldl_written world.walk.nodupKeys fun _ _ => value_addRParams

/-- The parameters of a task after the distribution. -/
theorem taskParam_giveRoles {jobmembers recipemembers : List Host} {own : String}
    (element : node.isNamed own = true) :
    taskParam role (giveRoles world rsroles jobmembers recipemembers j node) =
      if "RECIPE_MEMBERS".toList = role then some (some (hoststr recipemembers))
      else if "JOB_MEMBERS".toList = role then some (some (hoststr jobmembers))
      else (((localRoles world rsroles j).lookup role).map
        fun hostlist => some (some (hoststr hostlist))).getD (taskParam role node) := by
  have fresh : (Node.element "params" [] []).isNamed "params" = true := rfl
  have found : ((node.firstNamed "params").getD (.element "params" [] [])).isNamed "params" =
      true := by
    cases first : node.firstNamed "params" with
    | none => rfl
    | some params => exact List.find?_some first
  have before : value role ((node.firstNamed "params").getD (.element "params" [] [])).children =
      taskParam role node := by
    unfold taskParam
    cases node.firstNamed "params" <;> rfl
  rw [taskParam, giveRoles, Node.firstNamed, children_withChildren element,
    find?_updateFirst (isNamed_withChildren.trans fresh) fun _ named =>
      isNamed_withChildren.trans named, Option.bind_some, ← Node.firstNamed,
    children_withChildren found]
  dsimp only
  rw [value_addRParams, value_addRParams, value_foldl_addRParams, before]

/-- The members of a set or of the job, each once. -/
theorem mem_getRecipeMembers {recipes : List Node} {hostlist : List Host}
    (hosted : ∀ node ∈ recipes, ((node.prop "id").bind world.hosts).isSome)
    (once : hostlist.Nodup) :
    (getRecipeMembers world.hosts recipes hostlist).Nodup ∧
      ∀ host, host ∈ getRecipeMembers world.hosts recipes hostlist ↔
        host ∈ hostlist ∨ ∃ node ∈ recipes, (node.prop "id").bind world.hosts = some host := by
  induction recipes generalizing hostlist with
  | nil => exact ⟨once, by simp [getRecipeMembers]⟩
  | cons node rest ih =>
    obtain ⟨own, found⟩ := Option.isSome_iff_exists.mp (hosted node List.mem_cons_self)
    have others := fun node member => hosted node (List.mem_cons_of_mem _ member)
    simp only [getRecipeMembers, found]
    by_cases known : own ∈ hostlist
    · rw [if_pos known]
      obtain ⟨nodup, listed⟩ := ih others once
      refine ⟨nodup, fun host => (listed host).trans ?_⟩
      simp only [List.mem_cons, exists_eq_or_imp, found, Option.some.injEq]
      constructor
      · rintro (member | member)
        · exact .inl member
        · exact .inr (.inr member)
      · rintro (member | rfl | member)
        · exact .inl member
        · exact .inl known
        · exact .inr member
    · rw [if_neg known]
      obtain ⟨nodup, listed⟩ := ih others (List.nodup_cons.mpr ⟨known, once⟩)
      refine ⟨nodup, fun host => (listed host).trans ?_⟩
      simp only [List.mem_cons, exists_eq_or_imp, found, Option.some.injEq, eq_comm (a := own),
        or_assoc]
      exact or_left_comm

/-- A list of members: the hosts of these recipes, each once. -/
def ListsMembers (hostlist : List Host) (members : List Member) : Prop :=
  hostlist.Nodup ∧ ∀ host, host ∈ hostlist ↔ ∃ m ∈ members, m.host = host

private theorem mem_membersOf {recipes : List (Text × Node)} :
    (∃ m ∈ membersOf world recipes, m.host = host) ↔
    ∃ recipe ∈ recipes, world.hosts recipe.1 = some host := by
  simp only [membersOf, List.mem_filterMap, Option.map_eq_some_iff]
  constructor
  · rintro ⟨m, ⟨recipe, listed, own, found, rfl⟩, rfl⟩
    exact ⟨recipe, listed, found⟩
  · rintro ⟨recipe, listed, found⟩
    exact ⟨_, ⟨recipe, listed, host, found, rfl⟩, rfl⟩

private theorem listsMembers_copies {recipes : List (Text × Node)} {created : Nat}
    (hosted : ∀ recipe ∈ recipes, (world.hosts recipe.1).isSome) :
    ListsMembers (getRecipeMembers world.hosts
      (recipes.mapIdx fun i recipe => copyNode world (created + i) recipe.1 recipe.2) [])
      (membersOf world recipes) := by
  have ids : ∀ node ∈ recipes.mapIdx fun i recipe => copyNode world (created + i) recipe.1 recipe.2,
      ∃ recipe ∈ recipes, node.prop "id" = some recipe.1 := by
    intro node member
    obtain ⟨i, bound, rfl⟩ := List.mem_mapIdx.mp member
    exact ⟨recipes[i], List.getElem_mem bound, prop_id_copyNode⟩
  have all : ∀ node ∈ recipes.mapIdx fun i recipe => copyNode world (created + i) recipe.1 recipe.2,
      ((node.prop "id").bind world.hosts).isSome := by
    intro node member
    obtain ⟨recipe, known, id⟩ := ids node member
    rw [id]
    exact hosted recipe known
  obtain ⟨nodup, listed⟩ := mem_getRecipeMembers all List.nodup_nil
  refine ⟨nodup, fun host => (listed host).trans ?_⟩
  rw [mem_membersOf]
  constructor
  · rintro (member | ⟨node, member, found⟩)
    · cases member
    · obtain ⟨recipe, known, id⟩ := ids node member
      rw [id] at found
      exact ⟨recipe, known, found⟩
  · rintro ⟨recipe, known, found⟩
    obtain ⟨i, bound, rfl⟩ := List.mem_iff_getElem.mp known
    refine .inr ⟨_, List.mem_mapIdx.mpr ⟨i, bound, rfl⟩, ?_⟩
    rw [prop_id_copyNode]
    exact found

/-- The members of a recipe set of the template. -/
def setMembers (world : World) (template : Node) (rs : Nat) : List Member :=
  membersOf world (((numberedSets 1 (template.named "recipeSet"))[rs]?).getD [])

def jobMembers (world : World) (template : Node) : List Member :=
  membersOf world (numberedSets 1 (template.named "recipeSet")).flatten

variable {template job task : Node} {rs i : Nat}

/-- A task of the job is the copy of the task of the template, with the roles of its set. -/
theorem taskAt_job (copied : copyJobAsTemplate world template = .ok job)
    (found : taskAt template rs i j = some task) :
    ∃ rsroles jobmembers recipemembers,
      taskAt job rs i j =
        some (giveRoles world rsroles jobmembers recipemembers j (copyTaskNode j task)) ∧
      Recorded rsroles (setMembers world template rs) ∧
      ListsMembers recipemembers (setMembers world template rs) ∧
      ListsMembers jobmembers (jobMembers world template) ∧
      ∃ m, m ∈ setMembers world template rs := by
  obtain ⟨-, copies, sets, rfl⟩ := copyJobAsTemplate_ok copied
  obtain ⟨rsnode, set, rest⟩ := Option.bind_eq_some_iff.mp found
  obtain ⟨node, recipe, place⟩ := Option.bind_eq_some_iff.mp rest
  obtain ⟨first, before, s, ran, copy, ids⟩ := (copySets_get sets).2 rs rsnode set
  have posroles : (copies.map Prod.snd)[rs]? = some s.rsroles := by rw [List.getElem?_map, copy]; rfl
  have members : setMembers world template rs =
      membersOf world (numbered first (rsnode.named "recipe")) := by
    rw [setMembers, ids]
    rfl
  have recipes : (Node.element "recipeSet" [] s.recipes).named "recipe" =
      (numbered first (rsnode.named "recipe")).mapIdx
        fun i recipe => copyNode world (before + i) recipe.1 recipe.2 := by
    rw [copySet_recipes ran, named_copies]
  have all : recipesOf (.element "job" [] (copies.map Prod.fst)) =
      (numberedSets 1 (template.named "recipeSet")).flatten.mapIdx
        fun i recipe => copyNode world (0 + i) recipe.1 recipe.2 := by
    rw [recipesOf_copies sets, flatten_numberedSets]
  have numberedNode : ∃ id, (numbered first (rsnode.named "recipe"))[i]? = some (id, node) := by
    have second : ((numbered first (rsnode.named "recipe")).map Prod.snd)[i]? = some node := by
      rw [map_snd_numbered, recipe]
    rw [List.getElem?_map] at second
    obtain ⟨⟨id, own⟩, listed, rfl⟩ := Option.map_eq_some_iff.mp second
    exact ⟨id, listed⟩
  obtain ⟨id, numberedNode⟩ := numberedNode
  refine ⟨s.rsroles,
    getRecipeMembers world.hosts (recipesOf (.element "job" [] (copies.map Prod.fst))) [],
    getRecipeMembers world.hosts ((Node.element "recipeSet" [] s.recipes).named "recipe") [],
    ?_, members ▸ recorded_set ran, ?_, ?_, ?_⟩
  · rw [taskAt, named_distribute, List.getElem?_mapIdx, named_job sets, posroles,
      List.getElem?_map, copy]
    simp only [Option.map_some, Option.bind_some, Option.getD_some]
    rw [named_recipe_mapNamed, List.getElem?_map, recipes, List.getElem?_mapIdx, numberedNode]
    simp only [Option.map_some, Option.bind_some]
    rw [named_mapNamed fun _ _ => isNamed_giveRoles, named_task_copyNode, List.getElem?_mapIdx,
      List.getElem?_mapIdx, place, all]
    rfl
  · rw [recipes, members]
    exact listsMembers_copies (copySet_hosted ran)
  · rw [all]
    exact listsMembers_copies (copySets_hosted sets)
  · have listed := List.mem_of_getElem? numberedNode
    obtain ⟨host, hosted⟩ := Option.isSome_iff_exists.mp (copySet_hosted ran _ listed)
    obtain ⟨m, member, -⟩ := mem_membersOf.mpr ⟨_, listed, hosted⟩
    exact ⟨m, members ▸ member⟩

private theorem subset_jobMembers {m : Member} (member : m ∈ setMembers world template rs) :
    m ∈ jobMembers world template := by
  unfold setMembers at member
  cases set : (numberedSets 1 (template.named "recipeSet"))[rs]? with
  | none =>
    rw [set] at member
    cases member
  | some recipes =>
    rw [set] at member
    obtain ⟨recipe, listed, found⟩ := List.mem_filterMap.mp member
    exact List.mem_filterMap.mpr
      ⟨recipe, List.mem_flatten.mpr ⟨recipes, List.mem_of_getElem? set, listed⟩, found⟩

/-! ## Effective roles -/

/-- The hosts whose effective role at a position is this one. -/
def Effective (members : List Member) (j : Nat) (role : Text) (host : Host) : Prop :=
  ∃ m ∈ members, m.effective j = some role ∧ m.host = host

instance (members : List Member) (j : Nat) (role : Text) (host : Host) :
    Decidable (Effective members j role host) :=
  inferInstanceAs (Decidable (∃ m ∈ members, m.effective j = some role ∧ m.host = host))

/-- A parameter lists exactly these hosts; without a host it is absent. -/
def Gives (role : Text) (tnode : Node) (hosts : Host → Prop) : Prop :=
  match taskParam role tnode with
  | none => ∀ host, ¬hosts host
  | some value => ∃ hoststr, value = some hoststr ∧ (hoststr.splitOn ' ').Nodup ∧
    ∀ name, name ∈ hoststr.splitOn ' ' ↔ ∃ host, hosts host ∧ host.name = name

/-- A recipe that has the role by default shares its host with a task that has it. -/
def DefaultsCovered (set : List Member) (j : Nat) (role : Text) : Prop :=
  ∀ m ∈ set, m.roleAt (j + 1) = none → m.role = some role →
    ∃ other ∈ set, other.roleAt (j + 1) = some role ∧ other.host = m.host

instance (set : List Member) (j : Nat) (role : Text) : Decidable (DefaultsCovered set j role) := by
  unfold DefaultsCovered
  infer_instance

/-- A recipe whose task overrides the role shares its host with one that has it by default. -/
def OverridesCovered (set : List Member) (j : Nat) (role : Text) : Prop :=
  ∀ m ∈ set, m.roleAt (j + 1) ≠ none → m.role = some role →
    ∃ other ∈ set, other.roleAt (j + 1) = none ∧ other.role = some role ∧ other.host = m.host

instance (set : List Member) (j : Nat) (role : Text) : Decidable (OverridesCovered set j role) := by
  unfold OverridesCovered
  infer_instance

/-- When defaults and overrides come to the same: where tasks have the role, no default stands
beside them, and where they have not, no override takes it away, unless the host has the role
anyway. The members are hosts of every role. -/
def Agrees (job set : List Member) (task : Node) (j : Nat) (role : Text) : Prop :=
  if "RECIPE_MEMBERS".toList = role then ∀ m ∈ set, Effective set j role m.host
  else if "JOB_MEMBERS".toList = role then ∀ m ∈ job, Effective set j role m.host
  else if ∃ m ∈ set, m.roleAt (j + 1) = some role then DefaultsCovered set j role
  else if ∃ m ∈ set, m.role = some role then OverridesCovered set j role
  else taskParam role task = none

instance (job set : List Member) (task : Node) (j : Nat) (role : Text) :
    Decidable (Agrees job set task j role) := by
  unfold Agrees
  infer_instance

private theorem splitOn_hoststr {hostlist : List Host} (occupied : hostlist ≠ []) :
    (hoststr hostlist).splitOn ' ' = hostlist.map Host.name := by
  refine List.splitOn_intercalate ' ' ?_ (by simpa using occupied)
  intro name member
  obtain ⟨host, -, rfl⟩ := List.mem_map.mp member
  exact host.unblanked

/-- A parameter with the right hosts. -/
theorem gives_hoststr_iff {hostlist : List Host}
    (listed : taskParam role node = some (some (hoststr hostlist))) (occupied : hostlist ≠ [])
    (once : hostlist.Nodup) : Gives role node hosts ↔ ∀ host, host ∈ hostlist ↔ hosts host := by
  have distinct : (hostlist.map Host.name).Nodup := once.map fun _ _ => Host.ext
  simp only [Gives, listed, Option.some.injEq, exists_eq_left', splitOn_hoststr occupied, distinct,
    true_and, List.mem_map]
  constructor
  · intro same host
    have value := same host.name
    constructor
    · intro member
      obtain ⟨other, effective, equal⟩ := value.mp ⟨host, member, rfl⟩
      rwa [← Host.ext equal]
    · intro effective
      obtain ⟨other, member, equal⟩ := value.mpr ⟨host, effective, rfl⟩
      rwa [← Host.ext equal]
  · intro same name
    simp only [same]

private theorem effective_eq_some {m : Member} : m.effective j = some role ↔
    m.roleAt (j + 1) = some role ∨ m.roleAt (j + 1) = none ∧ m.role = some role :=
  Option.or_eq_some_iff

variable {set : List Member} {hostlist : List Host}

/-- A parameter that lists the hosts of some members, all those with the effective role among
them. -/
theorem gives_members_iff (listed : taskParam role node = some (some (hoststr hostlist)))
    (all : ListsMembers hostlist members) (inhabited : ∃ m, m ∈ members)
    (among : ∀ m ∈ set, m ∈ members) :
    Gives role node (Effective set j role) ↔ ∀ m ∈ members, Effective set j role m.host := by
  have occupied : hostlist ≠ [] := by
    obtain ⟨m, member⟩ := inhabited
    exact List.ne_nil_of_mem ((all.2 m.host).mpr ⟨m, member, rfl⟩)
  rw [gives_hoststr_iff listed occupied all.1]
  constructor
  · intro same m member
    exact (same m.host).mp ((all.2 m.host).mpr ⟨m, member, rfl⟩)
  · intro effective host
    refine (all.2 host).trans ⟨?_, ?_⟩
    · rintro ⟨m, member, rfl⟩
      exact effective m member
    · rintro ⟨m, member, -, rfl⟩
      exact ⟨m, among m member, rfl⟩

/-- A parameter that lists the hosts of a role in a table. -/
theorem gives_table_iff (lists : Lists table role hosts) {others : Host → Prop}
    (listed : table.lookup role = some hostlist)
    (given : taskParam role node = some (some (hoststr hostlist))) :
    Gives role node others ↔ ∀ host, hosts host ↔ others host := by
  have known : hostsOf table role = hostlist := by rw [hostsOf, listed]; rfl
  have occupied : hostlist ≠ [] := by
    rintro rfl
    exact lists.occupied listed
  rw [gives_hoststr_iff given occupied (known ▸ lists.once)]
  have exactly (host : Host) : host ∈ hostlist ↔ hosts host := known ▸ lists.exactly host
  simp only [exactly]

/-- Where no host has the effective role, only a parameter that is not there is right. -/
theorem gives_nobody_iff (nobody : ∀ host, ¬hosts host) :
    Gives role node hosts ↔ taskParam role node = none := by
  unfold Gives
  split
  · rename_i absent
    simp [absent, nobody]
  · rename_i value present
    simp only [present, reduceCtorEq, iff_false]
    rintro ⟨hoststr, -, -, same⟩
    obtain ⟨name, listed⟩ := List.exists_mem_of_ne_nil _ (List.splitOn_ne_nil ' ' hoststr)
    obtain ⟨host, member, -⟩ := (same name).mp listed
    exact nobody host member

/-- The tasks with the role are all of it when every recipe that has it by default shares a host
with one of them. -/
theorem defaultsCovered_iff : (∀ host, (∃ m ∈ set, m.roleAt (j + 1) = some role ∧ m.host = host) ↔
      Effective set j role host) ↔ DefaultsCovered set j role := by
  constructor
  · intro same m member without default
    exact (same m.host).mpr ⟨m, member, effective_eq_some.mpr (.inr ⟨without, default⟩), rfl⟩
  · intro shared host
    constructor
    · rintro ⟨m, member, own, rfl⟩
      exact ⟨m, member, effective_eq_some.mpr (.inl own), rfl⟩
    · rintro ⟨m, member, effective, rfl⟩
      rcases effective_eq_some.mp effective with own | ⟨without, default⟩
      · exact ⟨m, member, own, rfl⟩
      · exact shared m member without default

/-- The recipes with the role are all of it when every one whose task overrides it shares a host
with one whose task does not. -/
theorem overridesCovered_iff (unassigned : ¬∃ m ∈ set, m.roleAt (j + 1) = some role) :
    (∀ host, (∃ m ∈ set, m.roleAt 0 = some role ∧ m.host = host) ↔ Effective set j role host) ↔
      OverridesCovered set j role := by
  have effective_iff {m : Member} (member : m ∈ set) :
      m.effective j = some role ↔ m.roleAt (j + 1) = none ∧ m.role = some role := by
    refine effective_eq_some.trans (or_iff_right ?_)
    exact fun own => unassigned ⟨m, member, own⟩
  constructor
  · intro same m member overridden default
    obtain ⟨other, known, effective, shared⟩ := (same m.host).mp ⟨m, member, default, rfl⟩
    obtain ⟨without, own⟩ := (effective_iff known).mp effective
    exact ⟨other, known, without, own, shared⟩
  · intro shared host
    constructor
    · rintro ⟨m, member, default, rfl⟩
      by_cases without : m.roleAt (j + 1) = none
      · exact ⟨m, member, (effective_iff member).mpr ⟨without, default⟩, rfl⟩
      · obtain ⟨other, known, plain, own, same⟩ := shared m member without default
        exact ⟨other, known, (effective_iff known).mpr ⟨plain, own⟩, same⟩
    · rintro ⟨m, member, effective, rfl⟩
      exact ⟨m, member, ((effective_iff member).mp effective).2, rfl⟩

/-- A role that some member has is listed in the table. -/
theorem listed_iff (lists : Lists table role fun host =>
      ∃ m ∈ set, m.roleAt position = some role ∧ m.host = host) :
    (∃ m ∈ set, m.roleAt position = some role) ↔ ∃ hostlist, table.lookup role = some hostlist := by
  rw [← Option.isSome_iff_exists, ← Option.ne_none_iff_isSome, ne_eq, lists.lookup_eq_none_iff]
  constructor
  · rintro ⟨m, member, own⟩ nobody
    exact nobody m.host ⟨m, member, own, rfl⟩
  · intro somebody
    by_contra nobody
    exact somebody fun host ⟨m, member, own, _⟩ => nobody ⟨m, member, own⟩

/-- For every task of a job that is copied, the parameter of a role lists exactly the hosts with
that effective role if and only if the defaults and overrides agree on it. -/
theorem parameter_gives_effective_iff (copied : copyJobAsTemplate world template = .ok job)
    (found : taskAt template rs i j = some task) :
    ∃ tnode, taskAt job rs i j = some tnode ∧
      (Gives role tnode (Effective (setMembers world template rs) j role) ↔
        Agrees (jobMembers world template) (setMembers world template rs) task j role) := by
  obtain ⟨rsroles, jobmembers, recipemembers, place, recorded, recipesListed, jobListed, m, inside⟩ :=
    taskAt_job copied found
  refine ⟨_, place, ?_⟩
  have element : (copyTaskNode j task).isNamed "task" = true :=
    isNamed_copyTaskNode.trans (beq_self_eq_true "task")
  have own : taskParam role (copyTaskNode j task) = taskParam role task := by
    rw [taskParam, firstNamed_params_copyTaskNode, taskParam]
  have given : taskParam role
      (giveRoles world rsroles jobmembers recipemembers j (copyTaskNode j task)) = _ :=
    taskParam_giveRoles element
  rw [own, lookup_localRoles] at given
  have taskRoles := recorded (j + 1) role
  have recipeRoles := recorded 0 role
  unfold Agrees
  split
  · rename_i recipes
    rw [if_pos recipes] at given
    exact gives_members_iff given recipesListed ⟨m, inside⟩ fun _ member => member
  rename_i notRecipes
  rw [if_neg notRecipes] at given
  split
  · rename_i job
    rw [if_pos job] at given
    exact gives_members_iff given jobListed ⟨m, subset_jobMembers inside⟩ fun _ =>
      subset_jobMembers
  rename_i notJob
  rw [if_neg notJob] at given
  split
  · rename_i assigned
    obtain ⟨hostlist, listed⟩ := (listed_iff taskRoles).mp assigned
    rw [listed] at given
    exact (gives_table_iff taskRoles listed given).trans defaultsCovered_iff
  rename_i unassigned
  have missing : (tableAt rsroles (j + 1)).lookup role = none :=
    Option.eq_none_iff_forall_ne_some.mpr fun hostlist listed =>
      unassigned ((listed_iff taskRoles).mpr ⟨hostlist, listed⟩)
  rw [missing] at given
  split
  · rename_i default
    obtain ⟨hostlist, listed⟩ := (listed_iff recipeRoles).mp default
    rw [listed] at given
    exact (gives_table_iff recipeRoles listed given).trans (overridesCovered_iff unassigned)
  · rename_i undefaulted
    have absent : (tableAt rsroles 0).lookup role = none :=
      Option.eq_none_iff_forall_ne_some.mpr fun hostlist listed =>
        undefaulted ((listed_iff recipeRoles).mpr ⟨hostlist, listed⟩)
    rw [absent] at given
    rw [gives_nobody_iff, given]
    · rfl
    · rintro host ⟨m, member, effective, -⟩
      rcases effective_eq_some.mp effective with assigned | ⟨-, default⟩
      · exact unassigned ⟨m, member, assigned⟩
      · exact undefaulted ⟨m, member, default⟩

def alpha : Host := ⟨"alpha".toList, by decide, by decide⟩

def beta : Host := ⟨"beta".toList, by decide, by decide⟩

/-- The first recipe runs on alpha and the second on beta. -/
def twoHosts : World where
  hosts id := if id = "1".toList then some alpha else if id = "2".toList then some beta else none
  rand _ := 1804289383
  time created := created
  walk := .plain

/-- Two recipes are servers, and the task of the first may have another role. -/
def twoServers (role : List (String × Text)) : Node :=
  .element "job" [] [.element "recipeSet" []
    [.element "recipe" [("role", "SERVERS".toList)] [.element "task" role []],
      .element "recipe" [("role", "SERVERS".toList)] [.element "task" [] []]]]

/-- With the role of both recipes, the second task's servers are both. -/
theorem parameter_gives_effective_servers :
    ∃ job tnode, copyJobAsTemplate twoHosts (twoServers []) = .ok job ∧
      taskAt job 0 1 0 = some tnode ∧
      Gives "SERVERS".toList tnode
        (Effective (setMembers twoHosts (twoServers []) 0) 0 "SERVERS".toList) := by
  have copied : copyJobAsTemplate twoHosts (twoServers []) = .ok _ := rfl
  have found : taskAt (twoServers []) 0 1 0 = some _ := rfl
  obtain ⟨tnode, place, gives⟩ := parameter_gives_effective_iff copied found
  exact ⟨_, tnode, copied, place, gives.mpr (by decide)⟩

/-- When the task of the first recipe is a client, the servers are still both. -/
theorem servers_despite_override :
    ∃ job tnode, copyJobAsTemplate twoHosts (twoServers [("role", "CLIENTS".toList)]) = .ok job ∧
      taskAt job 0 1 0 = some tnode ∧
      taskParam "SERVERS".toList tnode = some (some "beta alpha".toList) ∧
      ¬Gives "SERVERS".toList tnode (Effective (setMembers twoHosts
        (twoServers [("role", "CLIENTS".toList)]) 0) 0 "SERVERS".toList) := by
  refine ⟨_, _, rfl, rfl, rfl, ?_⟩
  rintro ⟨hoststr, listed, -, exactly⟩
  have first : "alpha".toList ∈ hoststr.splitOn ' ' := by
    rw [← Option.some.inj listed]
    decide
  obtain ⟨host, effective, name⟩ := (exactly _).mp first
  have server : ¬Effective (setMembers twoHosts (twoServers [("role", "CLIENTS".toList)]) 0) 0
      "SERVERS".toList alpha := by decide
  have same : host = alpha := Host.ext name
  exact server (same ▸ effective)

end Restraint.EffectiveRoles

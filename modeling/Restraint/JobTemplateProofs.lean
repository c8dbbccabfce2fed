import Restraint.JobTemplate

/-! The shape of the job that is copied from a template: its recipe sets, recipes and tasks are
those of the template, in their order, with the ids of their numbers. Nothing is said yet of what
the parameters contain; a task is found in the copy at the place that it has in the template. -/
namespace Restraint.JobTemplateProofs
open CString (Text)
open Xml HashTable Restraint.JobTemplate

variable {world : World} {node task : Node} {nodes recipes sets : List Node} {next : UInt32}
  {created i j : Nat} {id : Text} {s t : Copying} {name own : String}

/-! ## Names -/

/-- What no attribute touches is the same in a copy. -/
theorem copyProps_keeps {β : Type} {read : Node → β} {names : List String} {copy : Node}
    (keeps : ∀ name ∈ names, ∀ value node, read (node.setProp name value) = read node) :
    read (copyProps node names copy) = read copy := by
  induction names generalizing copy with
  | nil => rfl
  | cons name rest ih =>
    refine (ih fun name member => keeps name (List.mem_cons_of_mem _ member)).trans ?_
    dsimp only
    split
    · exact keeps name List.mem_cons_self _ _
    · rfl

private theorem isNamed_copyNode : (copyNode world created id node).isNamed own = ("recipe" == own) := by
  rw [copyNode, isNamed_withChildren]
  exact copyProps_keeps fun _ _ _ _ => isNamed_setProp

theorem isNamed_copyTaskNode : (copyTaskNode i node).isNamed own = ("task" == own) := by
  simp only [copyTaskNode, isNamed_setProp]
  refine (copyProps_keeps fun _ _ _ _ => isNamed_setProp).trans ?_
  rw [isNamed_setProp, isNamed_setProp, Node.isNamed]

/-- An attribute that is not copied is the one of the new node. -/
theorem prop_copyNode
    (fresh : name ∉ ["whiteboard", "role", "owner", "family", "job_id"]) :
    (copyNode world created id node).prop name =
      Node.prop name (.element "recipe" [("id", id), ("status", "New".toList),
        ("result", "None".toList), ("checkpoint_file", checkpointFile world created)] []) := by
  rw [copyNode, prop_withChildren]
  refine copyProps_keeps fun own member _ _ => prop_setProp_of_ne ?_
  rintro rfl
  exact fresh member

/-- The copy of a recipe has its id. -/
theorem prop_id_copyNode : (copyNode world created id node).prop "id" = some id :=
  (prop_copyNode (by decide)).trans rfl

theorem prop_checkpoint_copyNode : (copyNode world created id node).prop "checkpoint_file" =
    some (checkpointFile world created) :=
  (prop_copyNode (by decide)).trans rfl

/-- The copy of a recipe has the copies of its tasks. -/
theorem named_task_copyNode : (copyNode world created id node).named "task" =
    (node.named "task").mapIdx copyTaskNode := by
  have children : (copyNode world created id node).children =
      (node.firstNamed "params").toList ++ (node.named "task").mapIdx copyTaskNode :=
    children_withChildren
      ((copyProps_keeps fun _ _ _ _ => isNamed_setProp).trans (beq_self_eq_true "recipe"))
  have others : (node.firstNamed "params").toList.filter (Node.isNamed "task") = [] := by
    cases found : node.firstNamed "params" with
    | none => rfl
    | some params =>
      have named : params.isNamed "params" = true := List.find?_some found
      simp [isNamed_unique named]
  rw [Node.named, children, List.filter_append, others, List.nil_append, List.filter_eq_self]
  intro copy member
  obtain ⟨i, bound, rfl⟩ := List.mem_mapIdx.mp member
  exact isNamed_copyTaskNode.trans (beq_self_eq_true "task")

/-- The parameters of a task are copied. -/
theorem firstNamed_params_copyTaskNode :
    (copyTaskNode i node).firstNamed "params" = node.firstNamed "params" := by
  have children : (copyTaskNode i node).children = .element "logs" [] [] ::
      ["fetch", "rpm", "params"].filterMap fun name => node.firstNamed name := by
    simp only [copyTaskNode, children_setProp]
    refine (copyProps_keeps fun _ _ _ _ => children_setProp).trans ?_
    rw [children_setProp, children_setProp, Node.children]
  have other (name : String) (differ : ("params" == name) = false) :
      ((node.firstNamed name).toList).find? (Node.isNamed "params") = none := by
    cases found : node.firstNamed name with
    | none => rfl
    | some child =>
      have named : child.isNamed name = true := List.find?_some found
      simp [isNamed_unique named, differ]
  have own : ((node.firstNamed "params").toList).find? (Node.isNamed "params") =
      node.firstNamed "params" := by
    cases found : node.firstNamed "params" with
    | none => rfl
    | some params =>
      have named : params.isNamed "params" = true := List.find?_some found
      simp [named]
  have pieces : (["fetch", "rpm", "params"].filterMap fun name => node.firstNamed name) =
      (node.firstNamed "fetch").toList ++ ((node.firstNamed "rpm").toList ++
        (node.firstNamed "params").toList) := by
    simp only [List.filterMap_cons, List.filterMap_nil]
    cases node.firstNamed "fetch" <;> cases node.firstNamed "rpm" <;>
      cases node.firstNamed "params" <;> rfl
  rw [Node.firstNamed, children, List.find?_cons_of_neg (by simp [Node.isNamed]), pieces,
    List.find?_append, other _ (by decide), List.find?_append, other _ (by decide), own]
  rfl

/-! ## Numbers -/

/-- The next number after these recipes. -/
def following (next : UInt32) (recipes : List Node) : UInt32 :=
  recipes.foldl (fun next node => (recipeId node next).2) next

/-- The recipes with their ids. -/
def numbered : UInt32 → List Node → List (Text × Node)
  | _, [] => []
  | next, node :: rest => ((recipeId node next).1, node) :: numbered (recipeId node next).2 rest

/-- The recipes of each set with their ids. -/
def numberedSets : UInt32 → List Node → List (List (Text × Node))
  | _, [] => []
  | next, rsnode :: rest =>
    numbered next (rsnode.named "recipe") ::
      numberedSets (following next (rsnode.named "recipe")) rest

theorem map_snd_numbered : (numbered next recipes).map Prod.snd = recipes := by
  induction recipes generalizing next with
  | nil => rfl
  | cons node rest ih => rw [numbered, List.map_cons, ih]

private theorem numbered_append : numbered next (recipes ++ nodes) =
    numbered next recipes ++ numbered (following next recipes) nodes := by
  induction recipes generalizing next with
  | nil => rfl
  | cons node rest ih => simp only [List.cons_append, numbered, following, List.foldl_cons, ih]

theorem length_numbered : (numbered next recipes).length = recipes.length := by
  rw [← List.length_map Prod.snd, map_snd_numbered]

theorem flatten_numberedSets : (numberedSets next sets).flatten =
    numbered next (sets.flatMap (Node.named "recipe")) := by
  induction sets generalizing next with
  | nil => rfl
  | cons rsnode rest ih =>
    rw [numberedSets, List.flatten_cons, ih, List.flatMap_cons, numbered_append]

/-! ## Copies -/

theorem bind_ok {α β : Type} {x : Except Failure α} {f : α → Except Failure β} {b : β}
    (ran : x.bind f = .ok b) : ∃ a, x = .ok a ∧ f a = .ok b := by
  cases x with
  | error failure => cases ran
  | ok a => exact ⟨a, rfl, ran⟩

private theorem map_ok {α β : Type} {x : Except Failure α} {f : α → β} {b : β}
    (ran : x.map f = .ok b) : ∃ a, x = .ok a ∧ f a = b := by
  cases x with
  | error failure => cases ran
  | ok a => exact ⟨a, rfl, Except.ok.inj ran⟩

/-- A recipe that is copied has a host. -/
theorem copyRecipe_ok (copied : copyRecipe world s node = .ok t) :
    ∃ host, world.hosts (recipeId node s.recipeId).1 = some host ∧
      t = { recipeId := (recipeId node s.recipeId).2
            created := s.created + 1
            rsroles := collectTasks host 0 (node.named "task") (s.rsroles.insert 0
              (getNodeRole node ((s.rsroles.lookup 0).getD ∅) host).1)
            recipes := s.recipes ++
              [copyNode world s.created (recipeId node s.recipeId).1 node] } := by
  unfold copyRecipe at copied
  dsimp only at copied
  split at copied
  · cases copied
  · rename_i host found
    exact ⟨host, found, (Except.ok.inj copied).symm⟩

/-- The recipes of a set are copied in order, each with its id. -/
theorem foldlM_copyRecipe (copied : recipes.foldlM (copyRecipe world) s = .ok t) :
    t.recipeId = following s.recipeId recipes ∧ t.created = s.created + recipes.length ∧
      t.recipes = s.recipes ++ (numbered s.recipeId recipes).mapIdx
        fun i recipe => copyNode world (s.created + i) recipe.1 recipe.2 := by
  induction recipes generalizing s with
  | nil =>
    cases copied
    simp [following, numbered]
  | cons node rest ih =>
    obtain ⟨u, first, others⟩ := bind_ok copied
    obtain ⟨host, -, rfl⟩ := copyRecipe_ok first
    obtain ⟨ids, count, recipes⟩ := ih others
    refine ⟨ids, count.trans ?_, recipes.trans ?_⟩
    · simp only [List.length_cons]
      omega
    · simp only [numbered, List.mapIdx_cons, List.append_assoc, List.cons_append, List.nil_append,
        Nat.add_zero, Nat.add_assoc, Nat.add_comm 1]

/-- Every recipe that is copied has a host. -/
theorem foldlM_copyRecipe_hosted (copied : recipes.foldlM (copyRecipe world) s = .ok t) :
    ∀ recipe ∈ numbered s.recipeId recipes, (world.hosts recipe.1).isSome := by
  induction recipes generalizing s with
  | nil => simp [numbered]
  | cons node rest ih =>
    obtain ⟨u, first, others⟩ := bind_ok copied
    obtain ⟨host, found, rfl⟩ := copyRecipe_ok first
    intro recipe member
    rcases List.mem_cons.mp member with rfl | member
    · rw [found]
      rfl
    · exact ih others recipe member

/-- A recipe set that is copied has recipes. -/
theorem copySet_ok (copied : copySet world next created node = .ok s) :
    (node.named "recipe").foldlM (copyRecipe world)
      { recipeId := next, created, rsroles := (∅ : RsRoles).insert 0 ∅, recipes := [] } = .ok s := by
  unfold copySet at copied
  split at copied
  · cases copied
  · exact copied

theorem named_copies {copies : List (Text × Node)} :
    (Node.element "recipeSet" [] (copies.mapIdx fun i recipe =>
      copyNode world (created + i) recipe.1 recipe.2)).named "recipe" =
      copies.mapIdx fun i recipe => copyNode world (created + i) recipe.1 recipe.2 := by
  rw [Node.named, Node.children, List.filter_eq_self]
  intro copy member
  obtain ⟨i, bound, rfl⟩ := List.mem_mapIdx.mp member
  exact isNamed_copyNode.trans (beq_self_eq_true "recipe")

theorem copySet_recipes (copied : copySet world next created node = .ok s) :
    s.recipes = (numbered next (node.named "recipe")).mapIdx
      fun i recipe => copyNode world (created + i) recipe.1 recipe.2 :=
  (foldlM_copyRecipe (copySet_ok copied)).2.2

/-- Every set is copied by itself, from the numbers the sets before it left. -/
theorem copySets_get {copies : List (Node × RsRoles)}
    (copied : copySets world next created sets = .ok copies) :
    copies.length = sets.length ∧ ∀ (rs : Nat) (rsnode : Node), sets[rs]? = some rsnode →
      ∃ first before s, copySet world first before rsnode = .ok s ∧
        copies[rs]? = some (Node.element "recipeSet" [] s.recipes, s.rsroles) ∧
        (numberedSets next sets)[rs]? = some (numbered first (rsnode.named "recipe")) := by
  induction sets generalizing next created copies with
  | nil =>
    cases copied
    exact ⟨rfl, by simp⟩
  | cons rsnode rest ih =>
    obtain ⟨s, first, mapped⟩ := bind_ok copied
    obtain ⟨copies, others, rfl⟩ := map_ok mapped
    obtain ⟨length, get⟩ := ih others
    refine ⟨by simp [length], fun rs node found => ?_⟩
    cases rs with
    | zero =>
      cases found
      exact ⟨next, created, s, first, rfl, rfl⟩
    | succ rs =>
      obtain ⟨n, c, u, ran, copy, ids⟩ := get rs node found
      rw [(foldlM_copyRecipe (copySet_ok first)).1] at ids
      exact ⟨n, c, u, ran, copy, ids⟩

/-- The recipes of the copy are those of the template, numbered throughout. -/
theorem copySets_recipes {copies : List (Node × RsRoles)}
    (copied : copySets world next created sets = .ok copies) :
    (copies.map Prod.fst).flatMap (Node.named "recipe") =
      (numbered next (sets.flatMap (Node.named "recipe"))).mapIdx
        fun i recipe => copyNode world (created + i) recipe.1 recipe.2 := by
  induction sets generalizing next created copies with
  | nil =>
    cases copied
    rfl
  | cons rsnode rest ih =>
    obtain ⟨s, first, mapped⟩ := bind_ok copied
    obtain ⟨copies, others, rfl⟩ := map_ok mapped
    obtain ⟨ids, count, -⟩ := foldlM_copyRecipe (copySet_ok first)
    rw [List.map_cons, List.flatMap_cons, ih others, List.flatMap_cons, numbered_append,
      List.mapIdx_append, copySet_recipes first, named_copies, ids, count, length_numbered]
    have shift (i : Nat) : created + (rsnode.named "recipe").length + i =
        created + (i + (rsnode.named "recipe").length) := by omega
    simp only [shift]

theorem copySet_hosted (copied : copySet world next created node = .ok s) :
    ∀ recipe ∈ numbered next (node.named "recipe"), (world.hosts recipe.1).isSome :=
  foldlM_copyRecipe_hosted (copySet_ok copied)

theorem copySets_hosted {copies : List (Node × RsRoles)}
    (copied : copySets world next created sets = .ok copies) :
    ∀ recipe ∈ (numberedSets next sets).flatten, (world.hosts recipe.1).isSome := by
  induction sets generalizing next created copies with
  | nil => simp [numberedSets]
  | cons rsnode rest ih =>
    obtain ⟨s, first, mapped⟩ := bind_ok copied
    obtain ⟨copies, others, rfl⟩ := map_ok mapped
    rw [(foldlM_copyRecipe (copySet_ok first)).1] at others
    intro recipe member
    rw [numberedSets, List.flatten_cons, List.mem_append] at member
    exact member.elim (copySet_hosted first recipe) (ih others recipe)

/-! ## Distribution -/

/-- The task at position `j` of recipe `i` of a recipe set. -/
def taskAt (job : Node) (rs i j : Nat) : Option Node :=
  ((job.named "recipeSet")[rs]?).bind fun rsnode =>
    ((rsnode.named "recipe")[i]?).bind fun node => (node.named "task")[j]?

theorem isNamed_giveRoles {rsroles : RsRoles} {jobmembers recipemembers : List Host} :
    (giveRoles world rsroles jobmembers recipemembers j node).isNamed own = node.isNamed own :=
  isNamed_withChildren

private theorem isNamed_mapNamed {change : Nat → Node → Node} :
    (node.mapNamed name change).isNamed own = node.isNamed own :=
  isNamed_withChildren

theorem prop_mapNamed {change : Nat → Node → Node} :
    (node.mapNamed name change).prop own = node.prop own :=
  prop_withChildren

/-- The sets of the job with their new parameters. -/
theorem named_distribute {posroles : List RsRoles} {job : Node} :
    (distribute world posroles job).named "recipeSet" =
      (job.named "recipeSet").mapIdx fun rs rsnode => rsnode.mapNamed "recipe" fun _ rnode =>
        rnode.mapNamed "task" (giveRoles world ((posroles[rs]?).getD ∅)
          (getRecipeMembers world.hosts (recipesOf job) [])
          (getRecipeMembers world.hosts (rsnode.named "recipe") [])) :=
  named_mapNamed fun _ _ => isNamed_mapNamed

/-- The recipes of a set with their new parameters. -/
theorem named_recipe_mapNamed {change : Nat → Node → Node} :
    (node.mapNamed "recipe" fun _ rnode => rnode.mapNamed "task" change).named "recipe" =
      (node.named "recipe").map fun rnode => rnode.mapNamed "task" change := by
  rw [named_mapNamed fun _ _ => isNamed_mapNamed]
  exact List.ext_getElem? fun i => by simp

/-- Attributes of the recipes and their tasks' number are not touched. -/
theorem recipesOf_distribute {β : Type} {posroles : List RsRoles} {job : Node} {read : Node → β}
    (keeps : ∀ rsroles jobmembers recipemembers node,
      read (node.mapNamed "task" (giveRoles world rsroles jobmembers recipemembers)) = read node) :
    (recipesOf (distribute world posroles job)).map read = (recipesOf job).map read := by
  have named : (distribute world posroles job).isNamed "job" = job.isNamed "job" := isNamed_mapNamed
  have inner (rs : Nat) (rsnode : Node) (jobmembers recipemembers : List Host) :
      ((rsnode.mapNamed "recipe" fun _ rnode => rnode.mapNamed "task" (giveRoles world
        ((posroles[rs]?).getD ∅) jobmembers recipemembers)).named "recipe").map read =
      (rsnode.named "recipe").map read := by
    rw [named_recipe_mapNamed, List.map_map]
    exact List.map_congr_left fun node _ => keeps _ _ _ node
  unfold recipesOf
  rw [named]
  split
  · rw [named_distribute, List.map_flatMap, List.map_flatMap, List.flatMap_def, List.flatMap_def]
    congr 1
    refine List.ext_getElem? fun rs => ?_
    simp only [List.getElem?_map, List.getElem?_mapIdx, Option.map_map]
    exact Option.map_congr fun rsnode _ => inner rs rsnode _ _
  · rfl

/-- A job that is copied. -/
theorem copyJobAsTemplate_ok {template job : Node}
    (copied : copyJobAsTemplate world template = .ok job) :
    template.isNamed "job" = true ∧ ∃ copies,
      copySets world 1 0 (template.named "recipeSet") = .ok copies ∧
      job = distribute world (copies.map Prod.snd) (.element "job" [] (copies.map Prod.fst)) := by
  unfold copyJobAsTemplate at copied
  split at copied
  · cases copied
  · rename_i occupied
    refine ⟨?_, ?_⟩
    · by_contra other
      exact occupied (by rw [recipesOf, if_neg other])
    · obtain ⟨copies, sets, rfl⟩ := map_ok copied
      exact ⟨copies, sets, rfl⟩

/-- The sets of the job before the parameters. -/
theorem named_job {copies : List (Node × RsRoles)}
    (copied : copySets world next created sets = .ok copies) :
    (Node.element "job" [] (copies.map Prod.fst)).named "recipeSet" = copies.map Prod.fst := by
  rw [Node.named, Node.children, List.filter_eq_self]
  intro copy member
  obtain ⟨rs, bound, found⟩ := List.mem_iff_getElem.mp member
  obtain ⟨length, get⟩ := copySets_get copied
  have inside : rs < sets.length := by
    rw [List.length_map, length] at bound
    exact bound
  obtain ⟨n, c, s, -, shape, -⟩ := get rs _ (List.getElem?_eq_getElem inside)
  have same : copy = .element "recipeSet" [] s.recipes := by
    rw [← found, List.getElem_map]
    exact congrArg Prod.fst (Option.some.inj ((List.getElem?_eq_getElem _).symm.trans shape))
  rw [same]
  exact beq_self_eq_true "recipeSet"

/-- The recipes of the job before the parameters. -/
theorem recipesOf_copies {copies : List (Node × RsRoles)}
    (copied : copySets world next created sets = .ok copies) :
    recipesOf (.element "job" [] (copies.map Prod.fst)) =
      (numbered next (sets.flatMap (Node.named "recipe"))).mapIdx
        fun i recipe => copyNode world (created + i) recipe.1 recipe.2 := by
  have named : (Node.element "job" [] (copies.map Prod.fst)).isNamed "job" = true :=
    beq_self_eq_true "job"
  rw [recipesOf, if_pos named, named_job copied, copySets_recipes copied]

end Restraint.JobTemplateProofs

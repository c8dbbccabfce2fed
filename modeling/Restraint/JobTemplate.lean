import Restraint.Lib.Xml
import Restraint.Lib.HashTable
import Restraint.Lib.Decimal

/-! `copy_job_as_template` of `client.c`: the job of a run is copied from a template. Recipes get
ids and checkpoint files, tasks get parameters with the hosts of every role. The walks over hash
tables are in an order that the program does not choose, so they are parameters. The clock and
`rand` are parameters as well: names of files are made of them. -/
namespace Restraint.JobTemplate
open CString (Text)
open Xml HashTable

/-- The names that `parse_host` lets through have no blank in them. -/
@[ext]
structure Host where
  name : Text
  occupied : name ≠ []
  unblanked : ' ' ∉ name

instance : DecidableEq Host := fun host other =>
  decidable_of_iff (host.name = other.name) Host.ext_iff.symm

/-- The hosts of each role. -/
abbrev Roles := Table Text (List Host)

/-- The roles of a recipe set: at 0 those of the recipes, at `j + 1` those of the tasks at `j`. -/
abbrev RsRoles := Table Nat Roles

structure World where
  /-- The host of each recipe id, as `add_recipe_host` filed it. -/
  hosts : Text → Option Host
  /-- The first number of `rand` after `srand`. -/
  rand : UInt32 → Nat
  /-- The clock at each call of `gen_new_filename`. -/
  time : Nat → Nat
  walk : Walk Text (List Host)

inductive Failure where
  | noRecipes
  /-- No host was given for the recipe. -/
  | noHost (id : Text)
  /-- A null pointer is dereferenced. -/
  | crash
  deriving DecidableEq

/-! ## Names -/

/-- `gen_new_filename`. The size of the buffer counts the two pointers, not the texts. -/
def genNewFilename (result : Nat) (front suffix : Text) (randomByteSize : Nat) : Text :=
  let bufSize := 8 + 8 + randomByteSize + 1
  let buffer1 := (Decimal.print result).take randomByteSize
  (front ++ buffer1 ++ suffix).take (bufSize - 1)

/-- The checkpoint file of the recipe that is created next. -/
def checkpointFile (world : World) (created : Nat) : Text :=
  genNewFilename (world.rand (UInt32.ofNat (world.time created))) "checkpoint_".toList
    ".conf".toList 6

/-- The id of a recipe, and the next number for a recipe without one. -/
def recipeId (node : Node) (next : UInt32) : Text × UInt32 :=
  match node.prop "id" with
  | some id => (id, next)
  | none => (Decimal.print next.toNat, next + 1)

/-! ## Copies -/

/-- Sets those of the attributes that a node has in its copy. -/
def copyProps (node : Node) (names : List String) (copy : Node) : Node :=
  names.foldl (fun copy name => match node.prop name with
    | some value => copy.setProp name value
    | none => copy) copy

/-- `new_recipe`, without children. -/
def newRecipe (world : World) (created : Nat) (id : Text) (node : Node) : Node :=
  copyProps node ["whiteboard", "role", "owner", "family", "job_id"] <| .element "recipe"
    [("id", id), ("status", "New".toList), ("result", "None".toList),
      ("checkpoint_file", checkpointFile world created)] []

/-- `copy_task_nodes`, for the task at position `i`. -/
def copyTaskNode (i : Nat) (node : Node) : Node :=
  let task := Node.element "task" [] (.element "logs" [] [] ::
    ["fetch", "rpm", "params"].filterMap fun name => node.firstNamed name)
  let task := task.setProp "name" ((node.prop "name").getD [])
  let task := task.setProp "keepchanges" ((node.prop "keepchanges").getD [])
  let task := copyProps node ["role"] task
  let task := task.setProp "id" (Decimal.print (i + 1))
  (task.setProp "status" "New".toList).setProp "result" "None".toList

/-! ## Roles -/

/-- `get_node_role`, and whether the node has a role. -/
def getNodeRole (node : Node) (roletable : Roles) (host : Host) : Roles × Bool :=
  match node.prop "role" with
  | none => (roletable, false)
  | some role =>
    match (roletable.lookup role).getD [] with
    | [] => (roletable.insert role [host], true)
    | hostlist =>
      if host ∈ hostlist then (roletable, true)
      else (roletable.insert role (host :: hostlist), true)

/-- `merge_roles`. -/
def mergeRoles (walk : Walk Text (List Host)) (troles rroles : Roles) : Roles :=
  let result := (walk.entries troles).foldl (fun result entry => result.insert entry.1 entry.2) ∅
  (walk.entries rroles).foldl
    (fun result entry => if entry.1 ∈ result then result else result.insert entry.1 entry.2) result

/-- A parameter of that name. -/
def isParam (role : Text) (node : Node) : Bool :=
  node.isNamed "param" && node.prop "name" == some role

/-- The hosts with a blank between two of them. -/
def hoststr (hostlist : List Host) : Text := [' '].intercalate (hostlist.map Host.name)

def setParam (role : Text) (hostlist : List Host) (param : Node) : Node :=
  (param.setProp "name" role).setProp "value" (hoststr hostlist)

/-- `add_r_params`, on the children of the node. -/
def addRParams (role : Text) (hostlist : List Host) (rParams : List Node) : List Node :=
  updateFirst (isParam role) (.element "param" [] []) (setParam role hostlist) rParams

/-- `get_recipe_members`, from the hosts found so far. -/
def getRecipeMembers (hosts : Text → Option Host) : List Node → List Host → List Host
  | [], allhosts => allhosts
  | node :: rest, allhosts =>
    match (node.prop "id").bind hosts with
    | none => []
    | some host =>
      getRecipeMembers hosts rest (if host ∈ allhosts then allhosts else host :: allhosts)

/-! ## Collection -/

/-- The role of the task at position `j`. -/
def collectTask (host : Host) (j : Nat) (tnode : Node) (rsroles : RsRoles) : RsRoles :=
  match rsroles.lookup (j + 1) with
  | some trole => rsroles.insert (j + 1) (getNodeRole tnode trole host).1
  | none =>
    -- a new table is kept only when it is not empty
    match getNodeRole tnode ∅ host with
    | (trole, true) => rsroles.insert (j + 1) trole
    | (_, false) => rsroles

/-- The loop over the tasks of a recipe, from position `j` on. -/
def collectTasks (host : Host) : Nat → List Node → RsRoles → RsRoles
  | _, [], rsroles => rsroles
  | j, tnode :: rest, rsroles => collectTasks host (j + 1) rest (collectTask host j tnode rsroles)

/-- The recipe set that is being copied. -/
structure Copying where
  recipeId : UInt32
  /-- How many recipes were created. -/
  created : Nat
  rsroles : RsRoles
  recipes : List Node

/-- The copy of a recipe with its parameters and tasks. -/
def copyNode (world : World) (created : Nat) (id : Text) (node : Node) : Node :=
  (newRecipe world created id node).withChildren fun _ =>
    (node.firstNamed "params").toList ++ (node.named "task").mapIdx copyTaskNode

/-- The loop over the recipes of a set, for one of them. -/
def copyRecipe (world : World) (s : Copying) (node : Node) : Except Failure Copying :=
  let (id, next) := recipeId node s.recipeId
  match world.hosts id with
  | none => .error (.noHost id)
  | some host =>
    let rroles := (getNodeRole node ((s.rsroles.lookup 0).getD ∅) host).1
    .ok
      { recipeId := next
        created := s.created + 1
        rsroles := collectTasks host 0 (node.named "task") (s.rsroles.insert 0 rroles)
        recipes := s.recipes ++ [copyNode world s.created id node] }

def copySet (world : World) (recipeId : UInt32) (created : Nat) (rsnode : Node) :
    Except Failure Copying :=
  match rsnode.named "recipe" with
  -- `get_node_set` gives NULL for an empty set of nodes
  | [] => .error .crash
  | recipes => recipes.foldlM (copyRecipe world)
    { recipeId, created, rsroles := (∅ : RsRoles).insert 0 ∅, recipes := [] }

/-- The loop over the recipe sets: the new sets, each with its roles. -/
def copySets (world : World) : UInt32 → Nat → List Node → Except Failure (List (Node × RsRoles))
  | _, _, [] => .ok []
  | recipeId, created, rsnode :: rest =>
    (copySet world recipeId created rsnode).bind fun s =>
      (copySets world s.recipeId s.created rest).map fun sets =>
        (.element "recipeSet" [] s.recipes, s.rsroles) :: sets

/-! ## Distribution -/

/-- The roles of the tasks at position `j`. -/
def localRoles (world : World) (rsroles : RsRoles) (j : Nat) : Roles :=
  let rroles := (rsroles.lookup 0).getD ∅
  match rsroles.lookup (j + 1) with
  | none => rroles
  | some troles => mergeRoles world.walk troles rroles

/-- The parameters of the task at position `j`. -/
def giveRoles (world : World) (rsroles : RsRoles) (jobmembers recipemembers : List Host) (j : Nat)
    (tnode : Node) : Node :=
  tnode.withChildren <| updateFirst (Node.isNamed "params") (.element "params" [] []) <|
    Node.withChildren fun tParams =>
      let tParams := (world.walk.entries (localRoles world rsroles j)).foldl
        (fun tParams entry => addRParams entry.1 entry.2 tParams) tParams
      let tParams := addRParams "JOB_MEMBERS".toList jobmembers tParams
      addRParams "RECIPE_MEMBERS".toList recipemembers tParams

/-- `/job/recipeSet/recipe`. -/
def recipesOf (job : Node) : List Node :=
  if job.isNamed "job" then (job.named "recipeSet").flatMap (Node.named "recipe") else []

def distribute (world : World) (posroles : List RsRoles) (job : Node) : Node :=
  let jobmembers := getRecipeMembers world.hosts (recipesOf job) []
  job.mapNamed "recipeSet" fun rs rsnode =>
    let recipemembers := getRecipeMembers world.hosts (rsnode.named "recipe") []
    let rsroles := (posroles[rs]?).getD ∅
    rsnode.mapNamed "recipe" fun _ rnode =>
      rnode.mapNamed "task" (giveRoles world rsroles jobmembers recipemembers)

/-- `copy_job_as_template`, from a template that was read and is valid. -/
def copyJobAsTemplate (world : World) (template : Node) : Except Failure Node :=
  if recipesOf template = [] then .error .noRecipes
  else
    (copySets world 1 0 (template.named "recipeSet")).map fun sets =>
      distribute world (sets.map Prod.snd) (.element "job" [] (sets.map Prod.fst))

end Restraint.JobTemplate

import Restraint.JobTemplateProofs
import Mathlib.Data.List.Nodup

/-! The identity of the recipes of a job: the ids and checkpoint files that `copy_job_as_template`
gives them, and the `RecipeData` that `parse_new_job` finds for each. Numbers for recipes without an
id are given in the order of the template, whatever ids stand there. What makes two recipes one is
said of the template, the clock and `rand`, before anything is copied. -/
namespace Restraint.RecipeIdentity
open CString (Text)
open Xml HashTable Restraint.JobTemplate Restraint.JobTemplateProofs

/-- The loop of `parse_new_job`: the recipe that the `RecipeData` of each id points to, by its
position. When it ends early the document is freed, and what has been set points into it. -/
def parseRecipes (hosts : Text → Option Host) :
    Nat → List Node → Table Text Nat → Option (Table Text Nat)
  | _, [], nodes => some nodes
  | n, node :: rest, nodes =>
    match node.prop "id" with
    -- g_str_hash reads the missing id
    | none => none
    | some recipeId =>
      if (hosts recipeId).isNone then none
      else if node.named "task" = [] then none
      else parseRecipes hosts (n + 1) rest (nodes.insert recipeId n)

/-- `parse_new_job`. -/
def parseNewJob (hosts : Text → Option Host) (job : Node) : Option (Table Text Nat) :=
  if recipesOf job = [] then none else parseRecipes hosts 0 (recipesOf job) ∅

/-- The recipe of the job that the `RecipeData` of an id points to. -/
def recipeNodePtr (hosts : Text → Option Host) (job : Node) (id : Text) : Option Nat :=
  (parseNewJob hosts job).bind fun nodes => nodes.lookup id

/-- The ids that the template gives. -/
def explicitIds (recipes : List Node) : List Text := recipes.filterMap (Node.prop "id")

/-- The recipes that are numbered. -/
def automatic (recipes : List Node) : Nat := recipes.countP fun node => (node.prop "id").isNone

/-- The id of the `k`th recipe that is numbered. -/
def automaticId (next : UInt32) (k : Nat) : Text := Decimal.print (next + UInt32.ofNat k).toNat

/-- The digits in the name of a checkpoint file. -/
def digits (world : World) (created : Nat) : Text :=
  (Decimal.print (world.rand (UInt32.ofNat (world.time created)))).take 6

/-- Recipes have ids and checkpoint files of their own, and a `RecipeData` of their own. -/
structure Identified (world : World) (job : Node) : Prop where
  ids : ((recipesOf job).map (Node.prop "id")).Nodup
  checkpoints : ((recipesOf job).map (Node.prop "checkpoint_file")).Nodup
  own (n : Nat) (node : Node) (found : (recipesOf job)[n]? = some node) :
    (node.prop "id").bind (recipeNodePtr world.hosts job) = some n

/-- Numbers do not run into the ids of the template, nor into each other; the first digits of the
random numbers differ; and no recipe is without a task. -/
structure Unambiguous (world : World) (recipes : List Node) : Prop where
  fits : automatic recipes ≤ 2 ^ 32
  apart (k : Nat) (used : k < automatic recipes) : automaticId 1 k ∉ explicitIds recipes
  random (i j : Nat) (earlier : i < j) (used : j < recipes.length) : digits world i ≠ digits world j
  tasks (node : Node) (member : node ∈ recipes) : node.named "task" ≠ []

variable {world : World} {node : Node} {recipes nodes : List Node} {next : UInt32} {n : Nat}

/-! ## Ids -/

theorem automaticId_succ {k : Nat} : automaticId next (k + 1) = automaticId (next + 1) k := by
  have sum : next + UInt32.ofNat (k + 1) = next + 1 + UInt32.ofNat k := by
    rw [UInt32.add_assoc, UInt32.add_comm 1, UInt32.ofNat_add]
    rfl
  rw [automaticId, sum, automaticId]

/-- The ids are those of the template and the numbers. -/
theorem ids_perm : ((numbered next recipes).map Prod.fst).Perm
    (explicitIds recipes ++ (List.range (automatic recipes)).map (automaticId next)) := by
  induction recipes generalizing next with
  | nil => exact List.Perm.refl _
  | cons node rest ih =>
    cases own : node.prop "id" with
    | some id =>
      have others := @ih next
      simpa [numbered, recipeId, own, explicitIds, automatic] using others.cons id
    | none =>
      have first : automaticId next 0 = Decimal.print next.toNat := by
        simp [automaticId]
      have count : automatic (node :: rest) = automatic rest + 1 := by simp [automatic, own]
      have given : explicitIds (node :: rest) = explicitIds rest := by simp [explicitIds, own]
      have later : (List.range (automatic rest)).map (automaticId next ∘ Nat.succ) =
          (List.range (automatic rest)).map (automaticId (next + 1)) :=
        List.map_congr_left fun k _ => automaticId_succ
      rw [count, given, List.range_succ_eq_map, List.map_cons, List.map_map, first, later]
      simp only [numbered, recipeId, own, List.map_cons]
      exact (ih.cons _).trans List.perm_middle.symm

/-- Numbers are distinct until they wrap. -/
theorem automatic_nodup : ((List.range n).map (automaticId 1)).Nodup ↔ n ≤ 2 ^ 32 := by
  have value (k : Nat) : ((1 : UInt32) + UInt32.ofNat k).toNat = (1 + k) % 2 ^ 32 := by
    rw [UInt32.toNat_add, UInt32.toNat_ofNat']
    exact Nat.add_mod_mod 1 k (2 ^ 32)
  rw [List.nodup_map_iff_inj_on List.nodup_range]
  constructor
  · intro distinct
    by_contra many
    have same : automaticId 1 0 = automaticId 1 (2 ^ 32) := by
      rw [automaticId, automaticId, value, value, Nat.add_mod_right]
    have zero := distinct 0 (List.mem_range.mpr (by omega)) (2 ^ 32)
      (List.mem_range.mpr (by omega)) same
    omega
  · intro fits a inside b within same
    have first := List.mem_range.mp inside
    have second := List.mem_range.mp within
    have numbers := Decimal.print_injective same
    rw [value, value] at numbers
    omega

private theorem ids_nodup (distinct : (explicitIds recipes).Nodup) :
    ((numbered 1 recipes).map Prod.fst).Nodup ↔ automatic recipes ≤ 2 ^ 32 ∧
      ∀ k < automatic recipes, automaticId 1 k ∉ explicitIds recipes := by
  rw [ids_perm.nodup_iff, List.nodup_append', automatic_nodup]
  refine (and_iff_right distinct).trans (and_congr_right fun _ => ?_)
  simp only [List.disjoint_left, List.mem_map, List.mem_range]
  constructor
  · intro apart k used given
    exact apart given ⟨k, used, rfl⟩
  · rintro apart id given ⟨k, used, rfl⟩
    exact apart k used given

/-! ## Checkpoint files -/

/-- The name of a checkpoint file fits the buffer. -/
theorem checkpointFile_eq {created : Nat} : checkpointFile world created =
    "checkpoint_".toList ++ digits world created ++ ".conf".toList := by
  rw [checkpointFile, genNewFilename, ← digits]
  apply List.take_of_length_le
  have short : (digits world created).length ≤ 6 := List.length_take_le _ _
  simp only [List.length_append]
  change 11 + _ + 5 ≤ 22
  omega

private theorem checkpoints_nodup : ((List.range n).map (checkpointFile world)).Nodup ↔
    ∀ i j, i < j → j < n → digits world i ≠ digits world j := by
  have same_iff (i j : Nat) :
      checkpointFile world i = checkpointFile world j ↔ digits world i = digits world j := by
    rw [checkpointFile_eq, checkpointFile_eq, List.append_cancel_right_eq,
      List.append_cancel_left_eq]
  rw [List.nodup_map_iff_inj_on List.nodup_range]
  simp only [List.mem_range, same_iff]
  constructor
  · intro distinct i j earlier inside same
    exact Nat.ne_of_lt earlier (distinct i (Nat.lt_trans earlier inside) j inside same)
  · intro differ i inside j within same
    rcases Nat.lt_trichotomy i j with less | equal | more
    · exact absurd same (differ i j less within)
    · exact equal
    · exact absurd same.symm (differ j i more inside)

/-! ## `parse_new_job` -/

/-- Recipes with hosts and ids of their own. -/
structure Filed (hosts : Text → Option Host) (recipes : List Node) : Prop where
  hosted (node : Node) (member : node ∈ recipes) :
    ∃ id, node.prop "id" = some id ∧ (hosts id).isSome
  distinct : (recipes.map (Node.prop "id")).Nodup

variable {hosts : Text → Option Host} {known filled : Table Text Nat}

/-- What later recipes leave of an id that is none of theirs. -/
theorem parseRecipes_other {id : Text} (other : ∀ node ∈ recipes, node.prop "id" ≠ some id)
    (parsed : parseRecipes hosts n recipes known = some filled) :
    filled.lookup id = known.lookup id := by
  induction recipes generalizing n known with
  | nil =>
    cases parsed
    rfl
  | cons node rest ih =>
    unfold parseRecipes at parsed
    split at parsed
    · cases parsed
    · rename_i own found
      have differ : id ≠ own := by
        rintro rfl
        exact other node List.mem_cons_self found
      split_ifs at parsed
      rw [ih (fun node member => other node (List.mem_cons_of_mem _ member)) parsed]
      exact AList.lookup_insert_ne differ

/-- Every recipe finds itself when none is without a task. -/
theorem parseRecipes_own (filed : Filed hosts recipes)
    (tasks : ∀ node ∈ recipes, node.named "task" ≠ []) :
    ∃ filled, parseRecipes hosts n recipes known = some filled ∧
      ∀ i node, recipes[i]? = some node → (node.prop "id").bind filled.lookup = some (n + i) := by
  induction recipes generalizing n known with
  | nil => exact ⟨known, rfl, fun i node found => by cases found⟩
  | cons head rest ih =>
    obtain ⟨absent, distinct⟩ := List.nodup_cons.mp filed.distinct
    obtain ⟨id, own, hosted⟩ := filed.hosted head List.mem_cons_self
    have allowed : (hosts id).isNone = false := by simpa using hosted
    have others : ∀ node ∈ rest, node.prop "id" ≠ some id := by
      intro node member same
      exact absent (List.mem_map.mpr ⟨node, member, same.trans own.symm⟩)
    obtain ⟨filled, parsed, all⟩ := @ih (n + 1) (known.insert id n)
      ⟨fun node member => filed.hosted node (List.mem_cons_of_mem _ member), distinct⟩
      fun node member => tasks node (List.mem_cons_of_mem _ member)
    refine ⟨filled, ?_, fun i node found => ?_⟩
    · simp only [parseRecipes, own, allowed, Bool.false_eq_true, ↓reduceIte]
      rw [if_neg (tasks head List.mem_cons_self), parsed]
    · cases i with
      | zero =>
        cases found
        rw [own, Option.bind_some, parseRecipes_other others parsed]
        exact AList.lookup_insert _
      | succ i =>
        rw [all i node found]
        congr 1
        omega

/-- A recipe without a task leaves no recipe to find. -/
theorem parseRecipes_idle (member : node ∈ recipes) (idle : node.named "task" = []) :
    parseRecipes hosts n recipes known = none := by
  induction recipes generalizing n known with
  | nil => cases member
  | cons head rest ih =>
    unfold parseRecipes
    split
    · rfl
    · split_ifs with _ none
      · rfl
      · rfl
      · rcases List.mem_cons.mp member with rfl | later
        · exact absurd idle none
        · exact ih later

/-! ## Identities -/

/-- What the recipes of the job have from those of the template. -/
structure CopiedRecipes (world : World) (template job : Node) : Prop where
  ids : (recipesOf job).map (Node.prop "id") =
    (numbered 1 (recipesOf template)).map fun recipe => some recipe.1
  checkpoints : (recipesOf job).map (Node.prop "checkpoint_file") =
    (List.range (recipesOf template).length).map fun i => some (checkpointFile world i)
  tasks : (recipesOf job).map (fun node => (node.named "task").length) =
    (recipesOf template).map fun node => (node.named "task").length
  hosted (recipe : Text × Node) (member : recipe ∈ numbered 1 (recipesOf template)) :
    (world.hosts recipe.1).isSome

private theorem copiedRecipes {template job : Node}
    (copied : copyJobAsTemplate world template = .ok job) :
    CopiedRecipes world template job := by
  obtain ⟨named, copies, sets, rfl⟩ := copyJobAsTemplate_ok copied
  have recipes : recipesOf template = (template.named "recipeSet").flatMap (Node.named "recipe") := by
    rw [recipesOf, if_pos named]
  refine ⟨?_, ?_, ?_, ?_⟩
  · rw [recipesOf_distribute fun _ _ _ _ => prop_mapNamed, recipesOf_copies sets, recipes]
    exact List.ext_getElem (by simp) fun i _ _ => by simp [prop_id_copyNode]
  · rw [recipesOf_distribute fun _ _ _ _ => prop_mapNamed, recipesOf_copies sets, recipes,
      ← recipes]
    exact List.ext_getElem (by simp [length_numbered]) fun i _ _ => by
      simp [prop_checkpoint_copyNode]
  · rw [recipesOf_distribute fun _ _ _ _ => by
      rw [named_mapNamed fun _ _ => isNamed_giveRoles, List.length_mapIdx], recipesOf_copies sets,
      ← recipes]
    have listed : recipesOf template = (numbered 1 (recipesOf template)).map Prod.snd :=
      map_snd_numbered.symm
    conv_rhs => rw [listed, List.map_map]
    exact List.ext_getElem (by simp) fun i _ _ => by simp [named_task_copyNode]
  · rw [recipes, ← flatten_numberedSets]
    exact copySets_hosted sets

theorem CopiedRecipes.filed {template job : Node} (copies : CopiedRecipes world template job)
    (distinct : ((recipesOf job).map (Node.prop "id")).Nodup) :
    Filed world.hosts (recipesOf job) := by
  refine ⟨fun node member => ?_, distinct⟩
  have id : node.prop "id" ∈ (recipesOf job).map (Node.prop "id") := List.mem_map_of_mem member
  rw [copies.ids] at id
  obtain ⟨recipe, listed, same⟩ := List.mem_map.mp id
  exact ⟨recipe.1, same.symm, copies.hosted recipe listed⟩

theorem CopiedRecipes.ids_nodup_iff {template job : Node}
    (copies : CopiedRecipes world template job) :
    ((recipesOf job).map (Node.prop "id")).Nodup ↔
      ((numbered 1 (recipesOf template)).map Prod.fst).Nodup := by
  have wrapped : (numbered 1 (recipesOf template)).map (fun recipe => some recipe.1) =
      ((numbered 1 (recipesOf template)).map Prod.fst).map some := by
    rw [List.map_map]
    rfl
  rw [copies.ids, wrapped, List.nodup_map_iff fun _ _ => Option.some.inj]

theorem CopiedRecipes.checkpoints_nodup_iff {template job : Node}
    (copies : CopiedRecipes world template job) :
    ((recipesOf job).map (Node.prop "checkpoint_file")).Nodup ↔
      ∀ i j, i < j → j < (recipesOf template).length → digits world i ≠ digits world j := by
  have wrapped : (List.range (recipesOf template).length).map
      (fun i => some (checkpointFile world i)) =
      ((List.range (recipesOf template).length).map (checkpointFile world)).map some := by
    rw [List.map_map]
    rfl
  rw [copies.checkpoints, wrapped, List.nodup_map_iff (fun _ _ => Option.some.inj),
    checkpoints_nodup]

/-- A recipe of the job has tasks as its recipe of the template does. -/
theorem CopiedRecipes.tasks_iff {template job copy : Node} {i : Nat}
    (copies : CopiedRecipes world template job) (found : (recipesOf template)[i]? = some node)
    (copied : (recipesOf job)[i]? = some copy) : copy.named "task" = [] ↔ node.named "task" = [] := by
  have place := congrArg (fun counts : List Nat => counts[i]?) copies.tasks
  simp only [List.getElem?_map, found, copied, Option.map_some, Option.some.injEq] at place
  rw [← List.length_eq_zero_iff, place, List.length_eq_zero_iff]

theorem CopiedRecipes.length {template job : Node} (copies : CopiedRecipes world template job) :
    (recipesOf job).length = (recipesOf template).length := by
  simpa using congrArg List.length copies.tasks

/-- Whenever a template with distinct ids of its own is copied, the recipes of the job are
identified if and only if nothing in it is ambiguous. -/
theorem recipes_identified_iff {template job : Node}
    (copied : copyJobAsTemplate world template = .ok job)
    (distinct : (explicitIds (recipesOf template)).Nodup) :
    Identified world job ↔ Unambiguous world (recipesOf template) := by
  have copies := copiedRecipes copied
  constructor
  · intro identified
    obtain ⟨fits, apart⟩ := (ids_nodup distinct).mp (copies.ids_nodup_iff.mp identified.ids)
    refine ⟨fits, apart, copies.checkpoints_nodup_iff.mp identified.checkpoints, ?_⟩
    intro node member idle
    -- a recipe without a task is not found, nor is any other
    obtain ⟨i, bound, rfl⟩ := List.mem_iff_getElem.mp member
    have inside : i < (recipesOf job).length := by rwa [copies.length]
    have busy := copies.tasks_iff (List.getElem?_eq_getElem bound)
      (List.getElem?_eq_getElem inside)
    have lost : parseNewJob world.hosts job = none := by
      rw [parseNewJob, parseRecipes_idle (List.getElem_mem inside) (busy.mpr idle), ite_self]
    have own := identified.own i _ (List.getElem?_eq_getElem inside)
    obtain ⟨id, -, found⟩ := Option.bind_eq_some_iff.mp own
    rw [recipeNodePtr, lost] at found
    cases found
  · intro unambiguous
    have ids := copies.ids_nodup_iff.mpr
      ((ids_nodup distinct).mpr ⟨unambiguous.fits, unambiguous.apart⟩)
    have tasks : ∀ node ∈ recipesOf job, node.named "task" ≠ [] := by
      intro node member idle
      obtain ⟨i, bound, rfl⟩ := List.mem_iff_getElem.mp member
      have inside : i < (recipesOf template).length := by rwa [← copies.length]
      have busy := copies.tasks_iff (List.getElem?_eq_getElem inside)
        (List.getElem?_eq_getElem bound)
      exact unambiguous.tasks _ (List.getElem_mem inside) (busy.mp idle)
    obtain ⟨filled, parsed, all⟩ := @parseRecipes_own _ 0 _ ∅ (copies.filed ids) tasks
    refine ⟨ids, copies.checkpoints_nodup_iff.mpr unambiguous.random, fun n copy found => ?_⟩
    have listed : recipesOf job ≠ [] := List.ne_nil_of_mem (List.mem_of_getElem? found)
    have table : parseNewJob world.hosts job = some filled := by rw [parseNewJob, if_neg listed, parsed]
    have points : recipeNodePtr world.hosts job = filled.lookup := by
      funext id
      rw [recipeNodePtr, table, Option.bind_some]
    rw [points, all n copy found, Nat.zero_add]

/-- Recipes run on one host; two are created in two seconds or in one. -/
def oneHost (time : Nat → Nat) : World where
  hosts _ := some ⟨"localhost".toList, by decide, by decide⟩
  rand seed := 1804289383 + 16807 * seed.toNat
  time := time
  walk := .plain

/-- A recipe without an id, and one that may have one. -/
def twoRecipes (id : List (String × Text)) : Node :=
  .element "job" [] [.element "recipeSet" []
    [.element "recipe" [] [.element "task" [] []], .element "recipe" id [.element "task" [] []]]]

theorem recipes_identified_seconds :
    ∃ job, copyJobAsTemplate (oneHost fun created => 100 * created)
        (twoRecipes [("id", "2".toList)]) = .ok job ∧
      Identified (oneHost fun created => 100 * created) job := by
  have copied : copyJobAsTemplate (oneHost fun created => 100 * created)
      (twoRecipes [("id", "2".toList)]) = .ok _ := rfl
  refine ⟨_, copied, (recipes_identified_iff copied (by decide)).mpr ?_⟩
  refine ⟨by decide, ?_, ?_, ?_⟩
  · intro k used
    have first : k = 0 := Nat.lt_one_iff.mp used
    subst first
    decide
  · intro i j earlier used
    have within : j < 2 := used
    obtain rfl : j = 1 := by omega
    obtain rfl : i = 0 := by omega
    decide
  · intro node member
    have listed : recipesOf (twoRecipes [("id", "2".toList)]) =
        [.element "recipe" [] [.element "task" [] []],
          .element "recipe" [("id", "2".toList)] [.element "task" [] []]] := rfl
    rw [listed] at member
    rcases List.mem_pair.mp member with rfl | rfl <;> exact List.cons_ne_nil _ _

/-- A recipe that is numbered has the id of the other, and two recipes of one second have one
checkpoint file. -/
theorem recipes_not_identified :
    (∃ job, copyJobAsTemplate (oneHost fun created => 100 * created)
        (twoRecipes [("id", "1".toList)]) = .ok job ∧
      (recipesOf job).map (Node.prop "id") = [some "1".toList, some "1".toList] ∧
      ¬Identified (oneHost fun created => 100 * created) job) ∧
    ∃ job, copyJobAsTemplate (oneHost fun _ => 100) (twoRecipes []) = .ok job ∧
      (recipesOf job).map (Node.prop "checkpoint_file") =
        [some "checkpoint_180597.conf".toList, some "checkpoint_180597.conf".toList] ∧
      ¬Identified (oneHost fun _ => 100) job := by
  refine ⟨⟨_, rfl, rfl, fun identified => ?_⟩, _, rfl, rfl, fun identified => ?_⟩
  · exact absurd identified.ids (by decide)
  · exact absurd identified.checkpoints (by decide)

end Restraint.RecipeIdentity

import Restraint.RecipeParse

/-! The recipes that `recipe_parse` accepts, and what it keeps of them. The grammar is stated over
the document with no reference to the functions that parse it. Where an element may be given more
than once the first or the last one counts, as the code has it, and what is kept says which. -/
namespace Restraint.RecipeGrammar
open CString (Text)
open Xml Restraint.RecipeParse

variable {Uri : Type}

/-! ## The grammar -/

/-- A param element with both attributes. -/
def paramOf (node : Node) : Option Param :=
  (node.prop "name").bind fun name => (node.prop "value").map fun value => { name, value }

/-- A role element with a value, all its systems having values. -/
def roleOf (node : Node) : Option Role :=
  (node.prop "value").bind fun value =>
    if ∀ system ∈ node.named "system", (system.prop "value").isSome then
      some { value, systems := [' '].intercalate ((node.named "system").filterMap (Node.prop "value")) }
    else none

/-- The param elements of a recipe or task. -/
def paramNodes (node : Node) : List Node := (node.named "params").flatMap (Node.named "param")

/-- The role elements of a recipe or task. -/
def roleNodes (node : Node) : List Node := (node.named "roles").flatMap (Node.named "role")

/-- A task can be fetched: its first fetch element has a URL, or without one its first rpm element
has a name and a path. -/
def Sourced (world : World Uri) (task : Node) : Prop :=
  match task.firstNamed "fetch" with
  | some fetch => ∃ url, fetch.prop "url" = some url ∧ (world.soupUriNew url).isSome
  | none => ∃ rpm, task.firstNamed "rpm" = some rpm ∧ (rpm.prop "name").isSome ∧
    (rpm.prop "path").isSome

/-- The params and roles of a recipe or task are complete. -/
structure Furnished (node : Node) : Prop where
  params (param : Node) (member : param ∈ paramNodes node) : (paramOf param).isSome
  roles (role : Node) (member : role ∈ roleNodes node) : (roleOf role).isSome

structure TaskGrammar (world : World Uri) (task : Node) : Prop where
  id : (task.prop "id").isSome
  source : Sourced world task
  furnished : Furnished task

structure Grammar (world : World Uri) (recipe : Node) : Prop where
  furnished : Furnished recipe
  tasks (task : Node) (member : task ∈ recipe.named "task") : TaskGrammar world task

/-- What the grammar asks of a child of the recipe. -/
structure ChildGrammar (world : World Uri) (child : Node) : Prop where
  task : child.isNamed "task" = true → TaskGrammar world child
  params : child.isNamed "params" = true → ∀ param ∈ child.named "param", (paramOf param).isSome
  roles : child.isNamed "roles" = true → ∀ role ∈ child.named "role", (roleOf role).isSome

/-- At most one params and one roles element. -/
def Single (node : Node) : Prop :=
  (node.named "params").length ≤ 1 ∧ (node.named "roles").length ≤ 1

instance {node : Node} : Decidable (Single node) := inferInstanceAs (Decidable (_ ∧ _))

/-! ## What is kept -/

/-- The task of an element: its parameters and roles are all those of the element, in order. -/
structure Parsed (node : Node) (order : Nat) (task : RecipeParse.Task Uri) : Prop where
  taskId : node.prop "id" = some task.taskId
  name : node.prop "name" = task.name
  order : task.order = order
  params : task.params.map some = (paramNodes node).map paramOf
  roles : task.roles.map some = (roleNodes node).map roleOf

/-- The recipe of an element: one task for each task element, with even numbers. -/
structure Faithful (node : Node) (recipe : Recipe Uri) : Prop where
  tasks : List.Forall₂ (fun placed task => Parsed placed.1 (2 * placed.2) task)
    (node.named "task").zipIdx recipe.tasks
  params : recipe.params.map some = (paramNodes node).map paramOf
  roles : recipe.roles.map some = (roleNodes node).map roleOf

/-! ## Parameters and roles -/

/-- A value comes without an error, and no value with one. -/
def Reports {α : Type} (result : Result α) (value : Option α) : Prop :=
  match value with
  | some a => result = (some a, none)
  | none => ∃ error, result = (none, some error)

/-- All values come without an error, or none with one. -/
def ReportsAll {α : Type} (result : List α × Option GError) (values : List (Option α)) : Prop :=
  (∃ items, result = (items, none) ∧ items.map some = values) ∨
    ∃ error, result = ([], some error) ∧ none ∈ values

/-- A value that keeps something comes exactly of what is well formed, and an error otherwise. -/
def Settles {α : Type} (wellFormed : Prop) (result : Result α) (keeps : α → Prop) : Prop :=
  (wellFormed ∧ ∃ parsed, result = (some parsed, none) ∧ keeps parsed) ∨
    ¬wellFormed ∧ ∃ error, result = (none, some error)

variable {α : Type} {node : Node} {nodes : List Node} {name : String} {value : Node → Option α}
  {parse : Node → Result α} {world : World Uri}

private theorem parseParam_reports : Reports (parseParam node) (paramOf node) := by
  unfold parseParam paramOf
  cases node.prop "name" with
  | none => exact ⟨_, rfl⟩
  | some name =>
    cases node.prop "value" with
    | none => exact ⟨_, rfl⟩
    | some value => exact rfl

private theorem parseSystems_reports {systems : List Text} : Reports (parseSystems nodes systems)
    (if ∀ system ∈ nodes.filter (Node.isNamed "system"), (system.prop "value").isSome then
      some (systems ++ (nodes.filter (Node.isNamed "system")).filterMap (Node.prop "value"))
    else none) := by
  induction nodes generalizing systems with
  | nil => simp [parseSystems, Reports]
  | cons child rest ih =>
    unfold parseSystems
    split
    · rename_i system
      rw [List.filter_cons_of_pos system]
      cases found : child.prop "value" with
      | none =>
        rw [if_neg fun all => by simpa [found] using all child List.mem_cons_self]
        exact ⟨_, rfl⟩
      | some value =>
        simpa [found, List.append_assoc] using @ih (systems ++ [value])
    · rename_i other
      rw [List.filter_cons_of_neg other]
      exact ih

private theorem parseRoleSystem_reports : Reports (parseRoleSystem node)
    (if ∀ system ∈ node.named "system", (system.prop "value").isSome then
      some ((node.named "system").filterMap (Node.prop "value"))
    else none) :=
  parseSystems_reports

private theorem parseRole_reports : Reports (parseRole node) (roleOf node) := by
  unfold parseRole roleOf
  cases node.prop "value" with
  | none => exact ⟨_, rfl⟩
  | some value =>
    have systems : Reports (parseRoleSystem node) _ := parseRoleSystem_reports
    dsimp only [Option.bind_some]
    by_cases all : ∀ system ∈ node.named "system", (system.prop "value").isSome
    · rw [if_pos all] at systems
      rw [if_pos all, show parseRoleSystem node = (some _, none) from systems]
      exact rfl
    · rw [if_neg all] at systems
      obtain ⟨error, failed⟩ := systems
      rw [if_neg all, failed]
      exact ⟨error, rfl⟩

/-- The list of children is complete, or there is an error. -/
theorem parseChildren_reports {found : List α} (reports : ∀ node, Reports (parse node) (value node)) :
    (∃ items, parseChildren name parse nodes found = (found.reverse ++ items, none) ∧
        items.map some = (nodes.filter (Node.isNamed name)).map value) ∨
      ∃ error, parseChildren name parse nodes found = ([], some error) ∧
        none ∈ (nodes.filter (Node.isNamed name)).map value := by
  induction nodes generalizing found with
  | nil => exact .inl ⟨[], by simp [parseChildren]⟩
  | cons child rest ih =>
    unfold parseChildren
    split
    · rename_i named
      rw [List.filter_cons_of_pos named, List.map_cons]
      have report := reports child
      cases own : value child with
      | none =>
        rw [own] at report
        obtain ⟨error, failed⟩ := report
        rw [failed]
        exact .inr ⟨error, rfl, List.mem_cons_self⟩
      | some item =>
        rw [own] at report
        rw [show parse child = (some item, none) from report]
        dsimp only
        rcases @ih (item :: found) with ⟨items, all, listed⟩ | ⟨error, failed, missing⟩
        · refine .inl ⟨item :: items, ?_, by simp [listed]⟩
          rw [all]
          simp
        · exact .inr ⟨error, failed, List.mem_cons_of_mem _ missing⟩
    · rename_i other
      rw [List.filter_cons_of_neg other]
      exact ih

private theorem parseParams_reports : ReportsAll (parseParams node) ((node.named "param").map paramOf) :=
  parseChildren_reports fun _ => parseParam_reports

private theorem parseRoles_reports : ReportsAll (parseRoles node) ((node.named "role").map roleOf) :=
  parseChildren_reports fun _ => parseRole_reports

/-- A list that is kept whole has nothing missing, and one with an error misses something. -/
theorem ReportsAll.dichotomy {result : List α × Option GError}
    (report : ReportsAll result (nodes.map value)) :
    ((∀ node ∈ nodes, (value node).isSome) ∧
        ∃ items, result = (items, none) ∧ items.map some = nodes.map value) ∨
      (¬∀ node ∈ nodes, (value node).isSome) ∧ ∃ error, result = ([], some error) := by
  rcases report with ⟨items, whole, listed⟩ | ⟨error, failed, missing⟩
  · refine .inl ⟨fun node member => ?_, items, whole, listed⟩
    have kept := List.mem_map_of_mem (f := value) member
    rw [← listed] at kept
    obtain ⟨item, _, same⟩ := List.mem_map.mp kept
    rw [← same]
    rfl
  · refine .inr ⟨fun all => ?_, error, failed⟩
    obtain ⟨node, member, absent⟩ := List.mem_map.mp missing
    have present := all node member
    rw [absent] at present
    cases present

/-- An element that is not given twice is read, or there is nothing of it. -/
theorem parseOptional_reports {parse : Node → List α × Option GError} {inner : String}
    (single : (node.named name).length ≤ 1)
    (reports : ∀ node, ReportsAll (parse node) ((node.named inner).map value)) :
    ReportsAll (parseOptional parse (node.firstNamed name))
      (((node.named name).flatMap (Node.named inner)).map value) := by
  rw [named_eq_toList single]
  cases node.firstNamed name with
  | none => exact .inl ⟨[], rfl, rfl⟩
  | some found => simpa [parseOptional] using reports found

/-! ## Tasks -/

theorem parseSource_settles {basePath taskId : Text} :
    Settles (Sourced world node) (parseSource world basePath taskId node) fun _ => True := by
  unfold parseSource Sourced
  cases node.firstNamed "fetch" with
  | some fetch =>
    dsimp only
    cases fetch.prop "url" with
    | none => exact .inr ⟨fun ⟨_, absent, _⟩ => (nomatch absent), _, rfl⟩
    | some url =>
      dsimp only
      cases accepted : world.soupUriNew url with
      | none =>
        refine .inr ⟨fun ⟨_, same, valid⟩ => ?_, _, rfl⟩
        cases same
        rw [accepted] at valid
        cases valid
      | some uri => exact .inl ⟨⟨url, rfl, by rw [accepted]; rfl⟩, _, rfl, trivial⟩
  | none =>
    dsimp only
    cases node.firstNamed "rpm" with
    | none => exact .inr ⟨fun ⟨_, absent, _⟩ => (nomatch absent), _, rfl⟩
    | some rpm =>
      dsimp only
      cases named : rpm.prop "name" with
      | none =>
        refine .inr ⟨fun ⟨_, same, present, _⟩ => ?_, _, rfl⟩
        cases same
        rw [named] at present
        cases present
      | some rpmName =>
        dsimp only
        cases placed : rpm.prop "path" with
        | none =>
          refine .inr ⟨fun ⟨_, same, _, present⟩ => ?_, _, rfl⟩
          cases same
          rw [placed] at present
          cases present
        | some rpmPath =>
          exact .inl ⟨⟨rpm, rfl, by rw [named]; rfl, by rw [placed]; rfl⟩, _, rfl, trivial⟩

private theorem parseTask_settles {recipe : Recipe Uri} {order : Nat} (single : Single node) :
    Settles (TaskGrammar world node) (parseTask world recipe order node) (Parsed node order) := by
  unfold parseTask
  cases identified : node.prop "id" with
  | none =>
    refine .inr ⟨fun grammar => ?_, _, rfl⟩
    have present := grammar.id
    rw [identified] at present
    cases present
  | some taskId =>
    dsimp only
    have source : Settles (Sourced world node) (parseSource world recipe.basePath taskId node)
        fun _ => True := parseSource_settles
    rcases source with ⟨sourced, source, fetched, -⟩ | ⟨unsourced, error, failed⟩
    · rw [fetched]
      dsimp only
      rcases (parseOptional_reports single.1 fun _ => parseParams_reports).dichotomy with
        ⟨complete, params, read, listed⟩ | ⟨incomplete, error, failed⟩
      · rw [read]
        dsimp only
        rcases (parseOptional_reports single.2 fun _ => parseRoles_reports).dichotomy with
          ⟨assigned, roles, kept, each⟩ | ⟨unassigned, error, failed⟩
        · rw [kept]
          exact .inl ⟨⟨by rw [identified]; rfl, sourced, complete, assigned⟩, _, rfl,
            identified, rfl, rfl, listed, each⟩
        · rw [failed]
          exact .inr ⟨fun grammar => unassigned grammar.furnished.roles, _, rfl⟩
      · rw [failed]
        exact .inr ⟨fun grammar => incomplete grammar.furnished.params, _, rfl⟩
    · rw [failed]
      exact .inr ⟨fun grammar => unsourced grammar.source, _, rfl⟩

/-! ## Recipes -/

theorem grammar_iff : Grammar world node ↔ ∀ child ∈ node.children, ChildGrammar world child := by
  constructor
  · intro grammar child member
    refine ⟨fun named => grammar.tasks child (List.mem_filter.mpr ⟨member, named⟩),
      fun named param own => grammar.furnished.params param ?_,
      fun named role own => grammar.furnished.roles role ?_⟩
    · exact List.mem_flatMap.mpr ⟨child, List.mem_filter.mpr ⟨member, named⟩, own⟩
    · exact List.mem_flatMap.mpr ⟨child, List.mem_filter.mpr ⟨member, named⟩, own⟩
  · intro grammar
    refine ⟨⟨fun param member => ?_, fun role member => ?_⟩, fun task member => ?_⟩
    · obtain ⟨child, found, own⟩ := List.mem_flatMap.mp member
      exact (grammar child (List.mem_filter.mp found).1).params (List.mem_filter.mp found).2 param own
    · obtain ⟨child, found, own⟩ := List.mem_flatMap.mp member
      exact (grammar child (List.mem_filter.mp found).1).roles (List.mem_filter.mp found).2 role own
    · exact (grammar task (List.mem_filter.mp member).1).task (List.mem_filter.mp member).2

/-- The params or roles after some children: those of the last element that gives them. -/
def lastOf (value : Node → Option α) (inner : String) (before : List (Option α))
    (given : List Node) : List (Option α) :=
  given.foldl (fun _ node => (node.named inner).map value) before

private theorem lastOf_eq {inner : String} (single : nodes.length ≤ 1) :
    lastOf value inner [] nodes = (nodes.flatMap (Node.named inner)).map value := by
  match nodes, single with
  | [], _ => rfl
  | [given], _ => simp [lastOf]

/-- What the loop has made after these children, of a result and with the tasks numbered from `i`. -/
structure Kept (nodes : List Node) (i : Nat) (tasks : List (RecipeParse.Task Uri))
    (result parsed : Recipe Uri) : Prop where
  tasks : ∃ items, parsed.tasks = tasks.reverse ++ items ∧
    List.Forall₂ (fun placed task => Parsed placed.1 (2 * placed.2) task)
      ((nodes.filter (Node.isNamed "task")).zipIdx i) items
  params : parsed.params.map some = lastOf paramOf "param" (result.params.map some)
    (nodes.filter (Node.isNamed "params"))
  roles : parsed.roles.map some = lastOf roleOf "role" (result.roles.map some)
    (nodes.filter (Node.isNamed "roles"))

/-- The names of the children that are read are told apart. -/
theorem isNamed_eq_false {own : String} (named : node.isNamed name = true) (differ : own ≠ name) :
    node.isNamed own = false := by
  rw [isNamed_unique named]
  exact beq_false_of_ne differ

private theorem filter_cons_of_other {own : String} (named : node.isNamed name = true)
    (differ : own ≠ name) :
    (node :: nodes).filter (Node.isNamed own) = nodes.filter (Node.isNamed own) :=
  List.filter_cons_of_neg (by simp [isNamed_eq_false named differ])

private theorem childGrammar_task (named : node.isNamed "task" = true) :
    ChildGrammar world node ↔ TaskGrammar world node := by
  have noParams : node.isNamed "params" = false := isNamed_eq_false named (by decide)
  have noRoles : node.isNamed "roles" = false := isNamed_eq_false named (by decide)
  refine ⟨fun grammar => grammar.task named, fun grammar => ⟨fun _ => grammar, ?_, ?_⟩⟩
  · simp [noParams]
  · simp [noRoles]

private theorem childGrammar_params (named : node.isNamed "params" = true) :
    ChildGrammar world node ↔ ∀ param ∈ node.named "param", (paramOf param).isSome := by
  have noTask : node.isNamed "task" = false := isNamed_eq_false named (by decide)
  have noRoles : node.isNamed "roles" = false := isNamed_eq_false named (by decide)
  refine ⟨fun grammar => grammar.params named, fun complete => ⟨?_, fun _ => complete, ?_⟩⟩
  · simp [noTask]
  · simp [noRoles]

private theorem childGrammar_roles (named : node.isNamed "roles" = true) :
    ChildGrammar world node ↔ ∀ role ∈ node.named "role", (roleOf role).isSome := by
  have noTask : node.isNamed "task" = false := isNamed_eq_false named (by decide)
  have noParams : node.isNamed "params" = false := isNamed_eq_false named (by decide)
  refine ⟨fun grammar => grammar.roles named, fun complete => ⟨?_, ?_, fun _ => complete⟩⟩
  · simp [noTask]
  · simp [noParams]

section Kept
variable {rest : List Node} {i : Nat} {tasks : List (RecipeParse.Task Uri)}
  {task : RecipeParse.Task Uri} {result parsed : Recipe Uri}

theorem Kept.cons_task (named : node.isNamed "task" = true) (own : Parsed node (i * 2) task)
    (kept : Kept rest (i + 1) (task :: tasks) result parsed) :
    Kept (node :: rest) i tasks result parsed := by
  obtain ⟨⟨items, listed, each⟩, params, roles⟩ := kept
  refine ⟨⟨task :: items, by simp [listed], ?_⟩, ?_, ?_⟩
  · rw [List.filter_cons_of_pos named, List.zipIdx_cons]
    exact .cons (by rw [Nat.mul_comm]; exact own) each
  · rw [params, filter_cons_of_other named (by decide)]
  · rw [roles, filter_cons_of_other named (by decide)]

theorem Kept.cons_params {params : List Param} (named : node.isNamed "params" = true)
    (own : params.map some = (node.named "param").map paramOf)
    (kept : Kept rest i tasks { result with params } parsed) :
    Kept (node :: rest) i tasks result parsed := by
  refine ⟨?_, ?_, ?_⟩
  · rw [filter_cons_of_other named (by decide)]
    exact kept.tasks
  · rw [kept.params, List.filter_cons_of_pos named, lastOf, lastOf, List.foldl_cons, own]
  · rw [kept.roles, filter_cons_of_other named (by decide)]

theorem Kept.cons_roles {roles : List Role} (named : node.isNamed "roles" = true)
    (own : roles.map some = (node.named "role").map roleOf)
    (kept : Kept rest i tasks { result with roles } parsed) :
    Kept (node :: rest) i tasks result parsed := by
  refine ⟨?_, ?_, ?_⟩
  · rw [filter_cons_of_other named (by decide)]
    exact kept.tasks
  · rw [kept.params, filter_cons_of_other named (by decide)]
  · rw [kept.roles, List.filter_cons_of_pos named, lastOf, lastOf, List.foldl_cons, own]

theorem Kept.cons_other (noTask : ¬node.isNamed "task" = true)
    (noParams : ¬node.isNamed "params" = true) (noRoles : ¬node.isNamed "roles" = true)
    (kept : Kept rest i tasks result parsed) : Kept (node :: rest) i tasks result parsed := by
  refine ⟨?_, ?_, ?_⟩
  · rw [List.filter_cons_of_neg noTask]
    exact kept.tasks
  · rw [kept.params, List.filter_cons_of_neg noParams]
  · rw [kept.roles, List.filter_cons_of_neg noRoles]

end Kept

/-- After a well-formed child the rest of the children decides. -/
theorem Settles.cons {child : Node} {rest : List Node} {run : Result α} {keeps before : α → Prop}
    (grammar : ChildGrammar world child)
    (settles : Settles (∀ own ∈ rest, ChildGrammar world own) run before)
    (kept : ∀ parsed, before parsed → keeps parsed) :
    Settles (∀ own ∈ child :: rest, ChildGrammar world own) run keeps := by
  unfold Settles
  rw [List.forall_mem_cons]
  rcases settles with ⟨all, parsed, ran, held⟩ | ⟨notAll, error, failed⟩
  · exact .inl ⟨⟨grammar, all⟩, parsed, ran, kept parsed held⟩
  · exact .inr ⟨fun whole => notAll whole.2, error, failed⟩

private theorem parseRecipe_settles {i : Nat} {tasks : List (RecipeParse.Task Uri)} {result : Recipe Uri}
    (single : ∀ task ∈ nodes.filter (Node.isNamed "task"), Single task) :
    Settles (∀ child ∈ nodes, ChildGrammar world child) (parseRecipe world nodes i tasks result)
      (Kept nodes i tasks result) := by
  induction nodes generalizing i tasks result with
  | nil =>
    refine .inl ⟨fun _ member => ?_, _, rfl, ⟨[], by simp, .nil⟩, rfl, rfl⟩
    cases member
  | cons child rest ih =>
    have later : ∀ task ∈ rest.filter (Node.isNamed "task"), Single task := fun task member =>
      single task (List.mem_filter.mpr
        ⟨List.mem_cons_of_mem _ (List.mem_filter.mp member).1, (List.mem_filter.mp member).2⟩)
    unfold parseRecipe
    dsimp only
    by_cases task : child.isNamed "task" = true
    · rw [if_pos task]
      have settled : Settles (TaskGrammar world child) (parseTask world result (i * 2) child) _ :=
        parseTask_settles (single child (List.mem_filter.mpr ⟨List.mem_cons_self, task⟩))
      rcases settled with
        ⟨grammar, parsed, read, own⟩ | ⟨wrong, error, failed⟩
      · rw [read]
        exact .cons ((childGrammar_task task).mpr grammar) (ih later) fun _ => .cons_task task own
      · rw [failed]
        exact .inr ⟨fun all => wrong ((childGrammar_task task).mp (all child List.mem_cons_self)),
          error, rfl⟩
    · rw [if_neg task]
      by_cases given : child.isNamed "params" = true
      · rw [if_pos given]
        have read : ReportsAll (parseParams child) _ := parseParams_reports
        rcases read.dichotomy with
          ⟨complete, params, read, listed⟩ | ⟨incomplete, error, failed⟩
        · rw [read]
          exact .cons ((childGrammar_params given).mpr complete) (ih later)
            fun _ => .cons_params given listed
        · rw [failed]
          exact .inr ⟨fun all => incomplete
            ((childGrammar_params given).mp (all child List.mem_cons_self)), _, rfl⟩
      · rw [if_neg given]
        by_cases assigned : child.isNamed "roles" = true
        · rw [if_pos assigned]
          have read : ReportsAll (parseRoles child) _ := parseRoles_reports
          rcases read.dichotomy with
            ⟨complete, roles, read, listed⟩ | ⟨incomplete, error, failed⟩
          · rw [read]
            exact .cons ((childGrammar_roles assigned).mpr complete) (ih later)
              fun _ => .cons_roles assigned listed
          · rw [failed]
            exact .inr ⟨fun all => incomplete
              ((childGrammar_roles assigned).mp (all child List.mem_cons_self)), _, rfl⟩
        · rw [if_neg assigned]
          exact .cons ⟨fun named => absurd named task, fun named => absurd named given,
            fun named => absurd named assigned⟩ (ih later) fun _ => .cons_other task given assigned

section Document
variable {job recipe : Node} {recipeUri : Option Uri}

private theorem recipeParse_settles (found : findRecipe job = some recipe) (own : Single recipe)
    (single : ∀ task ∈ recipe.named "task", Single task) :
    Settles (Grammar world recipe) (recipeParse world (some job) recipeUri) (Faithful recipe) := by
  have ran : recipeParse world (some job) recipeUri =
      parseRecipe world recipe.children 0 [] (newRecipe world job recipe recipeUri) := by
    unfold recipeParse
    dsimp only
    rw [found]
  unfold Settles
  rw [grammar_iff, ran]
  have settled : Settles _ (parseRecipe world recipe.children 0 []
      (newRecipe world job recipe recipeUri)) _ := parseRecipe_settles single
  rcases settled with
    ⟨grammar, parsed, read, ⟨items, listed, each⟩, params, roles⟩ | failed
  · refine .inl ⟨grammar, parsed, read, ?_, ?_, ?_⟩
    · rw [listed]
      exact each
    · exact params.trans (lastOf_eq own.1)
    · exact roles.trans (lastOf_eq own.2)
  · exact .inr failed

/-- A recipe comes without an error exactly of the grammar, with all its tasks, parameters and
roles in their order; otherwise there is only the error. -/
theorem recipe_parse_accepts (found : findRecipe job = some recipe) (own : Single recipe)
    (single : ∀ task ∈ recipe.named "task", Single task) :
    ((∃ parsed, recipeParse world (some job) recipeUri = (some parsed, none)) ↔
        Grammar world recipe) ∧
      (∀ parsed, recipeParse world (some job) recipeUri = (some parsed, none) →
        Faithful recipe parsed) ∧
      (¬Grammar world recipe → ∃ error, recipeParse world (some job) recipeUri = (none, some error)) := by
  have settled : Settles (Grammar world recipe) (recipeParse world (some job) recipeUri) _ :=
    recipeParse_settles found own single
  rcases settled with
    ⟨grammar, parsed, read, faithful⟩ | ⟨wrong, error, failed⟩
  · refine ⟨⟨fun _ => grammar, fun _ => ⟨parsed, read⟩⟩, fun other same => ?_,
      fun wrong => absurd grammar wrong⟩
    cases read.symm.trans same
    exact faithful
  · refine ⟨⟨fun ⟨parsed, same⟩ => ?_, fun grammar => absurd grammar wrong⟩,
      fun parsed same => ?_, fun _ => ⟨error, failed⟩⟩
    · cases failed.symm.trans same
    · cases failed.symm.trans same

end Document

/-! ## One recipe -/

def exampleWorld : World Text where
  soupUriNew url := if "http://".toList.isPrefixOf url then some url else none
  soupUriNewWithBase base tail := base.map (· ++ tail)
  host _ := some "host".toList
  path url := some (url.drop 11)
  fragment _ := none
  installDir := "/mnt/tests".toList

/-- A task with a parameter, from these elements. -/
def exampleTask (sources : List Node) : Node :=
  .element "task" [("id", "1".toList)] (sources ++ [.element "params" []
    [.element "param" [("name", "A".toList), ("value", "1".toList)] []]])

def exampleFetch : Node := .element "fetch" [("url", "http://host/task".toList)] []

def exampleRecipe (sources : List Node) : Node :=
  .element "recipe" [("id", "1".toList)] [exampleTask sources]

def exampleJob (sources : List Node) : Node :=
  .element "job" [] [.element "recipeSet" [] [exampleRecipe sources]]

theorem recipe_parse_accepts_one :
    ((∃ parsed, recipeParse exampleWorld (some (exampleJob [exampleFetch])) none =
          (some parsed, none)) ↔
        Grammar exampleWorld (exampleRecipe [exampleFetch])) ∧
      (∀ parsed, recipeParse exampleWorld (some (exampleJob [exampleFetch])) none =
          (some parsed, none) → Faithful (exampleRecipe [exampleFetch]) parsed) ∧
      (¬Grammar exampleWorld (exampleRecipe [exampleFetch]) → ∃ error,
        recipeParse exampleWorld (some (exampleJob [exampleFetch])) none = (none, some error)) :=
  recipe_parse_accepts rfl (by decide) (by decide)

/-- A task with any fetch element that has a URL, or without one with any rpm element that has a
name and a path. -/
def SourcedAnywhere (world : World Uri) (task : Node) : Prop :=
  (∃ fetch ∈ task.named "fetch", ∃ url, fetch.prop "url" = some url ∧
      (world.soupUriNew url).isSome) ∨
    task.named "fetch" = [] ∧ ∃ rpm ∈ task.named "rpm", (rpm.prop "name").isSome ∧
      (rpm.prop "path").isSome

/-- Only the first fetch element counts: without a URL there it is an error, although another
element has one. -/
theorem second_fetch_refused :
    findRecipe (exampleJob [.element "fetch" [] [], exampleFetch]) =
        some (exampleRecipe [.element "fetch" [] [], exampleFetch]) ∧
      Single (exampleRecipe [.element "fetch" [] [], exampleFetch]) ∧
      Furnished (exampleRecipe [.element "fetch" [] [], exampleFetch]) ∧
      (∀ task ∈ (exampleRecipe [.element "fetch" [] [], exampleFetch]).named "task",
        Single task ∧ (task.prop "id").isSome ∧ SourcedAnywhere exampleWorld task ∧
          Furnished task) ∧
      recipeParse exampleWorld (some (exampleJob [.element "fetch" [] [], exampleFetch])) none =
        (none, some ⟨"Task 1 has 'fetch' element with 'url' attribute".toList⟩) := by
  refine ⟨rfl, by decide, ⟨fun _ member => ?_, fun _ member => ?_⟩, fun task member => ?_, rfl⟩
  · cases member
  · cases member
  · cases List.mem_singleton.mp (show task ∈ [exampleTask _] from member)
    refine ⟨by decide, rfl, .inl ⟨exampleFetch, ?_, _, rfl, rfl⟩, fun param own => ?_, fun _ own => ?_⟩
    · exact .tail _ (.head _)
    · cases List.mem_singleton.mp (show param ∈ [_] from own)
      rfl
    · cases own

end Restraint.RecipeGrammar

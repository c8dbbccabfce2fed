import Restraint.Lib.Xml

/-! `recipe_parse` of `recipe.c`: the recipe that restraintd makes of a document. Results are kept
as the source keeps them: a value that may be missing beside an error that may be set. The text of
an error names the element and what it lacks; it is built up from the inside, each caller putting
its own part in front. URIs are made by a library and are taken as they come. -/
namespace Restraint.RecipeParse
open CString (Text)
open Xml

/-- What the parser uses of libsoup, and of the configuration. -/
structure World (Uri : Type) where
  /-- `soup_uri_new`. -/
  soupUriNew : Text → Option Uri
  /-- `soup_uri_new_with_base`. -/
  soupUriNewWithBase : Option Uri → Text → Option Uri
  host : Uri → Option Text
  path : Uri → Option Text
  fragment : Uri → Option Text
  /-- `get_install_dir`. -/
  installDir : Text

structure Param where
  name : Text
  value : Text
  deriving DecidableEq

structure Role where
  value : Text
  systems : Text
  deriving DecidableEq

/-- How a task is fetched, and from where. -/
inductive Fetch (Uri : Type) where
  | unpack (url : Uri)
  | installPackage (packageName : Text)

structure Task (Uri : Type) where
  taskId : Text
  taskUri : Option Uri
  name : Option Text
  path : Text
  fetch : Fetch Uri
  keepchanges : Bool
  sslVerify : Bool
  params : List Param
  roles : List Role
  started : Bool
  finished : Bool
  order : Nat

structure Recipe (Uri : Type) where
  jobId : Option Text
  recipeSetId : Option Text
  recipeId : Option Text
  osarch : Option Text
  osdistro : Option Text
  osmajor : Option Text
  osvariant : Option Text
  owner : Option Text
  recipeUri : Option Uri
  basePath : Text
  tasks : List (Task Uri)
  params : List Param
  roles : List Role

/-- An error of code `RESTRAINT_RECIPE_PARSE_ERROR_UNRECOGNISED`, with its message. -/
structure GError where
  message : Text
  deriving DecidableEq

/-- A pointer that may be NULL, and the error that may be set. -/
abbrev Result (α : Type) := Option α × Option GError

def unrecognised (message : Text) : Option GError := some ⟨message⟩

/-- `g_propagate_prefixed_error`. -/
def prefixed (front : Text) (error : GError) : Option GError := some ⟨front ++ error.message⟩

/-- `%s` of a string that may be NULL. -/
def shown (text : Option Text) : Text := text.getD "(null)".toList

/-! ## Parameters and roles -/

/-- `parse_param`. -/
def parseParam (paramNode : Node) : Result Param :=
  match paramNode.prop "name" with
  | none => (none, unrecognised "'param' element without 'name' attribute".toList)
  | some name =>
    match paramNode.prop "value" with
    | none => (none, unrecognised "'param' element without 'value' attribute".toList)
    | some value => (some { name, value }, none)

/-- The loop of `parse_params` and `parse_roles` over the children: the list that is found, the
last first. NULL is the empty list. -/
def parseChildren {α : Type} (name : String) (parse : Node → Result α) :
    List Node → List α → List α × Option GError
  | [], found => (found.reverse, none)
  | child :: rest, found =>
    if child.isNamed name then
      match parse child with
      | (none, tmpError) => ([], tmpError)
      | (some item, _) => parseChildren name parse rest (item :: found)
    else parseChildren name parse rest found

/-- `parse_params`. -/
def parseParams (paramsNode : Node) : List Param × Option GError :=
  parseChildren "param" parseParam paramsNode.children []

/-- The loop of `parse_role_system` over the children. -/
def parseSystems : List Node → List Text → Result (List Text)
  | [], systems => (some systems, none)
  | child :: rest, systems =>
    if child.isNamed "system" then
      match child.prop "value" with
      | none => (none, unrecognised "'system' element without 'value' attribute".toList)
      | some value => parseSystems rest (systems ++ [value])
    else parseSystems rest systems

/-- `parse_role_system`. -/
def parseRoleSystem (systemNode : Node) : Result (List Text) := parseSystems systemNode.children []

/-- `parse_role`. -/
def parseRole (roleNode : Node) : Result Role :=
  match roleNode.prop "value" with
  | none => (none, unrecognised "'role' element without 'value' attribute".toList)
  | some value =>
    match parseRoleSystem roleNode with
    | (none, tmpError) => (none, tmpError)
    | (some systems, _) => (some { value, systems := [' '].intercalate systems }, none)

/-- `parse_roles`. -/
def parseRoles (rolesNode : Node) : List Role × Option GError :=
  parseChildren "role" parseRole rolesNode.children []

/-! ## Tasks -/

/-- The arguments of a `g_build_filename` end at the first NULL. -/
def arguments (elements : List (Option Text)) : List Text :=
  (elements.takeWhile Option.isSome).filterMap id

/-- What a task is fetched from and the path of it. -/
structure Source (Uri : Type) where
  fetch : Fetch Uri
  sslVerify : Bool
  path : Text

variable {Uri : Type}

/-- The fetch and rpm elements in `parse_task`. -/
def parseSource (world : World Uri) (basePath taskId : Text) (taskNode : Node) :
    Result (Source Uri) :=
  match taskNode.firstNamed "fetch" with
  | some fetch =>
    match fetch.prop "url" with
    | none =>
      (none, unrecognised ("Task ".toList ++ taskId ++
        " has 'fetch' element with 'url' attribute".toList))
    | some url =>
      match world.soupUriNew url with
      | none =>
        (none, unrecognised ("'".toList ++ url ++ "' from task ".toList ++ taskId ++
          " is not a valid url".toList))
      | some uri =>
        (some
          { fetch := .unpack uri
            sslVerify := fetch.prop "ssl_verify" ≠ some "off".toList
            path := CString.gBuildFilename (arguments
              [some basePath, world.host uri, world.path uri, world.fragment uri]) }, none)
  | none =>
    match taskNode.firstNamed "rpm" with
    | none =>
      (none, unrecognised ("Task ".toList ++ taskId ++
        " has neither 'url' attribute nor 'rpm' element".toList))
    | some rpm =>
      match rpm.prop "name" with
      | none =>
        (none, unrecognised ("Task ".toList ++ taskId ++
          " has 'rpm' element without 'name' attribute".toList))
      | some rpmName =>
        match rpm.prop "path" with
        | none =>
          (none, unrecognised ("Task ".toList ++ taskId ++
            " has 'rpm' element without 'path' attribute".toList))
        | some rpmPath =>
          (some { fetch := .installPackage rpmName, sslVerify := false, path := rpmPath }, none)

/-- The params or roles of a task; without the element there are none. -/
def parseOptional {α : Type} (parse : Node → List α × Option GError) :
    Option Node → List α × Option GError
  | none => ([], none)
  | some node => parse node

/-- `parse_task`, with the order that `recipe_parse` gives. -/
def parseTask (world : World Uri) (recipe : Recipe Uri) (order : Nat) (taskNode : Node) :
    Result (Task Uri) :=
  match taskNode.prop "id" with
  | none => (none, unrecognised "<task/> without id".toList)
  | some taskId =>
    let front := "Task ".toList ++ taskId ++ " has ".toList
    match parseSource world recipe.basePath taskId taskNode with
    | (none, error) => (none, error)
    | (some source, _) =>
      match parseOptional parseParams (taskNode.firstNamed "params") with
      | (_, some tmpError) => (none, prefixed front tmpError)
      | (params, none) =>
        match parseOptional parseRoles (taskNode.firstNamed "roles") with
        | (_, some tmpError) => (none, prefixed front tmpError)
        | (roles, none) =>
          let ended := ["Completed", "Aborted", "Cancelled"].any fun status =>
            taskNode.prop "status" = some status.toList
          (some
            { taskId
              taskUri := world.soupUriNewWithBase recipe.recipeUri
                ("tasks/".toList ++ taskId ++ "/".toList)
              name := taskNode.prop "name"
              path := source.path
              fetch := source.fetch
              keepchanges := taskNode.prop "keepchanges" = some "yes".toList
              sslVerify := source.sslVerify
              params
              roles
              started := ended
              finished := ended
              order }, none)

/-! ## Recipes -/

/-- `find_recipe`. -/
def findRecipe (root : Node) : Option Node :=
  match root.descendants fun node => node.isNamed "recipe" && (node.prop "id").isSome with
  | recipe :: _ => some recipe
  | [] => (root.descendants (Node.isNamed "guestrecipe")).head?

/-- The loop of `recipe_parse` over the children of the recipe: the next `i`, and the tasks so far,
the last first. -/
def parseRecipe (world : World Uri) :
    List Node → Nat → List (Task Uri) → Recipe Uri → Result (Recipe Uri)
  | [], _, tasks, result => (some { result with tasks := tasks.reverse }, none)
  | child :: rest, i, tasks, result =>
    let front := "Recipe ".toList ++ shown result.recipeId ++ " has ".toList
    if child.isNamed "task" then
      match parseTask world result (i * 2) child with
      | (none, tmpError) => (none, tmpError)
      | (some task, _) => parseRecipe world rest (i + 1) (task :: tasks) result
    else if child.isNamed "params" then
      match parseParams child with
      | (_, some tmpError) => (none, prefixed front tmpError)
      | (params, none) => parseRecipe world rest i tasks { result with params }
    else if child.isNamed "roles" then
      match parseRoles child with
      | (_, some tmpError) => (none, prefixed front tmpError)
      | (roles, none) => parseRecipe world rest i tasks { result with roles }
    else parseRecipe world rest i tasks result

/-- The recipe before its children are parsed. -/
def newRecipe (world : World Uri) (job recipe : Node) (recipeUri : Option Uri) : Recipe Uri where
  jobId := recipe.prop "job_id"
  recipeSetId := recipe.prop "recipe_set_id"
  recipeId := recipe.prop "id"
  osarch := recipe.prop "arch"
  osdistro := recipe.prop "distro"
  osmajor := recipe.prop "family"
  osvariant := recipe.prop "variant"
  owner := job.prop "owner"
  recipeUri := recipeUri.or (world.soupUriNew
    ("http://localhost/recipes/".toList ++ shown (recipe.prop "id") ++ "/".toList))
  basePath := world.installDir
  tasks := []
  params := []
  roles := []

/-- `recipe_parse`, from the root element of the document. -/
def recipeParse (world : World Uri) (doc : Option Node) (recipeUri : Option Uri) :
    Result (Recipe Uri) :=
  match doc with
  | none => (none, unrecognised "Invalid XML Document".toList)
  | some job =>
    match findRecipe job with
    | none => (none, unrecognised "<recipe/> element not found".toList)
    | some recipe => parseRecipe world recipe.children 0 [] (newRecipe world job recipe recipeUri)

end Restraint.RecipeParse

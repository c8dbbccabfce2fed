import Restraint.Env
import Restraint.LogRouting
import Restraint.Replies
import Restraint.Server
import Restraint.Testinfo

/-! The commands that a task, or a user at a shell, sends requests with. Where the requests go is read
from the environment, or from the file that `build_env` leaves for the users of a port. The text is
taken apart by `soup_uri_new`, which sees a query or a fragment where an id has a `?` or a `#` in it,
and only the path comes to the daemon. -/
namespace Restraint.Commands
open CString (Text gStrsplit gStrHasSuffix strstr pieces_of_strstr)
open Restraint.Env (ENV_PREFIX Settings assigned assignment buildEnv legacyVariables prefixed
  taskVariables valuesOf varname)
open Restraint.LogRouting (FileName taskLog)
open Restraint.LogTransferProofs (taskUrl)
open Restraint.Replies (Kind forwarded)
open Restraint.Server (abortRequested)
open Restraint.Testinfo (gStrsplitTwo)
open Restraint.Upload (escapeChar gUriEscapeString resultLogUri)

/-! ## The file -/

/-- `update_env_file`. -/
def updateEnvFile (pre restraintUrl recipeId taskId : Text) : Text :=
  assignment "HARNESS_PREFIX".toList pre ++ '\n' ::
    (assignment (pre ++ "URL".toList) restraintUrl ++ '\n' ::
      (assignment (pre ++ "RECIPE_URL".toList) (restraintUrl ++ "/recipes/".toList ++ recipeId) ++ '\n' ::
        (assignment (pre ++ "TASKID".toList) taskId ++ ['\n'])))

/-- The variables of a process. -/
abbrev Environ := Text → Option Text

/-- `g_setenv`, which refuses a missing value. -/
def setenv (environ : Environ) (name : Text) (value : Option Text) : Environ :=
  match value with
  | some value => Function.update environ name (some value)
  | none => environ

def unsetenv (environ : Environ) (name : Text) : Environ := Function.update environ name none

/-- One line of `alter_envvar_from_file`. -/
def alterLine (set : Bool) (environ : Environ) (line : Text) : Environ :=
  match gStrsplitTwo (· == '=') line with
  | [] => environ
  | name :: rest =>
    if name = [] then environ
    else if set then setenv environ name rest.head?
    else unsetenv environ name

/-- `alter_envvar_from_file`, with what the file holds. -/
def alterEnvvarFromFile (set : Bool) (msgbuf : Text) (environ : Environ) : Environ :=
  (if msgbuf = [] then [] else msgbuf.splitOn '\n').foldl (alterLine set) environ

/-! ## The server -/

def rstrntGetenv (environ : Environ) (name : Text) : Option Text :=
  match environ "HARNESS_PREFIX".toList with
  | none => environ name
  | some pre => if pre = [] then environ name else environ (pre ++ name)

/-- `ServerData`, once the environment has been read. -/
structure ServerData where
  serverRecipe : Option Text
  taskId : Option Text
  deriving DecidableEq

/-- `get_env_vars_and_format_ServerData`. -/
def getEnvVars (environ : Environ) : ServerData :=
  ⟨rstrntGetenv environ "RECIPE_URL".toList, rstrntGetenv environ "TASKID".toList⟩

/-- `format_server_string` before it calls `format_server`: the environment of the process, or with a
port the file too. Without the file there is an error, but the environment is read. -/
def serverData (port : Nat) (file : Option Text) (environ : Environ) : ServerData × Bool :=
  if port ≠ 0 then
    match file with
    | some msgbuf => (getEnvVars (alterEnvvarFromFile true msgbuf environ), true)
    | none => (getEnvVars environ, false)
  else (getEnvVars environ, true)

def formatResultServer (s : ServerData) : Option Text :=
  s.serverRecipe.bind fun recipe => s.taskId.map fun task =>
    recipe ++ "/tasks/".toList ++ task ++ "/results/".toList

def formatLogServer (s : ServerData) : Option Text :=
  s.serverRecipe.bind fun recipe => s.taskId.map fun task => recipe ++ "/tasks/".toList ++ task

def formatWatchdogServer (s : ServerData) : Option Text :=
  s.serverRecipe.map fun recipe => recipe ++ "/watchdog".toList

def formatAbortServer (s : ServerData) : Option Text :=
  s.serverRecipe.map fun recipe => recipe ++ "/status".toList

/-- A character of a scheme after the first one. -/
def schemeChar (c : Char) : Bool := c.isAlpha || c.isDigit || c == '+' || c == '-' || c == '.'

/-- The path that `soup_uri_new` finds: what is left without the fragment, the scheme, the host and the
query. Blanks around the text, escapes and components of dots are not looked at. -/
def soupUriPath (uri : Text) : Text :=
  let uri := uri.takeWhile (· ≠ '#')
  let rest :=
    if uri.head?.any Char.isAlpha then
      match uri.dropWhile schemeChar with
      | ':' :: rest => rest
      | _ => uri
    else uri
  let rest :=
    match rest with
    | '/' :: '/' :: rest => rest.dropWhile fun c => c ≠ '/' ∧ c ≠ '?'
    | _ => rest
  rest.takeWhile (· ≠ '?')

/-- A character of an id that means nothing in a URI. The dot is not one: a component of dots is taken
for a place in the path. -/
def idChar (c : Char) : Bool := c.isAlphanum || c == '-' || c == '_'

/-- What `upload_abort` sends. -/
def abortForm : Text := "status=Aborted".toList

variable {environ : Environ} {name value url recipeId taskId line rest : Text} {set : Bool}
  {env : List Text} {settings : Settings} {task : Harness.Task} {host path : Text}

/-! ## Reading the file back -/

theorem gStrsplitTwo_assignment (plain : '=' ∉ name) :
    gStrsplitTwo (· == '=') (assignment name value) = [name, value] := by
  have ends : (assignment name value).dropWhile (fun c => !(c == '=')) = '=' :: value := by
    rw [assignment, List.dropWhile_append_of_pos]
    · simp
    · intro c member
      have other : c ≠ '=' := fun same => plain (same ▸ member)
      simpa using other
  have begins : (assignment name value).takeWhile (fun c => !(c == '=')) = name := by
    rw [assignment, List.takeWhile_append_of_pos]
    · simp
    · intro c member
      have other : c ≠ '=' := fun same => plain (same ▸ member)
      simpa using other
  have some : assignment name value ≠ [] := by simp [assignment]
  rw [gStrsplitTwo, if_neg some, ends, begins]

private theorem alterLine_assignment (plain : '=' ∉ name) (named : name ≠ []) :
    alterLine set environ (assignment name value) =
      Function.update environ name (if set then some value else none) := by
  unfold alterLine
  rw [gStrsplitTwo_assignment plain]
  simp only [if_neg named]
  cases set <;> rfl

/-- A line more in front. -/
theorem alter_cons (clean : '\n' ∉ line) : alterEnvvarFromFile set (line ++ '\n' :: rest) environ =
    alterEnvvarFromFile set rest (alterLine set environ line) := by
  have some : line ++ '\n' :: rest ≠ [] := by simp
  unfold alterEnvvarFromFile
  rw [if_neg some, List.splitOn_append_cons_self_of_not_mem clean, List.foldl_cons]
  split
  · rename_i none
    rw [none]
    rfl
  · rfl

/-- The variables of the file. -/
def written (restraintUrl recipeId taskId : Text) : List (Text × Text) :=
  [("HARNESS_PREFIX".toList, ENV_PREFIX.toList), (prefixed "URL", restraintUrl),
    (prefixed "RECIPE_URL", restraintUrl ++ "/recipes/".toList ++ recipeId), (prefixed "TASKID", taskId)]

/-- What the variables are after the file was used. -/
def alter (set : Bool) (environ : Environ) (entries : List (Text × Text)) : Environ :=
  entries.foldl (fun environ entry => Function.update environ entry.1 (if set then some entry.2 else none))
    environ

private theorem alter_written (oneLine : '\n' ∉ url) (recipe : '\n' ∉ recipeId) (task : '\n' ∉ taskId) :
    alterEnvvarFromFile set (updateEnvFile ENV_PREFIX.toList url recipeId taskId) environ =
      alter set environ (written url recipeId taskId) := by
  have clean {name value : Text} (named : '\n' ∉ name) (valued : '\n' ∉ value) :
      '\n' ∉ assignment name value := by
    simp [assignment, named, valued]
  have target : '\n' ∉ url ++ "/recipes/".toList ++ recipeId := by simp [oneLine, recipe]
  unfold updateEnvFile
  rw [alter_cons (clean (by decide) (by decide)), alter_cons (clean (by decide) oneLine),
    alter_cons (clean (by decide) target), alter_cons (clean (by decide) task),
    alterLine_assignment (by decide) (by decide), alterLine_assignment (by decide) (by decide),
    alterLine_assignment (by decide) (by decide), alterLine_assignment (by decide) (by decide)]
  rfl

/-- Where a user of the port sends requests. -/
theorem getEnvVars_written : getEnvVars (alter true environ (written url recipeId taskId)) =
    ⟨some (url ++ "/recipes/".toList ++ recipeId), some taskId⟩ := by
  have pre : alter true environ (written url recipeId taskId) "HARNESS_PREFIX".toList =
      some ENV_PREFIX.toList := rfl
  have some : ENV_PREFIX.toList ≠ [] := by decide
  unfold getEnvVars rstrntGetenv
  rw [pre]
  simp only [if_neg some]
  rfl

/-! ## The environment of a task -/

/-- What a process finds in the array it was started with. -/
def environOf (env : List Text) : Environ := fun name =>
  (env.find? fun evar => varname evar = name).map (·.drop (name.length + 1))

private theorem environOf_eq (only : valuesOf name env = [assignment name value]) :
    environOf env name = some value := by
  unfold environOf
  rw [← List.head?_filter, ← valuesOf, only]
  simp [assignment]

private theorem environOf_buildEnv (leaves : settings.leaves name)
    (apart : "RECIPE_MEMBERS".toList ≠ name)
    (only : assigned (((if task.rhtsCompat then legacyVariables settings task else []) ++
      taskVariables settings task).filter fun entry => entry.1 = name) = [assignment name value]) :
    environOf (buildEnv settings task) name = some value :=
  environOf_eq (List.perm_singleton.mp (only ▸ Env.valuesOf_buildEnv leaves apart))

/-- Where a task sends requests. -/
theorem getEnvVars_buildEnv (pre : settings.leaves "HARNESS_PREFIX".toList)
    (recipe : settings.leaves (prefixed "RECIPE_URL")) (taskid : settings.leaves (prefixed "TASKID")) :
    getEnvVars (environOf (buildEnv settings task)) =
      ⟨some (settings.restraintUrl ++ "/recipes/".toList ++ settings.recipeId), some task.taskId⟩ := by
  have named : environOf (buildEnv settings task) "HARNESS_PREFIX".toList = some ENV_PREFIX.toList := by
    apply environOf_buildEnv pre (by decide)
    cases task.rhtsCompat <;> rfl
  have url : environOf (buildEnv settings task) (prefixed "RECIPE_URL") =
      some (settings.restraintUrl ++ "/recipes/".toList ++ settings.recipeId) := by
    apply environOf_buildEnv recipe (by decide)
    cases task.rhtsCompat <;> rfl
  have id : environOf (buildEnv settings task) (prefixed "TASKID") = some task.taskId := by
    apply environOf_buildEnv taskid (by decide)
    cases task.rhtsCompat <;> rfl
  have some : ENV_PREFIX.toList ≠ [] := by decide
  unfold getEnvVars rstrntGetenv
  rw [named]
  simp only [if_neg some]
  rw [← url, ← id]
  rfl

/-! ## The path -/

/-- A path below a recipe. -/
def recipeUrl (recipeId rest : Text) : Text := '/' :: ("recipes".toList ++ '/' :: (recipeId ++ '/' :: rest))

private theorem not_mem_of_idChar {c : Char} (chars : ∀ c ∈ name, idChar c = true)
    (other : idChar c = false) :
    c ∉ name := fun member => by
  rw [chars c member] at other
  cases other

/-- The path of a request to the daemon is what follows its address. -/
theorem soupUriPath_append (address : '/' ∉ host ∧ '?' ∉ host ∧ '#' ∉ host)
    (below : path.head? = some '/') (plain : '?' ∉ path ∧ '#' ∉ path) :
    soupUriPath ("http://".toList ++ host ++ path) = path := by
  have scheme : "http://".toList = ['h', 't', 't', 'p', ':', '/', '/'] := by decide
  have whole : ("http://".toList ++ host ++ path).takeWhile (· ≠ '#') = "http://".toList ++ host ++ path := by
    refine List.takeWhile_eq_self_iff.mpr fun c member => ?_
    simp only [decide_not, Bool.not_eq_true', decide_eq_false_iff_not]
    rintro rfl
    simp only [List.mem_append] at member
    rcases member with (known | host) | path
    · exact absurd known (by decide)
    · exact address.2.2 host
    · exact plain.2 path
  have left : (host ++ path).dropWhile (fun c => c ≠ '/' ∧ c ≠ '?') = path := by
    rw [List.dropWhile_append_of_pos]
    · cases path with
      | nil => rfl
      | cons c rest =>
        obtain rfl := Option.some.inj below
        rfl
    · intro c member
      have slash : c ≠ '/' := fun same => address.1 (same ▸ member)
      have question : c ≠ '?' := fun same => address.2.1 (same ▸ member)
      simp [slash, question]
  have asked : path.takeWhile (· ≠ '?') = path := by
    refine List.takeWhile_eq_self_iff.mpr fun c member => ?_
    have other : c ≠ '?' := fun same => plain.1 (same ▸ member)
    simpa using other
  unfold soupUriPath
  rw [whole, scheme, List.append_assoc]
  show (List.dropWhile _ (host ++ path)).takeWhile _ = path
  rw [left, asked]

section Plain
variable (recipe : ∀ c ∈ recipeId, idChar c = true)
include recipe

private theorem recipeUrl_plain (plain : '?' ∉ rest ∧ '#' ∉ rest) :
    '?' ∉ recipeUrl recipeId rest ∧ '#' ∉ recipeUrl recipeId rest := by
  have question := not_mem_of_idChar (c := '?') recipe rfl
  have hash := not_mem_of_idChar (c := '#') recipe rfl
  unfold recipeUrl
  simp [plain, question, hash]

private theorem taskUrl_plain (task : ∀ c ∈ taskId, idChar c = true) (plain : '?' ∉ rest ∧ '#' ∉ rest) :
    '?' ∉ taskUrl recipeId taskId rest ∧ '#' ∉ taskUrl recipeId taskId rest := by
  have question := not_mem_of_idChar (c := '?') task rfl
  have hash := not_mem_of_idChar (c := '#') task rfl
  refine recipeUrl_plain recipe ⟨?_, ?_⟩
  · simp [plain, question]
  · simp [plain, hash]

end Plain

/-! ## The branches -/

theorem forwarded_results {form : List (Text × Text)} :
    forwarded (taskUrl recipeId taskId "results/".toList) form =
      some (.results (form.lookup "no_plugins".toList).isSome) := by
  have ends : gStrHasSuffix (taskUrl recipeId taskId "results/".toList) "/results/".toList = true := by
    have parts : taskUrl recipeId taskId "results/".toList =
        ('/' :: ("recipes".toList ++ '/' :: (recipeId ++ '/' :: ("tasks".toList ++ '/' :: taskId)))) ++
          "/results/".toList := by
      have slash : "/results/".toList = '/' :: "results/".toList := by decide
      rw [slash]
      unfold taskUrl
      generalize "recipes".toList = recipes, "tasks".toList = tasks, "results/".toList = results
      simp
    rw [parts]
    exact List.isSuffixOf_iff_suffix.mpr (List.suffix_append _ _)
  rw [forwarded, if_pos ends]

private theorem splitOn_recipeUrl (recipe : '/' ∉ recipeId) (last : '/' ∉ rest) :
    (recipeUrl recipeId rest).splitOn '/' = [[], "recipes".toList, recipeId, rest] := by
  rw [recipeUrl, ← List.nil_append ('/' :: _), List.splitOn_append_cons_self_of_not_mem (by decide),
    List.splitOn_append_cons_self_of_not_mem (by decide),
    List.splitOn_append_cons_self_of_not_mem recipe, List.splitOn_eq_singleton last]

/-- The only recipe whose own requests look like logs. -/
theorem strstr_logs (recipe : '/' ∉ recipeId) (last : '/' ∉ rest) :
    strstr (recipeUrl recipeId rest) "/logs/".toList = true ↔ recipeId = "logs".toList := by
  have slash : "/logs/".toList = '/' :: ("logs".toList ++ ['/']) := by decide
  constructor
  · intro found
    rw [slash] at found
    obtain ⟨before, after, first, more, parts⟩ := pieces_of_strstr (by decide) found
    rw [splitOn_recipeUrl recipe last] at parts
    rcases before with _ | ⟨_, _ | ⟨_, _ | ⟨_, before⟩⟩⟩
    · exact absurd rfl first
    · exact absurd (List.cons.inj (List.cons.inj parts).2).1 (by decide)
    · exact (List.cons.inj (List.cons.inj (List.cons.inj parts).2).2).1
    · have length := congrArg List.length parts
      have some := List.length_pos_of_ne_nil more
      simp only [List.length_cons, List.length_append, List.length_nil, List.cons_append] at length
      omega
  · rintro rfl
    have parts : recipeUrl "logs".toList rest =
        ('/' :: "recipes".toList) ++ ("/logs/".toList ++ rest) := by
      rw [slash]
      rfl
    rw [parts]
    exact CString.strstr_append

/-- What follows the last slash decides whether a path ends in a word with a slash. -/
theorem not_results (last : '/' ∉ rest) (some : rest ≠ []) (text : Text) :
    gStrHasSuffix (text ++ '/' :: rest) "/results/".toList = false := by
  refine Bool.eq_false_iff.mpr fun has => ?_
  have slash : "/results/".toList = "/results".toList ++ ['/'] := by decide
  rw [gStrHasSuffix, List.isSuffixOf_iff_suffix, slash] at has
  obtain ⟨before, same⟩ := has
  have ends := congrArg List.getLast? same
  rw [← List.append_assoc, List.getLast?_concat, List.getLast?_append,
    List.getLast?_cons_of_ne_nil some, List.getLast?_eq_some_getLast some] at ends
  have final : '/' = rest.getLast some := Option.some.inj (by simpa using ends)
  exact last (final ▸ List.getLast_mem some)

private theorem gUriEscapeString_ne_nil {text : Text} (some : text ≠ []) :
    gUriEscapeString text ≠ [] := by
  obtain ⟨c, rest, rfl⟩ := List.exists_cons_of_ne_nil some
  unfold gUriEscapeString
  rw [List.flatMap_cons]
  unfold escapeChar
  split <;> simp

private theorem forwarded_logs {form : List (Text × Text)} {text : Text} (named : text ≠ [])
    (inOne : '/' ∉ text) :
    forwarded (taskUrl recipeId taskId ("logs/".toList ++ text)) form = some .logs := by
  have path : taskUrl recipeId taskId ("logs/".toList ++ text) =
      taskUrl recipeId taskId "logs".toList ++ '/' :: text := by
    rw [LogRouting.logs_append, LogRouting.taskUrl_append]
  have found : strstr (taskUrl recipeId taskId ("logs/".toList ++ text)) "/logs/".toList = true := by
    have logs : "/logs/".toList = '/' :: ("logs".toList ++ ['/']) := by decide
    have parts : taskUrl recipeId taskId ("logs/".toList ++ text) =
        ('/' :: ("recipes".toList ++ '/' :: (recipeId ++ '/' :: ("tasks".toList ++ '/' :: taskId)))) ++
          ("/logs/".toList ++ text) := by
      rw [path, logs]
      unfold taskUrl
      generalize "recipes".toList = recipes, "tasks".toList = tasks, "logs".toList = logs
      simp
    rw [parts]
    exact CString.strstr_append
  have other := not_results inOne named (taskUrl recipeId taskId "logs".toList)
  rw [← path] at other
  rw [forwarded, other, found]
  rfl

private theorem recipeUrl_append :
    recipeUrl recipeId rest = '/' :: ("recipes".toList ++ '/' :: recipeId) ++ '/' :: rest := by
  simp [recipeUrl]

private theorem hasSuffix_recipeUrl : gStrHasSuffix (recipeUrl recipeId rest) rest = true :=
  List.isSuffixOf_iff_suffix.mpr
    ⟨'/' :: ("recipes".toList ++ '/' :: recipeId) ++ ['/'], by rw [recipeUrl_append]; simp⟩

private theorem forwarded_watchdog {form : List (Text × Text)} (recipe : '/' ∉ recipeId) :
    forwarded (recipeUrl recipeId "watchdog".toList) form =
      some (if recipeId = "logs".toList then .logs else .watchdog) := by
  have ends : gStrHasSuffix (recipeUrl recipeId "watchdog".toList) "watchdog".toList = true :=
    hasSuffix_recipeUrl
  have other : gStrHasSuffix (recipeUrl recipeId "watchdog".toList) "/results/".toList = false := by
    rw [recipeUrl_append]
    exact not_results (by decide) (by decide) _
  rw [forwarded, other, ends]
  by_cases logs : recipeId = "logs".toList
  · rw [(strstr_logs recipe (by decide)).mpr logs, if_pos logs]
    rfl
  · rw [Bool.eq_false_iff.mpr fun found => logs ((strstr_logs recipe (by decide)).mp found), if_neg logs]
    rfl

private theorem forwarded_status {form : List (Text × Text)} (recipe : '/' ∉ recipeId) :
    forwarded (recipeUrl recipeId "status".toList) form =
      if recipeId = "logs".toList then some .logs else none := by
  have ends : gStrHasSuffix (recipeUrl recipeId "status".toList) "watchdog".toList = false :=
    CString.gStrHasSuffix_other hasSuffix_recipeUrl (by decide) (by decide)
  have other : gStrHasSuffix (recipeUrl recipeId "status".toList) "/results/".toList = false := by
    rw [recipeUrl_append]
    exact not_results (by decide) (by decide) _
  rw [forwarded, other, ends]
  by_cases logs : recipeId = "logs".toList
  · rw [(strstr_logs recipe (by decide)).mpr logs, if_pos logs]
    rfl
  · rw [Bool.eq_false_iff.mpr fun found => logs ((strstr_logs recipe (by decide)).mp found), if_neg logs]
    rfl

/-- What `rstrnt-abort` sends ends the recipe, whatever task runs. -/
theorem abortRequested_status (recipe : '/' ∉ recipeId) :
    abortRequested recipeId taskId (recipeUrl recipeId "status".toList) abortForm = some .recipe := by
  have parts : CString.gStrsplit (recipeUrl recipeId "status".toList) =
      [[], "recipes".toList, recipeId, "status".toList] := by
    rw [CString.gStrsplit, if_neg (by simp [recipeUrl]), splitOn_recipeUrl recipe (by decide)]
  have aborted : gStrHasSuffix abortForm "Aborted".toList = true := by decide
  simp only [abortRequested, parts, aborted, List.length_cons, List.length_nil]
  rw [if_neg (by decide), if_neg (by decide), if_pos (by rfl), if_pos (by rfl)]

/-- A command sends its request below the address of the daemon, and there it comes with this path. -/
def Sends (url : Text) (server : Option Text) (path : Text) : Prop :=
  server = some (url ++ path) ∧ soupUriPath (url ++ path) = path

end Restraint.Commands

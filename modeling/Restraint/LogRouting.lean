import Restraint.Lib.PathPattern
import Restraint.LogTransferProofs
import Restraint.Upload

/-! Which callback the client calls for an uploaded log. The patterns that are tried before those
of the logs look at the end of the path, and there stands what the task named the log. -/
namespace Restraint.LogRouting
open CString (Text)
open PathPattern Restraint.Client Restraint.LogTransferProofs Restraint.Upload

/-- What a task can name a log it uploads: the base name of a file. -/
structure FileName where
  text : Text
  named : text ≠ []
  inOne : '/' ∉ text
  here : text ≠ ".".toList
  above : text ≠ "..".toList

/-- The path of a log that `upload_log` of `cmd_log.c` sends. -/
def taskLog (recipeId taskId : Text) (name : FileName) : Text :=
  resultLogUri (taskUrl recipeId taskId ("logs/".toList ++ name.text)) name.text

/-- The path of a log that `cmd_result.c` sends, below the Location of the result. -/
def resultLog (recipeId taskId resultId : Text) (name : FileName) : Text :=
  resultLogUri (taskUrl recipeId taskId ("results/".toList ++ resultId ++ "/logs/".toList)) name.text

/-! ## The patterns before those of the logs -/

def startPath : List Component := [.word "start".toList (by decide)]

def statusPath : List Component :=
  [.word "recipes".toList (by decide), .some .alnum, .word "tasks".toList (by decide),
    .some .digit, .word "status".toList (by decide)]

def resultsPath : List Component :=
  [.word "recipes".toList (by decide), .some .alnum, .word "tasks".toList (by decide),
    .some .digit, .word "results".toList (by decide), .word [] (by decide)]

def watchdogPath : List Component :=
  [.word "recipes".toList (by decide), .some .alnum, .word "watchdog".toList (by decide)]

/-- What follows `logs/` in a path ends as a path for another callback does. -/
def Swallowed (tail : Text) : Prop :=
  ∃ parts ∈ [startPath, statusPath, resultsPath, watchdogPath], EndsIn parts (tail.splitOn '/')

variable {recipeId taskId resultId text tail : Text} {name : FileName} {parts : List Component}

private theorem search_start : Regex.search [.literal "/start".toList, .stop] text =
    Regex.search (pattern startPath) text := rfl

private theorem matchHere_recipes {after : Regex.Pattern} :
    Regex.matchHere (.literal "/recipes/".toList :: after) text =
      Regex.matchHere (.literal "/recipes".toList :: .literal ['/'] :: after) text :=
  matchHere_literal_append "/recipes".toList ['/']

private theorem matchHere_tasks {after : Regex.Pattern} :
    Regex.matchHere (.literal "/tasks/".toList :: after) text =
      Regex.matchHere (.literal "/tasks".toList :: .literal ['/'] :: after) text :=
  matchHere_literal_append "/tasks".toList ['/']

private theorem search_status : Regex.search [.literal "/recipes/".toList, .some .alnum,
      .literal "/tasks/".toList, .some .digit, .literal "/status".toList, .stop] text =
    Regex.search (pattern statusPath) text := by
  refine search_congr fun text => matchHere_recipes.trans ?_
  refine matchHere_congr fun text => matchHere_congr fun text => matchHere_congr fun text => ?_
  exact matchHere_tasks

private theorem search_results : Regex.search [.literal "/recipes/".toList, .some .alnum,
      .literal "/tasks/".toList, .some .digit, .literal "/results/".toList, .stop] text =
    Regex.search (pattern resultsPath) text := by
  refine search_congr fun text => matchHere_recipes.trans ?_
  refine matchHere_congr fun text => matchHere_congr fun text => matchHere_congr fun text => ?_
  apply matchHere_tasks.trans
  refine matchHere_congr fun text => matchHere_congr fun text => matchHere_congr fun text => ?_
  exact matchHere_literal_append "/results".toList ['/']

private theorem search_watchdog : Regex.search [.literal "/recipes/".toList, .some .alnum,
      .literal "/watchdog".toList, .stop] text =
    Regex.search (pattern watchdogPath) text :=
  search_congr fun _ => matchHere_recipes

/-- With a pattern for logs that matches, the log is lost only to an earlier pattern. -/
theorem processPath_eq_logs_iff (logs : Regex.search [.literal "/recipes/".toList, .some .alnum,
      .literal "/tasks/".toList, .some .digit, .literal "/logs/".toList] text = true ∨
    Regex.search [.literal "/recipes/".toList, .some .alnum, .literal "/tasks/".toList,
      .some .digit, .literal "/results/".toList, .some .digit, .literal "/logs/".toList] text = true) :
    processPath text = some .tasksLogsCb ↔
      ∀ parts ∈ [startPath, statusPath, resultsPath, watchdogPath],
        ¬Regex.search (pattern parts) text = true := by
  have tried : processPath text =
      (((regexes.take 4).find? fun regex => Regex.search regex.1 text).or
        ((regexes.drop 4).find? fun regex => Regex.search regex.1 text)).map Prod.snd := by
    rw [← List.find?_append, List.take_append_drop]
    rfl
  have earlier : (∀ parts ∈ [startPath, statusPath, resultsPath, watchdogPath],
        ¬Regex.search (pattern parts) text = true) ↔
      (regexes.take 4).find? (fun regex => Regex.search regex.1 text) = none := by
    rw [List.find?_eq_none, regexes]
    simp only [List.take_succ_cons, List.take_zero, List.forall_mem_cons, search_start,
      search_status, search_results, search_watchdog, List.not_mem_nil, false_implies, implies_true]
  rw [earlier, tried]
  cases found : (regexes.take 4).find? fun regex => Regex.search regex.1 text with
  | some regex =>
    have other : ∀ regex ∈ regexes.take 4, regex.2 ≠ .tasksLogsCb := by decide
    constructor
    · intro same
      exact absurd (Option.some.inj same) (other regex (List.mem_of_find?_eq_some found))
    · intro absent
      cases absent
  | none =>
    refine ⟨fun _ => rfl, fun _ => ?_⟩
    rw [Option.none_or, regexes]
    simp only [List.drop_succ_cons, List.drop_zero, List.find?_cons]
    rcases logs with task | result
    · rw [task]
      rfl
    · rw [result]
      split <;> rfl

/-! ## The paths of logs -/

theorem hexDigit_clean {n : Nat} : hexDigit n ≠ '/' := by
  unfold hexDigit
  rw [List.getD_eq_getElem?_getD]
  cases digit : "0123456789ABCDEF".toList[n]? with
  | none => decide
  | some c =>
    intro same
    have member := List.mem_of_getElem? digit
    rw [show c = '/' from same] at member
    exact absurd member (by decide)

private theorem escapeChar_clean {c : Char} : '/' ∉ escapeChar c := by
  unfold escapeChar
  split
  · rename_i kept
    intro member
    cases List.mem_singleton.mp member
    exact absurd kept (by decide)
  · intro member
    rcases List.mem_cons.mp member with percent | member
    · exact absurd percent (by decide)
    rcases List.mem_cons.mp member with high | member
    · exact hexDigit_clean high.symm
    · exact hexDigit_clean (List.mem_singleton.mp member).symm

theorem gUriEscapeString_clean : '/' ∉ gUriEscapeString text := by
  intro member
  obtain ⟨c, -, own⟩ := List.mem_flatMap.mp member
  exact escapeChar_clean own

/-- A name without escapes is the name itself. -/
theorem gUriEscapeString_eq_self (plain : '%' ∉ gUriEscapeString text) :
    gUriEscapeString text = text := by
  induction text with
  | nil => rfl
  | cons c rest ih =>
    have split : gUriEscapeString (c :: rest) = escapeChar c ++ gUriEscapeString rest := rfl
    rw [split, List.mem_append, not_or] at plain
    rw [split, ih plain.2]
    have own : escapeChar c = [c] := by
      unfold escapeChar at plain ⊢
      split
      · rfl
      · rename_i escaped
        rw [if_neg escaped] at plain
        exact absurd List.mem_cons_self plain.1
    rw [own, List.singleton_append]

private theorem gUriEscapeString_eq_start :
    gUriEscapeString text = "start".toList ↔ text = "start".toList := by
  constructor
  · intro same
    have plain : '%' ∉ gUriEscapeString text := by
      rw [same]
      decide
    rw [← same, gUriEscapeString_eq_self plain]
  · rintro rfl
    rfl

theorem taskUrl_append {rest : Text} :
    taskUrl recipeId taskId (text ++ rest) = taskUrl recipeId taskId text ++ rest := by
  simp [taskUrl]

theorem logs_append : "logs/".toList ++ text = "logs".toList ++ '/' :: text := by
  rw [show "logs/".toList = "logs".toList ++ ['/'] by decide, List.append_assoc,
    List.singleton_append]

theorem resultLogs_append : "results/".toList ++ resultId ++ "/logs/".toList ++ text =
    "results".toList ++ '/' :: (resultId ++ '/' :: ("logs".toList ++ '/' :: text)) := by
  rw [show "results/".toList = "results".toList ++ ['/'] by decide,
    show "/logs/".toList = '/' :: ("logs".toList ++ ['/']) by decide]
  simp only [List.append_assoc, List.cons_append, List.nil_append]

theorem splitOn_logs : ("logs".toList ++ '/' :: text).splitOn '/' =
    "logs".toList :: text.splitOn '/' :=
  List.splitOn_append_cons_self_of_not_mem (by decide) text

theorem splitOn_resultLogs (clean : '/' ∉ resultId) :
    ("results".toList ++ '/' :: (resultId ++ '/' :: ("logs".toList ++ '/' :: text))).splitOn '/' =
      "results".toList :: resultId :: "logs".toList :: text.splitOn '/' := by
  rw [List.splitOn_append_cons_self_of_not_mem (by decide),
    List.splitOn_append_cons_self_of_not_mem clean, splitOn_logs]

theorem taskLog_eq : taskLog recipeId taskId name =
    taskUrl recipeId taskId ("logs/".toList ++ gUriEscapeString name.text) := by
  rw [taskLog, resultLogUri, logs_append, logs_append, taskUrl_append,
    soupUriNewWithBase_last name.inOne, taskUrl_append]

theorem resultLog_eq : resultLog recipeId taskId resultId name = taskUrl recipeId taskId
    ("results/".toList ++ resultId ++ "/logs/".toList ++ gUriEscapeString name.text) := by
  have logs : "/logs/".toList = "/logs".toList ++ ['/'] := by decide
  rw [resultLog, resultLogUri, logs, ← List.append_assoc, taskUrl_append,
    soupUriNewWithBase_slash, List.append_assoc _ ['/'], List.singleton_append, ← taskUrl_append]

private theorem search_taskUrl_iff {rest : Text} (recipe : '/' ∉ recipeId) (task : '/' ∉ taskId) :
    Regex.search (pattern parts) (taskUrl recipeId taskId rest) = true ↔
      EndsIn parts ("recipes".toList :: recipeId :: "tasks".toList :: taskId ::
        rest.splitOn '/') := by
  have split : (taskUrl recipeId taskId rest).splitOn '/' = _ := splitOn_taskUrl recipe task
  rw [taskUrl, CString.splitOn_cons_slash, List.cons.injEq] at split
  rw [taskUrl, search_pattern_iff, split.2]

/-- The components that the earlier patterns ask for do not fit across the id before `logs`. -/
theorem endsIn_logs_iff {names : List Text} (front : List Text) (digits : ∀ c ∈ resultId, c.isDigit = true)
    (handled : parts ∈ [startPath, statusPath, resultsPath, watchdogPath]) :
    EndsIn parts (front ++ resultId :: "logs".toList :: names) ↔ EndsIn parts names := by
  have number {clean : '/' ∉ "recipes".toList} :
      ¬(Component.word "recipes".toList clean).Holds resultId := by
    rintro rfl
    exact absurd (digits 'r' (by decide)) (by decide)
  have recipe {clean : '/' ∉ "recipes".toList} {second : Component} : second.Holds "logs".toList →
      ¬(Component.word "recipes".toList clean).Holds resultId := fun _ => number
  have other {word : Text} {clean : '/' ∉ word} {first : Component} (differ : "logs".toList ≠ word) :
      (Component.word word clean).Holds "logs".toList → ¬first.Holds resultId := fun same =>
    absurd same differ
  have letters {first : Component} : (Component.some .digit).Holds "logs".toList → ¬first.Holds resultId :=
    fun holds => absurd (holds.2 'l' (by decide)) (by decide)
  have task {rest : List Component} (later : (Component.some .digit :: rest).IsChain
      fun first second => second.Holds "logs".toList → ¬first.Holds resultId) :
      (Component.word "recipes".toList (by decide) :: Component.some .alnum ::
        Component.word "tasks".toList (by decide) :: Component.some .digit :: rest).IsChain
      fun first second => second.Holds "logs".toList → ¬first.Holds resultId :=
    .cons_cons recipe (.cons_cons (other (by decide)) (.cons_cons letters later))
  have begins {word : Text} {clean : '/' ∉ word} {rest : List Component} (differ : "logs".toList ≠ word) :
      ∀ part ∈ (Component.word word clean :: rest).head?, ¬part.Holds "logs".toList := by
    intro part first
    cases first
    exact differ
  simp only [List.mem_cons, List.not_mem_nil, or_false] at handled
  rcases handled with rfl | rfl | rfl | rfl
  · exact endsIn_append_iff (begins (by decide)) (.singleton _)
  · exact endsIn_append_iff (begins (by decide))
      (task (.cons_cons (other (by decide)) (.singleton _)))
  · exact endsIn_append_iff (begins (by decide))
      (task (.cons_cons (other (by decide)) (.cons_cons (other (by decide)) (.singleton _))))
  · exact endsIn_append_iff (begins (by decide))
      (.cons_cons recipe (.cons_cons (other (by decide)) (.singleton _)))

/-! ## Which logs arrive -/

section Routing
variable (named : recipeId ≠ [] ∧ ∀ c ∈ recipeId, c.isAlphanum = true)
  (numbered : taskId ≠ [] ∧ ∀ c ∈ taskId, c.isDigit = true)
include named numbered

theorem processPath_taskLogs : processPath (taskUrl recipeId taskId ("logs/".toList ++ tail)) =
    some .tasksLogsCb ↔ ¬Swallowed tail := by
  have matched := search_taskUrl named numbered ("logs/".toList ++ tail)
    [.literal "/logs/".toList] (by
      rw [show '/' :: ("logs/".toList ++ tail) = "/logs/".toList ++ tail from rfl]
      exact Regex.matchHere_literal rfl)
  rw [processPath_eq_logs_iff (.inl matched)]
  unfold Swallowed
  simp only [not_exists, not_and]
  refine forall_congr' fun parts => forall_congr' fun handled => not_congr ?_
  rw [search_taskUrl_iff (slash_not_mem_of_alnum named.2)
    (slash_not_mem_of_alnum (alnum_of_digit numbered.2)), logs_append, splitOn_logs]
  exact endsIn_logs_iff ["recipes".toList, recipeId, "tasks".toList] numbered.2 handled

theorem processPath_resultLogs (counted : resultId ≠ [] ∧ ∀ c ∈ resultId, c.isDigit = true) :
    processPath (taskUrl recipeId taskId
        ("results/".toList ++ resultId ++ "/logs/".toList ++ tail)) = some .tasksLogsCb ↔
      ¬Swallowed tail := by
  have clean : '/' ∉ resultId := slash_not_mem_of_alnum (alnum_of_digit counted.2)
  have matched := search_taskUrl named numbered
    ("results/".toList ++ resultId ++ "/logs/".toList ++ tail)
    [.literal "/results/".toList, .some .digit, .literal "/logs/".toList] (by
      have shape : '/' :: ("results/".toList ++ resultId ++ "/logs/".toList ++ tail) =
          "/results/".toList ++ (resultId ++ ("/logs/".toList ++ tail)) := by
        rw [List.append_assoc, List.append_assoc]
        rfl
      rw [shape]
      apply Regex.matchHere_literal
      refine Regex.matchHere_some counted.1 counted.2 ?_
      exact Regex.matchHere_literal rfl)
  rw [processPath_eq_logs_iff (.inr matched)]
  unfold Swallowed
  simp only [not_exists, not_and]
  refine forall_congr' fun parts => forall_congr' fun handled => not_congr ?_
  rw [search_taskUrl_iff (slash_not_mem_of_alnum named.2)
    (slash_not_mem_of_alnum (alnum_of_digit numbered.2)), resultLogs_append,
    splitOn_resultLogs clean]
  exact endsIn_logs_iff ["recipes".toList, recipeId, "tasks".toList, taskId, "results".toList]
    counted.2 handled

end Routing

/-- Of the names in one component only `start` is taken for another path. -/
theorem swallowed_iff_start (clean : '/' ∉ tail) : Swallowed tail ↔ tail = "start".toList := by
  unfold Swallowed EndsIn
  rw [List.splitOn_eq_singleton clean]
  constructor
  · rintro ⟨parts, handled, last, all, suffix⟩
    have short : parts.length ≤ 1 := all.length_eq ▸ suffix.length_le
    simp only [List.mem_cons, List.not_mem_nil, or_false] at handled
    rcases handled with rfl | rfl | rfl | rfl
    · cases all with
      | cons start rest =>
        cases rest
        cases suffix.eq_of_length rfl
        exact start
    all_goals exact absurd short (by decide)
  · rintro rfl
    exact ⟨startPath, List.mem_cons_self, _, .cons rfl .nil, List.suffix_rfl⟩

/-- Of the names of files only `start` is taken for another path. -/
theorem swallowed_fileName_iff : Swallowed (gUriEscapeString name.text) ↔ name.text = "start".toList :=
  (swallowed_iff_start gUriEscapeString_clean).trans gUriEscapeString_eq_start

/-- Whatever ends in `/start` goes to `recipe_start_cb`, which is tried first. -/
theorem processPath_start (ends : "/start".toList <:+ text) : processPath text = some .recipeStartCb := by
  have found : Regex.search [.literal "/start".toList, .stop] text = true :=
    List.any_eq_true.mpr ⟨_, (List.mem_tails _ _).mpr ends, by decide⟩
  simp only [processPath, regexes, List.find?_cons, found, Option.map_some]

theorem processPath_taskLog_start (start : name.text = "start".toList) :
    processPath (taskLog recipeId taskId name) = some .recipeStartCb := by
  have tail : "logs/".toList ++ "start".toList = "logs".toList ++ "/start".toList := by decide
  rw [taskLog_eq, gUriEscapeString_eq_start.mpr start, tail, taskUrl_append]
  exact processPath_start (List.suffix_append _ _)

theorem processPath_resultLog_start (start : name.text = "start".toList) :
    processPath (resultLog recipeId taskId resultId name) = some .recipeStartCb := by
  have tail : "/logs/".toList ++ "start".toList = "/logs".toList ++ "/start".toList := by decide
  rw [resultLog_eq, gUriEscapeString_eq_start.mpr start, List.append_assoc, tail,
    ← List.append_assoc, taskUrl_append]
  exact processPath_start (List.suffix_append _ _)

section Names
variable (named : recipeId ≠ [] ∧ ∀ c ∈ recipeId, c.isAlphanum = true)
  (numbered : taskId ≠ [] ∧ ∀ c ∈ taskId, c.isDigit = true)
include named numbered

theorem processPath_taskLog : processPath (taskLog recipeId taskId name) = some .tasksLogsCb ↔
    name.text ≠ "start".toList := by
  rw [taskLog_eq, processPath_taskLogs named numbered, swallowed_fileName_iff]

theorem processPath_resultLog (counted : resultId ≠ [] ∧ ∀ c ∈ resultId, c.isDigit = true) :
    processPath (resultLog recipeId taskId resultId name) = some .tasksLogsCb ↔
      name.text ≠ "start".toList := by
  rw [resultLog_eq, processPath_resultLogs named numbered counted, swallowed_fileName_iff]

end Names

/-- The callback for an uploaded log is the one for logs exactly if the name is not `start`; what
else may stand there must not end as a path for another callback does. Those paths have their own
callbacks. -/
theorem log_routed_iff (named : recipeId ≠ [] ∧ ∀ c ∈ recipeId, c.isAlphanum = true)
    (numbered : taskId ≠ [] ∧ ∀ c ∈ taskId, c.isDigit = true)
    (counted : resultId ≠ [] ∧ ∀ c ∈ resultId, c.isDigit = true) (name : FileName) (tail : Text) :
    (processPath (taskLog recipeId taskId name) = some .tasksLogsCb ↔
        name.text ≠ "start".toList) ∧
      (processPath (resultLog recipeId taskId resultId name) = some .tasksLogsCb ↔
        name.text ≠ "start".toList) ∧
      (processPath (taskUrl recipeId taskId ("logs/".toList ++ tail)) = some .tasksLogsCb ↔
        ¬Swallowed tail) ∧
      (processPath (taskUrl recipeId taskId
          ("results/".toList ++ resultId ++ "/logs/".toList ++ tail)) = some .tasksLogsCb ↔
        ¬Swallowed tail) ∧
      processPath (taskUrl recipeId taskId "status".toList) = some .tasksStatusCb ∧
      processPath (taskUrl recipeId taskId "results/".toList) = some .tasksResultsCb ∧
      processPath (LogTransfer.soupUriNewWithBase (LogTransfer.recipePath recipeId)
        "watchdog".toList) = some .watchdogCb := by
  refine ⟨processPath_taskLog named numbered, processPath_resultLog named numbered counted,
    processPath_taskLogs named numbered, processPath_resultLogs named numbered counted,
    processPath_status named numbered, processPath_results named numbered, ?_⟩
  rw [recipePath_below]
  exact processPath_watchdog named

def startName : FileName where
  text := "start".toList
  named := by decide
  inOne := by decide
  here := by decide
  above := by decide

theorem log_routed_iff_start :
    (processPath (taskLog "1".toList "2".toList startName) = some .tasksLogsCb ↔
        startName.text ≠ "start".toList) ∧
      (processPath (resultLog "1".toList "2".toList "3".toList startName) = some .tasksLogsCb ↔
        startName.text ≠ "start".toList) ∧
      (processPath (taskUrl "1".toList "2".toList ("logs/".toList ++ "a/start".toList)) =
          some .tasksLogsCb ↔ ¬Swallowed "a/start".toList) ∧
      (processPath (taskUrl "1".toList "2".toList
          ("results/".toList ++ "3".toList ++ "/logs/".toList ++ "a/start".toList)) =
          some .tasksLogsCb ↔ ¬Swallowed "a/start".toList) ∧
      processPath (taskUrl "1".toList "2".toList "status".toList) = some .tasksStatusCb ∧
      processPath (taskUrl "1".toList "2".toList "results/".toList) = some .tasksResultsCb ∧
      processPath (LogTransfer.soupUriNewWithBase (LogTransfer.recipePath "1".toList)
        "watchdog".toList) = some .watchdogCb :=
  log_routed_iff ⟨by decide, List.all_eq_true.mp rfl⟩ ⟨by decide, List.all_eq_true.mp rfl⟩
    ⟨by decide, List.all_eq_true.mp rfl⟩ startName "a/start".toList

/-- A log named `start` is taken for the start of the recipe. -/
theorem start_log_swallowed :
    processPath (taskLog "1".toList "2".toList startName) = some .recipeStartCb ∧
      processPath (resultLog "1".toList "2".toList "3".toList startName) = some .recipeStartCb := by
  decide

end Restraint.LogRouting

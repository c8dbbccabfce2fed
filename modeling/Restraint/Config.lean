import Mathlib.Logic.Function.Basic
import Restraint.Harness
import Restraint.Lib.Decimal
import Restraint.Lib.KeyFile
import Restraint.Logging
import Restraint.Restart

/-! The config file: `config.c` reads and writes it whole for every value. What the daemon has to
keep over a restart, of each task and of the recipe, is what it reads there. What is written between
two reads is text. Values are therefore followed through the escapes and the numbers of the file,
and a write that fails, of the file or of the disk, leaves both the text and what is stored as they
were. -/
namespace Restraint.Config
open CString (Text)
open KeyFile (File IsKey IsValue Printable isGroupName isKeyName isSpace load toData)
open Restraint.Harness (Section)
open Restraint.Logging (LogType rstrntLogTypeGetPath)
open Restraint.Restart (storedInt64)

/-! ## Values -/

/-- `g_key_file_parse_string_as_value`; `leading` is whether only blanks came before. -/
def escape (leading : Bool) : Text → Text
  | [] => []
  | ' ' :: rest => (if leading then "\\s".toList else [' ']) ++ escape leading rest
  | '\t' :: rest => (if leading then "\\t".toList else ['\t']) ++ escape leading rest
  | '\n' :: rest => "\\n".toList ++ escape leading rest
  | '\r' :: rest => "\\r".toList ++ escape leading rest
  | '\\' :: rest => "\\\\".toList ++ escape false rest
  | c :: rest => c :: escape false rest

/-- `g_key_file_parse_value_as_string`; an escape sequence that is none is an error. -/
def unescape : Text → Option Text
  | [] => some []
  | '\\' :: 's' :: rest => (unescape rest).map (' ' :: ·)
  | '\\' :: 't' :: rest => (unescape rest).map ('\t' :: ·)
  | '\\' :: 'n' :: rest => (unescape rest).map ('\n' :: ·)
  | '\\' :: 'r' :: rest => (unescape rest).map ('\r' :: ·)
  | '\\' :: '\\' :: rest => (unescape rest).map ('\\' :: ·)
  | '\\' :: _ => none
  | c :: rest => (unescape rest).map (c :: ·)

/-- The values that `restraint_config_set` takes. -/
inductive Value where
  | uint64 (n : Int)
  | int (n : Int)
  | boolean (b : Bool)
  | string (s : Text)

def Value.print : Value → Text
  | .uint64 n => Decimal.print (n % 2 ^ 64).toNat
  | .int n => if n < 0 then '-' :: Decimal.print n.natAbs else Decimal.print n.natAbs
  | .boolean b => (if b then "true" else "false").toList
  | .string s => escape true s

/-- `g_key_file_get_uint64` of a value. -/
def asUint64 (raw : Text) : Option Nat :=
  let (n, rest) := Decimal.strtoull raw
  if raw = [] ∨ rest ≠ [] then none else some n

/-- `g_key_file_get_int64` of a value. -/
def asInt64 (raw : Text) : Option Int :=
  let (n, rest) := Decimal.strtoll raw
  if raw = [] ∨ rest ≠ [] then none else some n

/-- `g_key_file_parse_value_as_boolean`. -/
def asBoolean (raw : Text) : Option Bool :=
  let text := raw.rdropWhile isSpace
  if text = "true".toList ∨ text = "1".toList then some true
  else if text = "false".toList ∨ text = "0".toList then some false
  else none

/-! ## The file -/

/-- The file on the disk, unless there is none. -/
abbrev Disk := Option Text

/-- `restraint_config_read_key_file`, where `reads` is whether a file can be read; no file is an
empty one. -/
def readKeyFile (disk : Disk) (reads : Bool) : Option File :=
  match disk with
  | none => some []
  | some text => if reads then load text else none

/-- A value of the file; what is missing is no error. -/
def valueAs {α : Type} (parse : Text → Option α) (missing : α) (file : File) (group key : Text) :
    Option α :=
  (KeyFile.value file group key).elim (some missing) parse

/-- A getter of `config.c`; an error is `none`. -/
def getWith {α : Type} (parse : Text → Option α) (missing : α) (disk : Disk) (reads : Bool)
    (group key : Text) : Option α :=
  (readKeyFile disk reads).bind fun file => valueAs parse missing file group key

def restraintConfigGetInt64 : Disk → Bool → Text → Text → Option Int := getWith asInt64 0

def restraintConfigGetUint64 : Disk → Bool → Text → Text → Option Nat := getWith asUint64 0

def restraintConfigGetBoolean : Disk → Bool → Text → Text → Option Bool := getWith asBoolean false

def restraintConfigGetString : Disk → Bool → Text → Text → Option (Option Text) :=
  getWith (fun raw => (unescape raw).map some) none

def restraintConfigGetKeys (disk : Disk) (reads : Bool) (group : Text) : Option (List Text) :=
  (readKeyFile disk reads).map fun file => ((file.lookup group).getD []).map Prod.fst

inductive Change where
  | set (key : Text) (value : Value)
  | removeKey (key : Text)
  | removeGroup

/-- What `restraint_config_set` changes. GLib refuses names that a key file cannot have. -/
def Change.apply (file : File) (group : Text) : Change → File
  | .set key value =>
    if isGroupName group ∧ isKeyName key then KeyFile.setValue file group key value.print else file
  | .removeKey key => KeyFile.removeKey file group key
  | .removeGroup => KeyFile.removeGroup file group

/-- `restraint_config_set`, and whether it succeeded. `g_file_set_contents` writes all or nothing. -/
def restraintConfigSet (disk : Disk) (reads writes : Bool) (group : Text) (change : Change) :
    Disk × Bool :=
  match readKeyFile disk reads with
  | some file => if writes then (some (toData (change.apply file group)), true) else (disk, false)
  | none => (disk, false)

/-! ## The daemon -/

def offsetsSection (taskId : Text) : Text := "offsets_".toList ++ taskId

/-- What the daemon writes. -/
inductive Write where
  /-- `task_handler` in `TASK_RUN`. -/
  | started (taskId : Text) (value : Bool)
  | reboots (taskId : Text) (count : Nat)
  /-- `task_finish_callback`. -/
  | localwatchdog (taskId : Text) (value : Bool)
  /-- `task_heartbeat_callback`. -/
  | remainingTime (taskId : Text) (left : Int)
  /-- `task_config_set_offset`. -/
  | offset (taskId : Text) (type : LogType) (value : Nat)
  /-- `task_handler` in `TASK_COMPLETED`. -/
  | completed (taskId : Text)
  /-- `recipe_handler` in `RECIPE_RUN`. -/
  | recipeUrl (url : Text)

/-- The section and the change of a write. -/
def Write.call : Write → Text × Change
  | .started taskId value => (taskId, .set "started".toList (.boolean value))
  | .reboots taskId count => (taskId, .set "reboots".toList (.uint64 count))
  | .localwatchdog taskId value => (taskId, .set "localwatchdog".toList (.boolean value))
  | .remainingTime taskId left => (taskId, .set "remaining_time".toList (.uint64 left))
  | .offset taskId type value =>
    (offsetsSection taskId, .set (rstrntLogTypeGetPath type).toList (.uint64 value))
  | .completed taskId => (taskId, .removeGroup)
  | .recipeUrl url => ("restraint".toList, .set "recipe_url".toList (.string url))

def Write.perform (write : Write) (disk : Disk) (reads writes : Bool) : Disk × Bool :=
  restraintConfigSet disk reads writes write.call.1 write.call.2

/-- `task_config_get_offsets`. -/
def taskConfigGetOffsets (disk : Disk) (reads : Bool) (taskId : Text) : Option (List (Text × Nat)) :=
  (restraintConfigGetKeys disk reads (offsetsSection taskId)).bind fun pathv =>
    pathv.mapM fun path =>
      (restraintConfigGetUint64 disk reads (offsetsSection taskId) path).map (path, ·)

/-- What `parse_task_config` sets of a task. -/
structure TaskConfig where
  reboots : Nat
  offsets : List (Text × Nat)
  started : Bool
  localwatchdog : Bool
  deriving DecidableEq

def parseTaskConfig (disk : Disk) (reads : Bool) (taskId : Text) : Option TaskConfig := do
  let reboots ← restraintConfigGetUint64 disk reads taskId "reboots".toList
  let offsets ← taskConfigGetOffsets disk reads taskId
  let started ← restraintConfigGetBoolean disk reads taskId "started".toList
  let localwatchdog ← restraintConfigGetBoolean disk reads taskId "localwatchdog".toList
  return ⟨reboots, offsets, started, localwatchdog⟩

/-! ## What is kept -/

/-- What the daemon has to know after a restart. -/
structure Stored where
  tasks : Text → Section
  offsets : Text → LogType → Option Nat
  recipeUrl : Option Text

def Stored.empty : Stored := ⟨fun _ => .empty, fun _ _ => none, none⟩

/-- What a write changes of it. The offsets of a task stay when the task is over. -/
def Write.effect (s : Stored) : Write → Stored
  | .started t value => { s with tasks := Function.update s.tasks t { s.tasks t with started := value } }
  | .reboots t count =>
    { s with tasks := Function.update s.tasks t { s.tasks t with reboots := count % 2 ^ 64 } }
  | .localwatchdog t value =>
    { s with tasks := Function.update s.tasks t { s.tasks t with localwatchdog := value } }
  | .remainingTime t left =>
    { s with tasks := Function.update s.tasks t { s.tasks t with remainingTime := storedInt64 left } }
  | .offset t type value =>
    { s with offsets :=
        Function.update s.offsets t (Function.update (s.offsets t) type (some (value % 2 ^ 64))) }
  | .completed t => { s with tasks := Function.update s.tasks t .empty }
  | .recipeUrl url => { s with recipeUrl := some url }

/-! ## Values are read as they were written -/

variable {file : File} {s : Stored} {group key group' key' raw text taskId other : Text} {n : Nat}
  {write : Write} {disk : Disk} {reads writes : Bool}

private theorem unescape_cons {c : Char} {rest : Text} (plain : c ≠ '\\') :
    unescape (c :: rest) = (unescape rest).map (c :: ·) := by
  rw [unescape.eq_def]
  split <;> simp_all

private theorem unescape_escape {leading : Bool} : unescape (escape leading text) = some text := by
  fun_induction escape leading text with
  | case1 => rfl
  | case2 leading rest ih =>
    cases leading
    · exact (unescape_cons (by decide)).trans (congrArg (Option.map _) ih)
    · exact congrArg (Option.map _) ih
  | case3 leading rest ih =>
    cases leading
    · exact (unescape_cons (by decide)).trans (congrArg (Option.map _) ih)
    · exact congrArg (Option.map _) ih
  | case4 leading rest ih => exact congrArg (Option.map _) ih
  | case5 leading rest ih => exact congrArg (Option.map _) ih
  | case6 leading rest ih => exact congrArg (Option.map _) ih
  | case7 leading c rest _ _ _ _ plain ih =>
    exact (unescape_cons plain).trans (congrArg (Option.map _) ih)

/-- Escaped values are on one line, and their blanks are not at the start. -/
theorem escape_clean {leading : Bool} : '\n' ∉ escape leading text ∧ '\r' ∉ escape leading text := by
  fun_induction escape leading text with
  | case1 => simp
  | case2 leading rest ih => cases leading <;> simpa using ih
  | case3 leading rest ih => cases leading <;> simpa using ih
  | case4 leading rest ih => simpa using ih
  | case5 leading rest ih => simpa using ih
  | case6 leading rest ih => simpa using ih
  | case7 leading c rest _ _ line feed _ ih =>
    exact ⟨by simpa [Ne.symm line] using ih.1, by simpa [Ne.symm feed] using ih.2⟩

/-- A form feed is a blank to the reader, but is not escaped. -/
theorem escape_first (fed : text.head? ≠ some '\x0c') :
    ∀ c ∈ (escape true text).head?, isSpace c = false := by
  intro c first
  unfold escape at first
  split at first
  · cases first
  all_goals try (cases first; decide)
  rename_i d rest blank tab line feed slash
  cases first
  have form : ¬ c = '\x0c' := by simpa using fed
  have plain : ((((¬ c = ' ') ∧ ¬ c = '\t') ∧ ¬ c = '\n') ∧ ¬ c = '\x0c') ∧ ¬ c = '\r' :=
    ⟨⟨⟨⟨blank, tab⟩, line⟩, form⟩, feed⟩
  simpa [isSpace] using plain

/-- A value that is read as it was written. -/
def Value.plain : Value → Prop
  | .string s => s.head? ≠ some '\x0c'
  | _ => True

private theorem isDigit_clean {c : Char} (digit : c.isDigit = true) :
    c ≠ '\n' ∧ c ≠ '\r' ∧ isSpace c = false := by
  have blank : isSpace c = false := by
    refine Bool.eq_false_iff.mpr fun found => ?_
    simp only [isSpace, Bool.or_eq_true, beq_iff_eq] at found
    rcases found with (((rfl | rfl) | rfl) | rfl) | rfl <;> exact absurd digit (by decide)
  refine ⟨?_, ?_, blank⟩
  · rintro rfl
    exact absurd blank (by decide)
  · rintro rfl
    exact absurd blank (by decide)

private theorem isValue_of_clean (first : ∀ c ∈ text.head?, isSpace c = false)
    (clean : '\n' ∉ text ∧ '\r' ∉ text) : IsValue text where
  first := first
  last last := clean.2 (List.mem_of_getLast? last)
  oneLine := clean.1

private theorem isValue_number : IsValue (Decimal.print n) := by
  have digit : ∀ c ∈ Decimal.print n, c ≠ '\n' ∧ c ≠ '\r' ∧ isSpace c = false :=
    fun c member => isDigit_clean (Decimal.isDigit_of_mem_print member)
  refine isValue_of_clean (fun c first => (digit c (List.mem_of_head? first)).2.2) ⟨?_, ?_⟩
  · exact fun member => (digit _ member).1 rfl
  · exact fun member => (digit _ member).2.1 rfl

private theorem isValue_print {value : Value} (plain : value.plain) : IsValue value.print := by
  cases value with
  | uint64 n => exact isValue_number
  | int n =>
    have number := isValue_number (n := n.natAbs)
    simp only [Value.print]
    split
    · refine ⟨fun c first => ?_, ?_, ?_⟩
      · cases first
        decide
      · rw [← List.singleton_append, List.getLast?_append_of_ne_nil _ Decimal.print_ne_nil]
        exact number.last
      · simpa using number.oneLine
    · exact number
  | boolean b =>
    refine isValue_of_clean (fun c first => ?_) (by cases b <;> decide)
    cases b <;> cases first <;> decide
  | string s => exact isValue_of_clean (escape_first plain) escape_clean

private theorem asUint64_print : asUint64 (Value.print (.uint64 n)) = some (n % 2 ^ 64) := by
  have bound : n % 2 ^ 64 < 2 ^ 64 := Nat.mod_lt _ (by decide)
  have read : Decimal.strtoull (Decimal.print (n % 2 ^ 64) ++ []) = (n % 2 ^ 64, []) :=
    Decimal.strtoull_print bound (by simp)
  have same : Value.print (.uint64 n) = Decimal.print (n % 2 ^ 64) :=
    congrArg Decimal.print (by omega)
  rw [List.append_nil] at read
  rw [asUint64, same, read]
  simp

private theorem asInt64_print {left : Int} :
    asInt64 (Value.print (.uint64 left)) = some (storedInt64 left) := by
  have least : 0 ≤ left % 2 ^ 64 := Int.emod_nonneg _ (by decide)
  rw [asInt64, Value.print, Decimal.strtoll_print, Int.toNat_of_nonneg least]
  simp [storedInt64]

private theorem asBoolean_print {b : Bool} : asBoolean (Value.print (.boolean b)) = some b := by
  cases b <;> decide

/-! ## Every write keeps everything else -/

/-- An id of a task whose sections belong to no one else. -/
structure IsTask (taskId : Text) : Prop where
  group : isGroupName taskId = true
  recipe : taskId ≠ "restraint".toList
  offsets : ¬ "offsets_".toList <+: taskId

/-- A write that a key file can hold. -/
def Write.plain : Write → Prop
  | .started taskId _ | .reboots taskId _ | .localwatchdog taskId _ | .remainingTime taskId _
  | .offset taskId _ _ | .completed taskId => IsTask taskId
  | .recipeUrl url => url.head? ≠ some '\x0c'

private theorem offsetsSection_injective (same : offsetsSection taskId = offsetsSection other) :
    taskId = other :=
  List.append_cancel_left same

private theorem isGroupName_offsets (task : IsTask taskId) :
    isGroupName (offsetsSection taskId) = true :=
  KeyFile.isGroupName_append (by decide) task.group

theorem IsTask.ne_offsets (task : IsTask taskId) : taskId ≠ offsetsSection other := by
  rintro rfl
  exact task.offsets (List.prefix_append _ _)

private theorem restraint_ne_offsets : "restraint".toList ≠ offsetsSection other := by
  intro same
  exact absurd (List.cons.inj same).1 (by decide)

private theorem isKey_path (type : LogType) : KeyFile.IsKey (rstrntLogTypeGetPath type).toList := by
  cases type <;> decide +kernel

private theorem path_injective {type type' : LogType}
    (same : (rstrntLogTypeGetPath type).toList = (rstrntLogTypeGetPath type').toList) : type = type' := by
  cases type <;> cases type' <;> first | rfl | exact absurd same (by decide)

/-- A file that holds what is stored. -/
structure Kept (file : File) (s : Stored) : Prop where
  printable : Printable file
  started : ∀ t, IsTask t → valueAs asBoolean false file t "started".toList = some (s.tasks t).started
  localwatchdog : ∀ t, IsTask t →
    valueAs asBoolean false file t "localwatchdog".toList = some (s.tasks t).localwatchdog
  reboots : ∀ t, IsTask t → valueAs asUint64 0 file t "reboots".toList = some (s.tasks t).reboots
  remainingTime : ∀ t, IsTask t →
    valueAs asInt64 0 file t "remaining_time".toList = some (s.tasks t).remainingTime
  offsets : ∀ t, IsTask t → ∀ type,
    valueAs (fun raw => (asUint64 raw).map some) none file (offsetsSection t)
      (rstrntLogTypeGetPath type).toList = some (s.offsets t type)
  paths : ∀ t, IsTask t → ∀ key, (KeyFile.value file (offsetsSection t) key).isSome = true →
    ∃ type, key = (rstrntLogTypeGetPath type).toList
  recipeUrl : valueAs (fun raw => (unescape raw).map some) none file "restraint".toList
    "recipe_url".toList = some s.recipeUrl

private theorem valueAs_setValue {α : Type} {parse : Text → Option α} {missing : α} :
    valueAs parse missing (KeyFile.setValue file group key raw) group' key' =
      if group' = group ∧ key' = key then parse raw else valueAs parse missing file group' key' := by
  unfold valueAs
  rw [KeyFile.value_setValue]
  split <;> rfl

private theorem valueAs_removeGroup {α : Type} {parse : Text → Option α} {missing : α} :
    valueAs parse missing (KeyFile.removeGroup file group) group' key' =
      if group' = group then some missing else valueAs parse missing file group' key' := by
  unfold valueAs
  rw [KeyFile.value_removeGroup]
  split <;> rfl

private theorem apply_set {value : Value} (named : isGroupName group = true)
    (isKey : KeyFile.IsKey key) :
    (Change.set key value).apply file group = KeyFile.setValue file group key value.print :=
  if_pos ⟨named, isKey.named⟩

private theorem valueAs_task {α : Type} {parse : Text → Option α} {missing : α}
    {change : Section → Section}
    {u : Text} (own : Section → α)
    (kept : valueAs parse missing file u key' = some (own (s.tasks u)))
    (set : (if key' = key then parse raw else some (own (s.tasks taskId))) =
      some (own (change (s.tasks taskId)))) :
    valueAs parse missing (KeyFile.setValue file taskId key raw) u key' =
      some (own (Function.update s.tasks taskId (change (s.tasks taskId)) u)) := by
  rw [valueAs_setValue]
  by_cases same : u = taskId
  · subst same
    rw [Function.update_self, ← set, kept]
    simp only [true_and]
  · rw [if_neg fun both => same both.1, kept, Function.update_of_ne same]

/-- A value of a task changes nothing but this value. -/
theorem Kept.set_task {value : Value} (kept : Kept file s) (change : Section → Section)
    (task : IsTask taskId) (isKey : KeyFile.IsKey key) (plain : value.plain)
    (started : (if "started".toList = key then asBoolean value.print else
      some (s.tasks taskId).started) = some (change (s.tasks taskId)).started)
    (localwatchdog : (if "localwatchdog".toList = key then asBoolean value.print else
      some (s.tasks taskId).localwatchdog) = some (change (s.tasks taskId)).localwatchdog)
    (reboots : (if "reboots".toList = key then asUint64 value.print else
      some (s.tasks taskId).reboots) = some (change (s.tasks taskId)).reboots)
    (remainingTime : (if "remaining_time".toList = key then asInt64 value.print else
      some (s.tasks taskId).remainingTime) = some (change (s.tasks taskId)).remainingTime) :
    Kept ((Change.set key value).apply file taskId)
      { s with tasks := Function.update s.tasks taskId (change (s.tasks taskId)) } := by
  rw [apply_set task.group isKey]
  exact {
    printable := kept.printable.setValue task.group isKey (isValue_print plain)
    started := fun u own => valueAs_task Section.started (kept.started u own) started
    localwatchdog := fun u own =>
      valueAs_task Section.localwatchdog (kept.localwatchdog u own) localwatchdog
    reboots := fun u own => valueAs_task Section.reboots (kept.reboots u own) reboots
    remainingTime := fun u own =>
      valueAs_task Section.remainingTime (kept.remainingTime u own) remainingTime
    offsets := fun u own type => by
      rw [valueAs_setValue, if_neg fun both => task.ne_offsets both.1.symm]
      exact kept.offsets u own type
    paths := fun u own key inside => by
      rw [KeyFile.value_setValue, if_neg fun both => task.ne_offsets both.1.symm] at inside
      exact kept.paths u own key inside
    recipeUrl := by
      rw [valueAs_setValue, if_neg fun both => task.recipe both.1.symm]
      exact kept.recipeUrl }

theorem Kept.set_offset {type : LogType} (kept : Kept file s) (task : IsTask taskId) :
    Kept ((Change.set (rstrntLogTypeGetPath type).toList (.uint64 n)).apply file
      (offsetsSection taskId)) (Write.effect s (.offset taskId type n)) := by
  have named := isGroupName_offsets task
  rw [apply_set named (isKey_path type)]
  exact {
    printable := kept.printable.setValue named (isKey_path type) (isValue_print trivial)
    started := fun u own => by
      rw [valueAs_setValue, if_neg fun both => own.ne_offsets both.1]
      exact kept.started u own
    localwatchdog := fun u own => by
      rw [valueAs_setValue, if_neg fun both => own.ne_offsets both.1]
      exact kept.localwatchdog u own
    reboots := fun u own => by
      rw [valueAs_setValue, if_neg fun both => own.ne_offsets both.1]
      exact kept.reboots u own
    remainingTime := fun u own => by
      rw [valueAs_setValue, if_neg fun both => own.ne_offsets both.1]
      exact kept.remainingTime u own
    offsets := fun u own type' => by
      rw [valueAs_setValue, kept.offsets u own type', asUint64_print]
      by_cases same : u = taskId
      · subst same
        by_cases of : type' = type
        · simp [Write.effect, of]
        · rw [if_neg fun both => of (path_injective both.2)]
          simp [Write.effect, of]
      · rw [if_neg fun both => same (offsetsSection_injective both.1)]
        simp [Write.effect, same]
    paths := fun u own key inside => by
      rw [KeyFile.value_setValue] at inside
      split at inside
      · rename_i both
        exact ⟨type, both.2⟩
      · exact kept.paths u own key inside
    recipeUrl := by
      rw [valueAs_setValue, if_neg fun both => restraint_ne_offsets both.1]
      exact kept.recipeUrl }

theorem Kept.set_recipeUrl {url : Text} (kept : Kept file s) (plain : url.head? ≠ some '\x0c') :
    Kept ((Change.set "recipe_url".toList (.string url)).apply file "restraint".toList)
      (Write.effect s (.recipeUrl url)) := by
  have named : isGroupName "restraint".toList = true := by decide
  have isKey : KeyFile.IsKey "recipe_url".toList := by decide +kernel
  rw [apply_set named isKey]
  exact {
    printable := kept.printable.setValue named isKey (isValue_print plain)
    started := fun u own => by
      rw [valueAs_setValue, if_neg fun both => own.recipe both.1]
      exact kept.started u own
    localwatchdog := fun u own => by
      rw [valueAs_setValue, if_neg fun both => own.recipe both.1]
      exact kept.localwatchdog u own
    reboots := fun u own => by
      rw [valueAs_setValue, if_neg fun both => own.recipe both.1]
      exact kept.reboots u own
    remainingTime := fun u own => by
      rw [valueAs_setValue, if_neg fun both => own.recipe both.1]
      exact kept.remainingTime u own
    offsets := fun u own type => by
      rw [valueAs_setValue, if_neg fun both => restraint_ne_offsets both.1.symm]
      exact kept.offsets u own type
    paths := fun u own key inside => by
      rw [KeyFile.value_setValue, if_neg fun both => restraint_ne_offsets both.1.symm] at inside
      exact kept.paths u own key inside
    recipeUrl := by
      rw [valueAs_setValue, if_pos ⟨rfl, rfl⟩, Value.print, unescape_escape]
      rfl }

theorem Kept.remove_task (kept : Kept file s) (task : IsTask taskId) :
    Kept (KeyFile.removeGroup file taskId) (Write.effect s (.completed taskId)) where
  printable := kept.printable.removeGroup
  started u own := by
    rw [valueAs_removeGroup, kept.started u own]
    by_cases same : u = taskId <;> simp [Write.effect, same, Section.empty]
  localwatchdog u own := by
    rw [valueAs_removeGroup, kept.localwatchdog u own]
    by_cases same : u = taskId <;> simp [Write.effect, same, Section.empty]
  reboots u own := by
    rw [valueAs_removeGroup, kept.reboots u own]
    by_cases same : u = taskId <;> simp [Write.effect, same, Section.empty]
  remainingTime u own := by
    rw [valueAs_removeGroup, kept.remainingTime u own]
    by_cases same : u = taskId <;> simp [Write.effect, same, Section.empty]
  offsets u own type := by
    rw [valueAs_removeGroup, if_neg fun same => task.ne_offsets same.symm]
    exact kept.offsets u own type
  paths u own key inside := by
    rw [KeyFile.value_removeGroup, if_neg fun same => task.ne_offsets same.symm] at inside
    exact kept.paths u own key inside
  recipeUrl := by
    rw [valueAs_removeGroup, if_neg fun same => task.recipe same.symm]
    exact kept.recipeUrl

/-- What one write changes of a file, it changes of what is stored. -/
theorem Kept.step (kept : Kept file s) (plain : write.plain) :
    Kept (write.call.2.apply file write.call.1) (write.effect s) := by
  cases write with
  | started t value =>
    exact kept.set_task (fun stored => { stored with started := value }) plain
      (by decide +kernel) trivial (by simp +decide [asBoolean_print])
      (by simp +decide) (by simp +decide) (by simp +decide)
  | reboots t count =>
    exact kept.set_task (fun stored => { stored with reboots := count % 2 ^ 64 }) plain
      (by decide +kernel) trivial (by simp +decide) (by simp +decide)
      (by rw [asUint64_print]; simp) (by simp +decide)
  | localwatchdog t value =>
    exact kept.set_task (fun stored => { stored with localwatchdog := value }) plain
      (by decide +kernel) trivial (by simp +decide)
      (by simp +decide [asBoolean_print]) (by simp +decide) (by simp +decide)
  | remainingTime t left =>
    exact kept.set_task (fun stored => { stored with remainingTime := storedInt64 left }) plain
      (by decide +kernel) trivial (by simp +decide) (by simp +decide)
      (by simp +decide) (by rw [asInt64_print]; simp)
  | offset t type value => exact kept.set_offset plain
  | completed t => exact kept.remove_task plain
  | recipeUrl url => exact kept.set_recipeUrl plain

/-! ## Reading it all back -/

/-- A write, and whether the file can be read and written then. -/
structure Turn where
  write : Write
  reads : Bool
  writes : Bool

/-- The file after a write, and what should be stored: a write that failed stores nothing. -/
def Turn.run (turn : Turn) (state : Disk × Stored) : Disk × Stored :=
  let (disk, written) := turn.write.perform state.1 turn.reads turn.writes
  (disk, if written then turn.write.effect state.2 else state.2)

/-- A disk whose file holds what is stored. -/
def Holds (state : Disk × Stored) : Prop := ∃ file, readKeyFile state.1 true = some file ∧ Kept file state.2

theorem Kept.empty : Kept [] .empty where
  printable := .nil
  started _ _ := rfl
  localwatchdog _ _ := rfl
  reboots _ _ := rfl
  remainingTime _ _ := rfl
  offsets _ _ _ := rfl
  paths _ _ _ none := by cases none
  recipeUrl := rfl

/-- Before the daemon has written, there is no file, and nothing is stored. -/
theorem Holds.empty : Holds (none, .empty) := ⟨[], rfl, .empty⟩

theorem Holds.run {state : Disk × Stored} {turn : Turn} (holds : Holds state) (plain : turn.write.plain) :
    Holds (turn.run state) := by
  obtain ⟨file, read, kept⟩ := holds
  unfold Turn.run Write.perform restraintConfigSet
  cases can : readKeyFile state.1 turn.reads with
  | none => exact ⟨file, read, kept⟩
  | some found =>
    have same : found = file := by
      cases disk : state.1 with
      | none =>
        rw [disk] at can read
        exact Option.some.inj (can.symm.trans read)
      | some text =>
        rw [disk] at can read
        simp only [readKeyFile] at can read
        split at can
        · exact Option.some.inj (can.symm.trans read)
        · cases can
    subst same
    cases turn.writes with
    | false => exact ⟨found, read, kept⟩
    | true =>
      have next := kept.step plain
      exact ⟨_, KeyFile.load_toData next.printable, next⟩

theorem Holds.runs {turns : List Turn} {state : Disk × Stored} (holds : Holds state)
    (plain : ∀ turn ∈ turns, turn.write.plain) :
    Holds (turns.foldl (fun state turn => turn.run state) state) := by
  induction turns generalizing state with
  | nil => exact holds
  | cons turn turns ih =>
    obtain ⟨first, later⟩ := List.forall_mem_cons.mp plain
    exact ih (holds.run first) later

private theorem getWith_eq {α : Type} {parse : Text → Option α} {missing : α}
    (read : readKeyFile disk true = some file) :
    getWith parse missing disk true group key = valueAs parse missing file group key := by
  rw [getWith, read, Option.bind_some]

/-- The offset that is read for a key. -/
def offsetAt (file : File) (taskId key : Text) : Option Nat :=
  (KeyFile.value file (offsetsSection taskId) key).bind asUint64

private theorem offsetAt_eq (kept : Kept file s) (task : IsTask taskId) (type : LogType) :
    offsetAt file taskId (rstrntLogTypeGetPath type).toList = s.offsets taskId type := by
  have held := kept.offsets taskId task type
  unfold valueAs at held
  unfold offsetAt
  cases found : KeyFile.value file (offsetsSection taskId) (rstrntLogTypeGetPath type).toList with
  | none =>
    rw [found] at held
    exact Option.some.inj held
  | some raw =>
    rw [found] at held
    obtain ⟨n, read, same⟩ := Option.map_eq_some_iff.mp held
    rw [Option.bind_some, read, ← same]

private theorem offsetAt_read (kept : Kept file s) (task : IsTask taskId)
    (inside : (KeyFile.value file (offsetsSection taskId) key).isSome = true) :
    valueAs asUint64 0 file (offsetsSection taskId) key = some ((offsetAt file taskId key).getD 0) := by
  obtain ⟨type, rfl⟩ := kept.paths taskId task key inside
  have held := kept.offsets taskId task type
  obtain ⟨raw, found⟩ := Option.isSome_iff_exists.mp inside
  unfold valueAs at held ⊢
  unfold offsetAt
  rw [found] at held ⊢
  obtain ⟨n, read, -⟩ := Option.map_eq_some_iff.mp held
  simp [read]

private theorem mapM_some {α β : Type} {f : α → Option β} {g : α → β} {entries : List α}
    (all : ∀ entry ∈ entries, f entry = some (g entry)) : entries.mapM f = some (entries.map g) := by
  induction entries with
  | nil => rfl
  | cons entry entries ih =>
    obtain ⟨first, later⟩ := List.forall_mem_cons.mp all
    rw [List.mapM_cons, first, ih later]
    rfl

private theorem lookup_map_pair {β : Type} {g : Text → β} {names : List Text} :
    (names.map fun name => (name, g name)).lookup key = if key ∈ names then some (g key) else none := by
  induction names with
  | nil => rfl
  | cons name names ih =>
    rw [List.map_cons, Entries.lookup_cons, ih]
    by_cases same : key = name
    · simp [same]
    · simp [same]

private theorem value_isSome_iff : (KeyFile.value file group key).isSome = true ↔
    key ∈ ((file.lookup group).getD []).map Prod.fst := by
  unfold KeyFile.value
  cases file.lookup group with
  | none => simp
  | some pairs => exact Entries.lookup_isSome_iff

/-- `task_config_get_offsets` gets what was written of each log. -/
theorem taskConfigGetOffsets_kept (read : readKeyFile disk true = some file) (kept : Kept file s)
    (task : IsTask taskId) : ∃ offsets, taskConfigGetOffsets disk true taskId = some offsets ∧
      ∀ type, offsets.lookup (rstrntLogTypeGetPath type).toList = s.offsets taskId type := by
  refine ⟨(((file.lookup (offsetsSection taskId)).getD []).map Prod.fst).map fun path =>
    (path, (offsetAt file taskId path).getD 0), ?_, ?_⟩
  · rw [taskConfigGetOffsets, restraintConfigGetKeys, read, Option.map_some, Option.bind_some]
    refine mapM_some (g := fun path => (path, (offsetAt file taskId path).getD 0)) ?_
    intro path member
    rw [restraintConfigGetUint64, getWith_eq read, offsetAt_read kept task (value_isSome_iff.mpr member)]
    rfl
  · intro type
    rw [lookup_map_pair, ← offsetAt_eq kept task type]
    split
    · rename_i inside
      obtain ⟨raw, found⟩ := Option.isSome_iff_exists.mp (value_isSome_iff.mpr inside)
      have held := kept.offsets taskId task type
      unfold valueAs at held
      unfold offsetAt
      rw [found] at held ⊢
      obtain ⟨n, number, -⟩ := Option.map_eq_some_iff.mp held
      simp [number]
    · rename_i outside
      have none : KeyFile.value file (offsetsSection taskId) (rstrntLogTypeGetPath type).toList = none :=
        Option.not_isSome_iff_eq_none.mp (mt value_isSome_iff.mp outside)
      rw [offsetAt, none, Option.bind_none]

/-- A remaining time below 0 is read as the greatest number. -/
theorem storedInt64_of_neg {left : Int} (negative : left < 0) (least : -2 ^ 63 ≤ left) :
    storedInt64 left = 2 ^ 63 - 1 := by
  unfold storedInt64
  omega

/-- After any writes of the daemon to a file that holds what is stored, of which any can fail, a daemon
that starts finds of every task and of the recipe what the last write that succeeded has put there, and
no trace of the writes for others. -/
theorem config_kept {state : Disk × Stored} {turns : List Turn} (holds : Holds state)
    (plain : ∀ turn ∈ turns, turn.write.plain) :
    ∃ disk s, turns.foldl (fun state turn => turn.run state) state = (disk, s) ∧
      (∀ t, IsTask t →
        (∃ offsets, parseTaskConfig disk true t =
            some ⟨(s.tasks t).reboots, offsets, (s.tasks t).started, (s.tasks t).localwatchdog⟩ ∧
          ∀ type, offsets.lookup (rstrntLogTypeGetPath type).toList = s.offsets t type) ∧
        restraintConfigGetInt64 disk true t "remaining_time".toList = some (s.tasks t).remainingTime) ∧
      restraintConfigGetString disk true "restraint".toList "recipe_url".toList = some s.recipeUrl := by
  obtain ⟨file, read, kept⟩ := holds.runs plain
  refine ⟨_, _, rfl, fun t task => ⟨?_, ?_⟩, ?_⟩
  · obtain ⟨offsets, found, each⟩ := taskConfigGetOffsets_kept read kept task
    refine ⟨offsets, ?_, each⟩
    unfold parseTaskConfig restraintConfigGetUint64 restraintConfigGetBoolean
    rw [getWith_eq read, kept.reboots t task, found, getWith_eq read, kept.started t task,
      getWith_eq read, kept.localwatchdog t task]
    rfl
  · rw [restraintConfigGetInt64, getWith_eq read, kept.remainingTime t task]
  · rw [restraintConfigGetString, getWith_eq read, kept.recipeUrl]

/-- Two tasks. The remaining time of the first one is below 0, and a write for the second one fails. -/
def twoTasks : List Turn :=
  [⟨.started "1".toList true, true, true⟩, ⟨.remainingTime "1".toList (-1), true, true⟩,
    ⟨.offset "1".toList .task 7, true, true⟩, ⟨.reboots "2".toList 3, true, false⟩]

theorem config_kept_twoTasks : ∃ disk s,
    twoTasks.foldl (fun state turn => turn.run state) (none, .empty) = (disk, s) ∧
      restraintConfigGetInt64 disk true "1".toList "remaining_time".toList = some (2 ^ 63 - 1) ∧
      ∃ offsets, parseTaskConfig disk true "2".toList = some ⟨0, offsets, false, false⟩ := by
  have first : IsTask "1".toList := ⟨by decide, by decide, by decide⟩
  have second : IsTask "2".toList := ⟨by decide, by decide, by decide⟩
  have plain : ∀ turn ∈ twoTasks, turn.write.plain := by
    intro turn member
    simp only [twoTasks, List.mem_cons, List.not_mem_nil, or_false] at member
    rcases member with rfl | rfl | rfl | rfl
    · exact first
    · exact first
    · exact first
    · exact second
  obtain ⟨disk, s, ran, held, -⟩ := config_kept .empty plain
  have stored : (twoTasks.foldl (fun state turn => turn.run state) (none, Stored.empty)).2 = s := by
    rw [ran]
  refine ⟨disk, s, ran, ?_, ?_⟩
  · rw [(held _ first).2, ← stored]
    exact congrArg some (storedInt64_of_neg (by decide) (by decide))
  · obtain ⟨offsets, found, -⟩ := (held _ second).1
    rw [← stored] at found
    exact ⟨offsets, found⟩

/-! ## The sections of the daemon's model -/

/-- What the daemon's model does with the sections of the tasks are these writes. -/
theorem configSet_effect (a : Harness.AppData) (w : Harness.World) (s : Stored) (same : s.tasks = a.config)
    (taskId : Text) (written : w.configWrites = true) :
    (∀ n, (Harness.configSet a w taskId fun stored =>
        { stored with
          started := true
          reboots := n % 2 ^ 64 }).config =
      ((Write.reboots taskId n).effect ((Write.started taskId true).effect s)).tasks) ∧
    (Harness.configSet a w taskId fun stored => { stored with localwatchdog := true }).config =
      ((Write.localwatchdog taskId true).effect s).tasks ∧
    (Harness.configSet a w taskId fun _ => .empty).config = ((Write.completed taskId).effect s).tasks ∧
    ∀ left, Restart.beatConfig a.config taskId left true =
      ((Write.remainingTime taskId left).effect s).tasks := by
  refine ⟨fun n => ?_, ?_, ?_, fun left => ?_⟩
  · simp [Harness.configSet, written, Write.effect, same]
  · simp [Harness.configSet, written, Write.effect, same]
  · simp [Harness.configSet, written, Write.effect, same]
  · simp [Restart.beatConfig, Write.effect, same]

end Restraint.Config

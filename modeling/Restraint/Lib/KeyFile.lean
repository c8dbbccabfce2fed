import Mathlib.Data.List.Basic
import Mathlib.Data.List.DropRight
import Restraint.Lib.Lines

/-! Key files: groups of keys with values. A file that is written is read back as it was, since
names, keys and values that would be read otherwise cannot be set. Loading goes line by line and
keeps the groups in their order. For setting a value and for removing a group, one lemma says what a
lookup finds afterwards. -/

/-! ## Lists of named entries -/

namespace Entries

universe u v
variable {α : Type u} {β : Type v} [DecidableEq α]

/-- The value of a name: in the place of the old one, else at the end. -/
def put (name : α) (value : β) : List (α × β) → List (α × β)
  | [] => [(name, value)]
  | entry :: rest => if entry.1 = name then (name, value) :: rest else entry :: put name value rest

def remove (name : α) (entries : List (α × β)) : List (α × β) :=
  entries.filter fun entry => entry.1 ≠ name

variable {name other : α} {value : β} {entries before : List (α × β)}

private theorem names_put : (put name value entries).map Prod.fst =
    if name ∈ entries.map Prod.fst then entries.map Prod.fst else entries.map Prod.fst ++ [name] := by
  induction entries with
  | nil => rfl
  | cons entry rest ih =>
    unfold put
    by_cases same : entry.1 = name
    · simp [same]
    · rw [if_neg same, List.map_cons, List.map_cons, ih]
      by_cases inside : name ∈ rest.map Prod.fst
      · rw [if_pos inside, if_pos (List.mem_cons_of_mem _ inside)]
      · rw [if_neg inside, if_neg fun member => (List.mem_cons.mp member).elim (same ∘ Eq.symm) inside]
        rfl

private theorem nodup_put (nodup : (entries.map Prod.fst).Nodup) :
    ((put name value entries).map Prod.fst).Nodup := by
  rw [names_put]
  split
  · exact nodup
  · rename_i outside
    refine List.nodup_append.mpr ⟨nodup, List.pairwise_singleton _ _, ?_⟩
    rintro n member m last rfl
    exact outside (List.mem_singleton.mp last ▸ member)

private theorem nodup_remove (nodup : (entries.map Prod.fst).Nodup) :
    ((remove name entries).map Prod.fst).Nodup :=
  nodup.sublist ((List.filter_sublist).map _)

private theorem mem_put {entry : α × β} (member : entry ∈ put name value entries) :
    entry = (name, value) ∨ entry ∈ entries := by
  induction entries with
  | nil => exact .inl (List.mem_singleton.mp member)
  | cons first rest ih =>
    unfold put at member
    split at member
    · rcases List.mem_cons.mp member with rfl | later
      · exact .inl rfl
      · exact .inr (List.mem_cons_of_mem _ later)
    · rcases List.mem_cons.mp member with rfl | later
      · exact .inr List.mem_cons_self
      · exact (ih later).imp_right (List.mem_cons_of_mem _)

/-- The value of the last name. -/
theorem put_append (outside : name ∉ before.map Prod.fst) :
    put name value (before ++ entries) = before ++ put name value entries := by
  induction before with
  | nil => rfl
  | cons entry rest ih =>
    obtain ⟨differ, outside⟩ := not_or.mp (mt List.mem_cons.mpr outside)
    rw [List.cons_append, put, if_neg (Ne.symm differ), ih outside]
    rfl

section Lookup
variable [BEq α] [LawfulBEq α]

theorem lookup_cons {entry : α × β} :
    (entry :: entries).lookup other = if other = entry.1 then some entry.2 else entries.lookup other := by
  rw [List.lookup_cons]
  by_cases same : other = entry.1
  · rw [if_pos same, beq_iff_eq.mpr same]
  · rw [if_neg same, beq_eq_false_iff_ne.mpr same]

private theorem lookup_put :
    (put name value entries).lookup other = if other = name then some value else entries.lookup other := by
  induction entries with
  | nil => rw [put, lookup_cons]
  | cons entry rest ih =>
    unfold put
    split
    · rename_i same
      rw [lookup_cons, lookup_cons, same]
      split <;> rfl
    · rename_i differ
      rw [lookup_cons, lookup_cons, ih]
      by_cases found : other = entry.1
      · rw [if_pos found, if_pos found, if_neg (found ▸ differ)]
      · rw [if_neg found, if_neg found]

private theorem lookup_remove :
    (remove name entries).lookup other = if other = name then none else entries.lookup other := by
  induction entries with
  | nil => simp [remove]
  | cons entry rest ih =>
    unfold remove at ih ⊢
    by_cases same : entry.1 = name
    · rw [List.filter_cons_of_neg (by simpa using same), ih, lookup_cons, same]
      split <;> rfl
    · rw [List.filter_cons_of_pos (by simpa using same), lookup_cons, lookup_cons, ih]
      by_cases found : other = entry.1
      · rw [if_pos found, if_pos found, if_neg (found ▸ same)]
      · rw [if_neg found, if_neg found]

theorem lookup_append (outside : name ∉ before.map Prod.fst) :
    (before ++ entries).lookup name = entries.lookup name := by
  induction before with
  | nil => rfl
  | cons entry rest ih =>
    obtain ⟨differ, outside⟩ := not_or.mp (mt List.mem_cons.mpr outside)
    rw [List.cons_append, lookup_cons, if_neg differ]
    exact ih outside

private theorem lookup_mem (found : entries.lookup name = some value) : (name, value) ∈ entries := by
  induction entries with
  | nil => cases found
  | cons entry rest ih =>
    rw [lookup_cons] at found
    split at found
    · rename_i same
      subst same
      cases found
      exact List.mem_cons_self
    · exact List.mem_cons_of_mem _ (ih found)

theorem lookup_isSome_iff : (entries.lookup name).isSome = true ↔ name ∈ entries.map Prod.fst := by
  induction entries with
  | nil => simp
  | cons entry rest ih =>
    rw [lookup_cons, List.map_cons, List.mem_cons]
    split
    · rename_i same
      simp [same]
    · rename_i differ
      rw [ih]
      simp [differ]

end Lookup

end Entries

/-! ## The format -/

namespace KeyFile
open Entries

abbrev Text := List Char

/-- The groups in their order, each with its keys and values. -/
abbrev File := List (Text × List (Text × Text))

/-- `g_ascii_isspace`. -/
def isSpace (c : Char) : Bool := c == ' ' || c == '\t' || c == '\n' || c == '\x0c' || c == '\r'

/-- `g_key_file_is_group_name`. -/
def isGroupName (name : Text) : Bool :=
  name ≠ [] && name.all fun c => c ≠ '[' && c ≠ ']' && 32 ≤ c.toNat && c.toNat ≠ 127

/-- `g_key_file_is_key_name`, without a locale. -/
def isKeyName (key : Text) : Bool :=
  (key.all fun c => c ≠ '=' && c ≠ '[' && c ≠ ']') && key ≠ [] && key.head? ≠ some ' ' &&
    key.getLast? ≠ some ' '

/-- What a line says. -/
inductive Line where
  | comment
  | group (name : Text)
  | pair (key value : Text)

/-- `g_key_file_line_is_comment`. -/
def lineIsComment (line : Text) : Bool := line = [] || line.head? = some '#'

/-- `g_key_file_line_is_group`. -/
def lineIsGroup (line : Text) : Bool :=
  line.head? = some '[' && line.dropWhile (· ≠ ']') ≠ [] &&
    ((line.dropWhile (· ≠ ']')).drop 1).all fun c => c == ' ' || c == '\t'

/-- `g_key_file_line_is_key_value_pair`. -/
def lineIsKeyValuePair (line : Text) : Bool := '=' ∈ line && line.head? ≠ some '='

/-- `g_key_file_parse_group`. -/
def parseGroup (line : Text) : Option Line :=
  let name := (line.drop 1).takeWhile (· ≠ ']')
  if isGroupName name then some (.group name) else none

/-- `g_key_file_parse_key_value_pair`. -/
def parseKeyValuePair (line : Text) : Option Line :=
  let key := (line.takeWhile (· ≠ '=')).rdropWhile isSpace
  let value := ((line.dropWhile (· ≠ '=')).drop 1).dropWhile isSpace
  if isKeyName key then some (.pair key value) else none

/-- `g_key_file_parse_line`. -/
def parseLine (text : Text) : Option Line :=
  let line := text.dropWhile isSpace
  if lineIsComment line then some .comment
  else if lineIsGroup line then parseGroup line
  else if lineIsKeyValuePair line then parseKeyValuePair line
  else none

/-- `g_key_file_set_value`. -/
def setValue (file : File) (group key value : Text) : File :=
  put group (put key value ((file.lookup group).getD [])) file

/-- `g_key_file_get_value`. -/
def value (file : File) (group key : Text) : Option Text := (file.lookup group).bind (·.lookup key)

def removeKey (file : File) (group key : Text) : File :=
  match file.lookup group with
  | some pairs => put group (remove key pairs) file
  | none => file

def removeGroup (file : File) (group : Text) : File := remove group file

/-- What has been read, and the group that the next pair belongs to. -/
structure Reading where
  file : File
  current : Option Text

def Reading.step (r : Reading) (text : Text) : Option Reading :=
  match parseLine text with
  | some .comment => some r
  | some (.group name) =>
    some ⟨if (r.file.lookup name).isSome then r.file else r.file ++ [(name, [])], some name⟩
  | some (.pair key value) =>
    r.current.map fun group => { r with file := setValue r.file group key value }
  | none => none

/-- A line that ends can end in a carriage return too. -/
def withoutReturn (line : Text) : Text := if line.getLast? = some '\r' then line.dropLast else line

def lines (text : Text) : List Text :=
  (Lines.ended '\n' text).map withoutReturn ++ [Lines.unfinished '\n' text]

def Reading.readFrom (r : Reading) (text : Text) : Option Reading := (lines text).foldlM Reading.step r

/-- `g_key_file_load_from_data`; the comments are left out. -/
def load (text : Text) : Option File := (Reading.readFrom ⟨[], none⟩ text).map Reading.file

def printPair (pair : Text × Text) : Text := pair.1 ++ '=' :: (pair.2 ++ ['\n'])

def printGroup (group : Text × List (Text × Text)) : Text :=
  '[' :: (group.1 ++ ']' :: '\n' :: group.2.flatMap printPair)

/-- `g_key_file_to_data`. -/
def toData (file : File) : Text := ['\n'].intercalate (file.map printGroup)

/-! ## Reading back -/

/-- A key that is read as it is printed. -/
structure IsKey (key : Text) : Prop where
  named : isKeyName key = true
  first : ∀ c ∈ key.head?, isSpace c = false ∧ c ≠ '#'
  last : ∀ c ∈ key.getLast?, isSpace c = false
  oneLine : '\n' ∉ key

instance {key : Text} : Decidable (IsKey key) :=
  decidable_of_iff (isKeyName key = true ∧ (key.head?.all fun c => !isSpace c && c != '#') = true ∧
      (key.getLast?.all fun c => !isSpace c) = true ∧ '\n' ∉ key) <| by
    constructor
    · rintro ⟨named, first, last, oneLine⟩
      exact ⟨named, by simpa [Option.all_eq_true] using first, by simpa [Option.all_eq_true] using last,
        oneLine⟩
    · rintro ⟨named, first, last, oneLine⟩
      exact ⟨named, by simpa [Option.all_eq_true] using first, by simpa [Option.all_eq_true] using last,
        oneLine⟩

/-- A value that is read as it is printed. -/
structure IsValue (value : Text) : Prop where
  first : ∀ c ∈ value.head?, isSpace c = false
  last : value.getLast? ≠ some '\r'
  oneLine : '\n' ∉ value

/-- Files that are read as they are printed. -/
structure Printable (file : File) : Prop where
  groups : (file.map Prod.fst).Nodup
  named : ∀ group ∈ file, isGroupName group.1 = true
  keys : ∀ group ∈ file, (group.2.map Prod.fst).Nodup
  pairs : ∀ group ∈ file, ∀ pair ∈ group.2, IsKey pair.1 ∧ IsValue pair.2

variable {file before : File} {group key text rest other : Text} {pairs done : List (Text × Text)}
  {r : Reading}

private theorem isGroupName_clean (named : isGroupName group = true) :
    group ≠ [] ∧ ']' ∉ group ∧ '\n' ∉ group := by
  simp only [isGroupName, Bool.and_eq_true, decide_eq_true_eq, List.all_eq_true] at named
  refine ⟨named.1, fun member => ?_, fun member => ?_⟩
  · exact (named.2 _ member).1.1.2 rfl
  · exact absurd (named.2 _ member).1.2 (by decide)

theorem isGroupName_append (first : isGroupName group = true) (second : isGroupName other = true) :
    isGroupName (group ++ other) = true := by
  simp only [isGroupName, Bool.and_eq_true, decide_eq_true_eq] at first second ⊢
  exact ⟨List.append_ne_nil_of_left_ne_nil first.1 _, by rw [List.all_append, first.2, second.2]; rfl⟩

private theorem lines_line (oneLine : '\n' ∉ text) :
    lines (text ++ '\n' :: rest) = withoutReturn text :: lines rest := by
  unfold lines
  rw [Lines.ended_line oneLine, Lines.unfinished_append_cons]
  rfl

private theorem readFrom_line (oneLine : '\n' ∉ text) (whole : text.getLast? ≠ some '\r') :
    r.readFrom (text ++ '\n' :: rest) = (r.step text).bind (·.readFrom rest) := by
  unfold Reading.readFrom
  rw [lines_line oneLine, withoutReturn, if_neg whole]
  rfl

private theorem parseLine_group (named : isGroupName group = true) :
    parseLine ('[' :: (group ++ [']'])) = some (.group group) := by
  obtain ⟨-, closed, -⟩ := isGroupName_clean named
  have other : ∀ c ∈ group, c ≠ ']' := fun c member same => closed (same ▸ member)
  have name : (group ++ [']']).takeWhile (· ≠ ']') = group := by
    rw [List.takeWhile_append_of_pos (by simpa using other)]
    simp
  have ends : ('[' :: (group ++ [']'])).dropWhile (· ≠ ']') = [']'] := by
    rw [List.dropWhile_cons_of_pos (by decide), List.dropWhile_append_of_pos (by simpa using other)]
    simp
  have start : ('[' :: (group ++ [']'])).dropWhile isSpace = '[' :: (group ++ [']']) :=
    List.dropWhile_cons_of_neg (by decide)
  have isGroup : lineIsGroup ('[' :: (group ++ [']'])) = true := by
    rw [lineIsGroup, ends]
    rfl
  unfold parseLine
  simp only [start]
  rw [if_neg (by simp [lineIsComment]), if_pos isGroup, parseGroup, List.drop_one, List.tail_cons]
  simp only [name]
  rw [if_pos named]

theorem dropWhile_of_head? {p : Char → Bool} (first : ∀ c ∈ text.head?, p c = false) :
    text.dropWhile p = text := by
  cases text with
  | nil => rfl
  | cons c rest => exact List.dropWhile_cons_of_neg (by simp [first c rfl])

theorem rdropWhile_of_getLast? {p : Char → Bool} (last : ∀ c ∈ text.getLast?, p c = false) :
    text.rdropWhile p = text := by
  rw [List.rdropWhile, dropWhile_of_head?, List.reverse_reverse]
  intro c member
  exact last c (by rwa [List.head?_reverse] at member)

private theorem parseLine_pair {value : Text} (isKey : IsKey key) (isValue : IsValue value) :
    parseLine (key ++ '=' :: value) = some (.pair key value) := by
  obtain ⟨⟨⟨plain, some⟩, -⟩, -⟩ : (((∀ c ∈ key, c ≠ '=' ∧ c ≠ '[' ∧ c ≠ ']') ∧ key ≠ []) ∧ _) ∧ _ := by
    simpa [isKeyName, and_assoc] using isKey.named
  obtain ⟨c, more, rfl⟩ := List.exists_cons_of_ne_nil some
  obtain ⟨blank, mark⟩ := isKey.first c rfl
  obtain ⟨differ, opened, -⟩ := plain c List.mem_cons_self
  have other : ∀ d ∈ c :: more, d ≠ '=' := fun d member => (plain d member).1
  have name : (c :: more ++ '=' :: value).takeWhile (· ≠ '=') = c :: more := by
    rw [List.takeWhile_append_of_pos (by simpa using other)]
    simp
  have ends : (c :: more ++ '=' :: value).dropWhile (· ≠ '=') = '=' :: value := by
    rw [List.dropWhile_append_of_pos (by simpa using other)]
    simp
  have start : (c :: more ++ '=' :: value).dropWhile isSpace = c :: more ++ '=' :: value :=
    List.dropWhile_cons_of_neg (by simp [blank])
  have pair : lineIsKeyValuePair (c :: more ++ '=' :: value) = true := by
    simp [lineIsKeyValuePair, differ]
  unfold parseLine
  simp only [start]
  rw [if_neg (by simp [lineIsComment, mark]), if_neg (by simp [lineIsGroup, opened]), if_pos pair,
    parseKeyValuePair]
  simp only [name, ends]
  rw [rdropWhile_of_getLast? isKey.last, if_pos isKey.named, List.drop_one, List.tail_cons,
    dropWhile_of_head? isValue.first]

/-- The pairs of a group are read into the last group. -/
theorem readFrom_pairs (fresh : group ∉ before.map Prod.fst)
    (keys : ((done ++ pairs).map Prod.fst).Nodup) (plain : ∀ pair ∈ pairs, IsKey pair.1 ∧ IsValue pair.2) :
    Reading.readFrom ⟨before ++ [(group, done)], some group⟩ (pairs.flatMap printPair ++ rest) =
      Reading.readFrom ⟨before ++ [(group, done ++ pairs)], some group⟩ rest := by
  induction pairs generalizing done with
  | nil => simp
  | cons pair pairs ih =>
    obtain ⟨⟨isKey, isValue⟩, plain⟩ := List.forall_mem_cons.mp plain
    have oneLine : '\n' ∉ pair.1 ++ '=' :: pair.2 := by simp [isKey.oneLine, isValue.oneLine]
    have whole : (pair.1 ++ '=' :: pair.2).getLast? ≠ some '\r' := by
      rcases hv : pair.2 with _ | ⟨c, more⟩
      · simp
      · have last := isValue.last
        rw [hv] at last
        rw [List.getLast?_append_of_ne_nil _ (by simp), List.getLast?_cons_cons]
        exact last
    have text : (pair :: pairs).flatMap printPair ++ rest =
        (pair.1 ++ '=' :: pair.2) ++ '\n' :: (pairs.flatMap printPair ++ rest) := by
      simp [printPair]
    have shape : done ++ pair :: pairs = (done ++ [pair]) ++ pairs := by simp
    have absent : pair.1 ∉ done.map Prod.fst := by
      intro member
      rw [List.map_append, List.nodup_append] at keys
      exact keys.2.2 _ member _ List.mem_cons_self rfl
    have found : (before ++ [(group, done)]).lookup group = some done := by
      rw [Entries.lookup_append fresh, Entries.lookup_cons, if_pos rfl]
    have set : setValue (before ++ [(group, done)]) group pair.1 pair.2 =
        before ++ [(group, done ++ [pair])] := by
      have added : Entries.put pair.1 pair.2 (done ++ []) = done ++ Entries.put pair.1 pair.2 [] :=
        Entries.put_append absent
      rw [List.append_nil] at added
      rw [setValue, found, Option.getD_some, added, Entries.put_append fresh]
      simp [Entries.put]
    have step : Reading.step ⟨before ++ [(group, done)], some group⟩ (pair.1 ++ '=' :: pair.2) =
        some ⟨before ++ [(group, done ++ [pair])], some group⟩ := by
      unfold Reading.step
      rw [parseLine_pair isKey isValue]
      simp only [Option.map_some, set]
    rw [text, readFrom_line oneLine whole, step, Option.bind_some, ih (shape ▸ keys) plain, shape]

private theorem readFrom_group {entry : Text × List (Text × Text)}
    (fresh : entry.1 ∉ r.file.map Prod.fst)
    (named : isGroupName entry.1 = true) (keys : (entry.2.map Prod.fst).Nodup)
    (plain : ∀ pair ∈ entry.2, IsKey pair.1 ∧ IsValue pair.2) :
    r.readFrom (printGroup entry ++ rest) =
      Reading.readFrom ⟨r.file ++ [entry], some entry.1⟩ rest := by
  obtain ⟨-, closed, oneLine⟩ := isGroupName_clean named
  have text : printGroup entry ++ rest =
      ('[' :: (entry.1 ++ [']'])) ++ '\n' :: (entry.2.flatMap printPair ++ rest) := by
    simp [printGroup]
  have missing : r.file.lookup entry.1 = none := by
    rw [← List.append_nil r.file, Entries.lookup_append fresh]
    rfl
  have step : r.step ('[' :: (entry.1 ++ [']'])) = some ⟨r.file ++ [(entry.1, [])], some entry.1⟩ := by
    unfold Reading.step
    rw [parseLine_group named]
    simp only [missing, Option.isSome_none, Bool.false_eq_true, if_false]
  rw [text, readFrom_line (by simp [oneLine]) (by rw [← List.cons_append, List.getLast?_concat]; simp), step,
    Option.bind_some, readFrom_pairs fresh (by simpa using keys) plain, List.nil_append]

private theorem readFrom_blank : r.readFrom ('\n' :: rest) = r.readFrom rest := by
  have step : r.step [] = some r := rfl
  rw [← List.nil_append ('\n' :: rest), readFrom_line (by simp) (by simp), step, Option.bind_some]

/-- The groups of a file are read behind those that were read before. -/
theorem readFrom_toData (plain : Printable (before ++ file)) (any : file ≠ []) (current : Option Text) :
    ∃ last, Reading.readFrom ⟨before, current⟩ (toData file) = some ⟨before ++ file, last⟩ := by
  induction file generalizing before current with
  | nil => exact absurd rfl any
  | cons entry file ih =>
    have member : entry ∈ before ++ entry :: file := by simp
    have fresh : entry.1 ∉ before.map Prod.fst := by
      intro inside
      have groups := plain.groups
      rw [List.map_append, List.nodup_append] at groups
      exact groups.2.2 _ inside _ List.mem_cons_self rfl
    cases file with
    | nil =>
      refine ⟨entry.1, ?_⟩
      have text : toData [entry] = printGroup entry ++ [] := by simp [toData, List.intercalate]
      rw [text, readFrom_group fresh (plain.named _ member) (plain.keys _ member) (plain.pairs _ member)]
      rfl
    | cons next file =>
      have text : toData (entry :: next :: file) =
          printGroup entry ++ '\n' :: toData (next :: file) := by
        simp [toData, List.intercalate]
      have shape : before ++ entry :: next :: file = (before ++ [entry]) ++ next :: file := by simp
      rw [text, readFrom_group fresh (plain.named _ member) (plain.keys _ member) (plain.pairs _ member),
        readFrom_blank, shape]
      exact ih (shape ▸ plain) (by simp) _

/-- Reading gives back what was written. -/
theorem load_toData (plain : Printable file) : load (toData file) = some file := by
  cases file with
  | nil => rfl
  | cons entry file =>
    have printable : Printable ([] ++ entry :: file) := plain
    obtain ⟨last, read⟩ := readFrom_toData printable (by simp) none
    rw [load, read]
    rfl

/-! ## What can be changed -/

theorem Printable.nil : Printable [] := ⟨List.nodup_nil, by simp, by simp, by simp⟩

theorem Printable.put (plain : Printable file) (named : isGroupName group = true)
    (keys : (pairs.map Prod.fst).Nodup) (all : ∀ pair ∈ pairs, IsKey pair.1 ∧ IsValue pair.2) :
    Printable (Entries.put group pairs file) where
  groups := Entries.nodup_put plain.groups
  named entry member := by
    rcases Entries.mem_put member with rfl | old
    · exact named
    · exact plain.named entry old
  keys entry member := by
    rcases Entries.mem_put member with rfl | old
    · exact keys
    · exact plain.keys entry old
  pairs entry member := by
    rcases Entries.mem_put member with rfl | old
    · exact all
    · exact plain.pairs entry old

theorem Printable.lookup (plain : Printable file) (found : file.lookup group = some pairs) :
    isGroupName group = true ∧ (pairs.map Prod.fst).Nodup ∧ ∀ pair ∈ pairs, IsKey pair.1 ∧ IsValue pair.2 :=
  have member := Entries.lookup_mem found
  ⟨plain.named _ member, plain.keys _ member, plain.pairs _ member⟩

theorem Printable.setValue {value : Text} (plain : Printable file) (named : isGroupName group = true)
    (isKey : IsKey key) (isValue : IsValue value) : Printable (setValue file group key value) := by
  have old : (((file.lookup group).getD []).map Prod.fst).Nodup ∧
      ∀ pair ∈ (file.lookup group).getD [], IsKey pair.1 ∧ IsValue pair.2 := by
    cases found : file.lookup group with
    | none => simp
    | some pairs => exact (plain.lookup found).2
  refine plain.put named (Entries.nodup_put old.1) fun pair member => ?_
  rcases Entries.mem_put member with rfl | later
  · exact ⟨isKey, isValue⟩
  · exact old.2 pair later

theorem Printable.removeKey (plain : Printable file) : Printable (removeKey file group key) := by
  unfold KeyFile.removeKey
  cases found : file.lookup group with
  | none => exact plain
  | some pairs =>
    obtain ⟨named, keys, all⟩ := plain.lookup found
    exact plain.put named (Entries.nodup_remove keys) fun pair member => all pair (List.mem_of_mem_filter member)

theorem Printable.removeGroup (plain : Printable file) : Printable (removeGroup file group) where
  groups := Entries.nodup_remove plain.groups
  named entry member := plain.named entry (List.mem_of_mem_filter member)
  keys entry member := plain.keys entry (List.mem_of_mem_filter member)
  pairs entry member := plain.pairs entry (List.mem_of_mem_filter member)

variable {group' key' : Text}

theorem value_setValue {value : Text} : KeyFile.value (setValue file group key value) group' key' =
    if group' = group ∧ key' = key then some value else KeyFile.value file group' key' := by
  unfold KeyFile.value setValue
  rw [Entries.lookup_put]
  by_cases same : group' = group
  · subst same
    rw [if_pos rfl, Option.bind_some, Entries.lookup_put]
    cases file.lookup group' <;> simp
  · rw [if_neg same, if_neg fun both => same both.1]

theorem value_removeGroup : KeyFile.value (removeGroup file group) group' key' =
    if group' = group then none else KeyFile.value file group' key' := by
  unfold KeyFile.value removeGroup
  rw [Entries.lookup_remove]
  split <;> rfl

end KeyFile

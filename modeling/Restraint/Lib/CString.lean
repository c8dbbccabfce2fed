import Mathlib.Data.List.Infix

/-! C strings as lists of characters, a character a byte, with the functions of the C library and of
GLib that split, join and search them. A text ends where its list ends, so a NUL in it is for the
reader to deal with. Splitting and joining are inverse where the separator does not occur in the
pieces, and searching is a statement about parts of the text. -/
namespace CString

abbrev Text := List Char

instance (text : Text) (texts : List Text) : Decidable (text ∈ texts) := inferInstance

/-- `g_strsplit` at slashes; the empty string has no pieces. -/
def gStrsplit (path : Text) : List Text := if path = [] then [] else path.splitOn '/'

/-- `g_strjoinv` with slashes. -/
def gStrjoinv (entries : List Text) : Text := ['/'].intercalate entries

/-- `strstr`. -/
def strstr (text word : Text) : Bool := text.tails.any word.isPrefixOf

/-- `g_str_has_suffix`. -/
def gStrHasSuffix (text word : Text) : Bool := word.isSuffixOf text

/-- The characters that are not slashes at the ends. -/
def trimSlashes (text : Text) : Text :=
  ((text.dropWhile (· == '/')).reverse.dropWhile (· == '/')).reverse

/-- `g_build_filename`: empty elements are left out, and one slash stands between
two elements. -/
def gBuildFilename (elements : List Text) : Text :=
  match elements.filter (· ≠ []) with
  | [element] => element
  | elements =>
    (elements.headD []).takeWhile (· == '/') ++
      gStrjoinv ((elements.map trimSlashes).filter (· ≠ [])) ++
      (elements.getLastD []).reverse.takeWhile (· == '/')

variable {text word rest : Text}

theorem splitOn_cons_slash : ('/' :: text).splitOn '/' = [] :: text.splitOn '/' :=
  List.splitOn_append_cons_self_of_not_mem List.not_mem_nil text

/-- A path that starts with a slash is joined again without it. -/
theorem gStrjoinv_drop_one : gStrjoinv ((gStrsplit ('/' :: text)).drop 1) = text := by
  rw [gStrsplit, if_neg (List.cons_ne_nil _ _), splitOn_cons_slash, gStrjoinv, List.drop_one,
    List.tail_cons, List.intercalate_splitOn]

theorem strstr_append : strstr (text ++ (word ++ rest)) word = true :=
  List.any_eq_true.mpr ⟨word ++ rest, (List.mem_tails _ _).mpr (List.suffix_append _ _),
    List.isPrefixOf_iff_prefix.mpr (List.prefix_append _ _)⟩

private theorem strstr_iff :
    strstr text word = true ↔ ∃ before after, text = before ++ (word ++ after) := by
  constructor
  · intro found
    obtain ⟨tail, member, begins⟩ := List.any_eq_true.mp found
    obtain ⟨before, rfl⟩ := (List.mem_tails _ _).mp member
    obtain ⟨after, rfl⟩ := List.isPrefixOf_iff_prefix.mp begins
    exact ⟨before, after, rfl⟩
  · rintro ⟨before, after, rfl⟩
    exact strstr_append

/-- A word between two slashes is a piece between two others. -/
theorem pieces_of_strstr (clean : '/' ∉ word) (found : strstr text ('/' :: (word ++ ['/'])) = true) :
    ∃ before after, before ≠ [] ∧ after ≠ [] ∧ text.splitOn '/' = before ++ word :: after := by
  obtain ⟨before, after, rfl⟩ := strstr_iff.mp found
  refine ⟨before.splitOn '/', after.splitOn '/', List.splitOn_ne_nil _ _, List.splitOn_ne_nil _ _, ?_⟩
  rw [List.cons_append, List.splitOn_append_cons_self, List.append_assoc, List.singleton_append,
    List.splitOn_append_cons_self_of_not_mem clean]

/-- A text with one ending has no other that is not an ending of it. -/
theorem gStrHasSuffix_other {other : Text} (has : gStrHasSuffix text word = true)
    (apart : gStrHasSuffix word other = false) (apart' : gStrHasSuffix other word = false) :
    gStrHasSuffix text other = false := by
  apply Bool.eq_false_iff.mpr
  intro both
  unfold gStrHasSuffix at has apart apart' both
  rw [List.isSuffixOf_iff_suffix] at has both
  rcases List.suffix_or_suffix_of_suffix has both with shorter | shorter
  · exact Bool.false_ne_true (apart'.symm.trans (List.isSuffixOf_iff_suffix.mpr shorter))
  · exact Bool.false_ne_true (apart.symm.trans (List.isSuffixOf_iff_suffix.mpr shorter))

end CString

import Restraint.Lib.CString

/-! Paths and their components: the names between the slashes. Joining paths joins their components,
whatever slashes stand around them. An absolute path is below a directory if its components go on
from those of the directory. Names without a slash can be put together and taken apart again. -/
namespace Path
open CString

/-- The names in a path. -/
def components (text : Text) : List Text := (text.splitOn '/').filter (· ≠ [])

/-- A name that can stand between two slashes. -/
structure Name where
  text : Text
  named : text ≠ []
  plain : '/' ∉ text
  deriving DecidableEq

/-- A relative path with a slash before every name, and one behind it when it is a directory. -/
def below (names : List Name) (directory : Bool) : Text :=
  names.flatMap (fun name => '/' :: name.text) ++ if directory then ['/'] else []

variable {text before after : Text} {names more : List Name} {directory : Bool}

@[simp] theorem components_nil : components [] = [] := by simp [components]

/-- A slash separates components. -/
theorem components_append_slash (before after : Text) : components (before ++ '/' :: after) =
    components before ++ components after := by
  rw [components, List.splitOn_append_cons_self, List.filter_append]
  rfl

private theorem components_slash : components ('/' :: after) = components after := by
  simpa using components_append_slash [] after

private theorem components_slashes (after : Text) (slashes : ∀ c ∈ before, c = '/') :
    components (before ++ after) = components after := by
  induction before with
  | nil => rfl
  | cons c before ih =>
    obtain ⟨rfl, rest⟩ := List.forall_mem_cons.mp slashes
    rw [List.cons_append, components_slash, ih rest]

private theorem components_append_slashes (slashes : ∀ c ∈ after, c = '/') :
    components (before ++ after) = components before := by
  cases after with
  | nil => rw [List.append_nil]
  | cons c after =>
    obtain ⟨rfl, rest⟩ := List.forall_mem_cons.mp slashes
    have none := components_slashes [] rest
    rw [List.append_nil, components_nil] at none
    rw [components_append_slash, none, List.append_nil]

private theorem mem_takeWhile_slash {c : Char} (member : c ∈ text.takeWhile (· == '/')) : c = '/' := by
  simpa using List.all_eq_true.mp List.all_takeWhile c member

private theorem components_dropWhile (text : Text) :
    components (text.dropWhile (· == '/')) = components text := by
  have split := List.takeWhile_append_dropWhile (p := (· == '/')) (l := text)
  conv_rhs => rw [← split]
  exact (components_slashes _ fun _ => mem_takeWhile_slash).symm

private theorem components_trimSlashes : components (trimSlashes text) = components text := by
  have split := List.takeWhile_append_dropWhile (p := (· == '/'))
    (l := (text.dropWhile (· == '/')).reverse)
  have whole := congrArg List.reverse split
  rw [List.reverse_append, List.reverse_reverse] at whole
  rw [← components_dropWhile text, ← whole, trimSlashes]
  refine (components_append_slashes fun c member => ?_).symm
  exact mem_takeWhile_slash (List.mem_reverse.mp member)

private theorem components_gStrjoinv {texts : List Text} :
    components (gStrjoinv texts) = texts.flatMap components := by
  unfold gStrjoinv
  induction texts with
  | nil => simp
  | cons text texts ih =>
    cases texts with
    | nil => simp
    | cons next texts =>
      rw [List.intercalate_cons_cons, List.append_assoc, List.singleton_append,
        components_append_slash, ih]
      rfl

/-- Joining paths joins their components. -/
theorem components_gBuildFilename {elements : List Text} :
    components (gBuildFilename elements) = elements.flatMap components := by
  have kept (texts : List Text) : (texts.filter (· ≠ [])).flatMap components = texts.flatMap components := by
    induction texts with
    | nil => rfl
    | cons text texts ih =>
      by_cases empty : text = []
      · rw [List.filter_cons_of_neg (by simpa using empty), ih, List.flatMap_cons, empty,
          components_nil, List.nil_append]
      · rw [List.filter_cons_of_pos (by simpa using empty), List.flatMap_cons, List.flatMap_cons, ih]
  rw [← kept elements, gBuildFilename]
  split
  · rename_i element only
    rw [only, List.flatMap_singleton]
  · rw [components_append_slashes fun c member => mem_takeWhile_slash member, components_slashes _
      fun c member => mem_takeWhile_slash member, components_gStrjoinv, kept, List.flatMap_map]
    simp only [components_trimSlashes]

/-- The components are the path without its slashes. -/
theorem flatten_components : (components text).flatten = text.filter (· ≠ '/') := by
  have pieces : (text.splitOn '/').flatten = text.filter (· ≠ '/') := by
    induction text with
    | nil => rfl
    | cons c text ih =>
      obtain ⟨head, tail, split⟩ := List.exists_cons_of_ne_nil (List.splitOn_ne_nil '/' text)
      rw [List.splitOn_cons_eq_if_modifyHead]
      rw [split] at ih ⊢
      by_cases slash : c = '/'
      · simpa [slash] using ih
      · simpa [slash] using ih
  rw [← pieces, components]
  induction text.splitOn '/' with
  | nil => rfl
  | cons piece pieces ih =>
    by_cases empty : piece = []
    · simpa [empty] using ih
    · simpa [empty] using ih

private theorem components_name (name : Name) : components name.text = [name.text] := by
  rw [components, List.splitOn_eq_singleton name.plain, List.filter_singleton]
  simp [name.named]

@[simp] theorem below_nil : below [] directory = if directory then ['/'] else [] := rfl

@[simp] theorem below_cons {name : Name} :
    below (name :: names) directory = '/' :: (name.text ++ below names directory) := by
  simp [below]

theorem below_append : below (names ++ more) directory = below names false ++ below more directory := by
  simp [below]

/-- What follows a path that was joined. -/
theorem components_append_below (before : Text) :
    components (before ++ below names directory) = components before ++ names.map Name.text := by
  induction names generalizing before with
  | nil =>
    rw [List.map_nil, List.append_nil, below_nil]
    apply components_append_slashes
    intro c member
    cases directory <;> simp_all
  | cons name names ih =>
    rw [below_cons, components_append_slash, ih, components_name, List.map_cons, List.singleton_append]

theorem components_below : components (below names directory) = names.map Name.text :=
  components_append_below []

theorem text_injective : Function.Injective Name.text := by
  intro name other same
  cases name
  cases other
  cases same
  rfl

/-- A path says which names it has. -/
theorem below_injective {directory' : Bool}
    (same : below names directory = below more directory') : names = more := by
  have texts := congrArg components same
  rw [components_below, components_below] at texts
  exact List.map_injective_iff.mpr text_injective texts

end Path

import Restraint.FetchUnpack
import Restraint.Lib.Path

/-! Fetching a sub-directory of a repository snapshot. The fragment of the URL names it; the code
takes every entry in whose path the fragment occurs anywhere, and what follows the first
occurrence for its path below the base path. -/
namespace Restraint.SubDirectory
open CString (Text gBuildFilename)
open Path (Name below components)
open Restraint.Fetch Restraint.FetchUri Restraint.FetchUnpack

universe u

/-- An entry of a snapshot, by its names below the top directory. -/
structure Node (File : Type u) where
  names : List Name
  directory : Bool
  file : File

/-- An archive whose entries all lie under one top directory, each at its own place. -/
structure Snapshot (File : Type u) where
  top : Name
  nodes : List (Node File)
  distinct : (nodes.map Node.names).Nodup

/-- A fragment of whole names. -/
structure Fragment where
  first : Name
  rest : List Name

def Fragment.names (fragment : Fragment) : List Name := fragment.first :: fragment.rest

def Fragment.text (fragment : Fragment) : Text := fragment.first.text ++ below fragment.rest false

variable {File : Type u} {write : Disk File → Text → File → Disk File} {disk : Disk File}

/-- The path of an entry in the archive. -/
def Snapshot.pathname (snapshot : Snapshot File) (node : Node File) : Text :=
  snapshot.top.text ++ below node.names node.directory

def Snapshot.entries (snapshot : Snapshot File) : List (Entry File) :=
  snapshot.nodes.map fun node => ⟨snapshot.pathname node, node.file⟩

/-- An entry at or below the fragment goes to the base path, followed by its path from there. -/
def subTarget (basePath : Text) (fragment : Fragment) (node : Node File) : Option Text :=
  if fragment.names <+: node.names then
    some (gBuildFilename [basePath, below (node.names.drop fragment.names.length) node.directory])
  else none

def Snapshot.items (snapshot : Snapshot File) (basePath : Text) (fragment : Fragment) :
    List (Item File) :=
  snapshot.nodes.map fun node =>
    ⟨snapshot.pathname node, subTarget basePath fragment node, node.file⟩

/-- A fetch of a sub-directory. -/
def fetch (write : Disk File → Text → File → Disk File) (basePath : Text) (fragment : Fragment)
    (snapshot : Snapshot File) (keepchanges : Bool) (disk : Disk File) : Unpacked File :=
  unpack httpArchiveReadCallback write ⟨some fragment.text, basePath, keepchanges, none, 0, 0⟩ disk
    snapshot.entries

/-- Exactly the entries at or below the fragment are extracted, no two to one place, and the
others are counted. -/
structure Exact (write : Disk File → Text → File → Disk File) (basePath : Text)
    (fragment : Fragment) (snapshot : Snapshot File) (keepchanges : Bool) (disk : Disk File)
    (unpacked : Unpacked File) : Prop where
  extracted : unpacked.extracted =
    (place write keepchanges disk (snapshot.items basePath fragment)).1
  nonmatch : unpacked.fetch.nonmatchCnt = UInt32.ofNat
    (snapshot.nodes.countP fun node => !decide (fragment.names <+: node.names))
  apart : unpacked.extracted.Pairwise fun one other => components one.2 ≠ components other.2

/-- The fragment is not found in the path of an entry, or it is found first right behind the top
directory, as whole names. An entry that is longer than the fragment by one is left out anyway. -/
def Clear (fragment : Fragment) (snapshot : Snapshot File) (node : Node File) : Prop :=
  (snapshot.pathname node).length = fragment.text.length + 1 ∨
    gStrstr (snapshot.pathname node) fragment.text = none ∨
    fragment.names <+: node.names ∧ gStrstr (snapshot.pathname node) fragment.text =
      some ((snapshot.pathname node).drop (snapshot.top.text.length + 1))

variable {text word found : Text} {fragment : Fragment} {snapshot : Snapshot File} {node : Node File}
  {basePath : Text}

/-! ## The first occurrence -/

/-- What is found ends the text and starts with the word. -/
theorem gStrstr_some (first : gStrstr text word = some found) : found <:+ text ∧ word <+: found :=
  ⟨(List.mem_tails _ _).mp (List.mem_of_find?_eq_some first),
    List.isPrefixOf_iff_prefix.mp (List.find?_some first)⟩

private theorem gStrstr_none (none : gStrstr text word = none) (ends : found <:+ text) :
    ¬word <+: found := by
  have absent := List.find?_eq_none.mp none found ((List.mem_tails _ _).mpr ends)
  exact fun starts => absent (List.isPrefixOf_iff_prefix.mpr starts)

/-- No longer end of the text starts with the word. -/
theorem gStrstr_first (first : gStrstr text word = some found) {other : Text} (ends : other <:+ text)
    (starts : word <+: other) : other <:+ found := by
  induction text with
  | nil =>
    rw [List.suffix_nil.mp ends]
    exact List.nil_suffix
  | cons c text ih =>
    rw [gStrstr, List.tails_cons] at first
    by_cases here : word.isPrefixOf (c :: text) = true
    · rw [List.find?_cons_of_pos here] at first
      cases first
      exact ends
    · rw [List.find?_cons_of_neg here] at first
      rcases List.suffix_cons_iff.mp ends with rfl | later
      · exact absurd (List.isPrefixOf_iff_prefix.mpr starts) here
      · exact ih first later

/-! ## One entry -/

/-- The path of an entry at or below the fragment. -/
theorem pathname_below (inside : fragment.names <+: node.names) :
    snapshot.pathname node = snapshot.top.text ++ '/' :: (fragment.text ++
      below (node.names.drop fragment.names.length) node.directory) := by
  obtain ⟨more, same⟩ := inside
  rw [Snapshot.pathname, ← same, List.drop_left, Path.below_append, Fragment.names, Path.below_cons,
    Fragment.text]
  simp

private theorem text_ne_nil (fragment : Fragment) : fragment.text ≠ [] := by
  simp [Fragment.text, fragment.first.named]

/-- The fragment does not start with a slash. -/
theorem text_head (fragment : Fragment) : fragment.text.head? ≠ some '/' := by
  rw [Fragment.text, List.head?_append_of_ne_nil _ fragment.first.named]
  intro slash
  exact fragment.first.plain (List.mem_of_head? slash)

/-- An entry at or below the fragment is longer than the fragment by two at least. -/
theorem length_below (inside : fragment.names <+: node.names) :
    (snapshot.pathname node).length ≠ fragment.text.length + 1 := by
  have named := List.length_pos_of_ne_nil snapshot.top.named
  rw [pathname_below inside]
  simp only [List.length_append, List.length_cons]
  omega

/-- The code's target for an entry. -/
theorem newPath_eq (keepchanges : Bool) :
    newPath ⟨some fragment.text, basePath, keepchanges, none, 0, 0⟩ (snapshot.pathname node) =
      (gStrstr (snapshot.pathname node) fragment.text).bind fun found =>
        if (snapshot.pathname node).length = fragment.text.length + 1 then none
        else some (gBuildFilename [basePath, found.drop fragment.text.length]) := rfl

/-- The length of the names in a path, without the slashes. -/
def weight (text : Text) : Nat := (components text).flatten.length

private theorem weight_append {more : Text} : weight (text ++ more) = weight text + weight more := by
  simp [weight, Path.flatten_components]

private theorem weight_gBuildFilename {more : Text} :
    weight (gBuildFilename [text, more]) = weight text + weight more := by
  simp [weight, Path.components_gBuildFilename]

/-- Only slashes have no names. -/
theorem slashes_of_weight (light : weight text = 0) : ∀ c ∈ text, c = '/' := by
  rw [weight, Path.flatten_components, List.length_eq_zero_iff, List.filter_eq_nil_iff] at light
  simpa using light

/-- What is found has the right path behind it only at the right place. -/
theorem found_eq {tail : Text} (starts : fragment.text <+: found)
    (behind : fragment.text ++ tail <:+ found) :
    gBuildFilename [basePath, found.drop fragment.text.length] = gBuildFilename [basePath, tail] ↔
      found = fragment.text ++ tail := by
  constructor
  · intro same
    obtain ⟨after, rfl⟩ := starts
    obtain ⟨front, whole⟩ := behind
    have weights := congrArg weight same
    rw [List.drop_left, weight_gBuildFilename, weight_gBuildFilename] at weights
    have light := congrArg weight whole
    rw [weight_append, weight_append, weight_append] at light
    cases front with
    | nil => exact whole.symm
    | cons c front =>
      have slash := slashes_of_weight (by omega : weight (c :: front) = 0) c List.mem_cons_self
      have head : (fragment.text ++ after).head? = fragment.text.head? :=
        List.head?_append_of_ne_nil _ (text_ne_nil fragment)
      rw [← whole, slash] at head
      exact absurd head.symm (text_head fragment)
  · rintro rfl
    rw [List.drop_left]

/-- The code's target for an entry is the right one if and only if the entry is clear. -/
theorem newPath_iff (basePath : Text) (keepchanges : Bool) :
    newPath ⟨some fragment.text, basePath, keepchanges, none, 0, 0⟩ (snapshot.pathname node) =
      subTarget basePath fragment node ↔ Clear fragment snapshot node := by
  rw [newPath_eq, subTarget, Clear]
  by_cases inside : fragment.names <+: node.names
  · let tail := below (node.names.drop fragment.names.length) node.directory
    have shape : snapshot.pathname node = snapshot.top.text ++ '/' :: (fragment.text ++ tail) :=
      pathname_below inside
    have ends : fragment.text ++ tail <:+ snapshot.pathname node :=
      ⟨snapshot.top.text ++ ['/'], by rw [shape]; simp⟩
    have drop : (snapshot.pathname node).drop (snapshot.top.text.length + 1) = fragment.text ++ tail := by
      rw [shape, ← List.drop_drop, List.drop_left]
      rfl
    cases first : gStrstr (snapshot.pathname node) fragment.text with
    | none => exact absurd (List.prefix_append _ _) (gStrstr_none first ends)
    | some found =>
      have behind := gStrstr_first first ends (List.prefix_append _ _)
      rw [Option.bind_some, if_neg (length_below inside), if_pos inside, Option.some_inj,
        found_eq (gStrstr_some first).2 behind, drop]
      simp [length_below inside, inside]
  · rw [if_neg inside]
    cases first : gStrstr (snapshot.pathname node) fragment.text with
    | none => simp
    | some found => simp [inside]

/-! ## The archive -/

/-- What an entry adds to what is extracted, when its target is not there. -/
def placed (item : Item File) : Option (Text × Text) := item.target.map (item.pathname, ·)

private theorem place_sublist {list : List (Item File)} {keepchanges : Bool} :
    (place write keepchanges disk list).1.Sublist (list.filterMap placed) := by
  induction list generalizing disk with
  | nil => exact List.Sublist.refl _
  | cons item list ih =>
    rw [place, List.filterMap_cons]
    cases target : item.target with
    | none => simpa [placed, target] using ih
    | some path =>
      have here : placed item = some (item.pathname, path) := by rw [placed, target]; rfl
      simp only [here]
      split
      · exact ih.cons_cons _
      · exact ih.cons _

/-- Without `keepchanges` everything is extracted. -/
theorem place_all {list : List (Item File)} :
    (place write false disk list).1 = list.filterMap placed := by
  induction list generalizing disk with
  | nil => rfl
  | cons item list ih =>
    rw [place, List.filterMap_cons]
    cases target : item.target with
    | none => simpa [placed, target] using ih
    | some path =>
      have here : placed item = some (item.pathname, path) := by rw [placed, target]; rfl
      simp [here, ih]

/-- The path of an entry says which names it has. -/
theorem names_of_pathname {other : Node File}
    (same : snapshot.pathname node = snapshot.pathname other) : node.names = other.names := by
  rw [Snapshot.pathname, Snapshot.pathname] at same
  exact Path.below_injective (List.append_cancel_left same)

/-- No two entries of a snapshot have one path. -/
theorem node_unique {other : Node File} (member : node ∈ snapshot.nodes)
    (member' : other ∈ snapshot.nodes) (same : node.names = other.names) : node = other :=
  List.inj_on_of_nodup_map snapshot.distinct member member' same

/-- Two entries at or below the fragment do not go to one place. -/
theorem targets_apart {other : Node File} {path path' : Text}
    (target : subTarget basePath fragment node = some path)
    (target' : subTarget basePath fragment other = some path') (apart : node.names ≠ other.names) :
    components path ≠ components path' := by
  unfold subTarget at target target'
  split at target <;> cases target
  split at target' <;> cases target'
  rename_i inside inside'
  intro same
  simp only [Path.components_gBuildFilename, List.flatMap_cons, List.flatMap_nil, List.append_nil,
    Path.components_below] at same
  have drops := List.map_injective_iff.mpr Path.text_injective (List.append_cancel_left same)
  apply apart
  rw [← List.prefix_iff_eq_append.mp inside, ← List.prefix_iff_eq_append.mp inside', drops]

/-- The items as the code sees them. -/
def codeItems (basePath : Text) (fragment : Fragment) (snapshot : Snapshot File)
    (keepchanges : Bool) : List (Item File) :=
  Fetch.items (newPath ⟨some fragment.text, basePath, keepchanges, none, 0, 0⟩) snapshot.entries

private theorem codeItems_eq (clear : ∀ node ∈ snapshot.nodes, Clear fragment snapshot node)
    (keepchanges : Bool) :
    codeItems basePath fragment snapshot keepchanges = snapshot.items basePath fragment := by
  rw [codeItems, Fetch.items, Snapshot.entries, List.map_map, Snapshot.items]
  apply List.map_congr_left
  intro node member
  simp only [Function.comp_apply, (newPath_iff basePath keepchanges).mpr (clear node member)]

private theorem fetch_eq (keepchanges : Bool) : fetch write basePath fragment snapshot keepchanges disk =
    ⟨atEnd (counted ⟨some fragment.text, basePath, keepchanges, none, 0, 0⟩
        (place write keepchanges disk (codeItems basePath fragment snapshot keepchanges)).1.length
        (snapshot.entries.countP fun entry =>
          (newPath ⟨some fragment.text, basePath, keepchanges, none, 0, 0⟩ entry.pathname).isNone)),
      (place write keepchanges disk (codeItems basePath fragment snapshot keepchanges)).2,
      (place write keepchanges disk (codeItems basePath fragment snapshot keepchanges)).1⟩ :=
  unpack_http

/-- An entry stands among what is placed with its own target. -/
theorem mem_placed (target : Node File → Option Text) {path : Text} (member : node ∈ snapshot.nodes) :
    (snapshot.pathname node, path) ∈ (snapshot.nodes.map fun node =>
        (⟨snapshot.pathname node, target node, node.file⟩ : Item File)).filterMap placed ↔
      target node = some path := by
  rw [List.mem_filterMap]
  constructor
  · rintro ⟨item, held, here⟩
    obtain ⟨other, member', rfl⟩ := List.mem_map.mp held
    obtain ⟨path, found, same⟩ := Option.map_eq_some_iff.mp here
    obtain ⟨path_eq, rfl⟩ := Prod.mk.inj same
    rw [← node_unique member' member (names_of_pathname path_eq)]
    exact found
  · intro found
    refine ⟨_, List.mem_map_of_mem member, ?_⟩
    rw [placed, found]
    rfl

private theorem nonmatchCnt_atEnd {data : FetchData} : (atEnd data).nonmatchCnt = data.nonmatchCnt := by
  unfold atEnd
  split <;> rfl

private theorem apart_items :
    ((snapshot.items basePath fragment).filterMap placed).Pairwise fun one other =>
      components one.2 ≠ components other.2 := by
  rw [Snapshot.items, List.filterMap_map]
  refine List.Pairwise.filterMap _ ?_ (List.pairwise_map.mp snapshot.distinct)
  intro node other apart one first two second
  obtain ⟨path, target, rfl⟩ := Option.map_eq_some_iff.mp first
  obtain ⟨path', target', rfl⟩ := Option.map_eq_some_iff.mp second
  exact targets_apart target target' apart

/-- **A sub-directory is extracted exactly, whatever is on the disk, if and only if every entry of
the snapshot is clear**: the fragment is found nowhere in its path, or first right behind the top
directory as whole names. -/
theorem sub_directory_iff (write : Disk File → Text → File → Disk File) (basePath : Text)
    (fragment : Fragment) (snapshot : Snapshot File) :
    (∀ keepchanges disk, Exact write basePath fragment snapshot keepchanges disk
        (fetch write basePath fragment snapshot keepchanges disk)) ↔
      ∀ node ∈ snapshot.nodes, Clear fragment snapshot node := by
  constructor
  · intro exact node member
    rw [← newPath_iff basePath false]
    have extracted := (exact false fun _ => none).extracted
    rw [fetch_eq, place_all, place_all, codeItems, Fetch.items, Snapshot.entries, List.map_map] at extracted
    apply Option.ext
    intro path
    rw [← mem_placed (subTarget basePath fragment) member]
    refine Iff.trans ?_ (iff_of_eq (congrArg ((snapshot.pathname node, path) ∈ ·) extracted))
    exact (mem_placed (fun node => newPath ⟨some fragment.text, basePath, false, none, 0, 0⟩
      (snapshot.pathname node)) member).symm
  · intro clear keepchanges disk
    rw [fetch_eq, codeItems_eq clear]
    refine ⟨rfl, ?_, apart_items.sublist place_sublist⟩
    simp only [nonmatchCnt_atEnd, counted, UInt32.zero_add, Snapshot.entries, List.countP_map]
    congr 1
    apply List.countP_congr
    intro node member
    rw [Function.comp_apply, (newPath_iff basePath keepchanges).mpr (clear node member), subTarget]
    by_cases inside : fragment.names <+: node.names <;> simp [inside]

def kernel : Name := ⟨"kernel".toList, by decide, by decide⟩
def old : Name := ⟨"old".toList, by decide, by decide⟩
def runtest : Name := ⟨"runtest.sh".toList, by decide, by decide⟩

/-- A repository with two directories of one name. -/
def twoKernels : Snapshot Nat where
  top := ⟨"tests-master".toList, by decide, by decide⟩
  nodes := [⟨[kernel, runtest], false, 1⟩, ⟨[old, kernel, runtest], false, 2⟩]
  distinct := by decide

/-- The other directory is extracted as well, to the same place. -/
theorem sub_directory_mixes :
    (fetch plainWrite "/mnt".toList ⟨kernel, []⟩ twoKernels false fun _ => none).extracted =
        [("tests-master/kernel/runtest.sh".toList, "/mnt/runtest.sh".toList),
          ("tests-master/old/kernel/runtest.sh".toList, "/mnt/runtest.sh".toList)] ∧
      ¬Exact plainWrite "/mnt".toList ⟨kernel, []⟩ twoKernels false (fun _ => none)
        (fetch plainWrite "/mnt".toList ⟨kernel, []⟩ twoKernels false fun _ => none) :=
  ⟨by decide, fun exact => absurd exact.extracted (by decide)⟩

end Restraint.SubDirectory

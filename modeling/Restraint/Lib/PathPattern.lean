import Restraint.Lib.CString
import Restraint.Lib.Regex
import Mathlib.Data.List.Chain
import Mathlib.Data.List.Forall2
import Mathlib.Data.List.TakeWhile

/-! Regular expressions that ask something of the last components of a path. Such an expression is
found in a path exactly if the last components are as asked. The pattern is compiled to the
sequences of literals and classes of `Regex`, and the theorem says when a search finds it, so that a
proof about routes needs the components only. -/
namespace PathPattern
open CString (Text)

/-- What is asked of one component: a word, or characters of a class. -/
inductive Component where
  | word (text : Text) (clean : '/' ∉ text)
  | some (cls : Regex.Class)

def Component.Holds : Component → Text → Prop
  | .word text _, name => name = text
  | .some cls, name => name ≠ [] ∧ ∀ c ∈ name, cls.holds c = true

/-- A component of a pattern, with the slash before it. -/
def Component.items : Component → Regex.Pattern
  | .word text _ => [.literal ('/' :: text)]
  | .some cls => [.literal ['/'], .some cls]

/-- The pattern of a path that ends in these components. -/
def pattern (parts : List Component) : Regex.Pattern := parts.flatMap Component.items ++ [.stop]

/-- Components, each after a slash. -/
def trail (names : List Text) : Text := names.flatMap fun name => '/' :: name

/-- The last components of the names are as asked. -/
def EndsIn (parts : List Component) (names : List Text) : Prop :=
  ∃ last, List.Forall₂ Component.Holds parts last ∧ last <:+ names

variable {part : Component} {parts : List Component} {name text rest : Text} {names : List Text}
  {after : Regex.Pattern}

/-! ## Components of a path -/

theorem trail_append {more : List Text} : trail (names ++ more) = trail names ++ trail more :=
  List.flatMap_append

private theorem trail_splitOn : trail (text.splitOn '/') = '/' :: text := by
  have joined (first : Text) (names : List Text) :
      trail (first :: names) = '/' :: ['/'].intercalate (first :: names) := by
    induction names generalizing first with
    | nil => simp [trail, List.intercalate_singleton]
    | cons second names ih =>
      rw [List.intercalate_cons_cons, ← List.singleton_append, trail_append, ih]
      simp [trail]
  cases split : text.splitOn '/' with
  | nil => exact absurd split (List.splitOn_ne_nil _ _)
  | cons first names => rw [joined, ← split, List.intercalate_splitOn]

private theorem splitOn_trail (clean : ∀ name ∈ names, '/' ∉ name) (first : '/' ∉ name) :
    (name ++ trail names).splitOn '/' = name :: names := by
  induction names generalizing name with
  | nil => rw [trail, List.flatMap_nil, List.append_nil, List.splitOn_eq_singleton first]
  | cons second names ih =>
    have more : trail (second :: names) = '/' :: (second ++ trail names) := rfl
    rw [more, List.splitOn_append_cons_self_of_not_mem first,
      ih (fun name member => clean name (List.mem_cons_of_mem _ member))
        (clean second List.mem_cons_self)]

/-- A path ends in components exactly if they are the last of its components. -/
theorem trail_suffix_iff (clean : ∀ name ∈ names, '/' ∉ name) :
    trail names <:+ '/' :: text ↔ names <:+ text.splitOn '/' := by
  constructor
  · rintro ⟨before, whole⟩
    cases names with
    | nil => exact List.nil_suffix
    | cons name names =>
      have split := congrArg (List.splitOn '/') whole
      rw [CString.splitOn_cons_slash, show trail (name :: names) = '/' :: (name ++ trail names) from rfl,
        List.splitOn_append_cons_self, splitOn_trail
          (fun name member => clean name (List.mem_cons_of_mem _ member))
          (clean name List.mem_cons_self)] at split
      cases pieces : before.splitOn '/' with
      | nil => exact absurd pieces (List.splitOn_ne_nil _ _)
      | cons first pieces' =>
        rw [pieces, List.cons_append, List.cons.injEq] at split
        exact ⟨pieces', split.2⟩
  · rintro ⟨before, whole⟩
    refine ⟨trail before, ?_⟩
    rw [← trail_append, whole, trail_splitOn]

theorem Component.Holds.clean (holds : part.Holds name) : '/' ∉ name := by
  cases part with
  | word text clean =>
    cases holds
    exact clean
  | some cls =>
    intro member
    have slash := holds.2 '/' member
    cases cls <;> cases slash

theorem Component.Holds.all_clean (holds : List.Forall₂ Component.Holds parts names) :
    ∀ name ∈ names, '/' ∉ name := by
  induction holds with
  | nil => exact fun _ member => nomatch member
  | cons first _ ih => exact List.forall_mem_cons.mpr ⟨first.clean, ih⟩

/-! ## What a pattern matches -/

theorem matchHere_literal_iff : Regex.matchHere (.literal name :: after) text = true ↔
    ∃ rest, text = name ++ rest ∧ Regex.matchHere after rest = true := by
  constructor
  · intro here
    simp only [Regex.matchHere, Bool.and_eq_true, List.isPrefixOf_iff_prefix] at here
    exact ⟨_, (List.prefix_iff_eq_append.mp here.1).symm, here.2⟩
  · rintro ⟨rest, rfl, later⟩
    exact Regex.matchHere_literal later

/-- Two literals are one. -/
theorem matchHere_literal_append (name rest : Text) :
    Regex.matchHere (.literal (name ++ rest) :: after) text =
      Regex.matchHere (.literal name :: .literal rest :: after) text := by
  rw [Bool.eq_iff_iff]
  simp only [matchHere_literal_iff]
  constructor
  · rintro ⟨later, rfl, here⟩
    exact ⟨rest ++ later, List.append_assoc _ _ _, later, rfl, here⟩
  · rintro ⟨_, rfl, later, rfl, here⟩
    exact ⟨later, (List.append_assoc _ _ _).symm, here⟩

theorem matchHere_congr {item : Regex.Item} {before : Regex.Pattern}
    (same : ∀ text, Regex.matchHere before text = Regex.matchHere after text) :
    Regex.matchHere (item :: before) text = Regex.matchHere (item :: after) text := by
  cases item <;> simp only [Regex.matchHere, same]

theorem search_congr {before : Regex.Pattern}
    (same : ∀ text, Regex.matchHere before text = Regex.matchHere after text) :
    Regex.search before text = Regex.search after text := by
  unfold Regex.search
  rw [funext same]

private theorem matchHere_some_iff {cls : Regex.Class} :
    Regex.matchHere (.some cls :: after) text = true ↔
    ∃ name rest, text = name ++ rest ∧ (Component.some cls).Holds name ∧
      Regex.matchHere after rest = true := by
  constructor
  · intro here
    simp only [Regex.matchHere, List.any_eq_true, List.mem_range] at here
    obtain ⟨n, short, later⟩ := here
    refine ⟨text.take (n + 1), text.drop (n + 1), (List.take_append_drop _ _).symm,
      ⟨fun empty => ?_, fun c member => ?_⟩, later⟩
    · have length := congrArg List.length empty
      have whole := (List.takeWhile_prefix (l := text) cls.holds).length_le
      rw [List.length_take, List.length_nil] at length
      omega
    · have taken : text.take (n + 1) <+: text.takeWhile cls.holds :=
        List.prefix_of_prefix_length_le (List.take_prefix _ _) (List.takeWhile_prefix _)
          (by rw [List.length_take]; omega)
      exact List.mem_takeWhile_imp (taken.subset member)
  · rintro ⟨name, rest, rfl, ⟨nonempty, ofClass⟩, later⟩
    exact Regex.matchHere_some nonempty ofClass later

private theorem matchHere_pattern_iff : Regex.matchHere (pattern parts) text = true ↔
    ∃ names, List.Forall₂ Component.Holds parts names ∧ text = trail names := by
  induction parts generalizing text with
  | nil =>
    constructor
    · intro here
      simp only [pattern, List.flatMap_nil, List.nil_append, Regex.matchHere,
        Bool.and_true, List.isEmpty_iff] at here
      exact ⟨[], .nil, here⟩
    · rintro ⟨names, none, rfl⟩
      cases none
      rfl
  | cons part parts ih =>
    have split : pattern (part :: parts) = part.items ++ pattern parts := by
      simp [pattern]
    have first : Regex.matchHere (part.items ++ pattern parts) text = true ↔
        ∃ name rest, text = '/' :: name ++ rest ∧ part.Holds name ∧
          Regex.matchHere (pattern parts) rest = true := by
      cases part with
      | word own clean =>
        rw [Component.items, List.singleton_append, matchHere_literal_iff]
        constructor
        · rintro ⟨rest, rfl, later⟩
          exact ⟨own, rest, rfl, rfl, later⟩
        · rintro ⟨name, rest, rfl, holds, later⟩
          cases holds
          exact ⟨rest, rfl, later⟩
      | some cls =>
        rw [Component.items, List.cons_append, List.singleton_append, matchHere_literal_iff]
        constructor
        · rintro ⟨_, rfl, later⟩
          obtain ⟨name, rest, rfl, holds, later⟩ := matchHere_some_iff.mp later
          exact ⟨name, rest, rfl, holds, later⟩
        · rintro ⟨name, rest, rfl, holds, later⟩
          exact ⟨name ++ rest, rfl, matchHere_some_iff.mpr ⟨name, rest, rfl, holds, later⟩⟩
    rw [split, first]
    constructor
    · rintro ⟨name, rest, rfl, holds, later⟩
      obtain ⟨names, all, rfl⟩ := ih.mp later
      exact ⟨name :: names, .cons holds all, rfl⟩
    · rintro ⟨_, all, rfl⟩
      cases all with
      | cons holds all => exact ⟨_, _, rfl, holds, ih.mpr ⟨_, all, rfl⟩⟩

/-- A pattern is found in a path exactly if the path ends in its components. -/
theorem search_pattern_iff : Regex.search (pattern parts) ('/' :: text) = true ↔
    EndsIn parts (text.splitOn '/') := by
  unfold Regex.search EndsIn
  rw [List.any_eq_true]
  constructor
  · rintro ⟨suffix, member, here⟩
    obtain ⟨names, all, rfl⟩ := matchHere_pattern_iff.mp here
    exact ⟨names, all, (trail_suffix_iff (Component.Holds.all_clean all)).mp
      ((List.mem_tails _ _).mp member)⟩
  · rintro ⟨names, all, last⟩
    exact ⟨trail names, (List.mem_tails _ _).mpr
      ((trail_suffix_iff (Component.Holds.all_clean all)).mpr last),
      matchHere_pattern_iff.mpr ⟨names, all, rfl⟩⟩

/-! ## Paths with a fixed part -/

/-- Components that cannot lie across a place in the path, where one component follows another, are
the last ones after that place. -/
theorem endsIn_append_iff {front : List Text} (head : ∀ part ∈ parts.head?, ¬part.Holds text)
    (pairs : parts.IsChain fun first second => second.Holds text → ¬first.Holds name) :
    EndsIn parts (front ++ name :: text :: names) ↔ EndsIn parts names := by
  have whole : front ++ name :: text :: names = (front ++ [name] ++ [text]) ++ names := by simp
  constructor
  · rintro ⟨last, all, suffix⟩
    have rest : names <:+ front ++ name :: text :: names := by
      rw [whole]
      exact List.suffix_append _ _
    rcases List.suffix_or_suffix_of_suffix suffix rest with short | ⟨across, rfl⟩
    · exact ⟨last, all, short⟩
    · have placed : across <:+ front ++ [name] ++ [text] := by
        obtain ⟨before, same⟩ := suffix
        rw [whole, ← List.append_assoc] at same
        exact ⟨before, List.append_cancel_right same⟩
      rcases List.suffix_concat_iff.mp placed with rfl | ⟨shorter, rfl, before⟩
      · exact ⟨names, all, List.suffix_rfl⟩
      rcases List.suffix_concat_iff.mp before with rfl | ⟨shortest, rfl, -⟩
      · cases all with
        | cons first _ => exact absurd first (head _ rfl)
      · rw [List.append_assoc, List.append_assoc] at all
        have later := List.forall₂_drop_append _ _ _ all
        have chain := pairs.drop shortest.length
        cases dropped : parts.drop shortest.length with
        | nil => rw [dropped] at later; cases later
        | cons first rest =>
          rw [dropped] at later chain
          cases later with
          | cons holds later =>
            cases later with
            | cons next _ => exact absurd holds ((List.isChain_cons_cons.mp chain).1 next)
  · rintro ⟨last, all, suffix⟩
    refine ⟨last, all, suffix.trans ?_⟩
    rw [whole]
    exact List.suffix_append _ _

end PathPattern

import Mathlib.Data.List.Infix
import Mathlib.Data.List.TakeDrop

/-! Regular expressions that are sequences of literals and repeated character classes, and where in
a text they match. There are no alternatives and no groups, so matching needs no search but for
where to begin and how far a class goes. Literals match themselves. -/
namespace Regex

/-- `[:alnum:]` and `[:digit:]` in the C locale. -/
inductive Class where
  | alnum
  | digit
  deriving DecidableEq

def Class.holds : Class → Char → Bool
  | .alnum => Char.isAlphanum
  | .digit => Char.isDigit

inductive Item where
  | literal (text : List Char)
  /-- `[[:class:]]+`. -/
  | some (cls : Class)
  /-- `$`, the end of the text. -/
  | stop
  deriving DecidableEq

abbrev Pattern := List Item

/-- The pattern matches a beginning of the text. -/
def matchHere : Pattern → List Char → Bool
  | [], _ => true
  | .literal word :: rest, text => word.isPrefixOf text && matchHere rest (text.drop word.length)
  | .some cls :: rest, text =>
    (List.range (text.takeWhile cls.holds).length).any fun n => matchHere rest (text.drop (n + 1))
  | .stop :: rest, text => text.isEmpty && matchHere rest text

/-- The pattern matches somewhere in the text: `regexec`. -/
def search (pattern : Pattern) (text : List Char) : Bool := text.tails.any (matchHere pattern)

variable {before after pattern : Pattern} {word text rest : List Char} {cls : Class}

@[simp] theorem matchHere_nil : matchHere [] text = true := rfl

@[simp] theorem matchHere_stop : matchHere [.stop] [] = true := rfl

theorem matchHere_literal (later : matchHere pattern rest = true) :
    matchHere (.literal word :: pattern) (word ++ rest) = true := by
  simp [matchHere, later]

/-- A class takes any nonempty run of its characters. -/
theorem matchHere_some (nonempty : word ≠ []) (ofClass : ∀ c ∈ word, cls.holds c = true)
    (later : matchHere pattern rest = true) :
    matchHere (.some cls :: pattern) (word ++ rest) = true := by
  have positive : 0 < word.length := List.length_pos_iff.mpr nonempty
  have long : word.length ≤ ((word ++ rest).takeWhile cls.holds).length := by
    rw [List.takeWhile_append_of_pos ofClass, List.length_append]
    exact Nat.le_add_right _ _
  have there : (word ++ rest).drop (word.length - 1 + 1) = rest := by
    rw [Nat.sub_add_cancel positive, List.drop_left]
  simp only [matchHere, List.any_eq_true, List.mem_range]
  refine ⟨word.length - 1, by omega, ?_⟩
  rw [there]
  exact later

theorem search_of_matchHere (here : matchHere pattern text = true) : search pattern text = true :=
  List.any_eq_true.mpr ⟨text, (List.mem_tails text text).mpr List.suffix_rfl, here⟩

/-- What is left of the text where the rest of a pattern matches is a suffix. -/
theorem matchHere_append (here : matchHere (before ++ after) text = true) :
    ∃ rest, rest <:+ text ∧ matchHere after rest = true := by
  induction before generalizing text with
  | nil => exact ⟨text, List.suffix_rfl, here⟩
  | cons item before ih =>
    rw [List.cons_append] at here
    cases item with
    | literal word =>
      simp only [matchHere, Bool.and_eq_true] at here
      obtain ⟨rest, suffix, later⟩ := ih here.2
      exact ⟨rest, suffix.trans (List.drop_suffix _ _), later⟩
    | some cls =>
      simp only [matchHere, List.any_eq_true] at here
      obtain ⟨n, -, here⟩ := here
      obtain ⟨rest, suffix, later⟩ := ih here
      exact ⟨rest, suffix.trans (List.drop_suffix _ _), later⟩
    | stop =>
      simp only [matchHere, Bool.and_eq_true] at here
      exact ih here.2

/-- A pattern that ends in a literal and `$` matches only texts that end in the
literal. -/
theorem suffix_of_search (found : search (before ++ [.literal word, .stop]) text = true) :
    word <:+ text := by
  obtain ⟨tail, member, here⟩ := List.any_eq_true.mp found
  obtain ⟨rest, suffix, last⟩ := matchHere_append here
  simp only [matchHere, Bool.and_eq_true, List.isPrefixOf_iff_prefix, List.isEmpty_iff,
    List.drop_eq_nil_iff] at last
  obtain ⟨begins, ends, -⟩ := last
  rw [begins.eq_of_length_le ends]
  exact suffix.trans ((List.mem_tails tail text).mp member)

end Regex

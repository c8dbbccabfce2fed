import Mathlib.Data.List.TakeWhile

/-! Ranges of lines: from a line of one kind up to and including the next one of another. A text is
taken apart into its ranges and the lines outside, and blank lines put the ranges into paragraphs. -/
namespace Ranges

universe u
variable {α : Type u}

/-- The lines of the ranges. The end is looked for from the line behind the first one on. -/
def inside (first last : α → Bool) : Bool → List α → List α
  | _, [] => []
  | true, x :: lines => x :: inside first last (!last x) lines
  | false, x :: lines => if first x then x :: inside first last true lines else inside first last false lines

/-- The other lines. -/
def outside (first last : α → Bool) : Bool → List α → List α
  | _, [] => []
  | true, x :: lines => outside first last (!last x) lines
  | false, x :: lines =>
    if first x then outside first last true lines else x :: outside first last false lines

/-- A text with its ranges and the lines outside. The last range may have no end. -/
inductive Parts (first last : α → Bool) : List α → List (List α) → List α → Prop where
  | nil : Parts first last [] [] []
  | plain (other : first x = false) (more : Parts first last lines ranges rest) :
      Parts first last (x :: lines) ranges (x :: rest)
  | range (begins : first x = true) (body : ∀ y ∈ between, last y = false) (ends : last z = true)
      (more : Parts first last lines ranges rest) :
      Parts first last (x :: (between ++ z :: lines)) ((x :: (between ++ [z])) :: ranges) rest
  | unended (begins : first x = true) (body : ∀ y ∈ between, last y = false) :
      Parts first last (x :: between) [x :: between] []

variable {first last blank : α → Bool} {x z : α} {lines between rest : List α} {ranges : List (List α)}

/-- Every text has its parts. -/
theorem exists_parts (lines : List α) : ∃ ranges rest, Parts first last lines ranges rest := by
  induction size : lines.length using Nat.strongRecOn generalizing lines with
  | ind n ih =>
    cases lines with
    | nil => exact ⟨[], [], .nil⟩
    | cons x lines =>
      cases begins : first x with
      | false =>
        obtain ⟨ranges, rest, parts⟩ := ih lines.length (by rw [← size]; exact Nat.lt_succ_self _) lines rfl
        exact ⟨ranges, x :: rest, .plain begins parts⟩
      | true =>
        have body : ∀ y ∈ lines.takeWhile (!last ·), last y = false := by
          intro y member
          simpa using List.mem_takeWhile_imp member
        cases tail : lines.dropWhile (!last ·) with
        | nil =>
          have whole : lines.takeWhile (!last ·) = lines := by
            rw [← List.append_nil (lines.takeWhile _), ← tail, List.takeWhile_append_dropWhile]
          rw [whole] at body
          exact ⟨[x :: lines], [], .unended begins body⟩
        | cons z later =>
          have split : lines = lines.takeWhile (!last ·) ++ z :: later := by
            rw [← tail, List.takeWhile_append_dropWhile]
          have ends : last z = true := by
            have some : lines.dropWhile (!last ·) ≠ [] := by simp [tail]
            have stopped := List.head_dropWhile_not (!last ·) some
            simpa [tail] using stopped
          have shorter : later.length < n := by
            have counted := congrArg List.length split
            rw [List.length_append, List.length_cons] at counted
            rw [← size, List.length_cons]
            omega
          obtain ⟨ranges, rest, parts⟩ := ih later.length shorter later rfl
          have whole := parts.range begins body ends
          rw [← split] at whole
          exact ⟨_, rest, whole⟩

private theorem inside_body (body : ∀ y ∈ between, last y = false) (lines : List α) :
    inside first last true (between ++ lines) = between ++ inside first last true lines := by
  induction between with
  | nil => rfl
  | cons y between ih =>
    obtain ⟨own, body⟩ := List.forall_mem_cons.mp body
    rw [List.cons_append, inside, own, Bool.not_false, ih body, List.cons_append]

private theorem outside_body (body : ∀ y ∈ between, last y = false) (lines : List α) :
    outside first last true (between ++ lines) = outside first last true lines := by
  induction between with
  | nil => rfl
  | cons y between ih =>
    obtain ⟨own, body⟩ := List.forall_mem_cons.mp body
    rw [List.cons_append, outside, own, Bool.not_false, ih body]

theorem Parts.inside (parts : Parts first last lines ranges rest) :
    inside first last false lines = ranges.flatten := by
  induction parts with
  | nil => rfl
  | plain other more ih => rw [Ranges.inside, if_neg (by simp [other]), ih]
  | range begins body ends more ih =>
    rw [Ranges.inside, if_pos begins, inside_body body, Ranges.inside, ends, Bool.not_true, ih]
    simp
  | @unended x between begins body =>
    rw [Ranges.inside, if_pos begins, ← List.append_nil between, inside_body body, Ranges.inside]
    simp

theorem Parts.outside (parts : Parts first last lines ranges rest) :
    outside first last false lines = rest := by
  induction parts with
  | nil => rfl
  | plain other more ih => rw [Ranges.outside, if_neg (by simp [other]), ih]
  | range begins body ends more ih =>
    rw [Ranges.outside, if_pos begins, outside_body body, Ranges.outside, ends, Bool.not_true, ih]
  | @unended x between begins body =>
    rw [Ranges.outside, if_pos begins, ← List.append_nil between, outside_body body, Ranges.outside]

/-! ## Paragraphs -/

/-- The groups of lines between blank ones. -/
def paragraphs (blank : α → Bool) (lines : List α) : List (List α) :=
  (lines.splitOnP blank).filter (!·.isEmpty)

/-- A blank line goes behind every line of the last kind. -/
def spaced (last : α → Bool) (space : α) (lines : List α) : List α :=
  lines.flatMap fun x => if last x then [x, space] else [x]

private theorem paragraphs_of_no_blank (none : ∀ x ∈ lines, blank x = false) (some : lines ≠ []) :
    paragraphs blank lines = [lines] := by
  rw [paragraphs, List.splitOnP_eq_singleton none]
  simp [some]

private theorem paragraphs_append {space : α} (none : ∀ x ∈ lines, blank x = false) (some : lines ≠ [])
    (separates : blank space = true) :
    paragraphs blank (lines ++ space :: rest) = lines :: paragraphs blank rest := by
  rw [paragraphs, List.splitOnP_append_cons_of_forall_mem none _ separates, List.filter_cons_of_pos (by simp [some]),
    paragraphs]

private theorem spaced_of_no_last {space : α} (none : ∀ x ∈ lines, last x = false) :
    spaced last space lines = lines := by
  induction lines with
  | nil => rfl
  | cons x lines ih =>
    obtain ⟨own, none⟩ := List.forall_mem_cons.mp none
    rw [spaced, List.flatMap_cons, ← spaced, ih none, own]
    rfl

/-- No line of a range is blank, and no range ends with its first line. -/
def Clean (last blank : α → Bool) (range : List α) : Prop :=
  (∀ x ∈ range, blank x = false) ∧ ∀ x, range.head? = some x → last x = false

/-- The ranges come out as paragraphs. -/
theorem Parts.paragraphs {space : α} (parts : Parts first last lines ranges rest)
    (clean : ∀ range ∈ ranges, Clean last blank range) (separates : blank space = true) :
    paragraphs blank (spaced last space ranges.flatten) = ranges := by
  induction parts with
  | nil => rfl
  | plain other more ih => exact ih clean
  | @range x between z lines ranges rest begins body ends more ih =>
    obtain ⟨⟨none, head⟩, clean⟩ := List.forall_mem_cons.mp clean
    have front : ∀ y ∈ x :: between, last y = false := List.forall_mem_cons.mpr ⟨head x rfl, body⟩
    have shape : spaced last space ((x :: (between ++ [z])) :: ranges).flatten =
        (x :: (between ++ [z])) ++ space :: spaced last space ranges.flatten := by
      have split : ((x :: (between ++ [z])) :: ranges).flatten = (x :: between) ++ z :: ranges.flatten := by simp
      rw [split, spaced, List.flatMap_append, ← spaced, spaced_of_no_last front, List.flatMap_cons, ← spaced,
        if_pos ends]
      simp
    rw [shape, paragraphs_append none (List.cons_ne_nil _ _) separates, ih clean]
  | @unended x between begins body =>
    obtain ⟨none, head⟩ := clean _ List.mem_cons_self
    have whole : ∀ y ∈ x :: between, last y = false := List.forall_mem_cons.mpr ⟨head x rfl, body⟩
    rw [List.flatten_singleton, spaced_of_no_last whole, paragraphs_of_no_blank none (List.cons_ne_nil _ _)]

end Ranges

import Mathlib.Data.List.Basic

/-! Lines of a stream that arrives in pieces: the lines that have ended, and what is left of the
last one. Cutting the stream elsewhere changes nothing: the lines of a piece behind what was left
over are those of the whole. A stream that has ended may still leave a line without its separator.
-/

universe u
variable {α : Type u} [DecidableEq α]

namespace Lines

/-- The lines that end with the separator, without it. -/
def ended (separator : α) (stream : List α) : List (List α) := (stream.splitOn separator).dropLast

/-- What follows the last separator. -/
def unfinished (separator : α) (stream : List α) : List α :=
  ((stream.splitOn separator).getLast?).getD []

variable {separator : α} {stream line more : List α}

@[simp] theorem ended_nil : ended separator [] = [] := by simp [ended]

@[simp] theorem unfinished_nil : unfinished separator [] = [] := by simp [unfinished]

theorem ended_of_not_mem (inside : separator ∉ stream) : ended separator stream = [] := by
  rw [ended, List.splitOn_eq_singleton inside]
  rfl

theorem unfinished_of_not_mem (inside : separator ∉ stream) :
    unfinished separator stream = stream := by
  rw [unfinished, List.splitOn_eq_singleton inside]
  rfl

private theorem ended_append_cons : ended separator (stream ++ separator :: more) =
    stream.splitOn separator ++ ended separator more := by
  rw [ended, List.splitOn_append_cons_self,
    List.dropLast_append_of_ne_nil (List.splitOn_ne_nil separator more), ended]

theorem unfinished_append_cons :
    unfinished separator (stream ++ separator :: more) = unfinished separator more := by
  rw [unfinished, List.splitOn_append_cons_self,
    List.getLast?_append_of_ne_nil _ (List.splitOn_ne_nil separator more), unfinished]

/-- A line and the separator behind it. -/
theorem ended_line (inside : separator ∉ line) :
    ended separator (line ++ separator :: more) = line :: ended separator more := by
  rw [ended_append_cons, List.splitOn_eq_singleton inside, List.singleton_append]

/-- A stream has no separator, or is cut at its last one. -/
theorem cut_last (separator : α) (stream : List α) :
    separator ∉ stream ∨ ∃ before behind, stream = before ++ separator :: behind ∧
      separator ∉ behind := by
  by_cases inside : separator ∈ stream
  · obtain ⟨behind, before, shape, apart⟩ :=
      List.eq_append_cons_of_mem (List.mem_reverse.mpr inside)
    refine .inr ⟨before.reverse, behind.reverse, ?_, by simpa using apart⟩
    rw [← stream.reverse_reverse, shape]
    simp
  · exact .inl inside

theorem not_mem_unfinished : separator ∉ unfinished separator stream := by
  obtain none | ⟨before, behind, rfl, apart⟩ := cut_last separator stream
  · rw [unfinished_of_not_mem none]
    exact none
  · rw [unfinished_append_cons, unfinished_of_not_mem apart]
    exact apart

/-- Reading on goes on with the unfinished line. -/
theorem ended_append (stream more : List α) : ended separator (stream ++ more) =
    ended separator stream ++ ended separator (unfinished separator stream ++ more) := by
  obtain none | ⟨before, behind, rfl, apart⟩ := cut_last separator stream
  · rw [unfinished_of_not_mem none, ended_of_not_mem none, List.nil_append]
  · rw [List.append_assoc, List.cons_append, ended_append_cons, ended_append_cons,
      unfinished_append_cons, ended_of_not_mem apart, unfinished_of_not_mem apart, List.append_nil]

theorem unfinished_append (stream more : List α) : unfinished separator (stream ++ more) =
    unfinished separator (unfinished separator stream ++ more) := by
  obtain none | ⟨before, behind, rfl, apart⟩ := cut_last separator stream
  · rw [unfinished_of_not_mem none]
  · rw [List.append_assoc, List.cons_append, unfinished_append_cons, unfinished_append_cons,
      unfinished_of_not_mem apart]

end Lines

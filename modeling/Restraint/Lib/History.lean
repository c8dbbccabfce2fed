import Mathlib.Data.List.Basic

/-! Histories: what happened, the newest first. A property of a history says of every entry what it
takes of the entries before it. Such a property is kept by a step that adds entries if it holds of
the entries added, each with those below it. What happened since the last reset is a suffix of the
history. -/
namespace History

universe u
variable {α : Type u}

/-- Every entry meets a condition on what came before it. -/
def Always (P : List α → α → Prop) : List α → Prop
  | [] => True
  | entry :: older => P older entry ∧ Always P older

/-- The entries after the last one that resets. -/
def since (resets : α → Bool) : List α → List α
  | [] => []
  | entry :: older => if resets entry then [] else entry :: since resets older

variable {P : List α → α → Prop} {resets : α → Bool} {entry : α} {older history : List α}

@[simp] theorem always_nil : Always P [] := trivial

theorem always_cons : Always P (entry :: older) ↔ P older entry ∧ Always P older := Iff.rfl

/-- What every entry meets. -/
theorem always_of_mem (always : Always P history) (member : entry ∈ history) :
    ∃ older, older ⊆ history ∧ P older entry := by
  induction history with
  | nil => cases member
  | cons first older ih =>
    rcases List.mem_cons.mp member with rfl | earlier
    · exact ⟨older, List.subset_cons_self .., always.1⟩
    · obtain ⟨rest, within, met⟩ := ih always.2 earlier
      exact ⟨rest, fun _ held => List.mem_cons_of_mem _ (within held), met⟩

/-- One more entry, if there is one. -/
theorem always_toList {added : Option α} (before : Always P history)
    (new : ∀ entry ∈ added, P history entry) : Always P (added.toList ++ history) := by
  cases added with
  | none => exact before
  | some entry => exact ⟨new entry rfl, before⟩

@[simp] theorem since_nil : since resets [] = [] := rfl

theorem since_cons : since resets (entry :: older) =
    if resets entry then [] else entry :: since resets older := rfl

/-- What does not reset comes on top. -/
theorem since_toList {added : Option α} (calm : ∀ entry ∈ added, resets entry = false) :
    since resets (added.toList ++ history) = added.toList ++ since resets history := by
  cases added with
  | none => rfl
  | some entry => simp [since_cons, calm entry rfl]

end History
